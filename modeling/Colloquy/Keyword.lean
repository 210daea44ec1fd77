import Colloquy.Text.LetterNumber
import Colloquy.Text.Lowercase

/-!
Keywords are maximal runs of letters and numbers in lower case. A text matches a query when each
keyword of the query is inside one of its own.
-/

namespace Colloquy.Keyword
open Colloquy.Text

/-- Splits a text into its maximal runs of letters and numbers; `run` is the run read so far,
last character first. -/
def runsFrom (run : List Char) : List Char → List (List Char)
  | [] => if run.isEmpty then [] else [run.reverse]
  | c :: rest =>
    if isLetterOrNumber c then runsFrom (c :: run) rest
    else if run.isEmpty then runsFrom [] rest
    else run.reverse :: runsFrom [] rest

def runs (text : List Char) : List (List Char) := runsFrom [] text

/-- The keywords of a text in the order of the text, repetitions included. -/
def ofText (text : List Char) : List (List Char) := (runs text).map lower

def occursIn (word : List Char) : List Char → Bool
  | [] => word.isEmpty
  | c :: rest => word.isPrefixOf (c :: rest) || occursIn word rest

/-- Whether every keyword of the query occurs in a keyword of the target. A query without keywords
matches every target. -/
def matchesText (query target : List Char) : Bool :=
  let available := ofText target
  (ofText query).all fun wanted => available.any (occursIn wanted)

def sorted (text : List Char) : List String :=
  (((ofText text).map String.ofList).eraseDups).mergeSort fun a b => decide (a ≤ b)

end Colloquy.Keyword
