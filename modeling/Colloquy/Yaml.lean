import Colloquy.Yaml.Scalar
import Colloquy.Yaml.Token

/-!
YAML texts as trees. A node may have an anchor, by which it is repeated elsewhere, and a tag.
-/

namespace Colloquy

inductive Yaml where
  /-- A scalar that is not what its tag tells, or a node that is repeated inside of itself. -/
  | unfit
  | scalar (s : Yaml.Scalar)
  | list (items : List Yaml)
  /-- All entries in order. No two of them have the same key. -/
  | map (entries : List (Yaml.Scalar × Yaml))

namespace Yaml

/-- The entries of a map whose keys and values are given one after the other. What is unfit does not
count as a key, so that the next node does. A key at the end without a value does not count. -/
def entriesOf : List Yaml → Option (List (Scalar × Yaml))
  | [] | [_] => some []
  | unfit :: nodes => entriesOf nodes
  | scalar key :: value :: nodes => do
    let entries ← entriesOf nodes
    if key = .null || entries.any fun entry => entry.1 = key then none
    else some ((key, value) :: entries)
  | _ => none

def mapOf (nodes : List Yaml) : Option Yaml := (entriesOf nodes).map map

/-- A document that is being read: the tokens that are left, and the nodes with anchors so far. One
that has not ended has no tree yet. -/
structure Reader where
  tokens : List Token
  anchors : List (String × Option Yaml) := []

namespace Reader

def skip (r : Reader) : Reader := { r with tokens := r.tokens.drop 1 }

/-- The last node with an anchor. -/
def find? (r : Reader) (anchor : String) : Option Yaml :=
  (r.anchors.reverse.find? fun entry => entry.1 = anchor).map fun entry => entry.2.getD unfit

def settle (r : Reader) (anchor : Option Nat) (node : Yaml) : Reader :=
  match anchor with
  | none => r
  | some number =>
    { r with anchors := r.anchors.modify number fun entry => (entry.1, some node) }

end Reader

/-- What stands before a node: an anchor, of which the number is kept, and a tag. -/
structure Label where
  anchor : Option Nat := none
  tag : Option Tag := none

/-- A tag with its handle replaced by the text that it stands for. Only handles between two marks
have to stand for one. -/
def resolve (handles : List (String × String)) (tag : Tag) : Option Tag :=
  match handles.lookup tag.handle with
  | some text => some { tag with handle := text }
  | none =>
    if tag.handle = "!!" then some { tag with handle := Scalar.coreHandle }
    else if isClosed tag.handle.toList then none
    else some tag

def takeAnchor (r : Reader) : Option Nat × Reader :=
  match r.tokens with
  | .anchor name :: tokens =>
    (some r.anchors.length, ⟨tokens, r.anchors ++ [(name, none)]⟩)
  | _ => (none, r)

def takeTag (handles : List (String × String)) (r : Reader) : Option (Option Tag × Reader) :=
  match r.tokens with
  | .tag t :: _ => (resolve handles t).map fun tag => (some tag, r.skip)
  | _ => some (none, r)

def takeLabel (handles : List (String × String)) (r : Reader) : Option (Label × Reader) := do
  let (before, r) := takeAnchor r
  let (tag, r) ← takeTag handles r
  let (after, r) := if before.isNone && tag.isSome then takeAnchor r else (none, r)
  some (⟨before <|> after, tag⟩, r)

def ofScalar (isPlain : Bool) (tag : Option Tag) (s : String) : Yaml :=
  if !isPlain then scalar (.text s)
  else
    match tag with
    | none => scalar (.ofPlain s.toList)
    | some tag => ((Scalar.ofTagged tag s.toList).map scalar).getD unfit

/-- Where a node stands. Lists and maps between brackets have brackets. -/
inductive Place where
  | inFlow
  | inBlock
  /-- In a map without braces, where the dashes of a list need no indentation. -/
  | field
deriving DecidableEq

abbrev Take := Place → Reader → Option (Yaml × Reader)

/-- A node behind a sign. It is null if the sign is missing, or if one of some tokens follows. -/
def takePart (take : Take) (place : Place) (sign : Token) (ends : List Token) (r : Reader) :
    Option (Yaml × Reader) :=
  if r.tokens.head? = some sign then
    if r.skip.tokens.head?.any (· ∈ ends) then some (scalar .null, r.skip) else take place r.skip
  else some (scalar .null, r)

/-- The items of a list without brackets, of which there are `most` at most. If its dashes are not
indented nothing marks its end. -/
def takeBlockItems (take : Take) (isIndented : Bool) : Nat → Reader → Option (List Yaml × Reader)
  | 0, _ => none
  | most + 1, r =>
    match r.tokens with
    | .item :: _ => do
      let ends := if isIndented then [.item, .blockEnd] else [.item, .key, .value, .blockEnd]
      let (item, r) ← takePart take .inBlock .item ends r
      let (items, r) ← takeBlockItems take isIndented most r
      some (item :: items, r)
    | .blockEnd :: _ => some ([], if isIndented then r.skip else r)
    | _ => if isIndented then none else some ([], r)

/-- The keys and values of a map without braces, of which there are `most` at most. -/
def takeBlockFields (take : Take) : Nat → Reader → Option (List Yaml × Reader)
  | 0, _ => none
  | most + 1, r =>
    match r.tokens with
    | .blockEnd :: _ => some ([], r.skip)
    | .key :: _ | .value :: _ => do
      let ends := [.key, .value, .blockEnd]
      let (key, r) ← takePart take .field .key ends r
      let (value, r) ← takePart take .field .value ends r
      let (nodes, r) ← takeBlockFields take most r
      some (key :: value :: nodes, r)
    | _ => none

/-- The keys and values of a map in braces, of which there are `most` at most. -/
def takeFlowFields (take : Take) : Nat → Reader → Option (List Yaml × Reader)
  | 0, _ => none
  | most + 1, r =>
    match r.tokens with
    | .mapEnd :: _ => some ([], r.skip)
    | token :: _ => do
      let ends := [.comma, .mapEnd]
      let (key, r) ← if token = .key ∨ token = .value then
          takePart take .inFlow .key (.value :: ends) r
        else take .inFlow r
      let (value, r) ← if token = .key ∨ token = .value then
          takePart take .inFlow .value ends r
        else some (scalar .null, r)
      match r.tokens with
      | .mapEnd :: _ => some ([key, value], r.skip)
      | .comma :: _ =>
        let (nodes, r) ← takeFlowFields take most r.skip
        some (key :: value :: nodes, r)
      | _ => none
    | [] => none

/-- An item of a list in brackets, which a question mark makes a map of one entry. -/
def takeFlowItem (take : Take) (r : Reader) : Option (Yaml × Reader) :=
  if r.tokens.head? = some .key then do
    let (key, r) ← take .inFlow r.skip
    let (value, r) ← takePart take .inFlow .value [.comma, .listEnd] r
    some (← mapOf [key, value], r)
  else take .inFlow r

/-- The items of a list in brackets, of which there are `most` at most. -/
def takeFlowItems (take : Take) : Nat → Reader → Option (List Yaml × Reader)
  | 0, _ => none
  | most + 1, r =>
    match r.tokens with
    | .listEnd :: _ => some ([], r.skip)
    | _ => do
      let (item, r) ← takeFlowItem take r
      match r.tokens with
      | .listEnd :: _ => some ([item], r.skip)
      | .comma :: _ =>
        let (items, r) ← takeFlowItems take most r.skip
        some (item :: items, r)
      | _ => none

/-- What is behind an anchor and a tag. There may be nothing, which is an empty scalar. -/
def takeContent (take : Take) (label : Label) (place : Place) (r : Reader) :
    Option (Yaml × Reader) :=
  let asList (t : List Yaml × Reader) : Yaml × Reader := (list t.1, t.2)
  let asMap (t : List Yaml × Reader) : Option (Yaml × Reader) :=
    (mapOf t.1).map fun node => (node, t.2)
  let most := r.tokens.length
  match r.tokens.head?, place with
  | some (.scalar isPlain text), _ => some (ofScalar isPlain label.tag text, r.skip)
  | some .listStart, _ => (takeFlowItems take most r.skip).map asList
  | some .mapStart, _ => (takeFlowFields take most r.skip).bind asMap
  | some .blockList, .inBlock | some .blockList, .field =>
    (takeBlockItems take true most r.skip).map asList
  | some .blockMap, .inBlock | some .blockMap, .field =>
    (takeBlockFields take most r.skip).bind asMap
  | some .item, .field => (takeBlockItems take false most r).map asList
  | _, _ =>
    if label.anchor.isSome || label.tag.isSome then some (ofScalar true label.tag "", r) else none

def takeNode (handles : List (String × String)) : Nat → Take
  | 0, _, _ => none
  | depth + 1, place, r =>
    match r.tokens with
    | .repeated anchor :: _ => (r.find? anchor).map fun node => (node, r.skip)
    | _ => do
      let (label, r) ← takeLabel handles r
      let (node, r) ← takeContent (takeNode handles depth) label place r
      some (node, r.settle label.anchor node)

/-- What directives give the handles in tags for a meaning; only the last directive does. There may
be one for the version. -/
def handlesOf (directives : List Directive) : Option (List (String × String)) :=
  let versions := directives.countP fun d => match d with
    | .version => true
    | _ => false
  if 1 < versions then none
  else
    match directives.getLast? with
    | some (.expansion handle text) => some [(handle, text)]
    | _ => some []

def takeDirectives : List Token → List Directive × List Token
  | .directive d :: tokens =>
    let (directives, tokens) := takeDirectives tokens
    (d :: directives, tokens)
  | tokens => ([], tokens)

/-- The tree of a document. It is null if nothing follows the mark of its beginning, without which
there must not be directives. -/
def takeDocument (tokens : List Token) : Option (Yaml × Reader) := do
  let (directives, tokens) := takeDirectives tokens
  let handles ← handlesOf directives
  let take (tokens : List Token) := takeNode handles tokens.length .inBlock ⟨tokens, []⟩
  match tokens with
  | .documentStart :: tokens =>
    match tokens with
    | [] | .directive _ :: _ | .documentStart :: _ | .documentEnd :: _ =>
      some (scalar .null, ⟨tokens, []⟩)
    | _ => take tokens
  | _ => if directives.isEmpty then take tokens else none

/-- The tree of a text, which ends where there is a zero character. A text without a document is an
empty map. -/
def read (cs : List Char) : Option Yaml := do
  let tokens ← Token.ofChars (cs.takeWhile (· ≠ '\x00'))
  match tokens.dropWhile (· = .documentEnd) with
  | [] => some (map [])
  | tokens =>
    let (node, r) ← takeDocument tokens
    if r.tokens.all (· = .documentEnd) then some node else none

end Yaml

end Colloquy
