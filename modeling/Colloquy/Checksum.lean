/-!
The BLAKE3 digest of bytes: chunks of 1024 bytes are compressed block by block, and their chaining
values are combined in pairs until one node is left.
-/

namespace Colloquy.Checksum

structure Row where
  a : UInt32
  b : UInt32
  c : UInt32
  d : UInt32

def Row.toList (r : Row) : List UInt32 := [r.a, r.b, r.c, r.d]

def Row.ofList (ws : List UInt32) : Row :=
  ⟨ws.getD 0 0, ws.getD 1 0, ws.getD 2 0, ws.getD 3 0⟩

def rotateRight (w : UInt32) (n : UInt32) : UInt32 := (w >>> n) ||| (w <<< (32 - n))

def initial : List UInt32 :=
  [0x6A09E667, 0xBB67AE85, 0x3C6EF372, 0xA54FF53A, 0x510E527F, 0x9B05688C, 0x1F83D9AB, 0x5BE0CD19]

/-- Mixes two message words into one word of each row. -/
def mix (a b c d x y : UInt32) : UInt32 × UInt32 × UInt32 × UInt32 :=
  let a := a + b + x
  let d := rotateRight (d ^^^ a) 16
  let c := c + d
  let b := rotateRight (b ^^^ c) 12
  let a := a + b + y
  let d := rotateRight (d ^^^ a) 8
  let c := c + d
  let b := rotateRight (b ^^^ c) 7
  (a, b, c, d)

structure State where
  a : Row
  b : Row
  c : Row
  d : Row

/-- One round: the columns, then the diagonals, take up the sixteen message words. -/
def State.round (s : State) (m : List UInt32) : State :=
  let w (i : Nat) : UInt32 := m.getD i 0
  let (a0, b0, c0, d0) := mix s.a.a s.b.a s.c.a s.d.a (w 0) (w 1)
  let (a1, b1, c1, d1) := mix s.a.b s.b.b s.c.b s.d.b (w 2) (w 3)
  let (a2, b2, c2, d2) := mix s.a.c s.b.c s.c.c s.d.c (w 4) (w 5)
  let (a3, b3, c3, d3) := mix s.a.d s.b.d s.c.d s.d.d (w 6) (w 7)
  let (a0, b1, c2, d3) := mix a0 b1 c2 d3 (w 8) (w 9)
  let (a1, b2, c3, d0) := mix a1 b2 c3 d0 (w 10) (w 11)
  let (a2, b3, c0, d1) := mix a2 b3 c0 d1 (w 12) (w 13)
  let (a3, b0, c1, d2) := mix a3 b0 c1 d2 (w 14) (w 15)
  ⟨⟨a0, a1, a2, a3⟩, ⟨b0, b1, b2, b3⟩, ⟨c0, c1, c2, c3⟩, ⟨d0, d1, d2, d3⟩⟩

/-- The order in which the words of a round are taken by the next. -/
def schedule : List Nat := [2, 6, 3, 10, 7, 0, 4, 13, 1, 11, 12, 5, 9, 14, 15, 8]

def permute (m : List UInt32) : List UInt32 := schedule.map fun i => m.getD i 0

def rounds : Nat → State → List UInt32 → State
  | 0, s, _ => s
  | n + 1, s, m => rounds n (s.round m) (permute m)

def chunkStart : UInt32 := 1

def chunkEnd : UInt32 := 2

def parent : UInt32 := 4

def root : UInt32 := 8

/-- What is left to compress: a chaining value, a block and how they are to be taken. -/
structure Node where
  chaining : List UInt32
  block : List UInt32
  counter : UInt64
  length : UInt32
  flags : UInt32

def Node.compress (n : Node) : List UInt32 :=
  let start : State :=
    ⟨Row.ofList n.chaining, Row.ofList (n.chaining.drop 4), Row.ofList initial,
      ⟨n.counter.toUInt32, (n.counter >>> 32).toUInt32, n.length, n.flags⟩⟩
  let s := rounds 7 start n.block
  List.zipWith (· ^^^ ·) (s.a.toList ++ s.b.toList) (s.c.toList ++ s.d.toList)

/-- A word from four bytes, lowest first; missing bytes are zero. -/
def wordOf (bytes : List UInt8) : UInt32 :=
  bytes.foldr (fun b w => w * 256 + b.toUInt32) 0

/-- Cuts a list into pieces of at most `n + 1` items. -/
def pieces {α : Type} (n : Nat) : List α → List (List α)
  | [] => []
  | x :: rest => (x :: rest.take n) :: pieces n (rest.drop n)
termination_by xs => xs.length
decreasing_by
  simp only [List.length_drop, List.length_cons]
  omega

def blockWords (bytes : List UInt8) : List UInt32 :=
  let words := (pieces 3 bytes).map wordOf
  words ++ List.replicate (16 - words.length) 0

/-- The node of a chunk: all blocks but the last are compressed. -/
def chunkNode (counter : UInt64) (chaining : List UInt32) (flags : UInt32) :
    List (List UInt8) → Node
  | [] => ⟨chaining, blockWords [], counter, 0, flags ||| chunkEnd⟩
  | [block] =>
    ⟨chaining, blockWords block, counter, block.length.toUInt32, flags ||| chunkEnd⟩
  | block :: rest =>
    let done : Node := ⟨chaining, blockWords block, counter, block.length.toUInt32, flags⟩
    chunkNode counter done.compress 0 rest

def chunkNodes (counter : UInt64) : List (List UInt8) → List Node
  | [] => []
  | chunk :: rest =>
    chunkNode counter initial chunkStart (pieces 63 chunk) :: chunkNodes (counter + 1) rest

def parentNode (left right : Node) : Node :=
  ⟨initial, left.compress ++ right.compress, 0, 64, parent⟩

/-- Combines neighbours in pairs; an odd last node stays as it is. -/
def pairUp : List Node → List Node
  | left :: right :: rest => parentNode left right :: pairUp rest
  | rest => rest

theorem pairUp_length : ∀ nodes : List Node, (pairUp nodes).length ≤ nodes.length
  | [] => Nat.le_refl _
  | [_] => Nat.le_refl _
  | _ :: _ :: rest => by
    have := pairUp_length rest
    simp only [pairUp, List.length_cons]
    omega

/-- The root of the tree over nodes, `first` being the first of them. -/
def treeRoot (first : Node) : List Node → Node
  | [] => first
  | second :: rest => treeRoot (parentNode first second) (pairUp rest)
termination_by nodes => nodes.length
decreasing_by exact Nat.lt_succ_of_le (pairUp_length rest)

def digest (bytes : List UInt8) : List UInt32 :=
  let node := match chunkNodes 0 (pieces 1023 bytes) with
    | [] => chunkNode 0 initial chunkStart []
    | first :: rest => treeRoot first rest
  ({ node with flags := node.flags ||| root } : Node).compress

def hexDigit (n : Nat) : Char := (Nat.digitChar n)

def hexByte (b : Nat) : List Char := [hexDigit (b / 16), hexDigit (b % 16)]

def hexWord (w : UInt32) : List Char :=
  let n := w.toNat
  hexByte (n % 256) ++ hexByte (n / 256 % 256) ++ hexByte (n / 65536 % 256) ++
    hexByte (n / 16777216)

def hex (bytes : List UInt8) : List Char := (digest bytes).flatMap hexWord

end Colloquy.Checksum
