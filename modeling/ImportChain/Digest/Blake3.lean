/-
ImportChain.Digest.Blake3 — the BLAKE3 hash of a list of bytes, 256 bits.

The input is cut into chunks of 1024 bytes and these into blocks of 64.
Inside a chunk each block is compressed onto the chaining value of those
before it; chunks are then merged in pairs, an odd last one being carried
over, until one node is left. That pairing gives every left subtree the
largest power of two of chunks that leaves some for the right.

A node is kept uncompressed until it is known whether it is the root.
-/

namespace ImportChain.Digest.Blake3

/-- A chaining value. -/
abbrev Chain := Vector UInt32 8

/-- The words of a block, or the state of a compression. -/
abbrev Block := Vector UInt32 16

def initial : Chain :=
  #v[0x6A09E667, 0xBB67AE85, 0x3C6EF372, 0xA54FF53A, 0x510E527F, 0x9B05688C, 0x1F83D9AB, 0x5BE0CD19]

/-! ## Compression -/

/-- Rotation to the right by fewer than 32 places. -/
def rotateRight (x : UInt32) (n : UInt32) : UInt32 := (x >>> n) ||| (x <<< (32 - n))

/-- The mixing of two message words into four words of the state. -/
def mix (v : Block) (a b c d : Fin 16) (x y : UInt32) : Block :=
  let v := v.set a (v[a] + v[b] + x)
  let v := v.set d (rotateRight (v[d] ^^^ v[a]) 16)
  let v := v.set c (v[c] + v[d])
  let v := v.set b (rotateRight (v[b] ^^^ v[c]) 12)
  let v := v.set a (v[a] + v[b] + y)
  let v := v.set d (rotateRight (v[d] ^^^ v[a]) 8)
  let v := v.set c (v[c] + v[d])
  v.set b (rotateRight (v[b] ^^^ v[c]) 7)

/-- One round: the columns of the state, then its diagonals. -/
def round (v m : Block) : Block :=
  let v := mix v 0 4 8 12 m[0] m[1]
  let v := mix v 1 5 9 13 m[2] m[3]
  let v := mix v 2 6 10 14 m[4] m[5]
  let v := mix v 3 7 11 15 m[6] m[7]
  let v := mix v 0 5 10 15 m[8] m[9]
  let v := mix v 1 6 11 12 m[10] m[11]
  let v := mix v 2 7 8 13 m[12] m[13]
  mix v 3 4 9 14 m[14] m[15]

/-- The order of the message words in the next round. -/
def permute (m : Block) : Block :=
  #v[m[2], m[6], m[3], m[10], m[7], m[0], m[4], m[13],
     m[1], m[11], m[12], m[5], m[9], m[14], m[15], m[8]]

/-- A number of rounds, the message words permuted between them. -/
def rounds : Nat → Block → Block → Block
  | 0, v, _ => v
  | n + 1, v, m => rounds n (round v m) (permute m)

/-- What one compression reads. -/
structure Node where
  chain : Chain
  block : Block
  counter : UInt64
  length : UInt32
  flags : UInt32

def chunkStart : UInt32 := 1
def chunkEnd : UInt32 := 2
def parent : UInt32 := 4
def root : UInt32 := 8

def Node.compress (n : Node) (flags : UInt32) : Chain :=
  let h := n.chain
  let v : Block := #v[h[0], h[1], h[2], h[3], h[4], h[5], h[6], h[7],
    0x6A09E667, 0xBB67AE85, 0x3C6EF372, 0xA54FF53A,
    n.counter.toUInt32, (n.counter >>> 32).toUInt32, n.length, n.flags ||| flags]
  let v := rounds 7 v n.block
  #v[v[0] ^^^ v[8], v[1] ^^^ v[9], v[2] ^^^ v[10], v[3] ^^^ v[11],
     v[4] ^^^ v[12], v[5] ^^^ v[13], v[6] ^^^ v[14], v[7] ^^^ v[15]]

/-! ## Chunks -/

/-- The pieces of length `n` of a list, the last one possibly shorter. -/
def pieces {α : Type} (n : Nat) (xs : List α) : List (List α) :=
  match h : xs.drop n with
  | [] => [xs]
  | y :: rest =>
    if hn : n = 0 then [xs]
    else
      have : rest.length + 1 < xs.length := by
        have := congrArg List.length h
        simp only [List.length_drop, List.length_cons] at this
        omega
      xs.take n :: pieces n (y :: rest)
termination_by xs.length

/-- The byte at a position, zero past the end. -/
def byteAt (bytes : Array UInt8) (i : Nat) : UInt32 := (bytes.getD i 0).toUInt32

def wordsOf (bytes : List UInt8) : Block :=
  let bytes := bytes.toArray
  Vector.ofFn fun (i : Fin 16) =>
    byteAt bytes (4 * i) ||| (byteAt bytes (4 * i + 1) <<< 8)
      ||| (byteAt bytes (4 * i + 2) <<< 16) ||| (byteAt bytes (4 * i + 3) <<< 24)

/-- The last node of a chunk, from the blocks that are left. -/
def chunkNode (counter : UInt64) (chain : Chain) (flags : UInt32) : List (List UInt8) → Node
  | [] => ⟨chain, wordsOf [], counter, 0, flags ||| chunkEnd⟩
  | [last] => ⟨chain, wordsOf last, counter, last.length.toUInt32, flags ||| chunkEnd⟩
  | block :: rest =>
    let node : Node := ⟨chain, wordsOf block, counter, block.length.toUInt32, flags⟩
    chunkNode counter (node.compress 0) 0 rest

/-- The nodes of the chunks of an input, from the chunk with this number. -/
def chunkNodes (counter : UInt64) : List (List UInt8) → List Node
  | [] => []
  | chunk :: rest =>
    chunkNode counter initial chunkStart (pieces 64 chunk) :: chunkNodes (counter + 1) rest

/-! ## Tree -/

/-- The node above two nodes. -/
def parentNode (left right : Node) : Node :=
  let l := left.compress 0
  let r := right.compress 0
  ⟨initial, l ++ r, 0, 64, parent⟩

/-- Neighbours merged in pairs. -/
def pairUp : List Node → List Node
  | left :: right :: rest => parentNode left right :: pairUp rest
  | short => short

theorem length_pairUp_le (nodes : List Node) : (pairUp nodes).length ≤ nodes.length := by
  fun_induction pairUp nodes with
  | case1 left right rest ih => simp only [List.length_cons]; omega
  | case2 => exact Nat.le_refl _

def rootNode (first : Node) (rest : List Node) : Node :=
  match rest with
  | [] => first
  | second :: others =>
    have : (pairUp others).length < others.length + 1 :=
      Nat.lt_succ_of_le (length_pairUp_le others)
    rootNode (parentNode first second) (pairUp others)
termination_by rest.length

def bytesOf (w : UInt32) : List UInt8 :=
  [w.toUInt8, (w >>> 8).toUInt8, (w >>> 16).toUInt8, (w >>> 24).toUInt8]

/-- The 32 bytes of the hash. -/
def hash (input : List UInt8) : List UInt8 :=
  match chunkNodes 0 (pieces 1024 input) with
  | [] => []
  | first :: rest => ((rootNode first rest).compress root).toList.flatMap bytesOf

end ImportChain.Digest.Blake3
