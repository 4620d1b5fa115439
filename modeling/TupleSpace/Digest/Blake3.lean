/-!
# BLAKE3

The 256-bit BLAKE3 hash of a byte string, without a key.  The input is cut into chunks of 1024
bytes, a chunk into blocks of 64 bytes, and the chunks are the leaves of a binary tree whose left
subtrees are complete.  Nothing is claimed here about collisions.
-/

namespace TupleSpace.Blake3

/-- Eight words: a chaining value. -/
abbrev Chain := Vector UInt32 8

/-- Sixteen words: a message block, or the state of the compression function. -/
abbrev Block := Vector UInt32 16

/-- The words that every chain starts from. -/
def initialChain : Chain :=
  #v[0x6A09E667, 0xBB67AE85, 0x3C6EF372, 0xA54FF53A, 0x510E527F, 0x9B05688C, 0x1F83D9AB, 0x5BE0CD19]

/-- The order in which a round's message words are taken for the next round. -/
def messageOrder : Vector (Fin 16) 16 :=
  #v[2, 6, 3, 10, 7, 0, 4, 13, 1, 11, 12, 5, 9, 14, 15, 8]

/-- Marks the first block of a chunk. -/
def chunkStart : UInt32 := 1

/-- Marks the last block of a chunk. -/
def chunkEnd : UInt32 := 2

/-- Marks an inner node of the tree. -/
def parentNode : UInt32 := 4

/-- Marks the node whose output is the hash. -/
def rootNode : UInt32 := 8

/-- Rotation to the right by `n`, which is between 1 and 31. -/
def rotateRight (w n : UInt32) : UInt32 :=
  (w >>> n) ||| (w <<< (32 - n))

/-- Mixes two message words into one column or diagonal. -/
def mix (s : Block) (a b c d : Fin 16) (x y : UInt32) : Block :=
  let va := s[a] + s[b] + x
  let vd := rotateRight (s[d] ^^^ va) 16
  let vc := s[c] + vd
  let vb := rotateRight (s[b] ^^^ vc) 12
  let va := va + vb + y
  let vd := rotateRight (vd ^^^ va) 8
  let vc := vc + vd
  let vb := rotateRight (vb ^^^ vc) 7
  (((s.set a va).set b vb).set c vc).set d vd

/-- One round: the four columns, then the four diagonals. -/
def round (s m : Block) : Block :=
  let s := mix s 0 4 8 12 m[0] m[1]
  let s := mix s 1 5 9 13 m[2] m[3]
  let s := mix s 2 6 10 14 m[4] m[5]
  let s := mix s 3 7 11 15 m[6] m[7]
  let s := mix s 0 5 10 15 m[8] m[9]
  let s := mix s 1 6 11 12 m[10] m[11]
  let s := mix s 2 7 8 13 m[12] m[13]
  mix s 3 4 9 14 m[14] m[15]

/-- So many rounds, the message words reordered in between. -/
def rounds : Nat → Block → Block → Block
  | 0, s, _ => s
  | n + 1, s, m => rounds n (round s m) (messageOrder.map fun i => m[i])

/-- What a node of the tree feeds to the compression function. -/
structure Node where
  chain : Chain
  block : Block
  counter : Nat
  length : UInt32
  flags : UInt32

/-- The chaining value of a node, with further marks. -/
def Node.compress (n : Node) (marks : UInt32) : Chain :=
  let h := n.chain
  let i := initialChain
  let start : Block :=
    #v[h[0], h[1], h[2], h[3], h[4], h[5], h[6], h[7], i[0], i[1], i[2], i[3],
      UInt32.ofNat n.counter, UInt32.ofNat (n.counter / 4294967296), n.length, n.flags ||| marks]
  let s := rounds 7 start n.block
  #v[s[0] ^^^ s[8], s[1] ^^^ s[9], s[2] ^^^ s[10], s[3] ^^^ s[11],
    s[4] ^^^ s[12], s[5] ^^^ s[13], s[6] ^^^ s[14], s[7] ^^^ s[15]]

/-- The chaining value of a node below the root. -/
def Node.toChain (n : Node) : Chain :=
  n.compress 0

/-- The little-endian word at a position, absent bytes being zero. -/
def wordAt (bytes : Array UInt8) (at_ : Nat) : UInt32 :=
  let byte (k : Nat) : UInt32 := (bytes.getD (at_ + k) 0).toUInt32
  byte 0 ||| (byte 1 <<< 8) ||| (byte 2 <<< 16) ||| (byte 3 <<< 24)

/-- The message block of at most 64 bytes that starts at a position. -/
def blockAt (bytes : Array UInt8) (at_ : Nat) : Block :=
  Vector.ofFn fun i => wordAt bytes (at_ + 4 * i.val)

/-- The node of a chunk whose block at a position is next, with `left` bytes to come. -/
def chunkFrom (bytes : Array UInt8) (counter : Nat) :
    Nat → Chain → Nat → Nat → UInt32 → Node
  | 0, chain, at_, left, start =>
    ⟨chain, blockAt (bytes.extract 0 (at_ + left)) at_, counter, UInt32.ofNat left,
      start ||| chunkEnd⟩
  | fuel + 1, chain, at_, left, start =>
    if left ≤ 64 then
      ⟨chain, blockAt (bytes.extract 0 (at_ + left)) at_, counter, UInt32.ofNat left,
        start ||| chunkEnd⟩
    else
      let next := (Node.mk chain (blockAt bytes at_) counter 64 start).toChain
      chunkFrom bytes counter fuel next (at_ + 64) (left - 64) 0

/-- The node of a chunk of at most 1024 bytes. -/
def chunkNode (bytes : Array UInt8) (counter : Nat) : Node :=
  chunkFrom bytes counter 15 initialChain 0 bytes.size chunkStart

/-- An inner node. -/
def parent (left right : Chain) : Node :=
  ⟨initialChain, left.append right |>.cast (by decide), 0, 64, parentNode⟩

/-- The number of chunks on the left of `n + 2` chunks: the greatest power of two that leaves at
least one chunk for the right. -/
def leftChunks (n : Nat) : Nat :=
  Nat.pow 2 (Nat.log2 (n + 1))

/-- The node over a run of chunks of which the first has the given number; `fuel` is at least the
number of chunks. -/
def treeNode : Nat → Nat → List (Array UInt8) → Node
  | 0, counter, chunks => chunkNode (chunks.headD #[]) counter
  | fuel + 1, counter, chunks =>
    match chunks with
    | a :: b :: rest =>
      let n := leftChunks rest.length
      let left := treeNode fuel counter ((a :: b :: rest).take n)
      let right := treeNode fuel (counter + n) ((a :: b :: rest).drop n)
      parent left.toChain right.toChain
    | _ => chunkNode (chunks.headD #[]) counter

/-- The chunks of an input, at least one; `fuel` is at least their number. -/
def chunksOf : Nat → Array UInt8 → List (Array UInt8)
  | 0, bytes => [bytes]
  | fuel + 1, bytes =>
    if bytes.size ≤ 1024 then [bytes]
    else bytes.extract 0 1024 :: chunksOf fuel (bytes.extract 1024 bytes.size)

/-- The four bytes of a word, the least significant first. -/
def wordBytes (w : UInt32) : List UInt8 :=
  [w.toUInt8, (w >>> 8).toUInt8, (w >>> 16).toUInt8, (w >>> 24).toUInt8]

/-- The hash of an input: 32 bytes. -/
def hash (bytes : ByteArray) : List UInt8 :=
  let chunks := chunksOf (bytes.size / 1024 + 1) bytes.data
  let root := treeNode chunks.length 0 chunks
  (root.compress rootNode).toList.flatMap wordBytes

/-- The lower-case hexadecimal digits of some bytes. -/
def hex (bytes : List UInt8) : String :=
  String.ofList (bytes.flatMap fun b =>
    [Nat.digitChar (b.toNat / 16), Nat.digitChar (b.toNat % 16)])

end TupleSpace.Blake3
