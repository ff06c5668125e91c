import FieldRecording.Bytes.Content
import FieldRecording.Bytes.Order

/-!
# The BLAKE3 digest of a file

The content is cut into chunks of `chunkLength` bytes, and these into blocks of `blockLength`. The
chunks are the leaves of a binary tree whose left half is always the largest full one (`tree`).
Each `Node` has a chaining value, from `Node.compress`; the digest `blake3` is taken from the
root.
-/

namespace FieldRecording.Blake3

/-- Sixteen words: the state of a compression, or a block. -/
abbrev Words := Vector UInt32 16

/-- Eight words that stand for all that has been compressed. -/
abbrev Chaining := Vector UInt32 8

/-- The chaining value at the start. -/
def initial : Chaining :=
  #v[0x6A09E667, 0xBB67AE85, 0x3C6EF372, 0xA54FF53A, 0x510E527F, 0x9B05688C, 0x1F83D9AB,
    0x5BE0CD19]

/-- The order in which the next round takes the words of a block. -/
def permutation : Vector (Fin 16) 16 := #v[2, 6, 3, 10, 7, 0, 4, 13, 1, 11, 12, 5, 9, 14, 15, 8]

/-- Marks of a compression. -/
def chunkStart : UInt32 := 1
def chunkEnd : UInt32 := 2
def parentMark : UInt32 := 4
def rootMark : UInt32 := 8

/-- A word turned right by `count` bits, fewer than 32. -/
def rotateRight (word count : UInt32) : UInt32 := (word >>> count) ||| (word <<< (32 - count))

/-- Mix words `x` and `y` of a block into four words of the state. -/
def mix (state block : Words) (a b c d x y : Fin 16) : Words :=
  let state := state.set a (state[a] + state[b] + block[x])
  let state := state.set d (rotateRight (state[d] ^^^ state[a]) 16)
  let state := state.set c (state[c] + state[d])
  let state := state.set b (rotateRight (state[b] ^^^ state[c]) 12)
  let state := state.set a (state[a] + state[b] + block[y])
  let state := state.set d (rotateRight (state[d] ^^^ state[a]) 8)
  let state := state.set c (state[c] + state[d])
  state.set b (rotateRight (state[b] ^^^ state[c]) 7)

/-- Mix a block into the state: columns first, then diagonals. -/
def round (state block : Words) : Words :=
  let state := mix state block 0 4 8 12 0 1
  let state := mix state block 1 5 9 13 2 3
  let state := mix state block 2 6 10 14 4 5
  let state := mix state block 3 7 11 15 6 7
  let state := mix state block 0 5 10 15 8 9
  let state := mix state block 1 6 11 12 10 11
  let state := mix state block 2 7 8 13 12 13
  mix state block 3 4 9 14 14 15

/-- `count` rounds, each with the words of the block in the next order. -/
def rounds (state block : Words) : (count : Nat) → Words
  | 0 => state
  | count + 1 => rounds (round state block) (permutation.map fun index => block[index]) count

/-- What is compressed into the next chaining value. -/
structure Node where
  chaining : Chaining
  block : Words
  /-- The number of the chunk; zero above the leaves. -/
  counter : Nat
  /-- How many bytes of the block count. -/
  length : Nat
  marks : UInt32

/-- The chaining value that a node leads to. -/
def Node.compress (node : Node) : Chaining :=
  let chain := node.chaining
  let state : Words :=
    #v[chain[0], chain[1], chain[2], chain[3], chain[4], chain[5], chain[6], chain[7],
      initial[0], initial[1], initial[2], initial[3],
      UInt32.ofNat node.counter, UInt32.ofNat (node.counter >>> 32),
      UInt32.ofNat node.length, node.marks]
  let state := rounds state node.block 7
  Vector.ofFn fun (index : Fin 8) => state[index] ^^^ state[index.val + 8]

/-- The words of the block at `offset`; bytes past the end count as zeros. -/
def blockAt (content : Content) (offset : Nat) : Words :=
  Vector.ofFn fun (index : Fin 16) =>
    UInt32.ofNat (ofLittleEndian (content.slice (offset + 4 * index) 4))

/-- How many bytes a chunk and a block hold. -/
def chunkLength : Nat := 1024
def blockLength : Nat := 64

/-- The last node of a chunk, of which `left` bytes from `offset` on are left. -/
def chunkNode (content : Content) (chaining : Chaining) (counter offset left : Nat)
    (marks : UInt32) : Node :=
  if left ≤ blockLength then
    { chaining, block := blockAt content offset, counter, length := left,
      marks := marks ||| chunkEnd }
  else
    let node : Node :=
      { chaining, block := blockAt content offset, counter, length := blockLength, marks }
    chunkNode content node.compress counter (offset + blockLength) (left - blockLength) 0
  termination_by left
  decreasing_by simp only [blockLength] at *; omega

/-- The node of a chunk. -/
def leaf (content : Content) (chunk : Nat) : Node :=
  let offset := chunk * chunkLength
  let left := min chunkLength (content.size - offset)
  chunkNode content initial chunk offset left chunkStart

/-- The node above two others. -/
def parent (left right : Chaining) : Node where
  chaining := initial
  block := left ++ right
  counter := 0
  length := blockLength
  marks := parentMark

/-- The node above `count` chunks from `first` on; the left half is the largest
power of two below `count`. -/
def tree (content : Content) (first count : Nat) : Node :=
  if count ≤ 1 then leaf content first
  else
    let half := 1 <<< (count - 1).log2
    parent (tree content first half).compress (tree content (first + half) (count - half)).compress
  termination_by count
  decreasing_by
    all_goals
      have := Nat.log2_self_le (n := count - 1) (by omega)
      have := Nat.two_pow_pos (count - 1).log2
      rw [Nat.one_shiftLeft]
      omega

end FieldRecording.Blake3

namespace FieldRecording

open Blake3

/-- The digest of a file. -/
def blake3 (content : Content) : List UInt8 :=
  let chunks := (content.size + chunkLength - 1) / chunkLength
  let node := tree content 0 chunks
  let root := { node with marks := node.marks ||| rootMark }
  root.compress.toList.flatMap fun word => toLittleEndian 4 word.toNat

end FieldRecording
