import GameRules.Number.Power

/-!
# BLAKE3

The hash that identifies cached payloads and source texts. A message is cut into chunks of 1024
bytes, and each chunk into blocks of 64 that are compressed one after the other. The chunks are the
leaves of a binary tree whose left subtrees are complete; the words of the root are the digest.
-/

namespace GameRules

/-- A digest of 32 bytes. -/
structure Digest where
  /-- The bytes. -/
  bytes : List UInt8
  /-- There are 32 of them. -/
  size : bytes.length = 32
deriving DecidableEq

namespace Blake3

/-- The words a message is started with. -/
def initial : Vector UInt32 8 :=
  #v[0x6A09E667, 0xBB67AE85, 0x3C6EF372, 0xA54FF53A, 0x510E527F, 0x9B05688C, 0x1F83D9AB, 0x5BE0CD19]

/-- Marks the first block of a chunk. -/
def chunkStart : UInt32 := 1

/-- Marks the last block of a chunk. -/
def chunkEnd : UInt32 := 2

/-- Marks a block made of two subtrees. -/
def parent : UInt32 := 4

/-- Marks the root. -/
def root : UInt32 := 8

/-- The word with its bits rotated to the right. -/
def rotateRight (word : UInt32) (count : UInt32) : UInt32 :=
  (word >>> count) ||| (word <<< (32 - count))

/-- Mixes two message words into four words of the state. -/
def mix (state : Vector UInt32 16) (first second third fourth : Fin 16) (left right : UInt32) :
    Vector UInt32 16 :=
  let a := state[first] + state[second] + left
  let d := rotateRight (state[fourth] ^^^ a) 16
  let c := state[third] + d
  let b := rotateRight (state[second] ^^^ c) 12
  let a := a + b + right
  let d := rotateRight (d ^^^ a) 8
  let c := c + d
  let b := rotateRight (b ^^^ c) 7
  (((state.set first a).set second b).set third c).set fourth d

/-- Mixes a whole block into the state: its columns, and then its diagonals. -/
def mixRound (state block : Vector UInt32 16) : Vector UInt32 16 :=
  let state := mix state 0 4 8 12 block[0] block[1]
  let state := mix state 1 5 9 13 block[2] block[3]
  let state := mix state 2 6 10 14 block[4] block[5]
  let state := mix state 3 7 11 15 block[6] block[7]
  let state := mix state 0 5 10 15 block[8] block[9]
  let state := mix state 1 6 11 12 block[10] block[11]
  let state := mix state 2 7 8 13 block[12] block[13]
  mix state 3 4 9 14 block[14] block[15]

/-- The order in which the next round takes the words of a block. -/
def permute (block : Vector UInt32 16) : Vector UInt32 16 :=
  #v[block[2], block[6], block[3], block[10], block[7], block[0], block[4], block[13], block[1],
    block[11], block[12], block[5], block[9], block[14], block[15], block[8]]

/-- Mixes a block into the state round by round. -/
def mixRounds : Nat → Vector UInt32 16 → Vector UInt32 16 → Vector UInt32 16
  | 0, state, _ => state
  | rounds + 1, state, block => mixRounds rounds (mixRound state block) (permute block)

/-- What is compressed: a block, and what comes before it. -/
structure Node where
  /-- The words before the block. -/
  before : Vector UInt32 8
  /-- The words of the block. -/
  block : Vector UInt32 16
  /-- The number of the chunk, zero for a block made of subtrees. -/
  counter : Nat
  /-- The number of bytes in the block. -/
  length : Nat
  /-- What kind of block it is. -/
  flags : UInt32

/-- The first words of a compressed node. -/
def Node.compress (node : Node) (flags : UInt32) : Vector UInt32 8 :=
  let start : Vector UInt32 16 :=
    #v[node.before[0], node.before[1], node.before[2], node.before[3], node.before[4],
      node.before[5], node.before[6], node.before[7], initial[0], initial[1], initial[2],
      initial[3], UInt32.ofNat node.counter, UInt32.ofNat (node.counter / 2 ^ 32),
      UInt32.ofNat node.length, node.flags ||| flags]
  let state := mixRounds 7 start node.block
  #v[state[0] ^^^ state[8], state[1] ^^^ state[9], state[2] ^^^ state[10], state[3] ^^^ state[11],
    state[4] ^^^ state[12], state[5] ^^^ state[13], state[6] ^^^ state[14], state[7] ^^^ state[15]]

/-- The word of four bytes, the least significant one first; bytes beyond the end are zero. -/
def wordAt (bytes : List UInt8) (position : Nat) : UInt32 :=
  let byte (offset : Nat) : UInt32 := ((bytes[4 * position + offset]?).getD 0).toUInt32
  byte 0 ||| (byte 1 <<< 8) ||| (byte 2 <<< 16) ||| (byte 3 <<< 24)

/-- The words of a block of at most 64 bytes. -/
def blockWords (bytes : List UInt8) : Vector UInt32 16 := Vector.ofFn fun position => wordAt bytes position

/-- Compresses the blocks of a chunk up to its last one, which is left to the caller. -/
def chunkFrom (counter : Nat) (before : Vector UInt32 8) (flags : UInt32) (bytes : List UInt8) : Node :=
  if more : 64 < bytes.length then
    let node : Node := ⟨before, blockWords (bytes.take 64), counter, 64, flags⟩
    have : (bytes.drop 64).length < bytes.length := by
      rw [List.length_drop]
      omega
    chunkFrom counter (node.compress 0) 0 (bytes.drop 64)
  else ⟨before, blockWords bytes, counter, bytes.length, flags ||| chunkEnd⟩
termination_by bytes.length

/-- The last node of a chunk. -/
def chunkNode (counter : Nat) (bytes : List UInt8) : Node :=
  chunkFrom counter initial chunkStart bytes

/-- The node over two subtrees. -/
def parentNode (left right : Vector UInt32 8) : Node :=
  ⟨initial, left ++ right, 0, 64, parent⟩

/-- How many chunks the left subtree of a message of more than one chunk has: the greatest power of
two that leaves something for the right one. -/
def leftChunks (length : Nat) : Nat := 2 ^ ((length - 1) / 1024).log2

/-- The top node of the tree of a message whose first chunk has this number. -/
def treeNode (counter : Nat) (bytes : List UInt8) : Node :=
  if more : 1024 < bytes.length then
    let left := leftChunks bytes.length
    have positive : 0 < leftChunks bytes.length := Nat.two_pow_pos _
    have below : leftChunks bytes.length * 1024 < bytes.length := by
      have power : leftChunks bytes.length ≤ (bytes.length - 1) / 1024 := Nat.log2_self_le (by omega)
      omega
    have : (bytes.take (left * 1024)).length < bytes.length := by
      rw [List.length_take]
      omega
    have : (bytes.drop (left * 1024)).length < bytes.length := by
      rw [List.length_drop]
      exact Nat.sub_lt (Nat.zero_lt_of_lt more) (Nat.mul_pos positive (by decide))
    parentNode ((treeNode counter (bytes.take (left * 1024))).compress 0)
      ((treeNode (counter + left) (bytes.drop (left * 1024))).compress 0)
  else chunkNode counter bytes
termination_by bytes.length
decreasing_by
  · assumption
  · assumption

/-- The bytes of a word, the least significant one first. -/
def wordBytes (word : UInt32) : List UInt8 :=
  [word.toUInt8, (word >>> 8).toUInt8, (word >>> 16).toUInt8, (word >>> 24).toUInt8]

/-- The bytes of words in turn are four for each. -/
theorem length_flatMap_wordBytes (words : List UInt32) :
    (words.flatMap wordBytes).length = 4 * words.length := by
  induction words with
  | nil => rfl
  | cons word words ih =>
    simp only [List.flatMap_cons, List.length_append, ih, wordBytes, List.length_cons,
      List.length_nil]
    omega

/-- The digest of a message. -/
def hash (bytes : List UInt8) : Digest :=
  let words := (treeNode 0 bytes).compress root
  ⟨words.toList.flatMap wordBytes, by
    rw [length_flatMap_wordBytes, Vector.length_toList]⟩

end Blake3

end GameRules
