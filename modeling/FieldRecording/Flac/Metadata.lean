import FieldRecording.Flac.Access

/-!
# The chain of metadata blocks

Each `MetadataBlock` has a header of four bytes: one that holds the flag of the last block, in its
top bit, and the code of the kind; and the length of what follows, in three bytes, most
significant first. The chain starts behind the signature and ends with the block that is flagged;
the frames follow.

`MetadataChain.walk` goes from block to block. `MetadataChain.blocks` lists them,
`MetadataChain.frameStart` is where the chain ends, and `MetadataChain.find` goes no further than
the first block of a kind. A walk ends since every block leads forward
(`MetadataBlock.readAt_bounds`).
-/

namespace FieldRecording

/-- The kind of a metadata block, by the seven bits of its code. -/
inductive BlockKind where
  | streamInfo
  | padding
  | application
  | seekTable
  | vorbisComment
  | cueSheet
  | picture
  /-- A kind that has no meaning yet. -/
  | reserved (code : UInt8)
  deriving Repr, DecidableEq

namespace BlockKind

/-- The kind of a code. -/
def ofCode (code : UInt8) : BlockKind :=
  match code.toNat with
  | 0 => .streamInfo
  | 1 => .padding
  | 2 => .application
  | 3 => .seekTable
  | 4 => .vorbisComment
  | 5 => .cueSheet
  | 6 => .picture
  | _ => .reserved code

/-- The code of a kind. -/
def code : BlockKind → UInt8
  | .streamInfo => 0
  | .padding => 1
  | .application => 2
  | .seekTable => 3
  | .vorbisComment => 4
  | .cueSheet => 5
  | .picture => 6
  | .reserved code => code

end BlockKind

/-- A metadata block. -/
structure MetadataBlock where
  kind : BlockKind
  isLast : Bool
  /-- Where the block's bytes start, behind its header. -/
  offset : Nat
  length : Nat
  deriving Repr, DecidableEq

namespace MetadataBlock

/-- Where the block ends. -/
def stop (block : MetadataBlock) : Nat := block.offset + block.length

/-- Where the block's bytes stand, behind its header. -/
def payload (block : MetadataBlock) : ByteRange := ⟨block.offset, block.stop⟩

/-- Where the block's bytes stand, for a block that may be placed anywhere. -/
def payload? (block : MetadataBlock) : Except FlacError ByteRange :=
  match ByteRange.place? block.offset block.length with
  | some range => .ok range
  | none => .error .overflow

/-- The block whose header, at `offset`, is the given bytes. -/
def ofHeader? (offset : Nat) : List UInt8 → Option MetadataBlock
  | [first, high, middle, low] => some {
      kind := .ofCode (first &&& 0x7F)
      isLast := first &&& 0x80 ≠ 0
      offset := offset + Flac.blockHeaderLength
      length := ofBigEndian [high, middle, low] }
  | _ => none

/-- Read the block whose header is at `offset`. -/
def readAt (source : ByteSource) (offset : Nat) :
    Except FlacError MetadataBlock × ByteSource :=
  match source.seek offset with
  | (.error cause, source) => (.error (.io cause), source)
  | (.ok landed, source) =>
    if landed = offset then
      match source.readOn Flac.blockHeaderLength with
      | (.error cause, source) => (.error (.io cause), source)
      | (.ok header, source) =>
        match ofHeader? offset header with
        | some block => (.ok block, source)
        | none => (.error .missingBlock, source)
    else
      (.error (.blockOutOfReach offset), source)

theorem offset_of_ofHeader? {offset : Nat} {header : List UInt8} {block : MetadataBlock}
    (decoded : ofHeader? offset header = some block) :
    header.length = 4 ∧ block.offset = offset + 4 := by
  unfold ofHeader? at decoded
  split at decoded
  · simp only [Option.some.injEq] at decoded
    rw [← decoded]
    exact ⟨rfl, rfl⟩
  · simp at decoded

/-- A block that is read lies in the source with its header, and reading it leaves
the content alone. -/
theorem readAt_bounds {source after : ByteSource} {offset : Nat} {block : MetadataBlock}
    (read : readAt source offset = (.ok block, after)) :
    after.content = source.content ∧ block.offset = offset + 4 ∧
      offset + 4 ≤ source.content.size := by
  have sought := ByteSource.content_seek source offset
  unfold readAt at read
  split at read
  · simp at read
  · rename_i landed there went
    rw [went] at sought
    split at read
    · rename_i reached
      have content := ByteSource.content_readOn there Flac.blockHeaderLength
      have position := ByteSource.position_seek went
      split at read
      · simp at read
      · rename_i header next answered
        split at read
        · rename_i found decoded
          simp only [Prod.mk.injEq, Except.ok.injEq] at read
          obtain ⟨rfl, rfl⟩ := read
          have bound := ByteSource.length_readOn_le answered
          obtain ⟨four, place⟩ := offset_of_ofHeader? decoded
          rw [answered, sought] at content
          rw [sought, position, reached] at bound
          exact ⟨content, place, by omega⟩
        · simp at read
    · simp at read

end MetadataBlock

namespace MetadataChain

/-- A block of the chain, or why there is none. -/
abbrev Item := Except FlacError MetadataBlock

/-- The chain from `offset` on: up to the last block, the first failure or the
first block that `wanted` holds of. -/
def walkFrom (wanted : MetadataBlock → Bool) (source : ByteSource) (offset : Nat) :
    List Item × ByteSource :=
  match _read : MetadataBlock.readAt source offset with
  | (.error fault, source) => ([.error fault], source)
  | (.ok block, source) =>
    if block.isLast || wanted block then
      ([.ok block], source)
    else
      let (items, source) := walkFrom wanted source block.stop
      (.ok block :: items, source)
  termination_by source.content.size - offset
  decreasing_by
    obtain ⟨content, place, bound⟩ := MetadataBlock.readAt_bounds _read
    simp only [content, MetadataBlock.stop, place]
    omega

/-- The chain up to the first block that `wanted` holds of. -/
def walkUntil {ε : Type} (wanted : MetadataBlock → Bool) : Access ε (List Item) :=
  ExceptT.lift fun source => walkFrom wanted source Flac.firstBlockOffset

/-- The whole chain: blocks, and at the end a failure if there is one. -/
def walk {ε : Type} : Access ε (List Item) := walkUntil fun _ => false

/-- The blocks of the chain, or the failure that `walk` ends with. -/
def blocks : Access FlacError (List MetadataBlock) := do
  let items ← walk
  Access.ofExcept (items.mapM fun item => item)

/-- Where the frames start: at the end of the last block of `blocks`. -/
def frameStart : Access FlacError Nat := do
  match (← blocks).getLast? with
  | some block => return block.stop
  | none => throw .missingBlock

/-- Where the bytes of the first block of a kind stand. The walk goes no further than to this
block. -/
def find (kind : BlockKind) : Access FlacError ByteRange := do
  let items ← walkUntil fun block => block.kind = kind
  match items.getLast? with
  | some (.ok block) =>
    if block.kind = kind then return block.payload else throw (.noBlock kind.code)
  | some (.error fault) => throw fault
  | none => throw (.noBlock kind.code)

end MetadataChain

/-- Read the comments of a source: `Comments.parse` the bytes of the first block of that kind. -/
def Comments.read : Access FlacError Comments := do
  let range ← MetadataChain.find .vorbisComment
  let payload ← Access.readRange range
  Access.ofExcept ((Comments.parse payload range.start).mapError .badComments)

end FieldRecording
