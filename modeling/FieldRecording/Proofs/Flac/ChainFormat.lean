import FieldRecording.Proofs.Flac.Chain
import Mathlib.Data.List.Basic

/-!
# The format of the chain of blocks

A `WrittenBlock` is written behind its header, and `layOut` writes blocks one behind the other,
the last one flagged. What is read of a chain that is written so are its blocks, whatever follows
(`chained_placed`).

A chain need not be written so: a block may be longer than what follows it, the flag may be
missing, and the end may cut a header. A walk then goes over the blocks that tile the content,
`Tiles`, up to the place where no header stands, and fails there (`exists_tiles`). All that is
looked up in the chain follows from the items of this one walk, on sources of any kind: `LooksUp`
in a chain that ends, and `BreaksBehind` in one that breaks. `walk_exact` states the three parts.
-/

namespace FieldRecording

open ByteSource Access

/-- A block as it is written: the code of its kind, and the bytes behind its header, few enough
for three bytes to say how many. -/
structure WrittenBlock where
  code : Fin 128
  bytes : List UInt8
  bytesFit : bytes.length < 0x1000000

namespace WrittenBlock

/-- The code of the kind, with the flag of the last block in front. -/
def flagged (code : Fin 128) (isLast : Bool) : UInt8 :=
  UInt8.ofNat (if isLast then 128 + code.val else code.val)

/-- The block with its header. -/
def encode (block : WrittenBlock) (isLast : Bool) : List UInt8 :=
  flagged block.code isLast :: (toBigEndian 3 block.bytes.length ++ block.bytes)

/-- The block whose header stands at an offset. -/
def placed (block : WrittenBlock) (isLast : Bool) (offset : Nat) : MetadataBlock where
  kind := .ofCode (UInt8.ofNat block.code.val)
  isLast := isLast
  offset := offset + 4
  length := block.bytes.length

/-- The flag does not show in the code. -/
theorem flagged_and_code (code : Fin 128) (isLast : Bool) :
    flagged code isLast &&& 0x7F = UInt8.ofNat code.val := by
  revert code isLast
  decide

/-- The code does not show in the flag. -/
theorem flagged_and_flag (code : Fin 128) (isLast : Bool) :
    decide (flagged code isLast &&& 0x80 ≠ 0) = isLast := by
  revert code isLast
  decide

theorem length_encode (block : WrittenBlock) (isLast : Bool) :
    (block.encode isLast).length = 4 + block.bytes.length := by
  rw [encode, List.length_cons, List.length_append, length_toBigEndian]
  omega

/-- The header of a block is read by `ofHeader?` from the front of what `encode` writes of it. -/
theorem ofHeader?_encode (block : WrittenBlock) (isLast : Bool) (offset : Nat) :
    MetadataBlock.ofHeader? offset ((block.encode isLast).take Flac.blockHeaderLength) =
      some (block.placed isLast offset) := by
  have three := length_toBigEndian 3 block.bytes.length
  have number := ofBigEndian_toBigEndian 3 block.bytes.length block.bytesFit
  rw [encode, Flac.blockHeaderLength, List.take_succ_cons,
    List.take_append_of_le_length (Nat.le_of_eq three.symm),
    List.take_of_length_le (Nat.le_of_eq three)]
  obtain ⟨high, middle, low, digits⟩ := List.length_eq_three.mp three
  rw [digits] at number ⊢
  simp only [MetadataBlock.ofHeader?, flagged_and_code, flagged_and_flag, number, placed,
    Flac.blockHeaderLength]

end WrittenBlock

namespace MetadataChain

/-! ## Blocks that are written -/

/-- Blocks as they are written, each with its header, the last one flagged. -/
def layOut : List WrittenBlock → List UInt8
  | [] => []
  | block :: rest => block.encode rest.isEmpty ++ layOut rest

/-- The blocks that are written from an offset on. -/
def placed (offset : Nat) : List WrittenBlock → List MetadataBlock
  | [] => []
  | block :: rest =>
    block.placed rest.isEmpty offset :: placed (offset + 4 + block.bytes.length) rest

/-- Blocks that are written by `layOut` form a chain, behind anything and before anything. -/
theorem chained_placed {content : Content} {front rest : List UInt8} {written : List WrittenBlock}
    (notEmpty : written ≠ []) (isContent : content.toList = front ++ (layOut written ++ rest)) :
    Chained (fun _ => false) content front.length (placed front.length written) := by
  induction written generalizing front with
  | nil => exact absurd rfl notEmpty
  | cons block others ih =>
    rw [layOut, List.append_assoc] at isContent
    have long := block.length_encode others.isEmpty
    have stands : MetadataBlock.ofHeader? front.length
        (content.slice front.length Flac.blockHeaderLength) =
          some (block.placed others.isEmpty front.length) := by
      rw [Content.slice_eq_take_drop, isContent, List.drop_left,
        List.take_append_of_le_length (by rw [long, Flac.blockHeaderLength]; omega)]
      exact block.ofHeader?_encode _ _
    cases others with
    | nil => exact .ends stands rfl
    | cons next others =>
      have behind := ih (List.cons_ne_nil next others) (isContent.trans (List.append_assoc ..).symm)
      rw [List.length_append, long, ← Nat.add_assoc] at behind
      exact .goes stands rfl behind

/-- The last block that is written ends where the written bytes do. -/
theorem exists_getLast?_placed (offset : Nat) {written : List WrittenBlock}
    (notEmpty : written ≠ []) :
    ∃ last, (placed offset written).getLast? = some last ∧
      last.stop = offset + (layOut written).length := by
  induction written generalizing offset with
  | nil => exact absurd rfl notEmpty
  | cons block others ih =>
    rw [layOut, List.length_append, WrittenBlock.length_encode]
    cases others with
    | nil =>
      refine ⟨block.placed true offset, rfl, ?_⟩
      simp only [WrittenBlock.placed, MetadataBlock.stop, layOut, List.length_nil]
      omega
    | cons next others =>
      obtain ⟨last, isLast, stops⟩ :=
        ih (offset + 4 + block.bytes.length) (List.cons_ne_nil next others)
      refine ⟨last, ?_, by omega⟩
      rw [placed, placed, List.getLast?_cons_cons, ← placed]
      exact isLast

/-! ## Tiles -/

/-- The blocks stand one behind the other, from an offset up to another: each header stands where
the block before it ends. -/
def Tiles (content : Content) : Nat → List MetadataBlock → Nat → Prop
  | start, [], stop => start = stop
  | start, block :: rest, stop =>
    MetadataBlock.ofHeader? start (content.slice start Flac.blockHeaderLength) = some block ∧
      Tiles content block.stop rest stop

/-- Only the final one of some blocks is flagged as the last. -/
def Closed (blocks : List MetadataBlock) : Prop :=
  ∃ front last, blocks = front ++ [last] ∧ last.isLast = true ∧
    ∀ block ∈ front, block.isLast = false

/-- None of the blocks is flagged as the last. -/
def Open (blocks : List MetadataBlock) : Prop := ∀ block ∈ blocks, block.isLast = false

/-- Every block takes a header, so that there are few of them. -/
theorem length_le_of_tiles {content : Content} {start stop : Nat} {blocks : List MetadataBlock}
    (tiles : Tiles content start blocks stop) : 4 * blocks.length ≤ content.size - start := by
  induction blocks generalizing start with
  | nil => exact Nat.zero_le _
  | cons block rest ih =>
    obtain ⟨stands, behind⟩ := tiles
    have place := MetadataBlock.bounds_of_header stands
    have further := block.offset_le_stop
    have later := ih behind
    rw [List.length_cons]
    omega

end MetadataChain

namespace MetadataBlock

/-- No header stands where fewer bytes are left than it takes. -/
theorem ofHeader?_eq_none {content : Content} {offset : Nat}
    (nothing : ofHeader? offset (content.slice offset Flac.blockHeaderLength) = none) :
    content.size < offset + 4 := by
  apply Nat.lt_of_not_le
  intro covered
  have four := content.length_slice_of_le offset Flac.blockHeaderLength covered
  obtain ⟨first, rest, isSlice⟩ := List.exists_cons_of_length_eq_add_one four
  rw [isSlice] at four nothing
  obtain ⟨high, middle, low, rfl⟩ := List.length_eq_three.mp (Nat.succ.inj four)
  cases nothing

/-- A header announces fewer than 2^24 bytes. -/
theorem length_lt_of_ofHeader? {offset : Nat} {header : List UInt8} {block : MetadataBlock}
    (decoded : ofHeader? offset header = some block) : block.length < 0x1000000 := by
  unfold ofHeader? at decoded
  split at decoded
  · rename_i first high middle low
    rw [← Option.some.inj decoded]
    have below := ofBigEndian_lt [high, middle, low]
    rw [List.length_cons, List.length_cons, List.length_singleton] at below
    exact Nat.lt_of_lt_of_le below (by decide)
  · cases decoded

/-- Where no header stands, none is read. -/
theorem readAt_of_none {source : ByteSource} (honest : source.Honest) {offset : Nat}
    (admitted : source.refuses offset = false)
    (nothing : ofHeader? offset (source.content.slice offset Flac.blockHeaderLength) = none) :
    (readAt source offset).1 = .error .missingBlock := by
  have bytes := (readOn_standingAt honest offset (by decide : Flac.blockHeaderLength < sizeLimit)).1
  unfold readAt
  rw [seek_of_honest honest, admitted]
  rcases ran : (source.standingAt offset).readOn Flac.blockHeaderLength with ⟨answer, after⟩
  rw [ran] at bytes
  obtain rfl : answer = _ := bytes
  simp only [Bool.false_eq_true, if_false, if_true, ran, nothing]

end MetadataBlock

namespace MetadataChain

/-! ## A whole walk -/

/-- A walk goes over blocks that tile the content, `Tiles`. It ends with the flagged one, or fails
where fewer bytes are left than a header takes. -/
theorem exists_tiles {source : ByteSource} (honest : source.Honest)
    (reaches : ∀ offset, offset < source.content.size + 0x1000000 → source.refuses offset = false)
    {start : Nat} (near : start < source.content.size + 0x1000000) :
    ∃ blocks stop, Tiles source.content start blocks stop ∧
      ((walkFrom (fun _ => false) source start).1 = blocks.map .ok ∧ Closed blocks ∨
        (walkFrom (fun _ => false) source start).1 = blocks.map .ok ++ [.error .missingBlock] ∧
          Open blocks ∧ source.content.size < stop + 4) := by
  -- what is left behind a block is less than what was left before its header
  induction isLeft : source.content.size - start using Nat.strongRecOn generalizing start with
  | ind left ih =>
    cases stands : MetadataBlock.ofHeader? start
        (source.content.slice start Flac.blockHeaderLength) with
    | none =>
      refine ⟨[], start, rfl, .inr ⟨?_, fun _ isBlock => absurd isBlock List.not_mem_nil,
        MetadataBlock.ofHeader?_eq_none stands⟩⟩
      have failed := MetadataBlock.readAt_of_none honest (reaches start near) stands
      rw [walkFrom]
      split
      · rename_i read
        rw [read] at failed
        rw [Except.error.inj failed]
        rfl
      · rename_i read
        rw [read] at failed
        cases failed
    | some block =>
      obtain ⟨place, inside⟩ := MetadataBlock.bounds_of_header stands
      have short := MetadataBlock.length_lt_of_ofHeader? stands
      have isStop : block.stop = start + 4 + block.length := by rw [MetadataBlock.stop, place]
      rw [walkFrom_of_header honest _ (by omega) stands, Bool.or_false]
      cases isLast : block.isLast with
      | true =>
        exact ⟨[block], block.stop, ⟨stands, rfl⟩, .inl ⟨rfl, [], block, rfl, isLast,
          fun _ isBlock => absurd isBlock List.not_mem_nil⟩⟩
      | false =>
        have nearer : block.stop < source.content.size + 0x1000000 := by omega
        obtain ⟨rest, stop, tiles, whole | broken⟩ :=
          ih (source.content.size - block.stop) (by omega) nearer rfl
        · obtain ⟨items, front, last, rfl, flagged, others⟩ := whole
          refine ⟨block :: (front ++ [last]), stop, ⟨stands, tiles⟩, .inl ⟨?_, block :: front, last,
            rfl, flagged, List.forall_mem_cons.mpr ⟨isLast, others⟩⟩⟩
          rw [items]
          rfl
        · obtain ⟨items, others, ends⟩ := broken
          refine ⟨block :: rest, stop, ⟨stands, tiles⟩, .inr ⟨?_,
            List.forall_mem_cons.mpr ⟨isLast, others⟩, ends⟩⟩
          rw [items]
          rfl

/-! ## What is looked up -/

/-- The items of `walkFrom` on any source are blocks, and a fault at the end if the walk fails. -/
theorem walkFrom_cases (source : ByteSource) (offset : Nat) :
    ∃ blocks, (walkFrom (fun _ => false) source offset).1 = blocks.map .ok ∧ blocks ≠ [] ∨
      ∃ fault, (walkFrom (fun _ => false) source offset).1 = blocks.map .ok ++ [.error fault] := by
  fun_induction walkFrom (fun _ => false) source offset with
  | case1 source offset fault after read => exact ⟨[], .inr ⟨fault, rfl⟩⟩
  | case2 source offset block after read ends =>
    exact ⟨[block], .inl ⟨rfl, List.cons_ne_nil block []⟩⟩
  | case3 source offset block after read goesOn items last rest ih =>
    rw [rest] at ih
    rcases ih with ⟨blocks, ⟨isItems, -⟩ | ⟨fault, isItems⟩⟩
    · exact ⟨block :: blocks, .inl ⟨congrArg _ isItems, List.cons_ne_nil block blocks⟩⟩
    · exact ⟨block :: blocks, .inr ⟨fault, congrArg _ isItems⟩⟩

/-- Whether an item is a block that is wanted. -/
def isWanted (wanted : MetadataBlock → Bool) : Item → Bool
  | .ok block => wanted block
  | .error _ => false

/-- A walk up to what is wanted ends with the first item of the whole walk that `isWanted`, and
where none is, with the last one. -/
theorem getLast?_walkFrom (wanted : MetadataBlock → Bool) (source : ByteSource) (offset : Nat) :
    (walkFrom wanted source offset).1.getLast? =
      ((walkFrom (fun _ => false) source offset).1.find? (isWanted wanted)).or
        (walkFrom (fun _ => false) source offset).1.getLast? := by
  fun_induction walkFrom (fun _ => false) source offset with
  | case1 source offset fault after read =>
    rw [walkFrom_of_readAt_error wanted read]
    rfl
  | case2 source offset block after read ends =>
    rw [Bool.or_false] at ends
    rw [walkFrom_of_readAt_ok wanted read, if_pos (by rw [ends]; rfl), List.find?_singleton]
    split <;> rfl
  | case3 source offset block after read goesOn items last rest ih =>
    rw [Bool.or_false, Bool.not_eq_true] at goesOn
    rw [rest] at ih
    rw [walkFrom_of_readAt_ok wanted read, goesOn, Bool.false_or, List.find?_cons, isWanted]
    cases wanted block with
    | true => rfl
    | false =>
      rw [if_neg Bool.false_ne_true, List.getLast?_cons, List.getLast?_cons, ih]
      cases items.find? (isWanted wanted) <;> rfl

/-- Looking among blocks is looking among their items. -/
theorem find?_map_ok (wanted : MetadataBlock → Bool) (blocks : List MetadataBlock) :
    (blocks.map .ok).find? (isWanted wanted) = (blocks.find? wanted).map .ok := by
  rw [List.find?_map]
  rfl

/-- Where the first of some blocks of a kind stands; a fault if there is none. -/
def firstOf (kind : BlockKind) (blocks : List MetadataBlock) (fault : FlacError) :
    Except FlacError ByteRange :=
  match blocks.find? fun block => block.kind = kind with
  | some block => .ok block.payload
  | none => .error fault

/-- What `find` returns is the item that the walk up to the kind ends with. -/
theorem runOn_find {source : ByteSource} (kind : BlockKind) {item : Item}
    (last : (walkFrom (fun block => block.kind = kind) source Flac.firstBlockOffset).1.getLast? =
      some item) :
    ((find kind).runOn source).1 =
      item.bind fun block =>
        if block.kind = kind then .ok block.payload else .error (.noBlock kind.code) := by
  have walked : (walkUntil (fun block => block.kind = kind) : Access FlacError _).runOn source =
      (.ok (walkFrom (fun block => block.kind = kind) source Flac.firstBlockOffset).1,
        (walkFrom (fun block => block.kind = kind) source Flac.firstBlockOffset).2) := rfl
  unfold find
  rw [runOn_bind_of_ok walked, last]
  cases item with
  | error fault => rfl
  | ok block =>
    dsimp only [Except.bind]
    split <;> rfl

/-- A block of the kind is found among the blocks of the walk, whatever comes behind it. -/
theorem find_of_find? {source : ByteSource} {blocks : List MetadataBlock} {tail : List Item}
    (walked : (walkFrom (fun _ => false) source Flac.firstBlockOffset).1 = blocks.map .ok ++ tail)
    {kind : BlockKind} {block : MetadataBlock}
    (found : blocks.find? (fun block => block.kind = kind) = some block) :
    ((find kind).runOn source).1 = .ok block.payload := by
  have ends := getLast?_walkFrom (fun block => block.kind = kind) source Flac.firstBlockOffset
  rw [walked, List.find?_append, find?_map_ok, found] at ends
  have isKind := List.find?_some found
  rw [runOn_find kind ends]
  exact if_pos (of_decide_eq_true isKind)

/-- In a chain that ends, the first block of a kind is found, or that there is none. -/
theorem find_of_whole {source : ByteSource} {blocks : List MetadataBlock}
    (walked : (walkFrom (fun _ => false) source Flac.firstBlockOffset).1 = blocks.map .ok)
    (notEmpty : blocks ≠ []) (kind : BlockKind) :
    ((find kind).runOn source).1 = firstOf kind blocks (.noBlock kind.code) := by
  unfold firstOf
  cases found : blocks.find? fun block => block.kind = kind with
  | some block => exact find_of_find? (walked.trans (List.append_nil _).symm) found
  | none =>
    have ends := getLast?_walkFrom (fun block => block.kind = kind) source Flac.firstBlockOffset
    have isLast := List.getLast?_eq_some_getLast notEmpty
    have other := List.find?_eq_none.mp found _ (List.getLast_mem notEmpty)
    rw [walked, find?_map_ok, found, List.getLast?_map, isLast] at ends
    rw [runOn_find kind ends]
    exact if_neg (by simpa using other)

/-- In a chain that breaks, the first block of a kind is found, or that the chain breaks. -/
theorem find_of_broken {source : ByteSource} {blocks : List MetadataBlock} {fault : FlacError}
    (walked : (walkFrom (fun _ => false) source Flac.firstBlockOffset).1 =
      blocks.map .ok ++ [.error fault]) (kind : BlockKind) :
    ((find kind).runOn source).1 = firstOf kind blocks fault := by
  unfold firstOf
  cases found : blocks.find? fun block => block.kind = kind with
  | some block => exact find_of_find? walked found
  | none =>
    have ends := getLast?_walkFrom (fun block => block.kind = kind) source Flac.firstBlockOffset
    rw [walked, List.find?_append, find?_map_ok, List.getLast?_concat, found] at ends
    rw [runOn_find kind ends]
    rfl

theorem mapM_append_error (blocks : List MetadataBlock) (fault : FlacError) :
    (blocks.map .ok ++ [.error fault] : List Item).mapM (fun item => item) = .error fault := by
  induction blocks with
  | nil => rfl
  | cons block rest ih =>
    rw [List.map_cons, List.cons_append, List.mapM_cons, ih]
    rfl

/-- The blocks of a chain that breaks are not listed. -/
theorem runOn_blocks_of_broken {source : ByteSource} {blocks : List MetadataBlock}
    {fault : FlacError}
    (walked : (walkFrom (fun _ => false) source Flac.firstBlockOffset).1 =
      blocks.map .ok ++ [.error fault]) :
    MetadataChain.blocks.runOn source =
      (.error fault, (walkFrom (fun _ => false) source Flac.firstBlockOffset).2) := by
  have ran : (MetadataChain.walk : Access FlacError _).runOn source =
      (.ok (blocks.map .ok ++ [.error fault]),
        (walkFrom (fun _ => false) source Flac.firstBlockOffset).2) := by
    rw [← walked]
    rfl
  unfold MetadataChain.blocks
  rw [runOn_bind_of_ok ran, mapM_append_error]
  rfl

/-! ## The format -/

/-- What is looked up in a chain that ends: its blocks, the end of the last one, and the first
block of each kind. -/
structure LooksUp (source : ByteSource) (blocks : List MetadataBlock) : Prop where
  listed : (MetadataChain.blocks.runOn source).1 = .ok blocks
  starts : ∃ last, blocks.getLast? = some last ∧ (frameStart.runOn source).1 = .ok last.stop
  finds : ∀ kind, ((find kind).runOn source).1 = firstOf kind blocks (.noBlock kind.code)

/-- What is looked up in a chain that breaks behind some blocks: the first block of each kind. -/
structure BreaksBehind (source : ByteSource) (blocks : List MetadataBlock) (fault : FlacError) :
    Prop where
  listed : (MetadataChain.blocks.runOn source).1 = .error fault
  starts : (frameStart.runOn source).1 = .error fault
  finds : ∀ kind, ((find kind).runOn source).1 = firstOf kind blocks fault

/-- Blocks that are written by `layOut` are read. On every other content a walk goes over blocks
that tile it (`Tiles`), and breaks only where fewer bytes are left than a header takes. All that
is looked up follows from the items of the walk, on sources of any kind: `LooksUp` if the chain
ends, and `BreaksBehind` if it breaks. -/
theorem walk_exact :
    (∀ source : ByteSource, source.Honest → ∀ front written rest, front.length = 4 →
      written ≠ [] → source.content.toList = front ++ (layOut written ++ rest) →
      (blocks.runOn source).1 = .ok (placed 4 written) ∧
        (frameStart.runOn source).1 = .ok (4 + (layOut written).length)) ∧
    (∀ source : ByteSource, source.Honest →
      (∀ offset, offset < source.content.size + 0x1000000 → source.refuses offset = false) →
      ∃ items blocks stop, ((walk : Access FlacError _).runOn source).1 = .ok items ∧
        4 * items.length ≤ source.content.size + 4 ∧ Tiles source.content 4 blocks stop ∧
        (items = blocks.map .ok ∧ Closed blocks ∨
          items = blocks.map .ok ++ [.error .missingBlock] ∧ Open blocks ∧
            source.content.size < stop + 4)) ∧
    (∀ source : ByteSource, ∃ items blocks,
      ((walk : Access FlacError _).runOn source).1 = .ok items ∧
        (items = blocks.map .ok ∧ LooksUp source blocks ∨
          ∃ fault, items = blocks.map .ok ++ [.error fault] ∧
            BreaksBehind source blocks fault)) := by
  refine ⟨?_, ?_, ?_⟩
  · intro source honest front written rest four notEmpty isContent
    have chained := chained_placed notEmpty isContent
    obtain ⟨last, isLast, stops⟩ := exists_getLast?_placed 4 notEmpty
    rw [four] at chained
    have walked := walkFrom_of_chained honest chained
    have listed := congrArg Prod.fst (runOn_blocks_of_walk walked)
    exact ⟨listed, stops ▸ frameStart_of_walk walked isLast⟩
  · intro source honest reaches
    have near : Flac.firstBlockOffset < source.content.size + 0x1000000 := by
      rw [Flac.firstBlockOffset]
      omega
    obtain ⟨blocks, stop, tiles, ends⟩ := exists_tiles honest reaches near
    refine ⟨_, blocks, stop, rfl, ?_, tiles, ends⟩
    have few := length_le_of_tiles tiles
    rcases ends with ⟨items, -⟩ | ⟨items, -⟩
    · rw [items, List.length_map]
      omega
    · rw [items, List.length_append, List.length_map, List.length_singleton]
      omega
  · intro source
    refine ⟨(walkFrom (fun _ => false) source Flac.firstBlockOffset).1, ?_⟩
    obtain ⟨blocks, ⟨walked, notEmpty⟩ | ⟨fault, walked⟩⟩ :=
      walkFrom_cases source Flac.firstBlockOffset
    · have isLast := List.getLast?_eq_some_getLast notEmpty
      exact ⟨blocks, rfl, .inl ⟨walked, congrArg Prod.fst (runOn_blocks_of_walk walked),
        ⟨_, isLast, frameStart_of_walk walked isLast⟩, find_of_whole walked notEmpty⟩⟩
    · have listed := runOn_blocks_of_broken walked
      refine ⟨blocks, rfl, .inr ⟨fault, walked, congrArg Prod.fst listed, ?_,
        find_of_broken walked⟩⟩
      unfold frameStart
      rw [runOn_bind_of_error listed]

/-- A short block and an empty last one are read, with a byte of the frames behind them; without
the flag the chain breaks behind them, where one byte is left. -/
theorem walk_exact_two :
    let written : List WrittenBlock := [⟨0, [1, 2], by decide⟩, ⟨4, [], by decide⟩]
    let source := ofContent (Flac.signature ++ (layOut written ++ [0xFF])).toArray
    let unflagged := ofContent
      #[0x66, 0x4C, 0x61, 0x43, 0, 0, 0, 2, 1, 2, 4, 0, 0, 0, 0xFF]
    (blocks.runOn source).1 =
        .ok [⟨.streamInfo, false, 8, 2⟩, ⟨.vorbisComment, true, 14, 0⟩] ∧
      (frameStart.runOn source).1 = .ok 14 ∧
      ∃ items blocks stop, ((walk : Access FlacError _).runOn unflagged).1 = .ok items ∧
        4 * items.length ≤ 19 ∧ Tiles unflagged.content 4 blocks stop ∧
        (items = blocks.map .ok ∧ Closed blocks ∨
          items = blocks.map .ok ++ [.error .missingBlock] ∧ Open blocks ∧ 15 < stop + 4) := by
  intro written source unflagged
  obtain ⟨listed, starts⟩ := walk_exact.1 source (honest_ofContent _) Flac.signature written [0xFF]
    rfl (List.cons_ne_nil _ _) rfl
  exact ⟨listed, starts, walk_exact.2.1 unflagged (honest_ofContent _) fun _ _ => rfl⟩

end MetadataChain

end FieldRecording
