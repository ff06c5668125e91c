import FieldRecording.Proofs.Flac.Layout

/-!
# The chain of blocks in a content

`Chained` says which blocks stand one behind the other in a content, from an offset on up to the
last one or the first that is wanted. A walk of an honest source goes along the chain
(`walkFrom_of_chained`, `chained_of_walkFrom`), so that what is read of the metadata follows from
the headers of the chain's blocks: `find_of_chained` and `frameStart_of_chained` say it of the two
things that are looked up.

Each block ends before the header of the next. Bytes that stand in a block are therefore no part
of any header (`apart_of_mem`), and can be replaced without an effect on the chain (`congr`).
-/

namespace FieldRecording

open ByteSource Access

/-- The blocks that stand in a row, from an offset on: each header is read where the block before
it ends, and the row stops as a walk does. -/
inductive Chained (wanted : MetadataBlock → Bool) (content : Content) :
    Nat → List MetadataBlock → Prop where
  | ends {offset : Nat} {block : MetadataBlock}
    (stands : MetadataBlock.ofHeader? offset (content.slice offset Flac.blockHeaderLength) =
      some block)
    (last : (block.isLast || wanted block) = true) : Chained wanted content offset [block]
  | goes {offset : Nat} {block : MetadataBlock} {rest : List MetadataBlock}
    (stands : MetadataBlock.ofHeader? offset (content.slice offset Flac.blockHeaderLength) =
      some block)
    (goesOn : (block.isLast || wanted block) = false)
    (behind : Chained wanted content block.stop rest) :
    Chained wanted content offset (block :: rest)

namespace MetadataBlock

/-- A block that stands in a content lies behind its header, which the content holds. -/
theorem bounds_of_header {content : Content} {offset : Nat} {block : MetadataBlock}
    (stands : ofHeader? offset (content.slice offset Flac.blockHeaderLength) = some block) :
    block.offset = offset + 4 ∧ offset + 4 ≤ content.size := by
  obtain ⟨four, place⟩ := offset_of_ofHeader? stands
  rw [Content.length_slice] at four
  exact ⟨place, by omega⟩

theorem offset_le_stop (block : MetadataBlock) : block.offset ≤ block.stop :=
  Nat.le_add_right _ _

end MetadataBlock

namespace Chained

variable {wanted : MetadataBlock → Bool} {content : Content} {offset : Nat}
  {blocks : List MetadataBlock}

/-! ## Where the blocks stand -/

/-- All blocks of a chain stand behind its start, with their headers, and in the content. -/
theorem bounds (chained : Chained wanted content offset blocks) :
    ∀ block ∈ blocks, offset + 4 ≤ block.offset ∧ block.offset ≤ content.size := by
  induction chained with
  | ends stands last =>
    intro block isBlock
    obtain rfl := List.mem_singleton.mp isBlock
    have place := MetadataBlock.bounds_of_header stands
    omega
  | goes stands goesOn behind ih =>
    rename_i offset first rest
    have place := MetadataBlock.bounds_of_header stands
    have further := first.offset_le_stop
    intro block isBlock
    rcases List.mem_cons.mp isBlock with rfl | later
    · omega
    · have there := ih block later
      omega

/-- Every block of a chain ends before the headers of those behind it. -/
theorem pairwise (chained : Chained wanted content offset blocks) :
    blocks.Pairwise fun earlier later => earlier.stop + 4 ≤ later.offset := by
  induction chained with
  | ends stands last => exact List.pairwise_singleton _ _
  | goes stands goesOn behind ih =>
    exact List.pairwise_cons.mpr ⟨fun block isBlock => (behind.bounds block isBlock).1, ih⟩

/-- Bytes that stand in a block of a chain stand in no header. -/
theorem apart_of_mem (chained : Chained wanted content offset blocks)
    {block other : MetadataBlock} (isBlock : block ∈ blocks) (isOther : other ∈ blocks) :
    other.offset ≤ block.offset ∨ block.stop + 4 ≤ other.offset := by
  have ordered := chained.pairwise
  induction blocks generalizing offset with
  | nil => cases isBlock
  | cons first rest ih =>
    obtain ⟨behind, later⟩ := List.pairwise_cons.mp ordered
    rcases List.mem_cons.mp isBlock with rfl | inRest
    · rcases List.mem_cons.mp isOther with rfl | otherInRest
      · exact .inl (Nat.le_refl _)
      · exact .inr (behind other otherInRest)
    · rcases List.mem_cons.mp isOther with rfl | otherInRest
      · have := behind block inRest
        have := other.offset_le_stop
        exact .inl (by omega)
      · cases chained with
        | ends => cases inRest
        | goes stands goesOn rest => exact ih rest inRest otherInRest later

/-- No block of a chain ends behind the last one. -/
theorem stop_le_of_getLast? (chained : Chained wanted content offset blocks)
    {last block : MetadataBlock} (isLast : blocks.getLast? = some last)
    (isBlock : block ∈ blocks) : block.stop ≤ last.stop := by
  induction chained with
  | ends stands ends =>
    obtain rfl := Option.some.inj isLast
    rw [List.mem_singleton.mp isBlock]
    exact Nat.le_refl _
  | goes stands goesOn behind ih =>
    rename_i offset first rest
    cases rest with
    | nil => cases behind
    | cons next rest =>
      rw [List.getLast?_cons_cons] at isLast
      rcases List.mem_cons.mp isBlock with rfl | later
      · have ordered := (behind.bounds last (List.mem_of_getLast? isLast)).1
        have := last.offset_le_stop
        omega
      · exact ih isLast later

/-! ## Chains that agree -/

/-- A chain stands in every content with the same headers, whatever the blocks hold. -/
theorem congr {other : Content} (chained : Chained wanted content offset blocks)
    (same : ∀ block ∈ blocks, other.slice (block.offset - 4) Flac.blockHeaderLength =
      content.slice (block.offset - 4) Flac.blockHeaderLength) :
    Chained wanted other offset blocks := by
  induction chained with
  | ends stands last =>
    rename_i offset block
    have header := same block List.mem_cons_self
    rw [(MetadataBlock.bounds_of_header stands).1, Nat.add_sub_cancel] at header
    rw [← header] at stands
    exact .ends stands last
  | goes stands goesOn behind ih =>
    rename_i offset block rest
    have header := same block List.mem_cons_self
    rw [(MetadataBlock.bounds_of_header stands).1, Nat.add_sub_cancel] at header
    rw [← header] at stands
    exact .goes stands goesOn (ih fun later isBlock => same later (List.mem_cons_of_mem _ isBlock))

/-- A chain up to a block that is wanted is the front of the whole chain. -/
theorem prefix_of_whole (chained : Chained wanted content offset blocks)
    {whole : List MetadataBlock} (all : Chained (fun _ => false) content offset whole) :
    blocks <+: whole := by
  induction chained generalizing whole with
  | ends stands last =>
    cases all with
    | ends stands' last' =>
      obtain rfl := Option.some.inj (stands.symm.trans stands')
      exact List.prefix_refl _
    | goes stands' goesOn' behind' =>
      rw [Option.some.inj (stands.symm.trans stands')]
      exact List.cons_prefix_cons.mpr ⟨rfl, List.nil_prefix⟩
  | goes stands goesOn behind ih =>
    cases all with
    | ends stands' last' =>
      rw [← Option.some.inj (stands.symm.trans stands'), Bool.or_false] at last'
      rw [last'] at goesOn
      cases goesOn
    | goes stands' goesOn' behind' =>
      obtain rfl := Option.some.inj (stands.symm.trans stands')
      exact List.cons_prefix_cons.mpr ⟨rfl, ih behind'⟩

end Chained

namespace MetadataChain

/-! ## Walking along a chain -/

/-- A walk with `walkFrom` goes along the chain that stands in the content. -/
theorem walkFrom_of_chained {source : ByteSource} (honest : source.Honest)
    {wanted : MetadataBlock → Bool} {offset : Nat} {blocks : List MetadataBlock}
    (chained : Chained wanted source.content offset blocks) :
    (walkFrom wanted source offset).1 = blocks.map .ok := by
  induction chained with
  | ends stands last =>
    have inside := (MetadataBlock.bounds_of_header stands).2
    rw [walkFrom_of_header honest wanted (by omega) stands, if_pos last]
    rfl
  | goes stands goesOn behind ih =>
    have inside := (MetadataBlock.bounds_of_header stands).2
    rw [walkFrom_of_header honest wanted (by omega) stands, if_neg (by rw [goesOn]; simp), ih]
    rfl

/-- A walk that does not fail has gone along a chain. -/
theorem chained_of_walkFrom {source : ByteSource} (honest : source.Honest)
    (wanted : MetadataBlock → Bool) (offset : Nat) :
    (∃ blocks, (walkFrom wanted source offset).1 = blocks.map .ok ∧
        Chained wanted source.content offset blocks) ∨
      ∃ before fault, (walkFrom wanted source offset).1 = before ++ [.error fault] := by
  fun_induction walkFrom wanted source offset with
  | case1 source offset fault after read => exact .inr ⟨[], fault, rfl⟩
  | case2 source offset block after read ends =>
    have stands := MetadataBlock.stands_of_readAt (congrArg Prod.fst read)
    exact .inl ⟨[block], rfl, .ends stands ends⟩
  | case3 source offset block after read goesOn items last rest ih =>
    have stands := MetadataBlock.stands_of_readAt (congrArg Prod.fst read)
    have same := (MetadataBlock.steady_readAt honest (.refl source) offset).2
    rw [read] at same
    rw [rest] at ih
    rcases ih (honest.of_sameMedium same) with ⟨blocks, isItems, chained⟩ | ⟨before, fault, failed⟩
    · dsimp only at isItems chained
      rw [isItems]
      rw [same.content] at chained
      exact .inl ⟨block :: blocks, rfl, .goes stands (Bool.not_eq_true _ ▸ goesOn) chained⟩
    · dsimp only at failed
      rw [failed]
      exact .inr ⟨.ok block :: before, fault, rfl⟩

/-- Items that all are blocks are those blocks. -/
theorem eq_map_of_mapM {items : List Item} {blocks : List MetadataBlock}
    (all : items.mapM (fun item => item) = .ok blocks) : items = blocks.map .ok := by
  induction items generalizing blocks with
  | nil =>
    obtain rfl := Except.ok.inj all
    rfl
  | cons item items ih =>
    rw [List.mapM_cons] at all
    rcases of_bind_eq_ok all with ⟨block, isBlock, all⟩
    rcases of_bind_eq_ok all with ⟨rest, others, isBlocks⟩
    obtain rfl := Except.ok.inj isBlocks
    rw [isBlock, ih others]
    rfl

/-- The frames start behind the last block of the chain. -/
theorem chained_of_frameStart {source : ByteSource} (honest : source.Honest) {start : Nat}
    (starts : (frameStart.runOn source).1 = .ok start) :
    ∃ blocks last, Chained (fun _ => false) source.content Flac.firstBlockOffset blocks ∧
      blocks.getLast? = some last ∧ start = last.stop := by
  rcases exists_runOn_eq starts with ⟨after, ran⟩
  rcases of_runOn_bind_eq_ok ran with ⟨all, second, ranBlocks, ran⟩
  rcases of_runOn_bind_eq_ok ranBlocks with ⟨items, third, walked, ranItems⟩
  have isItems := Except.ok.inj (congrArg Prod.fst walked)
  have areBlocks := eq_map_of_mapM (congrArg Prod.fst ranItems)
  rcases chained_of_walkFrom honest (fun _ => false) Flac.firstBlockOffset with
    ⟨blocks, walkedAll, chained⟩ | ⟨before, fault, failed⟩
  · cases isLast : blocks.getLast? with
    | none =>
      rw [List.getLast?_eq_none_iff.mp isLast] at chained
      cases chained
    | some last =>
      rw [frameStart_of_walk walkedAll isLast] at starts
      exact ⟨blocks, last, chained, isLast, (Except.ok.inj starts).symm⟩
  · -- a walk that fails has no blocks to start behind
    have isFault : .error fault ∈ all.map Except.ok := by
      rw [← areBlocks, ← isItems, failed]
      exact List.mem_append_right _ (List.mem_singleton_self _)
    obtain ⟨block, _, isError⟩ := List.mem_map.mp isFault
    cases isError

/-- A walk that ends with a block has gone along a chain up to it. -/
theorem chained_of_getLast? {source : ByteSource} (honest : source.Honest)
    {wanted : MetadataBlock → Bool} {offset : Nat} {block : MetadataBlock}
    (last : (walkFrom wanted source offset).1.getLast? = some (.ok block)) :
    ∃ blocks, Chained wanted source.content offset blocks ∧ blocks.getLast? = some block := by
  rcases chained_of_walkFrom honest wanted offset with
    ⟨blocks, isItems, chained⟩ | ⟨before, fault, failed⟩
  · rw [isItems, List.getLast?_map] at last
    obtain ⟨found, isLast, isBlock⟩ := Option.map_eq_some_iff.mp last
    obtain rfl := Except.ok.inj isBlock
    exact ⟨blocks, chained, isLast⟩
  · rw [failed, List.getLast?_concat] at last
    cases last

/-- The chain up to a block of a kind leads `find` to that block. -/
theorem find_of_chained {source : ByteSource} (honest : source.Honest) {kind : BlockKind}
    {blocks : List MetadataBlock} {block : MetadataBlock}
    (chained : Chained (fun block => block.kind = kind) source.content Flac.firstBlockOffset blocks)
    (last : blocks.getLast? = some block) (isKind : block.kind = kind) :
    ((find kind).runOn source).1 = .ok block.payload := by
  apply find_of_getLast? _ isKind
  rw [walkFrom_of_chained honest chained, List.getLast?_map, last]
  rfl

/-- The whole chain leads `frameStart` to where the frames start, behind the last block. -/
theorem frameStart_of_chained {source : ByteSource} (honest : source.Honest)
    {blocks : List MetadataBlock} {block : MetadataBlock}
    (chained : Chained (fun _ => false) source.content Flac.firstBlockOffset blocks)
    (last : blocks.getLast? = some block) :
    (frameStart.runOn source).1 = .ok block.stop :=
  frameStart_of_walk (walkFrom_of_chained honest chained) last

end MetadataChain

end FieldRecording
