import FieldRecording.Proofs.Flac.Layout

/-!
# The metadata beside a range

Sources that differ in nothing but bytes inside the payload of one block have the same chain of
metadata blocks, and the same stream information. A walk reads headers, and none of them stands in
a payload that the walk itself has found. Up to a block that was found the walk is the same
whatever the media do; behind it, where reads may fail, it is the same on settled sources:
`walkFrom_around`.

`StandIn` says of comments that were read in which block they stand. It is what an edit of a
comment starts from, and `StandIn.of_agree` carries it over to what the edit leaves.
-/

namespace FieldRecording

open ByteSource Access

/-! ## The chain -/

namespace MetadataChain

theorem reads_walkUntil {ε : Type} (wanted : MetadataBlock → Bool) :
    Reads (walkUntil wanted : Access ε (List Item)) :=
  (goesBy_walkUntil wanted).reads

theorem reads_find (kind : BlockKind) : Reads (find kind) := (goesBy_find kind).reads

theorem walkFrom_ne_nil (wanted : MetadataBlock → Bool) (source : ByteSource) (offset : Nat) :
    (walkFrom wanted source offset).1 ≠ [] := by
  rw [walkFrom]
  split
  · exact List.cons_ne_nil _ _
  · split <;> exact List.cons_ne_nil _ _

theorem getLast?_cons_walkFrom (item : Item) (wanted : MetadataBlock → Bool) (source : ByteSource)
    (offset : Nat) :
    (item :: (walkFrom wanted source offset).1).getLast? =
      (walkFrom wanted source offset).1.getLast? := by
  obtain ⟨first, rest, isCons⟩ := List.exists_cons_of_ne_nil (walkFrom_ne_nil wanted source offset)
  rw [isCons, List.getLast?_cons_cons]

section Agree

variable {range : ByteRange} {left right : ByteSource}

/-- A walk with `walkFrom` that ends with a block around the range meets the same blocks on both
sources. Whatever else is looked for is met alike if the sources are settled. -/
theorem walkFrom_around {wanted : MetadataBlock → Bool} (agree : AgreeOutside range left right)
    {offset : Nat} {block : MetadataBlock}
    (last : (walkFrom wanted left offset).1.getLast? = some (.ok block))
    (starts : block.offset ≤ range.start) (stops : range.stop ≤ block.stop) :
    offset + 4 ≤ block.offset ∧ ∀ other, other = wanted ∨ left.Settled →
      (walkFrom other right offset).1 = (walkFrom other left offset).1 := by
  fun_induction walkFrom wanted left offset generalizing right with
  | case1 left offset fault after read => cases last
  | case2 left offset found after read ends =>
    obtain rfl : found = block := Except.ok.inj (Option.some.inj last)
    have place := (MetadataBlock.readAt_bounds read).2.1
    have definite := MetadataBlock.definite_of_readAt (congrArg Prod.fst read)
    have apart : Apart range offset Flac.blockHeaderLength := .inl (place ▸ starts)
    have again : (MetadataBlock.readAt right offset).1 = .ok found :=
      (MetadataBlock.readAt_of_agree agree offset definite apart).trans (congrArg Prod.fst read)
    refine ⟨Nat.le_of_eq place.symm, ?_⟩
    intro other known
    rw [walkFrom_of_readAt_ok other (Prod.ext again rfl), walkFrom_of_readAt_ok other read]
    rcases known with rfl | settled
    · rw [if_pos ends, if_pos ends]
    · have kept := MetadataBlock.sameMedium_readAt left offset
      rw [read] at kept
      rw [walkFrom_behind other (settled.of_sameMedium kept) (agree.after_reads kept
        (MetadataBlock.sameMedium_readAt right offset)) stops]
  | case3 left offset found after read goesOn items final rest ih =>
    have place := (MetadataBlock.readAt_bounds read).2.1
    have definite := MetadataBlock.definite_of_readAt (congrArg Prod.fst read)
    have kept := MetadataBlock.sameMedium_readAt left offset
    have keptRight := MetadataBlock.sameMedium_readAt right offset
    rw [read] at kept
    rw [rest] at ih
    have lastRest : items.getLast? = some (.ok block) := by
      have same := getLast?_cons_walkFrom (.ok found) wanted after found.stop
      rw [rest] at same
      exact same.symm.trans last
    obtain ⟨further, same⟩ := ih (agree.after_reads kept keptRight) lastRest
    have before : offset + 4 ≤ block.offset := by
      rw [MetadataBlock.stop, place] at further
      omega
    have apart : Apart range offset Flac.blockHeaderLength := .inl (Nat.le_trans before starts)
    have again : (MetadataBlock.readAt right offset).1 = .ok found :=
      (MetadataBlock.readAt_of_agree agree offset definite apart).trans (congrArg Prod.fst read)
    refine ⟨before, ?_⟩
    intro other known
    rw [walkFrom_of_readAt_ok other (Prod.ext again rfl), walkFrom_of_readAt_ok other read,
      same other (known.imp_right (·.of_sameMedium kept))]

end Agree

/-- A block that a walk ends with stands behind the header that the walk starts with. -/
theorem offset_le_of_getLast? {wanted : MetadataBlock → Bool} {source : ByteSource} {offset : Nat}
    {block : MetadataBlock}
    (last : (walkFrom wanted source offset).1.getLast? = some (.ok block)) :
    offset + 4 ≤ block.offset :=
  (walkFrom_around (.refl block.payload source) last (Nat.le_refl _) (Nat.le_refl _)).1

/-- A block of a stream that a walk ends with, and that is not the stream information, stands behind
it. -/
theorem preambleLength_le_of_getLast? {wanted : MetadataBlock → Bool} {source : ByteSource}
    {block : MetadataBlock} (isFlac : (Flac.isFlac.runOn source).1 = .ok true)
    (last : (walkFrom wanted source Flac.firstBlockOffset).1.getLast? = some (.ok block))
    (other : block.kind ≠ .streamInfo) : Flac.preambleLength ≤ block.offset := by
  obtain ⟨_, info, stands, isInfo, long⟩ := Flac.firstBlock_of_isFlac isFlac
  rcases read : MetadataBlock.readAt source Flac.firstBlockOffset with ⟨cause | first, after⟩
  · rw [walkFrom_of_readAt_error _ read] at last
    cases last
  · have isFirst := MetadataBlock.stands_of_readAt (congrArg Prod.fst read)
    obtain rfl := Option.some.inj (stands.symm.trans isFirst)
    rw [walkFrom_of_readAt_ok _ read] at last
    split at last
    · have isBlock := Except.ok.inj (Option.some.inj last)
      exact absurd (isBlock ▸ isInfo) other
    · rw [getLast?_cons_walkFrom] at last
      have behind := offset_le_of_getLast? last
      omega

/-- The `blocks` are those of the walk, if there are no faults among its items. -/
theorem outcome_blocks (source : ByteSource) :
    (blocks.runOn source).1 =
      (walkFrom (fun _ => false) source Flac.firstBlockOffset).1.mapM fun item => item := by
  have walked : (walk : Access FlacError _).runOn source =
      (.ok (walkFrom (fun _ => false) source Flac.firstBlockOffset).1,
        (walkFrom (fun _ => false) source Flac.firstBlockOffset).2) := rfl
  unfold blocks
  rw [runOn_bind_of_ok walked, runOn_ofExcept]

end MetadataChain

/-! ## In front of the other blocks -/

section InFront

variable {range : ByteRange} {left right : ByteSource} (agree : AgreeOutside range left right)

include agree

/-- A stream is one whatever stands behind its first header. -/
theorem Flac.isFlac_of_agree (behind : 8 ≤ range.start)
    (passes : (isFlac.runOn left).1 = .ok true) : (isFlac.runOn right).1 = .ok true := by
  obtain ⟨readStart, first, high, middle, low, readHeader, isInfo, long⟩ := isFlac_iff.mp passes
  obtain ⟨isStart, start⟩ := readAt_of_full agree readStart (Nat.le_refl _)
  obtain ⟨isHeader, header⟩ := readAt_of_full agree readHeader (Nat.le_refl _)
  rw [agree.slice_eq (.inl (Nat.le_trans (by decide) behind)), ← isStart] at start
  rw [agree.slice_eq (.inl behind), ← isHeader] at header
  exact isFlac_iff.mpr ⟨start, first, high, middle, low, header, isInfo, long⟩

/-- The bytes of a fixed place are read alike, if they are there. -/
theorem Flac.readFixed_of_agree {offset count : Nat} (apart : Apart range offset count)
    (covered : offset + count ≤ left.content.size) :
    ((readFixed offset count).runOn right).1 = ((readFixed offset count).runOn left).1 := by
  have definite : (left.standingAt offset).Definite count := by
    right
    change count ≤ left.content.size - offset
    omega
  have same := readAt_of_apart agree apart definite
  have lifted (source : ByteSource) :
      (liftM (Access.readAt offset count) : Access FlacError (List UInt8)).runOn source =
        ((source.readAt offset count).1.mapError .io, (source.readAt offset count).2) := rfl
  unfold readFixed
  rw [runOn_bind, runOn_bind, lifted, lifted, same]
  cases (left.readAt offset count).1 with
  | error cause => rfl
  | ok bytes =>
    dsimp only [Except.mapError]
    split <;> rfl

/-- So is the stream information. -/
theorem StreamInfo.read_of_agree (behind : Flac.preambleLength ≤ range.start)
    (covered : Flac.preambleLength ≤ left.content.size) :
    (read.runOn right).1 = (read.runOn left).1 := by
  have same : ((Flac.readFixed offset Flac.streamInfoLength).runOn right).1 =
      ((Flac.readFixed offset Flac.streamInfoLength).runOn left).1 :=
    Flac.readFixed_of_agree agree (.inl behind) covered
  unfold read
  rw [outcome_bind_pure, outcome_bind_pure, same]

end InFront

/-! ## The comments -/

namespace Comments

/-- The comments of a source stand in a block: it is the one that a walk up to the first block of
comments ends with, it was read, and its bytes hold them, as `Comments.parse` finds. -/
structure StandIn (source : ByteSource) (block : MetadataBlock) (comments : Comments) : Prop where
  isLast : (MetadataChain.walkFrom (fun block => block.kind = .vorbisComment) source
    Flac.firstBlockOffset).1.getLast? = some (.ok block)
  isKind : block.kind = .vorbisComment
  answered : ((readRange block.payload).runOn source).1 =
    .ok (source.content.slice block.offset block.length)
  parsed : parse (source.content.slice block.offset block.length) block.offset = .ok comments

theorem length_payload (block : MetadataBlock) : block.payload.length = block.length :=
  Nat.add_sub_cancel_left _ _

/-- Comments that `Comments.read` returns stand in a block. -/
theorem standIn_of_read {source : ByteSource} {comments : Comments}
    (done : (read.runOn source).1 = .ok comments) : ∃ block, StandIn source block comments := by
  rcases exists_runOn_eq done with ⟨last, ran⟩
  rcases of_runOn_bind_eq_ok ran with ⟨range, second, found, ran⟩
  rcases of_runOn_bind_eq_ok ran with ⟨payload, third, readPayload, parsed⟩
  obtain ⟨block, isLast, isKind, rfl⟩ := MetadataChain.of_find (congrArg Prod.fst found)
  have kept := (MetadataChain.reads_find _).sameMedium found
  have nowhere : AgreeOutside ⟨0, 0⟩ second source := .of_sameMedium kept.symm
  obtain ⟨isPayload, _, answered⟩ := readRange_of_ok nowhere
    (congrArg Prod.fst (of_runOn_adapt_eq_ok readPayload))
  rw [length_payload] at isPayload answered
  rw [isPayload, kept.content] at parsed
  exact ⟨block, isLast, isKind, answered, FrameHeader.eq_ok_of_mapError (Prod.mk.inj parsed).1⟩

namespace StandIn

variable {source : ByteSource} {block : MetadataBlock} {comments : Comments}

/-- Comments that stand in a block, by `StandIn`, are read. -/
theorem read_eq (stand : StandIn source block comments) :
    (read.runOn source).1 = .ok comments := by
  rcases exists_runOn_eq (MetadataChain.find_of_getLast? stand.isLast stand.isKind) with
    ⟨second, found⟩
  have kept := (MetadataChain.reads_find _).sameMedium found
  have nowhere : AgreeOutside ⟨0, 0⟩ source second := .of_sameMedium kept
  have again := (readRange_of_ok nowhere stand.answered).2.2
  rw [length_payload, kept.content] at again
  rcases exists_runOn_eq again with ⟨third, answered⟩
  have lifted : (liftM (readRange block.payload) : Access FlacError (List UInt8)).runOn second =
      (.ok (source.content.slice block.offset block.length), third) :=
    runOn_adapt_of_ok answered FlacError.io
  unfold Comments.read
  rw [runOn_bind_of_ok found, runOn_bind_of_ok lifted, runOn_ofExcept]
  exact congrArg (Except.mapError FlacError.badComments) stand.parsed

/-- The block lies in the content. -/
theorem covered (stand : StandIn source block comments) : block.stop ≤ source.content.size := by
  have full := (readRange_of_ok (.refl ⟨0, 0⟩ source) stand.answered).2.1
  have inPayload := (within_of_parse stand.parsed).1
  rw [length_payload] at full
  rw [Content.length_slice] at full inPayload
  rw [MetadataBlock.stop]
  omega

/-- Sources that agree outside of a range in the block have their comments in the same block. -/
theorem of_agree {range : ByteRange} {other : ByteSource} {changed : Comments}
    (stand : StandIn source block comments) (agree : AgreeOutside range source other)
    (starts : block.offset ≤ range.start) (stops : range.stop ≤ block.stop)
    (parsed : parse (other.content.slice block.offset block.length) block.offset = .ok changed) :
    StandIn other block changed := by
  have walked :=
    (MetadataChain.walkFrom_around agree stand.isLast starts stops).2 _ (.inl rfl)
  have answered := (readRange_of_ok agree stand.answered).2.2
  rw [length_payload] at answered
  exact ⟨walked ▸ stand.isLast, stand.isKind, answered, parsed⟩

theorem of_sameMedium {other : ByteSource} (stand : StandIn source block comments)
    (same : SameMedium source other) : StandIn other block comments :=
  stand.of_agree (.of_sameMedium same) (Nat.le_refl block.payload.start) (Nat.le_refl _)
    (same.content ▸ stand.parsed)

/-- The comments of a stream stand behind the stream information. -/
theorem preambleLength_le (stand : StandIn source block comments)
    (isFlac : (Flac.isFlac.runOn source).1 = .ok true) : Flac.preambleLength ≤ block.offset := by
  have other : block.kind ≠ .streamInfo := by
    rw [stand.isKind]
    decide
  exact MetadataChain.preambleLength_le_of_getLast? isFlac stand.isLast other

end StandIn

end Comments

end FieldRecording
