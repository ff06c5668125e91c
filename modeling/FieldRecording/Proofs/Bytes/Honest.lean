import FieldRecording.Bytes.Source
import FieldRecording.Proofs.Bytes.Slice

/-!
# Reads of an honest source

A source is honest, `Honest`, when no read of it fails and every position up to its end can be
reached. Its medium may still interrupt reads and cut them short, as often as it likes between two
successes. None of that shows: `readAt_of_honest` says that a read returns the true bytes from
where it was asked for, as many as there are, and `readOn_standingAt` the same of reading on.

Behind this stands `fill_of_definite`, which holds of sources with faults as well. A read is
`Definite` when it does not depend on how it is cut whether it meets a fault: the source is
`Settled`, or the bytes that are wanted are there. It then gives `bytesAhead`, by an induction on
the bytes that are still wanted and the interruptions that are left.
-/

namespace FieldRecording.ByteSource

/-- Sources over the same bytes with the same faults. Where they stand, and what turns their media
take, may differ: reads and seeks change nothing else, and so the sources before and after them
are related. -/
structure SameMedium (left right : ByteSource) : Prop where
  content : right.content = left.content
  fault : right.fault = left.fault
  seekCap : right.seekCap = left.seekCap
  refusedFrom : right.refusedFrom = left.refusedFrom

namespace SameMedium

theorem refl (source : ByteSource) : SameMedium source source := ⟨rfl, rfl, rfl, rfl⟩

theorem symm {left right : ByteSource} (same : SameMedium left right) :
    SameMedium right left :=
  ⟨same.content.symm, same.fault.symm, same.seekCap.symm, same.refusedFrom.symm⟩

theorem trans {left middle right : ByteSource} (first : SameMedium left middle)
    (second : SameMedium middle right) : SameMedium left right :=
  ⟨second.content.trans first.content, second.fault.trans first.fault,
    second.seekCap.trans first.seekCap, second.refusedFrom.trans first.refusedFrom⟩

theorem refuses {left right : ByteSource} (same : SameMedium left right) (offset : Nat) :
    right.refuses offset = left.refuses offset := by
  rw [ByteSource.refuses, ByteSource.refuses, same.refusedFrom]

theorem reach {left right : ByteSource} (same : SameMedium left right) (offset : Nat) :
    right.reach offset = left.reach offset := by
  rw [ByteSource.reach, ByteSource.reach, same.seekCap]

end SameMedium

/-- Reads do not fail, and every position up to the end can be reached. `ofContent` and `ofFile`
make such sources. -/
structure Honest (source : ByteSource) : Prop where
  faultless : source.fault = none
  uncapped : source.seekCap = none
  admits : ∀ offset, offset ≤ source.content.size → source.refuses offset = false

theorem Honest.of_sameMedium {source other : ByteSource} (honest : source.Honest)
    (same : SameMedium source other) : other.Honest where
  faultless := same.fault.trans honest.faultless
  uncapped := same.seekCap.trans honest.uncapped
  admits offset within := by
    rw [same.refuses]
    exact honest.admits offset (same.content ▸ within)

theorem honest_ofContent (content : Content) : (ofContent content).Honest :=
  ⟨rfl, rfl, fun _ _ => rfl⟩

/-- A file that is no longer than the largest position of a file is honest. -/
theorem honest_ofFile {content : Content} (fits : content.size < sizeLimit) :
    (ofFile content).Honest where
  faultless := rfl
  uncapped := rfl
  admits offset within := by
    simp only [ofFile] at within
    simp only [refuses, ofFile, Option.any_some, decide_eq_false_iff_not]
    omega

/-! ## One read of the medium -/

theorem sameMedium_readOnce (source : ByteSource) (wanted : Nat) :
    SameMedium source (source.readOnce wanted).2 := by
  unfold readOnce
  dsimp only
  split
  · exact ⟨rfl, rfl, rfl, rfl⟩
  · split <;> exact ⟨rfl, rfl, rfl, rfl⟩

/-- A `readOnce` of the medium fails for the fault that stands in its way. -/
theorem of_readOnce_failed {source after : ByteSource} {wanted : Nat} {reason : String}
    (answered : source.readOnce wanted = (.failed reason, after)) :
    ∃ fault, source.faultOf wanted = some fault ∧ reason = fault.reason := by
  unfold readOnce at answered
  dsimp only at answered
  split at answered
  · cases answered
  · split at answered
    · rename_i fault met
      obtain ⟨isFault, inWay⟩ := Option.filter_eq_some_iff.mp met
      refine ⟨fault, Option.filter_eq_some_iff.mpr ⟨isFault, ?_⟩,
        (Answer.failed.inj (Prod.mk.inj answered).1).symm⟩
      simp only [Bool.and_eq_true, decide_eq_true_eq] at inWay ⊢
      omega
    · cases answered

/-- A `readOnce` of the medium that succeeds gives a stretch of the true bytes, before any fault. -/
theorem of_readOnce_bytes {source after : ByteSource} {wanted : Nat} {more : List UInt8}
    (asked : 0 < wanted) (answered : source.readOnce wanted = (.bytes more, after)) :
    ∃ count, 0 < count ∧ count ≤ wanted ∧ source.faultOf count = none ∧
      more = source.content.slice source.position count ∧
      after.position = source.position + more.length := by
  unfold readOnce at answered
  dsimp only at answered
  split at answered
  · cases answered
  · have positive : 0 < min wanted (source.turns source.turn).most := by
      have := (source.turns source.turn).most_pos
      omega
    split at answered
    · cases answered
    · rename_i passed
      obtain ⟨isMore, rfl⟩ := Prod.mk.inj answered
      exact ⟨_, positive, Nat.min_le_left _ _, passed, (Answer.bytes.inj isMore).symm,
        by rw [← Answer.bytes.inj isMore]⟩

/-! ## Filling up -/

/-- Reads fail nowhere but at a place of the content, so that a read which runs out of bytes meets
no fault behind them. -/
def Settled (source : ByteSource) : Prop :=
  ∀ fault, source.fault = some fault → fault.offset ≤ source.content.size

theorem Settled.of_sameMedium {source other : ByteSource} (settled : source.Settled)
    (same : SameMedium source other) : other.Settled := by
  intro fault isFault
  rw [same.content]
  exact settled fault (same.fault.symm.trans isFault)

theorem settled_of_faultless {source : ByteSource} (faultless : source.fault = none) :
    source.Settled := by
  intro fault isFault
  rw [faultless] at isFault
  cases isFault

/-- How a read of so many bytes ends does not depend on how it is cut: the source is `Settled`, or
the bytes are there. -/
def Definite (source : ByteSource) (wanted : Nat) : Prop :=
  source.Settled ∨ wanted ≤ source.content.size - source.position

/-- At the end of the content no fault of a settled source is left to be met. -/
theorem Settled.faultOf_eq_none {source : ByteSource} (settled : source.Settled) {count : Nat}
    (positive : 0 < count) (passed : source.faultOf count = none)
    (ended : source.content.size ≤ source.position) : source.fault = none := by
  cases isFault : source.fault with
  | none => rfl
  | some fault =>
    have before := settled fault isFault
    have notMet := Option.filter_eq_none_iff.mp passed fault isFault
    simp only [Bool.and_eq_true, decide_eq_true_eq] at notMet
    omega

/-- Behind bytes that were read, the rest of a read meets the fault that the whole of it meets, as
`faultOf` looks at where the read ends. -/
theorem faultOf_advance {source after : ByteSource} (sameFault : after.fault = source.fault)
    {moved count wanted : Nat} (position : after.position = source.position + moved)
    (less : moved ≤ count) (le : count ≤ wanted) (passed : source.faultOf count = none) :
    after.faultOf (wanted - moved) = source.faultOf wanted := by
  unfold faultOf at passed ⊢
  rw [sameFault, position]
  cases isFault : source.fault with
  | none => rfl
  | some fault =>
    rw [isFault] at passed
    have notMet := Option.filter_eq_none_iff.mp passed fault rfl
    simp only [Bool.and_eq_true, decide_eq_true_eq] at notMet
    have same : (0 < wanted - moved && fault.offset < source.position + moved + (wanted - moved)) =
        (0 < wanted && fault.offset < source.position + wanted : Bool) := by
      rw [Bool.eq_iff_iff]
      simp only [Bool.and_eq_true, decide_eq_true_eq]
      omega
    simp only [Option.filter, same]

theorem sameMedium_fill (source : ByteSource) (wanted : Nat) (got : Array UInt8) :
    SameMedium source (source.fill wanted got).2 := by
  fun_induction fill source wanted got with
  | case1 source got => exact .refl source
  | case2 source wanted got asked after answered ih =>
    have same := sameMedium_readOnce source wanted
    rw [answered] at same
    exact same.trans ih
  | case3 source wanted got asked reason after answered =>
    have same := sameMedium_readOnce source wanted
    rw [answered] at same
    exact same
  | case4 source wanted got asked more after answered ended =>
    have same := sameMedium_readOnce source wanted
    rw [answered] at same
    exact same
  | case5 source wanted got asked more after answered notEnded ih =>
    have same := sameMedium_readOnce source wanted
    rw [answered] at same
    exact same.trans ih

/-- What a read from the position on is to give: the bytes from there, or the fault in the way. It
is computed from the content and the faults, without the turns of the medium. -/
def bytesAhead (source : ByteSource) (wanted : Nat) : Except IoError (List UInt8) :=
  match source.faultOf wanted with
  | some fault => .error (.unreadable fault.reason)
  | none => .ok (source.content.slice source.position wanted)

theorem bytesAhead_of_passed {source : ByteSource} {wanted : Nat}
    (passed : source.faultOf wanted = none) :
    source.bytesAhead wanted = .ok (source.content.slice source.position wanted) := by
  rw [bytesAhead, passed]

theorem bytesAhead_of_met {source : ByteSource} {wanted : Nat} {fault : ReadFault}
    (met : source.faultOf wanted = some fault) :
    source.bytesAhead wanted = .error (.unreadable fault.reason) := by
  rw [bytesAhead, met]

/-- However its reads are interrupted and cut short, `fill` takes the true bytes, or meets the
fault that stands in the way. -/
theorem fill_of_definite {source : ByteSource} {wanted : Nat} (definite : source.Definite wanted)
    (got : Array UInt8) :
    (source.fill wanted got).1 =
      (source.bytesAhead wanted).map fun bytes => got ++ bytes.toArray := by
  fun_induction fill source wanted got with
  | case1 source got =>
    have passed : source.faultOf 0 = none := Option.filter_eq_none_iff.mpr fun _ _ => by simp
    rw [bytesAhead_of_passed passed, Content.slice_zero]
    simp [Except.map]
  | case2 source wanted got asked after answered ih =>
    have same := sameMedium_readOnce source wanted
    have position := position_readOnce_interrupted answered
    rw [answered] at same
    have sameFault : after.faultOf wanted = source.faultOf wanted := by
      rw [faultOf, faultOf, same.fault, position]
    have filled := ih (definite.imp (·.of_sameMedium same) fun there => by
      rwa [same.content, position])
    rwa [bytesAhead, sameFault, same.content, position, ← bytesAhead] at filled
  | case3 source wanted got asked reason after answered =>
    obtain ⟨fault, met, rfl⟩ := of_readOnce_failed answered
    rw [bytesAhead_of_met met]
    rfl
  | case4 source wanted got asked more after answered ended =>
    obtain ⟨count, positive, _, passed, rfl, position⟩ :=
      of_readOnce_bytes (Nat.pos_of_ne_zero asked) answered
    have noneRead := List.length_eq_zero_iff.mpr (List.isEmpty_iff.mp ended)
    have past : source.content.size ≤ source.position := by
      rw [Content.length_slice] at noneRead
      omega
    have settled : source.Settled := definite.resolve_right (by omega)
    have faultless := settled.faultOf_eq_none positive passed past
    have missed : source.faultOf wanted = none := by rw [faultOf, faultless]; rfl
    rw [bytesAhead_of_passed missed, Content.slice_eq_nil _ _ wanted past]
    simp [Except.map]
  | case5 source wanted got asked more after answered notEnded ih =>
    have same := sameMedium_readOnce source wanted
    rw [answered] at same
    obtain ⟨count, positive, le, passed, rfl, position⟩ :=
      of_readOnce_bytes (Nat.pos_of_ne_zero asked) answered
    have short : (source.content.slice source.position count).length ≤ count := by
      rw [Content.length_slice]
      exact Nat.min_le_left _ _
    rw [ih (definite.imp (·.of_sameMedium same) fun there => by
      rw [same.content, position]
      omega)]
    -- the rest is read from behind the bytes that were read, and meets the same fault
    have sameFault := faultOf_advance same.fault position short le passed
    cases met : source.faultOf wanted with
    | some fault =>
      rw [bytesAhead_of_met met, bytesAhead_of_met (sameFault.trans met)]
      rfl
    | none =>
      rw [bytesAhead_of_passed met, bytesAhead_of_passed (sameFault.trans met), same.content,
        position, Content.slice_eq_append _ _ _ le]
      simp [Except.map]

/-! ## Reading at a position -/

/-- The source with its position at an offset. -/
def standingAt (source : ByteSource) (offset : Nat) : ByteSource :=
  { source with position := offset }

theorem sameMedium_standingAt (source : ByteSource) (offset : Nat) :
    SameMedium source (source.standingAt offset) := ⟨rfl, rfl, rfl, rfl⟩

theorem sameMedium_seek (source : ByteSource) (offset : Nat) :
    SameMedium source (source.seek offset).2 := by
  unfold seek
  split <;> exact ⟨rfl, rfl, rfl, rfl⟩

/-- Asking an honest source for a position up to its end leads there, unless it is refused. -/
theorem seek_of_honest {source : ByteSource} (honest : source.Honest) (offset : Nat) :
    source.seek offset =
      if source.refuses offset then (.error .invalidArgument, source)
      else (.ok offset, source.standingAt offset) := by
  simp only [seek, reach, honest.uncapped, standingAt]

theorem sameMedium_readOn (source : ByteSource) (wanted : Nat) :
    SameMedium source (source.readOn wanted).2 := by
  unfold readOn
  split
  · exact .refl source
  · exact sameMedium_fill source wanted #[]

theorem readOn_of_definite {source : ByteSource} {wanted : Nat}
    (definite : source.Definite wanted) (fits : wanted < sizeLimit) :
    (source.readOn wanted).1 = source.bytesAhead wanted := by
  unfold readOn
  rw [if_neg (Nat.not_le.mpr fits)]
  dsimp only
  rw [fill_of_definite definite]
  cases source.bytesAhead wanted with
  | error cause => rfl
  | ok bytes => simp [Except.map]

theorem readOn_of_honest {source : ByteSource} (honest : source.Honest) {wanted : Nat}
    (fits : wanted < sizeLimit) :
    (source.readOn wanted).1 = .ok (source.content.slice source.position wanted) ∧
      SameMedium source (source.readOn wanted).2 := by
  have passed : source.faultOf wanted = none := by rw [faultOf, honest.faultless]; rfl
  have definite : source.Definite wanted := .inl (settled_of_faultless honest.faultless)
  rw [readOn_of_definite definite fits, bytesAhead_of_passed passed]
  exact ⟨rfl, sameMedium_readOn source wanted⟩

/-- Reading on from an offset of an honest source returns the bytes from there. -/
theorem readOn_standingAt {source : ByteSource} (honest : source.Honest) (offset : Nat)
    {wanted : Nat} (fits : wanted < sizeLimit) :
    ((source.standingAt offset).readOn wanted).1 = .ok (source.content.slice offset wanted) ∧
      SameMedium source ((source.standingAt offset).readOn wanted).2 := by
  have there := source.sameMedium_standingAt offset
  rcases readOn_of_honest (honest.of_sameMedium there) fits with ⟨bytes, kept⟩
  exact ⟨bytes, there.trans kept⟩

/-- Two sources on the same medium read on from an offset alike. -/
theorem readOn_standingAt_eq {left right : ByteSource} (honest : left.Honest)
    (same : SameMedium left right) (offset : Nat) {wanted : Nat} (fits : wanted < sizeLimit) :
    ∃ bytes afterLeft afterRight,
      (left.standingAt offset).readOn wanted = (.ok bytes, afterLeft) ∧
      (right.standingAt offset).readOn wanted = (.ok bytes, afterRight) ∧
      SameMedium left afterLeft := by
  rcases readOn_standingAt honest offset fits with ⟨bytesLeft, keptLeft⟩
  rcases readOn_standingAt (honest.of_sameMedium same) offset fits with ⟨bytesRight, _⟩
  rw [same.content] at bytesRight
  exact ⟨_, _, _, Prod.ext bytesLeft rfl, Prod.ext bytesRight rfl, keptLeft⟩

/-- A read of an honest source, from any position up to its end, returns the true
bytes. -/
theorem readAt_of_honest {source : ByteSource} (honest : source.Honest) {offset wanted : Nat}
    (within : offset ≤ source.content.size) (fits : wanted < sizeLimit) :
    (source.readAt offset wanted).1 = .ok (source.content.slice offset wanted) ∧
      SameMedium source (source.readAt offset wanted).2 := by
  unfold readAt
  rw [if_neg (by omega), seek_of_honest honest, honest.admits offset within]
  simp only [Bool.false_eq_true, if_false, if_true]
  exact readOn_standingAt honest offset fits

end FieldRecording.ByteSource
