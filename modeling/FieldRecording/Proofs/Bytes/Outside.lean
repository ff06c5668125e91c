import FieldRecording.Proofs.Bytes.Overwriting
import FieldRecording.Proofs.Bytes.Steady

/-!
# Reads of sources that agree outside of a range

A source need not be honest to be read twice alike: its reads may fail, and positions may be out
of reach, or refused. A read that was answered in full is answered in full again, whatever turn
the medium takes, with the bytes that stand there (`SameMedium.readAt_of_full`).

Sources with `AgreeOutside` differ in nothing but the bytes of a range. Reads that stay `Apart`
from the range end alike on them (`readAt_of_apart`), and those that do not are at least answered
in full on both if they are on one (`readAt_of_full`). So a file is compared with what an edit of
it leaves. An access that leaves the medium of every source is said to be among `Reads`.
-/

namespace FieldRecording

namespace ByteSource

/-- Sources that differ in nothing but bytes in a range, where they stand, and what turns their
media take. Faults and the positions that can be reached are the same. -/
structure AgreeOutside (range : ByteRange) (left right : ByteSource) : Prop where
  size : right.content.size = left.content.size
  bytes : ∀ index, ¬ (range.start ≤ index ∧ index < range.stop) →
    right.content[index]? = left.content[index]?
  fault : right.fault = left.fault
  seekCap : right.seekCap = left.seekCap
  refusedFrom : right.refusedFrom = left.refusedFrom

/-- The bytes that a read at an offset covers stand apart from the range, before it or behind it. -/
def Apart (range : ByteRange) (offset count : Nat) : Prop :=
  offset + count ≤ range.start ∨ range.stop ≤ offset

namespace AgreeOutside

variable {range : ByteRange} {left right : ByteSource}

theorem of_sameMedium (same : SameMedium left right) : AgreeOutside range left right :=
  ⟨congrArg Array.size same.content, fun _ _ => by rw [same.content], same.fault, same.seekCap,
    same.refusedFrom⟩

theorem refl (range : ByteRange) (source : ByteSource) : AgreeOutside range source source :=
  of_sameMedium (.refl source)

theorem symm (agree : AgreeOutside range left right) : AgreeOutside range right left :=
  ⟨agree.size.symm, fun index outside => (agree.bytes index outside).symm, agree.fault.symm,
    agree.seekCap.symm, agree.refusedFrom.symm⟩

theorem trans {other : ByteSource} (first : AgreeOutside range left right)
    (second : AgreeOutside range right other) : AgreeOutside range left other :=
  ⟨second.size.trans first.size,
    fun index outside => (second.bytes index outside).trans (first.bytes index outside),
    second.fault.trans first.fault, second.seekCap.trans first.seekCap,
    second.refusedFrom.trans first.refusedFrom⟩

/-- A source agrees with itself after bytes were written to the range with `overwrite`. -/
theorem of_overwrite {source : ByteSource} {bytes : List UInt8}
    (ordered : range.start ≤ range.stop) (inside : range.stop ≤ source.content.size)
    (long : bytes.length = range.length) (position : Nat) :
    AgreeOutside range source { source with
      content := source.content.overwrite range.start bytes
      position } := by
  rw [ByteRange.length] at long
  have covered : range.start + bytes.length ≤ source.content.size := by omega
  refine ⟨Content.size_overwrite covered, ?_, rfl, rfl, rfl⟩
  intro index outside
  rw [Content.getElem?_overwrite covered, if_neg (by omega)]

/-- Sources agree whatever has been read of them: `SameMedium` on either side makes no difference.
-/
theorem after_reads {left' right' : ByteSource} (agree : AgreeOutside range left right)
    (keptLeft : SameMedium left left') (keptRight : SameMedium right right') :
    AgreeOutside range left' right' :=
  (of_sameMedium keptLeft.symm).trans (agree.trans (of_sameMedium keptRight))

theorem settled (agree : AgreeOutside range left right) (settled : left.Settled) :
    right.Settled := by
  intro fault isFault
  rw [agree.size]
  exact settled fault (agree.fault.symm.trans isFault)

theorem slice_eq (agree : AgreeOutside range left right) {offset count : Nat}
    (apart : Apart range offset count) :
    right.content.slice offset count = left.content.slice offset count := by
  apply Content.slice_congr
  intro index above below
  apply agree.bytes
  rcases apart with before | behind
  · omega
  · omega

theorem refuses (agree : AgreeOutside range left right) (offset : Nat) :
    right.refuses offset = left.refuses offset := by
  rw [ByteSource.refuses, ByteSource.refuses, agree.refusedFrom]

theorem reach (agree : AgreeOutside range left right) (offset : Nat) :
    right.reach offset = left.reach offset := by
  rw [ByteSource.reach, ByteSource.reach, agree.seekCap]

/-- Where a read of one source is cut does not matter, nor where one of the other is. -/
theorem definite (agree : AgreeOutside range left right) {offset wanted : Nat}
    (definite : (left.standingAt offset).Definite wanted) :
    (right.standingAt offset).Definite wanted :=
  definite.imp (fun settled => agree.settled settled) fun there =>
    Nat.le_trans there (Nat.le_of_eq (congrArg (· - offset) agree.size.symm))

end AgreeOutside

/-! ## Reading at a position -/

/-- What a read from an offset on gives, if the offset can be reached: the bytes that stand there,
or the fault that the read meets. -/
def bytesFrom (source : ByteSource) (offset wanted : Nat) : Except IoError (List UInt8) :=
  (source.standingAt offset).bytesAhead wanted

theorem slice_of_bytesFrom {source : ByteSource} {offset wanted : Nat} {bytes : List UInt8}
    (read : source.bytesFrom offset wanted = .ok bytes) :
    bytes = source.content.slice offset wanted := by
  unfold bytesFrom bytesAhead at read
  split at read
  · cases read
  · exact (Except.ok.inj read).symm

namespace AgreeOutside

variable {range : ByteRange} {left right : ByteSource}

theorem faultOf (agree : AgreeOutside range left right) (offset wanted : Nat) :
    (right.standingAt offset).faultOf wanted = (left.standingAt offset).faultOf wanted := by
  unfold ByteSource.faultOf standingAt
  rw [agree.fault]

/-- Where one source is read, the other one is, whatever stands there. -/
theorem bytesFrom_of_ok (agree : AgreeOutside range left right) {offset wanted : Nat}
    {bytes : List UInt8} (read : left.bytesFrom offset wanted = .ok bytes) :
    right.bytesFrom offset wanted = .ok (right.content.slice offset wanted) := by
  unfold bytesFrom bytesAhead at read ⊢
  rw [agree.faultOf]
  split at read
  · cases read
  · rfl

/-- Apart from the range the sources are read alike. -/
theorem bytesFrom_eq (agree : AgreeOutside range left right) {offset wanted : Nat}
    (apart : Apart range offset wanted) :
    right.bytesFrom offset wanted = left.bytesFrom offset wanted := by
  rw [bytesFrom, bytesFrom, bytesAhead, bytesAhead, agree.faultOf]
  cases (left.standingAt offset).faultOf wanted with
  | some fault => rfl
  | none => exact congrArg Except.ok (agree.slice_eq apart)

end AgreeOutside

theorem seek_eq (source : ByteSource) (offset : Nat) :
    source.seek offset =
      if source.refuses offset then (.error .invalidArgument, source)
      else (.ok (source.reach offset), source.standingAt (source.reach offset)) := rfl

/-- Where a seek lands, to read at the place is to read on from it with `readOn`. -/
theorem readAt_of_lands {source : ByteSource} {offset wanted : Nat}
    (lands : (source.seek offset).1 = .ok offset) (fits : wanted < sizeLimit) :
    source.readAt offset wanted = (source.standingAt offset).readOn wanted := by
  unfold readAt
  rw [if_neg (Nat.not_le.mpr fits), seek_eq]
  rw [seek_eq] at lands
  split at lands
  · cases lands
  · rename_i admitted
    have landed : source.reach offset = offset := Except.ok.inj lands
    rw [if_neg admitted, landed]
    exact if_pos rfl

/-- A place that was reached is reached again. -/
theorem seek_of_seek {source after : ByteSource} {offset : Nat}
    (went : source.seek offset = (.ok offset, after)) :
    after.seek offset = (.ok offset, after) := by
  rw [seek_eq] at went
  split at went
  · cases went
  · rename_i admitted
    obtain ⟨landed, rfl⟩ := Prod.mk.inj went
    have same := source.sameMedium_standingAt (source.reach offset)
    rw [seek_eq, same.refuses, if_neg admitted, same.reach, landed]
    rfl

/-- At a place that was reached, to read there is to read on. -/
theorem readAt_of_seek {source after : ByteSource} {offset wanted : Nat}
    (went : source.seek offset = (.ok offset, after)) (fits : wanted < sizeLimit) :
    after.readAt offset wanted = after.readOn wanted := by
  unfold readAt
  rw [if_neg (Nat.not_le.mpr fits), seek_of_seek went]
  exact if_pos rfl

theorem sameMedium_readAt (source : ByteSource) (offset wanted : Nat) :
    SameMedium source (source.readAt offset wanted).2 := by
  unfold readAt
  rw [seek_eq]
  split
  · exact .refl source
  · cases source.refuses offset with
    | true => exact .refl source
    | false =>
      have there := source.sameMedium_standingAt (source.reach offset)
      simp only [Bool.false_eq_true, if_false]
      split
      · exact there.trans (sameMedium_readOn _ wanted)
      · exact there

/-- What `readAt` returns at an offset, for a read whose end does not depend on how it is cut. -/
theorem readAt_of_definite {source : ByteSource} {offset wanted : Nat}
    (definite : (source.standingAt offset).Definite wanted) :
    (source.readAt offset wanted).1 =
      if sizeLimit ≤ wanted then .error .tooManyBytes
      else if source.refuses offset then .error .invalidArgument
      else if source.reach offset = offset then source.bytesFrom offset wanted
      else .ok [] := by
  unfold readAt
  rw [seek_eq]
  split
  · rfl
  · rename_i fits
    cases source.refuses offset with
    | true => rfl
    | false =>
      simp only [Bool.false_eq_true, if_false]
      split
      · rename_i landed
        rw [landed]
        exact readOn_of_definite definite (Nat.lt_of_not_le fits)
      · rfl

/-- A read that was answered in full gave the bytes that stand there. Sources that agree answer it
in full, too, with the bytes that they have. -/
theorem readAt_of_full {range : ByteRange} {left right : ByteSource} {offset wanted : Nat}
    {bytes : List UInt8} (agree : AgreeOutside range left right)
    (read : (left.readAt offset wanted).1 = .ok bytes) (full : wanted ≤ bytes.length) :
    bytes = left.content.slice offset wanted ∧
      (right.readAt offset wanted).1 = .ok (right.content.slice offset wanted) := by
  have inside : wanted ≤ left.content.size - offset :=
    Nat.le_trans full (length_readAt_le (Prod.ext read rfl))
  have definite : (left.standingAt offset).Definite wanted := .inr inside
  rw [readAt_of_definite (agree.definite definite), agree.refuses, agree.reach]
  rw [readAt_of_definite definite] at read
  by_cases tooMany : sizeLimit ≤ wanted
  · rw [if_pos tooMany] at read
    cases read
  rw [if_neg tooMany] at read ⊢
  by_cases refused : left.refuses offset = true
  · rw [if_pos refused] at read
    cases read
  rw [if_neg refused] at read ⊢
  by_cases landed : left.reach offset = offset
  · rw [if_pos landed] at read ⊢
    exact ⟨slice_of_bytesFrom read, agree.bytesFrom_of_ok read⟩
  · -- no bytes were asked for where no position is
    rw [if_neg landed] at read ⊢
    obtain rfl := Except.ok.inj read
    obtain rfl := Nat.le_zero.mp full
    rw [Content.slice_zero, Content.slice_zero]
    exact ⟨rfl, rfl⟩

/-- Where a read stays `Apart` from the range, sources that agree answer `readAt` alike. -/
theorem readAt_of_apart {range : ByteRange} {left right : ByteSource} {offset wanted : Nat}
    (agree : AgreeOutside range left right) (apart : Apart range offset wanted)
    (definite : (left.standingAt offset).Definite wanted) :
    (right.readAt offset wanted).1 = (left.readAt offset wanted).1 := by
  rw [readAt_of_definite definite, readAt_of_definite (agree.definite definite), agree.refuses,
    agree.reach, agree.bytesFrom_eq apart]

theorem slice_of_readAt {source : ByteSource} {offset wanted : Nat} {bytes : List UInt8}
    (read : (source.readAt offset wanted).1 = .ok bytes) (full : wanted ≤ bytes.length) :
    bytes = source.content.slice offset wanted :=
  (readAt_of_full (.refl ⟨0, 0⟩ source) read full).1

/-- It is answered so again, whatever has been read since. -/
theorem SameMedium.readAt_of_full {source other : ByteSource} (same : SameMedium source other)
    {offset wanted : Nat} {bytes : List UInt8}
    (read : (source.readAt offset wanted).1 = .ok bytes) (full : wanted ≤ bytes.length) :
    (other.readAt offset wanted).1 = .ok bytes := by
  have nowhere : AgreeOutside ⟨0, 0⟩ source other := .of_sameMedium same
  rw [(ByteSource.readAt_of_full nowhere read full).2, same.content, ← slice_of_readAt read full]

end ByteSource

namespace Access

variable {ε ε' α β : Type}

open ByteSource

/-! ## Accesses that read -/

/-- The medium of every source stays as it was, so that the access does nothing but read and seek.
-/
def Reads (action : Access ε α) : Prop :=
  ∀ source : ByteSource, SameMedium source (action.runOn source).2

namespace Reads

theorem readAt (offset wanted : Nat) : Reads (readAt offset wanted) :=
  fun source => sameMedium_readAt source offset wanted

/-- What such an access leaves. -/
theorem sameMedium {action : Access ε α} (reads : Reads action) {source after : ByteSource}
    {outcome : Except ε α} (ran : action.runOn source = (outcome, after)) :
    SameMedium source after := by
  have kept := reads source
  rwa [ran] at kept

end Reads

/-- So many bytes are read by `readExactly` just when `readAt` is answered in full. -/
theorem readExactly_iff {offset wanted : Nat} {source : ByteSource} {bytes : List UInt8} :
    ((readExactly offset wanted).runOn source).1 = .ok bytes ↔
      (source.readAt offset wanted).1 = .ok bytes ∧ wanted ≤ bytes.length := by
  unfold readExactly
  rw [runOn_bind, runOn_readAt]
  rcases source.readAt offset wanted with ⟨cause | found, after⟩
  · exact ⟨nofun, nofun⟩
  · dsimp only
    split
    · rename_i short
      refine ⟨nofun, fun ⟨isBytes, full⟩ => ?_⟩
      rw [Except.ok.inj isBytes] at short
      omega
    · rename_i enough
      refine ⟨fun isBytes => ⟨isBytes, ?_⟩, And.left⟩
      rw [← Except.ok.inj isBytes]
      exact Nat.le_of_not_lt enough

theorem readRange_iff {range : ByteRange} {source : ByteSource} {bytes : List UInt8} :
    ((readRange range).runOn source).1 = .ok bytes ↔
      (source.readAt range.start range.length).1 = .ok bytes ∧ range.length ≤ bytes.length :=
  readExactly_iff

/-- A range that was read is read by every source that agrees, with the bytes that it has. -/
theorem readRange_of_ok {range outer : ByteRange} {left right : ByteSource} {bytes : List UInt8}
    (agree : AgreeOutside range left right)
    (read : ((readRange outer).runOn left).1 = .ok bytes) :
    bytes = left.content.slice outer.start outer.length ∧ outer.length ≤ bytes.length ∧
      ((readRange outer).runOn right).1 =
        .ok (right.content.slice outer.start outer.length) := by
  obtain ⟨answered, full⟩ := readRange_iff.mp read
  obtain ⟨isSlice, again⟩ := readAt_of_full agree answered full
  refine ⟨isSlice, full, readRange_iff.mpr ⟨again, ?_⟩⟩
  rw [Content.length_slice, agree.size, ← Content.length_slice, ← isSlice]
  exact full

end Access

end FieldRecording
