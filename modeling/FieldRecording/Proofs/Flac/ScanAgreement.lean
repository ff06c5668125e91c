import FieldRecording.Proofs.Flac.Rewalking
import FieldRecording.Proofs.Flac.TwinScans

/-!
# Scans of sources that agree in front of which they start

A scan never goes back. Two sources that differ in nothing but the bytes of a range are scanned
alike from behind the range on: what a scanner reads from there is read alike of both. The sources
need not be honest, as long as reads of them fail nowhere but at a place of the content:
`SettledOutside`.

Two scanners that start there are `Paired`, which makes them twins, so that `Paired.items` follows
from what is known of those.
-/

namespace FieldRecording

open ByteSource Access

namespace Scanner

/-! ## Scanners in pairs -/

/-- Two scanners that are the same but for their sources, which agree outside of a range behind
which both scanners go on reading: `Twins` over sources that are `SettledOutside`. -/
structure Paired (range : ByteRange) (left right : Scanner) : Prop where
  same : right = left.onSource right.source
  agree : AgreeOutside range left.source right.source
  settled : left.source.Settled
  behind : range.stop ≤ left.position + left.pending.length

/-- Sources that agree outside of a range, where reads fail nowhere but at a place of the
content. -/
def SettledOutside (range : ByteRange) (left right : ByteSource) : Prop :=
  AgreeOutside range left right ∧ left.Settled

/-- Such sources answer alike behind the range. -/
theorem readsAlikeFrom_settledOutside (range : ByteRange) :
    ReadsAlikeFrom range.stop (SettledOutside range) := by
  rintro offset wanted behind left right ⟨agree, settled⟩
  rw [runOn_readAt, runOn_readAt]
  have keptLeft := sameMedium_readAt left offset wanted
  have keptRight := sameMedium_readAt right offset wanted
  exact ⟨readAt_of_apart agree (.inr behind) (.inl settled), agree.after_reads keptLeft keptRight,
    settled.of_sameMedium keptLeft⟩

namespace Paired

variable {range : ByteRange} {left right : Scanner}

theorem twins (paired : Paired range left right) :
    Twins range.stop (SettledOutside range) left right :=
  ⟨paired.same, ⟨paired.agree, paired.settled⟩, paired.behind⟩

/-- Any number of pulls gives the same items, and leads to the same position. -/
theorem nextItems (paired : Paired range left right) (count : Nat) :
    (left.nextItems count).1 = (right.nextItems count).1 ∧
      (left.nextItems count).2.position = (right.nextItems count).2.position :=
  paired.twins.nextItems (readsAlikeFrom_settledOutside range) count

/-- All items of both scans are the same. -/
theorem items (paired : Paired range left right) : left.items.1 = right.items.1 :=
  (paired.twins.items (readsAlikeFrom_settledOutside range)).1

end Paired

/-! ## Scans that begin -/

/-- Scanners that start behind the range are paired. -/
theorem paired_starting {range : ByteRange} {left right : ByteSource}
    (agree : AgreeOutside range left right) (settled : left.Settled) (options : Options)
    {settings : StreamParameters × Nat} (behind : range.stop ≤ settings.2) :
    Paired range (starting options settings left) (starting options settings right) :=
  ⟨rfl, agree, settled, Nat.le_trans behind (Nat.le_add_right _ _)⟩

end Scanner

end FieldRecording
