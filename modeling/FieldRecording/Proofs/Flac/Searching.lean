import FieldRecording.Proofs.Flac.Layout
import FieldRecording.Proofs.Flac.TwinScans

/-!
# Searching for frames goes by reads

The frames of a search with `findFrames`, of the whole stream or of its tail, are learnt of a
source by its answers to reads, and so is the number of samples that `countSamples` finds in them.
They follow from the bytes of an honest source, which stay as they are. Both rest on `framesFrom`,
the frames of one scan.
-/

namespace FieldRecording

open ByteSource Access

namespace Scanner

/-! ## What a scan finds -/

/-- The frames of a scan from an offset on, or from the first frame on, as `findFrames` asks for
them. -/
def framesFrom (start : Option Nat) : Access FlacError (List Frame) := do
  let scanner ← begin { start }
  let items ← scanner.finish
  Access.ofExcept (items.mapM fun item => item)

theorem goesBy_framesFrom (start : Option Nat) : GoesBy ReadsAlike (framesFrom start) := by
  unfold framesFrom
  rw [← bind_assoc]
  exact .bind (goesBy_scan { start }) fun _ => .ofExcept _

theorem steady_framesFrom (start : Option Nat) : Steady (framesFrom start) :=
  (goesBy_framesFrom start).steady

/-- The frames that a scan yields are those that a visit takes, if the scan can be set up. -/
theorem framesFrom_eq {source : ByteSource} (honest : source.Honest) (start : Option Nat) :
    ((framesFrom start).runOn source).1 =
      ((setUp start).runOn source).1.map fun settings =>
        Sighting.numbered none (Sighting.visitFrom source.content settings.1 none settings.2) := by
  rcases ready : (setUp start).runOn source with ⟨cause | settings, after⟩
  · unfold framesFrom
    have failed : (begin { start }).runOn source = (.error cause, after) := by
      rw [runOn_begin, ready]
    rw [runOn_bind_of_error failed]
    rfl
  · exact frames_of_setUp honest (congrArg Prod.fst ready)

end Scanner

/-! ## Searches -/

theorem findFrames_true : findFrames true = Scanner.framesFrom none := rfl

theorem findFrames_false :
    findFrames false = tailOffset >>= fun start => Scanner.framesFrom (some start) := by
  change (some <$> tailOffset >>= Scanner.framesFrom) = _
  rw [map_eq_pure_bind, bind_assoc]
  rfl

theorem goesBy_findFrames (full : Bool) : GoesBy ReadsAlike (findFrames full) := by
  cases full with
  | true => exact Scanner.goesBy_framesFrom none
  | false =>
    rw [findFrames_false]
    exact .bind goesBy_tailOffset fun _ => Scanner.goesBy_framesFrom _

theorem steady_findFrames (full : Bool) : Steady (findFrames full) :=
  (goesBy_findFrames full).steady

theorem goesBy_countSamples (full : Bool) : GoesBy ReadsAlike (countSamples full) := by
  apply GoesBy.bind (StreamField.goesBy_read _)
  intro smallest
  apply GoesBy.bind (StreamField.goesBy_read _)
  intro largest
  split
  · exact .throw_bind _ _
  · exact .bind (goesBy_findFrames full) fun _ => .ofExcept _

theorem steady_countSamples (full : Bool) : Steady (countSamples full) :=
  (goesBy_countSamples full).steady

/-- The samples are counted in the frames of the search, by `samplesOfFrames`, if there is one
block size. -/
theorem countSamples_of_findFrames {source : ByteSource} (honest : source.Honest) {size : Nat}
    (smallest : (StreamField.minBlockSize.read.runOn source).1 = .ok size)
    (largest : (StreamField.maxBlockSize.read.runOn source).1 = .ok size) {full : Bool}
    {frames : List Frame} (found : ((findFrames full).runOn source).1 = .ok frames) :
    ((countSamples full).runOn source).1 = samplesOfFrames frames := by
  rcases (StreamField.steady_read _).runOn_eq honest (.refl source) smallest with
    ⟨second, ranFirst, same⟩
  rcases (StreamField.steady_read _).runOn_eq honest same largest with ⟨third, ranSecond, same⟩
  rcases (steady_findFrames full).runOn_eq honest same found with ⟨last, ranFrames, _⟩
  unfold countSamples
  rw [runOn_bind_of_ok ranFirst, runOn_bind_of_ok ranSecond]
  have alike : ¬ size ≠ size := fun other => other rfl
  rw [if_neg alike]
  change ((findFrames full >>= _ : Access FlacError Nat).runOn third).1 = _
  rw [runOn_bind_of_ok ranFrames]
  rfl

end FieldRecording
