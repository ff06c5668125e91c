import FieldRecording.Proofs.Flac.MetadataReading
import FieldRecording.Proofs.Flac.Tracking

/-!
# Where a scan starts

What a scan is set up with, `Scanner.setUp`, follows from the bytes of an honest source and from
the offset that was asked for (`steady_setUp`). How many bytes are read at a time and what is left
in the storage play no part in it, and the scanner that results, `Scanner.starting`, tracks the
content (`tracks_starting`).

`begin_eq_setUp` is the only place where `Scanner.begin` is unfolded; what is proved of whole
scans starts from `setUp`.
-/

namespace FieldRecording.Scanner

open ByteSource Access

/-- Where a scan is asked to start: at an offset, or where `frameStart` finds the first frame. -/
def startOf : Option Nat → Access FlacError Nat
  | some offset => pure offset
  | none => MetadataChain.frameStart

/-- Check that the source can be read from an offset on, by its length and by a seek. -/
def reachable (start : Nat) : Access FlacError Unit := do
  if (← Access.length) < start then
    throw (.framesOutOfReach start)
  if (← Access.seek start) ≠ start then
    throw (.framesOutOfReach start)

/-- What a scan is set up with: what the stream says of its audio, and where to start, by
`startOf`. -/
def setUp (start : Option Nat) : Access FlacError (StreamParameters × Nat) := do
  let sampleRate ← StreamField.sampleRate.read
  let bitsPerSample ← StreamField.bitDepth.read
  let start ← startOf start
  reachable start
  return ({ sampleRate, bitsPerSample }, start)

/-- The scanner that starts with these settings. -/
def starting (options : Options) (settings : StreamParameters × Nat) (source : ByteSource) :
    Scanner where
  source := source
  stream := settings.1
  chunk := max options.chunk 1
  position := settings.2
  pending := cleared options.storage
  capacity := options.capacity

/-- What follows the two checks of a start follows `reachable`. -/
theorem reachable_bind {α : Type} (start : Nat) (rest : Access FlacError α) :
    reachable start >>= (fun _ => rest) = (do
      if (← Access.length) < start then
        throw (.framesOutOfReach start)
      if (← Access.seek start) ≠ start then
        throw (.framesOutOfReach start)
      rest) := by
  have sought : (do
      if (← Access.seek start) ≠ start then
        throw (FlacError.framesOutOfReach start)) >>= (fun _ => rest) = (do
      if (← Access.seek start) ≠ start then
        throw (FlacError.framesOutOfReach start)
      rest) := by
    rw [bind_assoc]
    congr 1
    funext landed
    split
    · rfl
    · rw [pure_bind]
  unfold reachable
  rw [bind_assoc]
  congr 1
  funext length
  split
  · rfl
  · exact sought

/-- To `begin` a scan is to set it up, and to start with what results. -/
theorem begin_eq_setUp (options : Options) :
    begin options = (do
      let settings ← setUp options.start
      return starting options settings (← get)) := by
  have checked (sampleRate bitsPerSample start : Nat) :
      reachable start >>= (fun _ => (do
        return starting options ({ sampleRate, bitsPerSample }, start) (← get))) = (do
      if (← Access.length) < start then
        throw (.framesOutOfReach start)
      if (← Access.seek start) ≠ start then
        throw (.framesOutOfReach start)
      return starting options ({ sampleRate, bitsPerSample }, start) (← get)) :=
    reachable_bind start _
  unfold begin setUp
  simp only [bind_assoc, pure_bind, checked]
  cases options.start with
  | some offset => rfl
  | none => rfl

theorem runOn_begin (options : Options) (source : ByteSource) :
    (begin options).runOn source =
      match (setUp options.start).runOn source with
      | (.ok settings, after) => (.ok (starting options settings after), after)
      | (.error cause, after) => (.error cause, after) := by
  rw [begin_eq_setUp, runOn_bind]
  rcases (setUp options.start).runOn source with ⟨_ | settings, after⟩
  · rfl
  · rfl

theorem goesBy_reachable (start : Nat) : GoesBy ReadsAlike (reachable start) := by
  apply GoesBy.bind .length
  intro length
  split
  · exact .throw_bind _ _
  · apply GoesBy.bind (.adapt (.seek start) _)
    intro landed
    split
    · exact .throw _
    · exact .pure _

theorem steady_reachable (start : Nat) : Steady (reachable start) := (goesBy_reachable start).steady

theorem goesBy_startOf (start : Option Nat) : GoesBy ReadsAlike (startOf start) := by
  cases start with
  | some offset => exact .pure offset
  | none => exact MetadataChain.goesBy_frameStart

theorem steady_startOf (start : Option Nat) : Steady (startOf start) :=
  (goesBy_startOf start).steady

theorem goesBy_setUp (start : Option Nat) : GoesBy ReadsAlike (setUp start) :=
  .bind (StreamField.goesBy_read _) fun _ =>
    .bind (StreamField.goesBy_read _) fun _ =>
      .bind (goesBy_startOf start) fun start => .bind (goesBy_reachable start) fun _ => .pure _

theorem steady_setUp (start : Option Nat) : Steady (setUp start) := (goesBy_setUp start).steady

/-- From an honest source everything up to the end is `reachable`, and nothing beyond. -/
theorem runOn_reachable {source : ByteSource} (honest : source.Honest) (start : Nat) :
    ((reachable start).runOn source).1 =
      if source.content.size < start then .error (.framesOutOfReach start) else .ok () := by
  unfold reachable
  rw [runOn_bind_of_ok (runOn_length source)]
  split
  · rfl
  · rename_i within
    have there := honest.of_sameMedium
      (source.sameMedium_standingAt (source.reach source.position))
    have sought := seek_of_honest there start
    rw [there.admits start (Nat.le_of_not_lt within)] at sought
    simp only [Bool.false_eq_true, if_false] at sought
    have went : (liftM (Access.seek start) : Access FlacError Nat).runOn
        (source.standingAt (source.reach source.position)) =
        (.ok start, (source.standingAt (source.reach source.position)).standingAt start) := by
      change ((Access.seek start).adapt FlacError.io).runOn _ = _
      rw [runOn_adapt, runOn_seek, sought]
      rfl
    rw [runOn_bind_of_ok went]
    simp

/-- A scan that is set up starts where it was asked to, and the source still reaches there. -/
theorem startOf_of_setUp {start : Option Nat} {source after : ByteSource} (honest : source.Honest)
    {settings : StreamParameters × Nat}
    (done : (setUp start).runOn source = (.ok settings, after)) :
    ((startOf start).runOn source).1 = .ok settings.2 ∧ settings.2 ≤ source.content.size := by
  rcases of_runOn_bind_eq_ok done with ⟨sampleRate, second, rate, done⟩
  rcases of_runOn_bind_eq_ok done with ⟨bitsPerSample, third, depth, done⟩
  rcases of_runOn_bind_eq_ok done with ⟨offset, fourth, asked, done⟩
  rcases of_runOn_bind_eq_ok done with ⟨_, fifth, checked, done⟩
  have first := (StreamField.steady_read _).sameMedium honest rate
  have next := (StreamField.steady_read _).sameMedium (honest.of_sameMedium first) depth
  have toStart := first.trans next
  have last := (steady_startOf start).sameMedium (honest.of_sameMedium toStart) asked
  have same := toStart.trans last
  have starts := (steady_startOf start source third honest toStart).1
  have within := runOn_reachable (honest.of_sameMedium same) offset
  rw [asked] at starts
  rw [checked, same.content] at within
  rw [runOn_pure] at done
  obtain rfl := Except.ok.inj (congrArg Prod.fst done)
  refine ⟨starts, ?_⟩
  split at within
  · cases within
  · rename_i reaches
    exact Nat.le_of_not_lt reaches

/-- With the fields of the stream readable, `setUp` succeeds wherever the scan starts, up to the
end. -/
theorem setUp_of_fields {source : ByteSource} (honest : source.Honest)
    {sampleRate bitsPerSample start : Nat} {origin : Option Nat}
    (rate : (StreamField.sampleRate.read.runOn source).1 = .ok sampleRate)
    (depth : (StreamField.bitDepth.read.runOn source).1 = .ok bitsPerSample)
    (starts : ((startOf origin).runOn source).1 = .ok start)
    (within : start ≤ source.content.size) :
    ((setUp origin).runOn source).1 = .ok ({ sampleRate, bitsPerSample }, start) := by
  obtain ⟨second, ranRate, first⟩ :=
    (StreamField.steady_read .sampleRate).runOn_eq honest (.refl source) rate
  obtain ⟨third, ranDepth, same⟩ :=
    (StreamField.steady_read .bitDepth).runOn_eq honest first depth
  obtain ⟨fourth, ranStart, same⟩ := (steady_startOf origin).runOn_eq honest same starts
  have reaches : ((reachable start).runOn source).1 = .ok () := by
    rw [runOn_reachable honest, if_neg (Nat.not_lt.mpr within)]
  obtain ⟨fifth, ranReach, _⟩ := (steady_reachable start).runOn_eq honest same reaches
  rw [setUp, runOn_bind_of_ok ranRate, runOn_bind_of_ok ranDepth, runOn_bind_of_ok ranStart,
    runOn_bind_of_ok ranReach]
  rfl

/-- With the fields of the stream readable, `begin` succeeds at every offset up to the end. -/
theorem begin_of_fields {source : ByteSource} (honest : source.Honest)
    {sampleRate bitsPerSample start : Nat}
    (rate : (StreamField.sampleRate.read.runOn source).1 = .ok sampleRate)
    (depth : (StreamField.bitDepth.read.runOn source).1 = .ok bitsPerSample)
    (within : start ≤ source.content.size) (options : Options)
    (asked : options.start = some start) :
    ∃ after, SameMedium source after ∧ (begin options).runOn source =
      (.ok (starting options ({ sampleRate, bitsPerSample }, start) after), after) := by
  have starts : ((startOf options.start).runOn source).1 = .ok start := by
    rw [asked]
    rfl
  have ready := setUp_of_fields honest rate depth starts within
  obtain ⟨after, ran, same⟩ := (steady_setUp options.start).runOn_eq honest (.refl source) ready
  refine ⟨after, same, ?_⟩
  rw [runOn_begin, ran]

/-- The scanner that starts `Tracks` the content. -/
theorem tracks_starting {source : ByteSource} (honest : source.Honest) {options : Options}
    (fits : ChunkFits options.chunk) (settings : StreamParameters × Nat)
    (within : settings.2 ≤ source.content.size) :
    (starting options settings source).Tracks source.content := by
  refine ⟨honest, rfl, Nat.le_max_right _ _, fits.max_one, ?_, ?_, ?_, trivial⟩
  · simp only [starting, cleared, List.take_zero, List.length_nil]
    exact within
  · simp only [starting, cleared, List.take_zero, List.length_nil, Content.slice_zero]
  · intro ended
    cases ended

end FieldRecording.Scanner
