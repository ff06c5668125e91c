import FieldRecording.Proofs.Flac.Selection

/-!
# Scans do not depend on how bytes are read

Two scanners over the same bytes are `Alike` when they stand at the same position and remember the
same frames. They may hold different numbers of bytes, read different numbers of them at a time,
from media with different habits. A pull takes alike scanners to alike scanners with the same item
(`Alike.next`), so that whole scans agree item by item and position by position
(`Alike.nextItems`). A scan has a last item, as every one leaves less to do.

Storage comes in by `ChunkFits`, which both sides need: without it a scan may end in a failure
where another one does not, as `scan_dependent_beyond_bound` shows.
-/

namespace FieldRecording.Scanner

open ByteSource Access

/-! ## Alike scanners -/

/-- Both scanners track the content, by `Tracks`, and remember the same frames of the same stream.
-/
structure Running (content : Content) (left right : Scanner) : Prop where
  tracksLeft : left.Tracks content
  tracksRight : right.Tracks content
  runsLeft : left.finished = false
  runsRight : right.finished = false
  stream : left.stream = right.stream
  last : left.last = right.last
  index : left.index = right.index

/-- Both scanners stand at the same position, and both are finished or neither; two that are not
are `Running`. -/
structure Alike (content : Content) (left right : Scanner) : Prop where
  position : left.position = right.position
  going : Running content left right ∨ left.finished = true ∧ right.finished = true

section Pulls

variable {content : Content} {left right : Scanner}

theorem next_of_finished {scanner : Scanner} (finished : scanner.finished = true) :
    scanner.next = (none, scanner) := by
  rw [next, dif_pos finished]

/-- Running scanners at the same position are to find the same, by `Scanner.sweep`. -/
theorem Running.sweep_eq (running : Running content left right)
    (position : left.position = right.position) : left.sweep content = right.sweep content := by
  rw [Scanner.sweep, Scanner.sweep, running.stream, running.last, position]

theorem Running.frameOf_eq (running : Running content left right) (sighting : Sighting) :
    left.frameOf sighting = right.frameOf sighting := by
  rw [frameOf, frameOf, indexOf, indexOf, running.index]

/-- A pull with `next` of alike scanners gives the same item, and leaves them alike. -/
theorem Alike.next (alike : Alike content left right) :
    left.next.1 = right.next.1 ∧ Alike content left.next.2 right.next.2 := by
  rcases alike.going with running | ⟨finishedLeft, finishedRight⟩
  · have same := running.sweep_eq alike.position
    have pullsLeft := pulls_next running.tracksLeft running.runsLeft
    have pullsRight := pulls_next running.tracksRight running.runsRight
    generalize left.next = pulledLeft at pullsLeft
    generalize right.next = pulledRight at pullsRight
    cases pullsLeft with
    | ends finishedLeft restsLeft =>
      cases pullsRight with
      | ends finishedRight restsRight =>
        rw [restsLeft, restsRight] at same
        exact ⟨rfl, (Prod.mk.inj same).2, .inr ⟨finishedLeft, finishedRight⟩⟩
      | finds _ _ _ _ _ _ findsRight =>
        rw [restsLeft, findsRight] at same
        cases same
    | finds tracksLeft runsLeft streamLeft lastLeft indexLeft positionLeft findsLeft =>
      cases pullsRight with
      | ends _ restsRight =>
        rw [findsLeft, restsRight] at same
        cases same
      | finds tracksRight runsRight streamRight lastRight indexRight positionRight findsRight =>
        rw [findsLeft, findsRight] at same
        obtain rfl := Option.some.inj (Prod.mk.inj same).1
        refine ⟨by rw [running.frameOf_eq], positionLeft.trans positionRight.symm, .inl ?_⟩
        refine ⟨tracksLeft, tracksRight, runsLeft, runsRight, ?_, ?_, ?_⟩
        · rw [streamLeft, streamRight, running.stream]
        · rw [lastLeft, lastRight]
        · rw [indexLeft, indexRight, indexOf, indexOf, running.index]
  · rw [next_of_finished finishedLeft, next_of_finished finishedRight]
    exact ⟨rfl, alike⟩

/-- Any number of pulls of alike scanners gives the same items, and leads to the same position.
The induction is on how many there are. -/
theorem Alike.nextItems (alike : Alike content left right) (count : Nat) :
    (left.nextItems count).1 = (right.nextItems count).1 ∧
      (left.nextItems count).2.position = (right.nextItems count).2.position := by
  induction count generalizing left right with
  | zero => exact ⟨rfl, alike.position⟩
  | succ count ih =>
    obtain ⟨item, later⟩ := alike.next
    rw [Scanner.nextItems, Scanner.nextItems]
    rcases pulledLeft : left.next with ⟨_ | itemLeft, afterLeft⟩
    · rw [pulledLeft] at item later
      rcases pulledRight : right.next with ⟨_ | itemRight, afterRight⟩
      · rw [pulledRight] at later
        exact ⟨rfl, later.position⟩
      · rw [pulledRight] at item
        cases item
    · rw [pulledLeft] at item later
      rcases pulledRight : right.next with ⟨_ | itemRight, afterRight⟩
      · rw [pulledRight] at item
        cases item
      · rw [pulledRight] at item later
        obtain ⟨items, position⟩ := ih later
        exact ⟨congrArg₂ List.cons (Option.some.inj item) items, position⟩

end Pulls

/-! ## Scans end -/

/-- A pull that yields an item leaves less to do. -/
theorem remaining_next_lt {scanner after : Scanner} {item : Item}
    (pulled : scanner.next = (some item, after)) : after.remaining < scanner.remaining := by
  fun_induction next scanner with
  | case1 scanner finished => cases pulled
  | case2 scanner running item' after' moved =>
    have less := scanner.remaining_advance_lt (by simpa using running)
    rw [moved] at less
    rw [← (Prod.mk.inj pulled).2]
    exact less
  | case3 scanner running after' moved ih =>
    have less := scanner.remaining_advance_lt (by simpa using running)
    rw [moved] at less
    exact Nat.lt_trans (ih pulled) less

/-- A scan has a last item: however many are pulled with `nextItems`, no more than so many come. -/
theorem length_nextItems (scanner : Scanner) :
    ∃ total, ∀ count, (scanner.nextItems count).1.length = min count total := by
  rcases pulled : scanner.next with ⟨_ | item, after⟩
  · refine ⟨0, ?_⟩
    intro count
    cases count with
    | zero => rfl
    | succ count =>
      rw [nextItems, pulled]
      rfl
  · have less := remaining_next_lt pulled
    obtain ⟨total, counted⟩ := length_nextItems after
    refine ⟨total + 1, ?_⟩
    intro count
    cases count with
    | zero =>
      rw [Nat.zero_min]
      rfl
    | succ count =>
      rw [nextItems, pulled, Nat.add_min_add_right, ← counted count]
      rfl
  termination_by scanner.remaining

theorem nextItems_one (scanner : Scanner) :
    (scanner.nextItems 1).1 = scanner.next.1.toList := by
  rw [nextItems]
  rcases scanner.next with ⟨_ | item, after⟩
  · rfl
  · rfl

/-- What is pulled from a scanner that is not finished. -/
theorem next_of_running {scanner : Scanner} (running : ¬ scanner.finished = true) :
    scanner.next =
      if scanner.advance.1.isSome then scanner.advance else scanner.advance.2.next := by
  rw [next, dif_neg running]
  split <;> rename_i moved <;> rw [moved] <;> rfl

/-- The first pull of a scan in fresh storage fails when a sync byte at the end is at hand and the
storage, which has room for a chunk, would have to double to `sizeLimit` or beyond for the next
chunk (`grown?`). -/
theorem next_of_doubling {options : Options} (fresh : options.capacity = 0)
    (half : sizeLimit ≤ 2 * options.chunk) (below : options.chunk < sizeLimit)
    {settings : StreamParameters × Nat} {source : ByteSource} (honest : source.Honest)
    (atLast : settings.2 + 1 = source.content.size)
    (sync : source.content[settings.2]? = some syncByte) :
    (starting options settings source).next.1 = some (.error (.io .tooManyBytes)) := by
  let first : Scanner := starting options settings source
  let holding : Scanner := { first with
    source := (source.readAt settings.2 first.chunk).2
    pending := [syncByte]
    capacity := first.chunk }
  let candidate : Scanner := { holding with stage := .candidate }
  have chunk : first.chunk = options.chunk := by
    simp only [sizeLimit] at half
    change max options.chunk 1 = _
    omega
  have lastByte : source.content.slice settings.2 first.chunk = [syncByte] := by
    have one : (source.content.slice settings.2 first.chunk).length = 1 := by
      simp only [sizeLimit] at half
      rw [Content.length_slice, chunk]
      omega
    obtain ⟨byte, isByte⟩ := List.length_eq_one_iff.mp one
    have here := Content.getElem?_slice source.content settings.2 first.chunk 0
    rw [isByte, chunk, if_pos (by simp only [sizeLimit] at half; omega), Nat.add_zero, sync] at here
    rw [isByte, Option.some.inj here]
  have reads : first.advance = (none, holding) := by
    have room : grown? first.capacity (first.pending.length + first.chunk) = some first.chunk := by
      change grown? options.capacity (0 + first.chunk) = _
      rw [fresh, chunk, grown?, if_neg (by simp only [sizeLimit] at half; omega)]
      have room : max (max (2 * 0) (0 + options.chunk)) 8 = options.chunk := by
        simp only [sizeLimit] at half
        omega
      dsimp only
      rw [room, if_pos below]
    have read : first.source.readAt (first.position + first.pending.length) first.chunk =
        (.ok [syncByte], holding.source) := by
      rw [← lastByte]
      have within := Nat.le_of_succ_le (Nat.le_of_eq atLast)
      exact Prod.ext (readAt_of_honest honest within (chunk ▸ below)).1 rfl
    have looked : first.advance = first.readMore := rfl
    rw [looked, readMore_of_room rfl room, read]
    rfl
  have finds : holding.advance = (none, candidate) := rfl
  have fails : candidate.advance.1 = some (.error (.io .tooManyBytes)) := by
    have noRoom : grown? candidate.capacity (candidate.pending.length + candidate.chunk) =
        none := by
      refine grown?_eq_none_iff.mpr ⟨?_, .inl ?_⟩
      · change first.chunk < 1 + first.chunk
        omega
      · change sizeLimit ≤ 2 * first.chunk
        rw [chunk]
        exact half
    have looked : candidate.advance = candidate.readMore := rfl
    rw [looked, readMore_of_noRoom rfl noRoom]
  change first.next.1 = _
  calc first.next.1
    _ = holding.next.1 := by
      rw [next_of_running (show ¬ first.finished = true from Bool.false_ne_true), reads]
      rfl
    _ = candidate.next.1 := by
      rw [next_of_running (show ¬ holding.finished = true from Bool.false_ne_true), finds]
      rfl
    _ = some (.error (.io .tooManyBytes)) := by
      rw [next_of_running (show ¬ candidate.finished = true from Bool.false_ne_true), fails]
      exact fails

/-! ## Two scans of the same bytes -/

/-- Scanners that start alike on sources over the same bytes, by `starting`, are `Alike`. -/
theorem alike_starting {left right : ByteSource} (honest : left.Honest)
    (same : SameMedium left right) {leftOptions rightOptions : Options}
    (leftFits : ChunkFits leftOptions.chunk) (rightFits : ChunkFits rightOptions.chunk)
    {settings : StreamParameters × Nat} (within : settings.2 ≤ left.content.size) :
    Alike left.content (starting leftOptions settings left)
      (starting rightOptions settings right) where
  position := rfl
  going := by
    have tracksRight := tracks_starting (honest.of_sameMedium same) rightFits settings
      (same.content.symm ▸ within)
    rw [same.content] at tracksRight
    exact .inl ⟨tracks_starting honest leftFits settings within, tracksRight, rfl, rfl, rfl, rfl,
      rfl⟩

/-- Two scans of the same bytes that are asked to start at the same place agree. Either neither
can `begin`, for the same cause; or both begin, and any number of pulls gives the same items and
leads to the same position, until both are exhausted by the same number of items. How many bytes
each reads at a time, as long as storage can grow for them (`ChunkFits`), what is left in its
storage, and how its medium interrupts reads and cuts them short make no difference. -/
theorem scan_independent {left right : ByteSource} (honest : left.Honest)
    (same : SameMedium left right) (leftOptions rightOptions : Options)
    (start : leftOptions.start = rightOptions.start)
    (leftFits : ChunkFits leftOptions.chunk) (rightFits : ChunkFits rightOptions.chunk) :
    (∃ cause, ((begin leftOptions).runOn left).1 = .error cause ∧
      ((begin rightOptions).runOn right).1 = .error cause) ∨
    ∃ leftScanner rightScanner,
      ((begin leftOptions).runOn left).1 = .ok leftScanner ∧
      ((begin rightOptions).runOn right).1 = .ok rightScanner ∧
      (∀ count, (leftScanner.nextItems count).1 = (rightScanner.nextItems count).1 ∧
        (leftScanner.nextItems count).2.position = (rightScanner.nextItems count).2.position) ∧
      ∃ total, ∀ count, (leftScanner.nextItems count).1.length = min count total ∧
        (rightScanner.nextItems count).1.length = min count total := by
  rw [runOn_begin, runOn_begin, ← start]
  rcases ranLeft : (setUp leftOptions.start).runOn left with ⟨outcome, afterLeft⟩
  obtain ⟨afterRight, ranRight, keptRight⟩ :=
    (steady_setUp leftOptions.start).runOn_eq honest same (congrArg Prod.fst ranLeft)
  have keptLeft := (steady_setUp leftOptions.start).sameMedium honest ranLeft
  rw [ranRight]
  cases outcome with
  | error cause => exact .inl ⟨cause, rfl, rfl⟩
  | ok settings =>
    have within := (startOf_of_setUp honest ranLeft).2
    rw [← keptLeft.content] at within
    have alike := alike_starting (honest.of_sameMedium keptLeft) (keptLeft.symm.trans keptRight)
      leftFits rightFits within
    obtain ⟨total, counted⟩ :=
      length_nextItems (starting leftOptions settings afterLeft)
    refine .inr ⟨_, _, rfl, rfl, alike.nextItems, total, fun count => ⟨counted count, ?_⟩⟩
    rw [← (alike.nextItems count).1]
    exact counted count

/-- A medium that interrupts every read twice and then gives a single byte, read a byte at a
time, is scanned as one that gives all bytes at once. -/
theorem scan_independent_of_single_bytes :
    let bytes := Sighting.repeating 2
    let slow : ByteSource := { content := bytes, turns := fun _ => ⟨2, 1, by decide⟩ }
    let left : Options := { start := some 22 }
    let right : Options := { chunk := 0, start := some 22, storage := [0xFF, 0xF8] }
    ∃ leftScanner rightScanner,
      ((begin left).runOn (.ofContent bytes)).1 = .ok leftScanner ∧
      ((begin right).runOn slow).1 = .ok rightScanner ∧
      ∀ count, (leftScanner.nextItems count).1 = (rightScanner.nextItems count).1 := by
  intro bytes slow left right
  have honest := honest_ofContent bytes
  have same : SameMedium (.ofContent bytes) slow := ⟨rfl, rfl, rfl, rfl⟩
  have agree := scan_independent honest same left right rfl (by decide) (by decide)
  rcases agree with ⟨cause, failed, _⟩ | ⟨leftScanner, rightScanner, began, begun, items, _⟩
  · obtain ⟨rate, depth⟩ := Sighting.fields_of_repeating 2
    obtain ⟨after, _, begun⟩ :=
      begin_of_fields honest rate depth (Sighting.size_repeating 2) left rfl
    rw [begun] at failed
    cases failed
  · exact ⟨leftScanner, rightScanner, began, begun, fun count => (items count).1⟩

/-- Twenty-two bytes of zeros, and behind them one that may start a frame, of which a scan that
starts there cannot say whether it does. -/
def lateSync : Content := (List.replicate 22 0 ++ [syncByte]).toArray

/-- The bound `ChunkFits` on the bytes read at a time cannot be left out, nor would `sizeLimit`
do: of a byte that may start a frame but ends the source, a scan that reads half of `sizeLimit`
bytes at a time yields a failure, and one that reads 4096 yields nothing. -/
theorem scan_dependent_beyond_bound :
    ∃ leftScanner rightScanner,
      ((begin { chunk := 4096, start := some 22 }).runOn (.ofContent lateSync)).1 =
        .ok leftScanner ∧
      ((begin { chunk := 0x4000000000000000, start := some 22 }).runOn (.ofContent lateSync)).1 =
        .ok rightScanner ∧
      (leftScanner.nextItems 1).1 = [] ∧
      (rightScanner.nextItems 1).1 = [.error (.io .tooManyBytes)] := by
  have honest := honest_ofContent lateSync
  have rate : (StreamField.sampleRate.read.runOn (.ofContent lateSync)).1 = .ok 0 :=
    StreamField.read_of_honest honest .sampleRate (by decide) (by decide)
  have depth : (StreamField.bitDepth.read.runOn (.ofContent lateSync)).1 = .ok 1 :=
    StreamField.read_of_honest honest .bitDepth (by decide) (by decide)
  have within : 22 ≤ (ofContent lateSync).content.size := by decide
  obtain ⟨afterLeft, sameLeft, left⟩ := begin_of_fields honest rate depth within
    { chunk := 4096, start := some 22 } rfl
  obtain ⟨afterRight, sameRight, right⟩ := begin_of_fields honest rate depth within
    { chunk := 0x4000000000000000, start := some 22 } rfl
  refine ⟨_, _, congrArg Prod.fst left, congrArg Prod.fst right, ?_, ?_⟩
  · let first : Scanner := starting { chunk := 4096, start := some 22 } (⟨0, 1⟩, 22) afterLeft
    have isContent : afterLeft.content = lateSync := sameLeft.content
    have tracks : first.Tracks afterLeft.content :=
      tracks_starting (honest.of_sameMedium sameLeft) (by decide) _ (isContent ▸ by decide)
    rw [isContent] at tracks
    have noneAhead : first.sweep lateSync = (none, 22) :=
      (by decide +kernel : Sighting.sweep lateSync ⟨0, 1⟩ none 22 = (none, 22))
    have pulls := pulls_next tracks rfl
    rw [nextItems_one]
    change first.next.1.toList = []
    generalize first.next = pulled at pulls
    cases pulls with
    | ends _ _ => rfl
    | finds _ _ _ _ _ _ finds => cases noneAhead.symm.trans finds
  · have sync : afterRight.content[22]? = some syncByte := sameRight.content ▸ rfl
    have atLast : 22 + 1 = afterRight.content.size := sameRight.content ▸ rfl
    rw [nextItems_one, next_of_doubling rfl (by decide) (by decide)
      (honest.of_sameMedium sameRight) atLast sync]
    rfl

end FieldRecording.Scanner
