import FieldRecording.Proofs.Flac.TailSearch

/-!
# Scans that start again at a frame

What a scan finds behind a frame follows from that frame alone: where it ends, and which headers
may follow its own. A scan that starts anew at a frame takes it first (`visitFrom_again`), so that
it finds the frames that the first scan found from there on.

It numbers them anew, from the number of the header, and under fixed blocking those are the
indices that they had (`numbered_visitFrom_again`). `visits_of_frame` says of any scan that yields
a frame what it was set up with, so that `scan_restarts` is about every scan of an honest source
and not only about those that start at the first frame.
-/

namespace FieldRecording

open ByteSource Access

/-- Only frames of the same kind of blocking follow one another, by `checkFollows`. -/
theorem FrameHeader.blockingStrategy_of_checkFollows {last next : FrameHeader}
    (follows : (last.checkFollows next).toBool = true) :
    next.blockingStrategy = last.blockingStrategy := by
  unfold checkFollows at follows
  cases earlier : last.blockingStrategy with
  | fixed =>
    cases later : next.blockingStrategy with
    | fixed => rfl
    | «variable» =>
      rw [earlier, later] at follows
      cases follows
  | «variable» =>
    cases later : next.blockingStrategy with
    | fixed =>
      rw [earlier, later] at follows
      cases follows
    | «variable» => rfl

namespace Sighting

variable {content : Content} {stream : StreamParameters}

/-! ## Visits that start again -/

/-- A visit that starts where a header was taken takes what was taken from that header on:
`visitFrom` with nothing taken before makes no difference there. -/
theorem visitFrom_again {taken : Option Sighting} {start place : Nat} {next : Sighting}
    (isTaken : (visitFrom content stream taken start)[place]? = some next) :
    visitFrom content stream none next.offset =
      (visitFrom content stream taken start).drop place := by
  rcases Nat.lt_or_ge start content.size with inside | past
  · rw [visitFrom_of_lt inside] at isTaken ⊢
    split at isTaken
    · exact visitFrom_again isTaken
    · rename_i found there
      split at isTaken
      · rename_i allowed
        rw [if_pos allowed]
        cases place with
        | zero =>
          -- with nothing taken before it the header is taken as well
          obtain rfl := Option.some.inj isTaken
          rw [offset_of_at? there, visitFrom_of_lt inside, there]
          rfl
        | succ place => exact visitFrom_again isTaken
      · rename_i refused
        rw [if_neg refused]
        exact visitFrom_again isTaken
  · rw [visitFrom_of_size_le past] at isTaken
    cases isTaken
  termination_by content.size - start

/-- Behind a header that was taken, a visit takes headers of its kind of blocking. -/
theorem blockingStrategy_of_mem_visit {last : Sighting} {offsets : List Nat} {next : Sighting}
    (isTaken : next ∈ visit content stream (some last) offsets) :
    next.header.blockingStrategy = last.header.blockingStrategy := by
  induction offsets generalizing last with
  | nil => cases isTaken
  | cons offset offsets ih =>
    rw [visit] at isTaken
    split at isTaken
    · exact ih isTaken
    · rename_i found there
      split at isTaken
      · rename_i allowed
        have follows := (Bool.and_eq_true_iff.mp allowed).2
        have same := FrameHeader.blockingStrategy_of_checkFollows follows
        rcases List.mem_cons.mp isTaken with rfl | later
        · exact same
        · exact (ih later).trans same
      · exact ih isTaken

/-- All headers of a visit have one kind of blocking. -/
theorem blockingStrategy_of_visit {offsets : List Nat} {one other : Sighting}
    (isOne : one ∈ visit content stream none offsets)
    (isOther : other ∈ visit content stream none offsets) :
    one.header.blockingStrategy = other.header.blockingStrategy := by
  induction offsets with
  | nil => cases isOne
  | cons offset offsets ih =>
    rw [visit] at isOne isOther
    cases there : at? content stream offset with
    | none =>
      rw [there] at isOne isOther
      exact ih isOne isOther
    | some first =>
      rw [there] at isOne isOther
      have asFirst {next : Sighting}
          (isTaken : next ∈ first :: visit content stream (some first) offsets) :
          next.header.blockingStrategy = first.header.blockingStrategy := by
        rcases List.mem_cons.mp isTaken with rfl | later
        · rfl
        · exact blockingStrategy_of_mem_visit later
      exact (asFirst isOne).trans (asFirst isOther).symm

/-! ## Frames that have the numbers of their headers -/

/-- When all frames have the numbers of their headers for indices, they follow from the headers by
`asFrame`. -/
theorem numbered_eq_map_asFrame {index : Option Nat} {sightings : List Sighting}
    (carried : ∀ frame ∈ numbered index sightings,
      frame.header.frameNumber = some frame.index) :
    numbered index sightings = sightings.map asFrame := by
  induction sightings generalizing index with
  | nil => rfl
  | cons next rest ih =>
    rw [numbered] at carried ⊢
    obtain ⟨number, later⟩ := List.forall_mem_cons.mp carried
    rw [ih later, List.map_cons, asFrame]
    simp only at number
    rw [number]
    rfl

/-- The frame at a place stands for the header at that place. -/
theorem exists_of_numbered {index : Option Nat} {sightings : List Sighting} {place : Nat}
    {frame : Frame} (isFrame : (numbered index sightings)[place]? = some frame) :
    ∃ next, sightings[place]? = some next ∧ next.offset = frame.offset ∧
      next.header = frame.header := by
  have sites := congrArg (fun sites => sites[place]?) (map_numbered index sightings)
  simp only [List.getElem?_map, isFrame, Option.map_some] at sites
  obtain ⟨next, there, same⟩ := Option.map_eq_some_iff.mp sites.symm
  obtain ⟨offset, header⟩ := Prod.mk.inj same
  exact ⟨next, there, offset, header⟩

/-- With a header of fixed blocking among them, all frames of a visit have the numbers of their
headers. -/
theorem frameNumber_of_visitFrom {start : Nat} {next : Sighting}
    (isTaken : next ∈ visitFrom content stream none start)
    (fixed : next.header.blockingStrategy = .fixed) {frame : Frame}
    (isFrame : frame ∈ numbered none (visitFrom content stream none start)) :
    frame.header.frameNumber = some frame.index := by
  have inStep : InStep none none := rfl
  apply frameNumber_of_visit inStep isFrame
  obtain ⟨place, there⟩ := List.mem_iff_getElem?.mp isFrame
  obtain ⟨own, isOwn, -, header⟩ := exists_of_numbered there
  rw [← header, blockingStrategy_of_visit (List.mem_of_getElem? isOwn) isTaken]
  exact fixed

/-- The frames of a visit that starts again at a frame are those from that frame on: they stand
where these stand with the same headers, and `numbered` gives them the same indices under fixed
blocking. -/
theorem numbered_visitFrom_again {start place : Nat} {frame : Frame}
    (isFrame : (numbered none (visitFrom content stream none start))[place]? = some frame) :
    (numbered none (visitFrom content stream none frame.offset)).map
        (fun frame => (frame.offset, frame.header)) =
        ((numbered none (visitFrom content stream none start)).drop place).map
          (fun frame => (frame.offset, frame.header)) ∧
      (frame.header.blockingStrategy = .fixed →
        numbered none (visitFrom content stream none frame.offset) =
          (numbered none (visitFrom content stream none start)).drop place) := by
  obtain ⟨next, there, offset, header⟩ := exists_of_numbered isFrame
  have again := visitFrom_again there
  rw [offset] at again
  constructor
  · rw [map_numbered, again, List.map_drop, List.map_drop, map_numbered]
  · intro fixed
    -- the new visit takes the header of this frame first
    have isFirst : next ∈ visitFrom content stream none frame.offset := by
      apply List.mem_of_getElem? (i := 0)
      rw [again, List.getElem?_drop, Nat.add_zero]
      exact there
    have fixedNext : next.header.blockingStrategy = .fixed := header ▸ fixed
    calc numbered none (visitFrom content stream none frame.offset)
      _ = (visitFrom content stream none frame.offset).map asFrame :=
          numbered_eq_map_asFrame fun _ => frameNumber_of_visitFrom isFirst fixedNext
      _ = ((visitFrom content stream none start).map asFrame).drop place := by
          rw [again, List.map_drop]
      _ = (numbered none (visitFrom content stream none start)).drop place := by
          rw [numbered_eq_map_asFrame fun _ =>
            frameNumber_of_visitFrom (List.mem_of_getElem? there) fixedNext]

end Sighting

/-! ## Scans that start again -/

namespace Scanner

/-- A scan that was set up starts again, on any source over the same bytes, at every offset up to
the end: `setUp` finds the same. -/
theorem setUp_again {source later : ByteSource} (honest : source.Honest)
    (same : SameMedium source later) {origin : Option Nat} {settings : StreamParameters × Nat}
    (ready : ((setUp origin).runOn source).1 = .ok settings) {offset : Nat}
    (within : offset ≤ source.content.size) :
    ((setUp (some offset)).runOn later).1 = .ok (settings.1, offset) := by
  rcases exists_runOn_eq ready with ⟨after, ran⟩
  rcases of_runOn_bind_eq_ok ran with ⟨sampleRate, second, ranRate, ran⟩
  rcases of_runOn_bind_eq_ok ran with ⟨bitsPerSample, third, ranDepth, ran⟩
  rcases of_runOn_bind_eq_ok ran with ⟨start, fourth, ranStart, ran⟩
  rcases of_runOn_bind_eq_ok ran with ⟨_, fifth, _, ran⟩
  rw [runOn_pure] at ran
  obtain rfl := Except.ok.inj (congrArg Prod.fst ran)
  have first := (StreamField.steady_read .sampleRate).sameMedium honest ranRate
  have back := first.symm.trans same
  obtain ⟨_, rate, _⟩ := (StreamField.steady_read .sampleRate).runOn_eq honest same
    (congrArg Prod.fst ranRate)
  obtain ⟨_, depth, _⟩ := (StreamField.steady_read .bitDepth).runOn_eq
    (honest.of_sameMedium first) back (congrArg Prod.fst ranDepth)
  exact setUp_of_fields (honest.of_sameMedium same) (congrArg Prod.fst rate)
    (congrArg Prod.fst depth) rfl (same.content ▸ within)

/-- A scan that yields a frame was set up, and yields the frames of a visit. -/
theorem visits_of_frame {source : ByteSource} (honest : source.Honest) {options : Options}
    (fits : ChunkFits options.chunk) {items : List Item}
    (scanned : ((begin options >>= finish : Access FlacError (List Item)).runOn source).1 =
      .ok items) :
    ∃ settings, ((setUp options.start).runOn source).1 = .ok settings ∧
      items = (Sighting.numbered none (Sighting.visitFrom source.content settings.1 none
        settings.2)).map .ok := by
  rcases exists_runOn_eq scanned with ⟨after, ran⟩
  rcases of_runOn_bind_eq_ok ran with ⟨scanner, begun, ranBegin, ranFinish⟩
  rw [runOn_begin] at ranBegin
  split at ranBegin
  case h_1 settings afterSetUp ready =>
    refine ⟨settings, congrArg Prod.fst ready, ?_⟩
    exact Except.ok.inj (scanned.symm.trans
      (scan_of_setUp honest fits (congrArg Prod.fst ready)))
  case h_2 cause afterSetUp failed => cases ranBegin

/-- When a scan yields a frame, a scan that starts anew where that frame stands yields exactly the
frames from that one on, at the same offsets and with the same headers, and under fixed blocking
with the same indices. It is so for every scan of an honest source, wherever it started, and for
every source over the same bytes that is scanned then, such as the one that the first scan left;
both may read any number of bytes at a time for which storage can grow (`ChunkFits`). -/
theorem scan_restarts {source later : ByteSource} (honest : source.Honest)
    (same : SameMedium source later) {options : Options} (fits : ChunkFits options.chunk)
    {items : List Item}
    (scanned : ((begin options >>= finish : Access FlacError (List Item)).runOn source).1 =
      .ok items) {place : Nat} {frame : Frame} (isFrame : items[place]? = some (.ok frame)) :
    ∀ again : Options, again.start = some frame.offset → ChunkFits again.chunk →
      ∃ frames left : List Frame, items = frames.map .ok ∧
        ((begin again >>= finish : Access FlacError (List Item)).runOn later).1 =
          .ok (left.map .ok) ∧
        left.map (fun frame => (frame.offset, frame.header)) =
          (frames.drop place).map (fun frame => (frame.offset, frame.header)) ∧
        (frame.header.blockingStrategy = .fixed → left = frames.drop place) := by
  intro again asked fitsAgain
  obtain ⟨settings, ready, visited⟩ := visits_of_frame honest fits scanned
  rw [visited, List.getElem?_map] at isFrame
  obtain ⟨found, there, isSame⟩ := Option.map_eq_some_iff.mp isFrame
  obtain rfl : frame = found := (Except.ok.inj isSame).symm
  have within : frame.offset ≤ source.content.size := by
    obtain ⟨next, isTaken, offset, -⟩ := Sighting.exists_of_numbered there
    have := Sighting.le_size_of_mem_visitFrom (List.mem_of_getElem? isTaken)
    omega
  have readyAgain := setUp_again honest same ready within
  rw [← asked] at readyAgain
  have scannedAgain := scan_of_setUp (honest.of_sameMedium same) fitsAgain readyAgain
  rw [same.content] at scannedAgain
  obtain ⟨sites, indices⟩ := Sighting.numbered_visitFrom_again there
  exact ⟨_, _, visited, scannedAgain, sites, indices⟩

/-- The third of four frames of fixed blocking and the fourth one are found again with their
indices. -/
theorem scan_restarts_of_fourFrames :
    ((begin { chunk := 3, start := some 78 } >>= finish : Access FlacError (List Item)).runOn
      (.ofFile fourFrames)).1 =
        .ok [.ok (frameOfFour 78 9 4096 0x43).asFrame,
          .ok (frameOfFour 96 10 2048 0x2D).asFrame] := by
  have honest : (ofFile fourFrames).Honest := honest_ofFile (by decide +kernel)
  have covered : Flac.preambleLength ≤ (ofFile fourFrames).content.size := by decide +kernel
  have value (field : StreamField) (inside : field.offset + field.count ≤ Flac.preambleLength) :
      (field.read.runOn (.ofFile fourFrames)).1 = .ok (field.valueIn fourFrames) :=
    StreamField.read_of_preamble honest inside covered
  have within : 42 ≤ (ofFile fourFrames).content.size := by decide +kernel
  have scanned := scan_of_honest honest (value .sampleRate (by decide))
    (value .bitDepth (by decide)) within { start := some 42 } rfl (by decide)
  have visited : Sighting.numbered none (Sighting.visitFrom fourFrames
      { sampleRate := StreamField.sampleRate.valueIn fourFrames,
        bitsPerSample := StreamField.bitDepth.valueIn fourFrames } none 42) =
      [(frameOfFour 42 7 4096 0x69).asFrame, (frameOfFour 60 8 4096 0x44).asFrame,
        (frameOfFour 78 9 4096 0x43).asFrame, (frameOfFour 96 10 2048 0x2D).asFrame] := by
    decide +kernel
  rw [show (ofFile fourFrames).content = fourFrames from rfl, visited] at scanned
  have third : ([.ok (frameOfFour 42 7 4096 0x69).asFrame,
      .ok (frameOfFour 60 8 4096 0x44).asFrame, .ok (frameOfFour 78 9 4096 0x43).asFrame,
      .ok (frameOfFour 96 10 2048 0x2D).asFrame] : List Item)[2]? =
        some (.ok (frameOfFour 78 9 4096 0x43).asFrame) := rfl
  have again := scan_restarts honest (.refl _) (by decide) scanned third
  obtain ⟨frames, left, isItems, yields, _, same⟩ :=
    again { chunk := 3, start := some 78 } rfl (by decide)
  have isFrames : frames = [(frameOfFour 42 7 4096 0x69).asFrame,
      (frameOfFour 60 8 4096 0x44).asFrame, (frameOfFour 78 9 4096 0x43).asFrame,
      (frameOfFour 96 10 2048 0x2D).asFrame] :=
    (List.map_inj_right fun _ _ => Except.ok.inj).mp isItems.symm
  rw [yields, same rfl, isFrames]
  rfl

end Scanner

end FieldRecording
