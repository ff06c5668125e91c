import FieldRecording.Proofs.Flac.HeaderRoundTrip
import FieldRecording.Proofs.Flac.ScanStart

/-!
# A scan finds the headers that a visit takes

`Scanner.ahead` is what a scanner is still to find. A move that finds nothing leaves it
alone, and one that finds a header takes that one off, so that collecting the items of a
scan gives the whole of it. For a scanner that starts it is the list of headers that a visit
of all offsets takes.

Frames are numbered in the order in which they are found, which under fixed blocking are the
numbers that the headers carry.
-/

namespace FieldRecording

namespace Sighting

/-! ## Numbering -/

/-- The index of a frame, from that of the frame before it, up to the largest index. -/
def indexAfter (index : Option Nat) (header : FrameHeader) : Nat :=
  match index with
  | none => header.frameNumber.getD 0
  | some index => nextIndex index

/-- The frames that headers stand for, when the frame before them has the given index: the first
one is numbered by its header, and the others by `indexAfter`. -/
def numbered (index : Option Nat) : List Sighting → List Frame
  | [] => []
  | next :: rest =>
    { index := indexAfter index next.header, offset := next.offset, header := next.header } ::
      numbered (some (indexAfter index next.header)) rest

/-- Numbering leaves the headers and where they stand. -/
theorem map_numbered (index : Option Nat) (sightings : List Sighting) :
    (numbered index sightings).map (fun frame => (frame.offset, frame.header)) =
      sightings.map fun next => (next.offset, next.header) := by
  induction sightings generalizing index with
  | nil => rfl
  | cons next rest ih => rw [numbered, List.map_cons, List.map_cons, ih]

theorem map_offset_numbered (index : Option Nat) (sightings : List Sighting) :
    (numbered index sightings).map Frame.offset = sightings.map offset := by
  have both := congrArg (List.map Prod.fst) (map_numbered index sightings)
  rw [List.map_map, List.map_map] at both
  exact both

theorem length_numbered (index : Option Nat) (sightings : List Sighting) :
    (numbered index sightings).length = sightings.length := by
  rw [← List.length_map Frame.offset, map_offset_numbered, List.length_map]

/-- Frames behind one of a given index are numbered from there on, up to the largest
index. -/
theorem index_of_numbered {index : Nat} (bounded : index ≤ maxIndex) {sightings : List Sighting}
    {place : Nat} {frame : Frame}
    (isFrame : (numbered (some index) sightings)[place]? = some frame) :
    frame.index = min (index + (place + 1)) maxIndex := by
  induction sightings generalizing index place with
  | nil => cases isFrame
  | cons next rest ih =>
    rw [numbered] at isFrame
    cases place with
    | zero =>
      rw [List.getElem?_cons_zero] at isFrame
      rw [← Option.some.inj isFrame]
      rfl
    | succ place =>
      rw [List.getElem?_cons_succ] at isFrame
      have following : nextIndex index = min (index + 1) maxIndex := rfl
      rw [ih (Nat.min_le_right _ _) isFrame]
      omega

/-! ## Numbers of headers -/

/-- Under fixed blocking a decoded header carries a number, small enough for an index. -/
theorem frameNumber_of_decode {bytes : List UInt8} {stream : StreamParameters}
    {header : FrameHeader} {length : Nat}
    (decoded : FrameHeader.decode bytes stream = .ok (header, length)) :
    header.frameNumber.getD 0 ≤ maxIndex ∧
      (header.blockingStrategy = .fixed →
        header.frameNumber = some (header.frameNumber.getD 0)) := by
  rcases FrameHeader.readsAs_of_decode decoded with ⟨_, _, _, _, number, _, _, _, _, _, reads⟩
  have bound : number < 0x80000000 := CodedNumber.lt_of_decode reads.coded
  rw [reads.frameNumber]
  constructor
  · split
    · simp only [Option.getD_some, maxIndex]
      omega
    · exact Nat.zero_le _
  · intro fixed
    rw [if_pos fixed]
    rfl

/-- The header taken last, and the index that its frame was given. Under fixed blocking they are
the same number, and `inStep_of_mayFollow` keeps them so. -/
def InStep (taken : Option Sighting) (index : Option Nat) : Prop :=
  match taken with
  | none => index = none
  | some last => ∃ number, index = some number ∧
      (last.header.blockingStrategy = .fixed → last.header.frameNumber = some number)

/-- A header that may be taken under fixed blocking has the number of the next index. -/
theorem inStep_of_mayFollow {content : Content} {stream : StreamParameters}
    {taken : Option Sighting} {index : Option Nat} (inStep : InStep taken index) {offset : Nat}
    {next : Sighting} (there : at? content stream offset = some next)
    (allowed : mayFollow taken next = true) :
    InStep (some next) (some (indexAfter index next.header)) := by
  refine ⟨_, rfl, ?_⟩
  intro fixed
  cases taken with
  | none =>
    obtain rfl : index = none := inStep
    exact (frameNumber_of_decode (decode_of_at? there)).2 fixed
  | some last =>
    obtain ⟨number, rfl, same⟩ := inStep
    simp only [mayFollow, Bool.and_eq_true] at allowed
    have follows := allowed.2
    unfold FrameHeader.checkFollows at follows
    rw [fixed] at follows
    cases strategy : last.header.blockingStrategy with
    | fixed =>
      rw [strategy] at follows
      dsimp only at follows
      split at follows
      · rename_i successor
        rw [successor, same strategy]
        rfl
      · cases follows
    | «variable» =>
      rw [strategy] at follows
      cases follows

/-- Under fixed blocking every frame of a visit has the number of its header for an index:
`numbered` does not have to count. -/
theorem frameNumber_of_visit {content : Content} {stream : StreamParameters}
    {taken : Option Sighting} {index : Option Nat} (inStep : InStep taken index)
    {offsets : List Nat} {frame : Frame}
    (isFrame : frame ∈ numbered index (visit content stream taken offsets))
    (fixed : frame.header.blockingStrategy = .fixed) :
    frame.header.frameNumber = some frame.index := by
  induction offsets generalizing taken index with
  | nil => cases isFrame
  | cons offset offsets ih =>
    rw [visit] at isFrame
    split at isFrame
    · exact ih inStep isFrame
    · rename_i next there
      split at isFrame
      · rename_i allowed
        have onward := inStep_of_mayFollow inStep there allowed
        rw [numbered] at isFrame
        rcases List.mem_cons.mp isFrame with rfl | later
        · obtain ⟨number, isNumber, same⟩ := onward
          rw [Option.some.inj isNumber]
          exact same fixed
        · exact ih onward later
      · exact ih inStep isFrame

/-- What a visit takes stands somewhere. -/
theorem at?_of_mem_visit {content : Content} {stream : StreamParameters}
    {taken : Option Sighting} {offsets : List Nat} {next : Sighting}
    (isTaken : next ∈ visit content stream taken offsets) :
    ∃ offset, at? content stream offset = some next := by
  induction offsets generalizing taken with
  | nil => cases isTaken
  | cons offset offsets ih =>
    rw [visit] at isTaken
    split at isTaken
    · exact ih isTaken
    · rename_i found there
      split at isTaken
      · rcases List.mem_cons.mp isTaken with rfl | later
        · exact ⟨offset, there⟩
        · exact ih later
      · exact ih isTaken

/-- The frames of a visit are numbered on from the number of the first one. -/
theorem index_of_visit {content : Content} {stream : StreamParameters} {offsets : List Nat}
    {first frame : Frame} {place : Nat}
    (isFirst : (numbered none (visit content stream none offsets))[0]? = some first)
    (isFrame : (numbered none (visit content stream none offsets))[place]? = some frame) :
    frame.index = min (first.header.frameNumber.getD 0 + place) maxIndex := by
  have inVisit : ∀ next ∈ visit content stream none offsets,
      next.header.frameNumber.getD 0 ≤ maxIndex := by
    intro next isTaken
    obtain ⟨offset, there⟩ := at?_of_mem_visit isTaken
    exact (frameNumber_of_decode (decode_of_at? there)).1
  revert inVisit isFirst isFrame
  cases visit content stream none offsets with
  | nil =>
    intro isFirst
    cases isFirst
  | cons next rest =>
    intro isFirst isFrame inVisit
    have bounded := inVisit next List.mem_cons_self
    rw [numbered, List.getElem?_cons_zero] at isFirst
    rw [← Option.some.inj isFirst]
    rw [numbered] at isFrame
    cases place with
    | zero =>
      rw [List.getElem?_cons_zero] at isFrame
      rw [← Option.some.inj isFrame]
      exact (Nat.min_eq_left bounded).symm
    | succ place =>
      rw [List.getElem?_cons_succ] at isFrame
      exact index_of_numbered bounded isFrame

/-- A visit takes headers at some of its offsets, in their order, so that no two of them overlap. -/
theorem sublist_visit (content : Content) (stream : StreamParameters) (taken : Option Sighting)
    (offsets : List Nat) :
    ((visit content stream taken offsets).map offset).Sublist offsets := by
  induction offsets generalizing taken with
  | nil => exact List.nil_sublist _
  | cons offset offsets ih =>
    rw [visit]
    split
    · exact (ih taken).cons _
    · rename_i next there
      split
      · rw [List.map_cons, offset_of_at? there]
        exact (ih (some next)).cons_cons _
      · exact (ih taken).cons _

theorem pairwise_visitFrom (content : Content) (stream : StreamParameters)
    (taken : Option Sighting) (start : Nat) :
    (visitFrom content stream taken start).Pairwise fun earlier later =>
      earlier.offset < later.offset := by
  have inOrder : (List.range' start (content.size - start)).Pairwise (· < ·) :=
    List.pairwise_lt_range'
  exact List.pairwise_map.mp (inOrder.sublist (sublist_visit content stream taken _))

/-- The headers of a visit stand from its start on. -/
theorem le_offset_of_mem_visitFrom {content : Content} {stream : StreamParameters}
    {taken : Option Sighting} {start : Nat} {next : Sighting}
    (isTaken : next ∈ visitFrom content stream taken start) : start ≤ next.offset := by
  have stands : next.offset ∈ (visitFrom content stream taken start).map offset :=
    List.mem_map_of_mem isTaken
  exact (List.mem_range'_1.mp ((sublist_visit content stream taken _).subset stands)).1

/-- What a visit takes is followed by enough bytes. -/
theorem le_size_of_mem_visitFrom {content : Content} {stream : StreamParameters}
    {taken : Option Sighting} {start : Nat} {next : Sighting}
    (isTaken : next ∈ visitFrom content stream taken start) :
    next.offset + maxHeaderLength ≤ content.size := by
  obtain ⟨offset, there⟩ := at?_of_mem_visit isTaken
  rcases Nat.lt_or_ge content.size (offset + maxHeaderLength) with short | enough
  · rw [at?_of_short short] at there
    cases there
  · rw [offset_of_at? there]
    exact enough

end Sighting

/-! ## What a scan is still to find -/

namespace Scanner

open ByteSource Access

variable {scanner : Scanner} {content : Content}

/-- The headers that a scanner is still to find: those that `visitFrom` takes from its position
on. -/
def ahead (scanner : Scanner) (content : Content) : List Sighting :=
  match (scanner.sweep content).1 with
  | none => []
  | some next => next :: Sighting.visitFrom content scanner.stream (some next) next.stop

/-- Behind a header that it has found (`taking`), a scanner is still to find what a visit takes. -/
theorem ahead_taking {sighting : Sighting} (here : sighting.offset = scanner.position) :
    (scanner.taking sighting).ahead content =
      Sighting.visitFrom content scanner.stream (some sighting) sighting.stop := by
  have position : (scanner.taking sighting).position = sighting.stop := by
    simp only [taking, pass, Sighting.stop, here]
  rw [Sighting.visit_eq_sweep (some sighting) sighting.stop
    fun last isLast => Nat.le_of_eq (congrArg Sighting.stop (Option.some.inj isLast)).symm]
  simp only [ahead, Scanner.sweep, position]
  rfl

/-- A scanner that starts is to find what a visit takes that has taken nothing. -/
theorem ahead_of_start (last : scanner.last = none) :
    scanner.ahead content = Sighting.visitFrom content scanner.stream none scanner.position := by
  rw [Sighting.visit_eq_sweep none scanner.position fun _ isLast => nomatch isLast]
  simp only [ahead, Scanner.sweep, last]
  rfl

/-- Collecting yields the frames of all headers that a scanner is still to find, by `ahead`. The
induction is on how often the scanner may still move. -/
theorem collect_of_tracks (tracks : scanner.Tracks content) (running : scanner.finished = false)
    (found : Array Item) :
    (scanner.collect found).1.toList =
      found.toList ++ (Sighting.numbered scanner.index (scanner.ahead content)).map .ok := by
  fun_induction collect scanner found with
  | case1 scanner found finished =>
    rw [running] at finished
    cases finished
  | case2 scanner found _ item after moved ih =>
    have moves := moves_advance tracks
    rw [moved] at moves
    cases moves with
    | finds taken here finds =>
      rw [ih taken running, ahead_taking here, ahead, finds]
      simp only [Array.toList_push, List.append_assoc, List.singleton_append]
      rfl
  | case3 scanner found _ after moved ih =>
    have moves := moves_advance tracks
    rw [moved] at moves
    cases moves with
    | quiet quiet =>
      cases quiet with
      | goes tracks kept same =>
        have sameAhead : after.ahead content = scanner.ahead content := by
          rw [ahead, ahead, same, kept.stream]
        rw [ih tracks (kept.finished.trans running), sameAhead, kept.index]
      | ends finished rests =>
        rw [collect, dif_pos finished, ahead, rests]
        exact (List.append_nil _).symm

/-- A scan that can `begin` yields all that its scanner collects with `collect`. -/
theorem scan_of_begin {source after : ByteSource} {options : Options} {scanner : Scanner}
    (begun : (begin options).runOn source = (.ok scanner, after)) :
    ((begin options >>= finish : Access FlacError (List Item)).runOn source).1 =
      .ok (scanner.collect #[]).1.toList := by
  rw [runOn_bind_of_ok begun]
  rfl

/-- A scan yields the frames of the headers that a visit takes from where it starts, as `setUp`
says. -/
theorem scan_of_setUp {source : ByteSource} (honest : source.Honest) {options : Options}
    (fits : ChunkFits options.chunk) {settings : StreamParameters × Nat}
    (ready : ((setUp options.start).runOn source).1 = .ok settings) :
    ((begin options >>= finish : Access FlacError (List Item)).runOn source).1 =
      .ok ((Sighting.numbered none (Sighting.visitFrom source.content settings.1 none
        settings.2)).map .ok) := by
  rcases exists_runOn_eq ready with ⟨after, ran⟩
  have same := (steady_setUp options.start).sameMedium honest ran
  have within := (startOf_of_setUp honest ran).2
  have begun : (begin options).runOn source = (.ok (starting options settings after), after) := by
    rw [runOn_begin, ran]
  have tracks := tracks_starting (honest.of_sameMedium same) fits settings
    (same.content.symm ▸ within)
  have collected := collect_of_tracks tracks rfl #[]
  rw [ahead_of_start rfl, same.content] at collected
  rw [scan_of_begin begun, collected]
  rfl

/-- A scan of an honest source starts at every offset up to the end. -/
theorem scan_of_honest {source : ByteSource} (honest : source.Honest)
    {sampleRate bitsPerSample start : Nat}
    (rate : (StreamField.sampleRate.read.runOn source).1 = .ok sampleRate)
    (depth : (StreamField.bitDepth.read.runOn source).1 = .ok bitsPerSample)
    (within : start ≤ source.content.size) (options : Options) (asked : options.start = some start)
    (fits : ChunkFits options.chunk) :
    ((begin options >>= finish : Access FlacError (List Item)).runOn source).1 =
      .ok ((Sighting.numbered none (Sighting.visitFrom source.content
        { sampleRate, bitsPerSample } none start)).map .ok) := by
  have starts : ((startOf options.start).runOn source).1 = .ok start := by
    rw [asked]
    rfl
  exact scan_of_setUp honest fits (setUp_of_fields honest rate depth starts within)

end Scanner

/-! ## A header over and over -/

namespace Sighting

section Repetition

variable {content : Content} {stream : StreamParameters} {header : FrameHeader}
  {bytes : List UInt8}

/-- An encoded header stands where its bytes do, with enough bytes behind them. -/
theorem at?_of_encode (encoded : header.encode stream = some bytes)
    (settled : ∀ check, bytes.getLast? = some check → header.settled check = header)
    (opens : isSyncPair bytes[0]? bytes[1]? = true) (short : bytes.length ≤ maxHeaderLength)
    {before after : List UInt8} (cut : content.toList = before ++ bytes ++ after)
    (enough : maxHeaderLength ≤ (bytes ++ after).length) :
    at? content stream before.length = some ⟨before.length, header, bytes.length⟩ := by
  have two : 2 ≤ bytes.length := by
    rcases (isSyncPair_eq_true.mp opens).2 with second | second <;>
      exact (List.getElem?_eq_some_iff.mp second).1
  have size : content.size = before.length + (bytes ++ after).length := by
    rw [← Array.length_toList, cut]
    simp only [List.length_append]
    omega
  have byteAt (index : Nat) (inside : index < bytes.length) :
      content[before.length + index]? = bytes[index]? := by
    rw [← Array.getElem?_toList, cut, List.append_assoc,
      List.getElem?_append_right (Nat.le_add_right _ _), Nat.add_sub_cancel_left,
      List.getElem?_append_left inside]
  have window : content.slice before.length maxHeaderLength =
      bytes ++ after.take (maxHeaderLength - bytes.length) := by
    rw [Content.slice_eq_take_drop, cut, List.append_assoc, List.drop_left, List.take_append,
      List.take_of_length_le short]
  have long : maxHeaderLength ≤
      (bytes ++ after.take (maxHeaderLength - bytes.length)).length := by
    rw [List.length_append] at enough
    rw [List.length_append, List.length_take]
    omega
  obtain ⟨check, isLast, decoded⟩ := FrameHeader.decode_of_encode encoded _ long
  rw [settled check isLast] at decoded
  have pair : isSyncPair content[before.length]? content[before.length + 1]? = true := by
    rw [← byteAt 0 (by omega), ← byteAt 1 (by omega)] at opens
    exact opens
  rw [at?, if_pos ⟨by omega, pair⟩, window, decoded]

/-- A header that may follow itself is taken as often as it stands in a row. -/
theorem le_length_visitFrom (encoded : header.encode stream = some bytes)
    (settled : ∀ check, bytes.getLast? = some check → header.settled check = header)
    (opens : isSyncPair bytes[0]? bytes[1]? = true) (short : bytes.length ≤ maxHeaderLength)
    (follows : header.checkFollows header = .ok ()) {after : List UInt8}
    (enough : maxHeaderLength ≤ after.length) (count : Nat) (before : List UInt8)
    (cut : content.toList = before ++ (List.replicate count bytes).flatten ++ after)
    (taken : Option Sighting)
    (allowed : ∀ last ∈ taken, last.stop ≤ before.length ∧ last.header = header) :
    ∃ more, visitFrom content stream taken before.length =
      (List.range count).map (fun place =>
        ⟨before.length + place * bytes.length, header, bytes.length⟩) ++ more := by
  induction count generalizing before taken with
  | zero => exact ⟨_, rfl⟩
  | succ count ih =>
    have here : content.toList =
        before ++ bytes ++ ((List.replicate count bytes).flatten ++ after) := by
      rw [cut, List.replicate_succ, List.flatten_cons]
      simp only [List.append_assoc]
    have there := at?_of_encode encoded settled opens short here
      (by simp only [List.length_append]; omega)
    have may : mayFollow taken ⟨before.length, header, bytes.length⟩ = true := by
      cases taken with
      | none => rfl
      | some last =>
        obtain ⟨free, same⟩ := allowed last rfl
        simp only [mayFollow, same, follows, free]
        rfl
    have inside : before.length < content.size := by
      rw [← Array.length_toList, cut]
      simp only [List.length_append, maxHeaderLength] at enough ⊢
      omega
    obtain ⟨more, rest⟩ := ih (before ++ bytes)
      (by rw [here]; simp only [List.append_assoc])
      (some ⟨before.length, header, bytes.length⟩) (by
        intro last isLast
        obtain rfl := Option.some.inj isLast
        exact ⟨Nat.le_of_eq List.length_append.symm, rfl⟩)
    refine ⟨more, ?_⟩
    rw [visitFrom_of_lt inside, there]
    dsimp only
    rw [if_pos may, visitFrom_stop _ _ (lt_stop_of_at? there)]
    rw [List.length_append] at rest
    rw [stop, rest, List.range_succ_eq_map, List.map_cons, List.map_map, List.cons_append,
      Nat.zero_mul, Nat.add_zero]
    congr 2
    apply List.map_congr_left
    intro place _
    simp only [Function.comp_apply, Nat.succ_eq_add_one, Nat.add_mul, Nat.one_mul,
      Sighting.mk.injEq, and_true]
    omega

end Repetition

/-- The header of a frame of variable blocking that starts with the first sample. -/
def firstSample : FrameHeader where
  blockingStrategy := .variable
  blockSize := 4096
  sampleRate := 48000
  channelAssignment := .mono
  bitsPerSample := 24
  frameNumber := none
  startingSample := some 0
  check := 106

/-- A source in which the header of `firstSample` stands over and over, behind the place of the
stream information. -/
def repeating (count : Nat) : Content :=
  let bytes : List UInt8 := [0xFF, 0xF9, 0xCA, 0x0C, 0, 106]
  (List.replicate 22 0 ++ (List.replicate count bytes).flatten ++ List.replicate 16 0).toArray

theorem size_repeating (count : Nat) : 22 ≤ (repeating count).size := by
  simp only [repeating, List.size_toArray, List.length_append, List.length_replicate]
  omega

theorem slice_repeating (count : Nat) {offset width : Nat} (inside : offset + width ≤ 22) :
    (repeating count).slice offset width = List.replicate width 0 := by
  rw [Content.slice_eq_take_drop, repeating, List.append_assoc,
    List.drop_append_of_le_length (by rw [List.length_replicate]; omega), List.drop_replicate,
    List.take_append_of_le_length (by rw [List.length_replicate]; omega), List.take_replicate,
    Nat.min_eq_left (by omega)]

/-- What the source says of its stream. -/
theorem fields_of_repeating (count : Nat) :
    (StreamField.sampleRate.read.runOn (.ofContent (repeating count))).1 = .ok 0 ∧
      (StreamField.bitDepth.read.runOn (.ofContent (repeating count))).1 = .ok 1 := by
  have honest := ByteSource.honest_ofContent (repeating count)
  have size := size_repeating count
  have field (field : StreamField) (inside : field.offset + field.count ≤ 22)
      (fits : field.count < sizeLimit) :
      (field.read.runOn (.ofContent (repeating count))).1 =
        .ok (field.ofBytes (List.replicate field.count 0)) := by
    rw [← slice_repeating count inside]
    exact StreamField.read_of_honest honest field (Nat.le_trans inside size) fits
  exact ⟨field .sampleRate (by decide) (by decide), field .bitDepth (by decide) (by decide)⟩

/-- All of the headers are taken. -/
theorem visitFrom_repeating (count : Nat) :
    ∃ more, visitFrom (repeating count) { sampleRate := 0, bitsPerSample := 1 } none 22 =
      (List.range count).map (fun place => ⟨22 + place * 6, firstSample, 6⟩) ++ more := by
  have encoded : firstSample.encode { sampleRate := 0, bitsPerSample := 1 } =
      some [0xFF, 0xF9, 0xCA, 0x0C, 0, 106] := by
    decide +kernel
  refine le_length_visitFrom encoded ?_ (by decide) (by decide) rfl (by decide) count
    (List.replicate 22 0) rfl none fun _ isLast => nomatch isLast
  intro check isLast
  obtain rfl := Option.some.inj isLast
  rfl

end Sighting

namespace Scanner

open ByteSource Access

/-- The first move of a scan that reads more bytes at a time than storage has room for fails:
`grown?` has none for it. -/
theorem advance_of_sizeLimit_le {options : Options} (small : options.capacity < sizeLimit)
    (large : sizeLimit ≤ options.chunk) (settings : StreamParameters × Nat) (source : ByteSource) :
    (starting options settings source).advance = (some (.error (.io .tooManyBytes)),
      { starting options settings source with finished := true }) := by
  have chunk : sizeLimit ≤ max options.chunk 1 := Nat.le_trans large (Nat.le_max_left _ _)
  have noRoom : grown? options.capacity (max options.chunk 1) = none :=
    grown?_eq_none_iff.mpr ⟨Nat.lt_of_lt_of_le small chunk, .inr chunk⟩
  unfold advance step readMore
  simp only [starting, cleared, List.take_zero, seekSync, pass, List.takeWhile_nil,
    List.length_nil, List.drop_nil, List.isEmpty_nil, if_true, Bool.false_eq_true, if_false,
    Nat.add_zero, Nat.zero_add]
  rw [noRoom]

/-- All that such a scan collects is the failure. -/
theorem collect_of_sizeLimit_le {options : Options} (small : options.capacity < sizeLimit)
    (large : sizeLimit ≤ options.chunk) (settings : StreamParameters × Nat) (source : ByteSource) :
    ((starting options settings source).collect #[]).1 = #[.error (.io .tooManyBytes)] := by
  have running : ¬ (starting options settings source).finished = true := Bool.false_ne_true
  have failed := advance_of_sizeLimit_le small large settings source
  rw [collect, dif_neg running]
  split
  case h_1 item after moved =>
    rw [failed] at moved
    obtain ⟨isItem, rfl⟩ := Prod.mk.inj moved
    rw [collect, dif_pos rfl, ← Option.some.inj isItem]
    rfl
  case h_2 after moved =>
    rw [failed] at moved
    cases moved

/-- A scan that reads more bytes at a time than storage has room for yields that it cannot,
whatever frames the source has. -/
theorem scan_of_sizeLimit_le {source : ByteSource} (honest : source.Honest)
    {sampleRate bitsPerSample start : Nat}
    (rate : (StreamField.sampleRate.read.runOn source).1 = .ok sampleRate)
    (depth : (StreamField.bitDepth.read.runOn source).1 = .ok bitsPerSample)
    (within : start ≤ source.content.size) (options : Options) (asked : options.start = some start)
    (small : options.capacity < sizeLimit) (large : sizeLimit ≤ options.chunk) :
    ((begin options >>= finish : Access FlacError (List Item)).runOn source).1 =
      .ok [.error (.io .tooManyBytes)] := by
  obtain ⟨after, _, begun⟩ := begin_of_fields honest rate depth within options asked
  rw [scan_of_begin begun, collect_of_sizeLimit_le small large]

end Scanner

/-! ## The frames of a scan -/

/-- A scan yields exactly the headers that are taken when all offsets are visited in order:
from every honest source of which the fields are readable, from every offset up to the end,
with every number of bytes that is read at a time and lets the storage grow (`ChunkFits`),
whatever the storage has served for. The frames are numbered on from the number of the first
one, up to the largest index, and under fixed blocking each has the number of its header. -/
theorem Scanner.scan_yields_visited {source : ByteSource} (honest : source.Honest)
    {sampleRate bitsPerSample start : Nat}
    (rate : (StreamField.sampleRate.read.runOn source).1 = .ok sampleRate)
    (depth : (StreamField.bitDepth.read.runOn source).1 = .ok bitsPerSample)
    (within : start ≤ source.content.size) (options : Options) (asked : options.start = some start)
    (fits : ChunkFits options.chunk) :
    ∃ frames : List Frame,
      ((begin options >>= finish : Access FlacError (List Item)).runOn source).1 =
        .ok (frames.map .ok) ∧
      frames.map (fun frame => (frame.offset, frame.header)) =
        (Sighting.visitFrom source.content { sampleRate, bitsPerSample } none start).map
          (fun next => (next.offset, next.header)) ∧
      frames.Pairwise (fun earlier later => earlier.offset < later.offset) ∧
      (∀ first, frames[0]? = some first → ∀ (place : Nat) frame, frames[place]? = some frame →
        frame.index = min (first.header.frameNumber.getD 0 + place) maxIndex) ∧
      ∀ frame ∈ frames, frame.header.blockingStrategy = .fixed →
        frame.header.frameNumber = some frame.index := by
  refine ⟨_, Scanner.scan_of_honest honest rate depth within options asked fits,
    Sighting.map_numbered none _, ?_, ?_, ?_⟩
  · apply List.pairwise_map.mp
    rw [Sighting.map_offset_numbered]
    exact List.pairwise_map.mpr (Sighting.pairwise_visitFrom _ _ none start)
  · intro first isFirst place frame isFrame
    exact Sighting.index_of_visit isFirst isFrame
  · intro frame isFrame fixed
    have inStep : Sighting.InStep none none := rfl
    exact Sighting.frameNumber_of_visit inStep isFrame fixed

/-- A source with its header twice, read three bytes at a time, has both of them found. -/
theorem Scanner.scan_yields_visited_of_repeating :
    ∃ frames : List Frame,
      ((begin { chunk := 3, start := some 22 } >>= finish : Access FlacError (List Item)).runOn
        (.ofContent (Sighting.repeating 2))).1 = .ok (frames.map .ok) ∧ 2 ≤ frames.length := by
  obtain ⟨rate, depth⟩ := Sighting.fields_of_repeating 2
  obtain ⟨frames, yields, found, _⟩ := scan_yields_visited (ByteSource.honest_ofContent _)
    rate depth (Sighting.size_repeating 2) { chunk := 3, start := some 22 } rfl (by decide)
  obtain ⟨more, visited⟩ := Sighting.visitFrom_repeating 2
  refine ⟨frames, yields, ?_⟩
  have counted := congrArg List.length found
  change _ = List.length (List.map _ (Sighting.visitFrom (Sighting.repeating 2) _ none 22))
    at counted
  rw [visited] at counted
  simp only [List.length_map, List.length_append, List.length_range] at counted
  omega

/-- Two bounds cannot be left out. A scan that would read `2^63` bytes at a time yields no
frame of a source that has one; and of `2^32 + 1` frames the last is not numbered as many
frames after the first as it stands behind it. -/
theorem Scanner.scan_beyond_bounds :
    (Sighting.visitFrom (Sighting.repeating 1) { sampleRate := 0, bitsPerSample := 1 }
        none 22 ≠ [] ∧
      ((begin { chunk := 0x8000000000000000, start := some 22 } >>= finish :
          Access FlacError (List Item)).runOn (.ofContent (Sighting.repeating 1))).1 =
        .ok [.error (.io .tooManyBytes)]) ∧
    ∃ (frames : List Frame) (first last : Frame),
      ((begin { start := some 22 } >>= finish : Access FlacError (List Item)).runOn
        (.ofContent (Sighting.repeating 0x100000001))).1 = .ok (frames.map .ok) ∧
      frames[0]? = some first ∧ frames[0x100000000]? = some last ∧
      last.index ≠ first.header.frameNumber.getD 0 + 0x100000000 := by
  constructor
  · obtain ⟨rate, depth⟩ := Sighting.fields_of_repeating 1
    obtain ⟨more, visited⟩ := Sighting.visitFrom_repeating 1
    refine ⟨?_, scan_of_sizeLimit_le (ByteSource.honest_ofContent _) rate depth
      (Sighting.size_repeating 1) _ rfl (by decide) (Nat.le_refl _)⟩
    rw [visited]
    exact List.cons_ne_nil _ _
  · obtain ⟨rate, depth⟩ := Sighting.fields_of_repeating 0x100000001
    obtain ⟨more, visited⟩ := Sighting.visitFrom_repeating 0x100000001
    have yields := scan_of_honest (ByteSource.honest_ofContent _) rate depth
      (Sighting.size_repeating 0x100000001) { start := some 22 } rfl (by decide)
    generalize isFrames : Sighting.numbered none (Sighting.visitFrom
      (ByteSource.ofContent (Sighting.repeating 0x100000001)).content
      { sampleRate := 0, bitsPerSample := 1 } none 22) = frames at yields
    have enough : 0x100000001 ≤ frames.length := by
      rw [← isFrames, Sighting.length_numbered]
      change _ ≤ (Sighting.visitFrom (Sighting.repeating 0x100000001) _ none 22).length
      rw [visited, List.length_append, List.length_map, List.length_range]
      exact Nat.le_add_right _ _
    obtain ⟨first, isFirst⟩ : ∃ first, frames[0]? = some first :=
      ⟨_, List.getElem?_eq_getElem (by omega)⟩
    obtain ⟨last, isLast⟩ : ∃ last, frames[0x100000000]? = some last :=
      ⟨_, List.getElem?_eq_getElem (by omega)⟩
    refine ⟨frames, first, last, yields, isFirst, isLast, ?_⟩
    rw [← isFrames] at isFirst isLast
    have number := Sighting.index_of_visit isFirst isLast
    have bound : last.index ≤ maxIndex := by
      rw [number]
      exact Nat.min_le_right _ _
    simp only [maxIndex] at bound
    omega

end FieldRecording
