import FieldRecording.Proofs.Flac.FrontScans

/-!
# Scans of a torn stream

What is left of a stream whose end was lost has the frames that the whole stream has, as far as
sixteen bytes are left from where each of them starts, with the same indices. Frames stand in
order, so that these are the first ones: bytes that come behind a stream take no frame from it.
-/

namespace FieldRecording

/-- A field of the stream information that is left is read as before: `read` touches no byte
behind it. -/
theorem StreamField.read_of_front {whole torn : ByteSource} (honest : whole.Honest)
    (honestTorn : torn.Honest) {cut : Nat} (isFront : torn.content = whole.content.extract 0 cut)
    (inside : cut ≤ whole.content.size) (field : StreamField)
    (covered : field.offset + field.count ≤ cut) (fits : field.count < sizeLimit) :
    ∃ value, (field.read.runOn whole).1 = .ok value ∧ (field.read.runOn torn).1 = .ok value := by
  have size : torn.content.size = cut := by rw [isFront, Content.size_front inside]
  have same : torn.content.slice field.offset field.count =
      whole.content.slice field.offset field.count := by
    apply Content.slice_congr
    intro index _ below
    rw [isFront, Content.getElem?_front, if_pos (by omega)]
  refine ⟨_, read_of_honest honest field (by omega) fits, ?_⟩
  rw [← same]
  exact read_of_honest honestTorn field (by omega) fits

namespace Scanner

open ByteSource Access

/-- Scanners that start on a content and on its front are `Abreast`. -/
theorem abreast_starting {whole front : ByteSource} (honest : whole.Honest)
    (honestFront : front.Honest) {cut : Nat} (isFront : front.content = whole.content.extract 0 cut)
    (inside : cut ≤ whole.content.size) (options : Options) (stream : StreamParameters)
    {start : Nat} (within : start ≤ cut) :
    Abreast cut (starting options (stream, start) whole)
      (starting options (stream, start) front) where
  honest := honest
  honestFront := honestFront
  isFront := isFront
  inside := inside
  chunk_pos := Nat.le_max_right _ _
  goesOn := rfl
  reach := within
  holds := ⟨[], rfl, .inl rfl⟩

/-- A scan of what is left of a torn stream finds the frames that a scan of the whole stream
finds, with their indices, offsets and headers, as far as sixteen bytes are left from where each
of them starts; these are the first of them. It is so from every offset that is left, however
many bytes are read at a time, as soon as the fields of the stream are left. Neither scan yields
a failure where storage for the bytes that are read at a time can always be had (`ChunkFits`). -/
theorem scan_of_torn {whole torn : ByteSource} (honest : whole.Honest) (honestTorn : torn.Honest)
    {cut : Nat} (isFront : torn.content = whole.content.extract 0 cut)
    (inside : cut ≤ whole.content.size) (covered : 22 ≤ cut) {start : Nat} (within : start ≤ cut)
    (options : Options) (asked : options.start = some start) :
    ∃ items left : List Item,
      ((begin options >>= finish : Access FlacError (List Item)).runOn whole).1 = .ok items ∧
      ((begin options >>= finish : Access FlacError (List Item)).runOn torn).1 = .ok left ∧
      framesAmong left =
        (framesAmong items).filter (fun frame => frame.offset + maxHeaderLength ≤ cut) ∧
      framesAmong left <+: framesAmong items ∧
      (ChunkFits options.chunk →
        items = (framesAmong items).map .ok ∧ left = (framesAmong left).map .ok) := by
  have size : torn.content.size = cut := by rw [isFront, Content.size_front inside]
  obtain ⟨sampleRate, rate, rateLeft⟩ := StreamField.read_of_front honest honestTorn isFront inside
    .sampleRate (Nat.le_trans (by decide) covered) (by decide)
  obtain ⟨bitsPerSample, depth, depthLeft⟩ := StreamField.read_of_front honest honestTorn isFront
    inside .bitDepth (Nat.le_trans (by decide) covered) (by decide)
  obtain ⟨after, same, begun⟩ :=
    begin_of_fields honest rate depth (Nat.le_trans within inside) options asked
  obtain ⟨afterTorn, sameTorn, begunTorn⟩ :=
    begin_of_fields honestTorn rateLeft depthLeft (Nat.le_trans within (Nat.le_of_eq size.symm))
      options asked
  have isFrontAfter : afterTorn.content = after.content.extract 0 cut := by
    rw [sameTorn.content, isFront, same.content]
  have abreast := abreast_starting (honest.of_sameMedium same) (honestTorn.of_sameMedium sameTorn)
    isFrontAfter (same.content.symm ▸ inside) options { sampleRate, bitsPerSample } within
  obtain ⟨common, behind, collected, collectedTorn, areInFront, areBehind⟩ :=
    abreast.collect #[] #[]
  have nothing : framesAmong (#[] : Array Item).toList = [] := rfl
  rw [nothing, List.nil_append] at collected collectedTorn
  have scanned := scan_of_begin begun
  have scannedTorn := scan_of_begin begunTorn
  refine ⟨_, _, scanned, scannedTorn, ?_, ?_, fun fits => ⟨?_, ?_⟩⟩
  · have kept : common.filter (fun frame => frame.offset + maxHeaderLength ≤ cut) = common :=
      List.filter_eq_self.mpr fun frame isCommon => decide_eq_true (areInFront frame isCommon)
    have dropped : behind.filter (fun frame => frame.offset + maxHeaderLength ≤ cut) = [] :=
      List.filter_eq_nil_iff.mpr fun frame isBehind =>
        fun isKept => Nat.not_le.mpr (areBehind frame isBehind) (of_decide_eq_true isKept)
    rw [collected, collectedTorn, List.filter_append, kept, dropped, List.append_nil]
  · rw [collected, collectedTorn]
    exact List.prefix_append _ _
  · have yields := scan_of_honest honest rate depth (Nat.le_trans within inside) options asked fits
    rw [Except.ok.inj (scanned.symm.trans yields), framesAmong_map_ok]
  · have yields := scan_of_honest honestTorn rateLeft depthLeft
      (Nat.le_trans within (Nat.le_of_eq size.symm)) options asked fits
    rw [Except.ok.inj (scannedTorn.symm.trans yields), framesAmong_map_ok]

/-- Of a stream with two frames that is cut eighteen bytes behind the start of the first one,
and twelve behind that of the second, only the first one is left. -/
theorem scan_of_torn_repeating :
    ∃ items left : List Item,
      ((begin { chunk := 5, start := some 22 } >>= finish : Access FlacError (List Item)).runOn
        (.ofContent (Sighting.repeating 2))).1 = .ok items ∧
      ((begin { chunk := 5, start := some 22 } >>= finish : Access FlacError (List Item)).runOn
        (.ofContent ((Sighting.repeating 2).extract 0 40))).1 = .ok left ∧
      (∃ first ∈ framesAmong left, first.offset = 22) ∧
      (∃ second ∈ framesAmong items, second.offset = 28) ∧
      ∀ frame ∈ framesAmong left, frame.offset ≠ 28 := by
  have honest := honest_ofContent (Sighting.repeating 2)
  obtain ⟨items, left, scanned, scannedLeft, kept, -, -⟩ :=
    scan_of_torn honest (honest_ofContent ((Sighting.repeating 2).extract 0 40)) rfl
      (by decide) (by decide) (by decide : 22 ≤ 40) { chunk := 5, start := some 22 } rfl
  obtain ⟨rate, depth⟩ := Sighting.fields_of_repeating 2
  obtain ⟨more, visited⟩ := Sighting.visitFrom_repeating 2
  have found := scan_of_honest honest rate depth (Sighting.size_repeating 2)
    { chunk := 5, start := some 22 } rfl (by decide)
  have isItems := Except.ok.inj (scanned.symm.trans found)
  rw [isItems, framesAmong_map_ok] at kept
  have offsets : (Sighting.numbered none (Sighting.visitFrom (Sighting.repeating 2)
      { sampleRate := 0, bitsPerSample := 1 } none 22)).map Frame.offset =
        [22, 28] ++ more.map Sighting.offset := by
    rw [Sighting.map_offset_numbered, visited, List.map_append]
    rfl
  have isFound (offset : Nat) (listed : offset ∈ [22, 28]) :
      ∃ frame ∈ Sighting.numbered none (Sighting.visitFrom (Sighting.repeating 2)
        { sampleRate := 0, bitsPerSample := 1 } none 22), frame.offset = offset :=
    List.mem_map.mp (offsets ▸ List.mem_append_left _ listed)
  refine ⟨items, left, scanned, scannedLeft, ?_, ?_, ?_⟩
  · obtain ⟨first, isFrame, here⟩ := isFound 22 (by decide)
    refine ⟨first, ?_, here⟩
    rw [kept]
    exact List.mem_filter.mpr ⟨isFrame, decide_eq_true (by rw [here]; decide)⟩
  · rw [isItems, framesAmong_map_ok]
    exact isFound 28 (by decide)
  · intro frame isLeft here
    rw [kept] at isLeft
    have enough := of_decide_eq_true (List.mem_filter.mp isLeft).2
    rw [here] at enough
    exact absurd enough (by decide)

end Scanner

end FieldRecording
