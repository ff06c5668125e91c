import FieldRecording.Proofs.Bytes.Overwriting
import FieldRecording.Proofs.Flac.TwinScans

/-!
# A scan of the front of a content

A scan of a whole content and one of its front go side by side as long as the second one has the
bytes that it looks at. `Scanner.Abreast` is what holds of the two scanners then: the one of the
whole content holds what the other does, and bytes behind those only where the other has come to
the cut (`Scanner.holding`). A look that does not lack bytes leads both to the same
(`Scanner.step_holding`), and so does a read in front of the cut.

Once the scanner of the front lacks bytes at the cut it finds no more (`Scanner.Spent`), and what
the other one is still to find starts where fewer than sixteen bytes are left in front of the cut
(`Scanner.Beyond`). Nothing of this depends on how many bytes are read at a time, or on whether
storage for them can be had: where it cannot, both scans fail.
-/

namespace FieldRecording

/-- A `slice` of the front of a content is what the slice of the whole content begins with, and it
is all of that unless it ends at the cut. -/
theorem Content.exists_slice_front {whole front : Content} {cut : Nat}
    (isFront : front = whole.extract 0 cut) (inside : cut ≤ whole.size) {offset : Nat}
    (within : offset ≤ cut) (count : Nat) :
    ∃ ahead, whole.slice offset count = front.slice offset count ++ ahead ∧
      (ahead = [] ∨ offset + (front.slice offset count).length = cut) := by
  subst isFront
  have kept : Content.slice (whole.extract 0 cut) offset count =
      (whole.slice offset count).take (cut - offset) := by
    apply List.ext_getElem?
    intro index
    rw [getElem?_slice, getElem?_front, List.getElem?_take, getElem?_slice]
    by_cases inCut : index < cut - offset
    · rw [if_pos inCut, if_pos (show offset + index < cut by omega)]
    · rw [if_neg inCut, if_neg (show ¬ offset + index < cut by omega), ite_self]
  refine ⟨(whole.slice offset count).drop (cut - offset), ?_, ?_⟩
  · rw [kept, List.take_append_drop]
  · rw [length_slice, size_front inside, List.drop_eq_nil_iff, length_slice]
    omega

/-- In front of the cut, `readAt` on the front of a content and on the whole one gives bytes that
are the same as far as the front has them. -/
theorem ByteSource.readAt_front {whole front : ByteSource} (honest : whole.Honest)
    (honestFront : front.Honest) {cut : Nat} (isFront : front.content = whole.content.extract 0 cut)
    (inside : cut ≤ whole.content.size) {offset : Nat} (short : offset < cut) {count : Nat}
    (positive : 0 < count) (fits : count < sizeLimit) :
    ∃ bytes ahead afterFront afterWhole,
      front.readAt offset count = (.ok bytes, afterFront) ∧
      whole.readAt offset count = (.ok (bytes ++ ahead), afterWhole) ∧
      SameMedium front afterFront ∧ SameMedium whole afterWhole ∧ bytes ≠ [] ∧
      offset + bytes.length ≤ cut ∧ (ahead = [] ∨ offset + bytes.length = cut) := by
  have size : front.content.size = cut := by rw [isFront, Content.size_front inside]
  obtain ⟨readFront, sameFront⟩ :=
    readAt_of_honest honestFront (Nat.le_of_lt (size.symm ▸ short)) fits
  obtain ⟨read, same⟩ :=
    readAt_of_honest honest (Nat.le_trans (Nat.le_of_lt short) inside) fits
  obtain ⟨ahead, isWhole, behind⟩ :=
    Content.exists_slice_front isFront inside (Nat.le_of_lt short) count
  have length := Content.length_slice front.content offset count
  rw [isWhole] at read
  refine ⟨_, ahead, _, _, Prod.ext readFront rfl, Prod.ext read rfl, sameFront, same, ?_, ?_,
    behind⟩
  · intro nothing
    rw [nothing, List.length_nil, size] at length
    omega
  · omega

namespace Scanner

open ByteSource Access

/-! ## Frames among items -/

/-- The frames among the items of a scan, without its failures. -/
def framesAmong (items : List Item) : List Frame := items.filterMap Except.toOption

theorem framesAmong_map_ok (frames : List Frame) : framesAmong (frames.map .ok) = frames := by
  rw [framesAmong, List.filterMap_map]
  exact List.filterMap_some

/-- The frames of items that a move may have added to. -/
theorem framesAmong_elim_push (found : Array Item) (item : Option Item) :
    framesAmong (item.elim found found.push).toList =
      framesAmong found.toList ++ framesAmong item.toList := by
  cases item with
  | none => exact (List.append_nil _).symm
  | some item =>
    rw [Option.elim_some, Array.toList_push, framesAmong, List.filterMap_append]
    rfl

/-! ## What is behind a cut -/

/-- What a scanner may still find starts where fewer bytes than a header takes are left in front
of the cut, by its position and its stage. -/
def Beyond (cut : Nat) (scanner : Scanner) : Prop :=
  cut < scanner.position + maxHeaderLength ∨
    scanner.stage = .seeking ∧
      cut ≤ scanner.position + (scanner.pending.takeWhile (· ≠ syncByte)).length

section Beyond

variable {cut : Nat} {scanner after : Scanner}

/-- Only a search for a sync byte passes bytes before it shows that there are too few. -/
theorem eq_of_needsBytes (lacks : scanner.step = .needsBytes after)
    (settled : scanner.stage ≠ .seeking) : after = scanner := by
  unfold step at lacks
  split at lacks
  case h_1 seeking => exact absurd seeking settled
  case h_2 candidate =>
    unfold judgeCandidate at lacks
    split at lacks
    case h_1 first second rest held =>
      split at lacks
      · cases lacks
      · split at lacks <;> cases lacks
    case h_2 tooFew => exact (Step.needsBytes.inj lacks).symm
  case h_3 decoding =>
    unfold decodeFrame at lacks
    dsimp only at lacks
    split at lacks
    case isTrue tooFew => exact (Step.needsBytes.inj lacks).symm
    case isFalse enough => split at lacks <;> cases lacks

/-- A search that lacks bytes has passed all of them. -/
theorem all_ne_sync_of_needsBytes (lacks : scanner.step = .needsBytes after)
    (seeking : scanner.stage = .seeking) :
    scanner.pending.takeWhile (· ≠ syncByte) = scanner.pending := by
  rw [step, seeking] at lacks
  dsimp only [seekSync] at lacks
  split at lacks
  case isTrue nothingLeft =>
    have passed := List.drop_eq_nil_iff.mp (List.isEmpty_iff.mp nothingLeft)
    exact (List.takeWhile_prefix _).eq_of_length_le passed
  case isFalse syncLeft => cases lacks

/-- A scanner that lacks bytes, and has come to the cut with those at hand, finds what is
`Beyond`. -/
theorem beyond_of_needsBytes (lacks : scanner.step = .needsBytes after)
    (reach : cut ≤ scanner.position + scanner.pending.length) : scanner.Beyond cut := by
  obtain ⟨waits, starved⟩ := (lacks ▸ follows_step scanner).of_needsBytes
  by_cases seeking : scanner.stage = .seeking
  · refine .inr ⟨seeking, ?_⟩
    rw [all_ne_sync_of_needsBytes lacks seeking]
    exact reach
  · rw [eq_of_needsBytes lacks seeking] at starved
    have few := length_pending_of_starved starved
    exact .inl (by omega)

/-- No look with `step` leads to what is not `Beyond`. -/
theorem Beyond.step (beyond : scanner.Beyond cut) :
    match scanner.step with
    | .found frame after =>
      cut < frame.offset + maxHeaderLength ∧ cut < after.position + maxHeaderLength
    | .moved after => cut < after.position + maxHeaderLength
    | .needsBytes after => cut < after.position + maxHeaderLength := by
  rcases beyond with near | ⟨seeking, passed⟩
  · have follows := follows_step scanner
    generalize scanner.step = step at follows
    cases follows with
    | found moved decoding here enough =>
      exact ⟨here ▸ near, Nat.lt_of_lt_of_le near (Nat.add_le_add_right moved.position_le _)⟩
    | moved moved => exact Nat.lt_of_lt_of_le near (Nat.add_le_add_right moved.position_le _)
    | needsBytes waits starved =>
      exact Nat.lt_of_lt_of_le near (Nat.add_le_add_right waits.position_le _)
  · have behind : cut < scanner.position +
        (scanner.pending.takeWhile (· ≠ syncByte)).length + maxHeaderLength :=
      Nat.lt_of_le_of_lt passed (Nat.lt_add_of_pos_right (by decide))
    rw [Scanner.step, seeking]
    dsimp only
    by_cases nothingLeft : (scanner.pending.drop
        (scanner.pending.takeWhile (· ≠ syncByte)).length).isEmpty = true
    · rw [seekSync, if_pos nothingLeft]
      exact behind
    · rw [seekSync, if_neg nothingLeft]
      exact behind

/-- A read with `readMore` leaves the scanner where it stands, and finds nothing. -/
theorem readMore_keeps (scanner : Scanner) :
    scanner.readMore.2.position = scanner.position ∧
      framesAmong scanner.readMore.1.toList = [] := by
  cases ended : scanner.atEnd with
  | true =>
    rw [readMore_of_atEnd ended]
    exact ⟨rfl, rfl⟩
  | false =>
    cases room : grown? scanner.capacity (scanner.pending.length + scanner.chunk) with
    | none =>
      rw [readMore_of_noRoom ended room]
      exact ⟨rfl, rfl⟩
    | some capacity =>
      rw [readMore_of_room ended room]
      unfold answered
      split
      case h_1 cause failed => exact ⟨rfl, rfl⟩
      case h_2 bytes read => split <;> exact ⟨rfl, rfl⟩

/-- A move with `advance` of a scanner that finds what is `Beyond` finds nothing else. -/
theorem Beyond.advance (beyond : scanner.Beyond cut) :
    scanner.advance.2.Beyond cut ∧
      ∀ frame ∈ framesAmong scanner.advance.1.toList, cut < frame.offset + maxHeaderLength := by
  have leads := beyond.step
  unfold Scanner.advance
  generalize scanner.step = step at leads
  cases step with
  | found frame after =>
    refine ⟨.inl leads.2, fun found isFound => ?_⟩
    rw [List.mem_singleton.mp isFound]
    exact leads.1
  | moved after => exact ⟨.inl leads, fun _ isFound => nomatch isFound⟩
  | needsBytes after =>
    obtain ⟨position, nothing⟩ := readMore_keeps after
    dsimp only
    rw [nothing]
    exact ⟨.inl (position.symm ▸ leads), fun _ isFound => nomatch isFound⟩

/-- All that such a scanner still collects is beyond the cut, by induction on how often it may
move. -/
theorem Beyond.collect {scanner : Scanner} (beyond : scanner.Beyond cut) (found : Array Item) :
    ∃ behind, framesAmong (scanner.collect found).1.toList =
        framesAmong found.toList ++ behind ∧
      ∀ frame ∈ behind, cut < frame.offset + maxHeaderLength := by
  by_cases finished : scanner.finished = true
  · rw [Scanner.collect, dif_pos finished]
    exact ⟨[], (List.append_nil _).symm, List.forall_mem_nil _⟩
  · obtain ⟨later, isBeyond⟩ := beyond.advance
    have less := remaining_advance_lt scanner (Bool.eq_false_iff.mpr finished)
    obtain ⟨behind, collected, areBehind⟩ :=
      later.collect (scanner.advance.1.elim found found.push)
    refine ⟨framesAmong scanner.advance.1.toList ++ behind, ?_, ?_⟩
    · rw [collect_of_running finished, collected, framesAmong_elim_push, List.append_assoc]
    · intro frame isFound
      rcases List.mem_append.mp isFound with isNow | isLater
      · exact isBeyond frame isNow
      · exact areBehind frame isLater
  termination_by scanner.remaining

end Beyond

/-! ## At the end of a content -/

/-- A scanner is finished, or lacks bytes where its source ends, so that no read brings it
further. -/
def Spent (scanner : Scanner) : Prop :=
  scanner.finished = true ∨
    (∃ after, scanner.step = .needsBytes after) ∧ scanner.source.Honest ∧
      scanner.position + scanner.pending.length = scanner.source.content.size

/-- A stage that is `Starved` lacks bytes. -/
theorem step_of_starved {scanner : Scanner} (starved : Starved scanner) :
    ∃ after, scanner.step = .needsBytes after := by
  unfold Starved at starved
  cases stage : scanner.stage with
  | seeking =>
    rw [stage] at starved
    refine ⟨scanner.pass 0 .seeking, ?_⟩
    rw [step, stage]
    simp only [seekSync, starved, List.takeWhile_nil, List.length_nil, List.drop_nil,
      List.isEmpty_nil, if_true]
  | candidate =>
    rw [stage] at starved
    refine ⟨scanner, ?_⟩
    rw [step, stage]
    dsimp only
    unfold judgeCandidate
    split
    case h_1 first second rest held =>
      rw [held] at starved
      simp only [List.length_cons] at starved
      omega
    case h_2 tooFew => rfl
  | decoding =>
    rw [stage] at starved
    refine ⟨scanner, ?_⟩
    have tooFew : (scanner.pending.take maxHeaderLength).length < maxHeaderLength :=
      Nat.lt_of_le_of_lt (List.length_take_le' _ _) starved
    rw [step, stage]
    dsimp only
    rw [decodeFrame, if_pos tooFew]

/-- A move with `advance` of a `Spent` scanner finds nothing, and leaves it spent. -/
theorem Spent.advance {scanner : Scanner} (spent : scanner.Spent)
    (running : ¬ scanner.finished = true) :
    scanner.advance.2.Spent ∧ framesAmong scanner.advance.1.toList = [] := by
  obtain ⟨⟨after, lacks⟩, honest, reach⟩ := spent.resolve_left running
  obtain ⟨waits, starved⟩ := (lacks ▸ follows_step scanner).of_needsBytes
  have looked : scanner.advance = after.readMore := by rw [Scanner.advance, lacks]
  rw [looked]
  refine ⟨?_, (readMore_keeps after).2⟩
  cases ended : after.atEnd with
  | true =>
    rw [readMore_of_atEnd ended]
    exact .inl rfl
  | false =>
    cases room : grown? after.capacity (after.pending.length + after.chunk) with
    | none =>
      rw [readMore_of_noRoom ended room]
      exact .inl rfl
    | some capacity =>
      rw [readMore_of_room ended room, waits.source, waits.reach]
      rcases Nat.lt_or_ge after.chunk sizeLimit with fits | large
      · obtain ⟨read, same⟩ := readAt_of_honest honest (Nat.le_of_eq reach) fits
        rw [read, Content.slice_eq_nil _ _ _ (Nat.le_of_eq reach.symm)]
        refine .inr ⟨step_of_starved starved, honest.of_sameMedium same, ?_⟩
        exact (waits.reach.trans reach).trans (congrArg Array.size same.content.symm)
      · rw [ByteSource.readAt, if_pos large]
        exact .inl rfl

/-- A `Spent` scanner collects no frames. -/
theorem Spent.collect {scanner : Scanner} (spent : scanner.Spent) (found : Array Item) :
    framesAmong (scanner.collect found).1.toList = framesAmong found.toList := by
  by_cases finished : scanner.finished = true
  · rw [Scanner.collect, dif_pos finished]
  · obtain ⟨later, nothing⟩ := spent.advance finished
    have less := remaining_advance_lt scanner (Bool.eq_false_iff.mpr finished)
    rw [collect_of_running finished, later.collect, framesAmong_elim_push, nothing,
      List.append_nil]
  termination_by scanner.remaining

/-! ## Two scanners side by side -/

/-- The scanner on another source, with more bytes behind those at hand. -/
def holding (scanner : Scanner) (ahead : List UInt8) (source : ByteSource) : Scanner :=
  { scanner with source, pending := scanner.pending ++ ahead }

section Holding

variable (scanner : Scanner) (ahead : List UInt8) (source : ByteSource)

theorem holding_nil : scanner.holding [] source = scanner.onSource source := by
  rw [holding, List.append_nil]
  rfl

theorem pass_holding {count : Nat} (held : count ≤ scanner.pending.length) (stage : ScanStage) :
    (scanner.holding ahead source).pass count stage =
      (scanner.pass count stage).holding ahead source := by
  simp only [holding, pass, List.drop_append_of_le_length held]

/-- More bytes at hand, by `holding`, do not bring what is `Beyond` any closer. -/
theorem Beyond.holding {cut : Nat} (beyond : scanner.Beyond cut) :
    (scanner.holding ahead source).Beyond cut := by
  rcases beyond with near | ⟨seeking, passed⟩
  · exact .inl near
  · refine .inr ⟨seeking, Nat.le_trans passed (Nat.add_le_add_left ?_ _)⟩
    simp only [Scanner.holding]
    rw [List.takeWhile_append]
    split
    case isTrue all =>
      rw [List.length_append]
      exact Nat.le_trans (length_takeWhile_le _) (Nat.le_add_right _ _)
    case isFalse stops => exact Nat.le_refl _

/-- A search that finds a sync byte finds the same one with more bytes behind. -/
theorem seekSync_holding :
    (scanner.holding ahead source).seekSync = scanner.seekSync.map (·.holding ahead source) ∨
      ∃ after, scanner.seekSync = .needsBytes after := by
  have bound := length_takeWhile_le scanner.pending
  by_cases nothingLeft : (scanner.pending.drop
      (scanner.pending.takeWhile (· ≠ syncByte)).length).isEmpty = true
  · exact .inr ⟨_, by rw [seekSync, if_pos nothingLeft]⟩
  · left
    have stops : (scanner.pending.takeWhile (· ≠ syncByte)).length ≠ scanner.pending.length := by
      intro all
      rw [all, List.drop_length] at nothingLeft
      exact nothingLeft rfl
    have same : (scanner.holding ahead source).pending.takeWhile (· ≠ syncByte) =
        scanner.pending.takeWhile (· ≠ syncByte) := by
      simp only [holding]
      rw [List.takeWhile_append, if_neg stops]
    have left : ¬ ((scanner.holding ahead source).pending.drop
        (scanner.pending.takeWhile (· ≠ syncByte)).length).isEmpty = true := by
      simp only [holding]
      rw [List.drop_append_of_le_length bound, List.isEmpty_iff, List.append_eq_nil_iff]
      exact fun both => nothingLeft (List.isEmpty_iff.mpr both.1)
    rw [seekSync, same, if_neg left, seekSync, if_neg nothingLeft,
      pass_holding scanner ahead source bound]
    rfl

/-- A candidate with a byte behind it is judged by the two. -/
theorem judgeCandidate_holding :
    (scanner.holding ahead source).judgeCandidate =
        scanner.judgeCandidate.map (·.holding ahead source) ∨
      ∃ after, scanner.judgeCandidate = .needsBytes after := by
  rcases held : scanner.pending with _ | ⟨first, _ | ⟨second, rest⟩⟩
  · exact .inr ⟨scanner, by simp only [judgeCandidate, held]⟩
  · exact .inr ⟨scanner, by simp only [judgeCandidate, held]⟩
  · left
    have two : 2 ≤ scanner.pending.length := by
      rw [held]
      exact Nat.le_add_left 2 rest.length
    have more : (scanner.holding ahead source).pending = first :: second :: (rest ++ ahead) := by
      rw [holding, held]
      rfl
    simp only [judgeCandidate, held, more]
    split
    case isTrue opens => rfl
    case isFalse other =>
      split
      case isTrue sync => exact congrArg Step.moved (pass_holding _ _ _ (Nat.le_of_succ_le two) _)
      case isFalse noSync => exact congrArg Step.moved (pass_holding _ _ _ two _)

/-- A header is decoded from the sixteen bytes where it starts. -/
theorem decodeFrame_holding :
    (scanner.holding ahead source).decodeFrame =
        scanner.decodeFrame.map (·.holding ahead source) ∨
      ∃ after, scanner.decodeFrame = .needsBytes after := by
  rcases Nat.lt_or_ge scanner.pending.length maxHeaderLength with few | enough
  · right
    refine ⟨scanner, ?_⟩
    rw [decodeFrame, if_pos (Nat.lt_of_le_of_lt (List.length_take_le' _ _) few)]
  · left
    have window : (scanner.holding ahead source).pending.take maxHeaderLength =
        scanner.pending.take maxHeaderLength := List.take_append_of_le_length enough
    have whole : ¬ (scanner.pending.take maxHeaderLength).length < maxHeaderLength := by
      rw [List.length_take, Nat.min_eq_left enough]
      exact Nat.lt_irrefl _
    have accepts : (scanner.holding ahead source).accept? (scanner.pending.take maxHeaderLength) =
        scanner.accept? (scanner.pending.take maxHeaderLength) := rfl
    unfold decodeFrame
    dsimp only
    rw [window, if_neg whole, if_neg whole, accepts]
    split
    case h_1 rejected =>
      have two : 2 ≤ scanner.pending.length := Nat.le_trans (by decide) enough
      exact congrArg Step.moved (pass_holding _ _ _ two _)
    case h_2 header length accepted =>
      have bounds := FrameHeader.length_decode (decode_of_accept? accepted)
      have held : length ≤ scanner.pending.length := Nat.le_trans (Nat.le_of_lt bounds.2) enough
      rw [pass_holding scanner ahead source held]
      rfl

/-- A look, by `step`, that does not lack bytes leads to the same with more of them. -/
theorem step_holding :
    (scanner.holding ahead source).step = scanner.step.map (·.holding ahead source) ∨
      ∃ after, scanner.step = .needsBytes after := by
  have sameStage : (scanner.holding ahead source).stage = scanner.stage := rfl
  unfold step
  rw [sameStage]
  cases scanner.stage with
  | seeking => exact scanner.seekSync_holding ahead source
  | candidate => exact scanner.judgeCandidate_holding ahead source
  | decoding => exact scanner.decodeFrame_holding ahead source

end Holding

/-- A read that brings bytes, as `answered` takes them, has them stand behind those at hand. -/
theorem answered_of_ne_nil (scanner : Scanner) {bytes : List UInt8} (comes : bytes ≠ [])
    (source : ByteSource) :
    scanner.answered (.ok bytes) source =
      (none, { scanner with source, pending := scanner.pending ++ bytes }) := by
  have notEmpty : ¬ bytes.isEmpty = true := fun isEmpty => comes (List.isEmpty_iff.mp isEmpty)
  dsimp only [answered]
  rw [if_neg notEmpty]

/-- The scanner of the front has not come past the cut, and the one of the whole content holds
the same and stands where it does, with bytes ahead of it only when it has come to the cut. -/
structure Abreast (cut : Nat) (whole front : Scanner) : Prop where
  honest : whole.source.Honest
  honestFront : front.source.Honest
  isFront : front.source.content = whole.source.content.extract 0 cut
  inside : cut ≤ whole.source.content.size
  chunk_pos : 0 < front.chunk
  goesOn : front.atEnd = false
  reach : front.position + front.pending.length ≤ cut
  holds : ∃ ahead, whole = front.holding ahead whole.source ∧
    (ahead = [] ∨ front.position + front.pending.length = cut)

namespace Abreast

variable {cut : Nat} {whole front : Scanner}

theorem finished_eq (abreast : Abreast cut whole front) : whole.finished = front.finished := by
  obtain ⟨ahead, same, -⟩ := abreast.holds
  rw [same]
  rfl

/-- In front of the cut both hold the same. -/
theorem eq_onSource (abreast : Abreast cut whole front)
    (short : front.position + front.pending.length < cut) :
    whole = front.onSource whole.source := by
  obtain ⟨ahead, same, behind⟩ := abreast.holds
  rw [behind.resolve_right (Nat.ne_of_lt short), holding_nil] at same
  exact same

/-- Scanners that have gone on in the bytes that they had at hand are still side by side. -/
theorem of_reach (abreast : Abreast cut whole front) {after : Scanner} {ahead : List UInt8}
    (source : after.source = front.source) (chunk : after.chunk = front.chunk)
    (atEnd : after.atEnd = front.atEnd)
    (reach : after.position + after.pending.length = front.position + front.pending.length)
    (behind : ahead = [] ∨ front.position + front.pending.length = cut) :
    Abreast cut (after.holding ahead whole.source) after where
  honest := abreast.honest
  honestFront := source ▸ abreast.honestFront
  isFront := source ▸ abreast.isFront
  inside := abreast.inside
  chunk_pos := chunk ▸ abreast.chunk_pos
  goesOn := atEnd.trans abreast.goesOn
  reach := reach ▸ abreast.reach
  holds := ⟨ahead, rfl, reach ▸ behind⟩

/-- In front of the cut both read on alike, or both fail to. -/
theorem readMore (abreast : Abreast cut whole front)
    (short : front.position + front.pending.length < cut) :
    whole.readMore.1 = front.readMore.1 ∧ Abreast cut whole.readMore.2 front.readMore.2 := by
  obtain ⟨source, rfl⟩ : ∃ source, whole = front.onSource source :=
    ⟨_, abreast.eq_onSource short⟩
  have stopped (capacity : Nat) : Abreast cut
      ({ front with capacity, finished := true }.onSource source)
      { front with capacity, finished := true } :=
    ⟨abreast.honest, abreast.honestFront, abreast.isFront, abreast.inside, abreast.chunk_pos,
      abreast.goesOn, abreast.reach, [], (holding_nil _ source).symm, .inl rfl⟩
  cases room : grown? front.capacity (front.pending.length + front.chunk) with
  | none =>
    have failed : (front.onSource source).readMore = (some (.error (.io .tooManyBytes)),
        { front with finished := true }.onSource source) := readMore_of_noRoom abreast.goesOn room
    rw [failed, readMore_of_noRoom abreast.goesOn room]
    exact ⟨rfl, stopped front.capacity⟩
  | some capacity =>
    have answers : (front.onSource source).readMore =
        ({ front with capacity }.onSource source).answered
          (source.readAt (front.position + front.pending.length) front.chunk).1
          (source.readAt (front.position + front.pending.length) front.chunk).2 :=
      @readMore_of_room (front.onSource source) abreast.goesOn capacity room
    rw [answers, readMore_of_room abreast.goesOn room]
    rcases Nat.lt_or_ge front.chunk sizeLimit with fits | large
    · obtain ⟨bytes, ahead, afterFront, after, readFront, read, sameFront, same, comes, within,
          behind⟩ :=
        readAt_front abreast.honest abreast.honestFront abreast.isFront abreast.inside short
          abreast.chunk_pos fits
      change source.readAt _ _ = _ at read
      rw [read, readFront, answered_of_ne_nil _ comes,
        answered_of_ne_nil _ (List.append_ne_nil_of_left_ne_nil comes ahead)]
      refine ⟨rfl, abreast.honest.of_sameMedium same, abreast.honestFront.of_sameMedium sameFront,
        ?_, same.content.symm ▸ abreast.inside, abreast.chunk_pos, abreast.goesOn, ?_, ahead, ?_,
        ?_⟩
      · exact (sameFront.content.trans abreast.isFront).trans
          (congrArg (fun content : Content => content.extract 0 cut) same.content.symm)
      · rw [List.length_append, ← Nat.add_assoc]
        exact within
      · simp only [holding, onSource, List.append_assoc]
      · rw [List.length_append, ← Nat.add_assoc]
        exact behind
    · have fails (other : ByteSource) :
          other.readAt (front.position + front.pending.length) front.chunk =
            (.error .tooManyBytes, other) := by rw [ByteSource.readAt, if_pos large]
      rw [fails, fails]
      exact ⟨rfl, stopped capacity⟩

/-- A move of two scanners side by side. Either it leads both to the same, and finds what is in
front of the cut; or the scanner of the front lacks bytes at the cut, so that it finds no more,
and all that the other one is still to find is beyond. -/
theorem advance (abreast : Abreast cut whole front) :
    (whole.advance.1 = front.advance.1 ∧ Abreast cut whole.advance.2 front.advance.2 ∧
        ∀ frame ∈ framesAmong front.advance.1.toList, frame.offset + maxHeaderLength ≤ cut) ∨
      whole.Beyond cut ∧ front.Spent := by
  by_cases lacks : ∃ after, front.step = .needsBytes after
  · obtain ⟨after, lacks⟩ := lacks
    by_cases short : front.position + front.pending.length < cut
    · left
      obtain ⟨waits, starved⟩ := (lacks ▸ follows_step front).of_needsBytes
      have lacksToo : whole.step = .needsBytes (after.onSource whole.source) := by
        rw [abreast.eq_onSource short, step_onSource, lacks]
        rfl
      have waiting : Abreast cut (after.onSource whole.source) after :=
        holding_nil after whole.source ▸
          abreast.of_reach waits.source waits.chunk waits.atEnd waits.reach (.inl rfl)
      obtain ⟨same, later⟩ := waiting.readMore (waits.reach ▸ short)
      have nothing := (readMore_keeps after).2
      rw [Scanner.advance, lacksToo, Scanner.advance, lacks]
      exact ⟨same, later, fun frame isFound => by simp only [nothing, List.not_mem_nil] at isFound⟩
    · right
      have atCut := Nat.le_antisymm abreast.reach (Nat.le_of_not_lt short)
      have size : front.source.content.size = cut := by
        rw [abreast.isFront, Content.size_front abreast.inside]
      obtain ⟨ahead, same, -⟩ := abreast.holds
      refine ⟨?_, .inr ⟨⟨after, lacks⟩, abreast.honestFront, atCut.trans size.symm⟩⟩
      rw [same]
      exact (beyond_of_needsBytes lacks (Nat.le_of_eq atCut.symm)).holding _ _ _
  · left
    obtain ⟨ahead, same, behind⟩ := abreast.holds
    have alike := (front.step_holding ahead whole.source).resolve_right lacks
    rw [← same] at alike
    have follows := follows_step front
    unfold Scanner.advance
    rw [alike]
    generalize front.step = step at follows lacks
    cases follows with
    | found moved decoding here enough =>
      refine ⟨rfl, abreast.of_reach moved.source moved.chunk moved.atEnd moved.reach behind, ?_⟩
      intro frame isFound
      rw [List.mem_singleton.mp isFound, here]
      exact Nat.le_trans (Nat.add_le_add_left enough _) abreast.reach
    | moved moved =>
      exact ⟨rfl, abreast.of_reach moved.source moved.chunk moved.atEnd moved.reach behind,
        fun _ isFound => nomatch isFound⟩
    | needsBytes waits starved => exact absurd ⟨_, rfl⟩ lacks

/-- Two scanners side by side collect the same in front of the cut; the one of the front collects
nothing else, and what the other one collects then is beyond. -/
theorem collect {whole front : Scanner} (abreast : Abreast cut whole front)
    (found foundFront : Array Item) :
    ∃ common behind : List Frame,
      framesAmong (whole.collect found).1.toList =
        framesAmong found.toList ++ common ++ behind ∧
      framesAmong (front.collect foundFront).1.toList =
        framesAmong foundFront.toList ++ common ∧
      (∀ frame ∈ common, frame.offset + maxHeaderLength ≤ cut) ∧
      ∀ frame ∈ behind, cut < frame.offset + maxHeaderLength := by
  by_cases finished : front.finished = true
  · refine ⟨[], [], ?_, ?_, List.forall_mem_nil _, List.forall_mem_nil _⟩
    · rw [Scanner.collect, dif_pos (abreast.finished_eq.trans finished), List.append_nil,
        List.append_nil]
    · rw [Scanner.collect, dif_pos finished, List.append_nil]
  · rcases abreast.advance with ⟨same, later, inFront⟩ | ⟨beyond, spent⟩
    · have less := remaining_advance_lt front (Bool.eq_false_iff.mpr finished)
      obtain ⟨common, behind, collected, collectedFront, areInFront, areBehind⟩ :=
        later.collect (whole.advance.1.elim found found.push)
          (front.advance.1.elim foundFront foundFront.push)
      have running : ¬ whole.finished = true := fun isFinished =>
        finished (abreast.finished_eq.symm.trans isFinished)
      refine ⟨framesAmong front.advance.1.toList ++ common, behind, ?_, ?_, ?_, areBehind⟩
      · rw [collect_of_running running, collected, framesAmong_elim_push, same]
        simp only [List.append_assoc]
      · rw [collect_of_running finished, collectedFront, framesAmong_elim_push,
          List.append_assoc]
      · intro frame isCommon
        rcases List.mem_append.mp isCommon with isNow | isLater
        · exact inFront frame isNow
        · exact areInFront frame isLater
    · obtain ⟨behind, collected, areBehind⟩ := beyond.collect found
      refine ⟨[], behind, ?_, ?_, List.forall_mem_nil _, areBehind⟩
      · rw [collected, List.append_nil]
      · rw [spent.collect, List.append_nil]
  termination_by front.remaining

end Abreast

end Scanner

end FieldRecording
