import FieldRecording.Proofs.Repair.Doubling
import FieldRecording.Proofs.Repair.Mending

/-!
# What is kept of a torn stream

A torn stream is repaired by a cut, two edits and a move. Nothing of it is lost: the stream that
is left and the part that is cut off are the whole of it, but for the total and the text that
names the firmware, and no other file is touched. `Recovered` says so of the files, and
`exists_mendable_of_fixed` leads to it from a report alone.

What is left is a `Revision` of the stream up to the cut (`exists_revision`), and is read as such:
the frames before the cut are found again, and the total counts their samples
(`repair_keeps_frames`).
-/

namespace FieldRecording

open ByteSource Access

namespace PartialFile

/-! ## Marked streams -/

theorem Kind.runOn_holds {ε : Type} {test : Access ε Bool} {source after : ByteSource}
    {passed : Bool} (ran : test.runOn source = (.ok passed, after)) :
    (Kind.read.holds test).runOn source = (.ok passed, after) := by
  have attempted : (Access.attempt test : Access RepairError _).runOn source =
      (.ok (.ok passed), after) := by
    rw [runOn_attempt, ran]
  unfold Kind.read.holds
  rw [runOn_bind_of_ok attempted]
  rfl

/-- What `Kind.read` sees of a stream whose firmware is known. -/
theorem Kind.read_of_firmware {source : ByteSource} (honest : source.Honest)
    (notEmpty : 0 < source.content.size) {firmware : Firmware}
    (read : (Firmware.read.runOn source).1 = .ok firmware) :
    (Kind.read.runOn source).1 = .ok {
      isEmpty := false
      isFlac := true
      isStub := false
      isMarked := firmware.hasTag patchTag } := by
  have isFlac := (Firmware.of_read read).1
  have steady : Steady (Access.length : Access RepairError Nat) := .length
  obtain ⟨second, ranLength, same⟩ := steady.runOn_eq honest (.refl source) rfl
  obtain ⟨third, ranFlac, same⟩ := Flac.steady_isFlac.runOn_eq honest same isFlac
  obtain ⟨fourth, ranRead, _⟩ := Firmware.steady_read.runOn_eq honest same read
  have isMarked : (do return (← Firmware.read).hasTag patchTag :
      Access RecorderError Bool).runOn third = (.ok (firmware.hasTag patchTag), fourth) := by
    rw [runOn_bind_of_ok ranRead]
    rfl
  have notEmpty : (source.content.size == 0) = false := beq_false_of_ne (by omega)
  unfold Kind.read
  rw [runOn_bind_of_ok ranLength]
  dsimp only
  rw [notEmpty, if_neg Bool.false_ne_true, runOn_bind_of_ok (Kind.runOn_holds ranFlac), if_pos rfl,
    runOn_bind_of_ok (Kind.runOn_holds isMarked)]
  rfl

section Stream

variable {store : FileStore} {path : Path} {location : Location} {content : Content}
  {firmware : Firmware} (opens : Filing.Opens store path location content)
  (small : content.size < sizeLimit) (notEmpty : 0 < content.size)
  (read : (Firmware.read.runOn (.ofFile content)).1 = .ok firmware)

include opens small notEmpty read

/-- A marked stream that has a name has been repaired, as `inspect` reports. -/
theorem status_of_marked (marked : firmware.hasTag patchTag = true)
    (named : path.baseName ≠ temporaryName) : (check store path).status = .repaired := by
  obtain ⟨after, ran⟩ := exists_runOn_eq (Kind.read_of_firmware (honest_ofFile small) notEmpty read)
  rw [check, CheckResult.ofAccess_of_opens opens]
  unfold inspect
  rw [runOn_bind_of_ok ran]
  dsimp only
  rw [if_pos named, marked, if_pos rfl]
  rfl

/-- A stream that has no name yet is mended: `repair` comes to `mend`. -/
theorem runOn_repair_of_unnamed (unnamed : path.baseName = temporaryName) (mode : RunMode) :
    (repair mode path).runOn store = (mend mode path (check store path)).runOn store := by
  have kind := Kind.read_of_firmware (honest_ofFile small) notEmpty read
  obtain ⟨after, ran⟩ := exists_runOn_eq kind
  have seen : (check store path).cause = some (.partialFile false true false) := by
    rw [check, CheckResult.ofAccess_of_opens opens]
    unfold inspect
    rw [runOn_bind_of_ok ran]
    dsimp only
    rw [if_neg (not_not_intro unnamed), if_neg Bool.false_ne_true, if_neg Bool.false_ne_true,
      if_neg (by decide)]
    rfl
  unfold repair
  rw [Filing.runOn_bind_of_ok (Filing.runOn_liftedGet store)]
  dsimp only
  rw [seen]

end Stream

/-! ## What is written -/

theorem Plan.spelled_tag (plan : Plan) {firmware : Firmware} {words : List (List Char)}
    (spelled : firmware.Spelled words) : (plan.tag firmware).Spelled words := by
  have tagged : (firmware.withTag patchTag).Spelled words := spelled.withTag (by decide)
  unfold tag
  dsimp only
  split
  · exact tagged.withTag (by decide)
  · exact tagged

namespace Mendable

variable {store : FileStore} {path : Path} {location new fresh : Location} {content : Content}
  {firmware : Firmware} {plan : Plan}
  (mendable : Mendable store path location new fresh content firmware plan)

include mendable

/-- The text that names the firmware stands before the cut. -/
theorem place_bounds : (plan.tag firmware).place.start ≤ (plan.tag firmware).place.stop ∧
    26 ≤ (plan.tag firmware).place.start ∧
    (plan.tag firmware).place.stop ≤ (plan.kept content).size := by
  obtain ⟨start, starts, _, behind, _⟩ := mendable.exists_frameStart
  obtain ⟨layout⟩ :=
    StreamLayout.exists_of_read (honest_ofFile mendable.small) mendable.read starts
  obtain ⟨preamble, ordered, inside⟩ := layout.place_bounds
  simp only [Flac.preambleLength] at preamble
  rw [plan.place_tag, mendable.size_kept]
  exact ⟨ordered, by omega, Nat.le_trans inside behind⟩

variable (fits : (plan.tag firmware).FitsPlace)

include fits

/-- What is left is as long as the cut says, and is only `Retouched`. -/
theorem retouched : (plan.mended firmware content).size = plan.cut ∧
    Retouched firmware.place content (plan.mended firmware content) := by
  obtain ⟨ordered, _, inside⟩ := mendable.place_bounds
  have total := (Retouched.front (plan.tag firmware).place mendable.made.2).withTotal
    mendable.covered plan.total
  refine ⟨(Firmware.size_writtenTo fits ordered inside).trans mendable.size_kept, ?_⟩
  rw [← plan.place_tag firmware]
  exact total.writtenTo fits ordered inside

/-- What is left is a `Revision`, so that it is read as before, as far as it goes. -/
theorem exists_revision :
    ∃ start, Nonempty (Revision content (plan.mended firmware content) firmware start) := by
  obtain ⟨start, starts, _, behind, _⟩ := mendable.exists_frameStart
  obtain ⟨size, retouched⟩ := mendable.retouched fits
  exact ⟨start, Revision.exists_of_read mendable.small mendable.read starts retouched (by omega)⟩

/-- The marked firmware stands in its place in what is `mended`. -/
theorem slice_mended : (plan.mended firmware content).slice firmware.place.start
    firmware.place.length = (plan.tag firmware).padded := by
  obtain ⟨ordered, _, inside⟩ := mendable.place_bounds
  have stands := Firmware.slice_writtenTo fits ordered inside
  rwa [plan.place_tag] at stands

/-- It is read. -/
theorem read_mended : ∃ comment, (Firmware.read.runOn (.ofFile (plan.mended firmware content))).1 =
    .ok { plan.tag firmware with comment } := by
  obtain ⟨start, ⟨revision⟩⟩ := mendable.exists_revision fits
  obtain ⟨words, spelled⟩ := revision.spelled
  exact revision.read_eq (plan.spelled_tag spelled) (plan.place_tag firmware) fits
    (mendable.slice_mended fits)

/-- The stream has the `mendedName` that it was given. -/
theorem mendedName_mended : mendedName (plan.mended firmware content) = mendedName content := by
  obtain ⟨start, ⟨revision⟩⟩ := mendable.exists_revision fits
  obtain ⟨words, spelled⟩ := revision.spelled
  exact congrArg recoveredName (revision.start_of_written (plan.spelled_tag spelled)
    (plan.place_tag firmware) fits (mendable.slice_mended fits))

omit fits in
/-- So has the stream that is left when the comment does not fit. -/
theorem mendedName_kept : mendedName (plan.kept content) = mendedName content := by
  obtain ⟨start, starts, _, behind, _⟩ := mendable.exists_frameStart
  have size := mendable.size_kept
  have retouched (place : ByteRange) := (Retouched.front place mendable.made.2).withTotal
    mendable.covered plan.total
  obtain ⟨revision⟩ := Revision.exists_of_read mendable.small mendable.read starts
    (retouched firmware.place) (Nat.le_trans behind (Nat.le_of_eq size.symm))
  have bounds := revision.bounds
  apply congrArg recoveredName
  -- the text that names the firmware was not written to
  refine revision.start_of_same ((retouched ⟨0, 0⟩).slice_eq ?_ (.inr ?_) (.inr (Nat.zero_le _)))
  · rw [ByteRange.length]
    omega
  · omega

/-- The total is read. -/
theorem total_mended :
    (StreamField.totalSamples.read.runOn (.ofFile (plan.mended firmware content))).1 =
      .ok plan.total := by
  obtain ⟨ordered, behind, inside⟩ := mendable.place_bounds
  obtain ⟨size, _⟩ := mendable.retouched fits
  obtain ⟨front, third, second, last, reading⟩ := mendable.exists_reading
  have small := mendable.small
  have within := mendable.made.2
  have covered := mendable.covered
  have sizeFront := Content.size_front within
  exact Duration.total_of_slice (by omega) (by omega) reading.fits
    (Firmware.slice_writtenTo_of_apart fits ordered inside (.inl (by omega))) covered

end Mendable

/-! ## Where it is left -/

section Left

variable {store : FileStore} {path : Path} {location new fresh : Location} {content : Content}
  {firmware : Firmware} {plan : Plan}

/-- The files before the move, `mendedIn`, are a tree. -/
theorem Mendable.isTree_mended
    (mendable : Mendable store path location new fresh content firmware plan)
    (tree : store.IsTree) (part mended : Content) :
    ((store.put fresh part).put location mended).IsTree :=
  (tree.put (tree.isDirectory_of_leadsTo mendable.places.part) mendable.places.vacantPart.1
    part).put (tree.isDirectory_of_leadsTo mendable.places.source) mendable.places.isFile.1 mended

/-- What stands where when a stream is mended, by `content?`. -/
theorem Mendable.content?_mendedIn
    (mendable : Mendable store path location new fresh content firmware plan)
    (tree : store.IsTree) (other : Location) :
    (plan.mendedIn store location new fresh firmware content).content? other =
      if other = new then some (plan.mended firmware content)
      else if other = location then none
      else if other = fresh then some (content.extract plan.cut content.size)
      else store.content? other := by
  have held : ((store.put fresh (content.extract plan.cut content.size)).put location
      (plan.mended firmware content)).content? location = some (plan.mended firmware content) := by
    rw [FileStore.content?_put, if_pos rfl]
  have vacant : ((store.put fresh (content.extract plan.cut content.size)).put location
      (plan.mended firmware content)).content? new = none := by
    rw [FileStore.content?_put, if_neg mendable.places.apart.1.symm, FileStore.content?_put,
      if_neg mendable.places.ne]
    exact mendable.places.vacant.2
  rw [Plan.mendedIn, (mendable.isTree_mended tree _ _).content?_move held vacant]
  split
  · rfl
  · split
    · rfl
    · rename_i notLocation
      rw [FileStore.content?_put, if_neg notLocation, FileStore.content?_put]

theorem Mendable.isDirectory_mendedIn
    (mendable : Mendable store path location new fresh content firmware plan)
    (tree : store.IsTree) (other : Location) :
    (plan.mendedIn store location new fresh firmware content).isDirectory other =
      store.isDirectory other := by
  have held : ((store.put fresh (content.extract plan.cut content.size)).put location
      (plan.mended firmware content)).content? location = some (plan.mended firmware content) := by
    rw [FileStore.content?_put, if_pos rfl]
  exact (mendable.isTree_mended tree _ _).isDirectory_move held other

/-- The stream is found under its new name, where it `Opens`. -/
theorem Mendable.opens_mended
    (mendable : Mendable store path location new fresh content firmware plan)
    (tree : store.IsTree) :
    Filing.Opens (plan.mendedIn store location new fresh firmware content)
      (mendedPath path content) new (plan.mended firmware content) := by
  have same := mendable.isDirectory_mendedIn tree
  have here : (plan.mendedIn store location new fresh firmware content).here = store.here := rfl
  apply (mendable.places.target.of_isDirectory here same).opens
  · rw [same]
    exact mendable.places.vacant.1
  · rw [mendable.content?_mendedIn tree, if_pos rfl]

/-- The total that is stated is found doubled by `Plan.make` just when the check for that finds
it. -/
theorem Mendable.isDoubled_iff
    (mendable : Mendable store path location new fresh content firmware plan) :
    plan.isDoubled = (Duration.check store path).isAffected := by
  obtain ⟨front, third, second, last, reading⟩ := mendable.exists_reading
  rw [Bool.eq_iff_iff, reading.doubled, Duration.check,
    CheckResult.ofAccess_of_opens mendable.opens]
  rcases (Duration.inspect.runOn (.ofFile content)).1 with cause | result
  · constructor
    · rintro ⟨_, isOk, _⟩
      cases isOk
    · intro affected
      cases affected
  · constructor
    · rintro ⟨_, isOk, affected⟩
      cases isOk
      exact affected
    · exact fun affected => ⟨result, rfl, affected⟩

end Left

/-! ## Repairs that report a repaired file -/

section Fixed

variable {store after : FileStore} {path : Path} {result : FixResult}

/-- A result that a move comes before is that of the move. -/
theorem exists_of_rename {name : String} {made : Path → FixResult}
    (ran : ((do return made (← Filing.rename .perform path name)) :
      Filing RepairError FixResult).runOn store = (.ok result, after)) :
    ∃ destination, result = made destination := by
  rcases Filing.rename_bind_cases ran with ⟨_, isError, _⟩ | ⟨destination, isOk, _⟩
  · cases isError
  · exact ⟨destination, Except.ok.inj isOk⟩

/-- A file that is reported repaired was `Mendable`, and was mended. -/
theorem exists_mendable_of_fixed (bounded : store.Bounded)
    (ran : (repair .perform path).runOn store = (.ok result, after))
    (fixed : result.status = .fixed) :
    ∃ location new fresh content firmware plan,
      Mendable store path location new fresh content firmware plan ∧
      (plan.tag firmware).FitsPlace ∧
      after = plan.mendedIn store location new fresh firmware content ∧
      result.newPath = some (mendedPath path content) := by
  unfold repair at ran
  rw [Filing.runOn_bind_of_ok (Filing.runOn_liftedGet store)] at ran
  dsimp only at ran
  split at ran
  · obtain ⟨_, rfl⟩ := exists_of_rename ran
    cases fixed
  · obtain ⟨_, rfl⟩ := exists_of_rename ran
    cases fixed
  · rename_i seen
    obtain ⟨location, content, opens⟩ := CheckResult.exists_opens_of_cause seen
    have small := bounded location content opens.holds
    rcases mend_cases opens small (check store path) with
      ⟨reason, gaveUp⟩ | ⟨_, _, stopped⟩ | ⟨new, fresh, firmware, plan, mendable⟩
    · rw [gaveUp] at ran
      obtain ⟨_, rfl⟩ := exists_of_rename ran
      cases fixed
    · rw [stopped] at ran
      cases (Prod.mk.inj ran).1
    · by_cases fits : (plan.tag firmware).FitsPlace
      · rw [mendable.runOn_mend_of_fits fits] at ran
        obtain ⟨isResult, rfl⟩ := Prod.mk.inj ran
        obtain rfl := Except.ok.inj isResult
        exact ⟨location, new, fresh, content, firmware, plan, mendable, fits, rfl, rfl⟩
      · rw [mendable.runOn_mend_of_tooLong fits] at ran
        cases (Prod.mk.inj ran).1
  · obtain rfl := Except.ok.inj (Prod.mk.inj ran).1
    cases fixed

end Fixed

/-! ## Nothing is lost -/

/-- What the repair of a torn stream makes of the files. The stream is cut where its last frame
starts: what stands before is left under the new name, and what stands behind beside it, as a
fragment. -/
structure Recovered (store after : FileStore) (path newPath : Path)
    (location new fresh : Location) (content mended : Content) (firmware written : Firmware)
    (last : Frame) : Prop where
  opens : Filing.Opens store path location content
  read : (Firmware.read.runOn (.ofFile content)).1 = .ok firmware
  frames : ∃ front, ((findFrames true).runOn (.ofFile content)).1 = .ok (front ++ [last])
  gone : after.hasPath path = false ∧ after.content? location = none
  free : store.hasPath newPath = false
  opensNew : Filing.Opens after newPath new mended
  size : mended.size = last.offset
  retouched : Retouched firmware.place content mended
  freePart : store.hasPath (newPath ++ fragmentEnding) = false
  opensPart : Filing.Opens after (newPath ++ fragmentEnding) fresh
    (content.extract last.offset content.size)
  /-- No other file differs. -/
  others : ∀ other, other ≠ location → other ≠ new → other ≠ fresh →
    after.content? other = store.content? other
  directories : ∀ other, after.isDirectory other = store.isDirectory other
  readNew : (Firmware.read.runOn (.ofFile mended)).1 = .ok written
  tags : written.tags =
    if (Duration.check store path).isAffected then
      addTag (addTag firmware.tags patchTag) Duration.patchTag
    else addTag firmware.tags patchTag
  repaired : (check after newPath).status = .repaired

/-- A repair of a torn stream that reports a repaired file has lost nothing of it: `Recovered`
says what stands where then. -/
theorem repair_loses_nothing {store : FileStore} (tree : store.IsTree) (bounded : store.Bounded)
    {path : Path} {result : FixResult} {after : FileStore}
    (ran : (repair .perform path).runOn store = (.ok result, after))
    (fixed : result.status = .fixed) :
    ∃ newPath location new fresh content mended firmware written last,
      result.newPath = some newPath ∧
      Recovered store after path newPath location new fresh content mended firmware written
        last := by
  obtain ⟨location, new, fresh, content, firmware, plan, mendable, fits, rfl, named⟩ :=
    exists_mendable_of_fixed bounded ran fixed
  obtain ⟨front, third, second, last, reading⟩ := mendable.exists_reading
  obtain ⟨size, retouched⟩ := mendable.retouched fits
  obtain ⟨comment, readNew⟩ := mendable.read_mended fits
  obtain ⟨_, _, preamble, behind, _⟩ := mendable.exists_frameStart
  obtain ⟨notNew, notFresh⟩ := mendable.places.apart
  have holds := mendable.content?_mendedIn tree
  have same := mendable.isDirectory_mendedIn tree
  have here : (plan.mendedIn store location new fresh firmware content).here = store.here := rfl
  have vacated : (plan.mendedIn store location new fresh firmware content).content? location =
      none := by
    rw [holds, if_neg notNew, if_pos rfl]
  have opensNew := mendable.opens_mended tree
  refine ⟨mendedPath path content, location, new, fresh, content, plan.mended firmware content,
    firmware, { plan.tag firmware with comment }, last, named, {
      opens := mendable.opens
      read := mendable.read
      frames := ⟨front ++ [third, second], by rw [reading.frames, List.append_assoc]; rfl⟩
      gone := ⟨?_, vacated⟩
      free := mendable.places.free
      opensNew
      size := size.trans reading.cut.symm
      retouched
      freePart := mendable.places.freePart
      opensPart := ?_
      others := ?_
      directories := same
      readNew
      tags := ?_
      repaired := ?_ }⟩
  · rw [(mendable.places.source.of_isDirectory here same).hasPath_eq, same, vacated,
      mendable.places.isFile.1]
    rfl
  · apply (mendable.places.part.of_isDirectory here same).opens
    · rw [same]
      exact mendable.places.vacantPart.1
    · rw [holds, if_neg mendable.places.ne.symm, if_neg notFresh.symm, if_pos rfl, reading.cut]
  · intro other isNotOld isNotNew isNotFresh
    rw [holds, if_neg isNotNew, if_neg isNotOld, if_neg isNotFresh]
  · rw [← mendable.isDoubled_iff]
    exact plan.tags_tag firmware
  · have small := mendable.small
    have within := mendable.made.2
    simp only [Flac.preambleLength] at preamble
    exact status_of_marked opensNew (by omega) (by omega) readNew (plan.hasTag_tag firmware)
      (baseName_ne_temporaryName path _)

/-! ### A recording with room for tags -/

section Padded

open Duration

/-- The frames of the recording. -/
def paddedFrame (number : Nat) (check : UInt8) : Frame where
  index := number
  offset := 107 + 22 * number
  header := {
    blockingStrategy := .fixed
    blockSize := 4096
    sampleRate := 48000
    channelAssignment := .mono
    bitsPerSample := 24
    frameNumber := some number
    startingSample := none
    check }

theorem findFrames_padded : ((findFrames true).runOn (.ofFile padded)).1 =
    .ok [paddedFrame 0 0x7C, paddedFrame 1 0x7B, paddedFrame 2 0x72] :=
  plain_padded.findFrames_eq.trans (congrArg Except.ok (by decide +kernel))

theorem opens_padded : Filing.Opens paddedStore "data" ["data"] padded :=
  ⟨by decide +kernel, by decide +kernel⟩

/-- It does not say when it started. -/
theorem mendedName_padded : mendedName padded = undatedName := by
  have comments := plain_padded.comments_eq.trans
    (congrArg (Except.mapError FlacError.badComments) parse_padded)
  rw [mendedName, StartTime.read_of_comments plain_padded.isFlac comments]
  decide +kernel

/-- It is cut before its third frame. -/
theorem reading_plan_padded : Plan.Reading (.ofFile padded) ⟨24576, 8192, 151, true⟩ []
    (paddedFrame 0 0x7C) (paddedFrame 1 0x7B) (paddedFrame 2 0x72) where
  total := reading_padded.total
  frames := findFrames_padded
  cut := rfl
  doubled := ⟨fun _ => ⟨_, reading_padded.inspect_eq plain_padded.honest, rfl⟩, fun _ => rfl⟩
  samples := rfl
  fits := by decide

theorem runOn_repair_padded : ∃ result after,
    (repair .perform "data").runOn paddedStore = (.ok result, after) ∧ result.status = .fixed := by
  have untaken : taken? paddedStore [Path.withFileName "data" (mendedName padded),
      Path.withFileName "data" (mendedName padded ++ fragmentEnding)] = none := by
    rw [mendedName_padded]
    decide +kernel
  have found : paddedStore.vacantAt
      (Path.withFileName "data" (mendedName padded ++ fragmentEnding)) =
        .ok ["unknown_date.flac.truncated_part"] := by
    rw [mendedName_padded]
    decide +kernel
  have made := reading_plan_padded.make_eq plain_padded.honest
  have planned (fragment : Path) : ((shorten .plan "data" fragment).runOn paddedStore).1 =
      .ok ⟨24576, 8192, 151, true⟩ :=
    congrArg Prod.fst (runOn_shorten_plan opens_padded made (by decide +kernel))
  obtain ⟨new, mendable⟩ := exists_mendable opens_padded (by decide) plain_padded.small
    reading_padded.read untaken (planned _) found
  have fits : (Plan.tag ⟨24576, 8192, 151, true⟩ paddedFirmware).FitsPlace := by
    unfold Firmware.FitsPlace
    decide +kernel
  have mends := runOn_repair_of_unnamed opens_padded plain_padded.small (by decide +kernel)
    reading_padded.read (by decide) .perform
  exact ⟨_, _, mends.trans (mendable.runOn_mend_of_fits fits _), rfl⟩

theorem isTree_padded : paddedStore.IsTree :=
  FileStore.isTree_of_mem rfl (by decide +kernel) (by decide +kernel)

end Padded

/-- Nothing of that recording is lost. -/
theorem repair_loses_nothing_of_padded :
    ∃ result after, (repair .perform "data").runOn Duration.paddedStore = (.ok result, after) ∧
      result.status = .fixed ∧
      ∃ newPath location new fresh content mended firmware written last,
        result.newPath = some newPath ∧
        Recovered Duration.paddedStore after "data" newPath location new fresh content mended
          firmware written last := by
  obtain ⟨result, after, ran, fixed⟩ := runOn_repair_padded
  exact ⟨result, after, ran, fixed,
    repair_loses_nothing isTree_padded Duration.bounded_paddedStore ran fixed⟩

/-! ## Frames are kept -/

/-- Where there is room for a header between the last two frames, the repaired stream has all
frames of the torn one but the last, and states as many samples as they have. -/
theorem repair_keeps_frames {store : FileStore} (tree : store.IsTree) (bounded : store.Bounded)
    {path : Path} {result : FixResult} {after : FileStore}
    (ran : (repair .perform path).runOn store = (.ok result, after))
    (fixed : result.status = .fixed) {location : Location} {content : Content}
    (opens : Filing.Opens store path location content) {front : List Frame} {second last : Frame}
    (found : ((findFrames true).runOn (.ofFile content)).1 = .ok (front ++ [second, last]))
    (apart : second.offset + maxHeaderLength ≤ last.offset) :
    ∃ newPath new mended total, result.newPath = some newPath ∧
      Filing.Opens after newPath new mended ∧
      ((findFrames true).runOn (.ofFile mended)).1 = .ok (front ++ [second]) ∧
      samplesOfFrames (front ++ [second]) = .ok total ∧
      (StreamField.totalSamples.read.runOn (.ofFile mended)).1 = .ok total := by
  obtain ⟨location', new, fresh, content', firmware, plan, mendable, fits, rfl, named⟩ :=
    exists_mendable_of_fixed bounded ran fixed
  obtain ⟨rfl, rfl⟩ := mendable.opens.unique opens
  obtain ⟨before, third, second', last', reading⟩ := mendable.exists_reading
  -- the last three frames that the plan goes by are those of the full search
  have frames := Except.ok.inj (found.symm.trans reading.frames)
  rw [List.append_cons before third] at frames
  obtain ⟨rfl, lastTwo⟩ := List.append_inj' frames rfl
  obtain ⟨rfl, lastOne⟩ := List.cons.inj lastTwo
  obtain ⟨rfl, _⟩ := List.cons.inj lastOne
  obtain ⟨size, _⟩ := mendable.retouched fits
  obtain ⟨start, ⟨revision⟩⟩ := mendable.exists_revision fits
  refine ⟨mendedPath path content, new, plan.mended firmware content, plan.total, named,
    mendable.opens_mended tree,
    revision.findFrames_of_cut found (size.trans reading.cut.symm) apart,
    ?_, mendable.total_mended fits⟩
  rw [List.append_assoc]
  exact (samplesOfFrames_append before third second).trans reading.samples

/-- The first two of its three frames are found again. -/
theorem repair_keeps_frames_of_padded :
    ∃ result after, (repair .perform "data").runOn Duration.paddedStore = (.ok result, after) ∧
      result.status = .fixed ∧
      ∃ newPath new mended, result.newPath = some newPath ∧
        Filing.Opens after newPath new mended ∧
        ((findFrames true).runOn (.ofFile mended)).1 =
          .ok [paddedFrame 0 0x7C, paddedFrame 1 0x7B] ∧
        (StreamField.totalSamples.read.runOn (.ofFile mended)).1 = .ok 8192 := by
  obtain ⟨result, after, ran, fixed⟩ := runOn_repair_padded
  have apart : (paddedFrame 1 0x7B).offset + maxHeaderLength ≤ (paddedFrame 2 0x72).offset := by
    decide
  have found : ((findFrames true).runOn (.ofFile Duration.padded)).1 =
      .ok ([paddedFrame 0 0x7C] ++ [paddedFrame 1 0x7B, paddedFrame 2 0x72]) := findFrames_padded
  obtain ⟨newPath, new, mended, total, named, opens, frames, counted, stated⟩ :=
    repair_keeps_frames isTree_padded Duration.bounded_paddedStore ran fixed opens_padded found
      apart
  obtain rfl : 8192 = total := Except.ok.inj counted
  exact ⟨result, after, ran, fixed, newPath, new, mended, named, opens, frames, stated⟩

end PartialFile

end FieldRecording
