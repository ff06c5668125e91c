import FieldRecording.Proofs.Files.Planning
import FieldRecording.Proofs.Files.Tree
import FieldRecording.Proofs.Repair.Evidence
import FieldRecording.Proofs.Repair.Naming
import FieldRecording.Proofs.Repair.Retouching

/-!
# Mending a torn stream

A stream is cut (`splitOff`), its total and its comment are written, and it is given a name. All
that can be in the way is found out before the first of these, but for a comment that does not fit
its place: where a file can be created for the part that is cut off, the rest can have its name.
`Mendable` is a stream with nothing else in the way, and `mend_cases` says what becomes of the
others: they are put aside, or left alone.

What the files are in between is given by `Plan.cutIn` after the cut and `Plan.mendedIn` after the
edits, so that each step is one equation about `runOn`.
-/

namespace FieldRecording

/-- Whether a repair failed for a comment that does not fit its place, which is the one failure
that leaves a file changed. -/
def RepairError.isTooLong : RepairError → Bool
  | .recorder (.tagsTooLong _ _) => true
  | _ => false

namespace PartialFile

open ByteSource

variable {store : FileStore} {path fragment : Path} {location : Location} {content : Content}
  {plan : Plan} {cause : RepairError}

/-- The name that the file at a path gets when it is mended: its `recoveredName`. -/
def mendedName (content : Content) : String :=
  recoveredName (StartTime.read.runOn (.ofFile content)).1

/-- What is no stream does not say when it started. -/
theorem mendedName_of_ne_signature (other : content.slice 0 4 ≠ Flac.signature) :
    mendedName content = undatedName := by
  unfold mendedName
  cases read : (StartTime.read.runOn (.ofFile content)).1 with
  | error cause => rfl
  | ok start =>
    have isFlac := StartTime.isFlac_of_read read
    exact absurd (Flac.firstBlock_of_isFlac isFlac).1 other

/-! ## Cutting -/

/-- What `shorten` finds out to be in the way it finds out before it changes anything. -/
theorem runOn_shorten_of_error (opens : Filing.Opens store path location content)
    (failed : ((shorten .plan path fragment).runOn store).1 = .error cause) (mode : RunMode) :
    (shorten mode path fragment).runOn store = (.error cause, store) := by
  have looked := Filing.runOn_inspect opens Plan.make
  unfold shorten at failed ⊢
  rcases made : (Plan.make.runOn (.ofFile content)).1 with cause' | plan
  · rw [made] at looked
    rw [Filing.runOn_bind_of_error looked] at failed ⊢
    rw [Except.error.inj failed]
  · rw [made] at looked
    rw [Filing.runOn_bind_of_ok looked] at failed ⊢
    by_cases past : content.size < plan.cut
    · have cut (mode : RunMode) : (Filing.splitOff mode path fragment plan.cut).runOn store =
          (.error (.cutPastEnd plan.cut content.size), store) :=
        Filing.runOn_splitOff_of_lt mode opens past
      rw [Filing.runOn_bind_of_error (Filing.runOn_lift_of_error (cut _))] at failed ⊢
      rw [Except.error.inj failed]
    · have within := Nat.le_of_not_lt past
      rw [Filing.runOn_bind_of_ok
        (Filing.runOn_lift_of_ok (Filing.runOn_splitOff_plan opens within))] at failed
      cases failed

/-- A plan to cut a file changes nothing. -/
theorem runOn_shorten_plan (opens : Filing.Opens store path location content)
    (made : (Plan.make.runOn (.ofFile content)).1 = .ok plan) (within : plan.cut ≤ content.size) :
    (shorten .plan path fragment).runOn store = (.ok plan, store) := by
  have looked := Filing.runOn_inspect opens Plan.make
  rw [made] at looked
  unfold shorten
  rw [Filing.runOn_bind_of_ok looked, Filing.runOn_bind_of_ok
    (Filing.runOn_lift_of_ok (Filing.runOn_splitOff_plan opens within))]
  rfl

/-- It has looked at all of the file. -/
theorem of_runOn_shorten_plan (opens : Filing.Opens store path location content)
    (planned : ((shorten .plan path fragment).runOn store).1 = .ok plan) :
    (Plan.make.runOn (.ofFile content)).1 = .ok plan ∧ plan.cut ≤ content.size := by
  have looked := Filing.runOn_inspect opens Plan.make
  rcases made : (Plan.make.runOn (.ofFile content)).1 with cause | found
  · rw [made] at looked
    unfold shorten at planned
    rw [Filing.runOn_bind_of_error looked] at planned
    cases planned
  · by_cases past : content.size < found.cut
    · rw [made] at looked
      unfold shorten at planned
      rw [Filing.runOn_bind_of_ok looked, Filing.runOn_bind_of_error
        (Filing.runOn_lift_of_error (Filing.runOn_splitOff_of_lt .plan opens past))] at planned
      cases planned
    · have within := Nat.le_of_not_lt past
      rw [runOn_shorten_plan opens made within] at planned
      obtain rfl := Except.ok.inj planned
      exact ⟨rfl, within⟩

/-- The start of a stream that is kept, with the number of samples in it: the content up to the
`cut`, and `withTotal`. -/
def Plan.kept (plan : Plan) (content : Content) : Content :=
  StreamInfo.withTotal (content.extract 0 plan.cut) plan.total

/-- The files after the file at a location is cut as planned, and the rest of it is put into a new
file: what `shorten` leaves. -/
def Plan.cutIn (plan : Plan) (store : FileStore) (location fresh : Location)
    (content : Content) : FileStore :=
  ((store.put fresh (content.extract plan.cut content.size)).put location
    (content.extract 0 plan.cut)).put location (plan.kept content)

/-- The stream that is left, `kept`, with its firmware marked. -/
def Plan.mended (plan : Plan) (firmware : Firmware) (content : Content) : Content :=
  (plan.tag firmware).writtenTo (plan.kept content)

/-- The files after a torn stream is mended, before it is given its name. -/
def Plan.mendedIn (plan : Plan) (store : FileStore) (location new fresh : Location)
    (firmware : Firmware) (content : Content) : FileStore :=
  ((store.put fresh (content.extract plan.cut content.size)).put location
    (plan.mended firmware content)).move location new

/-- Cutting makes one new file, and the file that is cut is there again: the store `Gains` the
part. -/
theorem Plan.gains_cutIn (plan : Plan) (opens : Filing.Opens store path location content)
    {fresh : Location} (found : store.vacantAt fragment = .ok fresh) :
    store.Gains (plan.cutIn store location fresh content) fresh :=
  ((FileStore.gains_put (FileStore.content?_of_vacantAt found) _).put opens.holds _).put
    opens.holds _

theorem Plan.opens_cutIn (plan : Plan) (opens : Filing.Opens store path location content)
    {fresh : Location} (found : store.vacantAt fragment = .ok fresh) :
    Filing.Opens (plan.cutIn store location fresh content) path location (plan.kept content) := by
  refine opens.of_gains (plan.gains_cutIn opens found) ?_
  rw [cutIn, FileStore.content?_put, if_pos rfl]

/-- A stream is cut as planned by `shorten` if a file can be created for the part that is cut off.
-/
theorem runOn_shorten_perform (opens : Filing.Opens store path location content)
    (small : content.size < sizeLimit)
    (isFlac : (Flac.isFlac.runOn (.ofFile content)).1 = .ok true)
    (planned : ((shorten .plan path fragment).runOn store).1 = .ok plan) {fresh : Location}
    (found : store.vacantAt fragment = .ok fresh) :
    (shorten .perform path fragment).runOn store =
      (.ok plan, plan.cutIn store location fresh content) := by
  rcases of_runOn_shorten_plan opens planned with ⟨made, within⟩
  rcases Plan.bounds_of_make (honest_ofFile small) isFlac made with ⟨fits, behind⟩
  have looked := Filing.runOn_inspect opens Plan.make
  rw [made] at looked
  have cut := Filing.runOn_lift_of_ok (Filing.runOn_splitOff_perform opens within found)
  have gains := (FileStore.gains_put (FileStore.content?_of_vacantAt found)
    (content.extract plan.cut content.size)).put opens.holds (content.extract 0 plan.cut)
  have reopens : Filing.Opens _ path location (content.extract 0 plan.cut) :=
    opens.of_gains gains (by rw [FileStore.content?_put, if_pos rfl])
  have size : (content.extract 0 plan.cut).size = plan.cut := by
    rw [Array.size_extract]
    omega
  simp only [Flac.preambleLength] at behind
  have edited := StreamInfo.runOn_editTotal reopens (by omega) (by omega) fits
  unfold shorten
  rw [Filing.runOn_bind_of_ok looked, Filing.runOn_bind_of_ok cut, Filing.runOn_bind_of_ok edited]
  rfl

/-- So it does if there is no place for the part that is cut off. -/
theorem runOn_shorten_of_vacantAt (opens : Filing.Opens store path location content)
    (planned : ((shorten .plan path fragment).runOn store).1 = .ok plan) {cause : IoError}
    (noPlace : store.vacantAt fragment = .error cause) :
    (shorten .perform path fragment).runOn store = (.error (.io cause), store) := by
  rcases of_runOn_shorten_plan opens planned with ⟨made, within⟩
  have looked := Filing.runOn_inspect opens Plan.make
  rw [made] at looked
  unfold shorten
  rw [Filing.runOn_bind_of_ok looked, Filing.runOn_bind_of_error
    (Filing.runOn_lift_of_error (Filing.runOn_splitOff_of_error opens within noPlace))]

/-! ## Places -/

/-- The locations of a torn stream, of the stream that it becomes and of what is cut off. Only the
first one is taken. -/
structure Places (store : FileStore) (path newPath : Path) (old new fresh : Location) :
    Prop where
  source : store.LeadsTo path old
  target : store.LeadsTo newPath new
  part : store.LeadsTo (newPath ++ fragmentEnding) fresh
  isFile : store.isDirectory old = false ∧ (store.content? old).isSome = true
  free : store.hasPath newPath = false
  freePart : store.hasPath (newPath ++ fragmentEnding) = false
  ne : new ≠ fresh

/-- Where a file can be created for what is cut off, by `vacantAt`, there are `Places` for the
stream. -/
theorem places_of_vacantAt (opens : Filing.Opens store path location content)
    (start : Except RecorderError StartTime)
    (free : store.hasPath (path.withFileName (recoveredName start)) = false) {fresh : Location}
    (found : store.vacantAt (path.withFileName (recoveredName start) ++ fragmentEnding) =
      .ok fresh) :
    ∃ new, Places store path (path.withFileName (recoveredName start)) location new fresh := by
  obtain ⟨part, freePart⟩ := FileStore.LeadsTo.of_vacantAt found
  obtain ⟨last, isLast, isName, notAbove⟩ := getLast?_segments path start
  obtain ⟨new, target, ne⟩ := part.front (by decide) (by decide) isLast isName notAbove
  have source : store.LeadsTo path location := FileStore.leadsTo_of_locate opens.locate rfl
  have notDirectory := (FileStore.isFile_of_locate opens.locate).1
  exact ⟨new, source, target, part, ⟨notDirectory, by rw [opens.holds]; rfl⟩, free, freePart, ne⟩

namespace Places

variable {newPath : Path} {old new fresh : Location}
  (places : Places store path newPath old new fresh)

include places

theorem vacant : store.isDirectory new = false ∧ store.content? new = none := by
  have free := places.free
  rw [places.target.hasPath_eq, Bool.or_eq_false_iff] at free
  exact ⟨free.1, Option.isNone_iff_eq_none.mp (Option.isSome_eq_false_iff.mp free.2)⟩

theorem vacantPart : store.isDirectory fresh = false ∧ store.content? fresh = none := by
  have free := places.freePart
  rw [places.part.hasPath_eq, Bool.or_eq_false_iff] at free
  exact ⟨free.1, Option.isNone_iff_eq_none.mp (Option.isSome_eq_false_iff.mp free.2)⟩

/-- The three places are not the same. -/
theorem apart : old ≠ new ∧ old ≠ fresh := by
  have there := places.isFile.2
  constructor
  · rintro rfl
    rw [places.vacant.2] at there
    cases there
  · rintro rfl
    rw [places.vacantPart.2] at there
    cases there

/-- The stream can be moved by `rename` after the part is put into its file. -/
theorem runOn_rename {name : String} (isName : path.withFileName name = newPath)
    {later : FileStore} (gains : store.Gains later fresh) :
    (Filing.rename .perform path name).runOn later = (.ok newPath, later.move old new) := by
  have same := gains.isDirectory_eq
  have target := places.target.of_isDirectory gains.here same
  have free : later.hasPath newPath = false := by
    rw [target.hasPath_eq, same, gains.others new places.ne, ← places.target.hasPath_eq]
    exact places.free
  have there : (later.content? old).isSome = true := by
    rw [gains.others old places.apart.2]
    exact places.isFile.2
  have route := (places.source.of_isDirectory gains.here same).routeOf_eq target
    (by rw [same]; exact places.isFile.1) there free
  rw [← isName] at route free ⊢
  exact Filing.runOn_rename_perform free route

end Places

/-! ## Mending -/

/-- Mending under a name that is free, of a stream whose firmware is known: the last case of
`mend`. -/
def mendAs (mode : RunMode) (path : Path) (check : CheckResult) (firmware : Firmware)
    (name : String) : Filing RepairError FixResult := do
  match ← Filing.attempt (shorten mode path (path.withFileName (name ++ fragmentEnding))) with
  | .error cause => giveUp mode path check ("Error while checking duration: " ++ cause.message)
  | .ok plan =>
    let _ ← mode.whenPerforming
      (Filing.edit path ((plan.tag firmware).write : Access RepairError _))
    let destination ← Filing.rename mode path name
    return {
      status := .fixed
      check
      message := some (
        s!"Partial file repaired. New name is {name}. " ++
        s!"Samples count was {plan.stated}, new samples count is: {plan.total}. " ++
        s!"File truncated at {plan.cut}.")
      newPath := some destination }

/-- A stream that cannot be cut is put aside. -/
theorem runOn_mendAs_of_error {mode : RunMode} {name : String}
    (failed : (shorten mode path (path.withFileName (name ++ fragmentEnding))).runOn store =
      (.error cause, store)) (check : CheckResult) (firmware : Firmware) :
    (mendAs mode path check firmware name).runOn store =
      (giveUp mode path check ("Error while checking duration: " ++ cause.message)).runOn
        store := by
  have attempted : (Filing.attempt (shorten mode path (path.withFileName
      (name ++ fragmentEnding))) : Filing RepairError _).runOn store =
      (.ok (.error cause), store) := by
    rw [Filing.runOn_attempt, failed]
  unfold mendAs
  rw [Filing.runOn_bind_of_ok attempted]

/-- What `mend` comes to for a file that can be opened for it. -/
theorem runOn_mend (opens : Filing.Opens store path location content) (mode : RunMode)
    (permitted : mode = .perform → store.isSealed location = false) (check : CheckResult) :
    (mend mode path check).runOn store =
      match (Firmware.read.runOn (.ofFile content)).1 with
      | .error cause =>
        (giveUp mode path check ("Error while checking firmware: " ++ cause.message)).runOn store
      | .ok firmware =>
        match taken? store [path.withFileName (mendedName content),
          path.withFileName (mendedName content ++ fragmentEnding)] with
        | some taken => (.error (.nameTaken taken), store)
        | none => (mendAs mode path check firmware (mendedName content)).runOn store := by
  unfold mend
  rw [Filing.runOn_bind_of_ok
    (Filing.runOn_lift_of_ok (Filing.runOn_openToRepair opens mode permitted))]
  dsimp only
  rcases (Firmware.read.runOn (.ofFile content)).1 with cause | firmware
  · rfl
  · dsimp only
    rw [Filing.runOn_bind_of_ok (Filing.runOn_liftedGet store)]
    unfold mendedName
    rcases taken? store [path.withFileName (recoveredName (StartTime.read.runOn _).1),
      path.withFileName (recoveredName (StartTime.read.runOn _).1 ++ fragmentEnding)] with
      _ | taken
    · rfl
    · rfl

/-- A file that cannot be opened for it is not mended. -/
theorem runOn_mend_of_sealed (opens : Filing.Opens store path location content)
    (isSealed : store.isSealed location = true) (check : CheckResult) :
    (mend .perform path check).runOn store = (.error (.io .permissionDenied), store) := by
  unfold mend
  rw [Filing.runOn_bind_of_error
    (Filing.runOn_lift_of_error (Filing.runOn_openToRepair_of_sealed opens isSealed))]

/-- The names that are asked about are free if none of them is taken. -/
theorem hasPath_of_taken? {first second : Path} (free : taken? store [first, second] = none) :
    store.hasPath first = false ∧ store.hasPath second = false := by
  have all := List.find?_eq_none.mp free
  exact ⟨Bool.not_eq_true _ ▸ all first (by simp), Bool.not_eq_true _ ▸ all second (by simp)⟩

/-- The path that the file at a path gets when it is mended. -/
def mendedPath (path : Path) (content : Content) : Path := path.withFileName (mendedName content)

theorem withFileName_fragment (path : Path) (content : Content) :
    path.withFileName (mendedName content ++ fragmentEnding) =
      mendedPath path content ++ fragmentEnding :=
  Path.withFileName_append path _ (by decide)

/-- What is reported when the file at a path is mended. -/
def Plan.report (plan : Plan) (path : Path) (content : Content) (check : CheckResult) :
    FixResult where
  status := .fixed
  check := check
  message := some (
    s!"Partial file repaired. New name is {mendedName content}. " ++
    s!"Samples count was {plan.stated}, new samples count is: {plan.total}. " ++
    s!"File truncated at {plan.cut}.")
  newPath := some (mendedPath path content)

/-- A torn stream with nothing in the way of a repair but the length of its comment: it was read,
it can be opened for writing, the names are free, and there are `Places` for what it becomes. -/
structure Mendable (store : FileStore) (path : Path) (location new fresh : Location)
    (content : Content) (firmware : Firmware) (plan : Plan) : Prop where
  opens : Filing.Opens store path location content
  writable : store.isSealed location = false
  small : content.size < sizeLimit
  read : (Firmware.read.runOn (.ofFile content)).1 = .ok firmware
  untaken : taken? store [path.withFileName (mendedName content),
    path.withFileName (mendedName content ++ fragmentEnding)] = none
  planned : ((shorten .plan path (path.withFileName (mendedName content ++ fragmentEnding))).runOn
    store).1 = .ok plan
  found : store.vacantAt (path.withFileName (mendedName content ++ fragmentEnding)) = .ok fresh
  places : Places store path (mendedPath path content) location new fresh

/-- Where a file can be created for what is cut off, nothing else is in the way: the stream is
`Mendable`. -/
theorem exists_mendable (opens : Filing.Opens store path location content)
    (writable : store.isSealed location = false) (small : content.size < sizeLimit)
    {firmware : Firmware}
    (read : (Firmware.read.runOn (.ofFile content)).1 = .ok firmware)
    (untaken : taken? store [path.withFileName (mendedName content),
      path.withFileName (mendedName content ++ fragmentEnding)] = none)
    (planned : ((shorten .plan path
      (path.withFileName (mendedName content ++ fragmentEnding))).runOn store).1 = .ok plan)
    {fresh : Location}
    (found : store.vacantAt (path.withFileName (mendedName content ++ fragmentEnding)) =
      .ok fresh) :
    ∃ new, Mendable store path location new fresh content firmware plan := by
  have part := found
  rw [withFileName_fragment] at part
  obtain ⟨new, places⟩ := places_of_vacantAt opens _ (hasPath_of_taken? untaken).1 part
  exact ⟨new, opens, writable, small, read, untaken, planned, found, places⟩

/-- Whatever is in the way of `mend`, a stream is put aside for it or left alone. -/
theorem mend_cases (opens : Filing.Opens store path location content)
    (small : content.size < sizeLimit) (check : CheckResult) :
    (∃ reason, (mend .perform path check).runOn store =
      (giveUp .perform path check reason).runOn store) ∨
    (∃ cause, cause.isTooLong = false ∧
      (mend .perform path check).runOn store = (.error cause, store)) ∨
    ∃ new fresh firmware plan, Mendable store path location new fresh content firmware plan := by
  cases writable : store.isSealed location with
  | true => exact .inr (.inl ⟨_, rfl, runOn_mend_of_sealed opens writable check⟩)
  | false =>
    rw [runOn_mend opens .perform fun _ => writable]
    rcases read : (Firmware.read.runOn (.ofFile content)).1 with cause | firmware
    · exact .inl ⟨_, rfl⟩
    dsimp only
    rcases untaken : taken? store [path.withFileName (mendedName content),
      path.withFileName (mendedName content ++ fragmentEnding)] with _ | taken
    · dsimp only
      rcases planned : ((shorten .plan path (path.withFileName
          (mendedName content ++ fragmentEnding))).runOn store).1 with cause | plan
      · have stopped := runOn_shorten_of_error opens planned .perform
        exact .inl ⟨_, runOn_mendAs_of_error stopped check _⟩
      · rcases found : store.vacantAt (path.withFileName
            (mendedName content ++ fragmentEnding)) with cause | fresh
        · have stopped := runOn_shorten_of_vacantAt opens planned found
          exact .inl ⟨_, runOn_mendAs_of_error stopped check _⟩
        · obtain ⟨new, mendable⟩ := exists_mendable opens writable small read untaken planned found
          exact .inr (.inr ⟨new, fresh, firmware, plan, mendable⟩)
    · exact .inr (.inl ⟨.nameTaken taken, rfl, rfl⟩)

namespace Mendable

variable {new fresh : Location} {firmware : Firmware}
  (mendable : Mendable store path location new fresh content firmware plan)

include mendable

theorem made : (Plan.make.runOn (.ofFile content)).1 = .ok plan ∧ plan.cut ≤ content.size :=
  of_runOn_shorten_plan mendable.opens mendable.planned

/-- What the plan goes by is read of the stream: its `Plan.Reading`. -/
theorem exists_reading : ∃ front third second last,
    plan.Reading (.ofFile content) front third second last :=
  Plan.reading_of_make (honest_ofFile mendable.small) mendable.made.1

/-- The stream is cut behind where its frames start, and more than a header is cut off. -/
theorem exists_frameStart : ∃ start, (MetadataChain.frameStart.runOn (.ofFile content)).1 =
    .ok start ∧ Flac.preambleLength ≤ start ∧ start ≤ plan.cut ∧
      plan.cut + maxHeaderLength ≤ content.size := by
  have honest := honest_ofFile mendable.small
  obtain ⟨front, third, second, last, reading⟩ := mendable.exists_reading
  obtain ⟨start, starts, bounds⟩ := reading.bounds honest
  have isFlac := (Firmware.of_read mendable.read).1
  exact ⟨start, starts, MetadataChain.preambleLength_le_frameStart isFlac starts, bounds⟩

/-- The total is on this side of the cut. -/
theorem covered : 26 ≤ (content.extract 0 plan.cut).size := by
  obtain ⟨start, _, preamble, behind, _⟩ := mendable.exists_frameStart
  simp only [Flac.preambleLength] at preamble
  rw [Content.size_front mendable.made.2]
  omega

theorem size_kept : (plan.kept content).size = plan.cut :=
  (StreamInfo.size_withTotal mendable.covered plan.total).trans
    (Content.size_front mendable.made.2)

/-- A plan reports a mended stream, whatever the length of the comment. -/
theorem runOn_mend_plan (check : CheckResult) :
    (mend .plan path check).runOn store = (.ok (plan.report path content check), store) := by
  obtain ⟨made, within⟩ := mendable.made
  have attempted : (Filing.attempt (shorten .plan path (path.withFileName
      (mendedName content ++ fragmentEnding))) : Filing RepairError _).runOn store =
      (.ok (.ok plan), store) := by
    rw [Filing.runOn_attempt, runOn_shorten_plan mendable.opens made within]
  rw [PartialFile.runOn_mend mendable.opens .plan nofun, mendable.read, mendable.untaken]
  dsimp only
  unfold mendAs
  rw [Filing.runOn_bind_of_ok attempted]
  dsimp only
  rw [Filing.runOn_bind_of_ok (Filing.runOn_whenPerforming_plan _ store), Filing.runOn_bind_of_ok
    (Filing.runOn_lift_of_ok (Filing.runOn_rename_plan mendable.places.free))]
  rfl

/-- Behind the cut, only the comment is left to be written by `mend`. -/
theorem runOn_mend (check : CheckResult) :
    (mend .perform path check).runOn store =
      (do
        let _ ← RunMode.perform.whenPerforming
          (Filing.edit path ((plan.tag firmware).write : Access RepairError _))
        let destination ← Filing.rename .perform path (mendedName content)
        return { plan.report path content check with newPath := some destination } :
        Filing RepairError FixResult).runOn (plan.cutIn store location fresh content) := by
  have isFlac := (Firmware.of_read mendable.read).1
  have attempted : (Filing.attempt (shorten .perform path (path.withFileName
      (mendedName content ++ fragmentEnding))) : Filing RepairError _).runOn store =
      (.ok (.ok plan), plan.cutIn store location fresh content) := by
    rw [Filing.runOn_attempt, runOn_shorten_perform mendable.opens mendable.small isFlac
      mendable.planned mendable.found]
  rw [PartialFile.runOn_mend mendable.opens .perform fun _ => mendable.writable, mendable.read,
    mendable.untaken]
  dsimp only
  unfold mendAs
  rw [Filing.runOn_bind_of_ok attempted]
  rfl

/-- The stream that is left in its new place. -/
theorem runOn_mend_of_fits (fits : (plan.tag firmware).FitsPlace) (check : CheckResult) :
    (mend .perform path check).runOn store =
      (.ok (plan.report path content check),
        plan.mendedIn store location new fresh firmware content) := by
  obtain ⟨_, ordered, inside⟩ :=
    Firmware.of_read mendable.read
  rw [← plan.place_tag firmware] at ordered inside
  have gains := plan.gains_cutIn mendable.opens mendable.found
  have reopens := plan.opens_cutIn mendable.opens mendable.found
  have edited := Firmware.runOn_edit reopens ordered
    (Nat.lt_of_le_of_lt inside mendable.small) fits
  have moved := mendable.places.runOn_rename rfl
    (gains.put mendable.opens.holds ((plan.tag firmware).writtenTo (plan.kept content)))
  rw [Plan.cutIn, FileStore.put_put, FileStore.put_put] at moved
  rw [mendable.runOn_mend, Filing.runOn_bind_of_ok edited, Plan.cutIn, FileStore.put_put,
    FileStore.put_put, Filing.runOn_bind_of_ok (Filing.runOn_lift_of_ok moved)]
  rfl

/-- A comment that does not fit is found out behind the cut. -/
theorem runOn_mend_of_tooLong (tooLong : ¬ (plan.tag firmware).FitsPlace) (check : CheckResult) :
    (mend .perform path check).runOn store =
      (.error (.recorder (.tagsTooLong (utf8Bytes (plan.tag firmware).render).length
        (plan.tag firmware).place.length)), plan.cutIn store location fresh content) := by
  have reopens := plan.opens_cutIn mendable.opens mendable.found
  have failed := Firmware.runOn_edit_of_tooLong reopens tooLong
  rw [mendable.runOn_mend, Filing.runOn_bind_of_error failed, Plan.cutIn, FileStore.put_put]

end Mendable

end PartialFile

end FieldRecording
