import FieldRecording.Proofs.Repair.Beside
import FieldRecording.Proofs.Repair.Keeping
import FieldRecording.Proofs.Repair.Planned

/-!
# What becomes of a file

A file that operations are applied to is followed from one repair to the next: it stands at the
path that the repairs have come to, what was cut off it stands beside it, and the two are together
as long as it was. `Account` says so, and is kept by every write, cut and move; a file is
`Accounted` for when there is one. `Settled` adds the copy, and what is left of all other files.

A cut is made while the file has the name of one that is being written, and the name of what is
cut off follows from what the file holds (`PartialFile.fragmentPath`); no repair changes that, so
that a second cut would find the name taken. This is why no more than one fragment is left.
-/

namespace FieldRecording

open ByteSource

/-- What was cut off a file, where it is kept. -/
structure Fragment where
  location : Location
  content : Content

/-- How many bytes were cut off. -/
def cutLength : Option Fragment → Nat
  | none => 0
  | some part => part.content.size

/-- The path at which what is cut off a torn stream is kept. -/
def PartialFile.fragmentPath (path : Path) (content : Content) : Path :=
  path.withFileName (mendedName content ++ fragmentEnding)

/-- A file that operations are applied to, as they find it. -/
structure Target where
  operations : List Operation
  store : FileStore
  path : Path
  location : Location
  content : Content
  opens : Filing.Opens store path location content

/-- What has become of a file, the `Target`: it stands at another path and location, with other
content, and a `Fragment` may have been cut off it. No other file has changed. -/
structure Account (target : Target) (store : FileStore) (path : Path) (location : Location)
    (content : Content) (fragment : Option Fragment) : Prop where
  tree : store.IsTree
  bounded : store.Bounded
  here : store.here = target.store.here
  directories : ∀ other, store.isDirectory other = target.store.isDirectory other
  opens : Filing.Opens store path location content
  moved : location ≠ target.location →
    target.store.content? location = none ∧ store.content? target.location = none
  /-- While the file can be cut, it is where it was, and its fragment would have the same
  name. -/
  unnamed : path.baseName = PartialFile.temporaryName →
    path = target.path ∧ PartialFile.mendedName content = PartialFile.mendedName target.content
  part : ∀ part, fragment = some part →
    .partialFile ∈ target.operations ∧ part.location ≠ location ∧
    target.store.LeadsTo (PartialFile.fragmentPath target.path target.content) part.location ∧
    target.store.content? part.location = none ∧
    store.content? part.location = some part.content
  others : ∀ other, other ≠ target.location → other ≠ location →
    (∀ part, fragment = some part → other ≠ part.location) →
    store.content? other = target.store.content? other
  size : content.size + cutLength fragment = target.content.size

/-- A file is accounted for when it stands at a path, with some `Account`. -/
def Accounted (target : Target) (store : FileStore) (path : Path) : Prop :=
  ∃ location content fragment, Account target store path location content fragment

namespace Account

variable {target : Target} {store : FileStore} {path : Path} {location : Location}
  {content : Content} {fragment : Option Fragment}

/-- A file is accounted for before anything is done. -/
theorem refl (target : Target) (tree : target.store.IsTree) (bounded : target.store.Bounded) :
    Account target target.store target.path target.location target.content none where
  tree := tree
  bounded := bounded
  here := rfl
  directories _ := rfl
  opens := target.opens
  moved ne := absurd rfl ne
  unnamed _ := ⟨rfl, rfl⟩
  part _ isPart := nomatch isPart
  others _ _ _ _ := rfl
  size := rfl

variable (account : Account target store path location content fragment)

include account

theorem small : content.size < sizeLimit := account.bounded location content account.opens.holds

theorem leadsTo : store.LeadsTo path location :=
  FileStore.leadsTo_of_locate account.opens.locate rfl

/-- Paths lead where they led. -/
theorem leadsTo_iff {other : Path} {place : Location} :
    store.LeadsTo other place ↔ target.store.LeadsTo other place :=
  ⟨fun leads => leads.of_isDirectory account.here.symm
      fun other => (account.directories other).symm,
    fun leads => leads.of_isDirectory account.here account.directories⟩

/-! ## Steps -/

/-- Of a write that keeps the length, an `Account` is left. -/
theorem write {written : Content} (size : written.size = content.size)
    (named : path.baseName = PartialFile.temporaryName →
      PartialFile.mendedName written = PartialFile.mendedName content) :
    Account target (store.put location written) path location written fragment where
  tree := account.tree.put (account.tree.isDirectory_of_leadsTo account.leadsTo)
    (account.tree.apart _ _ account.opens.holds) written
  bounded := account.bounded.put (size ▸ account.small) location
  here := account.here
  directories := account.directories
  opens := account.opens.put written
  moved ne := by
    rw [FileStore.content?_put, if_neg ne.symm]
    exact account.moved ne
  unnamed isUnnamed := by
    rw [named isUnnamed]
    exact account.unnamed isUnnamed
  part part isPart := by
    obtain ⟨cuts, apart, leads, vacant, holds⟩ := account.part part isPart
    rw [FileStore.content?_put, if_neg apart]
    exact ⟨cuts, apart, leads, vacant, holds⟩
  others other notTarget notHere notPart := by
    rw [FileStore.content?_put, if_neg notHere]
    exact account.others other notTarget notHere notPart
  size := by rw [size, account.size]

/-- Of a cut: it is the first one, and its part becomes the `Fragment`. -/
theorem divide (cuts : .partialFile ∈ target.operations)
    (isUnnamed : path.baseName = PartialFile.temporaryName) {fresh : Location}
    (found : store.vacantAt (PartialFile.fragmentPath path content) = .ok fresh)
    {kept part : Content} (size : kept.size + part.size = content.size)
    (named : PartialFile.mendedName kept = PartialFile.mendedName content) :
    Account target ((store.put fresh part).put location kept) path location kept
      (some ⟨fresh, part⟩) := by
  obtain ⟨rfl, sameName⟩ := account.unnamed isUnnamed
  obtain ⟨leads, free⟩ := FileStore.LeadsTo.of_vacantAt found
  rw [leads.hasPath_eq, Bool.or_eq_false_iff] at free
  have noFile : store.content? fresh = none := FileStore.content?_of_vacantAt found
  have leadsTarget := account.leadsTo_iff.mp leads
  rw [PartialFile.fragmentPath, sameName] at leadsTarget
  have here : location = target.location := account.leadsTo.unique
    (account.leadsTo_iff.mpr (FileStore.leadsTo_of_locate target.opens.locate rfl))
  -- an earlier fragment would stand where this one goes
  have uncut : fragment = none := by
    rcases isFragment : fragment with _ | earlier
    · rfl
    · obtain ⟨_, _, leads, _, holds⟩ := account.part earlier isFragment
      rw [leads.unique leadsTarget, noFile] at holds
      cases holds
  have apart : fresh ≠ location := by
    rintro rfl
    rw [account.opens.holds] at noFile
    cases noFile
  have whole := account.size
  have small := account.small
  rw [uncut] at whole
  have gains := (FileStore.gains_put noFile part).put account.opens.holds kept
  refine {
    tree := (account.tree.put (account.tree.isDirectory_of_leadsTo leads) free.1 part).put
      (account.tree.isDirectory_of_leadsTo account.leadsTo)
      (account.tree.apart _ _ account.opens.holds) kept
    bounded := (account.bounded.put (by omega) fresh).put (by omega) location
    here := account.here
    directories := account.directories
    opens := account.opens.of_gains gains (by rw [FileStore.content?_put, if_pos rfl])
    moved := fun ne => absurd here ne
    unnamed := fun _ => ⟨rfl, named.trans sameName⟩
    part := ?_
    others := ?_
    size := by rw [cutLength, size]; exact whole }
  · rintro _ ⟨⟩
    have vacant := account.others fresh (here ▸ apart) apart (by rw [uncut]; nofun)
    refine ⟨cuts, apart, leadsTarget, vacant.symm.trans noFile, ?_⟩
    rw [FileStore.content?_put, if_neg apart, FileStore.content?_put, if_pos rfl]
  · intro other notTarget notHere notPart
    rw [FileStore.content?_put, if_neg notHere, FileStore.content?_put, if_neg (notPart _ rfl)]
    exact account.others other notTarget notHere (by rw [uncut]; nofun)

/-- Of a move, to a name that no file has that is being written. -/
theorem move {destination : Path} {new : Location} (leads : store.LeadsTo destination new)
    (free : store.hasPath destination = false)
    (named : destination.baseName ≠ PartialFile.temporaryName) :
    Account target (store.move location new) destination new content fragment := by
  rw [leads.hasPath_eq, Bool.or_eq_false_iff] at free
  obtain ⟨noDirectory, noFile⟩ := free
  rw [Option.isSome_eq_false_iff, Option.isNone_iff_eq_none] at noFile
  have holds := account.opens.holds
  have directories : ∀ other, (store.move location new).isDirectory other =
      store.isDirectory other := account.tree.isDirectory_move holds
  have files := account.tree.content?_move holds noFile
  have notNew {other : Location} {held : Content} (holds : store.content? other = some held) :
      other ≠ new := by
    rintro rfl
    rw [noFile] at holds
    cases holds
  have reopens : Filing.Opens (store.move location new) destination new content := by
    have here : (store.move location new).here = store.here := rfl
    apply (leads.of_isDirectory here directories).opens
    · rw [directories, noDirectory]
    · rw [files, if_pos rfl]
  refine {
    tree := account.tree.move holds noFile (account.tree.isDirectory_of_leadsTo leads) noDirectory
    bounded := FileStore.Bounded.move account.tree holds noFile account.bounded
    here := account.here
    directories := fun other => (directories other).trans (account.directories other)
    opens := reopens
    moved := ?_
    unnamed := fun isUnnamed => absurd isUnnamed named
    part := ?_
    others := ?_
    size := account.size }
  · intro ne
    constructor
    -- nothing was gained at the new place, so that nothing stood there at first
    · rw [← account.others new ne (notNew holds).symm ?_, noFile]
      intro part isPart
      exact (notNew (account.part part isPart).2.2.2.2).symm
    · rw [files, if_neg ne.symm]
      split
      · rfl
      · rename_i elsewhere
        exact (account.moved (Ne.symm elsewhere)).2
  · intro part isPart
    obtain ⟨cuts, apart, leads, vacant, there⟩ := account.part part isPart
    refine ⟨cuts, notNew there, leads, vacant, ?_⟩
    rw [files, if_neg (notNew there), if_neg apart, there]
  · intro other notTarget notHere notPart
    rw [files, if_neg notHere]
    split
    · rename_i isOld
      rw [isOld] at notTarget ⊢
      exact (account.moved notTarget).1.symm
    · rename_i notOld
      exact account.others other notTarget notOld notPart

/-- Of a move with `Filing.rename`, if it is made. -/
theorem rename {name : String}
    (named : (path.withFileName name).baseName ≠ PartialFile.temporaryName) {destination : Path}
    {after : FileStore}
    (ran : (Filing.rename .perform path name).runOn store = (.ok destination, after)) :
    Accounted target after destination := by
  obtain ⟨rfl, free, old, new, route, rfl⟩ := Filing.exists_routeOf_of_rename ran
  obtain ⟨⟨moved, located, _, isOld, leads⟩, _⟩ := FileStore.of_routeOf route
  obtain rfl := Except.ok.inj (located.symm.trans account.opens.locate)
  obtain rfl : location = old := isOld
  exact ⟨_, _, _, account.move (FileStore.leadsTo_of_locate (leads rfl) rfl) free named⟩

/-- A result that rests on a move is accounted for. -/
theorem rename_bind {name : String}
    (named : (path.withFileName name).baseName ≠ PartialFile.temporaryName)
    {made : Path → FixResult}
    (arrives : ∀ destination, (made destination).newPath = some destination)
    {outcome : Except RepairError FixResult} {after : FileStore}
    (ran : ((do return made (← (Filing.rename .perform path name : Filing IoError Path))) :
      Filing RepairError FixResult).runOn store = (outcome, after)) :
    Accounted target after (leftAt path outcome) := by
  rcases Filing.rename_bind_cases ran with ⟨cause, rfl, rfl⟩ | ⟨destination, rfl, moved⟩
  · exact ⟨_, _, _, account⟩
  · change Accounted target after ((made destination).newPath.getD path)
    rw [arrives]
    exact account.rename named moved

end Account

/-! ## One repair -/

section Repairs

variable {target : Target} {store after : FileStore} {path : Path} {location : Location}
  {content : Content} {fragment : Option Fragment} {outcome : Except RepairError FixResult}

theorem Datestamp.accounted_of_repair
    (account : Account target store path location content fragment)
    (ran : (repair .perform path).runOn store = (outcome, after)) :
    Accounted target after (leftAt path outcome) := by
  unfold repair at ran
  dsimp only at ran
  split at ran
  · rename_i name seen
    exact account.rename_bind (PartialFile.baseName_newName_ne seen) (fun _ => rfl) ran
  · obtain ⟨rfl, rfl⟩ := Prod.mk.inj ran
    exact ⟨_, _, _, account⟩

/-- The total and the mark are written in their places, and the start of the recording is read as
before. -/
theorem Duration.accounted_of_repair
    (account : Account target store path location content fragment)
    (ran : (repair .perform path).runOn store = (outcome, after)) :
    Accounted target after (leftAt path outcome) := by
  cases course_of_repair account.bounded ran with
  | idle | refused => exact ⟨_, _, _, account⟩
  | marked opens _ small seen fits =>
    obtain ⟨rfl, rfl⟩ := opens.unique account.opens
    obtain ⟨reading, doubled⟩ := reading_of_seen opens small seen
    obtain ⟨_, _, covered, ordered, inside⟩ := reading.bounds doubled
    exact ⟨_, _, _, account.write (retouched_mended covered ordered inside fits _).2
      fun _ => congrArg PartialFile.recoveredName (reading.start_mended small doubled fits)⟩
  | unmarked opens _ small seen _ =>
    obtain ⟨rfl, rfl⟩ := opens.unique account.opens
    obtain ⟨reading, doubled⟩ := reading_of_seen opens small seen
    obtain ⟨_, _, covered, _, _⟩ := reading.bounds doubled
    exact ⟨_, _, _, account.write (StreamInfo.size_withTotal covered _) fun _ =>
      congrArg PartialFile.recoveredName (reading.start_withTotal small doubled)⟩

/-- A file that is given lengths is no stream, before or after. -/
theorem ChunkLength.accounted_of_repair {fault : Fault}
    (account : Account target store path location content fragment)
    (ran : (repair fault .perform path).runOn store = (outcome, after)) :
    Accounted target after (leftAt path outcome) := by
  cases course_of_repair (fun _ _ again => (account.opens.unique again).2 ▸ account.small) ran with
  | idle | refused | unstated => exact ⟨_, _, _, account⟩
  | @set _ _ riff format data result riffField dataField opens seen stays riffFour dataFour =>
    obtain ⟨rfl, rfl⟩ := opens.unique account.opens
    obtain ⟨_, found, cause⟩ := CheckResult.of_cause opens seen
    obtain ⟨isRiff, behind, inside⟩ := of_inspect (honest_ofFile account.small) found cause
    have size := size_withLengths behind inside riffFour dataFour
    have sameRiff := slice_withLengths behind inside riffFour dataFour
    have other : Wave.riffName ≠ Flac.signature := by decide
    have undated := PartialFile.mendedName_of_ne_signature (isRiff ▸ other)
    have stillUndated := PartialFile.mendedName_of_ne_signature (sameRiff.trans isRiff ▸ other)
    refine ⟨location, withLengths content data.start riffField dataField, fragment, ?_⟩
    change Account target _ (result.newPath.getD path) _ _ _
    rw [stays]
    exact account.write size fun _ => stillUndated.trans undated.symm

namespace PartialFile

/-- A file that has been broken off has the name of one that is being written, `temporaryName`. -/
theorem unnamed_of_cause {evidence : Evidence}
    (seen : (check store path).cause = some evidence) : path.baseName = temporaryName := by
  have returns : (inspect path).Returns fun result =>
      result.isAffected = true → path.baseName = temporaryName := by
    apply Access.Returns.bind
    intro kind
    dsimp only
    split
    · split
      · exact .pure nofun
      · exact .pure nofun
    · rename_i unnamed
      have unnamed := Decidable.not_not.mp unnamed
      split
      · exact .pure fun _ => unnamed
      split
      · exact .pure fun _ => unnamed
      split
      · exact .pure fun _ => unnamed
      · exact .pure fun _ => unnamed
  have affected : (CheckResult.ofAccess store path (inspect path)).isAffected = true := by
    unfold CheckResult.cause at seen
    split at seen
    · assumption
    · cases seen
  exact CheckResult.holds_of_affected returns affected

/-- A stream that is mended by `mend`, or is cut only, is accounted for with what is cut off. -/
theorem accounted_of_mend (account : Account target store path location content fragment)
    (cuts : .partialFile ∈ target.operations) (unnamed : path.baseName = temporaryName)
    {check : CheckResult} (ran : (mend .perform path check).runOn store = (outcome, after)) :
    Accounted target after (leftAt path outcome) := by
  rcases mend_cases account.opens account.small check with
    ⟨reason, gaveUp⟩ | ⟨_, _, stopped⟩ | ⟨new, fresh, firmware, plan, mendable⟩
  · rw [gaveUp] at ran
    exact account.rename_bind (baseName_errorName_ne .partialFile path) (fun _ => rfl) ran
  · rw [stopped] at ran
    obtain ⟨rfl, rfl⟩ := Prod.mk.inj ran
    exact ⟨_, _, _, account⟩
  have within := mendable.made.2
  have whole {kept : Content} (size : kept.size = plan.cut) :
      kept.size + (content.extract plan.cut content.size).size = content.size := by
    rw [size, Array.size_extract]
    omega
  by_cases fits : (plan.tag firmware).FitsPlace
  · rw [mendable.runOn_mend_of_fits fits] at ran
    obtain ⟨rfl, rfl⟩ := Prod.mk.inj ran
    have divided := account.divide cuts unnamed mendable.found
      (whole (mendable.retouched fits).1) (mendable.mendedName_mended fits)
    have gains := (FileStore.gains_put mendable.places.vacantPart.2
      (content.extract plan.cut content.size)).put account.opens.holds
        (plan.mended firmware content)
    exact divided.rename (baseName_ne_temporaryName path _)
      (mendable.places.runOn_rename rfl gains)
  · rw [mendable.runOn_mend_of_tooLong fits, Plan.cutIn, FileStore.put_put] at ran
    obtain ⟨rfl, rfl⟩ := Prod.mk.inj ran
    exact ⟨_, _, _, account.divide cuts unnamed mendable.found (whole mendable.size_kept)
      mendable.mendedName_kept⟩

theorem accounted_of_repair (account : Account target store path location content fragment)
    (cuts : .partialFile ∈ target.operations)
    (ran : (repair .perform path).runOn store = (outcome, after)) :
    Accounted target after (leftAt path outcome) := by
  unfold repair at ran
  rw [Filing.runOn_bind_of_ok (Filing.runOn_liftedGet store)] at ran
  dsimp only at ran
  split at ran
  · exact account.rename_bind (baseName_errorName_ne .emptyFile path) (fun _ => rfl) ran
  · exact account.rename_bind (baseName_errorName_ne .stub path) (fun _ => rfl) ran
  · rename_i seen
    exact accounted_of_mend account cuts (unnamed_of_cause seen) ran
  · obtain ⟨rfl, rfl⟩ := Prod.mk.inj ran
    exact ⟨_, _, _, account⟩

end PartialFile

/-- A file is `Accounted` for after each of its repairs. -/
theorem Operation.accounted_of_repair {operation : Operation}
    (applied : operation ∈ target.operations) (accounted : Accounted target store path)
    {repair : RunMode → Path → Filing RepairError FixResult}
    (isRepair : operation.repair? = some repair)
    (ran : (repair .perform path).runOn store = (outcome, after)) :
    Accounted target after (leftAt path outcome) := by
  obtain ⟨location, content, fragment, account⟩ := accounted
  cases operation with
  | emptyFile => cases isRepair
  | stub => cases isRepair
  | spaceInDatestamp =>
    obtain rfl := Option.some.inj isRepair
    exact Datestamp.accounted_of_repair account ran
  | doubledDuration =>
    obtain rfl := Option.some.inj isRepair
    exact Duration.accounted_of_repair account ran
  | excessDataLength =>
    obtain rfl := Option.some.inj isRepair
    exact ChunkLength.accounted_of_repair account ran
  | zeroDataLength =>
    obtain rfl := Option.some.inj isRepair
    exact ChunkLength.accounted_of_repair account ran
  | partialFile =>
    obtain rfl := Option.some.inj isRepair
    exact PartialFile.accounted_of_repair account applied ran

end Repairs

/-! ## What an apply leaves -/

/-- A copy is kept where nothing stood, just when a path of one is given, with what the file held.
-/
inductive CopyKept (store after : FileStore) (content : Content) :
    Option Path → Option Location → Prop
  | none : CopyKept store after content none none
  | kept {path : Path} {location : Location} (vacant : store.content? location = none)
    (opens : Filing.Opens after path location content) :
    CopyKept store after content (some path) (some location)

/-- What an apply leaves of the file at a path: the file where the report says, a copy just when
the report has one, and what was cut off in a fragment, if anything was. All else is as it
was. -/
structure Settled (operations : List Operation) (store after : FileStore) (path : Path)
    (report : ApplyReport) (location : Location) (content : Content) (final : Location)
    (held : Content) (copy : Option Location) (fragment : Option Fragment) : Prop where
  opens : Filing.Opens after report.finalPath final held
  moved : final ≠ location → store.content? final = none ∧ after.content? location = none
  copied : CopyKept store after content report.backup copy
  notCopy : copy ≠ some final
  part : ∀ part, fragment = some part →
    .partialFile ∈ operations ∧ store.content? part.location = none ∧
    part.location ≠ final ∧ copy ≠ some part.location ∧
    Filing.Opens after (PartialFile.fragmentPath path content) part.location part.content
  others : ∀ other, other ≠ location → other ≠ final → copy ≠ some other →
    (∀ part, fragment = some part → other ≠ part.location) →
    after.content? other = store.content? other
  directories : ∀ other, after.isDirectory other = store.isDirectory other
  size : held.size + cutLength fragment = content.size

namespace Account

variable {operations : List Operation} {options : ApplyOptions} {path : Path}
  {store between after : FileStore} {location final : Location} {content held : Content}
  {fragment : Option Fragment} {report : ApplyReport}

/-- The fragment is found under its name. -/
theorem opens_part {target : Target} (account : Account target after path final held fragment)
    {part : Fragment} (isPart : fragment = some part) :
    Filing.Opens after (PartialFile.fragmentPath target.path target.content) part.location
      part.content := by
  obtain ⟨_, _, leads, _, holds⟩ := account.part part isPart
  exact (account.leadsTo_iff.mpr leads).opens (account.tree.apart _ _ holds) holds

/-- A file that was not copied is `Settled` when it is accounted for. -/
theorem settled {opens : Filing.Opens store path location content}
    (account : Account ⟨operations, store, path, location, content, opens⟩ after report.finalPath
      final held fragment) (uncopied : report.backup = none) :
    Settled operations store after path report location content final held none fragment where
  opens := account.opens
  moved := account.moved
  copied := uncopied ▸ .none
  notCopy := nofun
  part part isPart := by
    obtain ⟨cuts, apart, _, vacant, _⟩ := account.part part isPart
    exact ⟨cuts, vacant, apart, nofun, account.opens_part isPart⟩
  others other notTarget notHere _ notPart := account.others other notTarget notHere notPart
  directories := account.directories
  size := account.size

/-- A file that was copied before is settled with the copy. -/
theorem settled_of_copied {copyPath : Path} {source copy : Location}
    {opens : Filing.Opens between path location content}
    (account : Account ⟨operations, between, path, location, content, opens⟩ after
      report.finalPath final held fragment)
    (opened : Filing.Opens store path location content)
    (copied : Filing.Copied store path copyPath source copy between)
    (isCopy : report.backup = some copyPath) :
    Settled operations store after path report location content final held (some copy)
      fragment := by
  obtain rfl : source = location :=
    Place.file.inj (Except.ok.inj (copied.locate.symm.trans opened.locate))
  have holds : between.content? copy = some content := by
    rw [copied.isAfter, FileStore.content?_copy, FileStore.content?_put, if_pos rfl, opened.holds,
      Option.getD_some]
  have notCopy {other : Location} (vacant : between.content? other = none) : other ≠ copy := by
    rintro rfl
    rw [holds] at vacant
    cases vacant
  have notSource : source ≠ copy := by
    rintro rfl
    have vacant := copied.gains.vacant
    rw [opened.holds] at vacant
    cases vacant
  have notFinal : final ≠ copy := by
    by_cases same : final = source
    · rw [same]
      exact notSource
    · exact notCopy (account.moved same).1
  have notPart : ∀ part, fragment = some part → part.location ≠ copy := fun part isPart =>
    notCopy (account.part part isPart).2.2.2.1
  -- the copy is one of the other files, which have not changed since it was made
  have held : after.content? copy = some content :=
    (account.others copy notSource.symm notFinal.symm
      fun part isPart => (notPart part isPart).symm).trans holds
  have leads : between.LeadsTo copyPath copy :=
    (FileStore.LeadsTo.of_vacantAt copied.vacant).1.of_isDirectory copied.gains.here
      copied.gains.isDirectory_eq
  refine {
    opens := account.opens
    moved := fun ne => ?_
    copied := isCopy ▸ .kept copied.gains.vacant
      ((account.leadsTo_iff.mpr leads).opens (account.tree.apart _ _ held) held)
    notCopy := fun same => notFinal (Option.some.inj same).symm
    part := fun part isPart => ?_
    others := fun other notTarget notHere isNotCopy isNotPart => ?_
    directories := fun other =>
      (account.directories other).trans (copied.gains.isDirectory_eq other)
    size := account.size }
  · rw [← copied.content?_eq notFinal]
    exact account.moved ne
  · obtain ⟨cuts, apart, _, vacant, _⟩ := account.part part isPart
    rw [← copied.content?_eq (notPart part isPart)]
    exact ⟨cuts, vacant, apart, fun same => notPart part isPart (Option.some.inj same).symm,
      account.opens_part isPart⟩
  · rw [← copied.content?_eq fun same => isNotCopy (congrArg some same.symm)]
    exact account.others other notTarget notHere isNotPart

end Account

/-- What is opened beside a copy is settled when it is accounted for. -/
theorem Apply.Copies.exists_settled {operations : List Operation} {options : ApplyOptions}
    {path : Path} {store between after : FileStore} {report : ApplyReport} {location : Location}
    {content : Content} (copies : Copies options path store report.backup between)
    (perform : options.mode = .perform) (opens : Filing.Opens store path location content)
    (accounted : Accounted ⟨operations, between, path, location, content, copies.opens opens⟩
      after report.finalPath) :
    ∃ final held copy fragment,
      Settled operations store after path report location content final held copy fragment := by
  obtain ⟨final, held, fragment, account⟩ := accounted
  generalize isBackup : report.backup = backup at copies
  cases copies with
  | none => exact ⟨final, held, .none, fragment, account.settled isBackup⟩
  | copy ran =>
    rw [perform] at ran
    rcases Filing.backUp_cases ran with ⟨_, isError, _⟩ | ⟨_, source, copy, isOk, copied⟩
    · cases isError
    · obtain rfl := Except.ok.inj isOk
      exact ⟨final, held, some copy, fragment, account.settled_of_copied opens copied isBackup⟩

/-- After `Copies` there is a tree of files that are not too long. -/
theorem Apply.Copies.isTree {options : ApplyOptions} {path : Path} {store between : FileStore}
    {backup : Option Path} (copies : Copies options path store backup between)
    (perform : options.mode = .perform) (tree : store.IsTree) (bounded : store.Bounded) :
    between.IsTree ∧ between.Bounded := by
  cases copies with
  | none => exact ⟨tree, bounded⟩
  | copy ran =>
    rw [perform] at ran
    rcases Filing.backUp_cases ran with ⟨_, isError, _⟩ | ⟨_, source, copy, _, copied⟩
    · cases isError
    · obtain ⟨leads, free⟩ := FileStore.LeadsTo.of_vacantAt copied.vacant
      rw [leads.hasPath_eq, Bool.or_eq_false_iff] at free
      obtain ⟨_, content, opened⟩ := FileStore.isFile_of_locate copied.locate
      rw [copied.isAfter, FileStore.copy, opened.holds]
      exact ⟨(tree.put (tree.isDirectory_of_leadsTo leads) free.1 content).withSealed _,
        (bounded.put (bounded _ _ opened.holds) copy).withSealed _⟩

open Apply in
/-- Whatever operations `applyTo` applies to what stands at a path, every file keeps its name and
its bytes that is not what the path leads to, nor in a directory that it leads to. If they are not
only planned and do not fail, a file at the path is where the report says it is afterwards, and
all that is new beside it is its copy, if the report has one, and what was cut off it: `Settled`.
-/
theorem applyTo_accounts_for_files {operations : List Operation} {options : ApplyOptions}
    {path : Path} {store after : FileStore} {outcome : Except RepairError ApplyReport}
    (tree : store.IsTree) (bounded : store.Bounded)
    (ran : (applyTo operations options path).runOn store = (outcome, after)) :
    (∀ location held, store.content? location = some held →
      store.locate path ≠ .ok (.file location) →
      (∀ directory, store.locate path = .ok (.directory directory) → ¬ directory <+: location) →
      after.content? location = some held) ∧
    ∀ report location content, options.mode = .perform → outcome = .ok report →
      Filing.Opens store path location content →
      ∃ final held copy fragment,
        Settled operations store after path report location content final held copy fragment := by
  constructor
  · intro location held holds notFile notWithin
    obtain ⟨last, spared⟩ := spared_of_applyTo tree ran
    exact spared.files location held holds
      (FileStore.beside_of_file tree holds notFile notWithin)
  · intro report location content perform isReport opens
    have untouched : Account ⟨operations, store, path, location, content, opens⟩ store path location
        content none := .refl _ tree bounded
    cases course_of_applyTo ran with
    | left =>
      obtain rfl := Except.ok.inj isReport
      apply Copies.none.exists_settled perform opens
      rw [finalPath_eq, lastPath_leave]
      exact ⟨_, _, _, untouched⟩
    | @aside problems after _ hopeless aside =>
      cases problems with
      | error cause => cases isReport
      | ok problems =>
        obtain rfl := Except.ok.inj isReport
        apply Copies.none.exists_settled perform opens
        rw [finalPath_eq]
        refine holds_of_putAsideFirst (Accounted _) perform hopeless ?_ ⟨_, _, _, untouched⟩ aside
        intro operation destination after renamed
        exact untouched.rename (PartialFile.baseName_errorName_ne operation path) renamed
    | notCopied => cases isReport
    | @repaired backup between after problems _ _ copies repairs =>
      obtain rfl := Except.ok.inj isReport
      obtain ⟨treeBetween, boundedBetween⟩ := copies.isTree perform tree bounded
      rw [perform] at repairs
      apply copies.exists_settled perform opens
      rw [finalPath_eq]
      refine holds_of_repairAll (Accounted _) ?_ ⟨_, _, _, .refl _ treeBetween boundedBetween⟩
        repairs
      intro finding isFinding repair isRepair _ _ _ _ accounted repaired
      exact Operation.accounted_of_repair (mem_findingsOf.mp isFinding).1 accounted isRepair
        repaired

/-- A file with a space in its stamp, that is copied and renamed beside another file. -/
theorem applyTo_accounts_for_files_of_stamp :
    let store : FileStore :=
      { files := [(["202004 6T020000Z.flac"], #[0]), (["a.flac"], #[1, 2])] }
    ∃ report after, (applyTo [.spaceInDatestamp] { backup := true } "202004 6T020000Z.flac").runOn
        store = (.ok report, after) ∧
      report.backup = some "202004 6T020000Z.flac.bak" ∧
      after.content? ["a.flac"] = some #[1, 2] ∧
      ∃ final held copy fragment,
        Settled [.spaceInDatestamp] store after "202004 6T020000Z.flac" report
          ["202004 6T020000Z.flac"] #[0] final held copy fragment := by
  intro store
  have tree : store.IsTree :=
    FileStore.isTree_of_mem rfl (by decide +kernel) (by decide +kernel)
  have bounded : store.Bounded := FileStore.bounded_of_files (by decide +kernel)
  have opens : Filing.Opens store "202004 6T020000Z.flac" ["202004 6T020000Z.flac"] #[0] :=
    ⟨by decide +kernel, by decide +kernel⟩
  have copied : ((applyTo [.spaceInDatestamp] { backup := true } "202004 6T020000Z.flac").runOn
      store).1.map ApplyReport.backup = .ok (some "202004 6T020000Z.flac.bak") := by
    decide +kernel
  rcases ran : (applyTo [.spaceInDatestamp] { backup := true } "202004 6T020000Z.flac").runOn store
    with ⟨cause | report, after⟩
  · rw [ran] at copied
    cases copied
  · rw [ran] at copied
    obtain ⟨others, settles⟩ := applyTo_accounts_for_files tree bounded ran
    refine ⟨report, after, rfl, Except.ok.inj copied, ?_, settles report _ _ rfl rfl opens⟩
    refine others ["a.flac"] #[1, 2] (by decide +kernel) ?_ fun directory found => ?_
    · rw [opens.locate]
      decide
    · rw [opens.locate] at found
      cases found

/-- A directory with a space in its stamp takes along the files that are in it: they are in what
`Filing.rename` moves. -/
theorem applyTo_moves_files_in_directory :
    let store : FileStore := {
      files := [(["202004 6T020000Z", "a.flac"], #[0])]
      directories := [["202004 6T020000Z"]] }
    store.IsTree ∧ store.Bounded ∧
    store.content? ["202004 6T020000Z", "a.flac"] = some #[0] ∧
    store.locate "202004 6T020000Z" ≠ .ok (.file ["202004 6T020000Z", "a.flac"]) ∧
    ((applyTo [.spaceInDatestamp] {} "202004 6T020000Z").runOn store).2.content?
      ["202004 6T020000Z", "a.flac"] = none := by
  intro store
  exact ⟨FileStore.isTree_of_mem rfl (by decide +kernel) (by decide +kernel),
    FileStore.bounded_of_files (by decide +kernel), by decide +kernel, by decide +kernel,
    by decide +kernel⟩

end FieldRecording
