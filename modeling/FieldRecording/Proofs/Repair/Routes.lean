import FieldRecording.Proofs.Repair.Accounting
import FieldRecording.Proofs.Repair.EitherOrder
import FieldRecording.Proofs.Repair.InARow
import FieldRecording.Proofs.Repair.Keeping

/-!
# Two ways to mend a torn stream

A torn stream whose total is doubled can be mended as it is, or after its total was halved. The
halved stream is cut in the same place and given the same name and total, as these are read of
nothing that was written to: `Plan.halved`. The two ways meet, `Met`: they differ in the order of
the tags only.

`mend_after_halving` starts from the first way, and shows that nothing is in the way of the second
one: neither the mark of the halved total (`Plan.fitsPlace_mark`) nor a name that is taken.
-/

namespace FieldRecording

open ByteSource

namespace PartialFile

variable {store : FileStore} {path : Path} {location new fresh : Location} {content : Content}
  {firmware : Firmware} {plan : Plan} {stated counted : Nat}

/-! ## A stream whose total was halved -/

/-- The `Places` are the same when the stream has other content. -/
theorem Places.put {newPath : Path} (places : Places store path newPath location new fresh)
    (content : Content) : Places (store.put location content) path newPath location new fresh := by
  obtain ⟨held, there⟩ := Option.isSome_iff_exists.mp places.isFile.2
  have same (other : Location) :
      (store.put location content).isDirectory other = store.isDirectory other := rfl
  refine ⟨places.source.of_isDirectory rfl same, places.target.of_isDirectory rfl same,
    places.part.of_isDirectory rfl same, ⟨places.isFile.1, ?_⟩, ?_, ?_, places.ne⟩
  · rw [FileStore.content?_put, if_pos rfl]
    rfl
  · rw [FileStore.hasPath_put there]
    exact places.free
  · rw [FileStore.hasPath_put there]
    exact places.freePart

/-- The plan for a stream whose total was halved: that for the stream as it was, with the total
that was counted for the one that is stated. -/
def Plan.halved (plan : Plan) (counted : Nat) : Plan :=
  { plan with stated := counted, isDoubled := false }

theorem Plan.version_tag (plan : Plan) (firmware : Firmware) :
    (plan.tag firmware).version = firmware.version := by
  unfold tag
  dsimp only
  split
  · rw [Firmware.version_withTag, Firmware.version_withTag]
  · rw [Firmware.version_withTag]

theorem Plan.versionText_tag (plan : Plan) (firmware : Firmware) :
    (plan.tag firmware).versionText = firmware.versionText := by
  unfold tag
  dsimp only
  split
  · rw [Firmware.versionText_withTag, Firmware.versionText_withTag]
  · rw [Firmware.versionText_withTag]

/-- On both ways the firmware gets the same tags, as those of `Plan.tag` up to their order. -/
theorem Plan.perm_tags_halved (doubled : plan.isDoubled = true) (firmware : Firmware)
    (comment : String) (counted : Nat) :
    ((plan.halved counted).tag { firmware.withTag Duration.patchTag with comment }).tags.Perm
      (plan.tag firmware).tags := by
  rw [tags_tag, tags_tag, if_pos doubled, halved, if_neg Bool.false_ne_true,
    Firmware.tags_withTag]
  exact addTag_comm _ _ _

/-- So it fits its place on the second way if it does on the first one, by `FitsPlace.of_perm`. -/
theorem Plan.fitsPlace_halved (doubled : plan.isDoubled = true)
    (fits : (plan.tag firmware).FitsPlace) (comment : String) (counted : Nat) :
    ((plan.halved counted).tag
      { firmware.withTag Duration.patchTag with comment }).FitsPlace := by
  apply fits.of_perm
  · rw [place_tag, place_tag]
    exact Firmware.place_withTag firmware _
  · rw [versionText_tag, versionText_tag]
    exact Firmware.versionText_withTag firmware _
  · exact perm_tags_halved doubled firmware comment counted

/-- Half way there is the mark of the halved total, and it fits, by `FitsPlace.of_withTag`. -/
theorem Plan.fitsPlace_mark (doubled : plan.isDoubled = true)
    (fits : (plan.tag firmware).FitsPlace) : (firmware.withTag Duration.patchTag).FitsPlace :=
  (fitsPlace_halved doubled fits firmware.comment 0).of_withTag

namespace Mendable

variable (mendable : Mendable store path location new fresh content firmware plan)
  (seen : (Duration.check store path).cause = some (.duration firmware stated counted))
  (fits : (plan.tag firmware).FitsPlace)

include mendable seen in
theorem isDoubled_of_seen : plan.isDoubled = true := by
  rw [mendable.isDoubled_iff]
  unfold CheckResult.cause at seen
  split at seen
  · assumption
  · cases seen

include mendable seen fits

/-- The stream gets the same name. -/
theorem mendedName_halved :
    mendedName (Duration.mended firmware content counted) = mendedName content := by
  have mark := plan.fitsPlace_mark (mendable.isDoubled_of_seen seen) fits
  obtain ⟨reading, doubled⟩ := Duration.reading_of_seen mendable.opens mendable.small seen
  exact congrArg recoveredName (reading.start_mended mendable.small doubled mark)

/-- Nothing is in the way of mending the stream after its total was halved: it is `Mendable`
again. -/
theorem halved : ∃ comment, Mendable
    (store.put location (Duration.mended firmware content counted)) path location new fresh
    (Duration.mended firmware content counted)
    { firmware.withTag Duration.patchTag with comment } (plan.halved counted) := by
  have mark := plan.fitsPlace_mark (mendable.isDoubled_of_seen seen) fits
  have there := mendable.opens.holds
  obtain ⟨reading, doubled⟩ := Duration.reading_of_seen mendable.opens mendable.small seen
  obtain ⟨halved, -⟩ := Duration.halved_of_fits mendable.opens mendable.small seen mark
  obtain ⟨comment, again⟩ := reading.reading_mended mendable.small doubled mark
  obtain ⟨front, third, second, last, planned⟩ := mendable.exists_reading
  have small : (Duration.mended firmware content counted).size < sizeLimit := by
    rw [halved.size]
    exact mendable.small
  have named := mendable.mendedName_halved seen fits
  have opens := mendable.opens.put (Duration.mended firmware content counted)
  -- the frames are those that were found before, and the total is no longer doubled
  have made : (Plan.make.runOn (.ofFile (Duration.mended firmware content counted))).1 =
      .ok (plan.halved counted) := by
    apply Plan.Reading.make_eq (honest_ofFile small)
    exact {
      total := halved.newTotal
      frames := (halved.frames true).trans planned.frames
      cut := planned.cut
      doubled := by
        constructor
        · intro isDoubled
          cases isDoubled
        · rintro ⟨result, found, affected⟩
          rw [Duration.isAffected_of_sound (honest_ofFile small) halved.newTotal halved.newCount
            found] at affected
          cases affected
      samples := planned.samples
      fits := planned.fits }
  have within : (plan.halved counted).cut ≤ (Duration.mended firmware content counted).size := by
    rw [halved.size]
    exact mendable.made.2
  refine ⟨comment, opens, mendable.writable, small, again.read, ?_, ?_, ?_, ?_⟩
  · have free (path : Path) := FileStore.hasPath_put there
      (Duration.mended firmware content counted) path
    rw [named, taken?, funext free]
    exact mendable.untaken
  · exact congrArg Prod.fst (runOn_shorten_plan opens made within)
  · rw [named, FileStore.vacantAt_put there]
    exact mendable.found
  · rw [mendedPath, named]
    exact mendable.places.put _

/-- The streams that are left have `AgreeOutside` of the text that names the firmware: the total
that was counted is written over. -/
theorem agreeOutside_kept : AgreeOutside firmware.place (.ofFile (plan.kept content))
    (.ofFile ((plan.halved counted).kept (Duration.mended firmware content counted))) := by
  have mark := plan.fitsPlace_mark (mendable.isDoubled_of_seen seen) fits
  obtain ⟨reading, doubled⟩ := Duration.reading_of_seen mendable.opens mendable.small seen
  obtain ⟨_, _, covered, ordered, inside⟩ := reading.bounds doubled
  obtain ⟨_, behind, _⟩ := mendable.place_bounds
  rw [plan.place_tag] at behind
  have size := StreamInfo.size_withTotal covered counted
  have coveredCut : 26 ≤ plan.cut := by
    rw [← Content.size_front mendable.made.2]
    exact mendable.covered
  have marked : AgreeOutside firmware.place (.ofFile (StreamInfo.withTotal content counted))
      (.ofFile (Duration.mended firmware content counted)) := by
    rw [← size] at inside
    rw [← Firmware.place_withTag firmware Duration.patchTag] at ordered inside ⊢
    exact Firmware.agreeOutside_writtenTo mark ordered inside
  have kept : plan.kept content =
      StreamInfo.withTotal ((StreamInfo.withTotal content counted).extract 0 plan.cut)
        plan.total := by
    rw [← StreamInfo.withTotal_front coveredCut mendable.made.2,
      StreamInfo.withTotal_withTotal mendable.covered]
    rfl
  rw [kept]
  refine (marked.front plan.cut).withTotal ?_ behind plan.total
  rw [Content.size_front (size ▸ mendable.made.2)]
  exact coveredCut

/-- So do the mended streams. -/
theorem agreeOutside_mended {comment : String}
    (mendableHalved : Mendable
      (store.put location (Duration.mended firmware content counted)) path location new fresh
      (Duration.mended firmware content counted)
      { firmware.withTag Duration.patchTag with comment } (plan.halved counted)) :
    AgreeOutside firmware.place (.ofFile (plan.mended firmware content))
      (.ofFile ((plan.halved counted).mended
        { firmware.withTag Duration.patchTag with comment }
        (Duration.mended firmware content counted))) := by
  have fitsHalved := plan.fitsPlace_halved (mendable.isDoubled_of_seen seen) fits comment counted
  have placeHalved : ((plan.halved counted).tag
      { firmware.withTag Duration.patchTag with comment }).place = firmware.place :=
    (Plan.place_tag _ _).trans (Firmware.place_withTag firmware _)
  obtain ⟨ordered, _, inside⟩ := mendable.place_bounds
  obtain ⟨orderedHalved, _, insideHalved⟩ := mendableHalved.place_bounds
  have left := Firmware.agreeOutside_writtenTo fits ordered inside
  have right := Firmware.agreeOutside_writtenTo fitsHalved orderedHalved insideHalved
  rw [plan.place_tag] at left
  rw [placeHalved] at right
  exact left.symm.trans ((mendable.agreeOutside_kept seen fits).trans right)

/-- The same part is cut off. -/
theorem fragment_eq :
    (Duration.mended firmware content counted).extract plan.cut
        (Duration.mended firmware content counted).size =
      content.extract plan.cut content.size := by
  have mark := plan.fitsPlace_mark (mendable.isDoubled_of_seen seen) fits
  obtain ⟨halved, -⟩ := Duration.halved_of_fits mendable.opens mendable.small seen mark
  obtain ⟨_, behind, inside⟩ := mendable.place_bounds
  rw [plan.place_tag] at behind inside
  rw [mendable.size_kept] at inside
  have covered := mendable.covered
  rw [Content.size_front mendable.made.2] at covered
  apply Array.ext_getElem?
  intro index
  rw [Array.getElem?_extract, Array.getElem?_extract, halved.size]
  split
  · apply halved.retouched.getElem?_eq
    · rw [halved.size]
      omega
    · omega
    · unfold ByteRange.Covers
      omega
  · rfl

end Mendable

/-! ## Where the two ways meet -/

/-- A stream that named its firmware, and was mended in two ways: in both it is found in one
place, with one part cut off. It has one length, and is the same but for the text that names the
firmware, which has the same version and the same tags up to their order. -/
structure Met (left right : FileStore) (newPath : Path) (firmware : Firmware)
    (new fresh : Location) (mended other part : Content) (written rewritten : Firmware) :
    Prop where
  opens : Filing.Opens left newPath new mended
  opensOther : Filing.Opens right newPath new other
  size : other.size = mended.size
  same : ∀ offset, ¬ firmware.place.Covers offset → other[offset]? = mended[offset]?
  opensPart : Filing.Opens left (newPath ++ fragmentEnding) fresh part
  opensOtherPart : Filing.Opens right (newPath ++ fragmentEnding) fresh part
  read : (Firmware.read.runOn (.ofFile mended)).1 = .ok written
  readOther : (Firmware.read.runOn (.ofFile other)).1 = .ok rewritten
  place : written.place = firmware.place ∧ rewritten.place = firmware.place
  version : rewritten.version = written.version ∧ rewritten.versionText = written.versionText
  /-- The same tags, in either order. -/
  tags : rewritten.tags.Perm written.tags
  /-- Nothing else differs. -/
  files : ∀ location, location ≠ new → right.content? location = left.content? location
  directories : ∀ location, right.isDirectory location = left.isDirectory location

/-- What is cut off is found beside the stream. -/
theorem Mendable.opens_part
    (mendable : Mendable store path location new fresh content firmware plan)
    (tree : store.IsTree) :
    Filing.Opens (plan.mendedIn store location new fresh firmware content)
      (mendedPath path content ++ fragmentEnding) fresh
      (content.extract plan.cut content.size) := by
  have same := mendable.isDirectory_mendedIn tree
  have here : (plan.mendedIn store location new fresh firmware content).here = store.here := rfl
  apply (mendable.places.part.of_isDirectory here same).opens
  · rw [same]
    exact mendable.places.vacantPart.1
  · rw [mendable.content?_mendedIn tree, if_neg mendable.places.ne.symm,
      if_neg mendable.places.apart.2.symm, if_pos rfl]

/-- A stream that is mended after it was given other content meets the one that was mended at
once, if it keeps its name and the part that is cut off, and the two agree. -/
theorem Mendable.met {held : Content} {tagged : Firmware} {planHeld : Plan}
    (mendable : Mendable store path location new fresh content firmware plan)
    (mendableHeld : Mendable (store.put location held) path location new fresh held tagged planHeld)
    (tree : store.IsTree) (fits : (plan.tag firmware).FitsPlace)
    (fitsHeld : (planHeld.tag tagged).FitsPlace)
    (agree : AgreeOutside firmware.place (.ofFile (plan.mended firmware content))
      (.ofFile (planHeld.mended tagged held)))
    (samePath : mendedPath path held = mendedPath path content)
    (samePart : held.extract planHeld.cut held.size = content.extract plan.cut content.size)
    (place : tagged.place = firmware.place)
    (version : tagged.version = firmware.version ∧ tagged.versionText = firmware.versionText)
    (tags : (planHeld.tag tagged).tags.Perm (plan.tag firmware).tags) :
    ∃ mended other part written rewritten,
      Met (plan.mendedIn store location new fresh firmware content)
        (planHeld.mendedIn (store.put location held) location new fresh tagged held)
        (mendedPath path content) firmware new fresh mended other part written rewritten := by
  have treeHeld : (store.put location held).IsTree :=
    tree.put (tree.isDirectory_of_leadsTo mendable.places.source) mendable.places.isFile.1 held
  obtain ⟨_, read⟩ := mendable.read_mended fits
  obtain ⟨_, readOther⟩ := mendableHeld.read_mended fitsHeld
  have opensOther := mendableHeld.opens_mended treeHeld
  have opensOtherPart := mendableHeld.opens_part treeHeld
  rw [samePath] at opensOther opensOtherPart
  rw [samePart] at opensOtherPart
  refine ⟨_, _, _, _, _, {
    opens := mendable.opens_mended tree
    opensOther
    size := agree.size_eq
    same := fun _ outside => agree.getElem?_eq outside
    opensPart := mendable.opens_part tree
    opensOtherPart
    read
    readOther
    place := ⟨plan.place_tag firmware, (planHeld.place_tag tagged).trans place⟩
    version := ⟨?_, ?_⟩
    tags
    files := fun other notNew => ?_
    directories := fun other => ?_ }⟩
  · exact (planHeld.version_tag tagged).trans (version.1.trans (plan.version_tag firmware).symm)
  · exact (planHeld.versionText_tag tagged).trans
      (version.2.trans (plan.versionText_tag firmware).symm)
  · rw [mendable.content?_mendedIn tree, mendableHeld.content?_mendedIn treeHeld,
      if_neg notNew, if_neg notNew]
    split
    · rfl
    · rename_i notHere
      rw [samePart, FileStore.content?_put, if_neg notHere]
  · rw [mendable.isDirectory_mendedIn tree, mendableHeld.isDirectory_mendedIn treeHeld]
    rfl

/-- Only what has been found broken off is mended. -/
theorem exists_cause_of_fixed {result : FixResult} {after : FileStore}
    (ran : (repair .perform path).runOn store = (.ok result, after))
    (fixed : result.status = .fixed) : ∃ evidence, (check store path).cause = some evidence := by
  cases seen : (check store path).cause with
  | some evidence => exact ⟨evidence, rfl⟩
  | none =>
    unfold repair at ran
    rw [Filing.runOn_bind_of_ok (Filing.runOn_liftedGet store)] at ran
    dsimp only at ran
    rw [seen] at ran
    obtain rfl := Except.ok.inj (Prod.mk.inj ran).1
    cases fixed

/-- A stream that is mended with a doubled total is also mended after a repair of the total, and
the two ways meet, as `Met` says. -/
theorem mend_after_halving (tree : store.IsTree) (bounded : store.Bounded)
    (doubled : (Duration.check store path).isAffected = true) {result : FixResult}
    {after : FileStore} (ran : (repair .perform path).runOn store = (.ok result, after))
    (fixed : result.status = .fixed) :
    ∃ halved mended between afterBoth newPath,
      (Duration.repair .perform path).runOn store = (.ok halved, between) ∧
      halved.status = .fixed ∧ halved.newPath = none ∧
      (repair .perform path).runOn between = (.ok mended, afterBoth) ∧
      mended.status = .fixed ∧
      result.newPath = some newPath ∧ mended.newPath = some newPath ∧
      ∃ location content firmware new fresh held other part written rewritten,
        Filing.Opens store path location content ∧
        (Firmware.read.runOn (.ofFile content)).1 = .ok firmware ∧
        Met after afterBoth newPath firmware new fresh held other part written rewritten := by
  obtain ⟨location, new, fresh, content, firmware, plan, mendable, fits, rfl, named⟩ :=
    exists_mendable_of_fixed bounded ran fixed
  obtain ⟨firmware', stated, counted, seen⟩ :=
    Duration.exists_cause_of_affected bounded (of_decide_eq_true doubled)
  obtain ⟨reading, _⟩ := Duration.reading_of_seen mendable.opens mendable.small seen
  obtain rfl : firmware' = firmware := Except.ok.inj (reading.read.symm.trans mendable.read)
  obtain ⟨_, torn⟩ := exists_cause_of_fixed ran fixed
  have isDoubled := mendable.isDoubled_of_seen seen
  have halves := Duration.runOn_repair_of_fits mendable.opens mendable.writable mendable.small
    seen (plan.fitsPlace_mark isDoubled fits)
  obtain ⟨comment, mendableHalved⟩ := mendable.halved seen fits
  have fitsHalved := plan.fitsPlace_halved isDoubled fits comment counted
  have notEmpty : 0 < (Duration.mended firmware' content counted).size := by
    have covered := mendableHalved.covered
    rw [Content.size_front mendableHalved.made.2] at covered
    have within := mendableHalved.made.2
    omega
  have mends := (runOn_repair_of_unnamed mendableHalved.opens mendableHalved.small notEmpty
    mendableHalved.read (unnamed_of_cause torn) .perform).trans
      (mendableHalved.runOn_mend_of_fits fitsHalved _)
  have samePath : mendedPath path (Duration.mended firmware' content counted) =
      mendedPath path content :=
    congrArg path.withFileName (mendable.mendedName_halved seen fits)
  obtain ⟨held, other, part, written, rewritten, met⟩ := mendable.met mendableHalved tree fits
    fitsHalved (mendable.agreeOutside_mended seen fits mendableHalved) samePath
    (mendable.fragment_eq seen fits) (Firmware.place_withTag firmware' _)
    ⟨Firmware.version_withTag firmware' _, Firmware.versionText_withTag firmware' _⟩
    (plan.perm_tags_halved isDoubled firmware' comment counted)
  exact ⟨_, _, _, _, mendedPath path content, halves, rfl, rfl, mends, rfl, named,
    congrArg some samePath, location, content, firmware', new, fresh, held, other, part, written,
    rewritten, mendable.opens, mendable.read, met⟩

end PartialFile

/-! ## Applying both repairs -/

open Apply in
/-- A torn stream whose total is doubled can be repaired in two ways, and they meet (`Met`). Where
the repair of torn streams alone reports a repaired file, both repairs in a row do so as well: the
file ends at the same path, and so does the part that is cut off it. The repaired files have one
length and are the same outside of the text that names the firmware, and that names the same
version and the same tags. -/
theorem repairs_meet {store afterAlone : FileStore} (tree : store.IsTree)
    (bounded : store.Bounded) {options : ApplyOptions} (perform : options.mode = .perform)
    {path : Path} (doubled : (Operation.doubledDuration.check store path).isAffected = true)
    {alone : ApplyReport}
    (ran : (applyTo [.partialFile] options path).runOn store = (.ok alone, afterAlone))
    (fixes : alone.Fixes .partialFile) :
    ∃ both afterBoth,
      (applyTo [.doubledDuration, .partialFile] options path).runOn store =
        (.ok both, afterBoth) ∧
      both.Fixes .doubledDuration ∧ both.Fixes .partialFile ∧ both.backup = alone.backup ∧
      both.finalPath = alone.finalPath ∧
      ∃ location content firmware new fresh mended other part written rewritten,
        Filing.Opens store path location content ∧
        (Firmware.read.runOn (.ofFile content)).1 = .ok firmware ∧
        PartialFile.Met afterAlone afterBoth alone.finalPath firmware new fresh mended other part
          written rewritten := by
  obtain ⟨torn, between, result, copied, mended, fixed, isFinal⟩ :=
    exists_repair_of_fixes rfl ran fixes
  rw [perform] at mended
  have copies := copies_of_copyFirst copied
  obtain ⟨treeBetween, boundedBetween⟩ := copies.isTree perform tree bounded
  -- the copy is beside the file, and the total is found doubled again
  have again : Operation.doubledDuration.check between path =
      Operation.doubledDuration.check store path :=
    check_of_opens rfl doubled fun location content opens => ⟨location, copies.opens opens⟩
  obtain ⟨first, second, halved, afterBoth, newPath, halves, halvedFixed, stays, mends,
      mendedFixed, isNew, isNewAgain, location, content, firmware, new, fresh, held, other, part,
      written, rewritten, opensBetween, read, met⟩ :=
    PartialFile.mend_after_halving treeBetween boundedBetween
      ((congrArg CheckResult.isAffected again).trans doubled) mended fixed
  have opens : Filing.Opens store path location content := by
    have passes : (Operation.doubledDuration.check store path).status ≠ .error := by
      rw [of_decide_eq_true doubled]
      decide
    obtain ⟨location', content', opens⟩ := CheckResult.exists_opens passes
    obtain ⟨rfl, rfl⟩ := (copies.opens opens).unique opensBetween
    exact opens
  have mendsThere : (PartialFile.repair .perform (first.newPath.getD path)).runOn halved =
      (.ok second, afterBoth) := by
    rw [stays]
    exact mends
  have ranBoth := runOn_applyTo_both perform copied rfl rfl doubled torn halves mendsThere
  have samePath := isFinal newPath isNew
  rw [samePath]
  refine ⟨_, afterBoth, ranBoth, ⟨_, List.mem_cons_self, rfl, halvedFixed⟩,
    ⟨_, List.mem_cons_of_mem _ List.mem_cons_self, rfl, mendedFixed⟩, rfl, ?_, location, content,
    firmware, new, fresh, held, other, part, written, rewritten, opens, read, met⟩
  rw [finalPath_eq]
  change second.newPath.getD (first.newPath.getD path) = newPath
  rw [isNewAgain]
  rfl

/-- A recording of three frames that states twice as many samples, with room for both tags. -/
theorem repairs_meet_of_padded :
    ∃ alone afterAlone both afterBoth,
      (applyTo [.partialFile] {} "data").runOn Duration.paddedStore = (.ok alone, afterAlone) ∧
      alone.Fixes .partialFile ∧
      (applyTo [.doubledDuration, .partialFile] {} "data").runOn Duration.paddedStore =
        (.ok both, afterBoth) ∧
      both.Fixes .doubledDuration ∧ both.Fixes .partialFile ∧ both.backup = alone.backup ∧
      both.finalPath = alone.finalPath ∧
      ∃ location content firmware new fresh mended other part written rewritten,
        Filing.Opens Duration.paddedStore "data" location content ∧
        (Firmware.read.runOn (.ofFile content)).1 = .ok firmware ∧
        PartialFile.Met afterAlone afterBoth alone.finalPath firmware new fresh mended other part
          written rewritten := by
  have doubled : (Operation.doubledDuration.check Duration.paddedStore "data").isAffected =
      true := by
    change (Duration.check Duration.paddedStore "data").isAffected = true
    rw [Duration.check, CheckResult.ofAccess_of_opens PartialFile.opens_padded,
      Duration.reading_padded.inspect_eq Duration.plain_padded.honest]
    rfl
  obtain ⟨result, after, mended, fixed⟩ := PartialFile.runOn_repair_padded
  obtain ⟨_, seen⟩ := PartialFile.exists_cause_of_fixed mended fixed
  have torn : (Operation.partialFile.check Duration.paddedStore "data").isAffected = true :=
    (CheckResult.of_cause_eq_some seen).1
  have isRepair : Operation.partialFile.repair? = some PartialFile.repair := rfl
  have copied : (Apply.copyFirst {} "data").runOn Duration.paddedStore =
      (.ok none, Duration.paddedStore) := rfl
  have ran := Apply.runOn_applyTo_one rfl copied isRepair torn mended
  have fixes : ApplyReport.Fixes { file := "data", problems := [⟨_, result⟩] } .partialFile :=
    ⟨_, List.mem_cons_self, rfl, fixed⟩
  obtain ⟨both, afterBoth, meets⟩ :=
    repairs_meet PartialFile.isTree_padded Duration.bounded_paddedStore rfl doubled ran fixes
  exact ⟨_, after, both, afterBoth, ran, fixes, meets⟩

end FieldRecording
