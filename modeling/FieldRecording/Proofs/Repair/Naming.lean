import FieldRecording.Proofs.Files.NewFile
import FieldRecording.Proofs.Text.Words
import FieldRecording.Repair.Operation

/-!
# Names that repairs give

A stamp is mended by a zero for its space. Neither a mended stamp nor a name under which a file is
put aside, nor one that a torn stream gets, is the name of a file that is being written: a path
that is followed through repairs loses that name for good (`baseName_newName_ne`,
`baseName_errorName_ne`, `baseName_ne_temporaryName`). What `baseName` finds at the end of a path
that `withFileName` made is a part of the name that was given (`baseName_withFileName`).
-/

namespace FieldRecording

/-! ## Names at the end of a path -/

namespace Path

theorem mem_of_mem_dropVoid {segments : List (List Char)} {segment : List Char}
    (kept : segment ∈ dropVoid segments) : segment ∈ segments := by
  fun_induction dropVoid segments with
  | case1 last previous rest void ih => exact List.mem_cons_of_mem last (ih kept)
  | case2 => exact kept
  | case3 => exact kept

/-- The name at the end of a path holds no slash. -/
theorem plain_baseName (path : Path) : '/' ∉ path.baseName.toList := by
  unfold baseName fileName?
  dsimp only
  split
  · exact List.not_mem_nil
  · rw [Option.getD_some, String.toList_ofList]
    unfold splitLast
    split
    · rename_i last rest dropped
      apply plain_of_mem_splitAtEach path.toList
      apply List.mem_reverse.mp
      apply mem_of_mem_dropVoid
      change last ∈ dropVoid path.segments.reverse
      rw [dropped]
      exact List.mem_cons_self
    · exact List.not_mem_nil

/-- A segment with a character that is no point is a name. -/
theorem isName_of_mem {segment : List Char} {c : Char} (member : c ∈ segment)
    (notPoint : c ≠ '.') : isVoid segment = false ∧ segment ≠ ['.', '.'] := by
  constructor
  · rw [isVoid, Bool.or_eq_false_iff]
    constructor
    · apply beq_false_of_ne
      rintro rfl
      cases member
    · apply beq_false_of_ne
      rintro rfl
      exact notPoint (List.mem_singleton.mp member)
  · rintro rfl
    simp [notPoint] at member

/-- A path that is given a name ends with the last part of it that holds no slash. -/
theorem segments_withFileName (path : Path) (stem : String) {ending : String}
    (plain : '/' ∉ ending.toList) :
    ∃ before front, (path.withFileName (stem ++ ending)).segments =
      before ++ [front ++ ending.toList] := by
  obtain ⟨before, front, _, cut⟩ := splitAtEach_append plain (path.withFileName stem).toList
  refine ⟨before, front, ?_⟩
  rw [withFileName_append path stem plain, segments, String.toList_append, cut]

/-- The name of a path that `withFileName` made is the last part of the given name that holds no
slash. -/
theorem baseName_withFileName (path : Path) (stem : String) {ending : String}
    (plain : '/' ∉ ending.toList) {c : Char} (member : c ∈ ending.toList) (notPoint : c ≠ '.') :
    ∃ front, (path.withFileName (stem ++ ending)).baseName = String.ofList front ++ ending := by
  obtain ⟨before, front, cut⟩ := segments_withFileName path stem plain
  obtain ⟨isName, notAbove⟩ := isName_of_mem (List.mem_append_right front member) notPoint
  have last : (path.withFileName (stem ++ ending)).splitLast.1 = front ++ ending.toList := by
    rw [splitLast, cut, List.reverse_append, List.reverse_singleton, List.singleton_append]
    cases before.reverse with
    | nil => rfl
    | cons previous rest =>
      rw [dropVoid, isName, if_neg Bool.false_ne_true]
  refine ⟨front, ?_⟩
  rw [baseName, fileName?, last, isName, Bool.false_or, beq_false_of_ne notAbove,
    if_neg Bool.false_ne_true, Option.getD_some, String.ofList_append, String.ofList_toList]

/-- The directory of a path is given with the slash behind it, if it is given. -/
theorem segments_withFileName_empty (path : Path) :
    ∃ before, (path.withFileName "").segments = before ++ [[]] := by
  have joined (directory : Path) : ∃ before, (join directory "").segments = before ++ [[]] := by
    unfold join segments
    rw [if_neg (by decide)]
    split
    · rename_i ends
      rw [String.append_empty]
      rcases Bool.or_eq_true_iff.mp ends with nothing | slash
      · rw [String.isEmpty_iff.mp nothing]
        exact ⟨[], rfl⟩
      · obtain ⟨front, isFront⟩ := List.getLast?_eq_some_iff.mp (of_decide_eq_true slash)
        rw [isFront]
        obtain ⟨first, before, cut⟩ := splitAtEach_concat '/' front
        exact ⟨_, cut⟩
    · rw [String.append_empty, String.toList_append]
      obtain ⟨first, before, cut⟩ := splitAtEach_concat '/' directory.toList
      exact ⟨_, cut⟩
  unfold withFileName
  split
  · exact joined _
  · exact joined _

/-- A path that is given a name without slashes, which is not one of points, has that name. -/
theorem baseName_withFileName_of_plain (path : Path) {name : String} (plain : '/' ∉ name.toList)
    {c : Char} (member : c ∈ name.toList) (notPoint : c ≠ '.') :
    (path.withFileName name).baseName = name := by
  obtain ⟨directory, isDirectory⟩ := path.segments_withFileName_empty
  obtain ⟨before, front, whole, cut⟩ := splitAtEach_append plain (path.withFileName "").toList
  obtain ⟨rfl, isFront⟩ := List.append_inj' (isDirectory.symm.trans whole) rfl
  obtain rfl : front = [] := (List.singleton_inj.mp isFront).symm
  obtain ⟨isName, notAbove⟩ := isName_of_mem member notPoint
  have last : (path.withFileName name).splitLast.1 = name.toList := by
    have renamed := path.withFileName_append "" plain
    rw [String.empty_append] at renamed
    rw [splitLast, renamed, segments, String.toList_append, cut, List.reverse_append,
      List.reverse_singleton, List.singleton_append, List.nil_append]
    cases directory.reverse with
    | nil => rfl
    | cons previous rest =>
      rw [dropVoid, isName, if_neg Bool.false_ne_true]
  rw [baseName, fileName?, last, isName, Bool.false_or, beq_false_of_ne notAbove,
    if_neg Bool.false_ne_true, Option.getD_some, String.ofList_toList]

end Path

/-! ## Mended stamps -/

namespace Datestamp

/-- A text that starts with a stamp has a space where `mendStart` puts a zero, and a `T` behind. -/
theorem exists_of_startsWithStamp {text : List Char} (starts : startsWithStamp text = true) :
    ∃ front back, text = front ++ ' ' :: back ∧ mendStart text = front ++ '0' :: back ∧
      'T' ∈ back := by
  unfold startsWithStamp at starts
  rw [Bool.and_eq_true] at starts
  have behind := starts.2
  split at behind
  · rename_i digit rest dropped
    refine ⟨text.take groupLength, digit :: 'T' :: rest, ?_, ?_, by simp⟩
    · rw [← dropped, List.take_append_drop]
    · rw [mendStart, ← List.tail_drop, dropped]
      rfl
  · cases behind

/-- A line that is mended by `mendLast` has a zero for a space, before a `T`. -/
theorem exists_of_mendLast {line mended : List Char} (mends : mendLast line = some mended) :
    ∃ front back, line = front ++ ' ' :: back ∧ mended = front ++ '0' :: back ∧ 'T' ∈ back := by
  induction line generalizing mended with
  | nil => cases mends
  | cons c line ih =>
    rw [mendLast] at mends
    split at mends
    · rename_i rest later
      obtain ⟨front, back, rfl, rfl, behind⟩ := ih later
      rw [← Option.some.inj mends]
      exact ⟨c :: front, back, rfl, rfl, behind⟩
    · split at mends
      · rename_i starts
        rw [← Option.some.inj mends]
        exact exists_of_startsWithStamp starts
      · cases mends

/-- Of lines that are mended one is. -/
theorem exists_of_mendLines {lines mended : List (List Char)}
    (mends : mendLines lines = some mended) :
    ∃ before line after changed, lines = before ++ line :: after ∧
      mended = before ++ changed :: after ∧ mendLast line = some changed := by
  induction lines generalizing mended with
  | nil => cases mends
  | cons line lines ih =>
    rw [mendLines] at mends
    split at mends
    · rename_i changed isChanged
      rw [← Option.some.inj mends]
      exact ⟨[], line, lines, changed, rfl, rfl, isChanged⟩
    · obtain ⟨rest, later, rfl⟩ := Option.map_eq_some_iff.mp mends
      obtain ⟨before, other, after, changed, rfl, rfl, isChanged⟩ := ih later
      exact ⟨line :: before, other, after, changed, rfl, rfl, isChanged⟩

/-- A name that `mend?` mends has a zero for a space, before a `T`. -/
theorem exists_of_mend? {name mended : String} (mends : mend? name = some mended) :
    ∃ front back, name.toList = front ++ ' ' :: back ∧ mended.toList = front ++ '0' :: back ∧
      'T' ∈ back := by
  unfold mend? at mends
  obtain ⟨lines, changes, rfl⟩ := Option.map_eq_some_iff.mp mends
  obtain ⟨before, line, after, changed, isLines, rfl, isChanged⟩ := exists_of_mendLines changes
  obtain ⟨front, back, rfl, rfl, behind⟩ := exists_of_mendLast isChanged
  obtain ⟨first, last, joined⟩ := exists_joinWith_append_cons '\n' before after
  refine ⟨first ++ front, back ++ last, ?_, ?_, List.mem_append_left _ behind⟩
  · rw [← joinWith_splitAtEach '\n' name.toList, isLines, joined]
    simp only [List.append_assoc, List.cons_append]
  · rw [String.toList_ofList, joined]
    simp only [List.append_assoc, List.cons_append]

/-- A name that the check proposes holds no slash, and a `T`. -/
theorem of_cause {path : Path} {name : String} (seen : (check path).cause = some (.newName name)) :
    '/' ∉ name.toList ∧ 'T' ∈ name.toList := by
  have mends : mend? path.baseName = some name := by
    unfold check at seen
    split at seen
    · rename_i mended mends
      rw [mends, ← Evidence.newName.inj (Option.some.inj seen)]
    · cases seen
  obtain ⟨front, back, isName, isMended, behind⟩ := exists_of_mend? mends
  have plain := path.plain_baseName
  rw [isName] at plain
  rw [isMended]
  constructor
  · intro inside
    rcases List.mem_append.mp inside with inFront | inBack
    · exact plain (List.mem_append_left _ inFront)
    · rcases List.mem_cons.mp inBack with isZero | inBack
      · cases isZero
      · exact plain (List.mem_append_right _ (List.mem_cons_of_mem _ inBack))
  · exact List.mem_append_right _ (List.mem_cons_of_mem _ behind)

end Datestamp

/-! ## Names other than that of a file that is being written -/

namespace PartialFile

/-- A name whose end has a character that the name of a file that is being written does not
have is another one. -/
theorem baseName_withFileName_ne (path : Path) (stem : String) {ending : String}
    (plain : '/' ∉ ending.toList) {c : Char} (member : c ∈ ending.toList) (notPoint : c ≠ '.')
    (other : c ∉ temporaryName.toList) :
    (path.withFileName (stem ++ ending)).baseName ≠ temporaryName := by
  obtain ⟨front, isName⟩ := path.baseName_withFileName stem plain member notPoint
  intro same
  rw [isName] at same
  rw [← same, String.toList_append] at other
  exact other (List.mem_append_right _ member)

/-- A file that is put aside under its `errorName` has another name. -/
theorem baseName_errorName_ne (operation : Operation) (path : Path) :
    (path.withFileName (operation.info.errorName path)).baseName ≠ temporaryName := by
  have plain : '/' ∉
      (".error_" ++ operation.info.suffix.getD operation.info.problem.id).toList := by
    cases operation <;> decide
  have member : '_' ∈
      (".error_" ++ operation.info.suffix.getD operation.info.problem.id).toList := by
    rw [String.toList_append]
    exact List.mem_append_left _ (by decide)
  rw [OperationInfo.errorName, String.append_assoc]
  exact baseName_withFileName_ne path path.baseName plain member (by decide) (by decide)

/-- So has a file whose stamp is mended. -/
theorem baseName_newName_ne {path : Path} {name : String}
    (seen : (Datestamp.check path).cause = some (.newName name)) :
    (path.withFileName name).baseName ≠ temporaryName := by
  obtain ⟨plain, member⟩ := Datestamp.of_cause seen
  have other := baseName_withFileName_ne path "" plain member (by decide) (by decide)
  rwa [String.empty_append] at other

/-- What the names of mended files end with. -/
def nameEnding : String := ".flac"

theorem exists_recoveredName (start : Except RecorderError StartTime) :
    ∃ stem, recoveredName start = stem ++ nameEnding := by
  cases start with
  | error cause =>
    have ends : undatedName = "unknown_date" ++ nameEnding := by decide
    exact ⟨_, ends⟩
  | ok start =>
    refine ⟨start.stamp ++ "_recovered", ?_⟩
    rw [String.append_assoc]
    rfl

/-- A mended file no longer has the name of a file that is being written. -/
theorem baseName_ne_temporaryName (path : Path) (start : Except RecorderError StartTime) :
    (path.withFileName (recoveredName start)).baseName ≠ temporaryName := by
  obtain ⟨stem, isName⟩ := exists_recoveredName start
  rw [isName]
  exact baseName_withFileName_ne path stem (by decide) (List.mem_of_getLast? (by decide))
    (by decide : 'c' ≠ '.') (by decide)

/-- The last segment of its path is a name. -/
theorem getLast?_segments (path : Path) (start : Except RecorderError StartTime) :
    ∃ last, (path.withFileName (recoveredName start)).segments.getLast? = some last ∧
      Path.isVoid last = false ∧ last ≠ ['.', '.'] := by
  obtain ⟨stem, isName⟩ := exists_recoveredName start
  have plain : '/' ∉ nameEnding.toList := by decide
  obtain ⟨before, front, cut⟩ := path.segments_withFileName stem plain
  refine ⟨front ++ nameEnding.toList, ?_, ?_⟩
  · rw [isName, cut, List.getLast?_concat]
  · exact Path.isName_of_mem (List.mem_append_right front (by decide : 'f' ∈ nameEnding.toList))
      (by decide)

end PartialFile

end FieldRecording
