import FieldRecording.Proofs.Files.Leading
import Mathlib.Data.List.Nodup
import Mathlib.Data.List.Perm.Subperm

/-!
# Names of copies

Copies of a file are numbered. `backupPath` adds `backupEnding` to the name of the file, in the
directory of the file, and no two numbers have one name (`eq_of_backupPath_eq`). As only so many
files and directories exist, the search of `freeBackup` for a free name ends
(`exists_free_backupPath`), and it finds the least number whose path leads to nothing,
`IsNextBackup`. That may be a path that is too long for anything to stand there: `BackupFits` says
when it is not.

Numbers go up to `maxBackup`. A directory in which all of them are taken has no next copy that the
search reaches, so `freeBackup_eq` tells this case from the other one.
-/

namespace FieldRecording

namespace FileStore

variable {store : FileStore} {path : Path} {directory : Location} {name : List Char}

/-! ## A longer name in the same directory -/

/-- The last segment to follow is the last one of the path. -/
theorem getLast?_of_entrance {start : Location} {before : List (List Char)}
    (enters : store.entrance path = .ok (start, before ++ [name])) :
    path.segments.getLast? = some name := by
  unfold entrance at enters
  split at enters
  · cases enters
  split at enters
  · cases enters
  split at enters
  · cases enters
  · cases enters
  · rename_i rest _ isSegments
    obtain ⟨-, rfl⟩ := Prod.mk.inj (Except.ok.inj enters)
    rw [isSegments, ← List.cons_append, List.getLast?_concat]
  · obtain ⟨-, isSegments⟩ := Prod.mk.inj (Except.ok.inj enters)
    rw [isSegments, List.getLast?_concat]

namespace Leads

variable (leads : store.Leads path directory name) {more : String} (plain : '/' ∉ more.toList)
  (noNul : '\x00' ∉ more.toList)

include leads plain noNul

/-- A path with an ending is followed as it was, but for the last name: `entrance` returns the
same segments before it. -/
theorem entrance_append :
    ∃ start before, store.walk start before = .ok (.directory directory) ∧
      store.entrance (path ++ more) =
        if maxPathLength < (path ++ more).utf8ByteSize then .error .nameTooLong
        else .ok (start, before ++ [name ++ more.toList]) := by
  obtain ⟨start, before, enters, walked⟩ := leads.enters
  obtain ⟨front, last, cut, cutMore⟩ := splitAtEach_append plain path.toList
  have isSegments : path.segments = front ++ [last] := cut
  have isSegmentsMore : (path ++ more).segments = front ++ [last ++ more.toList] := by
    rw [Path.segments, String.toList_append, cutMore]
  have isLast := getLast?_of_entrance enters
  rw [isSegments, List.getLast?_concat] at isLast
  obtain rfl := Option.some.inj isLast
  have notEmpty : last ≠ [] := by
    rintro rfl
    cases leads.isName
  have someMore : last ++ more.toList ≠ [] := fun isNil =>
    notEmpty (List.append_eq_nil_iff.mp isNil).1
  have notNul : ¬ (path ++ more).toList.contains '\x00' = true := by
    rw [String.toList_append, List.contains_append, leads.notNul, Bool.false_or,
      List.contains_iff_mem]
    exact noNul
  rw [entrance_of_segments isSegments notEmpty] at enters
  split at enters
  · cases enters
  split at enters
  · cases enters
  obtain ⟨rfl, same⟩ := Prod.mk.inj (Except.ok.inj enters)
  obtain ⟨rfl, -⟩ := List.append_inj' same rfl
  refine ⟨_, _, walked, ?_⟩
  rw [entrance_of_segments isSegmentsMore someMore, if_neg notNul]

section Ending

variable (long : 2 ≤ more.toList.length)

include long

omit plain noNul in
/-- A name with an ending of two or more characters is a name: neither void nor `..`. -/
theorem isName_append : Path.isVoid (name ++ more.toList) = false ∧
    name ++ more.toList ≠ ['.', '.'] := by
  have long : 1 ≤ name.length := by
    rw [Nat.one_le_iff_ne_zero, ne_eq, List.length_eq_zero_iff]
    rintro rfl
    cases leads.isName
  have bound : 3 ≤ (name ++ more.toList).length := by
    rw [List.length_append]
    omega
  have other (short : List Char) (bounded : short.length ≤ 2) : name ++ more.toList ≠ short := by
    rintro rfl
    omega
  refine ⟨?_, other ['.', '.'] (by decide)⟩
  rw [Path.isVoid, beq_false_of_ne (other [] (by decide)),
    beq_false_of_ne (other ['.'] (by decide))]
  rfl

/-- With an ending that is not too long, a path leads to the longer name. -/
theorem append (shortPath : (path ++ more).utf8ByteSize ≤ maxPathLength)
    (shortName : (String.ofList name ++ more).utf8ByteSize ≤ maxNameLength) :
    store.LeadsTo (path ++ more) (directory ++ [String.ofList name ++ more]) := by
  obtain ⟨start, before, walked, enters⟩ := leads.entrance_append plain noNul
  rw [if_neg (Nat.not_lt.mpr shortPath)] at enters
  obtain ⟨isName, notAbove⟩ := leads.isName_append long
  have isWhole : String.ofList (name ++ more.toList) = String.ofList name ++ more := by
    rw [String.ofList_append, String.ofList_toList]
  exact ⟨directory, _, ⟨⟨start, before, enters, walked⟩, isName, notAbove, isWhole ▸ shortName⟩,
    by rw [isWhole]⟩

/-- With an ending that is too long, a path leads nowhere, and nothing can be created there. -/
theorem nameTooLong_append
    (tooLong : ¬ ((path ++ more).utf8ByteSize ≤ maxPathLength ∧
      (String.ofList name ++ more).utf8ByteSize ≤ maxNameLength)) :
    store.hasPath (path ++ more) = false ∧
      store.vacantAt (path ++ more) = .error .nameTooLong := by
  obtain ⟨start, before, walked, enters⟩ := leads.entrance_append plain noNul
  split at enters
  · unfold hasPath locate vacantAt endOf
    rw [enters]
    exact ⟨rfl, rfl⟩
  · rename_i shortPath
    obtain ⟨isName, notAbove⟩ := leads.isName_append long
    have longName : maxNameLength < (String.ofList (name ++ more.toList)).utf8ByteSize := by
      rw [String.ofList_append, String.ofList_toList]
      omega
    have nowhere : store.walk directory [name ++ more.toList] = .error .nameTooLong := by
      rw [walk, isName, if_neg Bool.false_ne_true, if_neg notAbove]
      exact if_pos longName
    constructor
    · rw [hasPath, locate_of_entrance enters, walk_append walked, nowhere]
    · unfold vacantAt
      rw [endOf_of_entrance enters walked isName notAbove]
      change (store.walk directory [name ++ more.toList] >>= _) = _
      rw [nowhere]
      rfl

end Ending

end Leads

end FileStore

namespace Filing

open FileStore (maxPathLength maxNameLength)

variable {store : FileStore} {path : Path} {directory : Location} {name : List Char}
  {number other : Nat}

/-! ## Endings of copies -/

/-- What the name of the `number`-th copy adds to that of the file: `.bak`, and from the second
copy on the number. -/
def backupEnding (number : Nat) : String :=
  if number ≤ 1 then ".bak" else ".bak" ++ number.repr

theorem backupPath_eq (path : Path) (number : Nat) :
    backupPath path number = path ++ backupEnding number := by
  unfold backupPath backupEnding
  split
  · rfl
  · rfl

theorem ne_of_mem_backupEnding {c separator : Char} (member : c ∈ (backupEnding number).toList)
    (noDigit : separator.isDigit = false) (apart : separator ∉ ".bak".toList) : c ≠ separator := by
  rintro rfl
  unfold backupEnding at member
  split at member
  · exact apart member
  · rw [String.toList_append, List.mem_append, Nat.toList_repr] at member
    rcases member with letter | digit
    · exact apart letter
    · rw [Nat.isDigit_of_mem_toDigits (by decide) (by decide) digit] at noDigit
      cases noDigit

theorem slash_not_mem_backupEnding (number : Nat) : '/' ∉ (backupEnding number).toList :=
  fun member => ne_of_mem_backupEnding member (by decide) (by decide) rfl

theorem nul_not_mem_backupEnding (number : Nat) : '\x00' ∉ (backupEnding number).toList :=
  fun member => ne_of_mem_backupEnding member (by decide) (by decide) rfl

theorem two_le_length_backupEnding (number : Nat) : 2 ≤ (backupEnding number).toList.length := by
  have letters : ".bak".toList.length = 4 := by decide
  unfold backupEnding
  split
  · omega
  · rw [String.toList_append, List.length_append]
    omega

/-- Copies have one name, by `backupPath`, only if they have one number. -/
theorem eq_of_backupPath_eq (positive : 1 ≤ number) (otherPositive : 1 ≤ other)
    (same : backupPath path number = backupPath path other) : number = other := by
  rw [backupPath_eq, backupPath_eq, String.append_right_inj] at same
  unfold backupEnding at same
  have plain (number : Nat) : ".bak" ≠ ".bak" ++ number.repr := by
    intro same
    have lengths := congrArg String.length same
    rw [String.length_append] at lengths
    have digits : 0 < number.repr.length := Nat.length_repr_pos
    omega
  split at same
  · split at same
    · omega
    · exact absurd same (plain other)
  · split at same
    · exact absurd same.symm (plain number)
    · have digits := congrArg String.toList ((String.append_right_inj _).mp same)
      rw [Nat.toList_repr, Nat.toList_repr] at digits
      calc number
          = Nat.ofDigitChars 10 (Nat.toDigits 10 number) 0 := Nat.ofDigitChars_ten_toDigits.symm
        _ = Nat.ofDigitChars 10 (Nat.toDigits 10 other) 0 := by rw [digits]
        _ = other := Nat.ofDigitChars_ten_toDigits

/-! ## Where copies stand -/

/-- Whether neither the path nor the name of a copy is too long, by `maxPathLength` and
`maxNameLength`. -/
def BackupFits (path : Path) (name : String) (number : Nat) : Prop :=
  (backupPath path number).utf8ByteSize ≤ maxPathLength ∧
    (backupPath name number).utf8ByteSize ≤ maxNameLength

instance (path : Path) (name : String) (number : Nat) : Decidable (BackupFits path name number) :=
  inferInstanceAs (Decidable (_ ∧ _))

section Standing

variable (leads : store.Leads path directory name)

include leads

/-- The path of a copy that `BackupFits` leads to its name beside the file. -/
theorem leadsTo_backupPath (fits : BackupFits path (String.ofList name) number) :
    store.LeadsTo (backupPath path number)
      (directory ++ [backupPath (String.ofList name) number]) := by
  unfold BackupFits at fits
  rw [backupPath_eq, backupPath_eq] at fits ⊢
  exact leads.append (slash_not_mem_backupEnding number) (nul_not_mem_backupEnding number)
    (two_le_length_backupEnding number) fits.1 fits.2

/-- Under a path that is too long, by `BackupFits`, nothing stands, and nothing can be created. -/
theorem nameTooLong_backupPath (tooLong : ¬ BackupFits path (String.ofList name) number) :
    store.hasPath (backupPath path number) = false ∧
      store.vacantAt (backupPath path number) = .error .nameTooLong := by
  unfold BackupFits at tooLong
  rw [backupPath_eq, backupPath_eq] at tooLong
  rw [backupPath_eq]
  exact leads.nameTooLong_append (slash_not_mem_backupEnding number)
    (nul_not_mem_backupEnding number) (two_le_length_backupEnding number) tooLong

/-- A number is taken by a file or a directory with that name, so that its location is among those
of the store. -/
theorem mem_of_hasPath_backupPath (taken : store.hasPath (backupPath path number) = true) :
    directory ++ [backupPath (String.ofList name) number] ∈
      store.files.map Prod.fst ++ store.directories := by
  by_cases fits : BackupFits path (String.ofList name) number
  · rw [(leadsTo_backupPath leads fits).hasPath_eq, FileStore.isDirectory, Bool.or_eq_true,
      Bool.or_eq_true, List.isEmpty_iff, List.contains_iff_mem, FileStore.content?,
      List.lookup_isSome_iff] at taken
    rw [List.mem_append]
    rcases taken with (isRoot | isDirectory) | ⟨file, isFile, same⟩
    · exact absurd isRoot (List.concat_ne_nil _ _)
    · exact .inr isDirectory
    · exact .inl (List.mem_map.mpr ⟨file, isFile, (eq_of_beq same).symm⟩)
  · rw [(nameTooLong_backupPath leads fits).1] at taken
    cases taken

/-- Of one number more than there are files and directories, one is free, as each of them takes
one number at most. -/
theorem exists_free_backupPath :
    ∃ number, 1 ≤ number ∧ number ≤ store.files.length + store.directories.length + 1 ∧
      store.hasPath (backupPath path number) = false := by
  apply Classical.byContradiction
  intro noneFree
  let places := store.files.map Prod.fst ++ store.directories
  let named (index : Nat) := directory ++ [backupPath (String.ofList name) (index + 1)]
  have injective : Function.Injective named := by
    intro index other same
    have sameName := (List.cons.inj (List.append_cancel_left same)).1
    exact Nat.succ.inj (eq_of_backupPath_eq (Nat.le_add_left 1 index) (Nat.le_add_left 1 other)
      sameName)
  -- if none is free, there are more names than places that they stand for
  have subset : (List.range (places.length + 1)).map named ⊆ places := by
    intro location member
    obtain ⟨index, inRange, rfl⟩ := List.mem_map.mp member
    apply mem_of_hasPath_backupPath leads
    refine Bool.not_eq_false _ ▸ fun free => noneFree ⟨index + 1, Nat.le_add_left 1 index, ?_, free⟩
    rw [List.mem_range, List.length_append, List.length_map] at inRange
    omega
  have bound := ((List.nodup_range.map injective).subperm subset).length_le
  rw [List.length_map, List.length_range] at bound
  omega

end Standing

/-! ## The search -/

/-- The next copy has the first number, from one on, whose path leads to nothing. -/
structure IsNextBackup (store : FileStore) (path : Path) (number : Nat) : Prop where
  positive : 1 ≤ number
  free : store.hasPath (backupPath path number) = false
  taken : ∀ earlier, 1 ≤ earlier → earlier < number →
    store.hasPath (backupPath path earlier) = true

/-- There is one next copy. -/
theorem IsNextBackup.unique {store : FileStore} {path : Path} {number other : Nat}
    (isNext : IsNextBackup store path number) (again : IsNextBackup store path other) :
    other = number := by
  rcases Nat.lt_trichotomy other number with less | same | more
  · have taken := isNext.taken other again.positive less
    rw [again.free] at taken
    cases taken
  · exact same
  · have taken := again.taken number isNext.positive more
    rw [isNext.free] at taken
    cases taken

/-- The search of `freeBackup` stops at the first free number, or finds all numbers taken that it
has left. -/
theorem freeBackup_cases (store : FileStore) (path : Path) (first left : Nat) :
    (∃ found, freeBackup store path first left = some (backupPath path found) ∧ first ≤ found ∧
      found < first + left ∧ store.hasPath (backupPath path found) = false ∧
      ∀ earlier, first ≤ earlier → earlier < found →
        store.hasPath (backupPath path earlier) = true) ∨
    freeBackup store path first left = none ∧
      ∀ number, first ≤ number → number < first + left →
        store.hasPath (backupPath path number) = true := by
  induction left generalizing first with
  | zero => exact .inr ⟨rfl, fun _ _ _ => by omega⟩
  | succ left ih =>
    rw [freeBackup]
    cases taken : store.hasPath (backupPath path first) with
    | false =>
      exact .inl ⟨first, if_neg Bool.false_ne_true, Nat.le_refl first, by omega, taken,
        fun _ _ _ => by omega⟩
    | true =>
      rw [if_pos rfl]
      have further {number : Nat} (behind : first ≤ number) (rest : first + 1 ≤ number →
          store.hasPath (backupPath path number) = true) :
          store.hasPath (backupPath path number) = true := by
        rcases Nat.eq_or_lt_of_le behind with rfl | behind
        · exact taken
        · exact rest behind
      rcases ih (first + 1) with ⟨found, isFound, later, within, free, before⟩ | ⟨isNone, all⟩
      · exact .inl ⟨found, isFound, by omega, by omega, free, fun earlier behind below =>
          further behind fun behind => before earlier behind below⟩
      · exact .inr ⟨isNone, fun number behind within =>
          further behind fun behind => all number behind (by omega)⟩

/-- There is a next copy, `IsNextBackup`, with a number of no more than one above how many files
and directories there are. -/
theorem exists_isNextBackup (leads : store.Leads path directory name) :
    ∃ number, IsNextBackup store path number ∧
      number ≤ store.files.length + store.directories.length + 1 := by
  obtain ⟨other, otherPositive, inReach, otherFree⟩ := exists_free_backupPath leads
  rcases freeBackup_cases store path 1 (store.files.length + store.directories.length + 1) with
    ⟨number, _, positive, within, free, taken⟩ | ⟨_, all⟩
  · exact ⟨number, ⟨positive, free, taken⟩, by omega⟩
  · have taken := all other otherPositive (by omega)
    rw [otherFree] at taken
    cases taken

/-- The search finds the next copy, unless its number is above `maxBackup`. -/
theorem freeBackup_eq {number : Nat} (isNext : IsNextBackup store path number)
    (inReach : number ≤ store.files.length + store.directories.length + 1) :
    freeBackup store path 1 (min (store.files.length + store.directories.length + 1) maxBackup) =
      if number ≤ maxBackup then some (backupPath path number) else none := by
  rcases freeBackup_cases store path 1
    (min (store.files.length + store.directories.length + 1) maxBackup) with
    ⟨found, isFound, positive, within, free, taken⟩ | ⟨isNone, all⟩
  · obtain rfl := isNext.unique ⟨positive, free, taken⟩
    rw [isFound, if_pos (by omega)]
  · have beyond : ¬ number ≤ maxBackup := by
      intro inside
      have taken := all number isNext.positive (by omega)
      rw [isNext.free] at taken
      cases taken
    rw [isNone, if_neg beyond]

end Filing

end FieldRecording
