import FieldRecording.Proofs.Files.Leading

/-!
# Stores as trees

The files and directories of a store form a tree, `IsTree`: each stands in a directory, and
nothing stands in a file (`not_in_file`). A file that is moved then takes nothing with it
(`IsTree.content?_move`, `IsTree.isDirectory_move`), although `FileStore.move` carries along
whatever stands below. Every change that the repairs make leaves a tree.

`Bounded` says of the contents that each ends before the largest position of a file. It is asked
for where offsets in a file are computed.
-/

namespace FieldRecording.FileStore

variable {store : FileStore} {path : Path} {directory location : Location}

/-- Whether every file ends before the largest position of a file, `sizeLimit`. -/
def Bounded (store : FileStore) : Prop :=
  ∀ location content, store.content? location = some content → content.size < sizeLimit

theorem bounded_of_files (small : ∀ file ∈ store.files, file.2.size < sizeLimit) :
    store.Bounded := by
  intro location content holds
  obtain ⟨before, others, isFiles, _⟩ := List.lookup_eq_some_iff.mp holds
  exact small (location, content) (isFiles ▸ List.mem_append_right before List.mem_cons_self)

theorem Bounded.put (bounded : store.Bounded) {content : Content} (small : content.size < sizeLimit)
    (location : Location) : (store.put location content).Bounded := by
  intro other held holds
  rw [content?_put] at holds
  split at holds
  · rwa [← Option.some.inj holds]
  · exact bounded other held holds

theorem Bounded.withSealed (bounded : store.Bounded) (locations : List Location) :
    ({ store with sealed := locations } : FileStore).Bounded := bounded

/-- Of two contents that a file is given, the second one stays. -/
theorem put_put (store : FileStore) (location : Location) (first second : Content) :
    (store.put location first).put location second = store.put location second := by
  have others : (List.filter (fun file => file.1 != location)
      (List.filter (fun file => file.1 != location) store.files)) =
        List.filter (fun file => file.1 != location) store.files := by
    rw [List.filter_filter]
    simp only [Bool.and_self]
  simp only [put, erase, List.filter_cons, bne_self_eq_false, Bool.false_eq_true, if_false, others]

/-! ## Trees -/

/-- The files and directories form a tree, and the working directory is one of them. No location
is that of a file and of a directory. -/
structure IsTree (store : FileStore) : Prop where
  here : store.isDirectory store.here = true
  above : ∀ location, store.isDirectory location = true →
    store.isDirectory location.dropLast = true
  aboveFile : ∀ location content, store.content? location = some content →
    store.isDirectory location.dropLast = true
  apart : ∀ location content, store.content? location = some content →
    store.isDirectory location = false

/-- It is enough to look at the files and directories that there are to have an `IsTree`. -/
theorem isTree_of_mem (here : store.isDirectory store.here = true)
    (above : ∀ directory ∈ store.directories, store.isDirectory directory.dropLast = true)
    (files : ∀ file ∈ store.files, store.isDirectory file.1.dropLast = true ∧
      store.isDirectory file.1 = false) : store.IsTree := by
  have ofHolds {location : Location} {content : Content}
      (holds : store.content? location = some content) :
      store.isDirectory location.dropLast = true ∧ store.isDirectory location = false := by
    obtain ⟨before, others, isFiles, _⟩ := List.lookup_eq_some_iff.mp holds
    exact files (location, content) (isFiles ▸ List.mem_append_right before List.mem_cons_self)
  refine ⟨here, fun location isDirectory => ?_, fun _ _ holds => (ofHolds holds).1,
    fun _ _ holds => (ofHolds holds).2⟩
  have listed := isDirectory
  rw [FileStore.isDirectory, Bool.or_eq_true, List.isEmpty_iff, List.contains_iff_mem] at listed
  rcases listed with rfl | member
  · exact isDirectory
  · exact above location member

namespace IsTree

variable (tree : store.IsTree)

include tree

/-- What is above a directory is one. -/
theorem isDirectory_of_append {upper : Location} (lower : Location)
    (isDirectory : store.isDirectory (upper ++ lower) = true) :
    store.isDirectory upper = true := by
  induction lower generalizing upper with
  | nil => rwa [List.append_nil] at isDirectory
  | cons name lower ih =>
    rw [List.append_cons] at isDirectory
    have inside := tree.above _ (ih isDirectory)
    rwa [List.dropLast_concat] at inside

/-- Nothing stands in a file. -/
theorem not_in_file {file : Location} {content : Content}
    (isFile : store.content? file = some content)
    (isDirectory : store.isDirectory location = true) :
    ¬ file <+: location := by
  rintro ⟨lower, rfl⟩
  have apart := tree.apart file content isFile
  rw [tree.isDirectory_of_append lower isDirectory] at apart
  cases apart

/-- What is above something is a directory. -/
theorem isDirectory_of_above {upper : Location}
    (there : store.isDirectory location = true ∨ (store.content? location).isSome = true)
    (above : upper <+: location) (ne : upper ≠ location) : store.isDirectory upper = true := by
  obtain ⟨lower, rfl⟩ := above
  rcases List.eq_nil_or_concat lower with rfl | ⟨between, last, rfl⟩
  · rw [List.append_nil] at ne
    exact absurd rfl ne
  · rcases there with isDirectory | isFile
    · exact tree.isDirectory_of_append _ isDirectory
    · obtain ⟨held, holds⟩ := Option.isSome_iff_exists.mp isFile
      have inside := tree.aboveFile _ held holds
      rw [List.concat_eq_append, ← List.append_assoc, List.dropLast_concat] at inside
      exact tree.isDirectory_of_append between inside

/-- No file stands in another one. -/
theorem eq_of_file_in_file {file : Location} {content held : Content}
    (isFile : store.content? file = some content) (holds : store.content? location = some held)
    (upper : file <+: location) : file = location := by
  refine Decidable.byContradiction fun ne => ?_
  have apart := tree.apart file content isFile
  rw [tree.isDirectory_of_above (.inr (by rw [holds]; rfl)) upper ne] at apart
  cases apart

/-- A path enters the tree at a directory, and `walk` leaves it at none. -/
theorem isDirectory_of_walk {here : Location} {segments : List (List Char)}
    (inTree : store.isDirectory here = true)
    (entered : store.walk here segments = .ok (.directory directory)) :
    store.isDirectory directory = true := by
  induction segments generalizing here with
  | nil =>
    obtain rfl := Place.directory.inj (Except.ok.inj entered)
    exact inTree
  | cons segment rest ih =>
    obtain ⟨next, leads, entered⟩ := exists_next?_of_walk entered
    refine ih ?_ entered
    unfold next? at leads
    split at leads
    · rwa [← Option.some.inj leads]
    split at leads
    · rw [← Option.some.inj leads]
      exact tree.above here inTree
    split at leads
    · cases leads
    split at leads
    · rename_i isDirectory
      rwa [← Option.some.inj leads]
    · cases leads

/-- A path leads to a location in a directory. -/
theorem isDirectory_of_leadsTo (leads : store.LeadsTo path location) :
    store.isDirectory location.dropLast = true := by
  obtain ⟨directory, name, leads, rfl⟩ := leads
  obtain ⟨start, before, enters, walked⟩ := leads.enters
  rw [List.dropLast_concat]
  refine tree.isDirectory_of_walk ?_ walked
  unfold entrance at enters
  split at enters
  · cases enters
  split at enters
  · cases enters
  split at enters
  · cases enters
  · cases enters
  · rw [← (Prod.mk.inj (Except.ok.inj enters)).1]
    rfl
  · rw [← (Prod.mk.inj (Except.ok.inj enters)).1]
    exact tree.here

/-- Which files are sealed makes no difference to the tree. -/
theorem withSealed (locations : List Location) :
    ({ store with sealed := locations } : FileStore).IsTree :=
  ⟨tree.here, tree.above, tree.aboveFile, tree.apart⟩

/-- A file that is put into a directory leaves a tree. -/
theorem put (above : store.isDirectory location.dropLast = true)
    (apart : store.isDirectory location = false) (content : Content) :
    (store.put location content).IsTree where
  here := tree.here
  above := tree.above
  aboveFile other held holds := by
    rw [content?_put] at holds
    split at holds
    · rename_i same
      rw [same]
      exact above
    · exact tree.aboveFile other held holds
  apart other held holds := by
    rw [content?_put] at holds
    split at holds
    · rename_i same
      rw [same]
      exact apart
    · exact tree.apart other held holds

end IsTree

/-! ## Moves of a file -/

section Move

variable {old new : Location} {content : Content}

theorem moved_of_other (other : ¬ old <+: location) : moved old new location = location := by
  rw [moved, if_neg (fun isPrefix => other (List.isPrefixOf_iff_prefix.mp isPrefix))]

theorem moved_self : moved old new old = new := by
  rw [moved, if_pos (List.isPrefixOf_iff_prefix.mpr (List.prefix_refl old)), List.drop_length,
    List.append_nil]

/-- A file that is moved with `move` takes no directory with it. -/
theorem IsTree.isDirectory_move (tree : store.IsTree) (isFile : store.content? old = some content)
    (location : Location) : (store.move old new).isDirectory location =
      store.isDirectory location := by
  have same : (store.move old new).directories = store.directories := by
    apply (List.map_congr_left ?_).trans (List.map_id _)
    intro directory isDirectory
    apply moved_of_other
    apply tree.not_in_file isFile
    rw [FileStore.isDirectory, Bool.or_eq_true, List.contains_iff_mem]
    exact .inr isDirectory
  exact isDirectory_congr same location

/-- A lookup among files of which one was moved. -/
theorem lookup_map_moved {files : List (Location × Content)}
    (alone : ∀ file ∈ files, file.1 = old ∨ ¬ old <+: file.1)
    (free : ∀ file ∈ files, file.1 ≠ new) (location : Location) :
    (files.map fun file => (moved old new file.1, file.2)).lookup location =
      if location = new then files.lookup old
      else if location = old then none
      else files.lookup location := by
  induction files with
  | nil =>
    split
    · rfl
    · split
      · rfl
      · rfl
  | cons file files ih =>
    have rest := ih (fun other member => alone other (List.mem_cons_of_mem _ member))
      (fun other member => free other (List.mem_cons_of_mem _ member))
    obtain ⟨place, held⟩ := file
    rw [List.map_cons, List.lookup_cons, rest, List.lookup_cons, List.lookup_cons]
    rcases alone _ List.mem_cons_self with rfl | other
    · dsimp only
      rw [moved_self, beq_self_eq_true]
      by_cases isNew : location = new
      · rw [isNew, beq_self_eq_true]
        exact (if_pos rfl).symm
      · rw [beq_false_of_ne isNew, if_neg isNew, if_neg isNew]
        dsimp only
        split
        · rfl
        · rename_i isOther
          rw [beq_false_of_ne isOther]
    · dsimp only at other ⊢
      have notOld : place ≠ old := fun same => other (same ▸ List.prefix_refl _)
      have notNew : place ≠ new := free _ List.mem_cons_self
      rw [moved_of_other other, beq_false_of_ne notOld.symm]
      by_cases here : location = place
      · rw [here, beq_self_eq_true]
        dsimp only
        rw [if_neg notNew, if_neg notOld]
      · rw [beq_false_of_ne here]

/-- A file that `move` takes to a vacant place stands there, and all others stand where they
stood. -/
theorem IsTree.content?_move (tree : store.IsTree) (isFile : store.content? old = some content)
    (vacant : store.content? new = none) (location : Location) :
    (store.move old new).content? location =
      if location = new then some content
      else if location = old then none
      else store.content? location := by
  have alone : ∀ file ∈ store.files, file.1 = old ∨ ¬ old <+: file.1 := by
    intro file member
    by_cases upper : old <+: file.1
    · obtain ⟨held, holds⟩ : ∃ held, store.content? file.1 = some held := by
        rw [← Option.isSome_iff_exists, content?, List.lookup_isSome_iff]
        exact ⟨file, member, beq_self_eq_true _⟩
      exact .inl (tree.eq_of_file_in_file isFile holds upper).symm
    · exact .inr upper
  have free : ∀ file ∈ store.files, file.1 ≠ new := by
    intro file member isNew
    have notNew := List.lookup_eq_none_iff.mp vacant file member
    rw [isNew, bne_self_eq_false] at notNew
    cases notNew
  rw [← isFile]
  exact lookup_map_moved alone free location

section Place

variable (tree : store.IsTree) (isFile : store.content? old = some content)
  (vacant : store.content? new = none)

include tree isFile vacant

/-- A file that is moved into a directory leaves a tree, `IsTree` again. -/
theorem IsTree.move (above : store.isDirectory new.dropLast = true)
    (apart : store.isDirectory new = false) : (store.move old new).IsTree where
  here := (tree.isDirectory_move isFile _).trans tree.here
  above location isDirectory := by
    rw [tree.isDirectory_move isFile] at isDirectory ⊢
    exact tree.above location isDirectory
  aboveFile location held holds := by
    rw [tree.isDirectory_move isFile]
    rw [tree.content?_move isFile vacant] at holds
    split at holds
    · rename_i isNew
      rw [isNew]
      exact above
    split at holds
    · cases holds
    · exact tree.aboveFile location held holds
  apart location held holds := by
    rw [tree.isDirectory_move isFile]
    rw [tree.content?_move isFile vacant] at holds
    split at holds
    · rename_i isNew
      rw [isNew]
      exact apart
    split at holds
    · cases holds
    · exact tree.apart location held holds

theorem Bounded.move (bounded : store.Bounded) : (store.move old new).Bounded := by
  intro location held holds
  rw [tree.content?_move isFile vacant] at holds
  split at holds
  · rw [← Option.some.inj holds]
    exact bounded old content isFile
  split at holds
  · cases holds
  · exact bounded location held holds

end Place

end Move

end FieldRecording.FileStore
