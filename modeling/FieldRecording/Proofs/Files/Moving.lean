import FieldRecording.Proofs.Files.Planning
import FieldRecording.Proofs.Files.Tree

/-!
# Moves

`FileStore.move` goes from where something stands to where nothing does. It carries along what
stands in what is moved, and leaves all else where it was (`content?_move_of_apart`,
`isDirectory_move_of_apart`).

Where a path leads follows from its segments, if it leads anywhere: `location_of_locate` finds
what `locate` returns at `locationOf`, which does not look at the store. So the path of a move
leads to where the move went, and `of_routeOf` says of both ends of a route where they are.
-/

namespace FieldRecording

namespace FileStore

variable {store : FileStore} {path source destination : Path} {old new location : Location}

/-! ## Where paths lead -/

theorem descend_append (here : Location) (front back : List (List Char)) :
    descend here (front ++ back) = descend (descend here front) back := by
  induction front generalizing here with
  | nil => rfl
  | cons segment front ih =>
    rw [List.cons_append, descend, descend]
    split
    · exact ih here
    · split
      · exact ih here.dropLast
      · exact ih _

theorem descend_of_void {void : List (List Char)} (isVoid : ∀ segment ∈ void, segment = [])
    (here : Location) : descend here void = here := by
  induction void with
  | nil => rfl
  | cons segment void ih =>
    obtain rfl := isVoid segment List.mem_cons_self
    exact ih fun segment member => isVoid segment (List.mem_cons_of_mem _ member)

/-- What segments lead to, if they do, stands where `descend` says, whatever else there is. -/
theorem location_of_walk {here : Location} {segments : List (List Char)} {place : Place}
    (found : store.walk here segments = .ok place) : place.location = descend here segments := by
  induction segments generalizing here with
  | nil =>
    obtain rfl := Except.ok.inj found
    rfl
  | cons segment rest ih =>
    rw [walk] at found
    rw [descend]
    split at found
    · rename_i void
      rw [if_pos void]
      exact ih found
    rename_i notVoid
    rw [if_neg notVoid]
    split at found
    · rename_i isAbove
      rw [if_pos isAbove]
      exact ih found
    rename_i notAbove
    rw [if_neg notAbove]
    dsimp only at found
    split at found
    · cases found
    split at found
    · exact ih found
    -- a name that is no directory is the last segment
    split at found
    · split at found
      · rename_i ends
        obtain rfl := Except.ok.inj found
        rw [List.isEmpty_iff.mp ends]
        rfl
      · cases found
    · split at found
      · rename_i ends
        obtain rfl := Except.ok.inj found
        rw [List.isEmpty_iff.mp ends]
        rfl
      · cases found

theorem locationOf_of_entrance {start : Location} {segments : List (List Char)}
    (enters : store.entrance path = .ok (start, segments)) :
    store.locationOf path = descend start segments := by
  unfold entrance at enters
  unfold locationOf
  split at enters
  · cases enters
  split at enters
  · cases enters
  split at enters
  · cases enters
  · cases enters
  · rename_i rest _ isSegments
    obtain ⟨rfl, rfl⟩ := Prod.mk.inj (Except.ok.inj enters)
    rw [isSegments]
  · rename_i noRoot
    obtain ⟨rfl, rfl⟩ := Prod.mk.inj (Except.ok.inj enters)
    split
    · rename_i rest isSegments
      exact absurd isSegments (noRoot rest)
    · rfl

/-- What a path leads to, if it does, stands where the path says, at its `locationOf`. -/
theorem location_of_locate {place : Place} (found : store.locate path = .ok place) :
    place.location = store.locationOf path := by
  obtain ⟨start, segments, enters, walked⟩ := of_locate found
  rw [location_of_walk walked, locationOf_of_entrance enters]

/-- A path leads to one location, as `LeadsTo` goes by the segments. -/
theorem LeadsTo.unique (leads : store.LeadsTo path location) {other : Location}
    (leadsOther : store.LeadsTo path other) : location = other := by
  have isPath {location : Location} (leads : store.LeadsTo path location) :
      location = store.locationOf path := by
    rw [← location_of_locate leads.locate_eq]
    split
    · rfl
    · split
      · rfl
      · rfl
  rw [isPath leads, isPath leadsOther]

/-- What a path ends with stands where the path says. -/
theorem location_of_endOf {ending : PathEnd} (ended : store.endOf path = .ok ending)
    {name : List Char} (named : ending.name = some name) {place : Place}
    (found : store.walk ending.directory [name] = .ok place) :
    place.location = store.locationOf path := by
  obtain ⟨start, before, void, enters, isVoid, _, entered⟩ := walk_of_endOf ended named
  have entrance := location_of_walk entered
  change ending.directory = _ at entrance
  rw [location_of_walk found, locationOf_of_entrance enters, List.append_cons, descend_append,
    descend_of_void isVoid, descend_append, ← entrance]

/-! ## Routes -/

/-- Slashes that follow a directory lead nowhere else. -/
theorem walk_of_void {void : List (List Char)} (isVoid : ∀ segment ∈ void, segment = [])
    (here : Location) : store.walk here void = .ok (.directory here) := by
  induction void with
  | nil => rfl
  | cons segment void ih =>
    obtain rfl := isVoid segment List.mem_cons_self
    exact ih fun segment member => isVoid segment (List.mem_cons_of_mem _ member)

/-- A path leads to what it ends with, if that is a directory or no slashes follow. -/
theorem locate_of_endOf {ending : PathEnd} (ended : store.endOf path = .ok ending)
    {name : List Char} (named : ending.name = some name) {place : Place}
    (found : store.walk ending.directory [name] = .ok place)
    (ends : place.isDirectory = false → ending.slash = false) : store.locate path = .ok place := by
  obtain ⟨start, before, void, enters, isVoid, noVoid, entered⟩ := walk_of_endOf ended named
  rw [locate_of_entrance enters, walk_append entered]
  cases place with
  | directory location =>
    rw [← List.singleton_append, walk_append found]
    exact walk_of_void isVoid location
  | file location => rw [noVoid (ends rfl), found]
  | vacant location => rw [noVoid (ends rfl), found]

/-- A route of `routeOf` goes from something, which a path leads to, to where another path says,
and where nothing stands. -/
theorem of_routeOf (found : store.routeOf source destination = .ok (old, new)) :
    (∃ moved, store.locate source = .ok moved ∧ moved.isVacant = false ∧ moved.location = old ∧
      (moved.isDirectory = false → store.locate destination = .ok (.vacant new))) ∧
    store.isDirectory new = false ∧ store.content? new = none ∧
      store.locationOf destination = new := by
  unfold routeOf at found
  dsimp only at found
  split at found
  · cases found
  rcases of_bind_eq_ok found with ⟨oldEnd, oldEnded, found⟩
  rcases of_bind_eq_ok found with ⟨newEnd, newEnded, found⟩
  split at found
  · rename_i oldName oldNamed
    split at found
    · rename_i newName newNamed
      rcases of_bind_eq_ok found with ⟨moved, walkedOld, found⟩
      split at found
      · cases found
      rename_i notVacant
      rcases of_bind_eq_ok found with ⟨target, walkedNew, found⟩
      obtain ⟨isOld, rfl, ends⟩ : moved.location = old ∧ target = .vacant new ∧
          (moved.isDirectory = false → oldEnd.slash = false ∧ newEnd.slash = false) := by
        cases target with
        | file location => split at found <;> split at found <;> cases found
        | directory location => split at found <;> split at found <;> cases found
        | vacant location =>
          split at found
          · rename_i isDirectory
            split at found
            · cases found
            · obtain ⟨isOld, rfl⟩ := Prod.mk.inj (Except.ok.inj found)
              refine ⟨isOld, rfl, fun other => ?_⟩
              rw [isDirectory] at other
              cases other
          · split at found
            · cases found
            · rename_i noSlash
              obtain ⟨isOld, rfl⟩ := Prod.mk.inj (Except.ok.inj found)
              exact ⟨isOld, rfl, fun _ => Bool.or_eq_false_iff.mp (Bool.not_eq_true _ ▸ noSlash)⟩
      refine ⟨⟨moved, locate_of_endOf oldEnded oldNamed walkedOld fun file => (ends file).1,
        Bool.not_eq_true _ ▸ notVacant, isOld, fun file =>
        locate_of_endOf newEnded newNamed walkedNew fun _ => (ends file).2⟩,
        (vacant_of_walk walkedNew).1, (vacant_of_walk walkedNew).2,
        (location_of_endOf newEnded newNamed walkedNew).symm⟩
    · cases found
  · cases found

/-! ## What a move leaves alone -/

/-- Where no file goes, and none comes from, files stand as before. -/
theorem content?_move_of_apart (notOld : ¬ old <+: location) (notNew : ¬ new <+: location) :
    (store.move old new).content? location = store.content? location := by
  have same (place : Location) : (location == moved old new place) = (location == place) := by
    by_cases within : old <+: place
    · have isMoved : moved old new place = new ++ place.drop old.length := by
        rw [moved, if_pos (List.isPrefixOf_iff_prefix.mpr within)]
      rw [beq_false_of_ne, beq_false_of_ne]
      · rintro rfl
        exact notOld within
      · rintro rfl
        exact notNew (isMoved ▸ List.prefix_append _ _)
    · rw [moved_of_other within]
  unfold content? move
  dsimp only
  induction store.files with
  | nil => rfl
  | cons file files ih =>
    obtain ⟨place, held⟩ := file
    rw [List.map_cons, List.lookup_cons, List.lookup_cons, same, ih]

/-- A directory that is not taken along stays. -/
theorem isDirectory_move_of_apart (notOld : ¬ old <+: location)
    (isDirectory : store.isDirectory location = true) :
    (store.move old new).isDirectory location = true := by
  rw [FileStore.isDirectory, Bool.or_eq_true, List.contains_iff_mem] at isDirectory ⊢
  refine isDirectory.imp_right fun member => ?_
  exact List.mem_map.mpr ⟨location, member, moved_of_other notOld⟩

end FileStore

end FieldRecording
