import FieldRecording.Proofs.Files.NewFile

/-!
# Planned changes of whole files

What a move or a cut finds out before it changes anything it also finds out in a plan: `rename`
and `splitOff` are run with `.plan` and `.perform`, and reach the change itself with the same
findings. What is left for the change to find out is whether a new name can be given:
`FileStore.Permits`. Where it can, `rename_agrees` says that the plan of a move reports what the
move reports.
-/

namespace FieldRecording

/-- A name can be given to the file at a path, or to a new one beside it, if nothing has it yet:
there is a route for a move, and a vacant place for a file. -/
structure FileStore.Permits (store : FileStore) (path : Path) (name : String) : Prop where
  move : store.hasPath (path.withFileName name) = false →
    ∃ route, store.routeOf path (path.withFileName name) = .ok route
  create : store.hasPath (path.withFileName name) = false →
    ∃ location, store.vacantAt (path.withFileName name) = .ok location

namespace Filing

variable {store : FileStore} {path : Path} {name : String}

/-! ## Renaming -/

/-- No file is renamed to a name that is taken, whether the move is planned or made. -/
theorem runOn_rename_of_taken (mode : RunMode)
    (taken : store.hasPath (path.withFileName name) = true) :
    (rename mode path name).runOn store =
      (.error (.destinationTaken path (path.withFileName name)), store) := by
  unfold rename
  rw [runOn_bind_of_ok (runOn_hasPath store _), taken]
  rfl

theorem runOn_rename_plan (free : store.hasPath (path.withFileName name) = false) :
    (rename .plan path name).runOn store = (.ok (path.withFileName name), store) := by
  unfold rename
  rw [runOn_bind_of_ok (runOn_hasPath store _), free]
  rfl

section Move

variable (free : store.hasPath (path.withFileName name) = false)
include free

theorem runOn_rename_perform {old new : Location}
    (route : store.routeOf path (path.withFileName name) = .ok (old, new)) :
    (rename .perform path name).runOn store =
      (.ok (path.withFileName name), store.move old new) := by
  unfold rename
  rw [runOn_bind_of_ok (runOn_hasPath store _), free]
  refine runOn_bind_of_ok (runOn_whenPerforming_of_ok
    (?_ : runOn _ store = (.ok PUnit.unit, store.move old new))) _
  rw [runOn_bind_of_ok (runOn_get store), route]
  rfl

theorem runOn_rename_of_noRoute {cause : IoError}
    (noRoute : store.routeOf path (path.withFileName name) = .error cause) :
    (rename .perform path name).runOn store = (.error cause, store) := by
  unfold rename
  rw [runOn_bind_of_ok (runOn_hasPath store _), free]
  refine runOn_bind_of_error (runOn_whenPerforming_of_error ?_) _
  rw [runOn_bind_of_ok (runOn_get store), noRoute]
  rfl

end Move

/-- When `rename` fails, it has changed nothing. -/
theorem unchanged_of_rename {mode : RunMode} {cause : IoError} {after : FileStore}
    (failed : (rename mode path name).runOn store = (.error cause, after)) :
    after = store := by
  cases taken : store.hasPath (path.withFileName name) with
  | true =>
    rw [runOn_rename_of_taken _ taken] at failed
    exact (Prod.mk.inj failed).2.symm
  | false =>
    cases mode with
    | plan =>
      rw [runOn_rename_plan taken] at failed
      cases (Prod.mk.inj failed).1
    | perform =>
      rcases route : store.routeOf path (path.withFileName name) with _ | ⟨old, new⟩
      · rw [runOn_rename_of_noRoute taken route] at failed
        exact (Prod.mk.inj failed).2.symm
      · rw [runOn_rename_perform taken route] at failed
        cases (Prod.mk.inj failed).1

/-- What rests on a move is returned if the move is made, in either of the two modes. -/
theorem rename_bind_cases {α : Type} {made : Path → α} {mode : RunMode} {after : FileStore}
    {outcome : Except RepairError α}
    (ran : ((do return made (← (rename mode path name : Filing IoError Path))) :
      Filing RepairError α).runOn store = (outcome, after)) :
    (∃ cause, outcome = .error (.io cause) ∧ after = store) ∨
      ∃ destination, outcome = .ok (made destination) ∧
        (rename mode path name).runOn store = (.ok destination, after) := by
  rcases moved : (rename mode path name).runOn store with ⟨cause | destination, last⟩
  · rw [runOn_bind_of_error (runOn_lift_of_error moved)] at ran
    obtain ⟨rfl, rfl⟩ := Prod.mk.inj ran
    exact .inl ⟨cause, rfl, unchanged_of_rename moved⟩
  · rw [runOn_bind_of_ok (runOn_lift_of_ok moved)] at ran
    obtain ⟨rfl, rfl⟩ := Prod.mk.inj ran
    exact .inr ⟨destination, rfl, rfl⟩

/-- A move with `rename` that is made goes along a route of `routeOf`. -/
theorem exists_routeOf_of_rename {destination : Path} {after : FileStore}
    (ran : (rename .perform path name).runOn store = (.ok destination, after)) :
    destination = path.withFileName name ∧ store.hasPath destination = false ∧
      ∃ old new, store.routeOf path destination = .ok (old, new) ∧ after = store.move old new := by
  cases taken : store.hasPath (path.withFileName name) with
  | true =>
    rw [runOn_rename_of_taken _ taken] at ran
    cases (Prod.mk.inj ran).1
  | false =>
    rcases route : store.routeOf path (path.withFileName name) with cause | ⟨old, new⟩
    · rw [runOn_rename_of_noRoute taken route] at ran
      cases (Prod.mk.inj ran).1
    · rw [runOn_rename_perform taken route] at ran
      obtain ⟨isDestination, rfl⟩ := Prod.mk.inj ran
      obtain rfl := Except.ok.inj isDestination
      exact ⟨rfl, taken, old, new, route, rfl⟩

/-- A planned move reports what the move reports, if the store `Permits` the name. -/
theorem rename_agrees (permits : store.Permits path name) :
    ((rename .perform path name).runOn store).1 = ((rename .plan path name).runOn store).1 := by
  cases taken : store.hasPath (path.withFileName name) with
  | true => rw [runOn_rename_of_taken _ taken, runOn_rename_of_taken _ taken]
  | false =>
    obtain ⟨⟨old, new⟩, route⟩ := permits.move taken
    rw [runOn_rename_perform taken route, runOn_rename_plan taken]

/-! ## Cutting -/

section Cut

variable {fragment : Path} {offset : Nat} {location : Location} {content : Content}

/-- A file is not cut by `splitOff` behind its end. -/
theorem runOn_splitOff_of_lt (mode : RunMode) (opens : Opens store path location content)
    (past : content.size < offset) :
    (splitOff mode path fragment offset).runOn store =
      (.error (.cutPastEnd offset content.size), store) := by
  unfold splitOff
  rw [runOn_bind_of_ok (runOn_openFile opens)]
  dsimp only
  rw [if_pos past]
  rfl

theorem runOn_splitOff_plan (opens : Opens store path location content)
    (within : offset ≤ content.size) :
    (splitOff .plan path fragment offset).runOn store = (.ok (), store) := by
  unfold splitOff
  rw [runOn_bind_of_ok (runOn_openFile opens)]
  dsimp only
  rw [if_neg (Nat.not_lt.mpr within)]
  rfl

theorem runOn_splitOff_perform (opens : Opens store path location content)
    (within : offset ≤ content.size) {fresh : Location}
    (found : store.vacantAt fragment = .ok fresh) :
    (splitOff .perform path fragment offset).runOn store =
      (.ok (), (store.put fresh (content.extract offset content.size)).put location
        (content.extract 0 offset)) := by
  have cut : (do
      let new ← ofExcept ((← get).vacantAt fragment)
      modify fun store =>
        (store.put new (content.extract offset content.size)).put location
          (content.extract 0 offset) : Filing IoError PUnit).runOn store =
      (.ok ⟨⟩, (store.put fresh (content.extract offset content.size)).put location
        (content.extract 0 offset)) := by
    rw [runOn_bind_of_ok (runOn_get store), found]
    rfl
  unfold splitOff
  rw [runOn_bind_of_ok (runOn_openFile opens)]
  dsimp only
  rw [if_neg (Nat.not_lt.mpr within)]
  exact runOn_bind_of_ok (runOn_whenPerforming_of_ok cut) _

/-- A file is not cut if there is no place for the part that is cut off. -/
theorem runOn_splitOff_of_error (opens : Opens store path location content)
    (within : offset ≤ content.size) {cause : IoError}
    (noPlace : store.vacantAt fragment = .error cause) :
    (splitOff .perform path fragment offset).runOn store = (.error cause, store) := by
  have notCut : (do
      let new ← ofExcept ((← get).vacantAt fragment)
      modify fun store =>
        (store.put new (content.extract offset content.size)).put location
          (content.extract 0 offset) : Filing IoError PUnit).runOn store =
      (.error cause, store) := by
    rw [runOn_bind_of_ok (runOn_get store), noPlace]
    rfl
  unfold splitOff
  rw [runOn_bind_of_ok (runOn_openFile opens)]
  dsimp only
  rw [if_neg (Nat.not_lt.mpr within)]
  exact runOn_bind_of_error (runOn_whenPerforming_of_error notCut) _

end Cut

end Filing

end FieldRecording
