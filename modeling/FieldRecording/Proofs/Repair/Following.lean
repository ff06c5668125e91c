import FieldRecording.Proofs.Repair.Applying

/-!
# A file from one repair to the next

A repair may move the file, and the next one is run where it has left it, `leftAt`. What every
repair keeps, seen from where it leaves the file, all of them keep, seen from where the report
says the file is, `lastPath`: `holds_of_repairAll` packages the induction on the problems that are
repaired.
-/

namespace FieldRecording

/-- Where a repair leaves the file that was at a path: at the path that its result names, if it
names one. -/
def leftAt (path : Path) : Except RepairError FixResult → Path
  | .ok result => result.newPath.getD path
  | .error _ => path

namespace Apply

theorem followed_answer (path : Path) (finding : Finding) (outcome : Except RepairError FixResult) :
    followed .perform path (answer finding outcome) = leftAt path outcome := by
  cases outcome with
  | error cause => rfl
  | ok result => rfl

/-- Where a file is after what was done about its problems, one `leftAt` after the other. -/
def lastPath (path : Path) (outcomes : List ProblemOutcome) : Path :=
  outcomes.foldl (followed .perform) path

theorem finalPath_eq (report : ApplyReport) :
    report.finalPath = lastPath report.file report.problems := by
  obtain ⟨path, backup, problems⟩ := report
  unfold ApplyReport.finalPath
  dsimp only
  induction problems generalizing path with
  | nil => rfl
  | cons outcome outcomes ih =>
    rw [List.reverse_cons, List.findSome?_append, Option.getD_or, List.findSome?_singleton, ih]
    rfl

/-- Problems that are left do not move the file. -/
theorem lastPath_leave (path : Path) (findings : List Finding) :
    lastPath path (findings.map leave) = path := by
  induction findings with
  | nil => rfl
  | cons finding findings ih => exact ih

/-- The one that is not left moves it. -/
theorem lastPath_leave_around (path : Path) (front back : List Finding) (outcome : ProblemOutcome) :
    lastPath path (front.map leave ++ outcome :: back.map leave) =
      outcome.result.newPath.getD path := by
  rw [lastPath, List.foldl_append, List.foldl_cons]
  change lastPath (outcome.result.newPath.getD (lastPath path (front.map leave)))
    (back.map leave) = _
  rw [lastPath_leave, lastPath_leave]

section Keeping

variable (holds : FileStore → Path → Prop) {options : ApplyOptions} {path : Path}
  {store after : FileStore} {findings : List Finding}

/-- What every repair keeps is kept by `repairAll`, one repair after the other. -/
theorem holds_of_repairAll
    (keeps : ∀ finding ∈ findings, ∀ repair, finding.1.repair? = some repair →
      ∀ store path outcome after, holds store path →
      (repair .perform path).runOn store = (outcome, after) → holds after (leftAt path outcome))
    (before : holds store path) {outcomes : List ProblemOutcome}
    (ran : (repairAll .perform path findings).runOn store = (.ok outcomes, after)) :
    holds after (lastPath path outcomes) := by
  induction findings generalizing path store outcomes with
  | nil =>
    obtain ⟨isOutcomes, rfl⟩ := Prod.mk.inj ran
    rw [← Except.ok.inj isOutcomes]
    exact before
  | cons finding findings ih =>
    obtain ⟨outcome, between, rest, first, others, rfl⟩ := of_repairAll_cons ran
    rw [lastPath, List.foldl_cons]
    refine ih (fun other isOther => keeps other (List.mem_cons_of_mem _ isOther)) ?_ others
    rcases repairOne_cases finding with ⟨repair, isRepair, _, done⟩ | ⟨_, done⟩
    · obtain ⟨isOutcome, rfl⟩ := Prod.mk.inj (first.symm.trans done)
      rw [Except.ok.inj isOutcome, followed_answer]
      rcases repaired : (repair .perform path).runOn store with ⟨answered, last⟩
      exact keeps finding List.mem_cons_self repair isRepair store path answered last before
        repaired
    · obtain ⟨isOutcome, rfl⟩ := Prod.mk.inj (first.symm.trans done)
      rw [Except.ok.inj isOutcome]
      exact before

/-- What a move to a name for files put aside keeps is kept when the file is put aside. -/
theorem holds_of_putAsideFirst (perform : options.mode = .perform)
    (hopeless : findings.any isHopeless = true)
    (keeps : ∀ (operation : Operation) destination after,
      (Filing.rename .perform path (operation.info.errorName path)).runOn store =
        (.ok destination, after) → holds after destination)
    (before : holds store path) {problems : List ProblemOutcome}
    (ran : (putAsideFirst options path findings).runOn store = (.ok problems, after)) :
    holds after (lastPath path problems) := by
  obtain ⟨front, finding, back, -, -, decided⟩ := exists_of_putAsideFirst hopeless
  rw [decided store] at ran
  rcases putAside_cases options path finding store with
    ⟨result, aside, -, stays⟩ | ⟨destination, moved, result, renamed, aside, -, arrived⟩ |
      ⟨cause, aside⟩
  · rw [aside] at ran
    obtain ⟨isProblems, rfl⟩ := Prod.mk.inj ran
    rw [← Except.ok.inj isProblems, lastPath_leave_around, stays]
    exact before
  · rw [aside] at ran
    obtain ⟨isProblems, rfl⟩ := Prod.mk.inj ran
    rw [← Except.ok.inj isProblems, lastPath_leave_around, arrived]
    rw [perform] at renamed
    exact keeps finding.1 destination moved renamed
  · rw [aside] at ran
    cases (Prod.mk.inj ran).1

end Keeping

end Apply

end FieldRecording
