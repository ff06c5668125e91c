import FieldRecording.Proofs.Files.Sparing
import FieldRecording.Proofs.Repair.Following

/-!
# Repairs and what is beside a file

A repair edits the file at a path, may cut it, and may move it at its end; nothing else that was
there is touched. A computation with this property is `Filing.Relocating`: `Sparing` up to the
move, which says where it went. So it is with one repair after the other, each of them at the path
where the last one has left the file (`spared_of_repairAll`), and so with all that an apply does
(`spared_of_applyTo`).
-/

namespace FieldRecording

/-- A repair that spares what is beside a path, by `FileStore.Spared`, seen from where it leaves
the file. -/
def Filing.Relocating (path : Path) (action : Filing RepairError FixResult) : Prop :=
  ∀ base origin store, base.IsTree → FileStore.Spared base origin store path →
    FileStore.Spared base origin (action.runOn store).2 (leftAt path (action.runOn store).1)

namespace Filing.Relocating

variable {α : Type} {path : Path}

theorem pure {result : FixResult} (stays : result.newPath = none) :
    Relocating path (pure result) := by
  intro base origin store tree spared
  change FileStore.Spared base origin store (result.newPath.getD path)
  rw [stays]
  exact spared

theorem throw (path : Path) (cause : RepairError) : Relocating path (throw cause) :=
  fun _ _ _ _ spared => spared

/-- What comes before the last piece stays at the path. -/
theorem bind {action : Filing RepairError α} {next : α → Filing RepairError FixResult}
    (first : Sparing path action) (second : ∀ value, Relocating path (next value)) :
    Relocating path (action >>= next) := by
  intro base origin store tree spared
  have between := first base origin store spared
  rw [runOn_bind]
  rcases ran : action.runOn store with ⟨cause | value, after⟩
  · rw [ran] at between
    exact between
  · rw [ran] at between
    exact second value base origin after tree between

/-- A move comes last, and says where it went. -/
theorem rename {name : String} {made : Path → FixResult}
    (arrives : ∀ destination, (made destination).newPath = some destination) :
    Relocating path (do
      return made (← (rename .perform path name : Filing IoError Path))) := by
  intro base origin store tree spared
  rcases ran : (do return made (← (Filing.rename .perform path name : Filing IoError Path)) :
    Filing RepairError FixResult).runOn store with ⟨outcome, after⟩
  rcases Filing.rename_bind_cases ran with ⟨cause, rfl, rfl⟩ | ⟨destination, rfl, moved⟩
  · exact spared
  · change FileStore.Spared base origin after ((made destination).newPath.getD path)
    rw [arrives]
    exact spared_of_rename spared tree moved

end Filing.Relocating

/-! ## One repair -/

section Repairs

variable {path : Path}

theorem Datestamp.relocating_repair (path : Path) : (repair .perform path).Relocating path := by
  unfold repair
  dsimp only
  split
  · exact .rename fun _ => rfl
  · exact .pure rfl

theorem Duration.relocating_repair (path : Path) : (repair .perform path).Relocating path := by
  apply Filing.Relocating.bind (.of_readOnly Filing.ReadOnly.get)
  intro store
  dsimp only
  split
  · apply Filing.Relocating.bind (.of_readOnly (Filing.ReadOnly.openToRepair .perform path).lift)
    intro opened
    apply Filing.Relocating.bind (Filing.Sparing.edit path _).whenPerforming.attempt
    intro written
    split
    · exact .pure rfl
    · exact .bind (Filing.Sparing.edit path _).whenPerforming fun _ => .pure rfl
  · exact .pure rfl

theorem ChunkLength.relocating_repair (fault : Fault) (path : Path) :
    (repair fault .perform path).Relocating path := by
  apply Filing.Relocating.bind (.of_readOnly Filing.ReadOnly.get)
  intro store
  dsimp only
  split
  · apply Filing.Relocating.bind (.of_readOnly (Filing.ReadOnly.openToRepair .perform path).lift)
    rintro ⟨location, content⟩
    dsimp only
    apply Filing.Relocating.bind (.of_readOnly (Filing.ReadOnly.ofExcept _))
    intro riffField
    apply Filing.Relocating.bind (.of_readOnly (Filing.ReadOnly.ofExcept _))
    exact fun dataField => .bind (Filing.Sparing.edit path _).whenPerforming fun _ => .pure rfl
  · exact .pure rfl

namespace PartialFile

theorem sparing_shorten (path fragment : Path) :
    (shorten .perform path fragment).Sparing path :=
  .bind (.of_readOnly (Filing.ReadOnly.inspect path _)) fun _ =>
    .bind (Filing.Sparing.splitOff path _ _).lift fun _ =>
    .bind (Filing.Sparing.edit path _).whenPerforming fun _ => .of_readOnly (.pure _)

theorem relocating_giveUp (path : Path) (check : CheckResult) (reason : String) :
    (giveUp .perform path check reason).Relocating path :=
  .rename fun _ => rfl

theorem relocating_mend (path : Path) (check : CheckResult) :
    (mend .perform path check).Relocating path := by
  apply Filing.Relocating.bind (.of_readOnly (Filing.ReadOnly.openToRepair .perform path).lift)
  rintro ⟨location, content⟩
  dsimp only
  split
  · exact relocating_giveUp path check _
  · apply Filing.Relocating.bind (.of_readOnly Filing.ReadOnly.get)
    intro store
    split
    · exact .throw path _
    · apply Filing.Relocating.bind (sparing_shorten path _).attempt
      intro shortened
      split
      · exact relocating_giveUp path check _
      · exact .bind (Filing.Sparing.edit path _).whenPerforming fun _ => .rename fun _ => rfl

theorem relocating_repair (path : Path) : (repair .perform path).Relocating path := by
  apply Filing.Relocating.bind (.of_readOnly Filing.ReadOnly.get)
  intro store
  dsimp only
  split
  · exact .rename fun _ => rfl
  · exact .rename fun _ => rfl
  · exact relocating_mend path _
  · exact .pure rfl

end PartialFile

/-- A repair spares what is beside the file. -/
theorem Operation.relocating_repair {operation : Operation}
    {repair : RunMode → Path → Filing RepairError FixResult}
    (isRepair : operation.repair? = some repair) (path : Path) :
    (repair .perform path).Relocating path := by
  cases operation with
  | emptyFile => cases isRepair
  | stub => cases isRepair
  | spaceInDatestamp =>
    obtain rfl := Option.some.inj isRepair
    exact Datestamp.relocating_repair path
  | doubledDuration =>
    obtain rfl := Option.some.inj isRepair
    exact Duration.relocating_repair path
  | excessDataLength =>
    obtain rfl := Option.some.inj isRepair
    exact ChunkLength.relocating_repair .excess path
  | zeroDataLength =>
    obtain rfl := Option.some.inj isRepair
    exact ChunkLength.relocating_repair .zero path
  | partialFile =>
    obtain rfl := Option.some.inj isRepair
    exact PartialFile.relocating_repair path

end Repairs

/-! ## All repairs -/

namespace Apply

variable {options : ApplyOptions} {operations : List Operation} {path origin : Path}
  {base store after : FileStore}

/-- What is beside a file is spared by one repair after the other. -/
theorem spared_of_repairAll {findings : List Finding} {outcomes : List ProblemOutcome}
    (tree : base.IsTree) (spared : FileStore.Spared base origin store path)
    (ran : (repairAll .perform path findings).runOn store = (.ok outcomes, after)) :
    ∃ last, FileStore.Spared base origin after last := by
  refine ⟨lastPath path outcomes, holds_of_repairAll (FileStore.Spared base origin) ?_ spared ran⟩
  intro finding _ repair isRepair store path outcome after spared repaired
  have relocated := Operation.relocating_repair isRepair path base origin store tree spared
  rwa [repaired] at relocated

/-- What is beside a file is spared when it is put aside. -/
theorem spared_of_putAsideFirst {findings : List Finding} (tree : store.IsTree)
    (perform : options.mode = .perform) (hopeless : findings.any isHopeless = true)
    {outcome : Except RepairError (List ProblemOutcome)}
    (ran : (putAsideFirst options path findings).runOn store = (outcome, after)) :
    ∃ last, FileStore.Spared store path after last := by
  cases outcome with
  | error cause =>
    obtain rfl := unchanged_of_putAsideFirst hopeless ran (.inr ⟨cause, rfl⟩)
    exact ⟨path, .refl after path⟩
  | ok problems =>
    exact ⟨lastPath path problems, holds_of_putAsideFirst (FileStore.Spared store path) perform
      hopeless (fun _ _ _ renamed => Filing.spared_of_rename (.refl store path) tree renamed)
      (.refl store path) ran⟩

/-- What is beside a file is spared when it is copied. -/
theorem Copies.spared {backup : Option Path} (copies : Copies options path store backup after)
    (perform : options.mode = .perform) : FileStore.Spared store path after path := by
  cases copies with
  | none => exact .refl store path
  | copy ran =>
    rw [perform] at ran
    exact Filing.spared_of_backUp (.refl store path) ran

/-- An apply spares what is beside a file. -/
theorem spared_of_applyTo (tree : store.IsTree) {outcome : Except RepairError ApplyReport}
    (ran : (applyTo operations options path).runOn store = (outcome, after)) :
    ∃ last, FileStore.Spared store path after last := by
  cases mode : options.mode with
  | plan =>
    obtain rfl : after = store := by
      cases course_of_applyTo ran with
      | left => rfl
      | aside _ hopeless aside => exact unchanged_of_putAsideFirst hopeless aside (.inl mode)
      | notCopied _ _ failed => exact unchanged_of_backUp failed
      | repaired _ _ copies repairs =>
        rw [← copies.unchanged mode]
        rw [mode] at repairs
        exact (readOnly_repairAll path _).unchanged repairs
    exact ⟨path, .refl after path⟩
  | perform =>
    cases course_of_applyTo ran with
    | left => exact ⟨path, .refl store path⟩
    | aside _ hopeless aside => exact spared_of_putAsideFirst tree mode hopeless aside
    | notCopied _ _ failed =>
      obtain rfl := unchanged_of_backUp failed
      exact ⟨path, .refl after path⟩
    | repaired _ _ copies repairs =>
      rw [mode] at repairs
      exact spared_of_repairAll tree (copies.spared mode) repairs

end Apply

end FieldRecording
