import FieldRecording.Proofs.Bytes.Answers
import FieldRecording.Proofs.Flac.ScanIndependence

/-!
# One scan of two sources

A look of a scanner does not consult its source (`step_onSource`), and a scanner that needs more
bytes asks for those behind the ones at hand. So two scanners that are the same but for their
sources, `Twins`, stay so, and find the same, as long as the sources answer reads alike from where
the scanners are: `ReadsAlikeFrom`.

A scan of a whole source therefore goes by reads (`goesBy_scan`), and so do its first items and
the position that it then has come to (`goesBy_nextItems`). Both scanners have the same options,
so that nothing need be known of their storage.
-/

namespace FieldRecording

open ByteSource Access

namespace Scanner

/-! ## One scanner on two sources -/

/-- The scanner with another source below it. -/
def onSource (scanner : Scanner) (source : ByteSource) : Scanner := { scanner with source }

/-- What a look leads to, with the scanner changed. -/
def Step.map (change : Scanner → Scanner) : Step → Step
  | .found frame scanner => .found frame (change scanner)
  | .moved scanner => .moved (change scanner)
  | .needsBytes scanner => .needsBytes (change scanner)

section Look

variable (scanner : Scanner) (source : ByteSource)

@[simp] theorem pending_onSource : (scanner.onSource source).pending = scanner.pending := rfl

@[simp] theorem position_onSource : (scanner.onSource source).position = scanner.position := rfl

@[simp] theorem accept?_onSource (window : List UInt8) :
    (scanner.onSource source).accept? window = scanner.accept? window := rfl

theorem seekSync_onSource :
    (scanner.onSource source).seekSync = scanner.seekSync.map (·.onSource source) := by
  rw [seekSync, seekSync, apply_ite (Step.map _)]
  rfl

theorem judgeCandidate_onSource :
    (scanner.onSource source).judgeCandidate = scanner.judgeCandidate.map (·.onSource source) := by
  simp only [judgeCandidate, pending_onSource]
  split
  · split
    · rfl
    · split <;> rfl
  · rfl

theorem decodeFrame_onSource :
    (scanner.onSource source).decodeFrame = scanner.decodeFrame.map (·.onSource source) := by
  rw [decodeFrame, decodeFrame, apply_ite (Step.map _)]
  refine ite_congr rfl (fun _ => rfl) fun _ => ?_
  rw [pending_onSource, accept?_onSource]
  split <;> rfl

/-- A look with `step` at the bytes at hand does not consult the source. -/
theorem step_onSource :
    (scanner.onSource source).step = scanner.step.map (·.onSource source) := by
  have sameStage : (scanner.onSource source).stage = scanner.stage := rfl
  unfold step
  rw [sameStage]
  cases scanner.stage with
  | seeking => exact scanner.seekSync_onSource source
  | candidate => exact scanner.judgeCandidate_onSource source
  | decoding => exact scanner.decodeFrame_onSource source

end Look

/-! ## What a scanner comes to -/

/-- What is collected from a scanner that is not finished. -/
theorem collect_of_running {scanner : Scanner} (running : ¬ scanner.finished = true)
    (found : Array Item) :
    scanner.collect found =
      scanner.advance.2.collect (scanner.advance.1.elim found found.push) := by
  rw [collect, dif_neg running]
  split <;> rename_i moved <;> rw [moved] <;> rfl

/-! ## Twins -/

/-- Related sources answer reads at every place from `floor` on alike, and stay related. -/
def ReadsAlikeFrom (floor : Nat) (related : ByteSource → ByteSource → Prop) : Prop :=
  ∀ offset wanted, floor ≤ offset → AlikeOn related (Access.readAt offset wanted)

/-- Two scanners that are the same but for their sources, which are related, and that go on
reading behind `floor`. -/
structure Twins (floor : Nat) (related : ByteSource → ByteSource → Prop) (left right : Scanner) :
    Prop where
  same : right = left.onSource right.source
  related : related left.source right.source
  behind : floor ≤ left.position + left.pending.length

namespace Twins

variable {floor : Nat} {related : ByteSource → ByteSource → Prop} {left right : Scanner}

/-- What both scanners hold is the same. -/
theorem position_eq (twins : Twins floor related left right) : right.position = left.position := by
  rw [twins.same, position_onSource]

/-- A look leads both scanners to the same. -/
theorem step_eq (twins : Twins floor related left right) :
    right.step = left.step.map (·.onSource right.source) := by
  rw [twins.same, step_onSource]
  rfl

/-- Scanners that have gone on in the bytes that they had at hand are still twins. -/
theorem of_reach (twins : Twins floor related left right) {after : Scanner}
    (source : after.source = left.source)
    (reach : after.position + after.pending.length = left.position + left.pending.length) :
    Twins floor related after (after.onSource right.source) :=
  ⟨rfl, source.symm ▸ twins.related, reach.symm ▸ twins.behind⟩

/-- The same answer of the sources leads both scanners to the same, by `Scanner.answered`. -/
theorem answered (twins : Twins floor related left right) (outcome : Except IoError (List UInt8))
    {sourceLeft sourceRight : ByteSource} (later : related sourceLeft sourceRight) :
    (left.answered outcome sourceLeft).1 = (right.answered outcome sourceRight).1 ∧
      Twins floor related (left.answered outcome sourceLeft).2
        (right.answered outcome sourceRight).2 := by
  rw [twins.same]
  have behind := twins.behind
  cases outcome with
  | error cause => exact ⟨rfl, rfl, later, behind⟩
  | ok bytes =>
    cases ended : bytes.isEmpty with
    | true =>
      simp only [Scanner.answered, ended, if_true]
      exact ⟨trivial, rfl, later, behind⟩
    | false =>
      simp only [Scanner.answered, ended, Bool.false_eq_true, if_false]
      refine ⟨trivial, rfl, later, Nat.le_trans behind ?_⟩
      simp only [List.length_append]
      omega

/-- The storage of both scanners may have other room. -/
theorem withCapacity (twins : Twins floor related left right) (capacity : Nat) :
    Twins floor related { left with capacity } { right with capacity } := by
  refine ⟨?_, twins.related, twins.behind⟩
  rw [twins.same]
  rfl

theorem finished_eq (twins : Twins floor related left right) : right.finished = left.finished := by
  rw [twins.same]
  rfl

theorem running (twins : Twins floor related left right) (running : ¬ left.finished = true) :
    ¬ right.finished = true :=
  fun finished => running (twins.finished_eq.symm.trans finished)

variable (reads : ReadsAlikeFrom floor related)
include reads

/-- Both scanners read the same bytes behind those at hand with `readMore`, or neither has room
for them. -/
theorem readMore (twins : Twins floor related left right) :
    left.readMore.1 = right.readMore.1 ∧ Twins floor related left.readMore.2 right.readMore.2 := by
  obtain ⟨answer, later⟩ := reads (left.position + left.pending.length) left.chunk twins.behind
    left.source right.source twins.related
  rw [runOn_readAt, runOn_readAt] at answer later
  have finished : Twins floor related { left with finished := true }
      { right with finished := true } := by
    refine ⟨?_, twins.related, twins.behind⟩
    rw [twins.same]
    rfl
  have atEnd : right.atEnd = left.atEnd := by
    rw [twins.same]
    rfl
  have grown : grown? right.capacity (right.pending.length + right.chunk) =
      grown? left.capacity (left.pending.length + left.chunk) := by
    rw [twins.same]
    rfl
  have reads : right.source.readAt (right.position + right.pending.length) right.chunk =
      right.source.readAt (left.position + left.pending.length) left.chunk := by
    rw [twins.same]
    rfl
  cases ended : left.atEnd with
  | true =>
    rw [readMore_of_atEnd ended, readMore_of_atEnd (atEnd.trans ended)]
    exact ⟨rfl, finished⟩
  | false =>
    cases room : grown? left.capacity (left.pending.length + left.chunk) with
    | none =>
      rw [readMore_of_noRoom ended room, readMore_of_noRoom (atEnd.trans ended) (grown.trans room)]
      exact ⟨rfl, finished⟩
    | some capacity =>
      rw [readMore_of_room ended room, readMore_of_room (atEnd.trans ended) (grown.trans room),
        reads, answer]
      exact (twins.withCapacity capacity).answered _ later

/-- Both scanners `advance` alike, with the same items. -/
theorem advance (twins : Twins floor related left right) :
    left.advance.1 = right.advance.1 ∧ Twins floor related left.advance.2 right.advance.2 := by
  have follows := follows_step left
  unfold Scanner.advance
  rw [twins.step_eq]
  generalize left.step = step at follows
  cases follows with
  | found moved => exact ⟨rfl, twins.of_reach moved.source moved.reach⟩
  | moved moved => exact ⟨rfl, twins.of_reach moved.source moved.reach⟩
  | needsBytes waits starved => exact (twins.of_reach waits.source waits.reach).readMore reads

/-- All items are collected alike. -/
theorem collect (twins : Twins floor related left right) (found : Array Item) :
    (left.collect found).1 = (right.collect found).1 ∧
      Twins floor related (left.collect found).2 (right.collect found).2 := by
  fun_induction Scanner.collect left found generalizing right with
  | case1 left found finished =>
    rw [Scanner.collect, dif_pos (twins.finished_eq.trans finished)]
    exact ⟨rfl, twins⟩
  | case2 left found running item after moved ih =>
    obtain ⟨same, later⟩ := twins.advance reads
    rw [moved] at same later
    rw [collect_of_running (twins.running running), ← same]
    exact ih later
  | case3 left found running after moved ih =>
    obtain ⟨same, later⟩ := twins.advance reads
    rw [moved] at same later
    rw [collect_of_running (twins.running running), ← same]
    exact ih later

/-- A pull of both scanners gives the same item. -/
theorem next (twins : Twins floor related left right) :
    left.next.1 = right.next.1 ∧ Twins floor related left.next.2 right.next.2 := by
  fun_induction Scanner.next left generalizing right with
  | case1 left finished =>
    rw [next_of_finished (twins.finished_eq.trans finished)]
    exact ⟨rfl, twins⟩
  | case2 left running item after moved =>
    obtain ⟨same, later⟩ := twins.advance reads
    rw [moved] at same later
    rw [next_of_running (twins.running running), ← same]
    exact ⟨same, later⟩
  | case3 left running after moved ih =>
    obtain ⟨same, later⟩ := twins.advance reads
    rw [moved] at same later
    rw [next_of_running (twins.running running), ← same]
    exact ih later

/-- Any number of pulls gives the same items, and leads to the same position. -/
theorem nextItems (twins : Twins floor related left right) (count : Nat) :
    (left.nextItems count).1 = (right.nextItems count).1 ∧
      (left.nextItems count).2.position = (right.nextItems count).2.position := by
  induction count generalizing left right with
  | zero => exact ⟨rfl, twins.position_eq.symm⟩
  | succ count ih =>
    obtain ⟨same, later⟩ := twins.next reads
    rw [Scanner.nextItems, Scanner.nextItems]
    generalize left.next = pulledLeft at same later
    generalize right.next = pulledRight at same later
    obtain ⟨item, afterLeft⟩ := pulledLeft
    obtain ⟨other, afterRight⟩ := pulledRight
    obtain rfl : item = other := same
    cases item with
    | none => exact ⟨rfl, later.position_eq.symm⟩
    | some item =>
      obtain ⟨items, position⟩ := ih later
      exact ⟨congrArg (item :: ·) items, position⟩

/-- All items of both scans are the same. -/
theorem items (twins : Twins floor related left right) :
    left.items.1 = right.items.1 ∧ related left.items.2.source right.items.2.source := by
  obtain ⟨found, later⟩ := twins.collect reads #[]
  exact ⟨congrArg Array.toList found, later.related⟩

end Twins

/-! ## Scans that begin -/

/-- Scanners that start behind `floor` on related sources are `Twins`. -/
theorem twins_starting {floor : Nat} {related : ByteSource → ByteSource → Prop}
    {left right : ByteSource} (isRelated : related left right) (options : Options)
    {settings : StreamParameters × Nat} (behind : floor ≤ settings.2) :
    Twins floor related (starting options settings left) (starting options settings right) :=
  ⟨rfl, isRelated, Nat.le_trans behind (Nat.le_add_right _ _)⟩

/-- What is done with the scanner that starts goes by reads if it does the same with twins. -/
theorem goesBy_begin_bind {α : Type} {next : Scanner → Access FlacError α}
    (alike : ∀ related, ReadsAlikeFrom 0 related → ∀ left right, Twins 0 related left right →
      ((next right).runOn right.source).1 = ((next left).runOn left.source).1 ∧
        related ((next left).runOn left.source).2 ((next right).runOn right.source).2)
    (options : Options) : GoesBy ReadsAlike (begin options >>= next) := by
  intro related reads left right isRelated
  obtain ⟨same, later⟩ := goesBy_setUp options.start related reads left right isRelated
  rw [runOn_bind, runOn_bind, runOn_begin, runOn_begin]
  generalize (setUp options.start).runOn left = ranLeft at same later
  generalize (setUp options.start).runOn right = ranRight at same later
  obtain ⟨outcome, afterLeft⟩ := ranLeft
  obtain ⟨other, afterRight⟩ := ranRight
  obtain rfl : other = outcome := same
  cases other with
  | error cause => exact ⟨rfl, later⟩
  | ok settings =>
    have readsFrom : ReadsAlikeFrom 0 related := fun offset wanted _ => reads.readAt offset wanted
    exact alike related readsFrom _ _ (twins_starting later options (Nat.zero_le settings.2))

/-- A scan goes by reads, `GoesBy`, however many bytes it reads at a time. -/
theorem goesBy_scan (options : Options) :
    GoesBy ReadsAlike (begin options >>= finish : Access FlacError (List Item)) := by
  apply goesBy_begin_bind
  intro related reads left right twins
  obtain ⟨items, last⟩ := twins.items reads
  exact ⟨congrArg Except.ok items.symm, last⟩

/-- So do the first items of a scan, and the position that it then has come to. -/
theorem goesBy_nextItems (options : Options) (count : Nat) :
    GoesBy ReadsAlike (begin options >>= fun scanner =>
      return ((scanner.nextItems count).1, (scanner.nextItems count).2.position)) := by
  apply goesBy_begin_bind
  intro related reads left right twins
  obtain ⟨items, position⟩ := twins.nextItems reads count
  rw [runOn_pure, runOn_pure, items, position]
  exact ⟨rfl, twins.related⟩

/-- What the frames of a scan come to. -/
theorem outcome_frames (options : Options) (source : ByteSource) :
    ((do
      let scanner ← begin options
      let items ← scanner.finish
      Access.ofExcept (items.mapM fun item => item) :
      Access FlacError (List Frame)).runOn source).1 =
      match (setUp options.start).runOn source with
      | (.ok settings, after) => (starting options settings after).items.1.mapM fun item => item
      | (.error cause, _) => .error cause := by
  rw [runOn_bind, runOn_begin]
  rcases (setUp options.start).runOn source with ⟨_ | settings, after⟩
  · rfl
  · rfl

end Scanner

end FieldRecording
