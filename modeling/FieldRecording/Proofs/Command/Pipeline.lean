import FieldRecording.Command.Run
import Mathlib.Data.List.Basic

/-!
# Which operations are run

`Operation.inOrder` sorts the operations that identifiers name by their `rank` and then rids them
of neighbours with the same identifier. Sorting brings all that are the same together, so that
what is left has each operation once (`pairwise_lt_eraseRepsBy`). A list in strictly rising order
is determined by its members (`eq_of_mem_iff`), and so `inOrder_eq_filter` finds the result to be
the list `all` without the operations that are not named, whatever the order of the identifiers,
how often each is given and the case of its letters.

`Names` is the relation of an identifier and its operation, `SameNames` that of two lists of
identifiers that are to make no difference, and `Selected` says which operations a list of
identifiers stands for. `operations_exact` puts these together for what is run.
-/

namespace FieldRecording

/-! ## Lists without repeated neighbours -/

section Neighbours

variable {α : Type} {same : α → α → Bool} {key : α → Nat}

theorem eraseRepsBy_loop (last : α) (rest passed : List α) :
    List.eraseRepsBy.loop same last rest passed =
      passed.reverse ++ (last :: rest).eraseRepsBy same := by
  induction rest generalizing last passed with
  | nil => simp only [List.eraseRepsBy, List.eraseRepsBy.loop, List.reverse_cons, List.reverse_nil,
      List.nil_append]
  | cons next rest ih =>
    simp only [List.eraseRepsBy, List.eraseRepsBy.loop]
    cases same last next with
    | true => exact ih last passed
    | false =>
      dsimp only
      rw [ih next (last :: passed), ih next [last], List.reverse_cons, List.append_assoc]
      rfl

/-- Of two neighbours that are the same, `eraseRepsBy` keeps the first one. -/
theorem eraseRepsBy_cons_cons (first second : α) (rest : List α) :
    (first :: second :: rest).eraseRepsBy same =
      if same first second then (first :: rest).eraseRepsBy same
      else first :: (second :: rest).eraseRepsBy same := by
  rw [List.eraseRepsBy, List.eraseRepsBy.loop]
  cases same first second with
  | true => rfl
  | false => exact eraseRepsBy_loop second rest [first]

/-- No member is lost by `eraseRepsBy`, where only equals count as the same. -/
theorem mem_eraseRepsBy (equal : ∀ left right, same left right = true ↔ left = right)
    {values : List α} {value : α} : value ∈ values.eraseRepsBy same ↔ value ∈ values := by
  match values with
  | [] => rfl
  | [_] => rfl
  | first :: second :: rest =>
    rw [eraseRepsBy_cons_cons]
    split
    · rename_i isSame
      rw [mem_eraseRepsBy equal, (equal _ _).mp isSame]
      simp only [List.mem_cons, or_self_left]
    · rw [List.mem_cons, mem_eraseRepsBy equal, List.mem_cons (b := first)]

/-- Sorted values without repeated neighbours rise strictly. -/
theorem pairwise_lt_eraseRepsBy (equal : ∀ left right, same left right = true ↔ left = right)
    (injective : ∀ left right, key left = key right → left = right) {values : List α}
    (sorted : values.Pairwise fun left right => key left ≤ key right) :
    (values.eraseRepsBy same).Pairwise fun left right => key left < key right := by
  match values with
  | [] => exact .nil
  | [_] => exact List.pairwise_singleton _ _
  | first :: second :: rest =>
    rw [List.pairwise_cons] at sorted
    obtain ⟨least, behind⟩ := sorted
    rw [eraseRepsBy_cons_cons]
    split
    · rename_i isSame
      rw [(equal _ _).mp isSame]
      exact pairwise_lt_eraseRepsBy equal injective behind
    · rename_i differ
      refine List.Pairwise.cons ?_ (pairwise_lt_eraseRepsBy equal injective behind)
      intro value member
      rw [mem_eraseRepsBy equal] at member
      have above : key second ≤ key value := by
        rcases List.mem_cons.mp member with rfl | later
        · exact Nat.le_refl _
        · exact List.rel_of_pairwise_cons behind later
      have apart : key first ≠ key second := fun together =>
        differ ((equal _ _).mpr (injective _ _ together))
      have start := least second List.mem_cons_self
      omega

end Neighbours

namespace Operation

/-! ## The order of the operations -/

theorem mem_all (operation : Operation) : operation ∈ all := by
  cases operation <;> decide

theorem id_beq_id (left right : Operation) : (left.id == right.id) = true ↔ left = right := by
  cases left <;> cases right <;> decide

theorem eq_of_rank_eq (left right : Operation) (together : left.rank = right.rank) :
    left = right := by
  revert together
  cases left <;> cases right <;> decide

theorem pairwise_rank_all : all.Pairwise fun left right => left.rank < right.rank := by
  decide

/-- Operations in rising order of their `rank` are determined by which they are. -/
theorem eq_of_mem_iff {left right : List Operation}
    (leftRises : left.Pairwise fun first second => first.rank < second.rank)
    (rightRises : right.Pairwise fun first second => first.rank < second.rank)
    (members : ∀ operation, operation ∈ left ↔ operation ∈ right) : left = right := by
  have once {values : List Operation}
      (rises : values.Pairwise fun first second => first.rank < second.rank) : values.Nodup :=
    List.nodup_iff_pairwise_ne.mpr (rises.imp fun less equal =>
      Nat.ne_of_lt less (congrArg rank equal))
  refine List.Perm.eq_of_pairwise ?_ leftRises rightRises
    ((List.perm_ext_iff_of_nodup (once leftRises) (once rightRises)).mpr members)
  intro first second _ _ before behind
  omega

/-- What `inOrder` makes of operations are all that there are without the others: sorting and
erasing amount to a filter of `all`. -/
theorem inOrder_eq_filter (operations : List Operation) :
    inOrder operations = all.filter operations.contains := by
  have sorted : (operations.mergeSort fun left right => left.rank ≤ right.rank).Pairwise
      fun left right => left.rank ≤ right.rank := by
    refine (List.pairwise_mergeSort ?_ ?_ operations).imp of_decide_eq_true
    · intro first second third
      simp only [decide_eq_true_eq]
      omega
    · intro first second
      simp only [Bool.or_eq_true, decide_eq_true_eq]
      omega
  apply eq_of_mem_iff (pairwise_lt_eraseRepsBy id_beq_id eq_of_rank_eq sorted)
    (pairwise_rank_all.sublist List.filter_sublist)
  intro operation
  rw [mem_eraseRepsBy id_beq_id, List.mem_mergeSort, List.mem_filter, List.contains_iff_mem,
    and_iff_right operation.mem_all]

/-! ## Identifiers -/

/-- Whether an identifier is that of an operation, up to the case of its letters. Case is that of
ASCII letters, as `equalIgnoringCase` has it. -/
def Names (id : String) (operation : Operation) : Prop :=
  equalIgnoringCase operation.id id = true

instance (id : String) (operation : Operation) : Decidable (Names id operation) :=
  inferInstanceAs (Decidable (_ = true))

/-- Whether identifiers differ in nothing but their order, how often each is given, and the case
of their letters. -/
def SameNames (ids others : List String) : Prop :=
  (∀ id ∈ ids, ∃ other ∈ others, equalIgnoringCase id other = true) ∧
    ∀ other ∈ others, ∃ id ∈ ids, equalIgnoringCase id other = true

theorem equalIgnoringCase_iff {left right : String} :
    equalIgnoringCase left right = true ↔
      left.toList.map lowerAscii = right.toList.map lowerAscii := by
  rw [equalIgnoringCase, beq_iff_eq]

theorem equalIgnoringCase_symm {left right : String}
    (equal : equalIgnoringCase left right = true) : equalIgnoringCase right left = true :=
  equalIgnoringCase_iff.mpr (equalIgnoringCase_iff.mp equal).symm

theorem equalIgnoringCase_trans {first second third : String}
    (equal : equalIgnoringCase first second = true)
    (further : equalIgnoringCase second third = true) : equalIgnoringCase first third = true :=
  equalIgnoringCase_iff.mpr
    ((equalIgnoringCase_iff.mp equal).trans (equalIgnoringCase_iff.mp further))

theorem SameNames.symm {ids others : List String} (same : SameNames ids others) :
    SameNames others ids := by
  constructor
  · intro other member
    obtain ⟨id, isId, equal⟩ := same.2 other member
    exact ⟨id, isId, equalIgnoringCase_symm equal⟩
  · intro id member
    obtain ⟨other, isOther, equal⟩ := same.1 id member
    exact ⟨other, isOther, equalIgnoringCase_symm equal⟩


/-- An identifier names one operation at most. -/
theorem Names.unique {id : String} {operation other : Operation} (named : Names id operation)
    (alsoNamed : Names id other) : operation = other := by
  have apart : ∀ left right : Operation,
      equalIgnoringCase left.id right.id = true → left = right := by
    intro left right
    cases left <;> cases right <;> decide
  exact apart _ _ (equalIgnoringCase_trans named (equalIgnoringCase_symm alsoNamed))

theorem ofId_of_names {id : String} {operation : Operation} (named : Names id operation) :
    ofId id = .ok operation := by
  rw [ofId]
  cases found : all.find? fun operation => equalIgnoringCase operation.id id with
  | none => exact absurd named (List.find?_eq_none.mp found operation operation.mem_all)
  | some first =>
    have alsoNamed : Names id first :=
      List.find?_some (p := fun known : Operation => equalIgnoringCase known.id id) found
    rw [alsoNamed.unique named]

theorem ofId_of_unknown {id : String} (unknown : ∀ operation, ¬ Names id operation) :
    ofId id = .error (.unknownOperation id) := by
  have unknown : (all.find? fun operation => equalIgnoringCase operation.id id) = none :=
    List.find?_eq_none.mpr fun operation _ => unknown operation
  rw [ofId, unknown]

/-- Identifiers that all are known are looked up one by one with `ofId`, in the order in which
they are given. -/
theorem exists_mapM_ofId {ids : List String} (known : ∀ id ∈ ids, ∃ operation, Names id operation) :
    ∃ named, ids.mapM ofId = .ok named ∧
      ∀ operation, operation ∈ named ↔ ∃ id ∈ ids, Names id operation := by
  induction ids with
  | nil => exact ⟨[], rfl, by simp only [List.not_mem_nil, false_and, exists_false, implies_true]⟩
  | cons id ids ih =>
    obtain ⟨first, isFirst⟩ := known id List.mem_cons_self
    obtain ⟨named, looked, members⟩ := ih fun other member =>
      known other (List.mem_cons_of_mem _ member)
    refine ⟨first :: named, ?_, fun operation => ?_⟩
    · rw [List.mapM_cons, ofId_of_names isFirst, looked]
      rfl
    · rw [List.mem_cons, members, List.exists_mem_cons_iff]
      exact or_congr ⟨fun same => same ▸ isFirst, fun named => named.unique isFirst⟩ Iff.rfl

/-- Looking identifiers up with `ofId` ends at one that is not known, and names it. -/
theorem mapM_ofId_of_unknown {ids : List String}
    (unknown : ∃ id ∈ ids, ∀ operation, ¬ Names id operation) :
    ∃ id ∈ ids, (∀ operation, ¬ Names id operation) ∧
      ids.mapM ofId = .error (.unknownOperation id) := by
  induction ids with
  | nil =>
    exact absurd unknown
      (by simp only [List.not_mem_nil, false_and, exists_false, not_false_eq_true])
  | cons id ids ih =>
    by_cases known : ∃ operation, Names id operation
    · obtain ⟨operation, named⟩ := known
      have later : ∃ other ∈ ids, ∀ operation, ¬ Names other operation := by
        rcases (List.exists_mem_cons_iff _ _ _).mp unknown with here | later
        · exact absurd named (here operation)
        · exact later
      obtain ⟨other, member, isUnknown, failed⟩ := ih later
      refine ⟨other, List.mem_cons_of_mem _ member, isUnknown, ?_⟩
      rw [List.mapM_cons, ofId_of_names named, failed]
      rfl
    · have isUnknown := not_exists.mp known
      refine ⟨id, List.mem_cons_self, isUnknown, ?_⟩
      rw [List.mapM_cons, ofId_of_unknown isUnknown]
      rfl

/-! ## The operations that are selected -/

/-- Whether identifiers select an operation: one of them `Names` it, or there are none. -/
def Selected (ids : List String) (operation : Operation) : Prop :=
  ids = [] ∨ ∃ id ∈ ids, Names id operation

/-- Identifiers that all are known select from the list of all operations. -/
theorem select_of_known {ids : List String}
    (known : ∀ id ∈ ids, ∃ operation, Names id operation) :
    ∃ pipeline, select ids = .ok pipeline ∧ pipeline.Sublist all ∧
      ∀ operation, operation ∈ pipeline ↔ Selected ids operation := by
  cases ids with
  | nil => exact ⟨all, rfl, .refl all, fun operation => iff_of_true operation.mem_all (.inl rfl)⟩
  | cons id ids =>
    obtain ⟨named, looked, members⟩ := exists_mapM_ofId known
    refine ⟨all.filter named.contains, ?_, List.filter_sublist, fun operation => ?_⟩
    · rw [select, looked, ← inOrder_eq_filter]
      rfl
    · rw [List.mem_filter, and_iff_right operation.mem_all, List.contains_iff_mem, members,
        Selected, or_iff_right (List.cons_ne_nil id ids)]

/-- An identifier that is not known is what the selection fails with. -/
theorem select_of_unknown {ids : List String}
    (unknown : ∃ id ∈ ids, ∀ operation, ¬ Names id operation) :
    ∃ id ∈ ids, (∀ operation, ¬ Names id operation) ∧
      select ids = .error (.unknownOperation id) := by
  obtain ⟨id, member, isUnknown, failed⟩ := mapM_ofId_of_unknown unknown
  refine ⟨id, member, isUnknown, ?_⟩
  cases ids with
  | nil => cases member
  | cons first ids =>
    rw [select, failed]
    rfl

theorem SameNames.exists_names {ids others : List String} (same : SameNames ids others)
    {operation : Operation} (named : ∃ id ∈ ids, Names id operation) :
    ∃ other ∈ others, Names other operation := by
  obtain ⟨id, member, isId⟩ := named
  obtain ⟨other, isOther, equal⟩ := same.1 id member
  exact ⟨other, isOther, equalIgnoringCase_trans isId equal⟩

theorem SameNames.selected {ids others : List String} (same : SameNames ids others)
    {operation : Operation} (selected : Selected ids operation) : Selected others operation := by
  rcases selected with rfl | named
  · refine .inl (List.eq_nil_iff_forall_not_mem.mpr fun other member => ?_)
    obtain ⟨id, isId, _⟩ := same.2 other member
    cases isId
  · exact .inr (same.exists_names named)

theorem SameNames.known {ids others : List String} (same : SameNames ids others)
    (known : ∀ id ∈ ids, ∃ operation, Names id operation) :
    ∀ other ∈ others, ∃ operation, Names other operation := by
  intro other member
  obtain ⟨id, isId, equal⟩ := same.2 other member
  obtain ⟨operation, named⟩ := known id isId
  exact ⟨operation, equalIgnoringCase_trans named equal⟩

/-- Identifiers that are the same but for order, number and case select the same operations. -/
theorem select_of_sameNames {ids others : List String} (same : SameNames ids others)
    {pipeline : List Operation} (selected : select ids = .ok pipeline) :
    select others = .ok pipeline := by
  by_cases known : ∀ id ∈ ids, ∃ operation, Names id operation
  · obtain ⟨first, isFirst, inAll, members⟩ := select_of_known known
    obtain ⟨second, isSecond, alsoInAll, alsoMembers⟩ := select_of_known (same.known known)
    have together : first = second := by
      apply eq_of_mem_iff (pairwise_rank_all.sublist inAll) (pairwise_rank_all.sublist alsoInAll)
      intro operation
      rw [members, alsoMembers]
      exact ⟨same.selected, same.symm.selected⟩
    rw [isSecond, ← together, ← isFirst, selected]
  · simp only [not_forall, not_exists, exists_prop] at known
    obtain ⟨_, _, _, failed⟩ := select_of_unknown known
    rw [failed] at selected
    cases selected

end Operation

namespace Selection

/-- Identifiers are not given together with the demand for all operations. -/
theorem ids_eq_nil_of_all {given : List Argument} {selection : Selection}
    (read : Invocation.selectionOf given = .ok selection) (all : selection.all = true) :
    selection.ids = [] := by
  dsimp only [Invocation.selectionOf] at read
  split at read
  · cases read
  split at read
  · cases read
  rename_i _ apart
  obtain rfl := Except.ok.inj read
  dsimp only at all
  rw [all, Bool.true_and, Bool.not_eq_true, Bool.not_eq_false', List.isEmpty_iff] at apart
  exact apart

/-- An identifier that is not known fails the selection, and is what it fails with. Otherwise the
operations are those that the identifiers name (`Selected`), or all of them where there are none,
each once and in the order of `all`. All of them are run where that is asked for, and then there
are no identifiers. Neither the order of the identifiers, nor how often each is given, nor the
case of their letters makes a difference (`SameNames`). -/
theorem operations_exact (selection : Selection) :
    (selection.all = true → selection.operations = .ok Operation.all) ∧
    (selection.all = false → (∃ id ∈ selection.ids, ∀ operation, ¬ Operation.Names id operation) →
      ∃ id ∈ selection.ids, (∀ operation, ¬ Operation.Names id operation) ∧
        selection.operations = .error (.unknownOperation id)) ∧
    (selection.all = false → (∀ id ∈ selection.ids, ∃ operation, Operation.Names id operation) →
      ∃ pipeline, selection.operations = .ok pipeline ∧ pipeline.Sublist Operation.all ∧
        pipeline.Nodup ∧ ∀ operation, operation ∈ pipeline ↔
          selection.ids = [] ∨ ∃ id ∈ selection.ids, Operation.Names id operation) ∧
    (∀ other : Selection, other.all = selection.all →
      Operation.SameNames selection.ids other.ids → ∀ pipeline,
        selection.operations = .ok pipeline ↔ other.operations = .ok pipeline) ∧
    (∀ given, Invocation.selectionOf given = .ok selection → selection.all = true →
      selection.ids = []) := by
  refine ⟨fun all => if_pos all, ?_, ?_, ?_, fun given => ids_eq_nil_of_all⟩
  · intro notEmpty unknown
    rw [operations, notEmpty]
    exact Operation.select_of_unknown unknown
  · intro notEmpty known
    obtain ⟨pipeline, selected, inAll, members⟩ := Operation.select_of_known known
    rw [operations, notEmpty]
    exact ⟨pipeline, selected, inAll, inAll.nodup (by decide), members⟩
  · intro other alike same pipeline
    rw [operations, operations, alike]
    split
    · rfl
    · exact ⟨Operation.select_of_sameNames same, Operation.select_of_sameNames same.symm⟩

/-- Two operations, by identifiers in any order and case, one of them once or twice; an identifier
that is not known beside one that is. -/
theorem operations_exact_of_two :
    let named : Selection := { targets := ["a.wav"], ids := ["FL010", "oe004"], all := false }
    let again : Selection :=
      { targets := ["b.wav"], ids := ["OE004", "fl010", "Oe004"], all := false }
    let beside : Selection := { targets := ["a.wav"], ids := ["FL010", "XX999"], all := false }
    (∃ pipeline, named.operations = .ok pipeline ∧ again.operations = .ok pipeline ∧
      pipeline.Nodup ∧ .emptyFile ∈ pipeline ∧ .stub ∉ pipeline) ∧
    ∃ id ∈ beside.ids, beside.operations = .error (.unknownOperation id) := by
  intro named again beside
  constructor
  · obtain ⟨_, _, selected, alike, _⟩ := operations_exact named
    have known : ∀ id ∈ named.ids, ∃ operation, Operation.Names id operation :=
      List.forall_mem_cons.mpr ⟨⟨.doubledDuration, by decide⟩,
        List.forall_mem_singleton.mpr ⟨.emptyFile, by decide⟩⟩
    have same : Operation.SameNames named.ids again.ids := ⟨by decide, by decide⟩
    obtain ⟨pipeline, isPipeline, _, once, members⟩ := selected rfl known
    exact ⟨pipeline, isPipeline, (alike again rfl same pipeline).mp isPipeline, once,
      (members _).mpr (by decide), fun member => absurd ((members _).mp member) (by decide)⟩
  · obtain ⟨_, unknown, _⟩ := operations_exact beside
    have isUnknown : ∀ operation, ¬ Operation.Names "XX999" operation := fun operation => by
      cases operation <;> decide
    obtain ⟨id, member, _, failed⟩ := unknown rfl
      ⟨"XX999", List.mem_cons_of_mem _ List.mem_cons_self, isUnknown⟩
    exact ⟨id, member, failed⟩

end Selection

end FieldRecording
