import FieldRecording.Proofs.Bytes.Overwriting
import FieldRecording.Proofs.Flac.Selection

/-!
# Frames of a stream that is cut

Whether a header is taken follows from the bytes up to its end: `Sighting.at?` looks at sixteen
bytes (`at?_congr`). When the end of a content is cut off, a visit takes the headers that it took
before, as far as sixteen bytes are left from where each of them starts (`visitFrom_cut`).

Repairs cut a stream where its last frame starts. `filter_eq_dropLast` says that this is the one
frame that is lost, and `samplesOfFrames_append` what becomes of the count.
-/

namespace FieldRecording.Sighting

/-! ## Visits of two contents -/

section Agreeing

variable {left right : Content} {stream : StreamParameters}

/-- What `at?` finds at an offset follows from the sixteen bytes there. -/
theorem at?_congr (shorter : left.size ≤ right.size) {offset : Nat}
    (enough : offset + maxHeaderLength ≤ left.size)
    (same : ∀ index, offset ≤ index → index < left.size → left[index]? = right[index]?) :
    at? left stream offset = at? right stream offset := by
  simp only [maxHeaderLength] at enough
  have first : left[offset]? = right[offset]? := same offset (Nat.le_refl _) (by omega)
  have second : left[offset + 1]? = right[offset + 1]? :=
    same (offset + 1) (Nat.le_succ _) (by omega)
  have window : left.slice offset maxHeaderLength = right.slice offset maxHeaderLength := by
    apply Content.slice_congr
    intro index above below
    exact same index above (by simp only [maxHeaderLength] at below; omega)
  have enoughRight : offset + maxHeaderLength ≤ right.size := by
    simp only [maxHeaderLength]
    omega
  have enoughLeft : offset + maxHeaderLength ≤ left.size := enough
  simp only [at?, first, second, window, enoughLeft, enoughRight, true_and]

/-- A visit with `visitFrom` of a content that is cut takes the headers of the whole content that
are followed by enough bytes. -/
theorem visitFrom_cut (shorter : left.size ≤ right.size) (taken : Option Sighting) (start : Nat)
    (same : ∀ index, start ≤ index → index < left.size → left[index]? = right[index]?) :
    visitFrom left stream taken start =
      (visitFrom right stream taken start).filter fun next =>
        next.offset + maxHeaderLength ≤ left.size := by
  rcases Nat.lt_or_ge left.size (start + maxHeaderLength) with short | enough
  · rw [visitFrom_of_short start short]
    symm
    apply List.filter_eq_nil_iff.mpr
    intro next isTaken
    have behind := le_offset_of_mem_visitFrom isTaken
    simp only [decide_eq_true_eq]
    omega
  · have inside : start < left.size := by
      simp only [maxHeaderLength] at enough
      omega
    have later (index : Nat) (above : start + 1 ≤ index) (below : index < left.size) :
        left[index]? = right[index]? := same index (by omega) below
    rw [visitFrom_of_lt inside, visitFrom_of_lt (Nat.lt_of_lt_of_le inside shorter),
      at?_congr shorter enough same]
    split
    · exact visitFrom_cut shorter taken (start + 1) later
    · rename_i next there
      have kept : next.offset + maxHeaderLength ≤ left.size := by
        rw [offset_of_at? there]
        exact enough
      split
      · rw [List.filter_cons, if_pos (by simpa using kept),
          visitFrom_cut shorter (some next) (start + 1) later]
      · exact visitFrom_cut shorter taken (start + 1) later
  termination_by left.size - start

/-- Contents of one length that agree from where a visit starts give `visitFrom` the same headers.
-/
theorem visitFrom_congr (size : left.size = right.size) (taken : Option Sighting) (start : Nat)
    (same : ∀ index, start ≤ index → index < left.size → left[index]? = right[index]?) :
    visitFrom left stream taken start = visitFrom right stream taken start := by
  rw [visitFrom_cut (Nat.le_of_eq size) taken start same]
  apply List.filter_eq_self.mpr
  intro next isTaken
  rw [size]
  exact decide_eq_true (le_size_of_mem_visitFrom isTaken)

end Agreeing

/-! ## Without the last frame -/

/-- When a stream is cut where its last header starts, and the one before has enough bytes, a
visit takes all headers but the last. -/
theorem filter_eq_dropLast {sightings : List Sighting}
    (ordered : sightings.Pairwise fun earlier later => earlier.offset < later.offset)
    {offsets : List Nat} {second last : Nat}
    (stand : sightings.map offset = offsets ++ [second, last])
    (apart : second + maxHeaderLength ≤ last) :
    sightings.filter (fun next => next.offset + maxHeaderLength ≤ last) = sightings.dropLast := by
  have notEmpty : sightings ≠ [] := by
    rintro rfl
    cases offsets with
    | nil => cases stand
    | cons => cases stand
  have whole := List.dropLast_concat_getLast notEmpty
  have cut : sightings.dropLast.map offset ++ [(sightings.getLast notEmpty).offset] =
      (offsets ++ [second]) ++ [last] := by
    rw [← List.map_singleton, ← List.map_append, whole, stand, List.append_assoc]
    rfl
  obtain ⟨front, isSame⟩ := List.append_inj' cut rfl
  have isLast := List.singleton_inj.mp isSame
  have before : ∀ next ∈ sightings.dropLast, next.offset ≤ second := by
    intro next isTaken
    have inOrder : (offsets ++ [second]).Pairwise (· < ·) := by
      rw [← front]
      exact List.pairwise_map.mpr (ordered.sublist (List.dropLast_sublist _))
    have stands : next.offset ∈ offsets ++ [second] := by
      rw [← front]
      exact List.mem_map_of_mem isTaken
    rcases List.mem_append.mp stands with earlier | same
    · exact Nat.le_of_lt ((List.pairwise_append.mp inOrder).2.2 _ earlier _
        (List.mem_singleton_self _))
    · exact Nat.le_of_eq (List.mem_singleton.mp same)
  rw [← whole, List.filter_append, List.dropLast_concat]
  have kept : sightings.dropLast.filter (fun next => next.offset + maxHeaderLength ≤ last) =
      sightings.dropLast := by
    apply List.filter_eq_self.mpr
    intro next isTaken
    have := before next isTaken
    exact decide_eq_true (by omega)
  have dropped : [sightings.getLast notEmpty].filter
      (fun next => next.offset + maxHeaderLength ≤ last) = [] := by
    apply List.filter_eq_nil_iff.mpr
    intro next isTaken
    rw [List.mem_singleton.mp isTaken, isLast, decide_eq_true_eq]
    simp only [maxHeaderLength]
    omega
  rw [kept, dropped, List.append_nil]

/-- Numbering goes from the front on. -/
theorem numbered_dropLast (index : Option Nat) (sightings : List Sighting) :
    numbered index sightings.dropLast = (numbered index sightings).dropLast := by
  induction sightings generalizing index with
  | nil => rfl
  | cons next rest ih =>
    cases rest with
    | nil => rfl
    | cons later rest =>
      rw [List.dropLast_cons_cons, numbered, ih]
      rfl

end FieldRecording.Sighting

namespace FieldRecording

/-- The samples are counted by `samplesOfFrames` in the last two frames, whatever stands before
them. -/
theorem samplesOfFrames_append (front : List Frame) (penultimate last : Frame) :
    samplesOfFrames (front ++ [penultimate, last]) =
      penultimate.header.samplesThrough last.header := by
  induction front with
  | nil => rfl
  | cons frame front ih =>
    rw [← ih]
    cases front with
    | nil => rfl
    | cons next front =>
      cases front with
      | nil => rfl
      | cons => rfl

end FieldRecording
