import FieldRecording.Flac.Scanner

/-!
# Which headers of a content are frames

This module says what a scan should find, without a scanner. `visit` goes through
offsets in order and takes the headers that stand there, unless they lie in the bytes of
the one taken before or do not follow it. `sweep` is the same search from one header to
the next, and also says where it comes to rest when there is no next one.

`visit_eq_sweep` relates the two: visiting all offsets from a place on is sweeping from
there over and over.
-/

namespace FieldRecording

/-- A frame header that stands at an offset, as `FrameHeader.decode` finds it there. -/
structure Sighting where
  offset : Nat
  header : FrameHeader
  /-- How many bytes the header takes. -/
  length : Nat
  deriving Repr, DecidableEq

/-- Whether two bytes are those that open a frame. -/
def isSyncPair (first second : Option UInt8) : Bool :=
  first == some Scanner.syncByte && (second == some 0xF8 || second == some 0xF9)

namespace Sighting

/-- The offset behind the header. -/
def stop (sighting : Sighting) : Nat := sighting.offset + sighting.length

/-- What stands at an offset: sixteen bytes that open as a frame does and that
`FrameHeader.decode` accepts. -/
def at? (content : Content) (stream : StreamParameters) (offset : Nat) : Option Sighting :=
  if offset + maxHeaderLength ≤ content.size ∧
      isSyncPair content[offset]? content[offset + 1]? then
    match FrameHeader.decode (content.slice offset maxHeaderLength) stream with
    | .ok (header, length) => some { offset, header, length }
    | .error _ => none
  else none

/-- Whether a header may be taken behind the one that was taken last: it does not lie in the bytes
of that one, and follows it in the stream, by `checkFollows`. -/
def mayFollow (taken : Option Sighting) (next : Sighting) : Bool :=
  match taken with
  | none => true
  | some last =>
    last.stop ≤ next.offset && (last.header.checkFollows next.header).toBool

/-- Visit offsets in order, and take the headers that may be taken: what is `at?` each of them, if
it `mayFollow`. -/
def visit (content : Content) (stream : StreamParameters) (taken : Option Sighting) :
    (offsets : List Nat) → List Sighting
  | [] => []
  | offset :: offsets =>
    match at? content stream offset with
    | none => visit content stream taken offsets
    | some next =>
      if mayFollow taken next then next :: visit content stream (some next) offsets
      else visit content stream taken offsets

/-- The headers that `visit` takes from an offset on, up to the end. -/
def visitFrom (content : Content) (stream : StreamParameters) (taken : Option Sighting)
    (start : Nat) : List Sighting :=
  visit content stream taken (List.range' start (content.size - start))

end Sighting

/-- The header in a window of bytes, if it may follow the one found last by `checkFollows`. -/
def FrameHeader.ofWindow? (stream : StreamParameters) (last : Option FrameHeader)
    (window : List UInt8) : Option (FrameHeader × Nat) :=
  match FrameHeader.decode window stream with
  | .error _ => none
  | .ok (header, length) =>
    match last with
    | none => some (header, length)
    | some last =>
      match last.checkFollows header with
      | .ok () => some (header, length)
      | .error _ => none

namespace Sighting

/-- The next header from an offset on that follows the one found last, and the offset
behind it. When there is none, the offset of the bytes that remain undecided. -/
def sweep (content : Content) (stream : StreamParameters) (last : Option FrameHeader)
    (offset : Nat) : Option Sighting × Nat :=
  if _inside : offset < content.size then
    if content[offset]? = some Scanner.syncByte then
      if content.size ≤ offset + 1 then (none, offset)
      else if isSyncPair content[offset]? content[offset + 1]? then
        if content.size < offset + maxHeaderLength then (none, offset)
        else match FrameHeader.ofWindow? stream last (content.slice offset maxHeaderLength) with
        | some (header, length) => (some { offset, header, length }, offset + length)
        | none => sweep content stream last (offset + 1)
      else sweep content stream last (offset + 1)
    else sweep content stream last (offset + 1)
  else (none, offset)
  termination_by content.size - offset

/-! ## Sweeping past bytes -/

section Sweep

variable {content : Content} {stream : StreamParameters} {last : Option FrameHeader}
  {offset : Nat}

theorem sweep_of_size_le (past : content.size ≤ offset) :
    sweep content stream last offset = (none, offset) := by
  rw [sweep, dif_neg (by omega)]

/-- A byte that is no sync byte is passed. -/
theorem sweep_of_ne_sync (inside : offset < content.size)
    (other : content[offset]? ≠ some Scanner.syncByte) :
    sweep content stream last offset = sweep content stream last (offset + 1) := by
  rw [sweep, dif_pos inside, if_neg other]

theorem isSyncPair_eq_true {first second : Option UInt8} :
    isSyncPair first second = true ↔
      first = some Scanner.syncByte ∧ (second = some 0xF8 ∨ second = some 0xF9) := by
  simp [isSyncPair]

/-- A sync byte at the end stays undecided. -/
theorem sweep_of_last_byte (sync : content[offset]? = some Scanner.syncByte)
    (end_ : offset + 1 = content.size) : sweep content stream last offset = (none, offset) := by
  rw [sweep, dif_pos (by omega), if_pos sync, if_pos (by omega)]

/-- A sync byte is passed whose next byte does not open a frame. -/
theorem sweep_of_not_syncPair (inside : offset + 1 < content.size)
    (other : isSyncPair content[offset]? content[offset + 1]? = false) :
    sweep content stream last offset = sweep content stream last (offset + 1) := by
  rw [sweep, dif_pos (by omega)]
  split
  · rw [if_neg (by omega), other]
    simp
  · rfl

/-- Bytes that open a frame, with too few behind them, stay undecided. -/
theorem sweep_of_short (inside : offset + 1 < content.size)
    (opens : isSyncPair content[offset]? content[offset + 1]? = true)
    (short : content.size < offset + maxHeaderLength) :
    sweep content stream last offset = (none, offset) := by
  rw [sweep, dif_pos (by omega), if_pos (isSyncPair_eq_true.mp opens).1, if_neg (by omega),
    if_pos opens, if_pos short]

/-- A header that follows the last one is found. -/
theorem sweep_of_accepted (opens : isSyncPair content[offset]? content[offset + 1]? = true)
    (enough : offset + maxHeaderLength ≤ content.size) {header : FrameHeader} {length : Nat}
    (accepted : FrameHeader.ofWindow? stream last (content.slice offset maxHeaderLength) =
      some (header, length)) :
    sweep content stream last offset =
      (some { offset, header, length }, offset + length) := by
  simp only [maxHeaderLength] at enough
  rw [sweep, dif_pos (by omega), if_pos (isSyncPair_eq_true.mp opens).1, if_neg (by omega),
    if_pos opens, if_neg (by simp only [maxHeaderLength]; omega), accepted]

/-- Bytes that only look like a header are passed. -/
theorem sweep_of_rejected (opens : isSyncPair content[offset]? content[offset + 1]? = true)
    (enough : offset + maxHeaderLength ≤ content.size)
    (rejected : FrameHeader.ofWindow? stream last (content.slice offset maxHeaderLength) =
      none) :
    sweep content stream last offset = sweep content stream last (offset + 1) := by
  simp only [maxHeaderLength] at enough
  rw [sweep, dif_pos (by omega), if_pos (isSyncPair_eq_true.mp opens).1, if_neg (by omega),
    if_pos opens, if_neg (by simp only [maxHeaderLength]; omega), rejected]

/-- Where too few bytes are left nothing is found. -/
theorem sweep_fst_of_short (short : content.size < offset + maxHeaderLength) :
    (sweep content stream last offset).1 = none := by
  fun_induction sweep content stream last offset with
  | case1 => rfl
  | case2 => rfl
  | case3 offset _ _ _ _ enough => exact absurd short enough
  | case4 offset _ _ _ _ enough => exact absurd short enough
  | case5 offset _ _ _ _ ih => exact ih (by omega)
  | case6 offset _ _ ih => exact ih (by omega)
  | case7 => rfl

/-- Any number of bytes none of which is a sync byte are passed together. -/
theorem sweep_of_all_ne_sync (count : Nat) (inside : offset + count ≤ content.size)
    (others : ∀ index, index < count → content[offset + index]? ≠ some Scanner.syncByte) :
    sweep content stream last offset = sweep content stream last (offset + count) := by
  induction count with
  | zero => rfl
  | succ count ih =>
    have upTo := ih (by omega) fun index below => others index (by omega)
    rw [upTo]
    exact sweep_of_ne_sync (by omega) (others count (by omega))

/-- The second byte of a pair that is no sync byte is passed with the first. -/
theorem sweep_add_two (inside : offset + 2 ≤ content.size)
    (second : content[offset + 1]? ≠ some Scanner.syncByte)
    (passed : sweep content stream last offset = sweep content stream last (offset + 1)) :
    sweep content stream last offset = sweep content stream last (offset + 2) := by
  rw [passed]
  exact sweep_of_ne_sync (by omega) second

end Sweep

/-! ## Visiting is sweeping -/

section Visit

variable {content : Content} {stream : StreamParameters} {taken : Option Sighting}
  {offset : Nat}

theorem visitFrom_of_size_le (past : content.size ≤ offset) :
    visitFrom content stream taken offset = [] := by
  rw [visitFrom, Nat.sub_eq_zero_of_le past]
  rfl

theorem visitFrom_of_lt (inside : offset < content.size) :
    visitFrom content stream taken offset =
      match at? content stream offset with
      | none => visitFrom content stream taken (offset + 1)
      | some next =>
        if mayFollow taken next then next :: visitFrom content stream (some next) (offset + 1)
        else visitFrom content stream taken (offset + 1) := by
  obtain ⟨left, many⟩ : ∃ left, content.size - offset = left + 1 :=
    ⟨content.size - offset - 1, by omega⟩
  have fewer : content.size - (offset + 1) = left := by omega
  simp only [visitFrom, many, fewer, List.range'_succ]
  rfl

theorem offset_of_at? {found : Sighting} (there : at? content stream offset = some found) :
    found.offset = offset := by
  unfold at? at there
  split at there
  · split at there
    · rw [← Option.some.inj there]
    · cases there
  · cases there

theorem decode_of_at? {found : Sighting} (there : at? content stream offset = some found) :
    FrameHeader.decode (content.slice offset maxHeaderLength) stream =
      .ok (found.header, found.length) := by
  unfold at? at there
  split at there
  · split at there
    · rename_i decoded
      rw [decoded, ← Option.some.inj there]
    · cases there
  · cases there

theorem lt_stop_of_at? {found : Sighting} (there : at? content stream offset = some found) :
    offset < found.stop := by
  have positive := (FrameHeader.length_decode (decode_of_at? there)).1
  rw [stop, offset_of_at? there]
  omega

/-- Nothing stands where no sync pair stands. -/
theorem at?_of_not_syncPair (other : isSyncPair content[offset]? content[offset + 1]? = false) :
    at? content stream offset = none := by
  rw [at?, other]
  simp

/-- Nothing stands where too few bytes are left. -/
theorem at?_of_short (short : content.size < offset + maxHeaderLength) :
    at? content stream offset = none := by
  rw [at?, if_neg (by omega)]

/-- Nothing is taken any more when too few bytes are left. -/
theorem visitFrom_of_short (offset : Nat) (short : content.size < offset + maxHeaderLength) :
    visitFrom content stream taken offset = [] := by
  by_cases inside : offset < content.size
  · rw [visitFrom_of_lt inside, at?_of_short short]
    dsimp only
    exact visitFrom_of_short (offset + 1) (by omega)
  · exact visitFrom_of_size_le (by omega)
  termination_by content.size - offset

/-- The bytes of a header that was taken are passed. -/
theorem visitFrom_stop (last : Sighting) (offset : Nat) (within : offset ≤ last.stop) :
    visitFrom content stream (some last) offset =
      visitFrom content stream (some last) last.stop := by
  by_cases inside : offset < last.stop ∧ offset < content.size
  · rw [visitFrom_of_lt inside.2]
    have rest := visitFrom_stop last (offset + 1) (by omega)
    split
    · exact rest
    · rename_i next there
      have within : ¬ last.stop ≤ next.offset := by
        rw [offset_of_at? there]
        omega
      rw [if_neg (by simp [mayFollow, within])]
      exact rest
  · rcases Nat.lt_or_ge offset content.size with before | past
    · rw [show offset = last.stop by omega]
    · rw [visitFrom_of_size_le past, visitFrom_of_size_le (by omega)]
  termination_by content.size - offset

/-- For a place behind the header taken last, what stands there, `at?` it, may be taken exactly
when it follows that header. -/
theorem ofWindow?_eq_filter (stream : StreamParameters) (free : ∀ last ∈ taken, last.stop ≤ offset)
    (opens : isSyncPair content[offset]? content[offset + 1]? = true)
    (enough : offset + maxHeaderLength ≤ content.size) :
    (FrameHeader.ofWindow? stream (taken.map header) (content.slice offset maxHeaderLength)).map
        (fun found => ({ offset, header := found.1, length := found.2 } : Sighting)) =
      (at? content stream offset).filter (mayFollow taken) := by
  rw [at?, if_pos ⟨enough, opens⟩, FrameHeader.ofWindow?]
  rcases FrameHeader.decode (content.slice offset maxHeaderLength) stream with
    _ | ⟨header, length⟩
  · rfl
  · cases taken with
    | none => rfl
    | some last =>
      have behind : last.stop ≤ offset := free last rfl
      simp only [Option.map_some, Option.filter_some, mayFollow, behind, decide_true,
        Bool.true_and]
      rcases last.header.checkFollows header with _ | ⟨⟨⟩⟩ <;> rfl

/-- Visiting all offsets behind the header taken last finds what `sweep` finds, and goes on behind
it. -/
theorem visit_eq_sweep (taken : Option Sighting) (offset : Nat)
    (free : ∀ last ∈ taken, last.stop ≤ offset) :
    visitFrom content stream taken offset =
      match (sweep content stream (taken.map header) offset).1 with
      | none => []
      | some next => next :: visitFrom content stream (some next) next.stop := by
  have later : ∀ last ∈ taken, last.stop ≤ offset + 1 :=
    fun last isLast => Nat.le_succ_of_le (free last isLast)
  rcases Nat.lt_or_ge content.size (offset + maxHeaderLength) with short | enough
  · rw [sweep_fst_of_short short, visitFrom_of_short offset short]
  · have inside : offset + 1 < content.size := by
      simp only [maxHeaderLength] at enough
      omega
    have rest := visit_eq_sweep taken (offset + 1) later
    rw [visitFrom_of_lt (Nat.lt_of_succ_lt inside)]
    cases opens : isSyncPair content[offset]? content[offset + 1]? with
    | false =>
      rw [at?_of_not_syncPair opens, sweep_of_not_syncPair inside opens]
      exact rest
    | true =>
      have filtered := ofWindow?_eq_filter stream free opens enough
      rcases found : FrameHeader.ofWindow? stream (taken.map header)
        (content.slice offset maxHeaderLength) with _ | ⟨found, length⟩
      · -- what stands here is passed by the sweep, and not taken by the visit
        rw [found] at filtered
        rw [sweep_of_rejected opens enough found, ← rest]
        split
        · rfl
        · rename_i next there
          rw [there] at filtered
          rw [if_neg]
          intro allowed
          rw [Option.filter_some, if_pos allowed] at filtered
          cases filtered
      · rw [found] at filtered
        rw [sweep_of_accepted opens enough found]
        obtain ⟨there, allowed⟩ := Option.filter_eq_some_iff.mp filtered.symm
        rw [there]
        dsimp only
        rw [if_pos allowed]
        congr 1
        exact visitFrom_stop _ _ (lt_stop_of_at? there)
  termination_by content.size - offset

end Visit

end Sighting

end FieldRecording
