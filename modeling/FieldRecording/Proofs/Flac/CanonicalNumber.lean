import FieldRecording.Proofs.Flac.NumberCoding

/-!
# The canonical coding of a number

`CodedNumber.encode` has a coding for the numbers below `2^31`, and for no others. Bytes that are
read as a number are written with some marker that has room for it
(`exists_encodeWith_of_decode`), so that of all codings of a number the one that is written is the
shortest, and the only one of its length (`take_eq_of_decode`).

A continuation byte that has lost its marker is noticed where it stands: `Damaged` is a coding
that was changed in this way, and `decode_of_damaged` says at which byte `decode` stops.
-/

namespace FieldRecording.CodedNumber

/-! ## Which numbers have a coding -/

theorem exists_encode_iff {value : Nat} :
    (∃ coded, encode value = some coded) ↔ value < 2 ^ 31 := by
  constructor
  · rintro ⟨coded, isCoded⟩
    obtain ⟨mark, left, room, marks, fits, _⟩ := encode_eq_some isCoded
    cases marks <;> omega
  · intro below
    obtain ⟨coded, isCoded, _⟩ := encode_of_marks .six (by omega : value < 2 * 64 ^ 5)
    exact ⟨coded, isCoded⟩

/-! ## Bytes that are read as a number -/

/-- The number of further bytes determines the marker, of `Marks`. -/
theorem Marks.unique {mark mark' left room room' : Nat} (marks : Marks mark left room)
    (others : Marks mark' left room') : mark = mark' := by
  cases marks <;> cases others <;> rfl

/-- A first byte is its marker and the bits behind it, as `lead` takes it apart. -/
theorem eq_ofNat_of_lead {first : UInt8} {bits left mark room : Nat}
    (announced : lead first = some (bits, left)) (marks : Marks mark left room) :
    first = UInt8.ofNat (mark + bits) := by
  have bound := first.toNat_lt
  suffices isSum : first.toNat = mark + bits by rw [← isSum, UInt8.ofNat_toNat]
  unfold lead at announced
  simp only [UInt8.lt_iff_toNat_lt, UInt8.reduceToNat] at announced
  repeat' split at announced
  all_goals simp only [Option.some.injEq, Prod.mk.injEq, reduceCtorEq] at announced
  all_goals
    obtain ⟨rfl, rfl⟩ := announced
    cases marks
    omega

/-- A continuation byte is the marker and six bits. -/
theorem eq_ofNat_of_isContinuation {byte : UInt8} (marked : isContinuation byte = true) :
    byte = UInt8.ofNat (0x80 + byte.toNat % 64) := by
  have checked : ∀ number : Fin 256, isContinuation (UInt8.ofNat number.val) = true →
      UInt8.ofNat number.val = UInt8.ofNat (0x80 + number.val % 64) := by decide +kernel
  have same := checked ⟨byte.toNat, byte.toNat_lt⟩
  rw [UInt8.ofNat_toNat] at same
  exact same marked

/-- The bytes that complete a number are those that it is written with: `continueFrom` is undone
by `continuation`. -/
theorem continuation_of_continueFrom {value index left number : Nat} {bytes : List UInt8}
    (read : continueFrom value index left bytes = .ok number) :
    value = number >>> (6 * left) ∧ bytes.take left = continuation number left := by
  induction left generalizing value index bytes with
  | zero =>
    rw [continueFrom] at read
    obtain rfl := Except.ok.inj read
    exact ⟨rfl, rfl⟩
  | succ left ih =>
    cases bytes with
    | nil => cases read
    | cons byte bytes =>
      rw [continueFrom] at read
      split at read
      · rename_i marked
        obtain ⟨high, rest⟩ := ih read
        have step := shiftRight_append_six number left
        have bits : byte.toNat % 64 < 64 := Nat.mod_lt _ (by decide)
        have low : number >>> (6 * left) % 64 = byte.toNat % 64 := by omega
        refine ⟨by omega, ?_⟩
        rw [List.take_succ_cons, rest, continuation, low, ← eq_ofNat_of_isContinuation marked]
      · cases read

/-- Bytes that `decode` reads as a number are written by `encodeWith` with a marker that has room
for it. -/
theorem exists_encodeWith_of_decode {bytes : List UInt8} {value length : Nat}
    (decoded : decode bytes = .ok (value, length)) :
    ∃ mark left room, Marks mark left room ∧ length = left + 1 ∧ value < room * 64 ^ left ∧
      bytes.take length = encodeWith mark left value := by
  cases bytes with
  | nil => cases decoded
  | cons first bytes =>
    rw [decode] at decoded
    split at decoded
    · cases decoded
    rename_i bits left announced
    split at decoded
    · cases decoded
    rcases continued : continueFrom bits 1 left bytes with _ | number
    · rw [continued] at decoded
      cases decoded
    rw [continued] at decoded
    obtain ⟨rfl, rfl⟩ := Prod.mk.inj (Except.ok.inj decoded)
    obtain ⟨mark, room, marks, fits⟩ := marks_of_lead announced
    obtain ⟨high, rest⟩ := continuation_of_continueFrom continued
    refine ⟨mark, left, room, marks, rfl, ?_, ?_⟩
    · calc number
        _ < (bits + 1) * 64 ^ left := lt_of_continueFrom continued
        _ ≤ room * 64 ^ left := Nat.mul_le_mul_right _ fits
    · rw [List.take_succ_cons, rest, encodeWith, ← high, ← eq_ofNat_of_lead announced marks]

/-- A coding that is as short as the one that `encode` writes is that one. -/
theorem take_eq_of_decode {bytes coded : List UInt8} {value length : Nat}
    (decoded : decode bytes = .ok (value, length)) (isCoded : encode value = some coded)
    (shortest : coded.length = length) : bytes.take length = coded := by
  obtain ⟨mark, left, room, marks, isLength, _, isRead⟩ := exists_encodeWith_of_decode decoded
  obtain ⟨mark', left', room', marks', _, rfl⟩ := encode_eq_some isCoded
  rw [length_encodeWith, isLength] at shortest
  obtain rfl := Nat.succ.inj shortest
  rw [isRead, marks.unique marks']

/-! ## Bytes that have lost their marker -/

theorem isContinuation_of_mem {value left : Nat} {byte : UInt8}
    (member : byte ∈ continuation value left) : isContinuation byte = true := by
  induction left with
  | zero => cases member
  | succ left ih =>
    rcases List.mem_cons.mp member with rfl | later
    · exact (isContinuation_ofNat _ (Nat.mod_lt _ (by decide))).1
    · exact ih later

/-- Reading with `continueFrom` stops at the first byte without a marker that is due. -/
theorem continueFrom_of_unmarked {before rest : List UInt8} {byte : UInt8}
    (marked : ∀ other ∈ before, isContinuation other = true)
    (unmarked : isContinuation byte = false) {left : Nat} (due : before.length < left)
    (value index : Nat) :
    continueFrom value index left (before ++ byte :: rest) =
      .error (.badContinuation (index + before.length)) := by
  induction before generalizing value index left with
  | nil =>
    obtain ⟨left, rfl⟩ := Nat.exists_eq_succ_of_ne_zero (Nat.ne_of_gt due)
    rw [List.nil_append, continueFrom, unmarked, if_neg Bool.false_ne_true]
    rfl
  | cons first before ih =>
    obtain ⟨left, rfl⟩ := Nat.exists_eq_succ_of_ne_zero (Nat.ne_of_gt (Nat.zero_lt_of_lt due))
    rw [List.cons_append, continueFrom, if_pos (marked first List.mem_cons_self),
      ih (fun other member => marked other (List.mem_cons_of_mem first member))
        (Nat.lt_of_succ_lt_succ due), List.length_cons, Nat.add_assoc, Nat.add_comm 1]

/-- A coding was changed from an index on, behind its first byte, and the byte there has lost its
marker (`isContinuation`). Those behind it may have lost theirs, too. -/
structure Damaged (coded damaged : List UInt8) (index : Nat) : Prop where
  length : damaged.length = coded.length
  behind : 0 < index
  front : damaged.take index = coded.take index
  lost : ∃ byte, damaged[index]? = some byte ∧ isContinuation byte = false

/-- The first byte that has lost its marker is noticed by `decode`, whatever became of those
behind it. -/
theorem decode_of_damaged {value index : Nat} {coded damaged : List UInt8}
    (isCoded : encode value = some coded) (damage : Damaged coded damaged index)
    (rest : List UInt8) : decode (damaged ++ rest) = .error (.badContinuation index) := by
  obtain ⟨mark, left, room, marks, fits, rfl⟩ := encode_eq_some isCoded
  obtain ⟨byte, isByte, unmarked⟩ := damage.lost
  obtain ⟨index, rfl⟩ := Nat.exists_eq_succ_of_ne_zero (Nat.ne_of_gt damage.behind)
  obtain ⟨inside, isThere⟩ := List.getElem?_eq_some_iff.mp isByte
  have long := damage.length
  rw [length_encodeWith] at long
  have high : value >>> (6 * left) < room := by
    rw [Nat.shiftRight_eq_div_pow, Nat.pow_mul]
    exact Nat.div_lt_of_lt_mul (Nat.mul_comm .. ▸ fits)
  have whole : damaged = UInt8.ofNat (mark + value >>> (6 * left)) ::
      ((continuation value left).take index ++ byte :: damaged.drop (index + 2)) := by
    calc damaged
      _ = damaged.take (index + 1) ++ damaged.drop (index + 1) :=
          (List.take_append_drop _ _).symm
      _ = damaged.take (index + 1) ++ byte :: damaged.drop (index + 2) := by
          rw [List.drop_eq_getElem_cons inside, isThere]
      _ = _ := by rw [damage.front, encodeWith, List.take_succ_cons, List.cons_append]
  have before : ((continuation value left).take index).length = index := by
    rw [List.length_take, length_continuation]
    omega
  have marked : ∀ other ∈ (continuation value left).take index, isContinuation other = true :=
    fun other member => isContinuation_of_mem (List.mem_of_mem_take member)
  have enough : ¬ ((continuation value left).take index ++
      byte :: (damaged.drop (index + 2) ++ rest)).length < left := by
    rw [List.length_append, before, List.length_cons, List.length_append, List.length_drop]
    omega
  rw [whole, List.cons_append, List.append_assoc, List.cons_append, decode,
    lead_of_marks marks _ high]
  dsimp only
  rw [if_neg enough, continueFrom_of_unmarked marked unmarked (by rw [before]; omega), before,
    Nat.add_comm 1 index]
  rfl

/-! ## Codings and numbers -/

/-- Just the numbers below `2^31` have a coding, and `decode` reads them back from it, whatever
stands behind. A number that is read has a coding that is no longer than the bytes it was read
from, and none but itself is as short. In a coding of several bytes the first byte that has lost
its marker is noticed (`Damaged`). -/
theorem coding_canonical :
    (∀ value, (∃ coded, encode value = some coded) ↔ value < 2 ^ 31) ∧
    (∀ value coded, encode value = some coded →
      ∀ rest, decode (coded ++ rest) = .ok (value, coded.length)) ∧
    (∀ bytes value length, decode bytes = .ok (value, length) →
      value < 2 ^ 31 ∧ ∃ coded, encode value = some coded ∧ coded.length ≤ length ∧
        (coded.length = length → bytes.take length = coded)) ∧
    (∀ value coded damaged index, encode value = some coded → Damaged coded damaged index →
      ∀ rest, decode (damaged ++ rest) = .error (.badContinuation index)) := by
  refine ⟨fun _ => exists_encode_iff, fun _ _ isCoded => decode_of_encode isCoded, ?_,
    fun _ _ _ _ isCoded damage => decode_of_damaged isCoded damage⟩
  intro bytes value length decoded
  obtain ⟨coded, isCoded, shorter⟩ := encode_of_decode decoded
  exact ⟨exists_encode_iff.mp ⟨coded, isCoded⟩, coded, isCoded, shorter,
    take_eq_of_decode decoded isCoded⟩

/-- A number of three bytes, read from its coding, from a coding of four bytes, and from one whose
last byte has lost its marker. -/
theorem coding_canonical_of_three :
    decode [0xE2, 0x82, 0xAC, 0xFF] = .ok (0x20AC, 3) ∧
    (∃ coded, encode 0x20AC = some coded ∧ coded.length ≤ 4) ∧
    decode [0xE2, 0x82, 0xEC, 0xFF] = .error (.badContinuation 2) := by
  obtain ⟨_, readBack, shortest, noticed⟩ := coding_canonical
  have isCoded : encode 0x20AC = some [0xE2, 0x82, 0xAC] := rfl
  have overlong : decode [0xF0, 0x82, 0x82, 0xAC] = .ok (0x20AC, 4) := rfl
  have damage : Damaged [0xE2, 0x82, 0xAC] [0xE2, 0x82, 0xEC] 2 :=
    ⟨rfl, by decide, rfl, 0xEC, rfl, by decide⟩
  obtain ⟨_, coded, isShortest, shorter, _⟩ := shortest _ _ _ overlong
  exact ⟨readBack _ _ isCoded [0xFF], ⟨coded, isShortest, shorter⟩,
    noticed _ _ _ _ isCoded damage [0xFF]⟩

end FieldRecording.CodedNumber
