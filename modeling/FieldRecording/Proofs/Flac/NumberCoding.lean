import FieldRecording.Flac.CodedNumber
import Mathlib.Algebra.Group.Nat.Defs

/-!
# Coded numbers round trip

A number that has a coding is read back from it, whatever bytes stand behind (`decode_of_encode`).
A coding that was read need not be the shortest one, and then the number has a shorter one:
`encode_of_decode`.

`Marks` lists the markers with the bits that a first byte has room for, and `continueFrom` appends
six bits for each byte behind it. Both directions go by induction on how many of these there are.
-/

namespace FieldRecording.CodedNumber

/-! ## Continuation bytes -/

theorem length_continuation (value left : Nat) : (continuation value left).length = left := by
  induction left with
  | zero => rfl
  | succ left ih => rw [continuation, List.length_cons, ih]

theorem length_encodeWith (mark left value : Nat) :
    (encodeWith mark left value).length = left + 1 := by
  rw [encodeWith, List.length_cons, length_continuation]

/-- A byte with the marker and six bits is one with `isContinuation` that carries the bits. -/
theorem isContinuation_ofNat (bits : Nat) (six : bits < 64) :
    isContinuation (UInt8.ofNat (0x80 + bits)) = true ∧
      (UInt8.ofNat (0x80 + bits)).toNat % 64 = bits := by
  have checked : ∀ bits : Fin 64, isContinuation (UInt8.ofNat (0x80 + bits.val)) = true := by
    decide
  refine ⟨checked ⟨bits, six⟩, ?_⟩
  rw [UInt8.toNat_ofNat']
  omega

/-- What is left of a number when the bits of one more byte are appended. -/
theorem shiftRight_append_six (value left : Nat) :
    value >>> (6 * (left + 1)) * 64 + value >>> (6 * left) % 64 = value >>> (6 * left) := by
  have step : value >>> (6 * (left + 1)) = value >>> (6 * left) / 64 := by
    rw [Nat.mul_succ, Nat.shiftRight_add, Nat.shiftRight_eq_div_pow _ 6]
  rw [step]
  omega

/-- Continuation bytes complete the number whose high bits were read before them: `continueFrom`
undoes `continuation`. -/
theorem continueFrom_continuation (value left index : Nat) (rest : List UInt8) :
    continueFrom (value >>> (6 * left)) index left (continuation value left ++ rest) =
      .ok value := by
  induction left generalizing index with
  | zero => rfl
  | succ left ih =>
    obtain ⟨marked, bits⟩ := isContinuation_ofNat (value >>> (6 * left) % 64)
      (Nat.mod_lt _ (by decide))
    rw [continuation, List.cons_append, continueFrom, if_pos marked, bits,
      shiftRight_append_six]
    exact ih (index + 1)

/-- Every continuation byte that `continueFrom` takes appends six bits, and no more. -/
theorem lt_of_continueFrom {value index left : Nat} {bytes : List UInt8} {number : Nat}
    (read : continueFrom value index left bytes = .ok number) :
    number < (value + 1) * 64 ^ left := by
  induction left generalizing value index bytes with
  | zero =>
    rw [continueFrom] at read
    obtain rfl := Except.ok.inj read
    omega
  | succ left ih =>
    cases bytes with
    | nil => cases read
    | cons byte bytes =>
      rw [continueFrom] at read
      split at read
      · have bits : byte.toNat % 64 < 64 := Nat.mod_lt _ (by decide)
        calc number
          _ < (value * 64 + byte.toNat % 64 + 1) * 64 ^ left := ih read
          _ ≤ (value + 1) * 64 * 64 ^ left := Nat.mul_le_mul_right _ (by omega)
          _ = (value + 1) * 64 ^ (left + 1) := by rw [Nat.pow_succ', Nat.mul_assoc]
      · cases read

/-! ## First bytes -/

/-- The marker of a coding and how many bits of the number its first byte holds, for `encodeWith`.
-/
inductive Marks : (mark left room : Nat) → Prop where
  | one : Marks 0x00 0 128
  | two : Marks 0xC0 1 32
  | three : Marks 0xE0 2 16
  | four : Marks 0xF0 3 8
  | five : Marks 0xF8 4 4
  | six : Marks 0xFC 5 2

/-- A first byte announces, by `lead`, as many further bytes as its marker says. -/
theorem lead_of_marks {mark left room : Nat} (marks : Marks mark left room) (bits : Nat)
    (fits : bits < room) : lead (UInt8.ofNat (mark + bits)) = some (bits, left) := by
  cases marks with
  | one => exact (by decide : ∀ bits : Fin 128, lead (UInt8.ofNat (0x00 + bits.val)) =
      some (bits.val, 0)) ⟨bits, fits⟩
  | two => exact (by decide : ∀ bits : Fin 32, lead (UInt8.ofNat (0xC0 + bits.val)) =
      some (bits.val, 1)) ⟨bits, fits⟩
  | three => exact (by decide : ∀ bits : Fin 16, lead (UInt8.ofNat (0xE0 + bits.val)) =
      some (bits.val, 2)) ⟨bits, fits⟩
  | four => exact (by decide : ∀ bits : Fin 8, lead (UInt8.ofNat (0xF0 + bits.val)) =
      some (bits.val, 3)) ⟨bits, fits⟩
  | five => exact (by decide : ∀ bits : Fin 4, lead (UInt8.ofNat (0xF8 + bits.val)) =
      some (bits.val, 4)) ⟨bits, fits⟩
  | six => exact (by decide : ∀ bits : Fin 2, lead (UInt8.ofNat (0xFC + bits.val)) =
      some (bits.val, 5)) ⟨bits, fits⟩

/-- A first byte that announces further bytes carries a marker, and its bits fit. -/
theorem marks_of_lead {first : UInt8} {bits left : Nat}
    (announced : lead first = some (bits, left)) :
    ∃ mark room, Marks mark left room ∧ bits < room := by
  unfold lead at announced
  simp only [UInt8.lt_iff_toNat_lt, UInt8.reduceToNat] at announced
  repeat' split at announced
  all_goals simp only [Option.some.injEq, Prod.mk.injEq, reduceCtorEq] at announced
  · obtain ⟨rfl, rfl⟩ := announced
    exact ⟨_, _, .one, by omega⟩
  · obtain ⟨rfl, rfl⟩ := announced
    exact ⟨_, _, .two, by omega⟩
  · obtain ⟨rfl, rfl⟩ := announced
    exact ⟨_, _, .three, by omega⟩
  · obtain ⟨rfl, rfl⟩ := announced
    exact ⟨_, _, .four, by omega⟩
  · obtain ⟨rfl, rfl⟩ := announced
    exact ⟨_, _, .five, by omega⟩
  · obtain ⟨rfl, rfl⟩ := announced
    exact ⟨_, _, .six, by omega⟩

/-! ## Round trips -/

/-- A number written by `encodeWith` with a marker that has room for it is read back. -/
theorem decode_encodeWith {mark left room : Nat} (marks : Marks mark left room) {value : Nat}
    (fits : value < room * 64 ^ left) (rest : List UInt8) :
    decode (encodeWith mark left value ++ rest) = .ok (value, left + 1) := by
  have high : value >>> (6 * left) < room := by
    rw [Nat.shiftRight_eq_div_pow, Nat.pow_mul]
    exact Nat.div_lt_of_lt_mul (Nat.mul_comm .. ▸ fits)
  rw [encodeWith, List.cons_append, decode, lead_of_marks marks _ high]
  dsimp only
  rw [if_neg (by rw [List.length_append, length_continuation]; omega),
    continueFrom_continuation]
  rfl

/-- A coding of `encode` is written with a marker that has room for the number, and no shorter one
has. -/
theorem encode_eq_some {value : Nat} {bytes : List UInt8} (coded : encode value = some bytes) :
    ∃ mark left room, Marks mark left room ∧ value < room * 64 ^ left ∧
      bytes = encodeWith mark left value := by
  unfold encode at coded
  repeat' split at coded
  all_goals simp only [Option.some.injEq, reduceCtorEq] at coded
  · exact ⟨_, _, _, .one, by omega, coded.symm⟩
  · exact ⟨_, _, _, .two, by omega, coded.symm⟩
  · exact ⟨_, _, _, .three, by omega, coded.symm⟩
  · exact ⟨_, _, _, .four, by omega, coded.symm⟩
  · exact ⟨_, _, _, .five, by omega, coded.symm⟩
  · exact ⟨_, _, _, .six, by omega, coded.symm⟩

/-- A number is read back by `decode` from its coding, whatever stands behind it. -/
theorem decode_of_encode {value : Nat} {bytes : List UInt8} (coded : encode value = some bytes)
    (rest : List UInt8) : decode (bytes ++ rest) = .ok (value, bytes.length) := by
  obtain ⟨mark, left, room, marks, fits, rfl⟩ := encode_eq_some coded
  rw [decode_encodeWith marks fits, length_encodeWith]

/-- A number for which a marker has room has a coding that is no longer. -/
theorem encode_of_marks {mark left room : Nat} (marks : Marks mark left room) {value : Nat}
    (fits : value < room * 64 ^ left) :
    ∃ bytes, encode value = some bytes ∧ bytes.length ≤ left + 1 := by
  have below : value < 0x80000000 := by cases marks <;> omega
  unfold encode
  repeat' split
  all_goals refine ⟨_, rfl, ?_⟩
  all_goals rw [length_encodeWith]
  all_goals cases marks <;> omega

/-- A number that `decode` read has a coding, no longer than the one read. -/
theorem encode_of_decode {bytes : List UInt8} {value length : Nat}
    (decoded : decode bytes = .ok (value, length)) :
    ∃ coded, encode value = some coded ∧ coded.length ≤ length := by
  cases bytes with
  | nil => cases decoded
  | cons first bytes =>
    rw [decode] at decoded
    split at decoded
    · cases decoded
    · rename_i bits left announced
      split at decoded
      · cases decoded
      · rcases continued : continueFrom bits 1 left bytes with _ | number
        · rw [continued] at decoded
          cases decoded
        · rw [continued] at decoded
          obtain ⟨rfl, rfl⟩ := Prod.mk.inj (Except.ok.inj decoded)
          rcases marks_of_lead announced with ⟨mark, room, marks, fits⟩
          apply encode_of_marks marks
          calc number
            _ < (bits + 1) * 64 ^ left := lt_of_continueFrom continued
            _ ≤ room * 64 ^ left := Nat.mul_le_mul_right _ fits

/-- Numbers that `decode` reads stay below the largest coding. -/
theorem lt_of_decode {bytes : List UInt8} {value length : Nat}
    (decoded : decode bytes = .ok (value, length)) : value < 0x80000000 := by
  obtain ⟨coded, isCoded, _⟩ := encode_of_decode decoded
  obtain ⟨mark, left, room, marks, fits, _⟩ := encode_eq_some isCoded
  cases marks <;> omega

end FieldRecording.CodedNumber
