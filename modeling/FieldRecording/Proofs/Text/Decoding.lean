import FieldRecording.Text.Lossy

/-!
# Texts are decoded from their bytes

The bytes of a text decode to its characters, whatever bytes stand behind them:
`decode_utf8Bytes_append` says so of `Lossy.decode`, which replaces what is no text. A character
takes one to four bytes: the first of them starts a sequence, by `start`, and the others complete
it, by `advance`. The cases follow the number of bytes.
-/

namespace FieldRecording.Lossy

/-! ## The bytes of a sequence -/

/-- A byte below 128 is a character, and `start` takes it for one. -/
theorem start_of_le {byte : Nat} (small : byte ≤ 0x7F) :
    start (UInt8.ofNat byte) = ([Char.ofNat byte], none) := by
  have value : (UInt8.ofNat byte).toNat = byte :=
    UInt8.toNat_ofNat_of_lt' (by simp only [UInt8.size]; omega)
  have below : UInt8.ofNat byte < 0x80 := by
    rw [UInt8.lt_iff_toNat_lt, value]
    exact Nat.lt_succ_of_le small
  unfold start
  dsimp only
  rw [if_pos below, value]

/-- The first byte of two. The bits 0 and 1 would make the sequence too long for its
character. -/
theorem start_of_two {bits : Nat} (many : 2 ≤ bits) (few : bits < 32) :
    start (UInt8.ofNat (bits + 192)) = ([], some ⟨1, 0x80, 0xBF, bits⟩) := by
  have all : ∀ bits : Fin 32, 2 ≤ bits.val →
      start (UInt8.ofNat (bits.val + 192)) = ([], some ⟨1, 0x80, 0xBF, bits.val⟩) := by
    decide
  exact all ⟨bits, few⟩ many

/-- The first byte of three. The bounds of the next one leave out sequences that are too long
for their characters, and surrogates. -/
theorem start_of_three {bits : Nat} (few : bits < 16) :
    start (UInt8.ofNat (bits + 224)) =
      ([], some ⟨2, if bits = 0 then 0xA0 else 0x80, if bits = 13 then 0x9F else 0xBF, bits⟩) := by
  have all : ∀ bits : Fin 16, start (UInt8.ofNat (bits.val + 224)) =
      ([], some ⟨2, if bits.val = 0 then 0xA0 else 0x80,
        if bits.val = 13 then 0x9F else 0xBF, bits.val⟩) := by
    decide
  exact all ⟨bits, few⟩

/-- The first byte of four. The bounds of the next one leave out sequences that are too long
for their characters, and numbers past the last character. -/
theorem start_of_four {bits : Nat} (few : bits < 5) :
    start (UInt8.ofNat (bits + 240)) =
      ([], some ⟨3, if bits = 0 then 0x90 else 0x80, if bits = 4 then 0x8F else 0xBF, bits⟩) := by
  have all : ∀ bits : Fin 5, start (UInt8.ofNat (bits.val + 240)) =
      ([], some ⟨3, if bits.val = 0 then 0x90 else 0x80,
        if bits.val = 4 then 0x8F else 0xBF, bits.val⟩) := by
    decide
  exact all ⟨bits, few⟩

/-- Six more bits go into a sequence with its next byte. -/
theorem advance_of_next {sequence : Partial} {bits : Nat} (six : bits < 64)
    (low : sequence.low.toNat ≤ bits + 128) (high : bits + 128 ≤ sequence.high.toNat) :
    advance (some sequence) (UInt8.ofNat (bits + 128)) =
      if sequence.left = 1 then ([Char.ofNat (sequence.bits * 64 + bits)], none)
      else ([], some ⟨sequence.left - 1, 0x80, 0xBF, sequence.bits * 64 + bits⟩) := by
  have value : (UInt8.ofNat (bits + 128)).toNat = bits + 128 :=
    UInt8.toNat_ofNat_of_lt' (by simp only [UInt8.size]; omega)
  have bounds : sequence.low ≤ UInt8.ofNat (bits + 128) ∧
      UInt8.ofNat (bits + 128) ≤ sequence.high := by
    rw [UInt8.le_iff_toNat_le, UInt8.le_iff_toNat_le, value]
    exact ⟨low, high⟩
  have low : (bits + 128) % 64 = bits := by omega
  unfold advance
  dsimp only
  rw [if_pos bounds, value, low]

/-- The second byte of a sequence that has more of them. Only its bounds vary. -/
theorem decodeFrom_second {left : Nat} (more : left ≠ 1) {low high : UInt8} {before bits : Nat}
    (six : bits < 64) (above : low.toNat ≤ bits + 128) (below : bits + 128 ≤ high.toNat)
    (rest : List UInt8) :
    decodeFrom (some ⟨left, low, high, before⟩) (UInt8.ofNat (bits + 128) :: rest) =
      decodeFrom (some ⟨left - 1, 0x80, 0xBF, before * 64 + bits⟩) rest := by
  rw [decodeFrom, advance_of_next six above below, if_neg more]
  rfl

/-- The last byte of a sequence completes its character. -/
theorem decodeFrom_last {before bits : Nat} (six : bits < 64) (rest : List UInt8) :
    decodeFrom (some ⟨1, 0x80, 0xBF, before⟩) (UInt8.ofNat (bits + 128) :: rest) =
      Char.ofNat (before * 64 + bits) :: decodeFrom none rest := by
  have above : (0x80 : UInt8).toNat ≤ bits + 128 := Nat.le_add_left 128 bits
  have below : bits + 128 ≤ (0xBF : UInt8).toNat := Nat.add_le_add_right (Nat.le_of_lt_succ six) 128
  rw [decodeFrom, advance_of_next six above below]
  rfl

theorem decodeFrom_start {byte : UInt8} {sequence : Partial}
    (starts : start byte = ([], some sequence)) (rest : List UInt8) :
    decodeFrom none (byte :: rest) = decodeFrom (some sequence) rest := by
  rw [decodeFrom, advance, starts]
  rfl

/-! ## Characters and texts -/

/-- The bytes of a character decode to it, in any of the four lengths. -/
theorem decodeFrom_utf8EncodeChar (c : Char) (rest : List UInt8) :
    decodeFrom none (String.utf8EncodeChar c ++ rest) = c :: decodeFrom none rest := by
  have whole : Char.ofNat c.val.toNat = c := Char.ofNat_toNat c
  have scalar : c.val.toNat < 0xD800 ∨ 0xDFFF < c.val.toNat ∧ c.val.toNat < 0x110000 := c.valid
  unfold String.utf8EncodeChar
  dsimp only
  generalize c.val.toNat = value at whole scalar
  split
  · rename_i one
    rw [List.cons_append, List.nil_append, decodeFrom, advance, start_of_le one, whole]
    rfl
  split
  · have bits : value / 64 % 32 * 64 + value % 64 = value := by omega
    rw [List.cons_append, List.cons_append, List.nil_append,
      decodeFrom_start (start_of_two (by omega) (by omega)), decodeFrom_last (by omega), bits,
      whole]
  split
  · have bits : (value / 4096 % 16 * 64 + value / 64 % 64) * 64 + value % 64 = value := by
      omega
    have above : (if value / 4096 % 16 = 0 then (0xA0 : UInt8) else 0x80).toNat ≤
        value / 64 % 64 + 128 := by
      split <;> simp only [UInt8.reduceToNat] <;> omega
    have below : value / 64 % 64 + 128 ≤
        (if value / 4096 % 16 = 13 then (0x9F : UInt8) else 0xBF).toNat := by
      split <;> simp only [UInt8.reduceToNat] <;> omega
    rw [List.cons_append, List.cons_append, List.cons_append, List.nil_append,
      decodeFrom_start (start_of_three (by omega)),
      decodeFrom_second (by decide) (by omega) above below, decodeFrom_last (by omega), bits, whole]
  · have bits : ((value / 262144 % 8 * 64 + value / 4096 % 64) * 64 + value / 64 % 64) * 64 +
        value % 64 = value := by
      omega
    have above : (if value / 262144 % 8 = 0 then (0x90 : UInt8) else 0x80).toNat ≤
        value / 4096 % 64 + 128 := by
      split <;> simp only [UInt8.reduceToNat] <;> omega
    have below : value / 4096 % 64 + 128 ≤
        (if value / 262144 % 8 = 4 then (0x8F : UInt8) else 0xBF).toNat := by
      split <;> simp only [UInt8.reduceToNat] <;> omega
    have third : value / 64 % 64 + 128 ≤ (0xBF : UInt8).toNat := by
      simp only [UInt8.reduceToNat]
      omega
    rw [List.cons_append, List.cons_append, List.cons_append, List.cons_append, List.nil_append,
      decodeFrom_start (start_of_four (by omega)),
      decodeFrom_second (by decide) (by omega) above below,
      decodeFrom_second (by decide) (by omega) (Nat.le_add_left 128 _) third,
      decodeFrom_last (by omega), bits, whole]

/-- The bytes of a text decode to its characters, with those of what stands behind. -/
theorem decode_utf8Bytes_append (text : String) (rest : List UInt8) :
    decode (utf8Bytes text ++ rest) = text.toList ++ decode rest := by
  unfold decode utf8Bytes
  induction text.toList with
  | nil => rfl
  | cons c text ih =>
    rw [List.flatMap_cons, List.append_assoc, decodeFrom_utf8EncodeChar, ih]
    rfl

/-- Spaces decode to spaces. -/
theorem decode_spaces (count : Nat) :
    decode (List.replicate count 0x20) = List.replicate count ' ' := by
  unfold decode
  induction count with
  | zero => rfl
  | succ count ih =>
    rw [List.replicate_succ, List.replicate_succ, decodeFrom, ← ih]
    rfl

end FieldRecording.Lossy
