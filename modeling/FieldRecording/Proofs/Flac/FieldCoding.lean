import FieldRecording.Flac.FrameHeader
import Mathlib.Algebra.Group.Nat.Defs

/-!
# Codes of block size, sample rate and bit depth

Each of these fields of a frame header has codes from a table, codes that announce further bytes,
or a code that defers to the stream. For each of them two facts are shown: what was written is
read back, whatever bytes stand behind (`readBlockSize_of_encodeBlockSize`,
`readSampleRate_of_encodeSampleRate`, `readBitDepth_of_encodeBitDepth`), and what was read can be
written with no more further bytes than were read (`encodeBlockSize_of_readBlockSize` and the
others of that form). The cases are the codes, sixteen at most, so that tables are gone through.
-/

namespace FieldRecording

/-! ## Numbers in bytes -/

theorem ofBigEndian_concat (bytes : List UInt8) (last : UInt8) :
    ofBigEndian (bytes ++ [last]) = ofBigEndian bytes * 256 + last.toNat := by
  rw [ofBigEndian, List.foldl_append]
  rfl

theorem toBigEndian_succ (count number : Nat) :
    toBigEndian (count + 1) number = toBigEndian count (number / 256) ++ [UInt8.ofNat number] := by
  rw [toBigEndian, toLittleEndian, List.reverse_cons]
  rfl

/-- A number that fits into its bytes is read back from them. -/
theorem ofBigEndian_toBigEndian (count number : Nat) (fits : number < 256 ^ count) :
    ofBigEndian (toBigEndian count number) = number := by
  induction count generalizing number with
  | zero =>
    rw [Nat.pow_zero] at fits
    exact (Nat.lt_one_iff.mp fits).symm
  | succ count ih =>
    rw [Nat.pow_succ] at fits
    rw [toBigEndian_succ, ofBigEndian_concat, ih _ (Nat.div_lt_of_lt_mul (by omega)),
      UInt8.toNat_ofNat']
    omega

/-- A number is smaller than its bytes can hold. -/
theorem ofBigEndian_lt (bytes : List UInt8) : ofBigEndian bytes < 256 ^ bytes.length := by
  rw [← List.reverse_reverse bytes]
  induction bytes.reverse with
  | nil => decide
  | cons last bytes ih =>
    rw [List.reverse_cons, ofBigEndian_concat, List.length_append, List.length_singleton,
      Nat.pow_succ]
    have := last.toNat_lt
    omega

theorem length_toBigEndian_le {count bound : Nat} (enough : count ≤ bound) (number : Nat) :
    (toBigEndian count number).length ≤ bound :=
  Nat.le_trans (Nat.le_of_eq (length_toBigEndian count number)) enough

/-- A number that was written with few enough bytes is found in front of others. -/
theorem ofBigEndian_take {count number : Nat} (fits : number < 256 ^ count) (rest : List UInt8) :
    ofBigEndian ((toBigEndian count number ++ rest).take count) = number := by
  have length := length_toBigEndian count number
  rw [List.take_append_of_le_length (Nat.le_of_eq length.symm),
    List.take_of_length_le (Nat.le_of_eq length)]
  exact ofBigEndian_toBigEndian count number fits

theorem ofBigEndian_take_lt (bytes : List UInt8) (count : Nat) :
    ofBigEndian (bytes.take count) < 256 ^ count :=
  Nat.lt_of_lt_of_le (ofBigEndian_lt _)
    (Nat.pow_le_pow_right (by decide) (List.length_take_le count bytes))

theorem ChannelAssignment.code_lt (assignment : ChannelAssignment) : assignment.code < 16 := by
  cases assignment <;> decide

namespace FrameHeader

/-! ## Block size -/

/-- A block size with a code of its own is read from that code alone. -/
theorem readBlockSize_of_blockSizeCode {size code : Nat} (coded : blockSizeCode size = some code)
    (tail : List UInt8) : code < 16 ∧ readBlockSize code tail = .ok (size, 0) := by
  unfold blockSizeCode at coded
  split at coded
  all_goals simp only [Option.some.injEq, reduceCtorEq] at coded
  all_goals
    subst coded
    exact ⟨by decide, rfl⟩

/-- What `encodeBlockSize` wrote for a block size is read back by `readBlockSize`. -/
theorem readBlockSize_of_encodeBlockSize {size code : Nat} {tail : List UInt8}
    (coded : encodeBlockSize size = some (code, tail)) (rest : List UInt8) :
    code < 16 ∧ readBlockSize code (tail ++ rest) = .ok (size, tail.length) := by
  unfold encodeBlockSize at coded
  split at coded
  · rename_i own
    obtain ⟨rfl, rfl⟩ := Prod.mk.inj (Option.some.inj coded)
    exact readBlockSize_of_blockSizeCode own rest
  · split at coded
    · obtain ⟨rfl, rfl⟩ := Prod.mk.inj (Option.some.inj coded)
      refine ⟨by decide, ?_⟩
      simp only [readBlockSize]
      rw [ofBigEndian_take (by omega), length_toBigEndian, Nat.sub_add_cancel (by omega)]
    · split at coded
      · obtain ⟨rfl, rfl⟩ := Prod.mk.inj (Option.some.inj coded)
        refine ⟨by decide, ?_⟩
        simp only [readBlockSize]
        rw [ofBigEndian_take (by omega), length_toBigEndian, Nat.sub_add_cancel (by omega)]
      · cases coded

/-- A block size up to 65536 takes two further bytes at most, and one up to 256. -/
theorem encodeBlockSize_of_le (size : Nat) (positive : 1 ≤ size) (atMost : size ≤ 65536) :
    ∃ code tail, encodeBlockSize size = some (code, tail) ∧ tail.length ≤ 2 ∧
      (size ≤ 256 → tail.length ≤ 1) := by
  unfold encodeBlockSize
  split
  · exact ⟨_, _, rfl, by simp, by simp⟩
  · rename_i noCode
    have other : size ≠ 256 := by
      rintro rfl
      cases noCode
    split
    · exact ⟨_, _, rfl, length_toBigEndian_le (by decide) _,
        fun _ => length_toBigEndian_le (by decide) _⟩
    · rw [if_pos (by omega)]
      exact ⟨_, _, rfl, length_toBigEndian_le (by decide) _, by omega⟩

/-- A block size that `readBlockSize` read can be written with no more bytes. -/
theorem encodeBlockSize_of_readBlockSize {size code width : Nat} {tail : List UInt8}
    (four : code < 16) (read : readBlockSize code tail = .ok (size, width)) :
    ∃ shorter bytes, encodeBlockSize size = some (shorter, bytes) ∧ bytes.length ≤ width := by
  have one := ofBigEndian_take_lt tail 1
  have two := ofBigEndian_take_lt tail 2
  unfold readBlockSize at read
  split at read
  · cases read
  · obtain ⟨rfl, rfl⟩ := Prod.mk.inj (Except.ok.inj read)
    exact ⟨_, _, rfl, Nat.le_refl _⟩
  · obtain ⟨rfl, rfl⟩ := Prod.mk.inj (Except.ok.inj read)
    obtain ⟨shorter, bytes, coded, _, short⟩ :=
      encodeBlockSize_of_le (ofBigEndian (tail.take 1) + 1) (by omega) (by omega)
    exact ⟨shorter, bytes, coded, short (by omega)⟩
  · obtain ⟨rfl, rfl⟩ := Prod.mk.inj (Except.ok.inj read)
    obtain ⟨shorter, bytes, coded, short, _⟩ :=
      encodeBlockSize_of_le (ofBigEndian (tail.take 2) + 1) (by omega) (by omega)
    exact ⟨shorter, bytes, coded, short⟩
  · -- the sizes of the other codes all have a code of their own
    have own : ∀ code : Fin 16, code.val ≠ 0 → code.val ≠ 1 → code.val ≠ 6 → code.val ≠ 7 →
        (blockSizeCode (if code.val < 6 then 576 <<< (code.val - 2)
          else 256 <<< (code.val - 8))).isSome = true := by decide
    have known := own ⟨code, four⟩ ‹_› ‹_› ‹_› ‹_›
    have same : size = (if code < 6 then 576 <<< (code - 2) else 256 <<< (code - 8)) ∧
        width = 0 := by
      split at read
      all_goals
        rename_i below
        obtain ⟨rfl, rfl⟩ := Prod.mk.inj (Except.ok.inj read)
      · rw [if_pos below]
        exact ⟨rfl, rfl⟩
      · rw [if_neg below]
        exact ⟨rfl, rfl⟩
    rw [← same.1] at known
    obtain ⟨shorter, isCode⟩ := Option.isSome_iff_exists.mp known
    rw [encodeBlockSize, isCode]
    exact ⟨_, _, rfl, by simp⟩

/-! ## Sample rate -/

/-- A sample rate of the table is read from its place there. -/
theorem readSampleRate_of_coded {rate index : Nat}
    (coded : codedSampleRates.idxOf? rate = some index) (streamRate : Nat) (tail : List UInt8) :
    index < 11 ∧ readSampleRate (index + 1) streamRate tail = .ok (rate, 0) := by
  obtain ⟨below, isRate, _⟩ := List.findIdx?_eq_some_iff_getElem.mp coded
  have bound : index < 11 := below
  have found : codedSampleRates[index]? = some rate := by
    rw [List.getElem?_eq_getElem below]
    simpa using isRate
  refine ⟨bound, ?_⟩
  unfold readSampleRate
  split
  · omega
  · omega
  · omega
  · omega
  · rename_i same
    rw [← Nat.succ.inj same, found]

/-- What `encodeSampleRate` wrote for a sample rate is read back by `readSampleRate`. -/
theorem readSampleRate_of_encodeSampleRate {rate streamRate code : Nat} {tail : List UInt8}
    (coded : encodeSampleRate rate streamRate = some (code, tail)) (rest : List UInt8) :
    code < 15 ∧ readSampleRate code streamRate (tail ++ rest) = .ok (rate, tail.length) := by
  unfold encodeSampleRate at coded
  split at coded
  · rename_i own
    obtain ⟨rfl, rfl⟩ := Prod.mk.inj (Option.some.inj coded)
    rcases readSampleRate_of_coded own streamRate rest with ⟨bound, read⟩
    exact ⟨by omega, read⟩
  · split at coded
    · rename_i deferred
      obtain ⟨rfl, rfl⟩ := Prod.mk.inj (Option.some.inj coded)
      rw [deferred]
      exact ⟨by decide, rfl⟩
    · split at coded
      · rename_i thousands
        obtain ⟨rfl, rfl⟩ := Prod.mk.inj (Option.some.inj coded)
        refine ⟨by decide, ?_⟩
        simp only [readSampleRate]
        rw [ofBigEndian_take (by omega), length_toBigEndian,
          Nat.div_mul_cancel (Nat.dvd_of_mod_eq_zero thousands.1)]
      · split at coded
        · obtain ⟨rfl, rfl⟩ := Prod.mk.inj (Option.some.inj coded)
          refine ⟨by decide, ?_⟩
          simp only [readSampleRate]
          rw [ofBigEndian_take (by omega), length_toBigEndian]
        · split at coded
          · rename_i tens
            obtain ⟨rfl, rfl⟩ := Prod.mk.inj (Option.some.inj coded)
            refine ⟨by decide, ?_⟩
            simp only [readSampleRate]
            rw [ofBigEndian_take (by omega), length_toBigEndian,
              Nat.div_mul_cancel (Nat.dvd_of_mod_eq_zero tens.1)]
          · cases coded

/-- A sample rate of the table, or of the stream, takes no further bytes. -/
theorem encodeSampleRate_of_known {rate streamRate : Nat}
    (known : rate ∈ codedSampleRates ∨ rate = streamRate) :
    ∃ code, encodeSampleRate rate streamRate = some (code, []) := by
  unfold encodeSampleRate
  split
  · exact ⟨_, rfl⟩
  · rename_i other
    rcases known with coded | deferred
    · exact absurd coded (List.idxOf?_eq_none_iff.mp other)
    · rw [if_pos deferred]
      exact ⟨_, rfl⟩

/-- A sample rate that `readSampleRate` read can be written with no more bytes. -/
theorem encodeSampleRate_of_readSampleRate {rate streamRate code width : Nat} {tail : List UInt8}
    (read : readSampleRate code streamRate tail = .ok (rate, width)) :
    ∃ shorter bytes, encodeSampleRate rate streamRate = some (shorter, bytes) ∧
      bytes.length ≤ width := by
  have one := ofBigEndian_take_lt tail 1
  have two := ofBigEndian_take_lt tail 2
  by_cases known : rate ∈ codedSampleRates ∨ rate = streamRate
  · obtain ⟨shorter, coded⟩ := encodeSampleRate_of_known known
    exact ⟨shorter, [], coded, Nat.zero_le _⟩
  · -- neither the table nor the stream has the rate, so that it came with further bytes
    have noCode : codedSampleRates.idxOf? rate = none :=
      List.idxOf?_eq_none_iff.mpr fun coded => known (.inl coded)
    simp only [encodeSampleRate, noCode]
    rw [if_neg fun deferred => known (.inr deferred)]
    unfold readSampleRate at read
    split at read
    · obtain ⟨rfl, _⟩ := Prod.mk.inj (Except.ok.inj read)
      exact absurd (.inr rfl) known
    · obtain ⟨rfl, rfl⟩ := Prod.mk.inj (Except.ok.inj read)
      rw [if_pos (by omega)]
      exact ⟨_, _, rfl, length_toBigEndian_le (by decide) _⟩
    · obtain ⟨rfl, rfl⟩ := Prod.mk.inj (Except.ok.inj read)
      split
      · exact ⟨_, _, rfl, length_toBigEndian_le (by decide) _⟩
      · rw [if_pos (by omega)]
        exact ⟨_, _, rfl, length_toBigEndian_le (by decide) _⟩
    · obtain ⟨rfl, rfl⟩ := Prod.mk.inj (Except.ok.inj read)
      split
      · exact ⟨_, _, rfl, length_toBigEndian_le (by decide) _⟩
      · split
        · exact ⟨_, _, rfl, length_toBigEndian_le (by decide) _⟩
        · rw [if_pos (by omega)]
          exact ⟨_, _, rfl, length_toBigEndian_le (by decide) _⟩
    · split at read
      · rename_i found
        obtain ⟨rfl, _⟩ := Prod.mk.inj (Except.ok.inj read)
        exact absurd (.inl (List.mem_of_getElem? found)) known
      · cases read

/-! ## Bit depth -/

theorem codedBitDepth_eq_some {code depth : Nat} :
    codedBitDepth code = some depth ↔ bitDepthCode depth = some code := by
  unfold codedBitDepth bitDepthCode
  constructor
  · intro known
    split at known <;> simp_all <;> subst known <;> rfl
  · intro known
    split at known <;> simp_all <;> subst known <;> rfl

/-- What was written for a bit depth is read back. -/
theorem readBitDepth_of_encodeBitDepth {depth streamDepth code : Nat}
    (coded : encodeBitDepth depth streamDepth = some code) :
    code < 8 ∧ readBitDepth code streamDepth = .ok depth := by
  unfold encodeBitDepth at coded
  split at coded
  · rename_i own
    obtain rfl := Option.some.inj coded
    have known := codedBitDepth_eq_some.mpr own
    constructor
    · unfold bitDepthCode at own
      split at own <;> simp_all <;> omega
    · unfold readBitDepth
      split
      · cases known
      · rw [known]
  · split at coded
    · rename_i deferred
      obtain rfl := Option.some.inj coded
      rw [deferred]
      exact ⟨by decide, rfl⟩
    · cases coded

/-- A bit depth that was read can be written. -/
theorem encodeBitDepth_of_readBitDepth {depth streamDepth code : Nat}
    (read : readBitDepth code streamDepth = .ok depth) :
    ∃ shorter, encodeBitDepth depth streamDepth = some shorter := by
  unfold readBitDepth at read
  unfold encodeBitDepth
  split
  · exact ⟨_, rfl⟩
  · rename_i noCode
    split at read
    · obtain rfl := Except.ok.inj read
      exact ⟨0, if_pos rfl⟩
    · split at read
      · rename_i known
        obtain rfl := Except.ok.inj read
        rw [codedBitDepth_eq_some.mp known] at noCode
        cases noCode
      · cases read

end FrameHeader

end FieldRecording
