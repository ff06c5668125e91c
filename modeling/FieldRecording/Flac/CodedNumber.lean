import FieldRecording.Text.Radix

/-!
# The coding of frame and sample numbers

The first byte opens with as many one bits as the coding has bytes (none for a single byte); each
further byte carries six bits behind the marker `10`. Numbers below `2^31` have a coding;
`CodedNumber.encode` writes the shortest, and `CodedNumber.decode` reads longer ones as well.

| first byte  | bytes | value bits |
|-------------|-------|------------|
| `0xxxxxxx`  | 1     | 7  |
| `110xxxxx`  | 2     | 11 |
| `1110xxxx`  | 3     | 16 |
| `11110xxx`  | 4     | 21 |
| `111110xx`  | 5     | 26 |
| `1111110x`  | 6     | 31 |

`CodedNumber.lead` is the table. Decoding says how many bytes it took, at least one and at most
six (`length_decode`).
-/

namespace FieldRecording.CodedNumber

/-- Why bytes do not open with a coded number, for `decode`. -/
inductive Error where
  /-- There is no byte to read. -/
  | empty
  /-- No coding starts with this byte. -/
  | unsupportedPrefix (first : UInt8)
  /-- The first byte announces more bytes than there are. -/
  | notEnoughBytes (required available : Nat)
  /-- The byte at this index does not carry the marker. -/
  | badContinuation (index : Nat)
  deriving Repr, DecidableEq

/-- What is reported for bytes that do not open with a coded number. -/
def Error.message : Error → String
  | .empty => "varint decode needs at least one byte"
  | .unsupportedPrefix first => "unsupported prefix byte 0x" ++ upperHexPair first
  | .notEnoughBytes required available =>
    s!"not enough bytes: prefix requires {required}, {available} available"
  | .badContinuation index => s!"continuation byte {index} lacks the 10 marker bits"

/-- The value bits of a first byte, and how many bytes follow it: the markers of the table, the
shorter ones first. -/
def lead (first : UInt8) : Option (Nat × Nat) :=
  if first < 0x80 then some (first.toNat, 0)
  else if first < 0xC0 then none
  else if first < 0xE0 then some (first.toNat - 0xC0, 1)
  else if first < 0xF0 then some (first.toNat - 0xE0, 2)
  else if first < 0xF8 then some (first.toNat - 0xF0, 3)
  else if first < 0xFC then some (first.toNat - 0xF8, 4)
  else if first < 0xFE then some (first.toNat - 0xFC, 5)
  else none

/-- Whether a byte carries the marker of a continuation, which are the bits 1 and 0 at its top. -/
def isContinuation (byte : UInt8) : Bool := byte &&& 0xC0 == 0x80

/-- Append the six bits of each of `left` continuation bytes to `value`. The
first of `bytes` has position `index` in the coding. -/
def continueFrom (value index : Nat) : (left : Nat) → (bytes : List UInt8) → Except Error Nat
  | 0, _ => .ok value
  | _ + 1, [] => .error (.badContinuation index)
  | left + 1, byte :: bytes =>
    if isContinuation byte then
      continueFrom (value * 64 + byte.toNat % 64) (index + 1) left bytes
    else
      .error (.badContinuation index)

/-- The number that `bytes` open with, and how many bytes its coding takes. -/
def decode : List UInt8 → Except Error (Nat × Nat)
  | [] => .error .empty
  | first :: bytes =>
    match lead first with
    | none => .error (.unsupportedPrefix first)
    | some (value, left) =>
      if bytes.length < left then
        .error (.notEnoughBytes (left + 1) (bytes.length + 1))
      else
        (continueFrom value 1 left bytes).map fun number => (number, left + 1)

/-- The continuation bytes that carry the low `6 * left` bits of `value`. -/
def continuation (value : Nat) : (left : Nat) → List UInt8
  | 0 => []
  | left + 1 => UInt8.ofNat (0x80 + (value >>> (6 * left)) % 64) :: continuation value left

/-- The coding of `value` with the marker `mark` and `left` continuation bytes. -/
def encodeWith (mark left value : Nat) : List UInt8 :=
  UInt8.ofNat (mark + value >>> (6 * left)) :: continuation value left

/-- The shortest coding of `value`, if it has one. -/
def encode (value : Nat) : Option (List UInt8) :=
  if value < 0x80 then some (encodeWith 0x00 0 value)
  else if value < 0x800 then some (encodeWith 0xC0 1 value)
  else if value < 0x10000 then some (encodeWith 0xE0 2 value)
  else if value < 0x200000 then some (encodeWith 0xF0 3 value)
  else if value < 0x4000000 then some (encodeWith 0xF8 4 value)
  else if value < 0x80000000 then some (encodeWith 0xFC 5 value)
  else none

/-! ## How long a coding is -/

theorem left_le_of_lead {first : UInt8} {value left : Nat}
    (prefixed : lead first = some (value, left)) : left ≤ 5 := by
  unfold lead at prefixed
  repeat' split at prefixed
  all_goals simp only [Option.some.injEq, Prod.mk.injEq, reduceCtorEq] at prefixed
  all_goals omega

/-- A coding that `decode` reads takes one to six bytes. -/
theorem length_decode {bytes : List UInt8} {value length : Nat}
    (decoded : decode bytes = .ok (value, length)) : 0 < length ∧ length ≤ 6 := by
  unfold decode at decoded
  split at decoded
  case h_1 => cases decoded
  case h_2 first bytes =>
    split at decoded
    case h_1 unprefixed => cases decoded
    case h_2 value left prefixed =>
      have few := left_le_of_lead prefixed
      split at decoded
      case isTrue tooFew => cases decoded
      case isFalse enough =>
        cases continued : continueFrom value 1 left bytes with
        | error cause =>
          rw [continued] at decoded
          cases decoded
        | ok number =>
          rw [continued] at decoded
          obtain ⟨_, rfl⟩ := Prod.mk.inj (Except.ok.inj decoded)
          exact ⟨Nat.succ_pos left, Nat.succ_le_succ few⟩

end FieldRecording.CodedNumber
