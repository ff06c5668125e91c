/-!
# Numbers in byte strings

`ofBigEndian` and `ofLittleEndian` read a number whose most significant byte comes first or last.
`toBigEndian` and `toLittleEndian` write it into a given number of bytes, modulo what these can
hold, so that both directions are total.
-/

namespace FieldRecording

/-- The number whose base-256 digits are `bytes`, most significant first. -/
def ofBigEndian (bytes : List UInt8) : Nat :=
  bytes.foldl (fun number byte => number * 256 + byte.toNat) 0

/-- The number whose base-256 digits are `bytes`, least significant first. -/
def ofLittleEndian : List UInt8 → Nat
  | [] => 0
  | byte :: bytes => byte.toNat + 256 * ofLittleEndian bytes

/-- The low `count` base-256 digits of `number`, least significant first. -/
def toLittleEndian : (count number : Nat) → List UInt8
  | 0, _ => []
  | count + 1, number => UInt8.ofNat number :: toLittleEndian count (number / 256)

/-- The low `count` base-256 digits of `number`, most significant first. -/
def toBigEndian (count number : Nat) : List UInt8 :=
  (toLittleEndian count number).reverse

theorem length_toLittleEndian (count number : Nat) :
    (toLittleEndian count number).length = count := by
  induction count generalizing number with
  | zero => rfl
  | succ count ih => simp [toLittleEndian, ih]

theorem length_toBigEndian (count number : Nat) :
    (toBigEndian count number).length = count := by
  simp [toBigEndian, length_toLittleEndian]

end FieldRecording
