/-!
# Letters without regard to case

`equalIgnoringCase` compares texts without regard to the case of the letters `A` to `Z`. Other
letters keep their case (`lowerAscii`).
-/

namespace FieldRecording

/-- The lower-case form of a letter `A` to `Z`; any other character itself. -/
def lowerAscii (c : Char) : Char :=
  if 'A' ≤ c ∧ c ≤ 'Z' then Char.ofNat (c.toNat + 32) else c

/-- Whether two texts are equal up to the case of the letters `A` to `Z`. -/
def equalIgnoringCase (left right : String) : Bool :=
  left.toList.map lowerAscii == right.toList.map lowerAscii

end FieldRecording
