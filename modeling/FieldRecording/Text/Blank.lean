/-!
# White space

`isBlank` is the Unicode property `White_Space`. `trim` takes such characters off both ends of a
text, `skipBlanks` and `trimEnd` off one.
-/

namespace FieldRecording

/-- Whether a character is white space. -/
def isBlank (c : Char) : Bool :=
  let n := c.toNat
  (9 ≤ n && n ≤ 13) || n == 0x20 || n == 0x85 || n == 0xA0 || n == 0x1680 ||
    (0x2000 ≤ n && n ≤ 0x200A) || n == 0x2028 || n == 0x2029 || n == 0x202F ||
    n == 0x205F || n == 0x3000

/-- A text without the white space at its start. -/
def skipBlanks (text : List Char) : List Char := text.dropWhile isBlank

/-- A text without the white space at its end. -/
def trimEnd (text : List Char) : List Char := (skipBlanks text.reverse).reverse

/-- A text without the white space at either end. -/
def trim (text : List Char) : List Char := trimEnd (skipBlanks text)

end FieldRecording
