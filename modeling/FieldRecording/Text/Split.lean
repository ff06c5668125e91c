/-!
# Cutting texts at a character

`splitAtEach` cuts at every place where the character stands, `splitAtFirst` at the first one, and
`spacedWords` leaves empty pieces out. `joinWith` puts the pieces together again.
-/

namespace FieldRecording

/-- The pieces of a text between occurrences of `separator`; at least one, perhaps
empty. -/
def splitAtEach (separator : Char) : List Char → List (List Char)
  | [] => [[]]
  | c :: text =>
    if c = separator then [] :: splitAtEach separator text
    else
      match splitAtEach separator text with
      | piece :: pieces => (c :: piece) :: pieces
      | [] => [[c]]

/-- The pieces of a text between spaces that are not empty. -/
def spacedWords (text : List Char) : List (List Char) :=
  (splitAtEach ' ' text).filter fun word => !word.isEmpty

/-- The text before the first `separator`, and the text behind it; nothing is behind
it if it does not occur. -/
def splitAtFirst (separator : Char) : List Char → List Char × List Char
  | [] => ([], [])
  | c :: text =>
    if c = separator then ([], text)
    else
      let (before, after) := splitAtFirst separator text
      (c :: before, after)

/-- Pieces with `separator` between them. -/
def joinWith (separator : Char) : List (List Char) → List Char
  | [] => []
  | [piece] => piece
  | piece :: pieces => piece ++ separator :: joinWith separator pieces

/-- Whether `part` occurs in a text. -/
def occursIn (part : List Char) : List Char → Bool
  | [] => part.isEmpty
  | c :: text => part.isPrefixOf (c :: text) || occursIn part text

/-- Texts with `separator` between them. -/
def joinTexts (separator : Char) (texts : List String) : String :=
  String.ofList (joinWith separator (texts.map String.toList))

end FieldRecording
