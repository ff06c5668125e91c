import FieldRecording.Decimal.Shortest
import FieldRecording.Text.Radix

/-!
# Values in JSON notation

A `Json` value is written on one line (`Json.compact`) or indented by two spaces a level
(`Json.indented`); `Json.Layout` is the difference. The members of an object keep their order.
-/

namespace FieldRecording

/-- A value that can be written in JSON notation. -/
inductive Json where
  | null
  | bool (value : Bool)
  | number (value : Nat)
  | real (value : Binary64)
  | text (value : String)
  | list (items : List Json)
  | object (members : List (String × Json))

namespace Json

/-- A character inside a quoted text. -/
def escape (c : Char) : List Char :=
  if c = '"' then ['\\', '"']
  else if c = '\\' then ['\\', '\\']
  else if c = '\n' then ['\\', 'n']
  else if c = '\r' then ['\\', 'r']
  else if c = '\t' then ['\\', 't']
  else if c.toNat = 0x08 then ['\\', 'b']
  else if c.toNat = 0x0C then ['\\', 'f']
  else if c.toNat < 0x20 then
    ['\\', 'u', '0', '0', lowerHexDigit (c.toNat / 16), lowerHexDigit (c.toNat % 16)]
  else [c]

/-- A quoted text. -/
def quote (text : String) : String :=
  "\"" ++ String.ofList (text.toList.flatMap escape) ++ "\""

/-- How the parts of a value are set. -/
structure Layout where
  /-- What stands before each part at a level. -/
  before : Nat → String
  /-- What stands between the name of a member and its value. -/
  colon : String

/-- All on one line, without spaces. -/
def compactLayout : Layout where
  before _ := ""
  colon := ":"

/-- Each part on a line of its own. -/
def indentedLayout : Layout where
  before level := "\n" ++ String.ofList (List.replicate (2 * level) ' ')
  colon := ": "

/-- Parts in brackets. -/
def enclose (layout : Layout) (level : Nat) (opening closing : String) (parts : List String) :
    String :=
  if parts.isEmpty then opening ++ closing
  else
    opening ++ layout.before (level + 1) ++
      String.intercalate ("," ++ layout.before (level + 1)) parts ++
      layout.before level ++ closing

mutual

/-- A value at a level. -/
def renderAt (layout : Layout) (level : Nat) : Json → String
  | .list items => enclose layout level "[" "]" (renderItems layout (level + 1) items)
  | .object members =>
    enclose layout level "\x7b" "\x7d" (renderMembers layout (level + 1) members)
  | .null => "null"
  | .bool value => if value then "true" else "false"
  | .number value => toString value
  | .real value => value.render versionRange
  | .text value => quote value

/-- The items of a list, at a level. -/
def renderItems (layout : Layout) (level : Nat) : List Json → List String
  | [] => []
  | item :: items => renderAt layout level item :: renderItems layout level items

/-- The members of an object, at a level. -/
def renderMembers (layout : Layout) (level : Nat) : List (String × Json) → List String
  | [] => []
  | (name, value) :: members =>
    (quote name ++ layout.colon ++ renderAt layout level value) ::
      renderMembers layout level members

end

/-- A value on one line. -/
def compact (value : Json) : String := value.renderAt compactLayout 0

/-- A value over several lines. -/
def indented (value : Json) : String := value.renderAt indentedLayout 0

/-- A value that may be missing. -/
def ofOption {α : Type} (render : α → Json) : Option α → Json
  | none => .null
  | some value => render value

end Json

end FieldRecording
