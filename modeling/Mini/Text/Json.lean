import Mini.Text.Hex
import Mini.Text.Numeral

/-!
# JSON documents

The documents that a machine-readable traceback is made of, and their text: one
member or element a line, two spaces deeper for each level, ASCII characters
only.
-/

namespace Mini.Text

/-- A JSON document whose numbers are integers. Members keep their order. -/
inductive Json
  | null
  | boolean (value : Bool)
  | number (value : Int)
  | text (value : String)
  | list (elements : List Json)
  | object (members : List (String × Json))
  deriving Inhabited, BEq, Repr

namespace Json

/-- One sixteen-bit unit as an escape. -/
def unit (n : Nat) : List Char :=
  '\\' :: 'u' :: hex 4 n

/-- One character of a JSON string: an escape for quote, backslash and the usual
controls, a printable ASCII character as it is, and any other by its one or two
sixteen-bit units. -/
def escape (c : Char) : List Char :=
  if c = '\"' ∨ c = '\\' then ['\\', c]
  else if c = '\n' then ['\\', 'n']
  else if c = '\r' then ['\\', 'r']
  else if c = '\t' then ['\\', 't']
  else if c = '\x0c' then ['\\', 'f']
  else if c = '\x08' then ['\\', 'b']
  else if ' ' ≤ c ∧ c ≤ '~' then [c]
  else if c.toNat < 0x10000 then unit c.toNat
  else
    let n := c.toNat - 0x10000
    unit (0xD800 + n / 0x400) ++ unit (0xDC00 + n % 0x400)

/-- A JSON string, quotes included. -/
def stringText (s : String) : String :=
  String.ofList ('\"' :: s.toList.flatMap escape ++ ['\"'])

/-- A line end and the blanks of the given depth. -/
def newLine (depth : Nat) : String :=
  String.ofList ('\n' :: List.replicate (2 * depth) ' ')

/-- The items of a list or object, each on a line of its own, between brackets. -/
def bracket (opening closing : String) (depth : Nat) (items : List String) : String :=
  if items.isEmpty then opening ++ closing
  else
    opening ++ newLine (depth + 1) ++ ("," ++ newLine (depth + 1)).intercalate items ++
      newLine depth ++ closing

mutual

/-- The text of a document that begins at the given depth. -/
def render (depth : Nat) : Json → String
  | .null => "null"
  | .boolean value => if value then "true" else "false"
  | .number value => integerText value
  | .text value => stringText value
  | .list elements => bracket "[" "]" depth (renderElements (depth + 1) elements)
  | .object members => bracket "\x7b" "\x7d" depth (renderMembers (depth + 1) members)

/-- The texts of a list's elements. -/
def renderElements (depth : Nat) : List Json → List String
  | [] => []
  | element :: rest => render depth element :: renderElements depth rest

/-- The texts of an object's members. -/
def renderMembers (depth : Nat) : List (String × Json) → List String
  | [] => []
  | (key, value) :: rest =>
      (stringText key ++ ": " ++ render depth value) :: renderMembers depth rest

end

end Json

end Mini.Text
