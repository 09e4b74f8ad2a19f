import DeviceColumns.Text.Hex
import DeviceColumns.Text.Unprintable

/-!
Quoted text, as descriptions of values show names: double quotes around the characters, a backslash
before a quote or a backslash, short escapes for the common controls, and the code point in braces
for anything that would not be visible.
-/

namespace DeviceColumns.Text

set_option autoImplicit false

def quotedChar (char : Char) : String :=
  if char = '\x00' then "\\0"
  else if char = '\t' then "\\t"
  else if char = '\n' then "\\n"
  else if char = '\r' then "\\r"
  else if char = '"' then "\\\""
  else if char = '\\' then "\\\\"
  else if isUnprintable char.toNat then "\\u\x7b" ++ hex char.toNat ++ "\x7d"
  else char.toString

/-- The text between double quotes, every character escaped as `quotedChar` says. -/
def quoted (text : String) : String :=
  "\"" ++ String.join (text.toList.map quotedChar) ++ "\""

def bracketed (items : List String) : String :=
  "[" ++ ", ".intercalate items ++ "]"

def record (name : String) (fields : List (String × String)) : String :=
  name ++ " \x7b " ++ ", ".intercalate (fields.map fun field => field.1 ++ ": " ++ field.2) ++
    " \x7d"

/-- An optional item: `None`, or the item inside `Some`. -/
def optional : Option String → String
  | none => "None"
  | some item => "Some(" ++ item ++ ")"

end DeviceColumns.Text
