import BlockFlow.Text.Unprintable

/-!
# Quoted text and written records

How a value is spelled out for a reader: text between double quotes with escapes, and records
as `Name { field: value, .. }`.
-/

set_option autoImplicit false

namespace BlockFlow.Text

/-- The number in lower-case hexadecimal digits. -/
def hexDigits (n : Nat) : String :=
  String.ofList (Nat.toDigits 16 n)

/-- One character of quoted text. The quote, the backslash and four controls have a short
escape; any other unprintable character is given by its code point. -/
def quoteChar (c : Char) : String :=
  match c with
  | '\x00' => "\\0"
  | '\t' => "\\t"
  | '\n' => "\\n"
  | '\r' => "\\r"
  | '"' => "\\\""
  | '\\' => "\\\\"
  | c => if isUnprintable c then "\\u\x7b" ++ hexDigits c.toNat ++ "\x7d" else c.toString

/-- The text between double quotes. -/
def quote (s : String) : String :=
  "\"" ++ String.join (s.toList.map quoteChar) ++ "\""

/-- Fields separated by commas. -/
def commaSeparated (items : List String) : String :=
  ", ".intercalate items

/-- `Name { field: value, field: value }`. -/
def record (name : String) (fields : List (String × String)) : String :=
  name ++ " \x7b " ++ commaSeparated (fields.map fun f => f.1 ++ ": " ++ f.2) ++ " \x7d"

/-- A record of which some fields are left out: `Name { field: value, .. }`. -/
def openRecord (name : String) (fields : List (String × String)) : String :=
  name ++ " \x7b " ++ commaSeparated (fields.map (fun f => f.1 ++ ": " ++ f.2) ++ [".."]) ++ " \x7d"

/-- A record whose fields have no names: `Name(value)`. -/
def wrapped (name : String) (content : String) : String :=
  name ++ "(" ++ content ++ ")"

/-- `Some(value)` or `None`. -/
def optional {α : Type} (render : α → String) : Option α → String
  | none => "None"
  | some a => wrapped "Some" (render a)

end BlockFlow.Text
