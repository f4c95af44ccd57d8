import BlockFlow.Decimal.Numeral

/-!
# JSON values as they are written

A value keeps its numbers and strings as they stand in the text, so that nothing is lost or
rejected before it is known whether anybody wants it. `Numeral` and `Json.Literal` say how they
are read.
-/

set_option autoImplicit false

namespace BlockFlow.Json

/-- A string as it is written: the characters between the quotes, escapes included. -/
structure Literal where
  raw : List Char
  deriving DecidableEq, Repr

namespace Literal

/-- The value of a hexadecimal digit. -/
def hexValue? (c : Char) : Option Nat :=
  if '0' ≤ c ∧ c ≤ '9' then some (c.toNat - '0'.toNat)
  else if 'a' ≤ c ∧ c ≤ 'f' then some (c.toNat - 'a'.toNat + 10)
  else if 'A' ≤ c ∧ c ≤ 'F' then some (c.toNat - 'A'.toNat + 10)
  else none

/-- The 16-bit unit that four hexadecimal digits stand for. -/
def unit? (a b c d : Char) : Option Nat := do
  let a ← hexValue? a
  let b ← hexValue? b
  let c ← hexValue? c
  let d ← hexValue? d
  return ((a * 16 + b) * 16 + c) * 16 + d

/-- The character that a one-letter escape stands for. -/
def escape? : Char → Option Char
  | '"' => some '"'
  | '\\' => some '\\'
  | '/' => some '/'
  | 'b' => some '\x08'
  | 'f' => some '\x0c'
  | 'n' => some '\n'
  | 'r' => some '\r'
  | 't' => some '\t'
  | _ => none

/-- The units that start and end a pair for one character beyond the first plane. -/
def isHighUnit (u : Nat) : Bool := 0xD800 ≤ u && u ≤ 0xDBFF

@[inherit_doc isHighUnit]
def isLowUnit (u : Nat) : Bool := 0xDC00 ≤ u && u ≤ 0xDFFF

/-- Resolves the escapes. Half a pair of units is no character and has no reading. -/
def decodeChars : List Char → Option (List Char)
  | [] => some []
  | '\\' :: 'u' :: a :: b :: c :: d :: '\\' :: 'u' :: e :: f :: g :: h :: rest => do
    let u ← unit? a b c d
    if isHighUnit u then
      let v ← unit? e f g h
      if isLowUnit v then
        return Char.ofNat (0x10000 + (u - 0xD800) * 0x400 + (v - 0xDC00)) :: (← decodeChars rest)
      else
        none
    else if isLowUnit u then
      none
    else
      return Char.ofNat u :: (← decodeChars ('\\' :: 'u' :: e :: f :: g :: h :: rest))
  | '\\' :: 'u' :: a :: b :: c :: d :: rest => do
    let u ← unit? a b c d
    if isHighUnit u || isLowUnit u then none else return Char.ofNat u :: (← decodeChars rest)
  | '\\' :: c :: rest => do
    let e ← escape? c
    return e :: (← decodeChars rest)
  | c :: rest => return c :: (← decodeChars rest)

/-- The text that the literal stands for. -/
def decode? (l : Literal) : Option String :=
  (decodeChars l.raw).map String.ofList

/-- A literal for a text without quotes, backslashes and controls. -/
def plain (s : String) : Literal := ⟨s.toList⟩

end Literal

end BlockFlow.Json

namespace BlockFlow

/-- A JSON value. The members of an object keep their order, and a name may occur twice. -/
inductive Json where
  | null
  | bool (b : Bool)
  | number (n : Numeral)
  | string (s : Json.Literal)
  | array (items : List Json)
  | object (members : List (Json.Literal × Json))

namespace Json

/-- A natural number. -/
def ofNat (n : Nat) : Json := number (.ofNat n)

/-- An object whose names need no escapes. -/
def record (members : List (String × Json)) : Json :=
  object (members.map fun m => (.plain m.1, m.2))

end Json

end BlockFlow
