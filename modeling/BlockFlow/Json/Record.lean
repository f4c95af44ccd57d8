import BlockFlow.Decimal.Reading
import BlockFlow.Json.Value

/-!
# Records in JSON

A record is an object with the names of its fields, in any order, or an array of its fields in
the order of their declaration. An object may have other members, which are skipped, but names no
field twice; an array has no more items than there are fields.
-/

set_option autoImplicit false

namespace BlockFlow.Json

/-- The values that members of an object give to a field: those whose name is `name`. -/
def valuesOf (name : String) (members : List (String × Json)) : List Json :=
  (members.filter fun m => m.1 = name).map Prod.snd

/-- The value of a field that is given at most once. -/
def atMostOne : List Json → Option (Option Json)
  | [] => some none
  | [v] => some (some v)
  | _ => none

/-- The members of an object with their names read. -/
def readNames (members : List (Literal × Json)) : Option (List (String × Json)) :=
  members.mapM fun m => m.1.decode?.map fun name => (name, m.2)

/-- The fields of a record by position; a field that is not given is `none`. -/
def fields? (names : List String) : Json → Option (List (Option Json))
  | object members => do
    let named ← readNames members
    names.mapM fun name => atMostOne (valuesOf name named)
  | array items =>
    if items.length ≤ names.length then
      some ((List.range names.length).map fun i => items[i]?)
    else
      none
  | _ => none

/-- A natural number below `bound`. -/
def toNat? (bound : Nat) : Json → Option Nat
  | number n => n.toNat? bound
  | _ => none

/-- A size or a count: a natural number that fits a word. -/
def toSize? (v : Json) : Option Nat := v.toNat? wordBound

/-- A 64-bit counter. -/
def toUInt64? (v : Json) : Option UInt64 := (v.toNat? UInt64.size).map Nat.toUInt64

/-- A 32-bit counter. -/
def toUInt32? (v : Json) : Option UInt32 := (v.toNat? UInt32.size).map Nat.toUInt32

/-- A floating-point number. -/
def toFloat? : Json → Option Float
  | number n => n.toFloat?
  | _ => none

/-- A truth value. -/
def toBool? : Json → Option Bool
  | bool b => some b
  | _ => none

/-- A field that keeps its default if it is not given. -/
def orDefault {α : Type} (read : Json → Option α) (default : α) : Option Json → Option α
  | none => some default
  | some v => read v

/-- A field that has to be given. -/
def required {α : Type} (read : Json → Option α) : Option Json → Option α
  | none => none
  | some v => read v

end BlockFlow.Json
