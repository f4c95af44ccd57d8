import BlockFlow.Json.Record
import BlockFlow.Side

/-!
# Sides in JSON

A side is its name, or an object with the name as its only member and `null` as the value.
-/

set_option autoImplicit false

namespace BlockFlow.Side

/-- Reads a side. -/
def ofJson? : Json → Option Side
  | .string s => s.decode?.bind ofName?
  | .object [(key, .null)] => key.decode?.bind ofName?
  | _ => none

/-- Writes a side. -/
def toJson (s : Side) : Json := .string (.plain s.name)

end BlockFlow.Side
