import BlockFlow.Json.Value

/-!
# Writing a JSON value

`Json.compact` writes a value without blanks, `Json.pretty` with one member or item a line and
two spaces for each level.
-/

set_option autoImplicit false

namespace BlockFlow.Json

/-- The characters of a string. -/
def Literal.chars (l : Literal) : List Char := '"' :: l.raw ++ ['"']

mutual

/-- The characters of a value without blanks. -/
def compactChars : Json → List Char
  | .null => ['n', 'u', 'l', 'l']
  | .bool true => ['t', 'r', 'u', 'e']
  | .bool false => ['f', 'a', 'l', 's', 'e']
  | .number n => n.chars
  | .string s => s.chars
  | .array items => '[' :: compactItems items ++ [']']
  | .object members => '\x7b' :: compactMembers members ++ ['\x7d']

/-- The items of an array, separated by commas. -/
def compactItems : List Json → List Char
  | [] => []
  | [v] => compactChars v
  | v :: w :: rest => compactChars v ++ ',' :: compactItems (w :: rest)

/-- The members of an object, separated by commas. -/
def compactMembers : List (Literal × Json) → List Char
  | [] => []
  | [(k, v)] => k.chars ++ ':' :: compactChars v
  | (k, v) :: m :: rest => k.chars ++ ':' :: compactChars v ++ ',' :: compactMembers (m :: rest)

end

/-- The text of a value without blanks. -/
def compact (v : Json) : String := String.ofList (compactChars v)

/-- A new line at a level. -/
def newLine (level : Nat) : List Char := '\n' :: List.replicate (2 * level) ' '

mutual

/-- The characters of a value that stands at a level. -/
def prettyChars (level : Nat) : Json → List Char
  | .null => ['n', 'u', 'l', 'l']
  | .bool true => ['t', 'r', 'u', 'e']
  | .bool false => ['f', 'a', 'l', 's', 'e']
  | .number n => n.chars
  | .string s => s.chars
  | .array [] => ['[', ']']
  | .array (v :: rest) => '[' :: prettyItems (level + 1) (v :: rest) ++ newLine level ++ [']']
  | .object [] => ['\x7b', '\x7d']
  | .object (m :: rest) =>
    '\x7b' :: prettyMembers (level + 1) (m :: rest) ++ newLine level ++ ['\x7d']

/-- The items of an array, each on a line of its own. -/
def prettyItems (level : Nat) : List Json → List Char
  | [] => []
  | [v] => newLine level ++ prettyChars level v
  | v :: w :: rest => newLine level ++ prettyChars level v ++ ',' :: prettyItems level (w :: rest)

/-- The members of an object, each on a line of its own. -/
def prettyMembers (level : Nat) : List (Literal × Json) → List Char
  | [] => []
  | [(k, v)] => newLine level ++ k.chars ++ ':' :: ' ' :: prettyChars level v
  | (k, v) :: m :: rest =>
    newLine level ++ k.chars ++ ':' :: ' ' :: prettyChars level v ++
      ',' :: prettyMembers level (m :: rest)

end

/-- The text of a value, one member or item a line. -/
def pretty (v : Json) : String := String.ofList (prettyChars 0 v)

end BlockFlow.Json
