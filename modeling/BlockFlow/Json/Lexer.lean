import BlockFlow.Json.Value

/-!
# Tokens of a JSON text

Only the space, the tab, the line feed and the carriage return separate tokens. A string ends at
its first unescaped quote and holds no control character; its escapes have to be well formed, but
need not stand for characters.
-/

set_option autoImplicit false

namespace BlockFlow.Json

/-- A token. -/
inductive Token where
  | openBrace
  | closeBrace
  | openBracket
  | closeBracket
  | colon
  | comma
  | null
  | bool (b : Bool)
  | number (n : Numeral)
  | string (s : Literal)
  deriving DecidableEq, Repr

namespace Token

/-- Whether the character separates tokens. -/
def isBlank (c : Char) : Bool := c == ' ' || c == '\t' || c == '\n' || c == '\r'

/-- The token that a single character makes. -/
def ofPunctuation? : Char → Option Token
  | '\x7b' => some openBrace
  | '\x7d' => some closeBrace
  | '[' => some openBracket
  | ']' => some closeBracket
  | ':' => some colon
  | ',' => some comma
  | _ => none

/-- Whether the character is a hexadecimal digit. -/
def isHex (c : Char) : Bool := (Literal.hexValue? c).isSome

/-- The characters of a string up to its closing quote, and what follows the quote. -/
def stringBody : List Char → Option (List Char × List Char)
  | [] => none
  | '"' :: rest => some ([], rest)
  | '\\' :: 'u' :: a :: b :: c :: d :: rest =>
    if isHex a && isHex b && isHex c && isHex d then
      (stringBody rest).map fun r => ('\\' :: 'u' :: a :: b :: c :: d :: r.1, r.2)
    else
      none
  | '\\' :: c :: rest =>
    if (Literal.escape? c).isSome then
      (stringBody rest).map fun r => ('\\' :: c :: r.1, r.2)
    else
      none
  | c :: rest =>
    if c == '\\' || c.toNat < 0x20 then none
    else (stringBody rest).map fun r => (c :: r.1, r.2)

/-- The longest run of digits in front, and what follows. -/
def digits (cs : List Char) : List Nat × List Char :=
  ((cs.takeWhile Char.isDigit).map Numeral.digitValue, cs.dropWhile Char.isDigit)

/-- The digits before the point: a zero alone, or any that start with another digit. -/
def wholePart? (cs : List Char) : Option (List Nat × List Char) :=
  match cs with
  | '0' :: rest => some ([0], rest)
  | _ => match digits cs with
    | ([], _) => none
    | found => some found

/-- The fraction, if a point follows. It has at least one digit. -/
def fractionPart? (cs : List Char) : Option (Option (List Nat) × List Char) :=
  match cs with
  | '.' :: rest => match digits rest with
    | ([], _) => none
    | (ds, rest) => some (some ds, rest)
  | _ => some (none, cs)

/-- The sign of an exponent; true stands for minus. -/
def exponentSign : List Char → Bool × List Char
  | '+' :: rest => (false, rest)
  | '-' :: rest => (true, rest)
  | rest => (false, rest)

/-- The exponent, if its mark follows. It has at least one digit. -/
def exponentPart? (cs : List Char) : Option (Option (Bool × List Nat) × List Char) :=
  match cs with
  | c :: rest =>
    if c == 'e' || c == 'E' then
      match digits (exponentSign rest).2 with
      | ([], _) => none
      | (ds, rest') => some (some ((exponentSign rest).1, ds), rest')
    else
      some (none, cs)
  | [] => some (none, [])

/-- The sign of a number; true stands for minus. -/
def numberSign : List Char → Bool × List Char
  | '-' :: rest => (true, rest)
  | rest => (false, rest)

/-- The number in front, and what follows. -/
def numeral? (cs : List Char) : Option (Numeral × List Char) := do
  let (negative, cs) := numberSign cs
  let (whole, cs) ← wholePart? cs
  let (fraction, cs) ← fractionPart? cs
  let (exponent, cs) ← exponentPart? cs
  return ({ negative, whole, fraction, exponent }, cs)

/-- What follows `word`, if the text starts with it. -/
def keyword? (word cs : List Char) : Option (List Char) :=
  if word.isPrefixOf cs then some (cs.drop word.length) else none

/-- The token in front of a text that starts with no blank, and what follows. -/
def next? (cs : List Char) : Option (Token × List Char) :=
  match cs with
  | [] => none
  | c :: rest =>
    match ofPunctuation? c with
    | some t => some (t, rest)
    | none =>
      match c with
      | '"' => (stringBody rest).map fun r => (string ⟨r.1⟩, r.2)
      | 'n' => (keyword? ['n', 'u', 'l', 'l'] cs).map fun r => (null, r)
      | 't' => (keyword? ['t', 'r', 'u', 'e'] cs).map fun r => (bool true, r)
      | 'f' => (keyword? ['f', 'a', 'l', 's', 'e'] cs).map fun r => (bool false, r)
      | _ => (numeral? cs).map fun r => (number r.1, r.2)

/-- The tokens of a text of at most `fuel` characters. -/
def scanFor : Nat → List Char → Option (List Token)
  | _, [] => some []
  | 0, _ :: _ => none
  | fuel + 1, c :: rest =>
    if isBlank c then
      scanFor fuel rest
    else
      match next? (c :: rest) with
      | none => none
      | some (t, rest') => (scanFor fuel rest').map (t :: ·)

/-- The tokens of a text. Every token has at least one character, so that there are no more
tokens than characters. -/
def scan (cs : List Char) : Option (List Token) := scanFor cs.length cs

end Token

end BlockFlow.Json
