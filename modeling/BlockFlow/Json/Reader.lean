import BlockFlow.Json.Lexer

/-!
# Reading a JSON value

The reader takes one token after the other and keeps a stack of the arrays and objects that are
open, so that it needs no recursion and values may be nested to any depth.
-/

set_option autoImplicit false

namespace BlockFlow.Json

/-- An open array or object. Items and members that are complete stand in reverse order. -/
inductive Frame where
  | array (done : List Json)
  | object (done : List (Literal × Json)) (key : Literal)

/-- What the reader accepts next. -/
inductive Reader where
  /-- A value. -/
  | value (stack : List Frame)
  /-- The first item of an array, or its end. -/
  | itemOrEnd (stack : List Frame)
  /-- The name of the first member of an object, or its end. -/
  | keyOrEnd (stack : List Frame)
  /-- The name of another member. -/
  | key (done : List (Literal × Json)) (stack : List Frame)
  /-- The colon after a name. -/
  | colon (done : List (Literal × Json)) (key : Literal) (stack : List Frame)
  /-- A comma or the end of an array. -/
  | afterItem (done : List Json) (stack : List Frame)
  /-- A comma or the end of an object. -/
  | afterMember (done : List (Literal × Json)) (stack : List Frame)
  /-- Nothing: the value is complete. -/
  | complete (v : Json)

namespace Reader

/-- The reader after a complete value. -/
def deliver (v : Json) : List Frame → Reader
  | [] => complete v
  | .array done :: stack => afterItem (v :: done) stack
  | .object done k :: stack => afterMember ((k, v) :: done) stack

/-- The start of a value. -/
def startValue (stack : List Frame) : Token → Option Reader
  | .openBrace => some (keyOrEnd stack)
  | .openBracket => some (itemOrEnd stack)
  | .null => some (deliver .null stack)
  | .bool b => some (deliver (.bool b) stack)
  | .number n => some (deliver (.number n) stack)
  | .string s => some (deliver (.string s) stack)
  | _ => none

/-- Takes one token. -/
def take : Reader → Token → Option Reader
  | value stack, t => startValue stack t
  | itemOrEnd stack, .closeBracket => some (deliver (.array []) stack)
  | itemOrEnd stack, t => startValue (.array [] :: stack) t
  | keyOrEnd stack, .closeBrace => some (deliver (.object []) stack)
  | keyOrEnd stack, .string k => some (colon [] k stack)
  | key done stack, .string k => some (colon done k stack)
  | colon done k stack, .colon => some (value (.object done k :: stack))
  | afterItem done stack, .comma => some (value (.array done :: stack))
  | afterItem done stack, .closeBracket => some (deliver (.array done.reverse) stack)
  | afterMember done stack, .comma => some (key done stack)
  | afterMember done stack, .closeBrace => some (deliver (.object done.reverse) stack)
  | _, _ => none

/-- Takes tokens in order. -/
def takeAll (r : Reader) (ts : List Token) : Option Reader := ts.foldlM take r

/-- The value, if it is complete. -/
def result? : Reader → Option Json
  | complete v => some v
  | _ => none

end Reader

/-- The value that a text holds. -/
def parse (text : String) : Option Json := do
  let tokens ← Token.scan text.toList
  let reader ← (Reader.value []).takeAll tokens
  reader.result?

end BlockFlow.Json
