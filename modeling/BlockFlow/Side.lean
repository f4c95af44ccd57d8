/-!
# The two parties of a FIFO

A FIFO has one writer and one reader. Every error and every signal that concerns one of them
names it by a `Side`.
-/

set_option autoImplicit false

namespace BlockFlow

/-- The two parties of a FIFO with one producer and one consumer. -/
inductive Side where
  | reader
  | writer
  deriving DecidableEq, Repr

namespace Side

/-- The side in running text and in settings. -/
def name : Side → String
  | reader => "reader"
  | writer => "writer"

/-- The side inside a written record. -/
def label : Side → String
  | reader => "Reader"
  | writer => "Writer"

/-- The party at the other end. -/
def other : Side → Side
  | reader => writer
  | writer => reader

/-- The side with a given name. -/
def ofName? (s : String) : Option Side :=
  if s = "reader" then some reader else if s = "writer" then some writer else none

end Side

end BlockFlow
