import BlockFlow.Error
import BlockFlow.Size

/-!
# Arguments of the soak program

The arguments are pairs of a flag and its value. A value is taken as it stands, also where it
looks like a flag, and of several values for a flag the last counts. A request for help ends the
arguments.
-/

set_option autoImplicit false

namespace BlockFlow.Cli

/-- The flags, each with a value. -/
inductive Flag where
  | config
  | blocks
  | output
  | saveConfig
  deriving DecidableEq, Repr

namespace Flag

/-- Every flag. -/
def all : List Flag := [config, blocks, output, saveConfig]

/-- How the flag is written. -/
def name : Flag → String
  | config => "--config"
  | blocks => "--blocks"
  | output => "--output"
  | saveConfig => "--save-config"

/-- The flag that is written so. -/
def ofName? (s : String) : Option Flag := all.find? fun f => f.name = s

end Flag

/-- What the arguments set. -/
structure Options where
  config : Option String := none
  blocks : Option Nat := none
  output : Option String := none
  saveConfig : Option String := none
  deriving DecidableEq, Repr

/-- Why a text is no count. -/
inductive CountError where
  | empty
  | invalidDigit
  | tooLarge
  deriving DecidableEq, Repr

/-- The text of the reason. -/
def CountError.message : CountError → String
  | empty => "cannot parse integer from empty string"
  | invalidDigit => "invalid digit found in string"
  | tooLarge => "number too large to fit in target type"

/-- The value of a decimal digit. -/
def digit? (c : Char) : Option Nat :=
  if '0' ≤ c ∧ c ≤ '9' then some (c.toNat - '0'.toNat) else none

/-- Reads digits behind those whose value is `n`. Of a character that is no digit and a number
that no word holds, the one that comes first is reported. -/
def readDigits (n : Nat) : List Char → Except CountError Nat
  | [] => .ok n
  | c :: cs =>
    match digit? c with
    | none => .error .invalidDigit
    | some d => if 10 * n + d < wordBound then readDigits (10 * n + d) cs else .error .tooLarge

/-- Reads a count: decimal digits, at least one, behind a plus sign or not. -/
def readCount (text : String) : Except CountError Nat :=
  match text.toList with
  | [] => .error .empty
  | ['+'] => .error .invalidDigit
  | '+' :: cs => readDigits 0 cs
  | cs => readDigits 0 cs

/-- What is wrong with the arguments. -/
inductive OptionError where
  | missingValue (flag : Flag)
  | invalidBlocks (value : String) (reason : CountError)
  | unknownArgument (argument : String)
  deriving DecidableEq, Repr

/-- The text of the failure, with the reason below it. -/
def OptionError.chain : OptionError → CauseChain
  | missingValue flag => ⟨"missing value for " ++ flag.name, []⟩
  | invalidBlocks value reason =>
    ⟨"invalid value for " ++ Flag.blocks.name ++ ": " ++ value, [reason.message]⟩
  | unknownArgument argument => ⟨"unknown argument: " ++ argument, []⟩

/-- What the arguments ask for. -/
inductive Request where
  | help
  | run (options : Options)
  deriving DecidableEq, Repr

namespace Options

/-- Sets what a flag sets. -/
def set (o : Options) (flag : Flag) (value : String) : Except OptionError Options :=
  match flag with
  | .config => .ok { o with config := some value }
  | .output => .ok { o with output := some value }
  | .saveConfig => .ok { o with saveConfig := some value }
  | .blocks =>
    match readCount value with
    | .ok n => .ok { o with blocks := some n }
    | .error reason => .error (.invalidBlocks value reason)

/-- Whether an argument asks for help. -/
def isHelp (argument : String) : Bool := argument == "--help" || argument == "-h"

/-- Reads arguments that follow those which set `o`. -/
def parseFrom (o : Options) : List String → Except OptionError Request
  | [] => .ok (.run o)
  | [argument] =>
    if isHelp argument then .ok .help
    else
      match Flag.ofName? argument with
      | none => .error (.unknownArgument argument)
      | some flag => .error (.missingValue flag)
  | argument :: value :: rest =>
    if isHelp argument then .ok .help
    else
      match Flag.ofName? argument with
      | none => .error (.unknownArgument argument)
      | some flag =>
        match o.set flag value with
        | .error e => .error e
        | .ok o' => parseFrom o' rest

/-- Reads the arguments. -/
def parse (arguments : List String) : Except OptionError Request := parseFrom {} arguments

end Options

end BlockFlow.Cli
