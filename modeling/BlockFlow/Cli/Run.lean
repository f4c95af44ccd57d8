import BlockFlow.Cli.Options
import BlockFlow.Soak.Run
import BlockFlow.Soak.Storage

/-!
# The soak program

Reads the settings, stores them if asked to, makes the run and reports on it. Whatever fails is
told in one line with all its causes.
-/

set_option autoImplicit false

namespace BlockFlow

/-- The failure with all causes below it. -/
def FifoError.chain : FifoError → CauseChain
  | other c => c
  | e => ⟨e.message, e.source?.toList⟩

/-- The failure of a larger task because of this one. -/
def CauseChain.within (task : String) (c : CauseChain) : CauseChain := ⟨task, c.texts⟩

namespace Cli

variable {m : Type → Type} [Monad m] [Host m]

/-- How the program is called. -/
def usage : String :=
  "Usage: cargo run -p blockbridge-core --bin blockbridge-soak -- \\\n" ++
    "  [--config <file.json>] [--blocks <n>] [--output <file.json>] [--save-config <file.json>]"

/-- The settings of a run: those in the file named by the options, or the defaults, with the
number of blocks from the options. -/
def settings (o : Options) : m SoakConfig := do
  let c ← match o.config with
    | some path => SoakConfig.load path
    | none => pure {}
  match o.blocks with
  | some blocks => return { c with blocks }
  | none => return c

/-- Stores the settings if the options say where. -/
def storeSettings (o : Options) (c : SoakConfig) : m (Except CauseChain Unit) := do
  match o.saveConfig with
  | none => return .ok ()
  | some path =>
    match ← SoakConfig.save path c with
    | .error e => return .error (e.chain.within ("writing config to " ++ path))
    | .ok () =>
      Host.printLine ("Wrote soak config: " ++ path)
      return .ok ()

/-- Stores the report where the options say, or prints it. -/
def deliver (o : Options) (report : String) : m (Except CauseChain Unit) := do
  match o.output with
  | none =>
    Host.printLine report
    return .ok ()
  | some path =>
    match ← storeText path report with
    | .error e => return .error ⟨e.text, []⟩
    | .ok () =>
      Host.printLine ("Wrote soak report: " ++ path)
      return .ok ()

/-- Makes the run and reports on it. -/
def soak [Memory] (o : Options) (c : SoakConfig) : m (Except CauseChain Unit) := do
  let started : Float ← Host.milliseconds
  match Soak.run c with
  | .error e => return .error (e.chain.within "soak run")
  | .ok report =>
    Host.printLine report.summary
    let ended : Float ← Host.milliseconds
    deliver o (report.toJson (ended - started)).pretty

/-- Does what the arguments ask for. -/
def execute [Memory] (arguments : List String) : m (Except CauseChain Unit) := do
  match Options.parse arguments with
  | .error e => return .error e.chain
  | .ok .help =>
    Host.printLine usage
    return .ok ()
  | .ok (.run o) =>
    let c ← settings o
    match ← storeSettings o c with
    | .error e => return .error e
    | .ok () => soak o c

/-- How the program ends: its exit code and what it tells about a failure. -/
structure Ending where
  code : UInt32
  complaint : Option String
  deriving DecidableEq, Repr

/-- The whole program. -/
def run [Memory] (arguments : List String) : m Ending := do
  match ← execute arguments with
  | .ok () => return { code := 0, complaint := none }
  | .error c => return { code := 1, complaint := some ("soak failed: " ++ c.joined) }

end Cli

end BlockFlow
