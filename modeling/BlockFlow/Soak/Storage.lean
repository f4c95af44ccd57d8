import BlockFlow.Host
import BlockFlow.Soak.Codec

/-!
# The settings of a soak run in a file
-/

set_option autoImplicit false

namespace BlockFlow.SoakConfig

variable {m : Type → Type} [Monad m] [Host m]

/-- The settings in a file; the defaults if it cannot be read or holds none. -/
def load (path : String) : m SoakConfig := do
  return ofFile (← Host.readFile? path)

/-- Stores the settings in a file and makes the folders above it. -/
def save (path : String) (c : SoakConfig) : m Outcome := do
  match ← storeText path c.toText with
  | .ok () => return .ok ()
  | .error e => return .error (.io e)

end BlockFlow.SoakConfig
