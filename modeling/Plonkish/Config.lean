import Plonkish.Circuit.Policy

namespace Plonkish

/-!
# Configurations

The policy of circuits, whether they are checked, and where exports are kept.
-/

/-- How programs are translated, and where exports are kept. -/
structure Config where
  policy : Policy
  /-- Whether a circuit is checked before it is exported. -/
  checked : Bool
  /-- The directory of the exports. -/
  directory : String
  deriving DecidableEq

namespace Config

/-- The configuration that holds where none is given. -/
def standard : Config where
  policy := .standard
  checked := true
  directory := ".cache/assigner"

end Config

end Plonkish
