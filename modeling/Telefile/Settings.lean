import Telefile.Path

/-!
# Settings of the service
-/

namespace Telefile

/-- What an operator chooses for the file service. -/
structure Settings where
  /-- The directory that client paths are confined to; without one they are used as given. -/
  root : Option Path
  /-- The most bytes that one read, or one page of a listing, may take. -/
  maxTransfer : Nat
  /-- Whether the end of a session closes the descriptors it still holds. -/
  closeOnSessionEnd : Bool
  deriving DecidableEq, Repr

/-- No root, transfers of up to a mebibyte, and descriptors that outlive their session. -/
def Settings.default : Settings := ⟨none, 1048576, false⟩

instance : Inhabited Settings := ⟨Settings.default⟩

end Telefile
