import TrustedRoot.Error

/-!
The questions that a resolver asks of a tree of files.
-/

namespace TrustedRoot

/-- What is known of an entry without following it. -/
structure Entry where
  isLink : Bool
  isDirectory : Bool
deriving DecidableEq, Repr

namespace Entry

/-- A symbolic link. -/
def link : Entry := ⟨true, false⟩

/-- A directory. -/
def directory : Entry := ⟨false, true⟩

/-- Anything else. -/
def file : Entry := ⟨false, false⟩

end Entry

/-- Access to a tree of files in the monad `m`. In `Id` an answer depends on the path alone; in a
state monad it may depend on everything asked before. -/
structure Lookup (m : Type → Type) where
  /-- What the path names, the link itself if it is one. -/
  inspect : Path → m (Except IoError Entry)
  /-- The target of the link that the path names, as it is stored. -/
  target : Path → m (Except IoError Path)

end TrustedRoot
