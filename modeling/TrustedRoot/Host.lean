import TrustedRoot.Lookup

/-!
Access to files beyond the questions of a resolver: whether there is one, and what it holds.
-/

namespace TrustedRoot

/-- Access to a file system in the monad `m`. All of it follows links, the lookup apart. -/
structure Host (m : Type → Type) extends Lookup m where
  /-- Whether the path names something; a failed question counts as no. -/
  isPresent : Path → m Bool
  /-- Whether the path names a regular file; a failed question counts as no. -/
  isFile : Path → m Bool
  /-- The contents of a file. -/
  read : Path → m (Except IoError Bytes)

/-- The error of contents that are not UTF-8. -/
def notUtf8 : IoError := ⟨.invalidData, "stream did not contain valid UTF-8"⟩

/-- The text of a file's contents. -/
def textOfContents (contents : Except IoError Bytes) : Except IoError String := do
  match Utf8.decode? (← contents) with
  | some text => .ok text
  | none => .error notUtf8

/-- The text of a file. -/
def Host.readText {m : Type → Type} [Monad m] (host : Host m) (p : Path) :
    m (Except IoError String) := do
  pure (textOfContents (← host.read p))

end TrustedRoot
