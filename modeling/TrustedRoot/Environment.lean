import TrustedRoot.Path.Basic
import TrustedRoot.IoError

/-!
What a program is told by its surroundings when it starts.
-/

namespace TrustedRoot

/-- The surroundings of a run. -/
structure Environment where
  /-- The home directory of the user, if it is known. -/
  home : Option Path
  /-- The directory the program was started in. -/
  workingDirectory : Except IoError Path
  /-- The value of a variable, if it is set. -/
  setting? : String → Option Bytes

/-- The text of a variable. One that is not UTF-8 counts as not set. -/
def Environment.text? (environment : Environment) (name : String) : Option String :=
  environment.setting? name >>= Utf8.decode?

end TrustedRoot
