import TrustedRoot.Log

/-!
Computations that put things out on their way, in order, and may fail. What was put out before a
failure stays. Putting something out does not fail itself: channels that refuse what is written to
them are left out.
-/

namespace TrustedRoot

/-- Something put out. -/
inductive Notice
  /-- Text on the output channel. -/
  | output (text : String)
  /-- Text on the error channel that a request for quiet holds back. -/
  | remark (text : String)
  /-- A message of the program, subject to the verbosity. -/
  | message (severity : Severity) (text : String)
  /-- A record of the library for the log. -/
  | record (record : Record)
deriving DecidableEq, Repr

namespace Notice

/-- What goes to the output channel. -/
def outputText : Notice → String
  | .output text => text
  | _ => ""

/-- What the program itself puts on the error channel; records of the library are left out. -/
def ownErrorText (tone : Tone) : Notice → String
  | .remark text => tone.remark text
  | .message severity text => tone.verbosity.say severity text
  | _ => ""

/-- What goes to the error channel, records of the library included. -/
def errorText (tone : Tone) : Notice → String
  | .record r => tone.verbosity.render r
  | notice => notice.ownErrorText tone

/-- The record in a notice. -/
def record? : Notice → Option Record
  | .record r => some r
  | _ => none

end Notice

/-- A computation in `m` that puts notices out and fails with an `ε`. -/
abbrev Session (ε : Type) (m : Type → Type) (α : Type) := ExceptT ε (StateT (List Notice) m) α

namespace Session

variable {ε δ α : Type} {m : Type → Type} [Monad m]

/-- Runs a session from nothing put out. -/
def start (session : Session ε m α) : m (Except ε α × List Notice) := (ExceptT.run session).run []

/-- Puts something out. -/
def put (notice : Notice) : Session ε m Unit :=
  ExceptT.lift (modify fun notices => notices ++ [notice])

/-- Puts several things out. -/
def putAll (notices : List Notice) : Session ε m Unit :=
  ExceptT.lift (modify fun before => before ++ notices)

/-- Puts a record of the library out. -/
def log (severity : Severity) (text : String) : Session ε m Unit := put (.record ⟨severity, text⟩)

/-- A step in `m`. -/
def ask (step : m α) : Session ε m α := ExceptT.lift (StateT.lift step)

/-- Goes on with a result or fails. -/
def check (result : Except ε α) : Session ε m α := ExceptT.mk (pure result)

/-- A session with its failure put in other words. -/
def failAs (f : ε → δ) (session : Session ε m α) : Session δ m α := ExceptT.adapt f session

end Session
end TrustedRoot
