import TrustedRoot.Resolver

/-!
JSON texts of the library's results, written piece by piece.
-/

namespace TrustedRoot.Json

/-- Two hexadecimal digits in lower case. -/
def hexPair (n : Nat) : List Char := [Nat.digitChar (n / 16 % 16), Nat.digitChar (n % 16)]

/-- A character inside a JSON string. Only quotes, backslashes and controls are escaped. -/
def escape (c : Char) : List Char :=
  if c = '"' then ['\\', '"']
  else if c = '\\' then ['\\', '\\']
  else if c = '\n' then ['\\', 'n']
  else if c = '\r' then ['\\', 'r']
  else if c = '\t' then ['\\', 't']
  else if c = '\x08' then ['\\', 'b']
  else if c = '\x0c' then ['\\', 'f']
  else if c.toNat < 0x20 then ['\\', 'u', '0', '0'] ++ hexPair c.toNat
  else [c]

/-- A JSON string. -/
def quote (text : String) : String := String.ofList ('"' :: text.toList.flatMap escape ++ ['"'])

/-- A value that a record can hold. -/
inductive Value
  | path (p : Path)
  | number (n : Nat)
  | flag (b : Bool)
  | null
  | text (s : String)
  | object (fields : List (String × Value))

/-- What was written of a value, and whether it was written to its end. A path that is not UTF-8
cannot be written. -/
structure Written where
  text : String
  complete : Bool
deriving DecidableEq, Repr

mutual

/-- Writes a value. -/
def Value.write : Value → Written
  | .path p =>
    match p.text? with
    | some text => ⟨quote text, true⟩
    | none => ⟨"", false⟩
  | .number n => ⟨toString n, true⟩
  | .flag b => ⟨if b then "true" else "false", true⟩
  | .null => ⟨"null", true⟩
  | .text s => ⟨quote s, true⟩
  | .object fields =>
    let body := writeFields true fields
    if body.complete then ⟨"\x7b" ++ body.text ++ "\x7d", true⟩ else ⟨"\x7b" ++ body.text, false⟩

/-- Writes fields one after the other and stops at the first that cannot be written. -/
def writeFields (first : Bool) : List (String × Value) → Written
  | [] => ⟨"", true⟩
  | (name, value) :: rest =>
    let before := (if first then "" else ",") ++ quote name ++ ":"
    let written := value.write
    if written.complete then
      let more := writeFields false rest
      ⟨before ++ written.text ++ more.text, more.complete⟩
    else ⟨before ++ written.text, false⟩

end

/-- The error of a path that cannot be written. -/
def notText : IoError := ⟨.invalidData, "path contains invalid UTF-8 characters"⟩

/-- The fields of a resolution. -/
def resolutionFields (r : Resolution) : List (String × Value) := [
  ("root", .path r.root),
  ("resolved", .path r.path),
  ("expansions", .number r.expansions),
  ("short_circuited", .flag r.shortCircuited)]

/-- A resolution as a JSON object. -/
def ofResolution (r : Resolution) : Value := .object (resolutionFields r)

/-- A resolution as a JSON object that names the untrusted path as well. -/
def ofJoined (path : Path) (r : Resolution) : Value :=
  .object (("path", .path path) :: resolutionFields r)

end TrustedRoot.Json
