import TrustedRoot.Error

/-!
The tilde in front of a path. `~` stands for the home directory, which may be unknown; homes of
other users are not looked up.
-/

namespace TrustedRoot.Path

/-- The byte `~`. -/
abbrev tilde : UInt8 := 126

/-- The byte `\`. -/
abbrev backslash : UInt8 := 92

/-- The error of a path that is meant to lie in a home directory that is not known. -/
def homeUnknown (p : Path) : Error := .invalidPath p "Cannot determine home directory"

/-- Puts `home` in place of a leading `~`. What follows `~/` or `~\` is joined to `home`, so that it
replaces `home` if it is absolute itself. A path that is not UTF-8 is left alone. Without a home
directory every leading `~` is an error, whatever follows it. -/
def expandHome (p : Path) (home : Option Path) : Except Error Path :=
  if p.text?.isNone then .ok p
  else match p.bytes with
    | [] => .ok p
    | b :: rest =>
      if b ≠ tilde then .ok p
      else match home, rest with
        | none, _ => .error (homeUnknown p)
        | some home, [] => .ok home
        | some home, c :: rest =>
          if c = slash ∨ c = backslash then .ok (home.join ⟨rest⟩)
          else .error (.invalidPath p "~user syntax is not supported; use ~ or ~/path")

end TrustedRoot.Path
