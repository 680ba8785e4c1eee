/-!
Text as bytes. The system hands over paths, variables and file contents as bytes; this module reads
them as UTF-8. A byte string is cut into pieces, each a character or the longest run of bytes that
starts no character, so one reading serves the strict decoder and the one that replaces.
-/

namespace TrustedRoot

/-- Bytes as the system hands them over. -/
abbrev Bytes := List UInt8

namespace Utf8

/-- Reads the continuation bytes of a character. The first must lie between `low` and `high`,
each of the `more` that follow between 0x80 and 0xBF. Gives the character, if it is complete, and
how many bytes belong to the piece besides those already `taken`. -/
def continuation (low high more value taken : Nat) : List UInt8 → Option Char × Nat
  | [] => (none, taken)
  | b :: rest =>
    if low ≤ b.toNat ∧ b.toNat ≤ high then
      let value := value * 64 + (b.toNat - 0x80)
      match more with
      | 0 => (some (Char.ofNat value), taken + 1)
      | more + 1 => continuation 0x80 0xBF more value (taken + 1) rest
    else (none, taken)

/-- The piece that starts with byte `b`: its character, if it is one, and how many of the bytes
after `b` belong to it. Overlong forms, surrogates and values above U+10FFFF are excluded by the
range of the second byte. -/
def piece (b : UInt8) (rest : Bytes) : Option Char × Nat :=
  let n := b.toNat
  if n < 0x80 then (some (Char.ofNat n), 0)
  else if 0xC2 ≤ n ∧ n ≤ 0xDF then continuation 0x80 0xBF 0 (n - 0xC0) 0 rest
  else if n = 0xE0 then continuation 0xA0 0xBF 1 0 0 rest
  else if n = 0xED then continuation 0x80 0x9F 1 0x0D 0 rest
  else if 0xE1 ≤ n ∧ n ≤ 0xEF then continuation 0x80 0xBF 1 (n - 0xE0) 0 rest
  else if n = 0xF0 then continuation 0x90 0xBF 2 0 0 rest
  else if n = 0xF4 then continuation 0x80 0x8F 2 4 0 rest
  else if 0xF1 ≤ n ∧ n ≤ 0xF3 then continuation 0x80 0xBF 2 (n - 0xF0) 0 rest
  else (none, 0)

/-- The pieces of a byte string after `skip` bytes that the piece before them took. -/
def piecesAfter : Nat → Bytes → List (Option Char)
  | _, [] => []
  | skip + 1, _ :: rest => piecesAfter skip rest
  | 0, b :: rest => (piece b rest).1 :: piecesAfter (piece b rest).2 rest

/-- The pieces of a byte string: `none` stands for a run of bytes that is no character. -/
def pieces (bytes : Bytes) : List (Option Char) := piecesAfter 0 bytes

/-- The characters of a byte string, if all of it is UTF-8. -/
def decodeChars? (bytes : Bytes) : Option (List Char) := (pieces bytes).mapM id

/-- The text of a byte string, if all of it is UTF-8. -/
def decode? (bytes : Bytes) : Option String := (decodeChars? bytes).map String.ofList

/-- The text of a byte string with U+FFFD for every run of bytes that is no character. -/
def decodeLossy (bytes : Bytes) : String :=
  String.ofList ((pieces bytes).map (·.getD '\uFFFD'))

/-- The bytes of a list of characters. -/
def encodeChars (text : List Char) : Bytes := text.flatMap String.utf8EncodeChar

/-- The bytes of a text. -/
def encode (text : String) : Bytes := encodeChars text.toList

end Utf8
end TrustedRoot
