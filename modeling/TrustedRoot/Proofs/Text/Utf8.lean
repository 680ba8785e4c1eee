import Mathlib
import TrustedRoot.Text.Utf8

namespace TrustedRoot.Utf8

section Pieces

variable {b₀ b₁ b₂ b₃ : UInt8} (rest : Bytes)

/-- A byte that may stand behind another one, whatever that is. -/
def IsTail (b : UInt8) : Prop := 0x80 ≤ b.toNat ∧ b.toNat ≤ 0xBF

private theorem continuation_last {low high : Nat} (value taken : Nat)
    (hb : low ≤ b₀.toNat ∧ b₀.toNat ≤ high) :
    continuation low high 0 value taken (b₀ :: rest) =
      (some (Char.ofNat (value * 64 + (b₀.toNat - 0x80))), taken + 1) := by
  simp [continuation, hb]

private theorem continuation_more {low high : Nat} (more value taken : Nat)
    (hb : low ≤ b₀.toNat ∧ b₀.toNat ≤ high) :
    continuation low high (more + 1) value taken (b₀ :: rest) =
      continuation 0x80 0xBF more (value * 64 + (b₀.toNat - 0x80)) (taken + 1) rest := by
  simp [continuation, hb]

private theorem piece_one (h₀ : b₀.toNat < 0x80) :
    piece b₀ rest = (some (Char.ofNat b₀.toNat), 0) := by
  simp [piece, h₀]

private theorem piece_two (h₀ : 0xC2 ≤ b₀.toNat ∧ b₀.toNat ≤ 0xDF) (h₁ : IsTail b₁) :
    piece b₀ (b₁ :: rest) =
      (some (Char.ofNat ((b₀.toNat - 0xC0) * 64 + (b₁.toNat - 0x80))), 1) := by
  have hone : ¬ b₀.toNat < 0x80 := by omega
  simp only [piece, if_neg hone, if_pos h₀, continuation_last rest _ _ h₁]

/-- The second byte of three lies in a smaller range after the first and the
fourteenth of the bytes that start three. -/
theorem piece_three (h₀ : 0xE0 ≤ b₀.toNat ∧ b₀.toNat ≤ 0xEF) (h₁ : IsTail b₁) (h₂ : IsTail b₂)
    (hshort : b₀.toNat = 0xE0 → 0xA0 ≤ b₁.toNat) (hsurrogate : b₀.toNat = 0xED → b₁.toNat ≤ 0x9F) :
    piece b₀ (b₁ :: b₂ :: rest) =
      (some (Char.ofNat (((b₀.toNat - 0xE0) * 64 + (b₁.toNat - 0x80)) * 64 + (b₂.toNat - 0x80))),
        2) := by
  obtain ⟨hlow, hhigh⟩ := h₁
  simp only [piece]
  rw [if_neg (by omega), if_neg (by omega)]
  by_cases hfirst : b₀.toNat = 0xE0
  · rw [if_pos hfirst, continuation_more _ _ _ _ ⟨hshort hfirst, hhigh⟩,
      continuation_last _ _ _ h₂, hfirst]
  · rw [if_neg hfirst]
    by_cases hlast : b₀.toNat = 0xED
    · rw [if_pos hlast, continuation_more _ _ _ _ ⟨hlow, hsurrogate hlast⟩,
        continuation_last _ _ _ h₂, hlast]
    · rw [if_neg hlast, if_pos (by omega), continuation_more _ _ _ _ ⟨hlow, hhigh⟩,
        continuation_last _ _ _ h₂]

private theorem piece_four (h₀ : 0xF0 ≤ b₀.toNat ∧ b₀.toNat ≤ 0xF4) (h₁ : IsTail b₁)
    (h₂ : IsTail b₂) (h₃ : IsTail b₃) (hshort : b₀.toNat = 0xF0 → 0x90 ≤ b₁.toNat)
    (hlarge : b₀.toNat = 0xF4 → b₁.toNat ≤ 0x8F) :
    piece b₀ (b₁ :: b₂ :: b₃ :: rest) =
      (some (Char.ofNat ((((b₀.toNat - 0xF0) * 64 + (b₁.toNat - 0x80)) * 64 +
        (b₂.toNat - 0x80)) * 64 + (b₃.toNat - 0x80))), 3) := by
  obtain ⟨hlow, hhigh⟩ := h₁
  simp only [piece]
  rw [if_neg (by omega), if_neg (by omega), if_neg (by omega), if_neg (by omega), if_neg (by omega)]
  by_cases hfirst : b₀.toNat = 0xF0
  · rw [if_pos hfirst, continuation_more _ _ _ _ ⟨hshort hfirst, hhigh⟩,
      continuation_more _ _ _ _ h₂, continuation_last _ _ _ h₃, hfirst]
  · rw [if_neg hfirst]
    by_cases hlast : b₀.toNat = 0xF4
    · rw [if_pos hlast, continuation_more _ _ _ _ ⟨hlow, hlarge hlast⟩,
        continuation_more _ _ _ _ h₂, continuation_last _ _ _ h₃, hlast]
    · rw [if_neg hlast, if_pos (by omega), continuation_more _ _ _ _ ⟨hlow, hhigh⟩,
        continuation_more _ _ _ _ h₂, continuation_last _ _ _ h₃]

end Pieces

private theorem toNat_cases (c : Char) :
    c.toNat < 0xD800 ∨ (0xE000 ≤ c.toNat ∧ c.toNat < 0x110000) := by
  have hvalid : c.toNat.isValidChar := c.valid
  simp only [Nat.isValidChar] at hvalid
  omega

private theorem toNat_ofNat_of_lt {n : Nat} (hn : n < 256) : (UInt8.ofNat n).toNat = n := by
  simp [Nat.mod_eq_of_lt hn]

/-- A character is read back from its bytes, whatever stands behind them. Only
its number is needed: it does not lie among the surrogates, and the ranges of the
second byte exclude nothing else. -/
theorem exists_piece_utf8EncodeChar (c : Char) :
    ∃ b more, String.utf8EncodeChar c = b :: more ∧
      ∀ rest, piece b (more ++ rest) = (some c, more.length) := by
  have hrange := toNat_cases c
  have hback := Char.ofNat_toNat c
  have hval : c.val.toNat = c.toNat := rfl
  simp only [String.utf8EncodeChar, hval]
  generalize c.toNat = v at hrange hback ⊢
  have hbyte {n : Nat} (hn : n < 256) := toNat_ofNat_of_lt hn
  split_ifs with hone htwo hthree
  · refine ⟨_, _, rfl, fun rest => ?_⟩
    rw [piece_one _ (by rw [hbyte (by omega)]; omega), hbyte (by omega), hback]
    rfl
  · refine ⟨_, _, rfl, fun rest => ?_⟩
    have h₀ := hbyte (n := v / 64 % 32 + 192) (by omega)
    have h₁ := hbyte (n := v % 64 + 128) (by omega)
    have hvalue : (v / 64 % 32 + 192 - 0xC0) * 64 + (v % 64 + 128 - 0x80) = v := by omega
    refine (piece_two rest (by omega) ⟨by omega, by omega⟩).trans ?_
    rw [h₀, h₁, hvalue, hback]
    rfl
  · refine ⟨_, _, rfl, fun rest => ?_⟩
    have h₀ := hbyte (n := v / 4096 % 16 + 224) (by omega)
    have h₁ := hbyte (n := v / 64 % 64 + 128) (by omega)
    have h₂ := hbyte (n := v % 64 + 128) (by omega)
    have hvalue : ((v / 4096 % 16 + 224 - 0xE0) * 64 + (v / 64 % 64 + 128 - 0x80)) * 64 +
        (v % 64 + 128 - 0x80) = v := by omega
    refine (piece_three rest (by omega) ⟨by omega, by omega⟩ ⟨by omega, by omega⟩ (by omega)
      (by omega)).trans ?_
    rw [h₀, h₁, h₂, hvalue, hback]
    rfl
  · refine ⟨_, _, rfl, fun rest => ?_⟩
    have h₀ := hbyte (n := v / 262144 % 8 + 240) (by omega)
    have h₁ := hbyte (n := v / 4096 % 64 + 128) (by omega)
    have h₂ := hbyte (n := v / 64 % 64 + 128) (by omega)
    have h₃ := hbyte (n := v % 64 + 128) (by omega)
    have hvalue : (((v / 262144 % 8 + 240 - 0xF0) * 64 + (v / 4096 % 64 + 128 - 0x80)) * 64 +
        (v / 64 % 64 + 128 - 0x80)) * 64 + (v % 64 + 128 - 0x80) = v := by omega
    refine (piece_four rest (by omega) ⟨by omega, by omega⟩ ⟨by omega, by omega⟩
      ⟨by omega, by omega⟩ (by omega) (by omega)).trans ?_
    rw [h₀, h₁, h₂, h₃, hvalue, hback]
    rfl

private theorem piecesAfter_length (front rest : Bytes) :
    piecesAfter front.length (front ++ rest) = piecesAfter 0 rest := by
  induction front with
  | nil => rfl
  | cons b more ih => exact ih

/-- Encoded characters are decoded one by one. -/
theorem pieces_encodeChars (text : List Char) : pieces (encodeChars text) = text.map some := by
  induction text with
  | nil => rfl
  | cons c more ih =>
    obtain ⟨b, tail, hbytes, hpiece⟩ := exists_piece_utf8EncodeChar c
    have hsplit : encodeChars (c :: more) = b :: (tail ++ encodeChars more) := by
      simp [encodeChars, hbytes]
    rw [pieces, hsplit, piecesAfter, hpiece, piecesAfter_length, List.map_cons, ← ih, pieces]

/-- What is written is read back. -/
theorem decode?_encode (text : String) : decode? (encode text) = some text := by
  have hchars (chars : List Char) : (chars.map some).mapM id = some chars := by
    induction chars with
    | nil => rfl
    | cons c more ih => simp [ih]
  simp [decode?, decodeChars?, encode, pieces_encodeChars, hchars]

end TrustedRoot.Utf8
