import Mathlib.Data.List.Forall2
import LineCoach.Text.Lossy

/-!
# The bytes of one character

Which bytes are those of a character is told by their number and by four bounds: each character is
written with as few bytes as it needs, and surrogates and numbers that are too large are no
characters. The ranges by which bytes are read say the same, and so does the encoding: these bytes
are the encoding of the code point that they stand for, and every character is encoded by such
bytes.
-/

namespace LineCoach.Text

/-- A byte stands in a range. -/
def Within (byte : UInt8) (range : Nat × Nat) : Prop :=
  range.1 ≤ byte.toNat ∧ byte.toNat ≤ range.2

/-- The bytes are those of one character: not more of them than it needs, and its code point is no
surrogate and not too large. -/
inductive IsCharacter : (first : UInt8) → (later : List UInt8) → Prop where
  | one {first : UInt8} (hfirst : first.toNat < 0x80) : IsCharacter first []
  | two {first second : UInt8} (hfirst : 0xC2 ≤ first.toNat ∧ first.toNat < 0xE0)
      (hsecond : Within second (0x80, 0xBF)) : IsCharacter first [second]
  | three {first second third : UInt8} (hfirst : 0xE0 ≤ first.toNat ∧ first.toNat < 0xF0)
      (hsecond : Within second (secondRange first.toNat)) (hthird : Within third (0x80, 0xBF)) :
      IsCharacter first [second, third]
  | four {first second third fourth : UInt8} (hfirst : 0xF0 ≤ first.toNat ∧ first.toNat < 0xF5)
      (hsecond : Within second (secondRange first.toNat)) (hthird : Within third (0x80, 0xBF))
      (hfourth : Within fourth (0x80, 0xBF)) : IsCharacter first [second, third, fourth]

/-- The second byte is a later byte like others, but for the bound that some first bytes set. -/
theorem within_secondRange_iff (first second : UInt8) :
    Within second (secondRange first.toNat) ↔
      (0x80 ≤ second.toNat ∧ second.toNat ≤ 0xBF) ∧
        (first.toNat = 0xE0 → 0xA0 ≤ second.toNat) ∧ (first.toNat = 0xED → second.toNat ≤ 0x9F) ∧
        (first.toNat = 0xF0 → 0x90 ≤ second.toNat) ∧ (first.toNat = 0xF4 → second.toNat ≤ 0x8F) := by
  unfold Within secondRange
  repeat' split
  all_goals
    dsimp only
    omega

/-- Bytes that stand in the ranges after their first byte are those of one character. -/
theorem isCharacter_of_within {first : UInt8} {later : List UInt8} {ranges : List (Nat × Nat)}
    (hranges : laterRanges? first.toNat = some ranges)
    (hwithin : List.Forall₂ Within later ranges) : IsCharacter first later := by
  unfold laterRanges? at hranges
  split at hranges
  · next hone =>
    cases hranges
    cases hwithin
    exact .one hone
  split at hranges
  · cases hranges
  split at hranges
  · cases hranges
    obtain _ | ⟨hsecond, _ | _⟩ := hwithin
    exact .two (by omega) hsecond
  split at hranges
  · cases hranges
    obtain _ | ⟨hsecond, _ | ⟨hthird, _ | _⟩⟩ := hwithin
    exact .three (by omega) hsecond hthird
  split at hranges
  · cases hranges
    obtain _ | ⟨hsecond, _ | ⟨hthird, _ | ⟨hfourth, _ | _⟩⟩⟩ := hwithin
    exact .four (by omega) hsecond hthird hfourth
  · cases hranges

/-- The later bytes of a character stand in the ranges after its first byte. -/
theorem IsCharacter.exists_ranges {first : UInt8} {later : List UInt8}
    (h : IsCharacter first later) :
    ∃ ranges, laterRanges? first.toNat = some ranges ∧ List.Forall₂ Within later ranges := by
  unfold laterRanges?
  cases h with
  | one hfirst => exact ⟨[], if_pos hfirst, .nil⟩
  | two hfirst hsecond =>
    rw [if_neg (by omega), if_neg (by omega), if_pos hfirst.2]
    exact ⟨_, rfl, .cons hsecond .nil⟩
  | three hfirst hsecond hthird =>
    rw [if_neg (by omega), if_neg (by omega), if_neg (by omega), if_pos hfirst.2]
    exact ⟨_, rfl, .cons hsecond (.cons hthird .nil)⟩
  | four hfirst hsecond hthird hfourth =>
    rw [if_neg (by omega), if_neg (by omega), if_neg (by omega), if_neg (by omega),
      if_pos hfirst.2]
    exact ⟨_, rfl, .cons hsecond (.cons hthird (.cons hfourth .nil))⟩

/-- A number that is no surrogate and not too large is the code point of a character. -/
theorem toNat_ofNat_of_valid {n : Nat} (h : n < 0xD800 ∨ 0xDFFF < n ∧ n < 0x110000) :
    (Char.ofNat n).val.toNat = n := by
  have hvalid : n.isValidChar := h
  rw [Char.ofNat, dif_pos hvalid]
  rfl

/-- A byte is told by its number. -/
theorem ofNat_eq_of_toNat {n : Nat} (byte : UInt8) (h : n = byte.toNat) : UInt8.ofNat n = byte := by
  rw [h, UInt8.ofNat_toNat]

/-- The bytes of a character are the encoding of their code point. -/
theorem IsCharacter.utf8EncodeChar_codePoint {first : UInt8} {later : List UInt8}
    (h : IsCharacter first later) :
    String.utf8EncodeChar (Char.ofNat (codePoint first later)) = first :: later := by
  cases h with
  | one hfirst =>
    have hpoint : codePoint first [] = first.toNat % 128 := rfl
    rw [hpoint, String.utf8EncodeChar, toNat_ofNat_of_valid (by omega), if_pos (by omega),
      ofNat_eq_of_toNat first (by omega)]
  | @two second hfirst hsecond =>
    have hpoint : codePoint first [second] = first.toNat % 32 * 64 + second.toNat % 64 := rfl
    simp only [Within] at hsecond
    rw [hpoint, String.utf8EncodeChar, toNat_ofNat_of_valid (by omega), if_neg (by omega),
      if_pos (by omega), ofNat_eq_of_toNat first (by omega), ofNat_eq_of_toNat second (by omega)]
  | @three second third hfirst hsecond hthird =>
    have hpoint : codePoint first [second, third] =
      (first.toNat % 16 * 64 + second.toNat % 64) * 64 + third.toNat % 64 := rfl
    rw [within_secondRange_iff] at hsecond
    simp only [Within] at hthird
    rw [hpoint, String.utf8EncodeChar, toNat_ofNat_of_valid (by omega), if_neg (by omega),
      if_neg (by omega), if_pos (by omega), ofNat_eq_of_toNat first (by omega),
      ofNat_eq_of_toNat second (by omega), ofNat_eq_of_toNat third (by omega)]
  | @four second third fourth hfirst hsecond hthird hfourth =>
    have hpoint : codePoint first [second, third, fourth] =
      ((first.toNat % 8 * 64 + second.toNat % 64) * 64 + third.toNat % 64) * 64
        + fourth.toNat % 64 := rfl
    rw [within_secondRange_iff] at hsecond
    simp only [Within] at hthird hfourth
    rw [hpoint, String.utf8EncodeChar, toNat_ofNat_of_valid (by omega), if_neg (by omega),
      if_neg (by omega), if_neg (by omega), ofNat_eq_of_toNat first (by omega),
      ofNat_eq_of_toNat second (by omega), ofNat_eq_of_toNat third (by omega),
      ofNat_eq_of_toNat fourth (by omega)]

theorem utf8EncodeChar_injective : Function.Injective String.utf8EncodeChar := by
  intro c d h
  have hc := @ByteArray.utf8DecodeChar?_utf8EncodeChar_append ByteArray.empty c
  rw [h, ByteArray.utf8DecodeChar?_utf8EncodeChar_append] at hc
  exact (Option.some.inj hc).symm

/-- The encoding of a character is the bytes of one character. -/
theorem isCharacter_utf8EncodeChar (c : Char) :
    ∃ first later, String.utf8EncodeChar c = first :: later ∧ IsCharacter first later := by
  have hvalid : c.val.toNat < 0xD800 ∨ 0xDFFF < c.val.toNat ∧ c.val.toNat < 0x110000 := c.valid
  simp only [String.utf8EncodeChar]
  split
  · refine ⟨_, _, rfl, .one ?_⟩
    rw [UInt8.toNat_ofNat']
    omega
  split
  · refine ⟨_, _, rfl, .two ?_ ?_⟩
    all_goals
      simp only [Within, UInt8.toNat_ofNat']
      omega
  split
  · refine ⟨_, _, rfl, .three ?_ ((within_secondRange_iff _ _).2 ?_) ?_⟩
    all_goals
      simp only [Within, UInt8.toNat_ofNat']
      omega
  · refine ⟨_, _, rfl, .four ?_ ((within_secondRange_iff _ _).2 ?_) ?_ ?_⟩
    all_goals
      simp only [Within, UInt8.toNat_ofNat']
      omega

end LineCoach.Text
