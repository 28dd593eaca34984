import Mathlib

/-!
# Texts as bytes

The UTF-8 bytes of a text. They are ordered as the text is by its characters, so it makes no
difference which of the two texts are sorted by.
-/

namespace FermiQuiz.Text

/-- The bytes of a character, as numbers. -/
def charBytes (c : Char) : List ℕ := (String.utf8EncodeChar c).map UInt8.toNat

/-- The bytes of a text, as numbers. -/
def bytes (s : String) : List ℕ := s.toUTF8.data.toList.map UInt8.toNat

theorem bytes_eq_flatMap (s : String) : bytes s = s.toList.flatMap charBytes := by
  have encoded : s.toUTF8.data.toList = s.toList.flatMap String.utf8EncodeChar := by
    rw [String.toUTF8_eq_toByteArray, ← String.utf8Encode_toList, List.utf8Encode]
    simp
  rw [bytes, encoded, List.map_flatMap]
  rfl

/-! ### Characters -/

theorem toNat_lt (c : Char) : c.toNat < 0x110000 := by
  rcases c.valid with low | ⟨-, high⟩
  · exact low.trans (by decide)
  · exact high

theorem charBytes_eq (c : Char) : charBytes c =
    if c.toNat ≤ 127 then [c.toNat]
    else if c.toNat ≤ 2047 then [c.toNat / 64 + 192, c.toNat % 64 + 128]
    else if c.toNat ≤ 65535 then
      [c.toNat / 64 / 64 + 224, c.toNat / 64 % 64 + 128, c.toNat % 64 + 128]
    else [c.toNat / 64 / 64 / 64 + 240, c.toNat / 64 / 64 % 64 + 128, c.toNat / 64 % 64 + 128,
      c.toNat % 64 + 128] := by
  have bound := toNat_lt c
  have same : c.val.toNat = c.toNat := rfl
  simp only [charBytes, String.utf8EncodeChar, same]
  generalize c.toNat = n at bound
  split_ifs <;> simp <;> omega

theorem charBytes_ne_nil (c : Char) : charBytes c ≠ [] := by
  rw [charBytes_eq]
  split_ifs <;> exact List.cons_ne_nil _ _

/-- The bytes of two characters differ before either ends, so that what follows does not count. -/
theorem charBytes_append_lt {c d : Char} (less : c < d) (xs ys : List ℕ) :
    charBytes c ++ xs < charBytes d ++ ys := by
  have less' : c.toNat < d.toNat := less
  have bound := toNat_lt d
  rw [charBytes_eq, charBytes_eq]
  generalize c.toNat = m at *
  generalize d.toNat = n at *
  split_ifs <;> simp only [List.cons_append, List.cons_lt_cons_iff] <;> omega

/-! ### Texts -/

theorem flatMap_charBytes_lt {cs ds : List Char} (less : cs < ds) :
    cs.flatMap charBytes < ds.flatMap charBytes := by
  induction cs generalizing ds with
  | nil =>
    cases ds with
    | nil => exact absurd less (lt_irrefl _)
    | cons d ds =>
      obtain ⟨b, bs, first⟩ := List.exists_cons_of_ne_nil (charBytes_ne_nil d)
      rw [List.flatMap_nil, List.flatMap_cons, first]
      exact List.nil_lt_cons b _
  | cons c cs ih =>
    cases ds with
    | nil => exact absurd less (List.not_lt_nil _)
    | cons d ds =>
      rw [List.flatMap_cons, List.flatMap_cons]
      rcases List.cons_lt_cons_iff.mp less with first | ⟨rfl, rest⟩
      · exact charBytes_append_lt first _ _
      · exact List.append_left_lt (ih rest)

theorem strictMono_bytes : StrictMono bytes := by
  intro s t less
  rw [bytes_eq_flatMap, bytes_eq_flatMap]
  exact flatMap_charBytes_lt (String.lt_iff_toList_lt.mp less)

theorem bytes_le_iff {s t : String} : bytes s ≤ bytes t ↔ s ≤ t := strictMono_bytes.le_iff_le

end FermiQuiz.Text
