import Mathlib.Data.String.Basic
import Mathlib.Order.Monotone.Basic
/-!
# The order of texts

Texts are ordered by their code points: the first place where two of them differ decides, and a text stands behind its
beginnings.  Their bytes in UTF-8 are ordered alike (`strictMono_utf8`), since the first byte of a code point tells how
many there are and each of the others holds six more bits.
-/
namespace MiniLang.Text

/-- The bytes of a text in UTF-8, as numbers. -/
def utf8 (s : String) : List Nat := s.toByteArray.data.toList.map UInt8.toNat

/-- The bytes of one code point, as numbers. -/
def utf8Units (v : Nat) : List Nat :=
  if v ≤ 0x7f then [v]
  else if v ≤ 0x7ff then [v / 64 + 0xc0, v % 64 + 0x80]
  else if v ≤ 0xffff then [v / 4096 + 0xe0, v / 64 % 64 + 0x80, v % 64 + 0x80]
  else [v / 262144 + 0xf0, v / 4096 % 64 + 0x80, v / 64 % 64 + 0x80, v % 64 + 0x80]

theorem toNat_lt (c : Char) : c.toNat < 0x110000 := by
  rcases c.valid with h | h
  · exact Nat.lt_trans h (by decide)
  · exact h.2

theorem map_toNat_utf8EncodeChar (c : Char) : (String.utf8EncodeChar c).map UInt8.toNat = utf8Units c.toNat := by
  have hc := toNat_lt c
  simp only [String.utf8EncodeChar, Char.toNat_val, utf8Units]
  split_ifs <;> simp <;> omega

theorem utf8_eq (s : String) : utf8 s = s.toList.flatMap fun c => utf8Units c.toNat := by
  rw [utf8, ← String.utf8Encode_toList, List.utf8Encode, List.toList_data_toByteArray, List.map_flatMap]
  simp only [map_toNat_utf8EncodeChar]

/-- **A greater code point has greater bytes** at the first place where they differ, whatever stands behind them. -/
theorem utf8Units_append_lt {m n : Nat} (h : m < n) (u v : List Nat) : utf8Units m ++ u < utf8Units n ++ v := by
  unfold utf8Units
  split_ifs <;> simp only [List.cons_append, List.nil_append, List.cons_lt_cons_iff] <;> omega

theorem flatMap_utf8Units_lt : ∀ {s t : List Char}, s < t →
    (s.flatMap fun c => utf8Units c.toNat) < t.flatMap fun c => utf8Units c.toNat
  | _, [], h => absurd h (List.not_lt_nil _)
  | [], d :: t, _ => by
    have hne : utf8Units d.toNat ≠ [] := by
      unfold utf8Units
      split_ifs <;> exact List.cons_ne_nil _ _
    obtain ⟨b, bs, hb⟩ := List.exists_cons_of_ne_nil hne
    rw [List.flatMap_cons, hb]
    exact List.nil_lt_cons _ _
  | c :: s, d :: t, h => by
    rw [List.flatMap_cons, List.flatMap_cons]
    rcases List.cons_lt_cons_iff.1 h with hcd | ⟨rfl, hst⟩
    · exact utf8Units_append_lt hcd _ _
    · exact List.append_left_lt (flatMap_utf8Units_lt hst)

/-- **The order of texts is that of their bytes.** -/
theorem strictMono_utf8 : StrictMono utf8 := by
  intro s t h
  rw [utf8_eq, utf8_eq]
  exact flatMap_utf8Units_lt (String.lt_iff_toList_lt.1 h)

end MiniLang.Text
