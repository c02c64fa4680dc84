import MiniLang.Token.Lexicon
/-!
# The shape of tokens

What a pattern passes over is one of its texts (`Pattern.matches_of_mem_ends`), so every token of a text has the shape of
the rule that found it (`Lexicon.exists_rule_of_mem`): a name starts with a letter, a number holds digits only.
-/
namespace MiniLang

namespace Pattern

/-- The texts of a pattern, whatever stands around them. -/
def Matches : Pattern → List Char → Prop
  | empty, w => w = []
  | edge _, w => w = []
  | one q, w => ∃ c, w = [c] ∧ q c = true
  | many q, w => ∀ c ∈ w, q c = true
  | seq a b, w => ∃ v v', w = v ++ v' ∧ a.Matches v ∧ b.Matches v'
  | alt a b, w => a.Matches w ∨ b.Matches w

/-- The text `w` stands between two places. -/
structure Between (w : List Char) (p p' : Place) : Prop where
  ahead : p.ahead = w ++ p'.ahead
  passed : p'.passed = p.passed + w.length
  before : p'.before = w.getLast?.or p.before

theorem Between.nil (p : Place) : Between [] p p := ⟨rfl, rfl, rfl⟩

theorem Between.trans {v w : List Char} {p p' p'' : Place} (h : Between v p p') (h' : Between w p' p'') :
    Between (v ++ w) p p'' where
  ahead := by rw [h.ahead, h'.ahead, List.append_assoc]
  passed := by rw [h'.passed, h.passed, List.length_append, Nat.add_assoc]
  before := by rw [h'.before, h.before, List.getLast?_append, Option.or_assoc]

theorem Between.eq_of_nil {p p' : Place} (h : Between [] p p') : p' = p := by
  obtain ⟨before, ahead, n⟩ := p
  obtain ⟨before', ahead', n'⟩ := p'
  have ha : ahead = ahead' := h.ahead
  have hn : n' = n := h.passed
  have hb : before' = before := h.before
  rw [ha, hn, hb]

theorem getLast?_cons_or {c : Char} {w : List Char} {before : Option Char} :
    (c :: w).getLast?.or before = w.getLast?.or (some c) := by
  rw [List.getLast?_cons]
  cases w.getLast? <;> rfl

theorem between_cons {c : Char} {w s : List Char} {before : Option Char} {n : Nat} {p' : Place} :
    Between (c :: w) ⟨before, c :: s, n⟩ p' ↔ Between w ⟨some c, s, n + 1⟩ p' := by
  have hpassed : n + (c :: w).length = n + 1 + w.length := by
    rw [List.length_cons]
    omega
  constructor
  · intro h
    exact ⟨(List.cons.inj h.ahead).2, h.passed.trans hpassed, h.before.trans getLast?_cons_or⟩
  · intro h
    exact ⟨congrArg (c :: ·) h.ahead, h.passed.trans hpassed.symm, h.before.trans getLast?_cons_or.symm⟩

theorem mem_runEnds {q : Char → Bool} {p' : Place} : ∀ {s : List Char} {before : Option Char} {n : Nat}
    {short : List Place}, p' ∈ runEnds q before n short s ↔
      p' ∈ short ∨ ∃ w, (∀ c ∈ w, q c = true) ∧ Between w ⟨before, s, n⟩ p'
  | [], before, n, short => by
    rw [runEnds, List.mem_cons]
    constructor
    · rintro (rfl | h)
      · exact .inr ⟨[], by simp, .nil _⟩
      · exact .inl h
    · rintro (h | ⟨w, -, h⟩)
      · exact .inr h
      · obtain ⟨rfl, -⟩ := List.nil_eq_append_iff.1 h.ahead
        exact .inl h.eq_of_nil
  | c :: s, before, n, short => by
    have hempty : (∃ w, (∀ c ∈ w, q c = true) ∧ Between w ⟨before, c :: s, n⟩ p') ↔
        p' = ⟨before, c :: s, n⟩ ∨ q c = true ∧ ∃ w, (∀ c ∈ w, q c = true) ∧ Between w ⟨some c, s, n + 1⟩ p' := by
      constructor
      · rintro ⟨w, hw, h⟩
        cases w with
        | nil => exact .inl h.eq_of_nil
        | cons c' w =>
          obtain rfl : c = c' := (List.cons.inj h.ahead).1
          exact .inr ⟨hw c List.mem_cons_self, w, fun d hd => hw d (List.mem_cons_of_mem c hd), between_cons.1 h⟩
      · rintro (rfl | ⟨hc, w, hw, h⟩)
        · exact ⟨[], by simp, .nil _⟩
        · exact ⟨c :: w, by simpa [hc] using hw, between_cons.2 h⟩
    rw [runEnds, hempty]
    by_cases hc : q c = true
    · rw [if_pos hc, mem_runEnds, List.mem_cons]
      simp only [hc, true_and]
      rw [or_comm (a := p' = _), or_assoc]
    · rw [if_neg hc, List.mem_cons]
      rw [or_iff_left (fun h : q c = true ∧ _ => hc h.1)]
      exact or_comm

/-- **What a pattern passes over is one of its texts.** -/
theorem matches_of_mem_ends {p' : Place} : ∀ {a : Pattern} {p : Place}, p' ∈ a.ends p →
    ∃ w, a.Matches w ∧ Between w p p'
  | empty, p, h => by
    obtain rfl := List.mem_singleton.1 h
    exact ⟨[], rfl, .nil _⟩
  | edge word, p, h => by
    rw [ends] at h
    split at h
    · obtain rfl := List.mem_singleton.1 h
      exact ⟨[], rfl, .nil _⟩
    · cases h
  | one q, ⟨before, [], n⟩, h => by cases h
  | one q, ⟨before, c :: s, n⟩, h => by
    rw [ends] at h
    split at h
    · next hc =>
      obtain rfl := List.mem_singleton.1 h
      exact ⟨[c], ⟨c, rfl, hc⟩, rfl, rfl, rfl⟩
    · cases h
  | many q, p, h => by
    rcases mem_runEnds.1 h with h | ⟨w, hw, hb⟩
    · cases h
    · exact ⟨w, hw, hb⟩
  | seq a b, p, h => by
    obtain ⟨p₁, h₁, h₂⟩ := List.mem_flatMap.1 h
    obtain ⟨v, hv, hb⟩ := matches_of_mem_ends h₁
    obtain ⟨v', hv', hb'⟩ := matches_of_mem_ends h₂
    exact ⟨v ++ v', ⟨v, v', rfl, hv, hv'⟩, hb.trans hb'⟩
  | alt a b, p, h => by
    rcases List.mem_append.1 h with h | h
    · obtain ⟨w, hw, hb⟩ := matches_of_mem_ends h
      exact ⟨w, .inl hw, hb⟩
    · obtain ⟨w, hw, hb⟩ := matches_of_mem_ends h
      exact ⟨w, .inr hw, hb⟩

theorem matches_take {a : Pattern} {before : Option Char} {ahead : List Char} {n : Nat}
    (h : a.length? before ahead = some n) : a.Matches (ahead.take n) := by
  obtain ⟨p, hp, rfl⟩ := Option.map_eq_some_iff.1 h
  obtain ⟨w, hw, hahead, hpassed, -⟩ := matches_of_mem_ends (List.mem_of_mem_head? hp)
  have hn : p.passed = w.length := by rw [hpassed, Nat.zero_add]
  have htake : ahead.take w.length = w := by
    rw [show ahead = w ++ p.ahead from hahead, List.take_left]
  rw [hn, htake]
  exact hw

theorem matches_asWord [Text.WordClass] {a : Pattern} {w : List Char} (h : a.asWord.Matches w) : a.Matches w := by
  obtain ⟨_, _, rfl, rfl, v, _, rfl, hv, rfl⟩ := h
  simpa using hv

end Pattern

namespace Lexicon

theorem exists_rule_of_token? {lx : Lexicon} {before : Option Char} {ahead : List Char} {kind : Kind} {n : Nat}
    (h : lx.token? before ahead = some (kind, n)) :
    ∃ r ∈ lx.rules, r.kind = kind ∧ r.pattern.Matches (ahead.take n) := by
  obtain ⟨r, hr, hlen⟩ := List.exists_of_findSome?_eq_some h
  obtain ⟨m, hm, heq⟩ := Option.map_eq_some_iff.1 hlen
  obtain ⟨rfl, rfl⟩ := Prod.mk.inj heq
  exact ⟨r, hr, rfl, Pattern.matches_take hm⟩

/-- **A token has the shape of a rule.** -/
theorem exists_rule_of_mem {lx : Lexicon} {t : Token} : ∀ {s : List Char} {before : Option Char} {inside : Nat}
    {pos : Position}, t ∈ lx.scan before inside pos s →
      ∃ r ∈ lx.rules, t.kind = lx.kindOf r.kind t.lexeme ∧ r.pattern.Matches t.lexeme.toList
  | [], _, _, _, h => by cases h
  | c :: s, before, n + 1, pos, h => by
    rw [scan] at h
    exact exists_rule_of_mem h
  | c :: s, before, 0, pos, h => by
    rw [scan] at h
    split at h
    · next kind n htoken =>
      rcases List.mem_cons.1 h with rfl | h
      · obtain ⟨r, hr, hkind, hmatches⟩ := exists_rule_of_token? htoken
        exact ⟨r, hr, by rw [hkind], by rwa [String.toList_ofList]⟩
      · exact exists_rule_of_mem h
    · exact exists_rule_of_mem h

end Lexicon

theorem Lexicon.kindOf_of_ne {lx : Lexicon} {found kind : Kind} {lexeme : String} (h : kind = lx.kindOf found lexeme)
    (hk : kind ≠ .keyword) : found = kind := by
  rw [kindOf] at h
  split at h
  · exact absurd h hk
  · exact h.symm

def isNumeral (s : String) : Bool := !s.toList.isEmpty && s.toList.all Char.isDigit

theorem number_rule [Text.WordClass] : ∀ r ∈ lexicon.rules, r.kind = .number →
    r.pattern = (Pattern.seq (.one Char.isDigit) (.many Char.isDigit)).asWord := by
  simp [lexicon]

theorem identifier_rule [Text.WordClass] : ∀ r ∈ lexicon.rules, r.kind = .identifier →
    r.pattern = (Pattern.seq (.one isLetter) (.many fun c => isLetter c || c.isDigit)).asWord := by
  simp [lexicon]

theorem le_toNat_of_isAlpha {c : Char} (h : c.isAlpha = true) : 'A'.toNat ≤ c.toNat := by
  have hcase : (c.isUpper || c.isLower) = true := h
  rcases Bool.or_eq_true_iff.1 hcase with h | h
  · have hval : 'A'.val ≤ c.val ∧ c.val ≤ 'Z'.val := of_decide_eq_true h
    exact UInt32.le_iff_toNat_le.1 hval.1
  · have hval : 'a'.val ≤ c.val := of_decide_eq_true (Bool.and_eq_true_iff.1 h).1
    exact Nat.le_trans (by decide) (UInt32.le_iff_toNat_le.1 hval)

theorem isDigit_of_isLetter {c : Char} (h : isLetter c = true) : c.isDigit = false := by
  rw [isLetter, Bool.or_eq_true] at h
  rcases h with h | h
  · rw [Bool.eq_false_iff]
    intro hd
    have hupper := le_toNat_of_isAlpha h
    have hdigit := (Char.isDigit_iff_toNat.1 hd).2
    exact absurd (Nat.le_trans hupper hdigit) (by decide)
  · rw [beq_iff_eq] at h
    subst h
    rfl

section

variable [Text.WordClass]

/-- **A number holds digits only.** -/
theorem isNumeral_of_mem {text : String} {t : Token} (ht : t ∈ tokenize text) (hk : t.kind = .number) :
    isNumeral t.lexeme = true := by
  obtain ⟨r, hr, hkind, hmatches⟩ := Lexicon.exists_rule_of_mem ht
  rw [number_rule r hr (Lexicon.kindOf_of_ne (hk.symm.trans hkind) (by decide))] at hmatches
  obtain ⟨_, w, hw, ⟨c, rfl, hc⟩, hmany⟩ := Pattern.matches_asWord hmatches
  have hdigits : ∀ c ∈ w, c.isDigit = true := hmany
  simpa [isNumeral, hw, hc] using hdigits

/-- **A name starts with a letter**, so it is no number. -/
theorem not_isNumeral_of_mem {text : String} {t : Token} (ht : t ∈ tokenize text) (hk : t.kind = .identifier) :
    isNumeral t.lexeme = false := by
  obtain ⟨r, hr, hkind, hmatches⟩ := Lexicon.exists_rule_of_mem ht
  rw [identifier_rule r hr (Lexicon.kindOf_of_ne (hk.symm.trans hkind) (by decide))] at hmatches
  obtain ⟨_, w, hw, ⟨c, rfl, hc⟩, -⟩ := Pattern.matches_asWord hmatches
  simp [isNumeral, hw, isDigit_of_isLetter hc]

end

end MiniLang
