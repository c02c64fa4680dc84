import MiniLang.Proofs.Token.Segment
/-!
# Tokenization

The lexicon of MiniLang reads segments (`lexicon_segmental`): its words are runs, its marks are no word characters, and
the only texts of two rules are the reserved words, which are keywords either way.  So a text is read by cutting it into
its segments and taking those that are tokens (`tokenize_eq_segments`).
-/
namespace MiniLang

open Text (isWordChar WordClass)

/-! ## Characters -/

theorem isWordChar_of_isDigit [WordClass] {c : Char} (h : c.isDigit = true) : isWordChar c = true := by
  refine WordClass.word c (.inl ?_)
  rw [Char.isAlphanum, h, Bool.or_true]

theorem isWordChar_of_isLetter [WordClass] {c : Char} (h : isLetter c = true) : isWordChar c = true := by
  rw [isLetter, Bool.or_eq_true, beq_iff_eq] at h
  refine WordClass.word c (h.imp_left fun h => ?_)
  rw [Char.isAlphanum, h, Bool.true_or]

theorem markKind?_ne_identifier (c : Char) : markKind? c ≠ some .identifier := by
  unfold markKind?
  split <;> decide

theorem isWordChar_of_markKind? [WordClass] {c : Char} {kind : Kind} (h : markKind? c = some kind) :
    isWordChar c = false := by
  unfold markKind? at h
  split at h
  case h_13 => cases h
  all_goals exact WordClass.other _ (by decide) (by decide)

/-! ## The texts of the rules -/

namespace Pattern

theorem matches_text {s w : List Char} : (text s).Matches w ↔ w = s := by
  induction s generalizing w with
  | nil => exact Iff.rfl
  | cons c s ih =>
    constructor
    · rintro ⟨_, v, rfl, ⟨d, rfl, hd⟩, hv⟩
      have hv' : v = s := ih.1 hv
      rw [hv', beq_iff_eq.1 hd]
      rfl
    · rintro rfl
      exact ⟨[c], s, rfl, ⟨c, rfl, beq_self_eq_true c⟩, ih.2 rfl⟩

theorem matches_anyOf {ws : List String} {w : List Char} : (anyOf ws).Matches w ↔ ∃ v ∈ ws, w = v.toList := by
  induction ws with
  | nil =>
    constructor
    · rintro ⟨c, -, hc⟩
      cases hc
    · rintro ⟨v, hv, -⟩
      cases hv
  | cons v ws ih =>
    have hcons : (anyOf (v :: ws)).Matches w ↔ (text v.toList).Matches w ∨ (anyOf ws).Matches w := Iff.rfl
    rw [hcons, matches_text, ih]
    simp

theorem isPlain_text (s : List Char) : (text s).isPlain = true := by
  induction s with
  | nil => rfl
  | cons c s ih => exact ih

theorem isPlain_anyOf (ws : List String) : (anyOf ws).isPlain = true := by
  induction ws with
  | nil => rfl
  | cons w ws ih =>
    have hcons : (anyOf (w :: ws)).isPlain = ((text w.toList).isPlain && (anyOf ws).isPlain) := rfl
    rw [hcons, isPlain_text, ih]
    rfl

theorem matches_keyword [WordClass] {w : List Char} :
    (anyOf (Keyword.all.map (·.word))).asWord.Matches w ↔ ∃ k : Keyword, w = k.word.toList := by
  rw [matches_asWord_iff, matches_anyOf]
  constructor
  · rintro ⟨v, hv, rfl⟩
    obtain ⟨k, -, rfl⟩ := List.mem_map.1 hv
    exact ⟨k, rfl⟩
  · rintro ⟨k, rfl⟩
    refine ⟨k.word, List.mem_map.2 ⟨k, ?_, rfl⟩, rfl⟩
    cases k <;> decide

theorem matches_class {p q : Char → Bool} {w : List Char} :
    (seq (one p) (many q)).Matches w ↔ ∃ c v, w = c :: v ∧ p c = true ∧ ∀ d ∈ v, q d = true := by
  constructor
  · rintro ⟨_, v, rfl, ⟨c, rfl, hc⟩, hv⟩
    exact ⟨c, v, rfl, hc, hv⟩
  · rintro ⟨c, v, rfl, hc, hv⟩
    exact ⟨[c], v, rfl, ⟨c, rfl, hc⟩, hv⟩

theorem matches_name [WordClass] {w : List Char} :
    (seq (one isLetter) (many fun c => isLetter c || c.isDigit)).asWord.Matches w ↔ isNameShaped w = true := by
  rw [matches_asWord_iff, matches_class]
  cases w <;> simp [isNameShaped]

theorem matches_number [WordClass] {w : List Char} :
    (seq (one Char.isDigit) (many Char.isDigit)).asWord.Matches w ↔ isNumeral (String.ofList w) = true := by
  rw [matches_asWord_iff, matches_class]
  cases w <;> simp [isNumeral]

end Pattern

/-! ## The kinds of segments -/

theorem isNameShaped_word (k : Keyword) : isNameShaped k.word.toList = true := by
  cases k <;> decide

theorem isWordChar_of_isNameShaped [WordClass] {w : List Char} (h : isNameShaped w = true) :
    w ≠ [] ∧ ∀ c ∈ w, isWordChar c = true := by
  cases w with
  | nil => cases h
  | cons c w =>
    obtain ⟨hc, hw⟩ := Bool.and_eq_true_iff.1 h
    refine ⟨List.cons_ne_nil c w, List.forall_mem_cons.2 ⟨isWordChar_of_isLetter hc, fun d hd => ?_⟩⟩
    rcases Bool.or_eq_true_iff.1 (List.all_eq_true.1 hw d hd) with h | h
    · exact isWordChar_of_isLetter h
    · exact isWordChar_of_isDigit h

theorem isReserved_word (k : Keyword) : isReserved k.word = true := by
  cases k <;> decide

theorem isNameShaped_of_isNumeral {w : List Char} (h : isNumeral (String.ofList w) = true) : isNameShaped w = false := by
  cases w with
  | nil => rfl
  | cons c w =>
    have hc : c.isDigit = true := by
      simp only [isNumeral, String.toList_ofList, List.all_cons, Bool.and_eq_true] at h
      exact h.2.1
    have hletter : isLetter c = false := by
      rw [Bool.eq_false_iff]
      intro hl
      rw [isDigit_of_isLetter hl] at hc
      cases hc
    rw [isNameShaped, hletter]
    rfl

theorem segmentKind?_name {w : List Char} (h : isNameShaped w = true) :
    segmentKind? w = some (if isReserved (String.ofList w) then .keyword else .identifier) := by
  unfold segmentKind?
  rw [if_pos h]

theorem segmentKind?_number {w : List Char} (h : isNumeral (String.ofList w) = true) :
    segmentKind? w = some .number := by
  unfold segmentKind?
  rw [isNameShaped_of_isNumeral h, if_pos h]
  rfl

theorem segmentKind?_mark {c : Char} {kind : Kind} (h : markKind? c = some kind) : segmentKind? [c] = some kind := by
  have hword := isWordChar_of_markKind? h
  have hletter : isLetter c = false := by
    rw [Bool.eq_false_iff]
    intro hl
    rw [isWordChar_of_isLetter hl] at hword
    cases hword
  have hdigit : c.isDigit = false := by
    rw [Bool.eq_false_iff]
    intro hd
    rw [isWordChar_of_isDigit hd] at hword
    cases hword
  simp [segmentKind?, isNameShaped, isNumeral, hletter, hdigit, h]

/-! ## The lexicon -/

section

variable [WordClass]

/-- A rule is for the reserved words, for names, for numbers, or for the marks of one kind. -/
theorem lexicon_rule {r : Rule} (h : r ∈ lexicon.rules) :
    (r.kind = .keyword ∧ r.pattern = (Pattern.anyOf (Keyword.all.map (·.word))).asWord) ∨
    (r.kind = .identifier ∧
      r.pattern = (Pattern.seq (.one isLetter) (.many fun c => isLetter c || c.isDigit)).asWord) ∨
    (r.kind = .number ∧ r.pattern = (Pattern.seq (.one Char.isDigit) (.many Char.isDigit)).asWord) ∨
    ∃ q, r.pattern = .one q ∧ ∀ c, q c = true → markKind? c = some r.kind := by
  simp only [lexicon, List.mem_cons, List.not_mem_nil, or_false] at h
  rcases h with rfl | rfl | rfl | rfl | rfl | rfl | rfl | rfl | rfl | rfl | rfl
  · exact .inl ⟨rfl, rfl⟩
  · exact .inr (.inl ⟨rfl, rfl⟩)
  · exact .inr (.inr (.inl ⟨rfl, rfl⟩))
  all_goals
    refine .inr (.inr (.inr ⟨_, rfl, fun c hc => ?_⟩))
    simp only [Bool.or_eq_true, beq_iff_eq] at hc
    rcases hc with ((rfl | rfl) | rfl) | rfl <;> rfl

theorem exists_mark_rule {c : Char} {kind : Kind} (h : markKind? c = some kind) :
    ∃ r ∈ lexicon.rules, r.pattern.Matches [c] := by
  unfold markKind? at h
  split at h
  case h_13 => cases h
  all_goals simp [lexicon, Pattern.char, Pattern.Matches]

theorem exists_lexicon_rule {w : List Char} {kind : Kind} (h : segmentKind? w = some kind) :
    ∃ r ∈ lexicon.rules, r.pattern.Matches w := by
  unfold segmentKind? at h
  split at h
  · next hname => exact ⟨_, .tail _ (.head _), Pattern.matches_name.2 hname⟩
  · split at h
    · next hnumber => exact ⟨_, .tail _ (.tail _ (.head _)), Pattern.matches_number.2 hnumber⟩
    · split at h
      · exact exists_mark_rule h
      · cases h

/-- **The lexicon reads segments.** -/
theorem lexicon_segmental : lexicon.Segmental where
  whole r hr := by
    rcases lexicon_rule hr with ⟨-, hp⟩ | ⟨-, hp⟩ | ⟨-, hp⟩ | ⟨q, hp, hq⟩
    · rw [hp]
      refine Pattern.whole_asWord (Pattern.isPlain_anyOf _) (fun w hw => ?_)
      obtain ⟨k, rfl⟩ := Pattern.matches_keyword.1 (Pattern.matches_asWord_iff.2 hw)
      exact isWordChar_of_isNameShaped (isNameShaped_word k)
    · rw [hp]
      refine Pattern.whole_asWord rfl (fun w hw => ?_)
      exact isWordChar_of_isNameShaped (Pattern.matches_name.1 (Pattern.matches_asWord_iff.2 hw))
    · rw [hp]
      refine Pattern.whole_asWord rfl (fun w hw => ?_)
      obtain ⟨c, v, rfl, hc, hv⟩ := Pattern.matches_class.1 hw
      refine ⟨List.cons_ne_nil c v, List.forall_mem_cons.2 ⟨isWordChar_of_isDigit hc, fun d hd => ?_⟩⟩
      exact isWordChar_of_isDigit (hv d hd)
    · rw [hp]
      exact Pattern.whole_one (fun c hc => isWordChar_of_markKind? (hq c hc))
  kind_eq r hr w hw := by
    rcases lexicon_rule hr with ⟨hk, hp⟩ | ⟨hk, hp⟩ | ⟨hk, hp⟩ | ⟨q, hp, hq⟩
    · rw [hp] at hw
      obtain ⟨k, rfl⟩ := Pattern.matches_keyword.1 hw
      rw [hk, segmentKind?_name (isNameShaped_word k), String.ofList_toList, if_pos (isReserved_word k)]
      rfl
    · rw [hp, Pattern.matches_name] at hw
      rw [hk, segmentKind?_name hw]
      rfl
    · rw [hp, Pattern.matches_number] at hw
      rw [hk, segmentKind?_number hw]
      rfl
    · rw [hp] at hw
      obtain ⟨c, rfl, hc⟩ := hw
      have hne : r.kind ≠ .identifier := by
        intro hk
        exact markKind?_ne_identifier c (hk ▸ hq c hc)
      rw [segmentKind?_mark (hq c hc), Lexicon.kindOf, beq_false_of_ne hne, Bool.and_false, Bool.false_and]
      rfl
  exists_rule w kind h := exists_lexicon_rule h

omit [WordClass] in
theorem map_tokensAt : ∀ (ws : List (List Char)) (pos : Position), (tokensAt pos ws).map (fun t => (t.kind, t.lexeme)) =
    ws.filterMap fun w => (segmentKind? w).map (·, String.ofList w)
  | [], _ => rfl
  | w :: ws, pos => by
    rw [tokensAt, List.map_append, map_tokensAt ws, List.filterMap_cons, tokenAt?]
    cases segmentKind? w <;> rfl

/-- **Reading a text is cutting it**: its tokens are, from left to right, those of its maximal runs of word characters and
of its single other characters.  A run of letters and digits that starts with a letter is a keyword if it is reserved and
else a name, a run of digits is a number, a mark is a token of its kind, and all else is passed over. -/
theorem tokenize_eq_segments (text : String) :
    (∀ ws, Cut text.toList ws ↔ ws = segments text.toList) ∧
      (tokenize text).map (fun t => (t.kind, t.lexeme)) =
        (segments text.toList).filterMap fun w => (segmentKind? w).map (·, String.ofList w) := by
  refine ⟨fun ws => cut_iff, ?_⟩
  rw [tokenize, lexicon_segmental.tokens_eq]
  exact map_tokensAt _ _

end

example : (segments "int iffy;1٣ #x2".toList).filterMap (fun w => (segmentKind? w).map (·, String.ofList w)) =
    [(.keyword, "int"), (.identifier, "iffy"), (.semicolon, ";"), (.identifier, "x2")] := by decide +kernel

end MiniLang
