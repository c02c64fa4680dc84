import MiniLang.Proofs.Token.Placement
/-!
# Layout

Reading undoes printing, whatever stands between the lexemes: gaps of characters that are no part of a token, or nothing
at all, where at least one of two neighbours is a mark (`tokenize_layout`).  In any such layout a lexeme is a segment of
the text (`Kind.Spells.segment`), and a gap is passed over.
-/
namespace MiniLang

open Text (isWordChar WordClass)

namespace Kind

/-- The lexemes of a kind. -/
def Spells : Kind → List Char → Prop
  | keyword, w => ∃ k : Keyword, w = k.word.toList
  | identifier, w => isNameShaped w = true ∧ isReserved (String.ofList w) = false
  | number, w => isNumeral (String.ofList w) = true
  | assign, w => w = ['=']
  | operator, w => w = ['+'] ∨ w = ['-'] ∨ w = ['*'] ∨ w = ['/']
  | comparator, w => w = ['<'] ∨ w = ['>']
  | semicolon, w => w = [';']
  | leftParen, w => w = ['(']
  | rightParen, w => w = [')']
  | leftBrace, w => w = ['\x7b']
  | rightBrace, w => w = ['\x7d']

/-- Whether the lexemes are runs of word characters; the others are single marks. -/
def isWord : Kind → Bool
  | keyword | identifier | number => true
  | _ => false

end Kind

def marks : List Char := "=;+-*/<>()\x7b\x7d".toList

section

variable [WordClass]

/-- A character that belongs to no token, whatever stands around it. -/
def isGap (c : Char) : Bool := !isWordChar c && !marks.contains c

/-- A lexeme of its kind, and the gap behind it. -/
structure Written where
  kind : Kind
  lexeme : String
  gap : String
  spells : kind.Spells lexeme.toList
  isGap_gap : gap.toList.all isGap = true

namespace Written

def text (w : Written) : String := w.lexeme ++ w.gap

/-- Two words do not touch. -/
def Parted (v w : Written) : Prop := v.kind.isWord = true → w.kind.isWord = true → v.gap ≠ ""

end Written

end

/-! ## Lexemes are segments -/

theorem isReserved_iff {s : String} : isReserved s = true ↔ ∃ k : Keyword, s = k.word := by
  constructor
  · intro h
    obtain ⟨k, hk⟩ := Option.isSome_iff_exists.1 h
    have hword := List.find?_some hk
    exact ⟨k, (beq_iff_eq.1 hword).symm⟩
  · rintro ⟨k, rfl⟩
    exact isReserved_word k

/-- **The segments of a kind are its lexemes.** -/
theorem segmentKind?_eq_some {w : List Char} {kind : Kind} : segmentKind? w = some kind ↔ kind.Spells w := by
  constructor
  · intro h
    unfold segmentKind? at h
    split at h
    · next hname =>
      obtain rfl := Option.some.inj h
      cases hr : isReserved (String.ofList w) with
      | true =>
        obtain ⟨k, hk⟩ := isReserved_iff.1 hr
        exact ⟨k, by rw [← hk, String.toList_ofList]⟩
      | false => exact ⟨hname, hr⟩
    · split at h
      · next hnumber =>
        obtain rfl := Option.some.inj h
        exact hnumber
      · split at h
        · unfold markKind? at h
          split at h
          case h_13 => cases h
          all_goals
            obtain rfl := Option.some.inj h
            simp [Kind.Spells]
        · cases h
  · intro h
    cases kind with
    | keyword =>
      obtain ⟨k, rfl⟩ := h
      rw [segmentKind?_name (isNameShaped_word k), String.ofList_toList, if_pos (isReserved_word k)]
    | identifier =>
      rw [segmentKind?_name h.1, h.2]
      rfl
    | number => exact segmentKind?_number h
    | operator => rcases h with rfl | rfl | rfl | rfl <;> exact segmentKind?_mark rfl
    | comparator => rcases h with rfl | rfl <;> exact segmentKind?_mark rfl
    | _ =>
      obtain rfl := h
      exact segmentKind?_mark rfl

theorem isWordChar_of_mem_marks [WordClass] {c : Char} (h : c ∈ marks) : isWordChar c = false := by
  have hall : marks.all (fun c => c.val < 0x80 && !(c.isAlphanum || c == '_')) = true := by decide
  obtain ⟨hlt, hother⟩ := Bool.and_eq_true_iff.1 (List.all_eq_true.1 hall c h)
  exact WordClass.other c (of_decide_eq_true hlt) (by simpa using hother)

namespace Kind.Spells

variable {kind : Kind} {w : List Char}

theorem word [WordClass] (h : kind.Spells w) (hk : kind.isWord = true) : w ≠ [] ∧ ∀ c ∈ w, isWordChar c = true := by
  cases kind with
  | keyword =>
    obtain ⟨k, rfl⟩ := h
    exact isWordChar_of_isNameShaped (isNameShaped_word k)
  | identifier => exact isWordChar_of_isNameShaped h.1
  | number =>
    obtain ⟨hne, hdigits⟩ : w ≠ [] ∧ ∀ c ∈ w, c.isDigit = true := by simpa [Kind.Spells, isNumeral] using h
    exact ⟨hne, fun c hc => isWordChar_of_isDigit (hdigits c hc)⟩
  | _ => cases hk

theorem mark (h : kind.Spells w) (hk : kind.isWord = false) : ∃ c ∈ marks, w = [c] := by
  cases kind with
  | keyword | identifier | number => cases hk
  | operator => rcases h with rfl | rfl | rfl | rfl <;> exact ⟨_, by decide, rfl⟩
  | comparator => rcases h with rfl | rfl <;> exact ⟨_, by decide, rfl⟩
  | _ => exact ⟨_, by decide, h⟩

/-- **A lexeme is a segment** where no word touches it, if it is one. -/
theorem segment [WordClass] (h : kind.Spells w) {s : List Char} (hs : kind.isWord = true → s.head?.any isWordChar = false) :
    Segment w s := by
  cases hk : kind.isWord with
  | true =>
    obtain ⟨hne, hw⟩ := h.word hk
    exact .run hne hw (hs hk)
  | false =>
    obtain ⟨c, hc, rfl⟩ := h.mark hk
    exact .other (isWordChar_of_mem_marks hc)

end Kind.Spells

/-! ## What is read of a text -/

section

variable [WordClass]

theorem isWordChar_of_isGap {c : Char} (h : isGap c = true) : isWordChar c = false := by
  simpa using (Bool.and_eq_true_iff.1 h).1

theorem isGap_space : isGap ' ' = true := by
  have hspace : isWordChar ' ' = false := WordClass.other ' ' (by decide) (by decide)
  rw [isGap, hspace]
  decide

theorem segmentKind?_gap {c : Char} (h : isGap c = true) : segmentKind? [c] = none := by
  have hmark : c ∉ marks := by simpa using (Bool.and_eq_true_iff.1 h).2
  refine Option.eq_none_iff_forall_ne_some.2 (fun kind hkind => ?_)
  have hspells := segmentKind?_eq_some.1 hkind
  cases hk : kind.isWord with
  | true =>
    have hword := (hspells.word hk).2 c List.mem_cons_self
    rw [isWordChar_of_isGap h] at hword
    cases hword
  | false =>
    obtain ⟨d, hd, hcd⟩ := hspells.mark hk
    obtain rfl := (List.cons.inj hcd).1
    exact hmark hd

/-- The kinds and lexemes of a text, by its segments. -/
def readings (text : List Char) : List (Kind × String) :=
  (segments text).filterMap fun w => (segmentKind? w).map (·, String.ofList w)

theorem map_tokenize (text : String) : (tokenize text).map (fun t => (t.kind, t.lexeme)) = readings text.toList := by
  rw [tokenize, lexicon_segmental.tokens_eq]
  exact map_tokensAt _ _

theorem readings_segment {w s : List Char} (h : Segment w s) :
    readings (w ++ s) = ((segmentKind? w).map (·, String.ofList w)).toList ++ readings s := by
  rw [readings, h.segments_eq, List.filterMap_cons]
  cases segmentKind? w <;> rfl

/-- A gap is passed over. -/
theorem readings_gap {s : List Char} : ∀ {g : List Char}, g.all isGap = true → readings (g ++ s) = readings s
  | [], _ => rfl
  | c :: g, h => by
    obtain ⟨hc, hg⟩ := Bool.and_eq_true_iff.1 h
    have hfirst : readings ([c] ++ (g ++ s)) = readings (g ++ s) := by
      rw [readings_segment (.other (isWordChar_of_isGap hc)), segmentKind?_gap hc]
      rfl
    exact hfirst.trans (readings_gap hg)

namespace Written

theorem toList_text_append (w : Written) (s : List Char) :
    w.text.toList ++ s = w.lexeme.toList ++ (w.gap.toList ++ s) := by
  rw [text, String.toList_append, List.append_assoc]

theorem toList_join_cons (w : Written) (ws : List Written) :
    (String.join ((w :: ws).map text)).toList = w.text.toList ++ (String.join (ws.map text)).toList := by
  rw [List.map_cons, String.join_cons, String.toList_append]

/-- What is written behind a word does not go on with it. -/
theorem head?_behind {w : Written} {ws : List Written} (h : (w :: ws).IsChain Parted) (hk : w.kind.isWord = true) :
    (w.gap.toList ++ (String.join (ws.map text)).toList).head?.any isWordChar = false := by
  cases hg : w.gap.toList with
  | cons c g =>
    have hc : c ∈ w.gap.toList := by
      rw [hg]
      exact List.mem_cons_self
    exact isWordChar_of_isGap (List.all_eq_true.1 w.isGap_gap c hc)
  | nil =>
    cases ws with
    | nil => rfl
    | cons v ws =>
      have hv : v.kind.isWord = false := by
        rw [Bool.eq_false_iff]
        exact fun hv => (List.isChain_cons_cons.1 h).1 hk hv (String.toList_eq_nil_iff.1 hg)
      obtain ⟨c, hc, hlexeme⟩ := v.spells.mark hv
      rw [List.nil_append, toList_join_cons, toList_text_append, hlexeme]
      exact isWordChar_of_mem_marks hc

theorem readings_join : ∀ {ws : List Written}, ws.IsChain Parted →
    readings (String.join (ws.map text)).toList = ws.map fun w => (w.kind, w.lexeme)
  | [], _ => rfl
  | w :: ws, h => by
    have hrest : readings (String.join (ws.map text)).toList = ws.map fun w => (w.kind, w.lexeme) :=
      readings_join h.tail
    have hkind := segmentKind?_eq_some.2 w.spells
    rw [toList_join_cons, toList_text_append, readings_segment (w.spells.segment (head?_behind h)), hkind,
      String.ofList_toList, readings_gap w.isGap_gap, hrest]
    rfl

/-- Lexemes that are parted by single spaces. -/
theorem exists_intercalate : ∀ {ts : List Token}, (∀ t ∈ ts, t.kind.Spells t.lexeme.toList) →
    ∃ ws : List Written, ws.IsChain Parted ∧ String.join (ws.map text) = " ".intercalate (ts.map Token.lexeme) ∧
      (ws.map fun w => (w.kind, w.lexeme)) = ts.map fun t => (t.kind, t.lexeme)
  | [], _ => ⟨[], .nil, rfl, rfl⟩
  | [t], h => by
    let w : Written := ⟨t.kind, t.lexeme, "", h t List.mem_cons_self, by simp⟩
    exact ⟨[w], .singleton w, by simp [text, w], rfl⟩
  | t :: u :: ts, h => by
    obtain ⟨ht, hts⟩ := List.forall_mem_cons.1 h
    obtain ⟨ws, hparted, htext, hread⟩ := exists_intercalate hts
    let w : Written := ⟨t.kind, t.lexeme, " ", ht, by simp [isGap_space]⟩
    have hspace : " " ≠ "" := by decide
    have hmap : (t :: u :: ts).map Token.lexeme = t.lexeme :: u.lexeme :: ts.map Token.lexeme := rfl
    refine ⟨w :: ws, List.isChain_cons.2 ⟨fun v _ _ _ => hspace, hparted⟩, ?_, ?_⟩
    · rw [List.map_cons, String.join_cons, htext, hmap, String.intercalate_cons_cons]
      rfl
    · rw [List.map_cons, hread]
      rfl

end Written

/-- **Reading undoes printing with any layout**: of lexemes with gaps in front, between and behind, where two words do
not touch, exactly these lexemes are read, each as what it was written as.  So to print the lexemes of a text with single
spaces and to read them again changes nothing. -/
theorem tokenize_layout :
    (∀ (lead : String) (ws : List Written), lead.toList.all isGap = true → ws.IsChain Written.Parted →
      (tokenize (lead ++ String.join (ws.map Written.text))).map (fun t => (t.kind, t.lexeme)) =
        ws.map fun w => (w.kind, w.lexeme)) ∧
      ∀ text : String, (tokenize (" ".intercalate ((tokenize text).map Token.lexeme))).map (fun t => (t.kind, t.lexeme)) =
        (tokenize text).map fun t => (t.kind, t.lexeme) := by
  constructor
  · intro lead ws hlead hparted
    rw [map_tokenize, String.toList_append, readings_gap hlead, Written.readings_join hparted]
  · intro text
    have hspells : ∀ t ∈ tokenize text, t.kind.Spells t.lexeme.toList := by
      intro t ht
      obtain ⟨_, _, -, -, hkind⟩ := exists_of_mem_tokenize ht
      exact segmentKind?_eq_some.1 hkind
    obtain ⟨ws, hparted, htext, hread⟩ := Written.exists_intercalate hspells
    rw [map_tokenize, ← htext, Written.readings_join hparted, hread]

end

/-- `int`, `iffy`, `=`, `12`, `<` and `x` with a no-break space in front, a tab and a sharp sign behind `int`, nothing
around the marks and an arrow at the end. -/
theorem layout_glued :
    ∃ ws : List Written, ws.IsChain Written.Parted ∧
      "\u00a0" ++ String.join (ws.map Written.text) = "\u00a0int\t#iffy=12<x→\n" ∧
      (tokenize "\u00a0int\t#iffy=12<x→\n").map (fun t => (t.kind, t.lexeme)) =
        [(.keyword, "int"), (.identifier, "iffy"), (.assign, "="), (.number, "12"), (.comparator, "<"),
          (.identifier, "x")] := by
  let ws : List Written :=
    [⟨.keyword, "int", "\t#", ⟨.intWord, rfl⟩, by decide⟩, ⟨.identifier, "iffy", "", ⟨by decide, by decide⟩, by decide⟩,
      ⟨.assign, "=", "", rfl, by decide⟩, ⟨.number, "12", "", rfl, by decide⟩,
      ⟨.comparator, "<", "", .inl rfl, by decide⟩, ⟨.identifier, "x", "→\n", ⟨by decide, by decide⟩, by decide +kernel⟩]
  have hparted : ws.IsChain Written.Parted := by
    simp [ws, Written.Parted, Kind.isWord]
  have htext : "\u00a0" ++ String.join (ws.map Written.text) = "\u00a0int\t#iffy=12<x→\n" := by decide +kernel
  have hread := tokenize_layout.1 "\u00a0" ws (by decide +kernel) hparted
  rw [htext] at hread
  exact ⟨ws, hparted, htext, hread⟩

end MiniLang
