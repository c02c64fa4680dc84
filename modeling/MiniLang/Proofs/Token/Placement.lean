import MiniLang.Proofs.Text.Lines
import MiniLang.Proofs.Token.Tokenization
/-!
# Where tokens stand

The position of a token is the one behind the text in front of it (`exists_of_mem_tokenize`).  Positions and lines count
apart: a position goes on character by character, and the lines are those that are shown.  They agree on what holds no
line feed and does not end in a carriage return (`stands_in_line`), as no token does.
-/
namespace MiniLang

namespace Position

variable {p : Position} {w : List Char}

theorem behind_append (v : List Char) : p.behind (v ++ w) = (p.behind v).behind w := List.foldl_append

theorem behind_of_not_mem (h : '\n' ∉ w) : p.behind w = ⟨p.line, p.col + w.length⟩ := by
  induction w generalizing p with
  | nil => rfl
  | cons c w ih =>
    rw [List.mem_cons, not_or] at h
    have hafter : p.after c = ⟨p.line, p.col + 1⟩ := if_neg (Ne.symm h.1)
    have hcons : p.behind (c :: w) = (p.after c).behind w := rfl
    rw [hcons, hafter, ih h.2, List.length_cons, Nat.add_assoc, Nat.add_comm 1]

theorem line_behind : (p.behind w).line = p.line + w.count '\n' := by
  induction w generalizing p with
  | nil => rfl
  | cons c w ih =>
    have hcons : p.behind (c :: w) = (p.after c).behind w := rfl
    rw [hcons, ih, after]
    by_cases hc : c = '\n'
    · simp [hc]
      omega
    · simp [hc]

theorem behind_newline : p.behind (w ++ ['\n']) = ⟨p.line + w.count '\n' + 1, 1⟩ := by
  rw [behind_append, ← line_behind]
  rfl

theorem one_le_col_behind (hp : 1 ≤ p.col) : 1 ≤ (p.behind w).col := by
  induction w generalizing p with
  | nil => exact hp
  | cons c w ih =>
    refine ih ?_
    unfold after
    split <;> simp

end Position

theorem exists_last_newline {s : List Char} (h : '\n' ∈ s) : ∃ a b, s = a ++ '\n' :: b ∧ '\n' ∉ b := by
  obtain ⟨b, a, hs, hb⟩ := List.eq_append_cons_of_mem (List.mem_reverse.2 h)
  refine ⟨a.reverse, b.reverse, ?_, fun hmem => hb (List.mem_reverse.1 hmem)⟩
  rw [← List.reverse_reverse s, hs]
  simp

/-- **What stands in one line is found where its position says**, among the lines of the whole text. -/
theorem stands_in_line {text : String} {pre w post : List Char} (htext : text.toList = pre ++ (w ++ post)) (hw : w ≠ [])
    (hn : '\n' ∉ w) (hr : w.getLast? ≠ some '\r') :
    ∃ l, Text.line? text (Position.start.behind pre).line = some l ∧
      w <+: l.drop ((Position.start.behind pre).col - 1) := by
  have hfirst : ∀ b, '\n' ∉ b → ∃ l ls, Text.lines (b ++ (w ++ post)) = l :: ls ∧ w <+: l.drop b.length := by
    intro b hb
    have hbn : '\n' ∉ b ++ w := by simp [hb, hn]
    have hbr : (b ++ w).getLast? ≠ some '\r' := by simpa [List.getLast?_append_of_ne_nil b hw] using hr
    obtain ⟨l, ls, hls, hl⟩ := Text.first_line (s := post) (List.append_ne_nil_of_right_ne_nil b hw) hbn hbr
    refine ⟨l, ls, by rw [← List.append_assoc, hls], ?_⟩
    have hdrop := hl.drop b.length
    rwa [List.drop_left] at hdrop
  by_cases hpre : '\n' ∈ pre
  · obtain ⟨a, b, rfl, hb⟩ := exists_last_newline hpre
    have hsplit : a ++ '\n' :: b = (a ++ ['\n']) ++ b := by simp
    have hpos : Position.start.behind (a ++ '\n' :: b) = ⟨(Text.lines (a ++ ['\n'])).length + 1, b.length + 1⟩ := by
      rw [hsplit, Position.behind_append, Position.behind_newline, Position.behind_of_not_mem hb,
        (Text.lines_append a []).2, Nat.add_comm b.length, Position.start, Nat.add_comm 1]
    obtain ⟨l, ls, hls, hl⟩ := hfirst b hb
    refine ⟨l, ?_, by rwa [hpos]⟩
    rw [hpos, Text.line?, htext, List.append_assoc, List.cons_append, (Text.lines_append a _).1, hls]
    simp
  · have hpos : Position.start.behind pre = ⟨1, pre.length + 1⟩ := by
      rw [Position.behind_of_not_mem hpre, Nat.add_comm pre.length]
      rfl
    obtain ⟨l, ls, hls, hl⟩ := hfirst pre hpre
    refine ⟨l, ?_, by rwa [hpos]⟩
    rw [hpos, Text.line?, htext, hls]
    rfl

/-! ## Tokens -/

theorem ne_break_of_isWordChar [Text.WordClass] {c : Char} (h : Text.isWordChar c = true) : c ≠ '\n' ∧ c ≠ '\r' := by
  have hascii {d : Char} (hlt : d.val < 0x80) (hd : ¬ (d.isAlphanum = true ∨ d = '_')) : c ≠ d := by
    rintro rfl
    exact Bool.false_ne_true ((Text.WordClass.other c hlt hd).symm.trans h)
  exact ⟨hascii (by decide) (by decide), hascii (by decide) (by decide)⟩

theorem ne_break_of_markKind? {c : Char} {kind : Kind} (h : markKind? c = some kind) : c ≠ '\n' ∧ c ≠ '\r' := by
  constructor <;> rintro rfl <;> cases h

/-- A segment that is a token holds nothing that ends a line. -/
theorem ne_break_of_segmentKind? {w : List Char} {kind : Kind} (h : segmentKind? w = some kind) :
    w ≠ [] ∧ ∀ c ∈ w, c ≠ '\n' ∧ c ≠ '\r' := by
  unfold segmentKind? at h
  split at h
  · next hname =>
    obtain ⟨hne, hword⟩ := isWordChar_of_isNameShaped hname
    exact ⟨hne, fun c hc => ne_break_of_isWordChar (hword c hc)⟩
  · split at h
    · next hnumber =>
      obtain ⟨hne, hdigits⟩ : w ≠ [] ∧ ∀ c ∈ w, c.isDigit = true := by simpa [isNumeral] using hnumber
      exact ⟨hne, fun c hc => ne_break_of_isWordChar (isWordChar_of_isDigit (hdigits c hc))⟩
    · split at h
      · next c _ _ => exact ⟨List.cons_ne_nil c [], by simpa using ne_break_of_markKind? h⟩
      · cases h

theorem exists_of_mem_tokensAt {t : Token} : ∀ {ws : List (List Char)} {pos : Position}, t ∈ tokensAt pos ws →
    ∃ vs w us, ws = vs ++ w :: us ∧ tokenAt? (pos.behind vs.flatten) w = some t
  | [], _, h => by cases h
  | w :: ws, pos, h => by
    rcases List.mem_append.1 h with h | h
    · exact ⟨[], w, ws, rfl, Option.mem_toList.1 h⟩
    · obtain ⟨vs, v, us, rfl, hv⟩ := exists_of_mem_tokensAt h
      refine ⟨w :: vs, v, us, rfl, ?_⟩
      rw [List.flatten_cons, Position.behind_append]
      exact hv

section

variable [Text.WordClass]

/-- **The position of a token** is the one behind the text in front of it. -/
theorem exists_of_mem_tokenize {text : String} {t : Token} (h : t ∈ tokenize text) :
    ∃ pre post, text.toList = pre ++ (t.lexeme.toList ++ post) ∧ t.pos = Position.start.behind pre ∧
      segmentKind? t.lexeme.toList = some t.kind := by
  rw [tokenize, lexicon_segmental.tokens_eq] at h
  obtain ⟨vs, w, us, hws, ht⟩ := exists_of_mem_tokensAt h
  obtain ⟨kind, hkind, rfl⟩ := Option.map_eq_some_iff.1 ht
  refine ⟨vs.flatten, us.flatten, ?_, rfl, by rwa [String.toList_ofList]⟩
  have hcut := (cut_iff.2 hws.symm).flatten
  rw [String.toList_ofList, ← hcut]
  simp

theorem newline_not_mem_lexeme {text : String} {t : Token} (h : t ∈ tokenize text) : '\n' ∉ t.lexeme.toList := by
  obtain ⟨_, _, -, -, hkind⟩ := exists_of_mem_tokenize h
  exact fun hmem => ((ne_break_of_segmentKind? hkind).2 _ hmem).1 rfl

/-- **A token stands on the line that its position names**, from its column on. -/
theorem exists_line_of_mem_tokenize {text : String} {t : Token} (h : t ∈ tokenize text) :
    1 ≤ t.pos.col ∧ ∃ l, Text.line? text t.pos.line = some l ∧ t.lexeme.toList <+: l.drop (t.pos.col - 1) := by
  obtain ⟨pre, post, htext, hpos, hkind⟩ := exists_of_mem_tokenize h
  obtain ⟨hne, hbreak⟩ := ne_break_of_segmentKind? hkind
  have hr : t.lexeme.toList.getLast? ≠ some '\r' := fun hlast => (hbreak _ (List.mem_of_getLast? hlast)).2 rfl
  rw [hpos]
  exact ⟨Position.one_le_col_behind (Nat.le_refl 1), stands_in_line htext hne (fun hmem => (hbreak _ hmem).1 rfl) hr⟩

end

end MiniLang
