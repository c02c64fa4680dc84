import MiniLang.Proofs.Diagnostic.Snippet
/-!
# Colors

Colors add escape sequences to what is shown and change nothing else.  Taking the sequences out again (`unpainted`) is
done piece by piece: a painted text unpaints to a plain one if it does so in front of whatever text (`Unpaints`), which
plain texts, texts in one paint and texts with painted quotations do; and the form of a diagnostic is put together of
these (`unpainted_render`).
-/
namespace MiniLang

namespace Text

/-- The length of an escape sequence without its first character, the escape: a bracket, digits and semicolons, and an
`m`. -/
def sequenceLength? : List Char → Option Nat
  | '[' :: s =>
    let code := s.takeWhile fun c => c.isDigit || c == ';'
    if (s.drop code.length).head? = some 'm' then some (code.length + 2) else none
  | _ => none

/-- The text without its escape sequences, where the next `inside` characters belong to one already found. -/
def unpaintedFrom (inside : Nat) : List Char → List Char
  | [] => []
  | c :: s =>
    match inside with
    | n + 1 => unpaintedFrom n s
    | 0 =>
      match if c = '\x1b' then sequenceLength? s else none with
      | some n => unpaintedFrom n s
      | none => c :: unpaintedFrom 0 s

/-- The text without its escape sequences. -/
def unpainted (s : List Char) : List Char := unpaintedFrom 0 s

theorem unpaintedFrom_length : ∀ w s : List Char, unpaintedFrom w.length (w ++ s) = unpainted s
  | [], _ => rfl
  | _ :: w, s => unpaintedFrom_length w s

theorem unpainted_append {w : List Char} (hw : '\x1b' ∉ w) (s : List Char) : unpainted (w ++ s) = w ++ unpainted s := by
  induction w with
  | nil => rfl
  | cons c w ih =>
    rw [List.mem_cons, not_or] at hw
    rw [List.cons_append, List.cons_append, ← ih hw.2, unpainted, unpaintedFrom, if_neg (Ne.symm hw.1)]
    rfl

/-- **A sequence is taken out** from its first character to its last. -/
theorem unpainted_sequence {code : List Char} (hcode : ∀ c ∈ code, (c.isDigit || c == ';') = true) (s : List Char) :
    unpainted ('\x1b' :: '[' :: (code ++ 'm' :: s)) = unpainted s := by
  have htake : (code ++ 'm' :: s).takeWhile (fun c => c.isDigit || c == ';') = code := by
    rw [List.takeWhile_append_of_pos hcode, List.takeWhile_cons_of_neg (by decide), List.append_nil]
  have hlength : sequenceLength? ('[' :: (code ++ 'm' :: s)) = some (code.length + 2) := by
    simp only [sequenceLength?, htake, List.drop_left, List.head?_cons, if_true]
  have hskip : unpaintedFrom (code.length + 2) ('[' :: (code ++ 'm' :: s)) = unpainted s := by
    have h := unpaintedFrom_length ('[' :: (code ++ ['m'])) s
    simpa using h
  rw [unpainted, unpaintedFrom, if_pos rfl, hlength]
  exact hskip

/-- The painted text is the plain one with escape sequences in it, whatever stands behind. -/
def Unpaints (painted plain : String) : Prop :=
  ∀ s, unpainted (painted.toList ++ s) = plain.toList ++ unpainted s

namespace Unpaints

theorem plain {s : String} (h : '\x1b' ∉ s.toList) : Unpaints s s := unpainted_append h

theorem append {a a' b b' : String} (h : Unpaints a b) (h' : Unpaints a' b') : Unpaints (a ++ a') (b ++ b') := by
  intro s
  rw [String.toList_append, String.toList_append, List.append_assoc, h, h', List.append_assoc]

theorem paint (p : Paint) {s : String} (h : '\x1b' ∉ s.toList) : Unpaints (p.on true s) s := by
  intro rest
  have hcode : ∀ c ∈ p.code.toList, (c.isDigit || c == ';') = true := by
    rw [← List.all_eq_true]
    cases p <;> decide
  have hpainted : (p.on true s).toList ++ rest =
      '\x1b' :: '[' :: (p.code.toList ++ 'm' :: (s.toList ++ '\x1b' :: '[' :: (['0'] ++ 'm' :: rest))) := by
    simp [Paint.on]
  have hend : ∀ c ∈ ['0'], (c.isDigit || c == ';') = true := List.all_eq_true.1 rfl
  rw [hpainted, unpainted_sequence hcode, unpainted_append h, unpainted_sequence hend]

-- The induction is on the text, for any text read since an opening mark: it stands in front, painted or not.
theorem paintQuotedFrom : ∀ (quoted : Option (List Char)) {s : List Char}, '\x1b' ∉ quoted.getD [] → '\x1b' ∉ s →
    Unpaints (paintQuotedFrom quoted s) (String.ofList (quoted.getD [] ++ s))
  | quoted, [], hq, _ => by
    rw [Text.paintQuotedFrom, List.append_nil]
    exact plain (by rwa [String.toList_ofList])
  | quoted, c :: s, hq, hs => by
    rw [List.mem_cons, not_or] at hs
    have hnone : '\x1b' ∉ (none : Option (List Char)).getD [] := List.not_mem_nil
    have hmark : Unpaints "'" "'" := plain (by decide)
    cases quoted with
    | none =>
      by_cases hc : c = '\''
      · subst hc
        have hopen := hmark.append (paintQuotedFrom (some []) List.not_mem_nil hs.2)
        simpa [Text.paintQuotedFrom, String.ofList_cons] using hopen
      · have hplain : Unpaints c.toString c.toString := plain (by simpa using hs.1)
        have hrest := hplain.append (paintQuotedFrom none hnone hs.2)
        simpa [Text.paintQuotedFrom, hc, String.ofList_cons] using hrest
    | some q =>
      by_cases hc : c = '\''
      · subst hc
        have hquoted : Unpaints (Paint.boldCyan.on true (String.ofList q)) (String.ofList q) :=
          paint _ (by rwa [String.toList_ofList])
        have hclose := (hquoted.append hmark).append (paintQuotedFrom none hnone hs.2)
        simpa [Text.paintQuotedFrom, String.ofList_cons, String.ofList_append, String.append_assoc] using hclose
      · have hq' : '\x1b' ∉ (some (q ++ [c])).getD [] := by
          simpa using ⟨hq, hs.1⟩
        simpa [Text.paintQuotedFrom, hc] using paintQuotedFrom (some (q ++ [c])) hq' hs.2

end Unpaints

end Text

/-! ## Diagnostics -/

open Text (Unpaints unpainted)

namespace Diagnostic

variable {d : Diagnostic} {source filename : String}

theorem unpaints_highlighted : ∀ {l : List Char} (n : Nat), '\x1b' ∉ l →
    Unpaints (highlighted true n l) (String.ofList l)
  | [], n, _ => by
    have hnil : highlighted true n [] = "" := by cases n <;> rfl
    rw [hnil]
    exact .plain List.not_mem_nil
  | c :: l, 0, h => by
    rw [List.mem_cons, not_or] at h
    have hfirst : Unpaints (Text.Paint.boldCyan.on true c.toString) c.toString := .paint _ (by simpa using h.1)
    have hrest : Unpaints (String.ofList l) (String.ofList l) := .plain (by simpa using h.2)
    simpa [highlighted, String.ofList_cons] using hfirst.append hrest
  | c :: l, n + 1, h => by
    rw [List.mem_cons, not_or] at h
    have hfirst : Unpaints c.toString c.toString := .plain (by simpa using h.1)
    simpa [highlighted, String.ofList_cons] using hfirst.append (unpaints_highlighted n h.2)

theorem unpaints_snippet (h : '\x1b' ∉ source.toList) (pos : Position) :
    Unpaints (snippet source pos true) (snippet source pos false) := by
  unfold snippet
  cases hl : Text.line? source pos.line with
  | none => exact .plain List.not_mem_nil
  | some l =>
    have hline : '\x1b' ∉ l := fun hmem => h (Text.mem_of_mem_line hl hmem)
    have hnumber : Unpaints (padLeft 4 (toString pos.line)) (padLeft 4 (toString pos.line)) :=
      .plain (by simp [padLeft, not_mem_toDigits (show '\x1b' < ' ' by decide)])
    have hindent : Unpaints (String.ofList (List.replicate (gutterWidth + (pos.col - 1)) ' '))
        (String.ofList (List.replicate (gutterWidth + (pos.col - 1)) ' ')) := .plain (by simp)
    have hspace : Unpaints " " " " := .plain (by decide)
    have hfeed : Unpaints "\n" "\n" := .plain (by decide)
    have hbar : Unpaints (Text.Paint.gray.on true "|") "|" := .paint _ (by decide)
    have hcaret : Unpaints (Text.Paint.boldRed.on true "^") "^" := .paint _ (by decide)
    simp only [Text.Paint.on_false, highlighted_false]
    have hgutter := ((hnumber.append hspace).append hbar).append hspace
    have hshown := (hgutter.append (unpaints_highlighted (pos.col - 1) hline)).append hfeed
    exact ((hshown.append hindent).append hcaret).append hfeed

theorem unpaints_render (hmessage : '\x1b' ∉ d.message.toList)
    (hfound : ∀ t, d.found = some t → '\x1b' ∉ t.lexeme.toList) (hsource : '\x1b' ∉ source.toList)
    (hname : '\x1b' ∉ filename.toList) :
    Unpaints (d.render source filename true) (d.render source filename false) := by
  have hcode : Unpaints (Text.Paint.boldRed.on true ("error[" ++ d.category.code ++ "]"))
      ("error[" ++ d.category.code ++ "]") :=
    .paint _ (by simp [d.category.not_mem_code (show '\x1b' < ' ' by decide)])
  have hlocation : Unpaints (Text.Paint.dim.on true (location filename d.found)) (location filename d.found) :=
    .paint _ (not_mem_location (by decide) hname d.found)
  have htext : Unpaints (Text.paintQuoted true d.text) d.text := by
    have hplain : '\x1b' ∉ d.text.toList := not_mem_text (by decide) hmessage hfound
    have hquoted := Unpaints.paintQuotedFrom none List.not_mem_nil hplain
    simpa [Text.paintQuoted] using hquoted
  have hspace : Unpaints " " " " := .plain (by decide)
  have hfeed : Unpaints "\n" "\n" := .plain (by decide)
  have hheadline := ((hcode.append hspace).append hlocation).append hfeed
  unfold render
  refine ((hheadline.append htext).append hfeed).append ?_
  cases d.found with
  | none => exact .plain List.not_mem_nil
  | some t => exact unpaints_snippet hsource t.pos

end Diagnostic

/-- **Colors only add escape sequences.**  Where the parts of a diagnostic hold no escape character, its form with
colors is its form without them once the sequences are taken out: nothing is lost, repeated or moved, however the
quotation marks stand and wherever the position points. -/
theorem unpainted_render (d : Diagnostic) (source filename : String) (hmessage : '\x1b' ∉ d.message.toList)
    (hfound : ∀ t, d.found = some t → '\x1b' ∉ t.lexeme.toList) (hsource : '\x1b' ∉ source.toList)
    (hname : '\x1b' ∉ filename.toList) :
    String.ofList (unpainted (d.render source filename true).toList) = d.render source filename false := by
  have h := Diagnostic.unpaints_render hmessage hfound hsource hname []
  have hnil : unpainted [] = [] := rfl
  rw [List.append_nil, hnil, List.append_nil] at h
  rw [h, String.ofList_toList]

/-- An empty quotation, one that is left open, and an `m` below which the caret stands. -/
theorem unpainted_render_quotes :
    let d : Diagnostic := ⟨.undeclared, "'' and 'm' and 'y", some ⟨.identifier, "m", ⟨2, 3⟩⟩⟩
    let source := "int x;\r\n\tém;3m"
    d.render source "[0m.minilang" true =
        "\x1b[1;31merror[E1003]\x1b[0m \x1b[2m[0m.minilang:2:3\x1b[0m\n" ++
          "Semantic Error: '\x1b[1;36m\x1b[0m' and '\x1b[1;36mm\x1b[0m' and 'y at token: (IDENTIFIER, m)\n" ++
          "   2 \x1b[90m|\x1b[0m \té\x1b[1;36mm\x1b[0m;3m\n         \x1b[1;31m^\x1b[0m\n" ∧
      String.ofList (unpainted (d.render source "[0m.minilang" true).toList) =
        "error[E1003] [0m.minilang:2:3\nSemantic Error: '' and 'm' and 'y at token: (IDENTIFIER, m)\n" ++
          "   2 | \tém;3m\n         ^\n" := by
  intro d source
  have hfound : ∀ t, d.found = some t → '\x1b' ∉ t.lexeme.toList := by
    rintro t ht
    obtain rfl := Option.some.inj ht
    decide
  have hplain : String.ofList (unpainted (d.render source "[0m.minilang" true).toList) =
      d.render source "[0m.minilang" false :=
    unpainted_render d source "[0m.minilang" (by decide) hfound (by decide) (by decide)
  exact ⟨by decide +kernel, hplain.trans (by decide +kernel)⟩

end MiniLang
