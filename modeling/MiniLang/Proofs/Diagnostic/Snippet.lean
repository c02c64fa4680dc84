import MiniLang.Diagnostic.Rendering
import MiniLang.Proofs.Category
import MiniLang.Proofs.Token.Placement
/-!
# The shown line

A diagnostic without colors is a list of lines (`render_found`, `render_end`): its headline, its text, and where a token
was found the line of the program on which it stands with a caret below.  That line is there for every token of a text,
and the lexeme stands in it where the position says (`found_stands_in_line`).
-/
namespace MiniLang

namespace Text

@[simp] theorem Paint.on_false (p : Paint) (s : String) : p.on false s = s := rfl

@[simp] theorem paintQuoted_false (s : String) : paintQuoted false s = s := rfl

end Text

namespace Diagnostic

open Text (ended)

def headline (d : Diagnostic) (filename : String) : List Char :=
  ("error[" ++ d.category.code ++ "] " ++ location filename d.found).toList

/-- What stands in front of a shown line. -/
def gutter (line : Nat) : List Char := (padLeft 4 (toString line) ++ " | ").toList

def caretLine (col : Nat) : List Char := List.replicate (gutterWidth + (col - 1)) ' ' ++ ['^']

variable {d : Diagnostic} {source filename : String} {t : Token}

@[simp] theorem highlighted_false : ∀ (n : Nat) (l : List Char), highlighted false n l = String.ofList l
  | n, [] => by cases n <;> rfl
  | 0, c :: l => by simp [highlighted, String.ofList_cons]
  | n + 1, c :: l => by simp [highlighted, highlighted_false n l]

theorem render_end (h : d.found = none) :
    (d.render source filename false).toList = ended [d.headline filename, d.text.toList] := by
  simp [render, h, headline, ended]

theorem render_found {l : List Char} (h : d.found = some t) (hl : Text.line? source t.pos.line = some l) :
    (d.render source filename false).toList =
      ended [d.headline filename, d.text.toList, gutter t.pos.line ++ l, caretLine t.pos.col] := by
  simp [render, h, hl, snippet, headline, gutter, caretLine, ended]

end Diagnostic

/-! ## Diagnostics hold no control characters of their own

What a diagnostic adds to its message, its token and the name of the file holds no character below the space, be it a
line feed or an escape.
-/

section

variable {c : Char} (hc : c < ' ')

include hc

theorem ne_of_space_le {d : Char} (hd : ' ' ≤ d) : c ≠ d := by
  rintro rfl
  exact Char.not_lt.2 hd hc

theorem not_mem_of_space_le {s : List Char} (hs : s.all (' ' ≤ ·) = true) : c ∉ s :=
  fun hmem => ne_of_space_le hc (of_decide_eq_true (List.all_eq_true.1 hs c hmem)) rfl

theorem not_mem_toDigits (n : Nat) : c ∉ Nat.toDigits 10 n := by
  refine not_mem_of_space_le hc (List.all_eq_true.2 (fun d hd => decide_eq_true ?_))
  have hdigit := (Char.isDigit_iff_toNat.1 (Nat.isDigit_of_mem_toDigits (by decide) (by decide) hd)).1
  exact Nat.le_trans (by decide) hdigit

theorem Category.not_mem_code (k : Category) : c ∉ k.code.toList := not_mem_of_space_le hc (by cases k <;> decide)

namespace Diagnostic

theorem not_mem_gutter (line : Nat) : c ∉ gutter line := by
  simp [gutter, padLeft, not_mem_toDigits hc, ne_of_space_le hc]

theorem not_mem_caretLine (col : Nat) : c ∉ caretLine col := by
  simp [caretLine, ne_of_space_le hc]

theorem not_mem_location {filename : String} (hname : c ∉ filename.toList) (found : Option Token) :
    c ∉ (location filename found).toList := by
  cases found <;> simp [location, hname, not_mem_toDigits hc, ne_of_space_le hc]

theorem not_mem_text {d : Diagnostic} (hmessage : c ∉ d.message.toList)
    (hfound : ∀ t, d.found = some t → c ∉ t.lexeme.toList) : c ∉ d.text.toList := by
  have htitle : c ∉ d.category.title.toList := not_mem_of_space_le hc (by cases d.category <;> decide)
  have hshown : c ∉ (foundText d.found).toList := by
    cases hf : d.found with
    | none => exact not_mem_of_space_le hc (by decide)
    | some t =>
      have hname : c ∉ t.kind.name.toList := not_mem_of_space_le hc (by cases t.kind <;> decide)
      simp [foundText, Token.text, hname, hfound t hf, ne_of_space_le hc]
  simp [text, htitle, hmessage, hshown, ne_of_space_le hc]

end Diagnostic

end

namespace Diagnostic

theorem newline_not_mem_gutter (line : Nat) : '\n' ∉ gutter line := not_mem_gutter (by decide) line

theorem newline_not_mem_caretLine (col : Nat) : '\n' ∉ caretLine col := not_mem_caretLine (by decide) col

theorem newline_not_mem_headline {filename : String} (h : '\n' ∉ filename.toList) (d : Diagnostic) :
    '\n' ∉ d.headline filename := by
  simp [headline, d.category.not_mem_code (show '\n' < ' ' by decide), not_mem_location (by decide) h]

end Diagnostic

theorem Expected.newline_not_mem_message (w : Expected) : '\n' ∉ w.message.toList := by
  cases w with
  | mark m =>
    cases m with
    | openHead k => cases k <;> decide +kernel
    | _ => decide +kernel
  | statement | name | newName | operand => decide +kernel

/-- The token found is one of the text, and a fault that names a variable names that token. -/
theorem found_of_analyze {ts : List Token} {e : Refusal} (h : analyze ts = .error e) :
    (∀ t, e.found = some t → t ∈ ts) ∧ ((∃ w, e.fault = .expected w) ∨
      ∃ t, e.found = some t ∧ (e.fault = .redeclared t.lexeme ∨ e.fault = .undeclared t.lexeme)) := by
  rcases Reader.meet_error (analyze_eq_error.1 h) with ⟨r, w, -, -, rfl⟩ | ⟨pre, t, post, r, fault, rfl, hr, hf, rfl⟩
  · exact ⟨nofun, .inl ⟨w, rfl⟩⟩
  · refine ⟨fun t' ht => by simp [← Option.some.inj ht], ?_⟩
    cases hf.judged hr with
    | expected w => exact .inl ⟨w, rfl⟩
    | redeclared => exact .inr ⟨t, rfl, .inl rfl⟩
    | undeclared => exact .inr ⟨t, rfl, .inr rfl⟩

namespace Refusal

variable [Text.WordClass] {source : String} {e : Refusal}

theorem newline_not_mem_message (h : check source = .error e) : '\n' ∉ e.fault.message.toList := by
  obtain ⟨hmem, ⟨w, hw⟩ | ⟨t, ht, hfault⟩⟩ := found_of_analyze h
  · rw [hw]
    exact w.newline_not_mem_message
  · have hlexeme := newline_not_mem_lexeme (hmem t ht)
    rcases hfault with hfault | hfault <;> simp [hfault, Fault.message, hlexeme]

theorem newline_not_mem_text (h : check source = .error e) : '\n' ∉ e.diagnostic.text.toList := by
  refine Diagnostic.not_mem_text (by decide) (newline_not_mem_message h) (fun t ht => ?_)
  exact newline_not_mem_lexeme ((found_of_analyze h).1 t ht)

end Refusal

/-- **The shown line is the one on which the token stands.**  A text that is refused for a token has the line that the
token's position names, and the lexeme stands there from its column on.  The diagnostic without colors has four lines
then, the third of which ends with that line; if the text is refused for its end, it has two. -/
theorem found_stands_in_line [Text.WordClass] (source : String) (e : Refusal) (h : check source = .error e) :
    (∀ t, e.diagnostic.found = some t → 1 ≤ t.pos.col ∧ ∃ l, Text.line? source t.pos.line = some l ∧
      t.lexeme.toList <+: l.drop (t.pos.col - 1) ∧
      ∀ filename : String, '\n' ∉ filename.toList → ∃ first second third fourth,
        (e.diagnostic.render source filename false).toList = Text.ended [first, second, third, fourth] ∧
        (∀ m ∈ [first, second, third, fourth], '\n' ∉ m) ∧ l <:+ third) ∧
      (e.diagnostic.found = none → ∀ filename : String, '\n' ∉ filename.toList → ∃ first second,
        (e.diagnostic.render source filename false).toList = Text.ended [first, second] ∧
        ∀ m ∈ [first, second], '\n' ∉ m) := by
  have htext := Refusal.newline_not_mem_text h
  constructor
  · intro t ht
    obtain ⟨hcol, l, hl, hlexeme⟩ := exists_line_of_mem_tokenize ((found_of_analyze h).1 t ht)
    refine ⟨hcol, l, hl, hlexeme, fun filename hname => ⟨_, _, _, _, Diagnostic.render_found ht hl, ?_, ?_⟩⟩
    · have hline := Text.newline_not_mem_line hl
      simp [Diagnostic.newline_not_mem_headline hname, htext, Diagnostic.newline_not_mem_gutter, hline,
        Diagnostic.newline_not_mem_caretLine]
    · exact List.suffix_append _ l
  · intro hend filename hname
    refine ⟨_, _, Diagnostic.render_end hend, ?_⟩
    simp [Diagnostic.newline_not_mem_headline hname, htext]

/-- The line ends in a carriage return and a line feed, and in front of the name stand a tab and a letter that is no
token. -/
theorem shown_behind_tab :
    check "int x;\r\n\té y = x;\r\n" = .error ⟨.undeclared "y", some ⟨.identifier, "y", ⟨2, 4⟩⟩⟩ ∧
      ∃ l, Text.line? "int x;\r\n\té y = x;\r\n" 2 = some l ∧ l = "\té y = x;".toList ∧ "y".toList <+: l.drop 3 ∧
        ∃ first second third fourth, (Diagnostic.render ⟨.undeclared, "Variable 'y' not declared.",
            some ⟨.identifier, "y", ⟨2, 4⟩⟩⟩ "int x;\r\n\té y = x;\r\n" "main.minilang" false).toList =
          Text.ended [first, second, third, fourth] ∧ (∀ m ∈ [first, second, third, fourth], '\n' ∉ m) ∧ l <:+ third := by
  have h : check "int x;\r\n\té y = x;\r\n" = .error ⟨.undeclared "y", some ⟨.identifier, "y", ⟨2, 4⟩⟩⟩ := by rfl
  obtain ⟨-, l, hl, hlexeme, hshown⟩ := (found_stands_in_line _ _ h).1 _ rfl
  have hline : l = "\té y = x;".toList := Option.some.inj (hl.symm.trans rfl)
  exact ⟨h, l, hl, hline, hlexeme, hshown "main.minilang" (by decide)⟩

end MiniLang
