import MiniLang.Proofs.Diagnostic.Snippet
/-!
# The caret

The gutter of a shown line grows with the line's number, the indent of the caret is made for a number of four digits.  So
the caret stands below the first character of the token on every line up to 9999, whatever stands in front of the token;
further down it stands to the left of it, by one column for each digit more than four (`caret_below_iff`).  There are
such texts: line feeds in front of a text move its tokens down and do nothing else (`tokensAt_newlines`).
-/
namespace MiniLang

namespace Diagnostic

theorem length_padLeft (width : Nat) (s : String) : (padLeft width s).length = max width s.length := by
  rw [padLeft, String.length_append, String.length_ofList, List.length_replicate]
  omega

theorem length_gutter (line : Nat) : (gutter line).length = max 4 (toString line).length + 3 := by
  rw [gutter, String.length_toList, String.length_append, length_padLeft]
  rfl

/-- The gutter is as wide as the caret takes it to be, but for the digits beyond the fourth. -/
theorem gutterWidth_add (line : Nat) : gutterWidth + ((toString line).length - 4) = (gutter line).length := by
  rw [length_gutter, gutterWidth]
  omega

theorem length_toString_le_iff (line : Nat) : (toString line).length ≤ 4 ↔ line < 10000 :=
  Nat.length_repr_le_iff (by decide)

theorem getElem?_caretLine {col k : Nat} : (caretLine col)[k]? = some '^' ↔ k = gutterWidth + (col - 1) := by
  rw [caretLine, List.getElem?_append, List.length_replicate]
  split
  · next hk =>
    rw [List.getElem?_replicate_of_lt hk]
    exact iff_of_false (by decide) (Nat.ne_of_lt hk)
  · next hk =>
    rw [List.getElem?_singleton]
    split
    · exact iff_of_true rfl (by omega)
    · exact iff_of_false (by simp) (by omega)

/-- **The caret stands below a column of the shown line** exactly if the number of the line has no more digits than the
indent is made for. -/
theorem gutterWidth_eq_iff (line col : Nat) :
    gutterWidth + (col - 1) = (gutter line).length + (col - 1) ↔ line < 10000 := by
  rw [← length_toString_le_iff, ← gutterWidth_add]
  omega

end Diagnostic

theorem Refusal.newline_not_mem_shown [Text.WordClass] {source filename : String} {e : Refusal} {t : Token}
    {line : List Char} (h : check source = .error e) (hname : '\n' ∉ filename.toList)
    (hline : Text.line? source t.pos.line = some line) :
    ∀ m ∈ [e.diagnostic.headline filename, e.diagnostic.text.toList, Diagnostic.gutter t.pos.line ++ line,
      Diagnostic.caretLine t.pos.col], '\n' ∉ m := by
  simp [Diagnostic.newline_not_mem_headline hname, newline_not_mem_text h, Diagnostic.newline_not_mem_gutter,
    Text.newline_not_mem_line hline, Diagnostic.newline_not_mem_caretLine]

/-! ## Texts that start with line feeds -/

/-- **Line feeds in front of a text move its tokens down** and do nothing else. -/
theorem tokensAt_newlines (s : List Char) : ∀ n line : Nat,
    tokensAt ⟨line, 1⟩ (segments (List.replicate n '\n' ++ s)) = tokensAt ⟨line + n, 1⟩ (segments s)
  | 0, _ => rfl
  | n + 1, line => by
    have hnone : tokenAt? ⟨line, 1⟩ ['\n'] = none := rfl
    have hbehind : Position.behind ⟨line, 1⟩ ['\n'] = ⟨line + 1, 1⟩ := rfl
    rw [List.replicate_succ, List.cons_append, segments_other (by decide), tokensAt, hnone, hbehind, tokensAt_newlines s n,
      Nat.add_right_comm, Nat.add_assoc]
    rfl

theorem check_newlines (n : Nat) :
    check (String.ofList (List.replicate n '\n' ++ ['y'])) =
      .error ⟨.undeclared "y", some ⟨.identifier, "y", ⟨1 + n, 1⟩⟩⟩ := by
  have hone : tokensAt ⟨1 + n, 1⟩ (segments ['y']) = [⟨.identifier, "y", ⟨1 + n, 1⟩⟩] := rfl
  rw [check, tokenize, lexicon_segmental.tokens_eq, String.toList_ofList, Position.start, tokensAt_newlines, hone]
  rfl

/-- **Where the caret stands.**  A text that is refused for a token is shown with the line on which the token stands behind
a gutter, and below it the caret behind an indent.  The token starts in column `pos.col` of its line.  The caret stands
below its first character if and only if the number of the line has at most four digits; each further digit leaves it one
column further to the left. -/
theorem caret_below_iff [Text.WordClass] (source : String) (e : Refusal) (t : Token) (filename : String)
    (h : check source = .error e) (ht : e.diagnostic.found = some t) (hname : '\n' ∉ filename.toList) :
    1 ≤ t.pos.col ∧ ∃ first second line indent,
      (e.diagnostic.render source filename false).toList = Text.ended
        [first, second, Diagnostic.gutter t.pos.line ++ line, List.replicate indent ' ' ++ ['^']] ∧
      (∀ m ∈ [first, second, Diagnostic.gutter t.pos.line ++ line, List.replicate indent ' ' ++ ['^']], '\n' ∉ m) ∧
      Text.line? source t.pos.line = some line ∧ t.lexeme.toList <+: line.drop (t.pos.col - 1) ∧
      indent + ((toString t.pos.line).length - 4) = (Diagnostic.gutter t.pos.line).length + (t.pos.col - 1) ∧
      (indent = (Diagnostic.gutter t.pos.line).length + (t.pos.col - 1) ↔ t.pos.line < 10000) := by
  obtain ⟨hcol, line, hline, hlexeme⟩ := exists_line_of_mem_tokenize ((found_of_analyze h).1 t ht)
  refine ⟨hcol, _, _, line, _, Diagnostic.render_found ht hline, Refusal.newline_not_mem_shown h hname hline, hline, hlexeme,
    ?_, Diagnostic.gutterWidth_eq_iff t.pos.line t.pos.col⟩
  rw [← Diagnostic.gutterWidth_add]
  omega

/-- The line of the name ends in a carriage return, and a tab and a letter that is no token stand in front of it. -/
theorem caret_below_tab :
    check "int x;\r\n\té y = x;\r\n" = .error ⟨.undeclared "y", some ⟨.identifier, "y", ⟨2, 4⟩⟩⟩ ∧
      ∃ first second line indent,
        (Diagnostic.render ⟨.undeclared, "Variable 'y' not declared.", some ⟨.identifier, "y", ⟨2, 4⟩⟩⟩
          "int x;\r\n\té y = x;\r\n" "main.minilang" false).toList =
          Text.ended [first, second, "   2 | ".toList ++ line, List.replicate indent ' ' ++ ['^']] ∧
        Text.line? "int x;\r\n\té y = x;\r\n" 2 = some line ∧ "y".toList <+: line.drop 3 ∧
        indent = "   2 | ".toList.length + 3 := by
  have h : check "int x;\r\n\té y = x;\r\n" = .error ⟨.undeclared "y", some ⟨.identifier, "y", ⟨2, 4⟩⟩⟩ := by rfl
  obtain ⟨-, first, second, line, indent, hrender, -, hline, hlexeme, -, hbelow⟩ :=
    caret_below_iff _ _ _ "main.minilang" h rfl (by decide)
  have hgutter : Diagnostic.gutter 2 = "   2 | ".toList := by decide +kernel
  rw [hgutter] at hrender hbelow
  exact ⟨h, first, second, line, indent, hrender, hline, hlexeme, hbelow.2 (by decide)⟩

/-- On line 10000 the caret stands to the left of the token: below the space in front of the name. -/
theorem caret_left_of_token :
    ¬ ∀ (source : String) (e : Refusal) (t : Token) (filename : String), check source = .error e →
      e.diagnostic.found = some t → '\n' ∉ filename.toList → ∀ first second gutter line fourth,
        (e.diagnostic.render source filename false).toList = Text.ended [first, second, gutter ++ line, fourth] →
        (∀ m ∈ [first, second, gutter ++ line, fourth], '\n' ∉ m) → Text.line? source t.pos.line = some line →
        fourth[gutter.length + (t.pos.col - 1)]? = some '^' := by
  intro hbelow
  have h := check_newlines 9999
  obtain ⟨-, line, hline, -⟩ := exists_line_of_mem_tokenize ((found_of_analyze h).1 _ rfl)
  have hname : '\n' ∉ "main.minilang".toList := by decide
  have hcaret := hbelow _ _ _ "main.minilang" h rfl hname _ _ _ _ _ (Diagnostic.render_found rfl hline)
    (Refusal.newline_not_mem_shown h hname hline) hline
  have hlt : 10000 < 10000 := (Diagnostic.gutterWidth_eq_iff _ _).1 (Diagnostic.getElem?_caretLine.1 hcaret).symm
  exact Nat.lt_irrefl _ hlt

end MiniLang
