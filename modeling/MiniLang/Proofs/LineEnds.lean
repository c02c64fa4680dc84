import MiniLang.Analysis
import MiniLang.Diagnostic.Rendering
import MiniLang.Proofs.Token.Placement
/-!
# Line ends

A text may end its lines with a line feed, or with a carriage return in front of it (`Text.crlf`).  The return is no part
of a token and no part of a line that is shown: its column is given up at the line feed behind it, where the columns
start anew (`tokensAt_returned`), and the lines are cut in front of it (`Text.lines_returned`).  So both texts are read,
analysed and shown alike (`line_ends_alike`).
-/
namespace MiniLang

open Text (isWordChar WordClass)

namespace Text

/-- The characters with a carriage return put in front of each line feed. -/
def returned (s : List Char) : List Char := s.flatMap fun c => if c = '\n' then ['\r', '\n'] else [c]

/-- The text with each line feed replaced by a carriage return and a line feed. -/
def crlf (text : String) : String := String.ofList (returned text.toList)

@[simp] theorem toList_crlf (text : String) : (crlf text).toList = returned text.toList := String.toList_ofList

theorem returned_newline (s : List Char) : returned ('\n' :: s) = '\r' :: '\n' :: returned s := rfl

theorem returned_cons {c : Char} (hc : c ≠ '\n') (s : List Char) : returned (c :: s) = c :: returned s := by
  rw [returned, List.flatMap_cons, if_neg hc]
  rfl

theorem returned_append {w : List Char} (hw : '\n' ∉ w) (s : List Char) : returned (w ++ s) = w ++ returned s := by
  induction w with
  | nil => rfl
  | cons c w ih =>
    rw [List.mem_cons, not_or] at hw
    rw [List.cons_append, returned_cons (Ne.symm hw.1), ih hw.2, List.cons_append]

/-- A line feed is no word character, nor is the return that is put in front of it. -/
theorem head?_returned [WordClass] {s : List Char} (h : s.head?.any isWordChar = false) :
    (returned s).head?.any isWordChar = false := by
  cases s with
  | nil => rfl
  | cons c s =>
    by_cases hc : c = '\n'
    · subst hc
      exact WordClass.other '\r' (by decide) (by decide)
    · rw [returned_cons hc]
      exact h

/-! ## Lines -/

/-- **The lines are cut in front of the returns**, if the text has none of its own. -/
theorem lines_returned (s : List Char) (h : '\r' ∉ s) : lines (returned s) = lines s := by
  fun_induction lines s with
  | case1 => rfl
  | case2 s ih => rw [returned_newline, lines, ih (List.not_mem_of_not_mem_cons h)]
  | case3 s ih => exact absurd List.mem_cons_self h
  | case4 c s hc hr hls ih | case5 c s hc hr l ls hls ih =>
    rw [List.mem_cons, not_or] at h
    rw [returned_cons hc, lines, ih h.2, hls]
    · exact hc
    · rintro s' rfl
      exact absurd rfl h.1

theorem line?_crlf {text : String} (h : '\r' ∉ text.toList) : ∀ n, line? (crlf text) n = line? text n
  | 0 => rfl
  | n + 1 => by rw [line?, line?, toList_crlf, lines_returned text.toList h]

end Text

open Text (returned crlf)

/-! ## Tokens -/

theorem Segment.returned [WordClass] {w s : List Char} (h : Segment w s) : Segment w (returned s) := by
  cases h with
  | other hc => exact .other hc
  | run hne hw hs => exact .run hne hw (Text.head?_returned hs)

/-- A return and a line feed are left behind as a line feed alone is. -/
theorem tokensAt_return (pos : Position) (ws : List (List Char)) :
    tokensAt pos (['\r'] :: ['\n'] :: ws) = tokensAt pos (['\n'] :: ws) := rfl

section

variable [WordClass]

/-- **Returns in front of line feeds are passed over**, and the tokens stand where they stood. -/
theorem tokensAt_returned (s : List Char) (pos : Position) :
    tokensAt pos (segments (returned s)) = tokensAt pos (segments s) := by
  by_cases hnil : s = []
  · subst hnil
    rfl
  · obtain ⟨w, s', rfl, hseg⟩ := Segment.exists_first hnil
    have hshorter : s'.length < (w ++ s').length := by
      have hpos : 0 < w.length := List.length_pos_iff.2 hseg.ne_nil
      rw [List.length_append]
      omega
    have hrest := tokensAt_returned s' (pos.behind w)
    by_cases hw : '\n' ∈ w
    · -- a segment with a line feed in it is the line feed
      obtain rfl : w = ['\n'] := by
        cases hseg with
        | other hc => rw [List.mem_singleton.1 hw]
        | run hne hword hs => exact absurd rfl (ne_break_of_isWordChar (hword _ hw)).1
      have hreturn : segments ('\r' :: '\n' :: returned s') = ['\r'] :: ['\n'] :: segments (returned s') := by
        rw [segments_other (WordClass.other _ (by decide) (by decide)),
          segments_other (WordClass.other _ (by decide) (by decide))]
      rw [List.singleton_append, Text.returned_newline, hreturn, tokensAt_return,
        segments_other (WordClass.other _ (by decide) (by decide)), tokensAt, tokensAt, hrest]
    · rw [Text.returned_append hw, hseg.returned.segments_eq, hseg.segments_eq, tokensAt, tokensAt, hrest]
termination_by s.length

theorem tokenize_crlf (text : String) : tokenize (crlf text) = tokenize text := by
  have hread : ∀ text : String, tokenize text = tokensAt .start (segments text.toList) := lexicon_segmental.tokens_eq
  rw [hread, hread, Text.toList_crlf, tokensAt_returned]

omit [WordClass] in
theorem Diagnostic.render_crlf {source : String} (h : '\r' ∉ source.toList) (d : Diagnostic) (filename : String)
    (color : Bool) : d.render (crlf source) filename color = d.render source filename color := by
  have hsnippet : ∀ pos, snippet (crlf source) pos color = snippet source pos color := by
    intro pos
    rw [snippet, snippet, Text.line?_crlf h]
  cases hfound : d.found with
  | none => simp only [render, hfound]
  | some t => simp only [render, hfound, hsnippet]

/-- **It makes no difference how lines end**: if each line feed of a text without carriage returns gets one in front, the
text has the same tokens at the same positions, the analysis comes to the same result, and a diagnostic is shown in the
same form, with colors and without. -/
theorem line_ends_alike (source : String) (h : '\r' ∉ source.toList) :
    tokenize (crlf source) = tokenize source ∧ check (crlf source) = check source ∧
      ∀ e, check source = .error e → ∀ (filename : String) (color : Bool),
        e.diagnostic.render (crlf source) filename color = e.diagnostic.render source filename color := by
  refine ⟨tokenize_crlf source, ?_, fun e _ => Diagnostic.render_crlf h e.diagnostic⟩
  rw [check, check, tokenize_crlf]

end

/-- An empty line, a word that touches the end of its line, and no line feed behind the last line. -/
theorem line_ends_alike_undeclared :
    '\r' ∉ "int x\n;\n\nx = 1;\ny = x".toList ∧
      check "int x\r\n;\r\n\r\nx = 1;\r\ny = x" = .error ⟨.undeclared "y", some ⟨.identifier, "y", ⟨5, 1⟩⟩⟩ ∧
      ∀ (filename : String) (color : Bool),
        Diagnostic.render ⟨.undeclared, "Variable 'y' not declared.", some ⟨.identifier, "y", ⟨5, 1⟩⟩⟩
          "int x\r\n;\r\n\r\nx = 1;\r\ny = x" filename color =
        Diagnostic.render ⟨.undeclared, "Variable 'y' not declared.", some ⟨.identifier, "y", ⟨5, 1⟩⟩⟩
          "int x\n;\n\nx = 1;\ny = x" filename color := by
  let e : Refusal := ⟨.undeclared "y", some ⟨.identifier, "y", ⟨5, 1⟩⟩⟩
  have hreturn : '\r' ∉ "int x\n;\n\nx = 1;\ny = x".toList := by decide
  have hcrlf : crlf "int x\n;\n\nx = 1;\ny = x" = "int x\r\n;\r\n\r\nx = 1;\r\ny = x" := by decide +kernel
  have hcheck : check "int x\n;\n\nx = 1;\ny = x" = .error e := rfl
  have hdiagnostic : e.diagnostic = ⟨.undeclared, "Variable 'y' not declared.", e.found⟩ := by decide +kernel
  obtain ⟨-, hsame, hshown⟩ := line_ends_alike _ hreturn
  have hrender := hshown e hcheck
  rw [hcrlf] at hsame hrender
  rw [hdiagnostic] at hrender
  exact ⟨hreturn, hsame.trans hcheck, hrender⟩

end MiniLang
