import MiniLang.Proofs.Code.Chain
import MiniLang.Proofs.Names
import MiniLang.Proofs.Token.Layout
/-!
# Reading reports

A report and a listing hold all that the analysis has found.  Each instruction is a line, and the words of the line are
parted by single spaces; so it is read back (`Instr.ofLine?_text`), provided that no name in it holds a space or ends a
line.  That is so for whatever the analysis of a text comes to: its names are made of word characters
(`wordsOnly_of_check`), be they names and numbers of the text or temporaries.
-/
namespace MiniLang

open Text (isWordChar ended WordClass)

/-! ## Lines of code -/

namespace Instr

/-- The words of an instruction, as they stand in its line. -/
def words : Instr → List (List Char)
  | binary dest lhs op rhs => [dest.toList, ['='], lhs.toList, op.symbol.toList, rhs.toList]
  | copy dest src => [dest.toList, ['='], src.toList]

def ofWords? : List (List Char) → Option Instr
  | [dest, ['='], lhs, op, rhs] =>
    (Op.ofSymbol? (String.ofList op)).map fun op =>
      .binary (String.ofList dest) (String.ofList lhs) op (String.ofList rhs)
  | [dest, ['='], src] => some (.copy (String.ofList dest) (String.ofList src))
  | _ => none

def ofLine? (l : List Char) : Option Instr := ofWords? (l.splitOn ' ')

/-- The code that a listing shows. -/
def ofListing? (text : String) : Option (List Instr) := (Text.lines text.toList).mapM ofLine?

/-- The names and operands are made of word characters. -/
def WordsOnly [WordClass] (i : Instr) : Prop := ∀ x ∈ i.dest :: i.operands, ∀ c ∈ x.toList, isWordChar c = true

theorem ofWords?_words (i : Instr) : ofWords? i.words = some i := by
  cases i with
  | binary dest lhs op rhs => simp [words, ofWords?, Op.ofSymbol?_symbol]
  | copy dest src => simp [words, ofWords?]

theorem toList_text (i : Instr) : i.text.toList = [' '].intercalate i.words := by
  cases i <;> simp [text, words]

section

variable [WordClass]

theorem WordsOnly.not_mem {i : Instr} (h : i.WordsOnly) {c : Char} (hc : isWordChar c = false) :
    ∀ x ∈ i.dest :: i.operands, c ∉ x.toList := by
  intro x hx hmem
  rw [h x hx c hmem] at hc
  cases hc

theorem WordsOnly.space_not_mem {i : Instr} (h : i.WordsOnly) : ∀ w ∈ i.words, ' ' ∉ w := by
  have hnames := h.not_mem (c := ' ') (WordClass.other ' ' (by decide) (by decide))
  cases i with
  | binary dest lhs op rhs =>
    have hop : ' ' ∉ op.symbol.toList := by cases op <;> decide
    simp only [Instr.dest, operands, List.forall_mem_cons] at hnames
    simp [words, hnames, hop]
  | copy dest src =>
    simp only [Instr.dest, operands, List.forall_mem_cons] at hnames
    simp [words, hnames]

/-- A line of code holds word characters, spaces and signs. -/
theorem WordsOnly.not_mem_text {i : Instr} (h : i.WordsOnly) {c : Char} (hc : isWordChar c = false)
    (hsign : c ∉ [' ', '=', '+', '-', '*', '/']) : c ∉ i.text.toList := by
  have hnames := h.not_mem hc
  simp only [List.mem_cons, List.not_mem_nil, or_false, not_or] at hsign
  cases i with
  | binary dest lhs op rhs =>
    have hop : c ∉ op.symbol.toList := by cases op <;> simp [Op.symbol, hsign]
    simp only [Instr.dest, operands, List.forall_mem_cons] at hnames
    simp [text, hnames, hsign, hop]
  | copy dest src =>
    simp only [Instr.dest, operands, List.forall_mem_cons] at hnames
    simp [text, hnames, hsign]

theorem WordsOnly.unbroken_text {i : Instr} (h : i.WordsOnly) : '\n' ∉ i.text.toList ∧ '\r' ∉ i.text.toList :=
  ⟨h.not_mem_text (WordClass.other _ (by decide) (by decide)) (by decide),
    h.not_mem_text (WordClass.other _ (by decide) (by decide)) (by decide)⟩

theorem ofLine?_text {i : Instr} (h : i.WordsOnly) : ofLine? i.text.toList = some i := by
  have hne : i.words ≠ [] := by cases i <;> exact List.cons_ne_nil _ _
  rw [ofLine?, toList_text, List.splitOn_intercalate ' ' h.space_not_mem hne, ofWords?_words]

/-- **Code is read back line by line.** -/
theorem mapM_ofLine?_text : ∀ {code : List Instr}, (∀ i ∈ code, i.WordsOnly) →
    (code.map fun i => i.text.toList).mapM ofLine? = some code
  | [], _ => rfl
  | i :: code, h => by
    rw [List.forall_mem_cons] at h
    rw [List.map_cons, List.mapM_cons, ofLine?_text h.1, mapM_ofLine?_text h.2]
    rfl

omit [WordClass] in
theorem toList_listing (code : List Instr) : (listing code).toList = ended (code.map fun i => i.text.toList) := by
  simp [listing, ended, String.toList_join, List.flatMap_map]

/-- **A listing is read back.** -/
theorem ofListing?_listing {code : List Instr} (h : ∀ i ∈ code, i.WordsOnly) :
    ofListing? (listing code) = some code := by
  have hlines : ∀ l ∈ code.map fun i => i.text.toList, '\n' ∉ l ∧ '\r' ∉ l :=
    List.forall_mem_map.2 fun i hi => (h i hi).unbroken_text
  rw [ofListing?, toList_listing, Text.lines_ended hlines, mapM_ofLine?_text h]

end

end Instr

/-! ## Reports -/

namespace Analysis

/-- The line of a heading, which ends it. -/
def headingLine (heading : String) : List Char := heading.toList.dropLast

/-- Whether the heading of the names is not reached. -/
def isCodeLine (l : List Char) : Bool := l != headingLine namesHeading

/-- The names and the code that a report shows. -/
def ofReport? (text : String) : Option Analysis :=
  let ls := (Text.lines text.toList).tail
  let names := (ls.dropWhile isCodeLine).tail.map fun l => String.ofList (l.drop 2)
  -- a report without code has no heading of the code either, and nothing is dropped
  ((ls.takeWhile isCodeLine).tail.mapM Instr.ofLine?).map fun code => ⟨.ofList names, code⟩

/-- The names, also those in the code, are made of word characters. -/
structure WordsOnly [WordClass] (a : Analysis) : Prop where
  declared : ∀ x ∈ a.declared, ∀ c ∈ x.toList, isWordChar c = true
  code : ∀ i ∈ a.code, i.WordsOnly

/-- The lines of a report between its two constant headings. -/
def codePart (a : Analysis) : List (List Char) :=
  if a.code.isEmpty then [] else headingLine codeHeading :: a.code.map fun i => i.text.toList

def namePart (a : Analysis) : List (List Char) := a.symbols.map fun x => '-' :: ' ' :: x.toList

theorem toList_report (a : Analysis) :
    a.report.toList = ended (headingLine heading :: (a.codePart ++ headingLine namesHeading :: a.namePart)) := by
  have hnames : (String.join (a.symbols.map fun x => "- " ++ x ++ "\n")).toList = ended a.namePart := by
    simp [namePart, ended, String.toList_join, List.flatMap_map]
  have hcode : (if a.code.isEmpty then "" else codeHeading ++ a.listing).toList = ended a.codePart := by
    unfold codePart
    split
    · rfl
    · rw [String.toList_append, listing, Instr.toList_listing]
      rfl
  rw [report, String.toList_append, String.toList_append, String.toList_append, hnames, hcode]
  simp only [ended, List.flatMap_cons, List.flatMap_append, List.append_assoc]
  rfl

variable {a : Analysis} {l : List Char}

theorem mem_codePart (h : l ∈ a.codePart) : l = headingLine codeHeading ∨ ∃ i ∈ a.code, i.text.toList = l := by
  unfold codePart at h
  split at h
  · cases h
  · rcases List.mem_cons.1 h with rfl | h
    · exact .inl rfl
    · exact .inr (List.mem_map.1 h)

/-- No line of code looks like the heading of the names: that one holds no sign of equality. -/
theorem isCodeLine_of_mem (h : l ∈ a.codePart) : isCodeLine l = true := by
  rw [isCodeLine, bne_iff_ne]
  rcases mem_codePart h with rfl | ⟨i, -, rfl⟩
  · decide
  · intro heq
    have hsign : '=' ∈ i.text.toList := by cases i <;> simp [Instr.text]
    rw [heq] at hsign
    exact absurd hsign (by decide)

theorem WordsOnly.unbroken [WordClass] (h : a.WordsOnly) :
    ∀ l ∈ headingLine heading :: (a.codePart ++ headingLine namesHeading :: a.namePart), '\n' ∉ l ∧ '\r' ∉ l := by
  rw [List.forall_mem_cons, List.forall_mem_append, List.forall_mem_cons]
  refine ⟨by decide, fun l hl => ?_, by decide, fun l hl => ?_⟩
  · rcases mem_codePart hl with rfl | ⟨i, hi, rfl⟩
    · decide
    · exact (h.code i hi).unbroken_text
  · obtain ⟨x, hx, rfl⟩ := List.mem_map.1 hl
    have hbreak := fun c hc => ne_break_of_isWordChar (h.declared x hx c hc)
    have hn : '\n' ∉ x.toList := fun hmem => (hbreak _ hmem).1 rfl
    have hr : '\r' ∉ x.toList := fun hmem => (hbreak _ hmem).2 rfl
    simp [hn, hr]

/-- **A report is read back.** -/
theorem ofReport?_report [WordClass] (h : a.WordsOnly) : ofReport? a.report = some a := by
  have hhead : ¬ isCodeLine (headingLine namesHeading) = true := by decide
  have htake : (a.codePart ++ headingLine namesHeading :: a.namePart).takeWhile isCodeLine = a.codePart := by
    rw [List.takeWhile_append_of_pos fun l => isCodeLine_of_mem, List.takeWhile_cons_of_neg hhead, List.append_nil]
  have hdrop : (a.codePart ++ headingLine namesHeading :: a.namePart).dropWhile isCodeLine =
      headingLine namesHeading :: a.namePart := by
    rw [List.dropWhile_append_of_pos fun l => isCodeLine_of_mem, List.dropWhile_cons_of_neg hhead]
  have hcode : a.codePart.tail = a.code.map fun i => i.text.toList := by
    unfold codePart
    split
    · next hempty =>
      rw [List.isEmpty_iff.1 hempty]
      rfl
    · rfl
  have hnames : a.namePart.map (fun l => String.ofList (l.drop 2)) = a.symbols := by
    simp [namePart, Function.comp_def]
  simp only [ofReport?, toList_report, Text.lines_ended h.unbroken, List.tail_cons, htake, hdrop, hcode, hnames,
    Instr.mapM_ofLine?_text h.code, Option.map_some, symbols, Names.ofList_toList]

end Analysis

/-! ## Texts -/

theorem isWordChar_of_occurs [WordClass] {text x : String} {kind : Kind} (hk : kind.isWord = true)
    (h : Occurs (tokenize text) kind x) : ∀ c ∈ x.toList, isWordChar c = true := by
  obtain ⟨t, ht, rfl, rfl⟩ := h
  obtain ⟨_, _, -, -, hkind⟩ := exists_of_mem_tokenize ht
  exact ((segmentKind?_eq_some.1 hkind).word hk).2

theorem isWordChar_of_mem_temporary [WordClass] {n : Nat} : ∀ c ∈ (temporary n).toList, isWordChar c = true := by
  rw [temporary_toList, List.forall_mem_cons]
  refine ⟨isWordChar_of_isLetter (by decide), fun c hc => isWordChar_of_isDigit ?_⟩
  exact Nat.isDigit_of_mem_toDigits (by decide) (by decide) hc

/-- What an instruction writes and reads is a name or a number of the program, or a temporary. -/
theorem Program.occurs_or_temporary {p : Program} {i : Instr} (hi : i ∈ p.code) : ∀ x ∈ i.dest :: i.operands,
    (Occurs p.tokens .identifier x ∨ Occurs p.tokens .number x) ∨ ∃ n, x = temporary n := by
  have htemporary : ∀ {x : String}, x ∈ p.analysis.temporaries → ∃ n, x = temporary n := by
    intro x hx
    rw [p.temporaries_eq] at hx
    obtain ⟨n, -, rfl⟩ := List.mem_map.1 hx
    exact ⟨n, rfl⟩
  intro x hx
  rcases List.mem_cons.1 hx with rfl | hx
  · have hdest : i.dest ∈ p.analysis.temporaries ++ p.code.filterMap Instr.target? :=
      (Instr.map_dest_perm p.code).mem_iff.1 (List.mem_map_of_mem hi)
    rcases List.mem_append.1 hdest with hdest | hdest
    · exact .inr (htemporary hdest)
    · rw [p.filterMap_target_code] at hdest
      obtain ⟨b, hb, heq⟩ := List.mem_map.1 hdest
      exact .inl (.inl (heq ▸ (assignments_from hb).1))
  · have hoperand := p.operands_perm.mem_iff.1 (List.mem_flatMap.2 ⟨i, hi, hx⟩)
    rcases List.mem_append.1 hoperand with hoperand | hoperand
    · exact .inl (occurs_of_mem_leaves hoperand)
    · exact .inr (htemporary hoperand)

/-- **The names of an accepted text are made of word characters**, in its code too. -/
theorem wordsOnly_of_check [WordClass] {text : String} {a : Analysis} (h : check text = .ok a) : a.WordsOnly := by
  obtain ⟨p, hp, -, rfl⟩ := analyze_eq_ok_iff.1 h
  constructor
  · intro x hx
    exact isWordChar_of_occurs rfl (declared_occurs_of_check h hx)
  · intro i hi x hx
    have hnamed := p.occurs_or_temporary hi x hx
    rw [hp] at hnamed
    rcases hnamed with (hname | hnumber) | ⟨n, rfl⟩
    · exact isWordChar_of_occurs rfl hname
    · exact isWordChar_of_occurs rfl hnumber
    · exact isWordChar_of_mem_temporary

/-- **Listings and reports can be read back.**  For an accepted text the listing determines the code, instruction by
instruction, and the report determines the names and the code: both are read back by one function for all texts, which
knows nothing of the text.  So accepted texts with equal reports have equal names and equal code. -/
theorem reports_read_back [WordClass] (text : String) (a : Analysis) (h : check text = .ok a) :
    Instr.ofListing? a.listing = some a.code ∧ Analysis.ofReport? a.report = some a ∧
      ∀ (text' : String) (a' : Analysis), check text' = .ok a' →
        (a'.listing = a.listing → a'.code = a.code) ∧
        (a'.report = a.report → a'.declared = a.declared ∧ a'.code = a.code) := by
  have hwords := wordsOnly_of_check h
  have hlisting := Instr.ofListing?_listing hwords.code
  have hreport := Analysis.ofReport?_report hwords
  refine ⟨hlisting, hreport, fun text' a' h' => ⟨fun heq => ?_, fun heq => ?_⟩⟩
  · have hlisting' : Instr.ofListing? a'.listing = some a'.code :=
      Instr.ofListing?_listing (wordsOnly_of_check h').code
    rw [heq] at hlisting'
    exact Option.some.inj (hlisting'.symm.trans hlisting)
  · have hreport' := Analysis.ofReport?_report (wordsOnly_of_check h')
    rw [heq] at hreport'
    obtain rfl := Option.some.inj (hreport'.symm.trans hreport)
    exact ⟨rfl, rfl⟩

/-- Copies and operations stand side by side, and one name begins like the other. -/
theorem reports_read_back_copy :
    check "int x1; int x; x1 = 10; x = x1 - 2 * x;" = .ok ⟨.ofList ["x", "x1"],
        [.copy "x1" "10", .binary "t0" "2" .mul "x", .binary "t1" "x1" .sub "t0", .copy "x" "t1"]⟩ ∧
      Instr.ofListing? "x1 = 10\nt0 = 2 * x\nt1 = x1 - t0\nx = t1\n" =
        some [.copy "x1" "10", .binary "t0" "2" .mul "x", .binary "t1" "x1" .sub "t0", .copy "x" "t1"] ∧
      Analysis.ofReport? ("Syntax Analysis: Passed.\nGenerated 3-Address Code:\nx1 = 10\nt0 = 2 * x\n" ++
          "t1 = x1 - t0\nx = t1\nDeclared Variables (Symbol Table):\n- x\n- x1\n") =
        some ⟨.ofList ["x", "x1"],
          [.copy "x1" "10", .binary "t0" "2" .mul "x", .binary "t1" "x1" .sub "t0", .copy "x" "t1"]⟩ := by
  have h : check "int x1; int x; x1 = 10; x = x1 - 2 * x;" = .ok ⟨.ofList ["x", "x1"],
      [.copy "x1" "10", .binary "t0" "2" .mul "x", .binary "t1" "x1" .sub "t0", .copy "x" "t1"]⟩ := rfl
  obtain ⟨hlisting, hreport, -⟩ := reports_read_back _ _ h
  have hshown : Analysis.report ⟨.ofList ["x", "x1"],
      [.copy "x1" "10", .binary "t0" "2" .mul "x", .binary "t1" "x1" .sub "t0", .copy "x" "t1"]⟩ =
      "Syntax Analysis: Passed.\nGenerated 3-Address Code:\nx1 = 10\nt0 = 2 * x\n" ++
        "t1 = x1 - t0\nx = t1\nDeclared Variables (Symbol Table):\n- x\n- x1\n" := by decide +kernel
  rw [hshown] at hreport
  exact ⟨h, hlisting, hreport⟩

end MiniLang
