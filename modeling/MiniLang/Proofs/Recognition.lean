import MiniLang.Proofs.Grammar.Derivation
import MiniLang.Proofs.Grammar.Provenance
/-!
# Recognition

The analysis accepts the token sequences of the programs of the grammar whose declarations are in order, and no others
(`accepts_iff_program`); what it answers is what the program says (`analyze_eq_ok_iff`).
-/
namespace MiniLang

namespace Program

def code (p : Program) : List Instr := (Builder.empty.assignAll p.assignments).code

def analysis (p : Program) : Analysis := ⟨Names.ofList p.declared, p.code⟩

end Program

namespace Reader

theorem meet_program_end (p : Program) {d : Draft} {R : Reader × List Token} :
    meet ⟨[.statements], default, d⟩ p.tokens = .ok R ↔
      ∃ d', d.noteAll p.events = .ok d' ∧ R = (⟨[], default, d'⟩, []) := by
  have h := meet_program p [.statements] Goal.loops_statements d [] (by simp)
  rw [List.append_nil] at h
  rw [h.ok_iff]
  simp only [meet, Goal.close, Except.ok.injEq, eq_comm]

theorem exists_program_end {ts : List Token} {d : Draft} {R : Reader × List Token}
    (h : meet ⟨[.statements], default, d⟩ ts = .ok R) : ∃ p : Program, p.tokens = ts := by
  have hderives : Goal.DerivesAll [.statements] ts := derivesAll_of_meet (r := ⟨[.statements], default, d⟩) .floor h
  obtain ⟨p, rfl⟩ := Goal.derivesAll_singleton.1 hderives
  exact ⟨p, rfl⟩

end Reader

theorem analyze_program {p : Program} {a : Analysis} :
    analyze p.tokens = .ok a ↔ p.WellDeclared ∧ a = p.analysis := by
  rw [analyze_eq_ok, Program.wellDeclared_iff]
  simp only [Reader.start, Reader.meet_program_end, Draft.noteAll_ok_iff]
  constructor
  · rintro ⟨R, ⟨d, ⟨ho, rfl⟩, rfl⟩, rfl⟩
    exact ⟨ho, rfl⟩
  · rintro ⟨ho, rfl⟩
    exact ⟨_, ⟨_, ⟨ho, rfl⟩, rfl⟩, rfl⟩

theorem analyze_eq_ok_iff {ts : List Token} {a : Analysis} :
    analyze ts = .ok a ↔ ∃ p : Program, p.tokens = ts ∧ p.WellDeclared ∧ a = p.analysis := by
  constructor
  · intro h
    obtain ⟨R, hR, -⟩ := analyze_eq_ok.1 h
    obtain ⟨p, rfl⟩ := Reader.exists_program_end hR
    exact ⟨p, rfl, analyze_program.1 h⟩
  · rintro ⟨p, rfl, h⟩
    exact analyze_program.2 h

theorem occurs_of_mem_declared {ts : List Token} {a : Analysis} {x : String} (h : analyze ts = .ok a)
    (hx : x ∈ a.declared) : Occurs ts .identifier x := by
  obtain ⟨p, rfl, -, rfl⟩ := analyze_eq_ok_iff.1 h
  exact Program.declared_occurs (Names.mem_ofList.1 hx)

/-- **The language that is recognised**: a list of tokens is accepted exactly if it is the token sequence of a program
whose declarations are in order, and the names of the answer are those that the program declares. -/
theorem accepts_iff_program (ts : List Token) :
    ((∃ a, analyze ts = .ok a) ↔ ∃ p : Program, p.tokens = ts ∧ p.WellDeclared) ∧
      ∀ (a : Analysis) (p : Program), analyze ts = .ok a → p.tokens = ts → ∀ x, x ∈ a.declared ↔ x ∈ p.declared := by
  refine ⟨⟨?_, ?_⟩, ?_⟩
  · rintro ⟨a, h⟩
    obtain ⟨p, hp, hd, -⟩ := analyze_eq_ok_iff.1 h
    exact ⟨p, hp, hd⟩
  · rintro ⟨p, hp, hd⟩
    exact ⟨p.analysis, analyze_eq_ok_iff.2 ⟨p, hp, hd, rfl⟩⟩
  · rintro a p h rfl x
    obtain ⟨-, rfl⟩ := analyze_program.1 h
    exact Names.mem_ofList

namespace Leaf

def ofKeyword (k : Keyword) : Leaf (.keyword k) := ⟨⟨.keyword, k.word, .start⟩, rfl, rfl⟩

def ofKind (k : Kind) (lexeme : String) : Leaf (.kind k) := ⟨⟨k, lexeme, .start⟩, rfl⟩

end Leaf

/-- `while ( y < 1 ) { int x ; } x = x ;`: the name `y` is declared nowhere, and `x` inside the braces only. -/
def flatScope : Program :=
  let name {u : Use} (x : String) : Arith u := .term (.factor (.name (.ofKind .identifier x)))
  let one : Arith .checked := .term (.factor (.number (.ofKind .number "1")))
  let body : Program :=
    .next (.declaration (.ofKeyword .intWord) (.ofKind .identifier "x") (.ofKind .semicolon ";")) .done
  .next
    (.loop ⟨.ofKeyword .whileWord, .ofKind .leftParen "(", ⟨name "y", .present rfl (.ofKind .comparator "<") one⟩,
        .ofKind .rightParen ")"⟩
      (.braces (.ofKind .leftBrace "\x7b") body (.ofKind .rightBrace "\x7d")))
    (.next (.assignment (.ofKind .identifier "x") (.ofKind .assign "=") (name "x") (.ofKind .semicolon ";")) .done)

theorem accepts_flatScope :
    analyze flatScope.tokens = .ok ⟨.ofList ["x"], [.copy "x" "x"]⟩ ∧
      ∀ x, x ∈ Names.ofList ["x"] ↔ x ∈ flatScope.declared := by
  have h : analyze flatScope.tokens = .ok ⟨.ofList ["x"], [.copy "x" "x"]⟩ := rfl
  exact ⟨h, (accepts_iff_program flatScope.tokens).2 _ flatScope h rfl⟩

end MiniLang
