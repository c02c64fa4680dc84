import MiniLang.Proofs.Renaming
/-!
# What is not looked at

A mark or a comparator says all with its kind: its text is not looked at, whatever a token made by hand has there, and no
token's position is.  So tokens that agree but for these are analysed alike (`analyze_alike`): it is a change of names
that changes none.  Two texts in different layouts have the same tokens up to positions, hence the same result up to these
(`mapError_reading_eq`).
-/
namespace MiniLang

/-- Whether the texts of the tokens of a kind are looked at; of a mark or a comparator the kind says all. -/
def Kind.isTelling : Kind → Bool
  | keyword | identifier | number | operator => true
  | _ => false

/-- Two tokens that agree in what is looked at. -/
structure Token.Alike (t t' : Token) : Prop where
  kind : t'.kind = t.kind
  lexeme : t.kind.isTelling = true → t'.lexeme = t.lexeme

/-- A token without its position. -/
def Token.reading (t : Token) : Kind × String := (t.kind, t.lexeme)

def Diagnostic.reading (d : Diagnostic) : Category × String × Option (Kind × String) :=
  (d.category, d.message, d.found.map Token.reading)

namespace Token

variable {t t' : Token}

theorem Alike.renamed (h : t.Alike t') : t.Renamed id t' where
  kind := h.kind
  sign hk := h.lexeme (by rcases hk with hk | hk <;> rw [hk] <;> rfl)
  name hk := h.lexeme (by rcases hk with hk | hk <;> rw [hk] <;> rfl)

theorem alike_of_reading (h : t.reading = t'.reading) : t.Alike t' where
  kind := (congrArg Prod.fst h).symm
  lexeme _ := (congrArg Prod.snd h).symm

end Token

/-! ## No names are changed -/

theorem Instr.rename_id (i : Instr) : i.rename id = i := by
  cases i <;> rfl

theorem Analysis.rename_id (a : Analysis) : a.rename id = a := by
  rw [rename, Names.map_id, List.map_congr_left fun i _ => i.rename_id, List.map_id']

theorem Fault.rename_id (fault : Fault) : fault.rename id = fault := by
  cases fault <;> rfl

theorem separates_id (ts : List Token) : Separates id ts := ⟨fun _ => rfl, fun _ _ _ _ heq => heq⟩

variable {ts ts' : List Token}

theorem outcomes_of_alike (h : List.Forall₂ Token.Alike ts ts') : Outcomes id ts ts' :=
  analyze_renamed (h.imp fun _ _ => Token.Alike.renamed) (separates_id ts)

/-- The tokens at one place of two texts read the same, so what is found there does too. -/
theorem mapError_reading_eq (h : ts.map Token.reading = ts'.map Token.reading) :
    (analyze ts).mapError (fun e => e.diagnostic.reading) = (analyze ts').mapError (fun e => e.diagnostic.reading) := by
  have halike : List.Forall₂ Token.Alike ts ts' := by
    have heq : List.Forall₂ (fun t t' => t.reading = t'.reading) ts ts' := by
      rwa [← List.forall₂_map_right_iff, ← List.forall₂_map_left_iff, List.forall₂_eq_eq_eq]
    exact heq.imp fun _ _ => Token.alike_of_reading
  cases outcomes_of_alike halike with
  | accepted a ha ha' => rw [ha, ha', a.rename_id]
  | ended wanted he he' => rw [he, he']
  | refused k t t' fault hk hk' he he' =>
    have hreading : t.reading = t'.reading := by
      have hat : (ts.map Token.reading)[k]? = (ts'.map Token.reading)[k]? := by rw [h]
      simpa [hk, hk'] using hat
    rw [he.analyze_eq, he'.analyze_eq, fault.rename_id]
    simp only [Except.mapError, Refusal.diagnostic, Diagnostic.reading, Option.map_some, hreading]

/-- **Only what the language looks at matters.**  Let two lists of tokens agree in their kinds and in the texts of their
keywords, names, numbers and operators.  Both are accepted with the same analysis, or both are refused in the same
category with the same message, for the tokens at the same place or both for the end.  So two texts whose tokens differ
in their positions only come to the same result up to the position of what was found. -/
theorem analyze_alike [Text.WordClass] :
    (∀ ts ts' : List Token, List.Forall₂ Token.Alike ts ts' →
      (∃ a, analyze ts = .ok a ∧ analyze ts' = .ok a) ∨
      ∃ e e', analyze ts = .error e ∧ analyze ts' = .error e' ∧ e.diagnostic.category = e'.diagnostic.category ∧
        e.diagnostic.message = e'.diagnostic.message ∧
        (e.diagnostic.found = none ∧ e'.diagnostic.found = none ∨
          ∃ k t t', ts[k]? = some t ∧ ts'[k]? = some t' ∧ e.diagnostic.found = some t ∧ e'.diagnostic.found = some t' ∧
            RefusedAt ts k e ∧ RefusedAt ts' k e')) ∧
    ∀ text text' : String, (tokenize text).map Token.reading = (tokenize text').map Token.reading →
      (check text).mapError (fun e => e.diagnostic.reading) = (check text').mapError (fun e => e.diagnostic.reading) := by
  refine ⟨fun ts ts' halike => ?_, fun text text' hreading => mapError_reading_eq hreading⟩
  cases outcomes_of_alike halike with
  | accepted a ha ha' =>
    rw [a.rename_id] at ha'
    exact .inl ⟨a, ha, ha'⟩
  | ended wanted he he' => exact .inr ⟨_, _, he, he', rfl, rfl, .inl ⟨rfl, rfl⟩⟩
  | refused k t t' fault hk hk' he he' =>
    rw [fault.rename_id] at he'
    exact .inr ⟨_, _, he.analyze_eq, he'.analyze_eq, rfl, rfl, .inr ⟨k, t, t', hk, hk', rfl, rfl, he, he'⟩⟩

/-- Marks made by hand with other texts: the one behind the second `x` is at fault, whatever it is written as.  In another
layout the parenthesis that stands there is found one line further down. -/
theorem analyze_alike_marks :
    (∃ e, analyze [Kind.keyword.token "int", Kind.identifier.token "x", Kind.semicolon.token "=",
        Kind.identifier.token "x", Kind.leftParen.token ";"] = .error e ∧
      e.diagnostic = ⟨.syntaxError, "Expected '=' in assignment.", some (Kind.leftParen.token ";")⟩) ∧
      (check "int x;\n\tx(").mapError (fun e => e.diagnostic.reading) =
        .error (.syntaxError, "Expected '=' in assignment.", some (.leftParen, "(")) := by
  let made : List Token := [Kind.keyword.token "int", Kind.identifier.token "x", Kind.semicolon.token "=",
    Kind.identifier.token "x", Kind.leftParen.token ";"]
  let plain : List Token := [⟨.keyword, "int", ⟨1, 1⟩⟩, ⟨.identifier, "x", ⟨1, 5⟩⟩, ⟨.semicolon, ";", ⟨1, 6⟩⟩,
    ⟨.identifier, "x", ⟨1, 8⟩⟩, ⟨.leftParen, "(", ⟨1, 9⟩⟩]
  let paren : Token := ⟨.leftParen, "(", ⟨1, 9⟩⟩
  have hplain : tokenize "int x; x(" = plain := by decide +kernel
  have hrefused : analyze plain = .error ⟨.expected (.mark .assign), some paren⟩ := rfl
  have halike : List.Forall₂ Token.Alike plain made :=
    .cons ⟨rfl, fun _ => rfl⟩ (.cons ⟨rfl, fun _ => rfl⟩ (.cons ⟨rfl, by decide⟩ (.cons ⟨rfl, fun _ => rfl⟩
      (.cons ⟨rfl, by decide⟩ .nil))))
  constructor
  · obtain ⟨a, ha, -⟩ | ⟨e, e', he, he', hcategory, hmessage, hfound⟩ := analyze_alike.1 plain made halike
    · cases ha.symm.trans hrefused
    · cases he.symm.trans hrefused
      obtain ⟨hnone, -⟩ | ⟨k, t, t', hk, hk', hfound, hfound', -⟩ := hfound
      · cases hnone
      · cases hfound
        have hplace : ∀ k < plain.length, plain[k]? = some paren → k = 4 := by decide +kernel
        obtain rfl : k = 4 := hplace k (List.getElem?_eq_some_iff.1 hk).1 hk
        cases hk'
        exact ⟨e', he', by rw [Diagnostic.mk.injEq]; exact ⟨hcategory.symm, hmessage.symm, hfound'⟩⟩
  · have hreading : (tokenize "int x;\n\tx(").map Token.reading = (tokenize "int x; x(").map Token.reading := by
      decide +kernel
    rw [analyze_alike.2 _ _ hreading, check, hplain, hrefused]
    decide +kernel

end MiniLang
