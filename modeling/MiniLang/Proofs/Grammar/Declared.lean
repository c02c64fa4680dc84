import MiniLang.Analysis
import MiniLang.Proofs.Grammar.Phrase
/-!
# Declared names

What a program says of names, in the order of its tokens and whatever blocks stand around it, and when that is in order:
no name is declared twice, and one that is assigned to, or that stands directly behind the parenthesis of a `print`, is
declared before.  A draft takes note of all that a program says exactly if it is in order (`noteAll_ok_iff`).
-/
namespace MiniLang

namespace Event

def declared? : Event → Option String
  | declare x => some x
  | _ => none

def assigned? : Event → Option (String × Expr)
  | assign x e => some (x, e)
  | _ => none

end Event

def declares (es : List Event) : List String := es.filterMap Event.declared?

def assigns (es : List Event) : List (String × Expr) := es.filterMap Event.assigned?

/-- The mention that the first token of a `print` makes. -/
def Token.mention (t : Token) : List Event := if t.kind = .identifier then [.mention t.lexeme] else []

def Condition.mention (c : Condition) : List Event :=
  match c.tokens with
  | t :: _ => t.mention
  | [] => []

theorem Condition.mention_cases (c : Condition) : c.mention = [] ∨ ∃ x, c.mention = [.mention x] := by
  unfold Condition.mention Token.mention
  split
  · next t _ _ =>
    by_cases ht : t.kind = .identifier
    · exact .inr ⟨t.lexeme, if_pos ht⟩
    · exact .inl (if_neg ht)
  · exact .inl rfl

mutual

def Statement.events : Statement → List Event
  | .declaration _ name _ => [.declare name.token.lexeme]
  | .assignment target _ value _ => [.mention target.token.lexeme, .assign target.token.lexeme value.expr]
  | .branch _ body other => body.events ++ other.events
  | .loop _ body => body.events
  | .print head _ => head.condition.mention

def Block.events : Block → List Event
  | .braces _ p _ => p.events

def Alternative.events : Alternative → List Event
  | .absent => []
  | .present _ body => body.events

def Program.events : Program → List Event
  | .done => []
  | .next s p => s.events ++ p.events

end

namespace Program

def declared (p : Program) : List String := declares p.events

/-- The assignments of a program in the order in which they stand, whatever blocks they stand in. -/
def assignments (p : Program) : List (String × Expr) := assigns p.events

/-- No name is declared twice, and what is mentioned is declared before. -/
def WellDeclared (p : Program) : Prop :=
  p.declared.Nodup ∧ ∀ pre x post, p.events = pre ++ .mention x :: post → x ∈ declares pre

end Program

def Orderly (known : Names) (es : List Event) : Prop :=
  ((declares es).Nodup ∧ ∀ x ∈ declares es, x ∉ known) ∧
    ∀ pre x post, es = pre ++ .mention x :: post → x ∈ known ∨ x ∈ declares pre

theorem Program.wellDeclared_iff (p : Program) : p.WellDeclared ↔ Orderly .empty p.events := by
  have hno : ∀ x, x ∉ Names.empty := fun _ => List.not_mem_nil
  simp [Program.WellDeclared, Program.declared, Orderly, hno]

theorem mentions_cons {e : Event} {es : List Event} {P : List Event → String → Prop} :
    (∀ pre x post, e :: es = pre ++ .mention x :: post → P pre x) ↔
      (∀ x, e = .mention x → P [] x) ∧ ∀ pre x post, es = pre ++ .mention x :: post → P (e :: pre) x := by
  constructor
  · refine fun h => ⟨fun x hx => h [] x es (by rw [hx]; rfl), fun pre x post hes => ?_⟩
    exact h (e :: pre) x post (by rw [hes]; rfl)
  · rintro ⟨h, hs⟩ pre x post hes
    cases pre with
    | nil => exact h x (List.cons.inj hes).1
    | cons e' pre =>
      simp only [List.cons_append, List.cons.injEq] at hes
      obtain ⟨rfl, hes⟩ := hes
      exact hs pre x post hes

theorem orderly_declare {known : Names} {x : String} {es : List Event} :
    Orderly known (.declare x :: es) ↔ x ∉ known ∧ Orderly (known.insert x) es := by
  have hd : declares (.declare x :: es) = x :: declares es := rfl
  have hp : ∀ pre, declares (.declare x :: pre) = x :: declares pre := fun _ => rfl
  unfold Orderly
  rw [mentions_cons, hd, List.nodup_cons]
  simp only [reduceCtorEq, false_implies, implies_true, true_and, hp, List.mem_cons, Names.mem_insert]
  constructor
  · rintro ⟨⟨⟨hx, hn⟩, hk⟩, hm⟩
    refine ⟨hk x (.inl rfl), ⟨hn, fun z hz => ?_⟩, fun pre z post hes => ?_⟩
    · rintro (rfl | hzk)
      · exact hx hz
      · exact hk z (.inr hz) hzk
    · rcases hm pre z post hes with h | h | h
      · exact .inl (.inr h)
      · exact .inl (.inl h)
      · exact .inr h
  · rintro ⟨hx, ⟨hn, hk⟩, hm⟩
    refine ⟨⟨⟨fun hz => hk x hz (.inl rfl), hn⟩, ?_⟩, fun pre z post hes => ?_⟩
    · rintro z (rfl | hz)
      · exact hx
      · exact fun hzk => hk z hz (.inr hzk)
    · rcases hm pre z post hes with (h | h) | h
      · exact .inr (.inl h)
      · exact .inl h
      · exact .inr (.inr h)

theorem orderly_mention {known : Names} {x : String} {es : List Event} :
    Orderly known (.mention x :: es) ↔ x ∈ known ∧ Orderly known es := by
  have hp : ∀ pre, declares (.mention x :: pre) = declares pre := fun _ => rfl
  have hnil : declares [] = [] := rfl
  unfold Orderly
  rw [mentions_cons]
  simp only [hp, hnil, Event.mention.injEq, forall_eq', List.not_mem_nil, or_false]
  exact and_left_comm

theorem orderly_assign {known : Names} {x : String} {e : Expr} {es : List Event} :
    Orderly known (.assign x e :: es) ↔ Orderly known es := by
  have hp : ∀ pre, declares (.assign x e :: pre) = declares pre := fun _ => rfl
  unfold Orderly
  rw [mentions_cons]
  simp only [hp, reduceCtorEq, false_implies, implies_true, true_and]

namespace Builder

def assignAll (b : Builder) (as : List (String × Expr)) : Builder := as.foldl (fun b a => b.assign a.1 a.2) b

end Builder

namespace Draft

def after (d : Draft) (es : List Event) : Draft :=
  ⟨(declares es).foldl Names.insert d.declared, d.builder.assignAll (assigns es)⟩

def noteAll (d : Draft) : List Event → Except Fault Draft
  | [] => .ok d
  | e :: es =>
    match d.note e with
    | .ok d => d.noteAll es
    | .error fault => .error fault

theorem noteAll_cons_ok {d d' : Draft} {e : Event} {es : List Event} :
    d.noteAll (e :: es) = .ok d' ↔ ∃ d₁, d.note e = .ok d₁ ∧ d₁.noteAll es = .ok d' := by
  rw [noteAll]
  cases d.note e <;> simp

theorem noteAll_singleton_ok {d d' : Draft} {e : Event} : d.noteAll [e] = .ok d' ↔ d.note e = .ok d' := by
  rw [noteAll_cons_ok]
  simp only [noteAll, Except.ok.injEq, exists_eq_right]

theorem noteAll_append {fs : List Event} : ∀ {es : List Event} {d : Draft},
    d.noteAll (es ++ fs) = d.noteAll es >>= fun d' => d'.noteAll fs
  | [], _ => rfl
  | e :: es, d => by
    rw [List.cons_append, noteAll, noteAll]
    cases d.note e with
    | ok d' => exact noteAll_append
    | error fault => rfl

/-- What becomes of a text that says `es`: it is gone on with as `k` says, or a token of it is refused for what is
said. -/
def Leads {α : Type} (d : Draft) (es : List Event) (m : Except Refusal α) (k : Draft → Except Refusal α) : Prop :=
  match d.noteAll es with
  | .ok d' => m = k d'
  | .error fault => ∃ t, m = .error ⟨fault, some t⟩

namespace Leads

variable {α : Type} {d : Draft} {es fs : List Event} {m : Except Refusal α} {k k' : Draft → Except Refusal α}

theorem nil (h : m = k d) : d.Leads [] m k := h

theorem append (h : d.Leads es m k') (h' : ∀ d' : Draft, d'.Leads fs (k' d') k) : d.Leads (es ++ fs) m k := by
  unfold Leads at h ⊢
  rw [noteAll_append]
  cases hes : d.noteAll es with
  | ok d' =>
    rw [hes] at h
    have hd' := h' d'
    rw [← h] at hd'
    exact hd'
  | error fault =>
    rw [hes] at h
    exact h

theorem congr (h : d.Leads es m k') (hk : ∀ d', k' d' = k d') : d.Leads es m k := by
  have hfun : k' = k := funext hk
  rwa [← hfun]

theorem eq_of_ok {d' : Draft} (h : d.Leads es m k) (hd : d.noteAll es = .ok d') : m = k d' := by
  unfold Leads at h
  rwa [hd] at h

theorem ok_iff {a : α} (h : d.Leads es m k) : m = .ok a ↔ ∃ d', d.noteAll es = .ok d' ∧ k d' = .ok a := by
  unfold Leads at h
  cases hes : d.noteAll es with
  | ok d' =>
    rw [hes] at h
    simp [h]
  | error fault =>
    rw [hes] at h
    obtain ⟨t, rfl⟩ := h
    simp

/-- A refusal is one for what the text says, or one of what follows. -/
theorem error_cases {e : Refusal} (h : d.Leads es m k) (he : m = .error e) :
    d.noteAll es = .error e.fault ∨ ∃ d', d.noteAll es = .ok d' ∧ k d' = .error e := by
  unfold Leads at h
  cases hes : d.noteAll es with
  | ok d' =>
    rw [hes] at h
    exact .inr ⟨d', rfl, h.symm.trans he⟩
  | error fault =>
    rw [hes] at h
    obtain ⟨t, ht⟩ := h
    rw [he] at ht
    cases ht
    exact .inl rfl

end Leads

/-- **A draft takes note of what is in order**, and of nothing else. -/
theorem noteAll_ok_iff {d' : Draft} : ∀ {es : List Event} {d : Draft},
    d.noteAll es = .ok d' ↔ Orderly d.declared es ∧ d' = d.after es
  | [], d => by
    have hd : d.after [] = d := rfl
    have ho : Orderly d.declared [] := by simp [Orderly, declares]
    rw [noteAll, Except.ok.injEq, hd, and_iff_right ho, eq_comm]
  | .declare x :: es, d => by
    rw [noteAll_cons_ok, orderly_declare, note]
    by_cases hx : d.declared.contains x = true
    · simp [hx, Names.contains_iff.1 hx]
    · have hx' : x ∉ d.declared := fun h => hx (Names.contains_iff.2 h)
      simp only [hx, Bool.false_eq_true, if_false, Except.ok.injEq, exists_eq_left', noteAll_ok_iff, hx',
        not_false_eq_true, true_and]
      rfl
  | .mention x :: es, d => by
    rw [noteAll_cons_ok, orderly_mention, note]
    by_cases hx : d.declared.contains x = true
    · simp only [hx, if_true, Except.ok.injEq, exists_eq_left', noteAll_ok_iff, Names.contains_iff.1 hx, true_and]
      rfl
    · have hx' : x ∉ d.declared := fun h => hx (Names.contains_iff.2 h)
      simp [hx, hx']
  | .assign x e :: es, d => by
    rw [noteAll_cons_ok, orderly_assign, note]
    simp only [Except.ok.injEq, exists_eq_left', noteAll_ok_iff]
    rfl

end Draft

end MiniLang
