import MiniLang.Proofs.Grammar.Run
/-!
# Stages

Where in a text a name means something can be told from the tokens right before it: behind `;`, `{`, `}` or nothing, a
name is assigned to; behind `int` it is declared; behind `print` and its parenthesis it is looked up; and anywhere else it
is an operand.  The stage is what these tokens say.  The goal on top of a reader's stack always stands in that stage, so
the names declared are those that stand behind `int` (`Reader.Reads.tracks`).
-/
namespace MiniLang

inductive Stage where
  /-- A statement may start here. -/
  | rest
  /-- Behind `int`. -/
  | naming
  /-- Behind `print`. -/
  | opening
  /-- Behind `print` and the parenthesis. -/
  | printing
  | inner
  deriving DecidableEq

namespace Stage

def behindWord : Option Keyword → Stage
  | some .intWord => naming
  | some .printWord => opening
  | _ => inner

def next (s : Stage) (t : Token) : Stage :=
  match t.kind with
  | .semicolon | .leftBrace | .rightBrace => rest
  | .leftParen => if s = opening then printing else inner
  | .keyword => behindWord t.keyword?
  | _ => inner

/-- The stage behind the tokens. -/
def behind (ts : List Token) : Stage := ts.foldl next rest

/-- What a token of this stage says of a name. -/
def event? (s : Stage) (t : Token) : Option Event :=
  match s with
  | naming => if t.kind = .identifier then some (.declare t.lexeme) else none
  | rest | printing => if t.kind = .identifier then some (.mention t.lexeme) else none
  | opening | inner => none

variable {s : Stage} {t : Token} {pre : List Token}

theorem behind_concat : behind (pre ++ [t]) = (behind pre).next t := by
  rw [behind, List.foldl_append]
  rfl

theorem next_word {k : Keyword} (h : t.keyword? = some k) : s.next t = behindWord (some k) := by
  have hk : t.kind = .keyword := (Token.keyword?_eq_some.1 h).1
  rw [next, hk, h]

theorem next_eq_word {k : Keyword} (hk : k = .intWord ∨ k = .printWord) :
    s.next t = behindWord (some k) ↔ t.keyword? = some k := by
  have hword : ∀ w, behindWord w = behindWord (some k) → w = some k := by
    intro w hw
    unfold behindWord at hw
    rcases hk with rfl | rfl
    · split at hw <;> simp_all
    · split at hw <;> simp_all
  have hother : behindWord (some k) ≠ rest ∧ behindWord (some k) ≠ printing ∧ behindWord (some k) ≠ inner := by
    rcases hk with rfl | rfl <;> decide
  refine ⟨fun h => ?_, next_word⟩
  unfold next at h
  split at h
  · exact absurd h.symm hother.1
  · exact absurd h.symm hother.1
  · exact absurd h.symm hother.1
  · split at h
    · exact absurd h.symm hother.2.1
    · exact absurd h.symm hother.2.2
  · exact hword _ h
  · exact absurd h.symm hother.2.2

theorem next_eq_printing : s.next t = printing ↔ t.kind = .leftParen ∧ s = opening := by
  constructor
  · intro h
    unfold next at h
    split at h
    · cases h
    · cases h
    · cases h
    · next hk =>
      split at h
      · next hs => exact ⟨hk, hs⟩
      · cases h
    · unfold behindWord at h
      split at h <;> cases h
    · cases h
  · rintro ⟨hk, rfl⟩
    rw [next, hk]
    rfl

theorem event?_of_kind (h : t.kind ≠ .identifier) : s.event? t = none := by
  cases s <;> simp [event?, h]

theorem event?_eq_some {e : Event} (h : s.event? t = some e) : t.kind = .identifier ∧
    (s = naming ∧ e = .declare t.lexeme ∨ (s = rest ∨ s = printing) ∧ e = .mention t.lexeme) := by
  have hk : t.kind = .identifier := by
    by_cases hk : t.kind = .identifier
    · exact hk
    · rw [event?_of_kind hk] at h
      cases h
  refine ⟨hk, ?_⟩
  cases s with
  | naming =>
    rw [event?, if_pos hk] at h
    exact .inl ⟨rfl, (Option.some.inj h).symm⟩
  | rest =>
    rw [event?, if_pos hk] at h
    exact .inr ⟨.inl rfl, (Option.some.inj h).symm⟩
  | printing =>
    rw [event?, if_pos hk] at h
    exact .inr ⟨.inr rfl, (Option.some.inj h).symm⟩
  | opening | inner => cases h

/-- The names known behind a token are those known before, and the one that it declares. -/
theorem mem_declared {d d' : Draft} {x : String} (h : d.noteAny (s.event? t) = .ok d') :
    x ∈ d'.declared ↔ x ∈ d.declared ∨ s = naming ∧ t.kind = .identifier ∧ t.lexeme = x := by
  by_cases hk : t.kind = .identifier
  · cases s with
    | naming =>
      rw [event?, if_pos hk, Draft.noteAny, Draft.note] at h
      split at h
      · cases h
      · cases h
        simp [Names.mem_insert, hk, or_comm, eq_comm]
    | rest | printing =>
      rw [event?, if_pos hk, Draft.noteAny, Draft.note] at h
      split at h
      · cases h
        simp
      · cases h
    | opening | inner =>
      cases h
      simp
  · rw [event?_of_kind hk] at h
    cases h
    simp [hk]

end Stage

/-- `int` and the name stand side by side somewhere in the tokens. -/
def DeclaredIn (ts : List Token) (x : String) : Prop :=
  ∃ word name : Token, [word, name] <:+: ts ∧ word.keyword? = some .intWord ∧ name.kind = .identifier ∧ name.lexeme = x

namespace Stage

variable {ts : List Token}

theorem behind_eq_word {k : Keyword} (hk : k = .intWord ∨ k = .printWord) :
    behind ts = behindWord (some k) ↔
      ∃ (before : List Token) (word : Token), ts = before ++ [word] ∧ word.keyword? = some k := by
  rcases List.eq_nil_or_concat ts with rfl | ⟨before, word, rfl⟩
  · rcases hk with rfl | rfl <;> simp [behind, behindWord]
  · rw [List.concat_eq_append, behind_concat, next_eq_word hk]
    constructor
    · exact fun h => ⟨before, word, rfl, h⟩
    · rintro ⟨before', word', heq, h⟩
      obtain ⟨-, rfl⟩ := List.append_singleton_inj.1 heq
      exact h

theorem behind_eq_printing :
    behind ts = printing ↔ ∃ (before : List Token) (word left : Token),
      ts = before ++ [word, left] ∧ word.keyword? = some .printWord ∧ left.kind = .leftParen := by
  rcases List.eq_nil_or_concat ts with rfl | ⟨front, left, rfl⟩
  · simp [behind]
  · have hword : behind front = opening ↔ _ := behind_eq_word (k := .printWord) (.inr rfl)
    rw [List.concat_eq_append, behind_concat, next_eq_printing]
    constructor
    · rintro ⟨hleft, hfront⟩
      obtain ⟨before, word, rfl, h⟩ := hword.1 hfront
      exact ⟨before, word, left, by simp, h, hleft⟩
    · rintro ⟨before, word, left', heq, h, hleft⟩
      have hsplit : front ++ [left] = (before ++ [word]) ++ [left'] := by simpa using heq
      obtain ⟨rfl, rfl⟩ := List.append_singleton_inj.1 hsplit
      exact ⟨hleft, hword.2 ⟨before, word, rfl, h⟩⟩

end Stage

theorem declaredIn_concat {ts : List Token} {t : Token} {x : String} :
    DeclaredIn (ts ++ [t]) x ↔ DeclaredIn ts x ∨ Stage.behind ts = .naming ∧ t.kind = .identifier ∧ t.lexeme = x := by
  constructor
  · rintro ⟨word, name, hinfix, hword, hname⟩
    rcases List.infix_concat_iff.1 hinfix with hsuffix | hinfix
    · obtain ⟨before, hbefore⟩ := hsuffix
      have hsplit : (before ++ [word]) ++ [name] = ts ++ [t] := by simpa using hbefore
      obtain ⟨rfl, rfl⟩ := List.append_singleton_inj.1 hsplit
      exact .inr ⟨(Stage.behind_eq_word (.inl rfl)).2 ⟨before, word, rfl, hword⟩, hname⟩
    · exact .inl ⟨word, name, hinfix, hword, hname⟩
  · rintro (⟨word, name, hinfix, hword, hname⟩ | ⟨hstage, hname⟩)
    · exact ⟨word, name, hinfix.trans (List.prefix_append _ _).isInfix, hword, hname⟩
    · obtain ⟨before, word, rfl, hword⟩ := (Stage.behind_eq_word (.inl rfl)).1 hstage
      exact ⟨word, t, ⟨before, [], by simp⟩, hword, hname⟩

/-! ## The stage of a goal -/

namespace Mark

def stage : Mark → Stage
  | openHead .printWord => .opening
  | _ => .inner

def after : Mark → Stage
  | openHead .printWord => .printing
  | openHead _ | assign | closeCondition | closeExpression => .inner
  | endDeclaration | endAssignment | endPrint | openBlock | closeBlock => .rest

theorem next_stage (m : Mark) {t : Token} (h : t.kind = m.kind) : m.stage.next t = m.after := by
  unfold Stage.next
  rw [h]
  cases m with
  | openHead k => cases k <;> rfl
  | _ => rfl

end Mark

namespace Goal

/-- The stage in which a token meets the goal. -/
def stage : Goal → Stage
  | statements | statement | body | alternative => .rest
  | newName => .naming
  | mark m => m.stage
  | printed => .printing
  | operand _ | factors _ | terms _ | comparison | join .. | assigned _ => .inner

/-- The stage that is left behind where the goal is met. -/
def after : Goal → Stage
  | statements | statement | body | alternative | assigned _ => .rest
  | mark m => m.after
  | newName | printed | operand _ | factors _ | terms _ | comparison | join .. => .inner

/-- Each goal of the stack stands in the stage that is left behind the one above. -/
def Aligned : Stage → List Goal → Prop
  | _, [] => True
  | s, g :: gs => g.stage = s ∧ Aligned g.after gs

/-- What a token says, and that the goals behind it stand in the next stage. -/
def Follows (s : Stage) (t : Token) : Move → Prop
  | .take gs _ event =>
    Aligned (s.next t) gs ∧ (event = s.event? t ∨ s = .inner ∧ ∃ x e, event = some (.assign x e))
  | .pass _ | .refuse _ => True

theorem follows_take {s : Stage} {t : Token} {gs : List Goal} {held : Expr} {event : Option Event} (s' : Stage)
    (hnext : s.next t = s') (hgs : Aligned s' gs) (hevent : event = s.event? t) : Follows s t (.take gs held event) := by
  subst hnext
  exact ⟨hgs, .inl hevent⟩

section

variable {u : Use} {gs : List Goal}

theorem aligned_arithmetic (h : Aligned .inner gs) : Aligned .inner (arithmetic u ++ gs) := ⟨rfl, rfl, rfl, h⟩

theorem aligned_condition (h : Aligned .inner gs) : Aligned .inner (condition ++ gs) := aligned_arithmetic ⟨rfl, h⟩

theorem aligned_parenthesised (h : Aligned .inner gs) : Aligned .inner (parenthesised u ++ gs) := by
  rw [parenthesised_append]
  cases u with
  | checked => exact aligned_condition ⟨rfl, h⟩
  | lowered => exact aligned_arithmetic ⟨rfl, h⟩

theorem aligned_block (h : Aligned .rest gs) : Aligned .inner (block ++ gs) := ⟨rfl, rfl, h⟩

theorem aligned_guarded {k : Keyword} (hk : k ≠ .printWord) (h : Aligned .rest gs) :
    Aligned .inner (guarded k ++ gs) := by
  have hrest : Aligned .inner (condition ++ mark .closeCondition :: (block ++ gs)) :=
    aligned_condition ⟨rfl, aligned_block h⟩
  rw [guarded, List.cons_append, List.append_assoc]
  cases k with
  | printWord => exact absurd rfl hk
  | _ => exact ⟨rfl, hrest⟩

theorem aligned_phrase (m : Bool) (h : Aligned .inner gs) : Aligned .inner (phrase m u ++ gs) := by
  cases m with
  | true => exact ⟨rfl, h⟩
  | false => exact ⟨rfl, rfl, h⟩

theorem aligned_joins {op : Op} {l : Expr} (h : Aligned .inner gs) : Aligned .inner (joins u op l ++ gs) := by
  cases u with
  | checked => exact h
  | lowered => exact ⟨rfl, h⟩

end

theorem follows_enter {gs : List Goal} (h : Aligned .rest gs) (held : Expr) (t : Token) :
    Follows .rest t (enter gs held t) := by
  unfold enter
  split
  · next opened event ho =>
    have hevent : ∀ {k : Keyword}, t.keyword? = some k → none = Stage.rest.event? t := by
      intro k hw
      have hk : t.kind = .keyword := (Token.keyword?_eq_some.1 hw).1
      exact (Stage.event?_of_kind (by simp [hk])).symm
    cases opens_of_openStatement ho with
    | assignment hk =>
      have hvalue : Aligned .inner (arithmetic .lowered ++ assigned t.lexeme :: gs) := aligned_arithmetic ⟨rfl, h⟩
      exact follows_take .inner (by rw [Stage.next, hk]) ⟨rfl, hvalue⟩ (by rw [Stage.event?, if_pos hk])
    | declaration hw => exact follows_take .naming (Stage.next_word hw) ⟨rfl, rfl, h⟩ (hevent hw)
    | branch hw =>
      have hother : Aligned .rest (alternative :: gs) := ⟨rfl, h⟩
      refine follows_take .inner (Stage.next_word hw) ?_ (hevent hw)
      rw [List.append_assoc]
      exact aligned_guarded (by decide) hother
    | loop hw => exact follows_take .inner (Stage.next_word hw) (aligned_guarded (by decide) h) (hevent hw)
    | print hw =>
      have hclose : Aligned .inner (mark .closeExpression :: mark .endPrint :: gs) := ⟨rfl, rfl, h⟩
      exact follows_take .opening (Stage.next_word hw) ⟨rfl, rfl, rfl, rfl, rfl, hclose⟩ (hevent hw)
  · trivial

theorem follows_enterOperand {s : Stage} {t : Token} {gs : List Goal} (h : Aligned .inner gs) (hs : s ≠ .opening)
    (hevent : s.event? t = none) (u : Use) (held : Expr) : Follows s t (enterOperand u gs held t) := by
  unfold enterOperand
  split
  · next hk => exact follows_take .inner (by rw [Stage.next, hk]) h hevent.symm
  · next hk => exact follows_take .inner (by rw [Stage.next, hk]) h hevent.symm
  · next hk =>
    have hnext : s.next t = .inner := by
      rw [Stage.next, hk]
      exact if_neg hs
    exact follows_take .inner hnext (aligned_parenthesised h) hevent.symm
  · trivial

/-! ### Goal by goal

A goal that does not take the token leaves it to the goals below.
-/

section

variable {u : Use} {gs : List Goal} {held : Expr} {t : Token}

theorem follows_body (hgs : Aligned .rest gs) (held : Expr) : Follows .rest t (read held t (body :: gs)) := by
  rw [read]
  split
  · next hk =>
    have hevent : none = Stage.rest.event? t := (Stage.event?_of_kind (by simp [hk])).symm
    exact follows_take .rest (by rw [Stage.next, hk]) hgs hevent
  · exact follows_enter (show Aligned .rest (body :: gs) from ⟨rfl, hgs⟩) held t

theorem follows_alternative (hgs : Aligned .rest gs) (hrest : Follows .rest t (read held t gs)) :
    Follows .rest t (read held t (alternative :: gs)) := by
  rw [read]
  split
  · next hw =>
    have hk : t.kind = .keyword := (Token.keyword?_eq_some.1 hw).1
    have hevent : none = Stage.rest.event? t := (Stage.event?_of_kind (by simp [hk])).symm
    exact follows_take .inner (Stage.next_word hw) (aligned_block hgs) hevent
  · exact hrest

theorem follows_newName (hgs : Aligned .inner gs) (held : Expr) : Follows .naming t (read held t (newName :: gs)) := by
  rw [read]
  split
  · next hk => exact follows_take .inner (by rw [Stage.next, hk]) hgs (if_pos hk).symm
  · trivial

theorem follows_mark {m : Mark} (hgs : Aligned m.after gs) (held : Expr) :
    Follows m.stage t (read held t (mark m :: gs)) := by
  rw [read]
  split
  · next hk =>
    have hevent : none = m.stage.event? t := by
      cases m with
      | openHead k => cases k <;> rfl
      | _ => rfl
    exact follows_take m.after (m.next_stage hk) hgs hevent
  · trivial

theorem follows_printed (hgs : Aligned .inner gs) (held : Expr) : Follows .printing t (read held t (printed :: gs)) := by
  rw [read]
  split
  · next hk => exact follows_take .inner (by rw [Stage.next, hk]) hgs (if_pos hk).symm
  · next hk => exact follows_enterOperand hgs Stage.noConfusion (Stage.event?_of_kind hk) .checked held

theorem follows_further (m : Bool) (hgs : Aligned .inner gs) (hrest : Follows .inner t (read held t gs)) :
    Follows .inner t (read held t (further m u :: gs)) := by
  cases hop : operator? m t with
  | none => rwa [read_further_none hop]
  | some op =>
    have hmore : Aligned .inner (further m u :: gs) := by cases m <;> exact ⟨rfl, hgs⟩
    rw [read_further hop]
    exact follows_take .inner (by rw [Stage.next, kind_of_operator? hop]) (aligned_phrase m (aligned_joins hmore)) rfl

theorem follows_comparison (hgs : Aligned .inner gs) (hrest : Follows .inner t (read held t gs)) :
    Follows .inner t (read held t (comparison :: gs)) := by
  rw [read]
  split
  · next hk => exact follows_take .inner (by rw [Stage.next, hk]) (aligned_arithmetic hgs) rfl
  · exact hrest

theorem follows_assigned (x : String) (hgs : Aligned .rest gs) (held : Expr) :
    Follows .inner t (read held t (assigned x :: gs)) := by
  rw [read]
  split
  · next hk =>
    have hnext : Stage.inner.next t = .rest := by rw [Stage.next, hk]
    exact ⟨by rwa [hnext], .inr ⟨rfl, x, held, rfl⟩⟩
  · trivial

end

/-- **A token says what its stage says of it**, and leaves goals of the next stage. -/
theorem follows_read {t : Token} : ∀ {gs : List Goal} {s : Stage} (held : Expr), Aligned s gs →
    Follows s t (read held t gs)
  | [], _, _, _ => trivial
  | statements :: gs, _, held, ⟨rfl, hgs⟩ => follows_enter (show Aligned .rest (statements :: gs) from ⟨rfl, hgs⟩) held t
  | statement :: _, _, held, ⟨rfl, hgs⟩ => follows_enter hgs held t
  | body :: _, _, held, ⟨rfl, hgs⟩ => follows_body hgs held
  | alternative :: _, _, held, ⟨rfl, hgs⟩ => follows_alternative hgs (follows_read held hgs)
  | newName :: _, _, held, ⟨rfl, hgs⟩ => follows_newName hgs held
  | mark m :: _, _, held, ⟨rfl, hgs⟩ => follows_mark hgs held
  | printed :: _, _, held, ⟨rfl, hgs⟩ => follows_printed hgs held
  | operand u :: _, _, held, ⟨rfl, hgs⟩ => follows_enterOperand hgs Stage.noConfusion rfl u held
  | factors u :: _, _, held, ⟨rfl, hgs⟩ => follows_further true hgs (follows_read held hgs)
  | terms u :: _, _, held, ⟨rfl, hgs⟩ => follows_further false hgs (follows_read held hgs)
  | comparison :: _, _, held, ⟨rfl, hgs⟩ => follows_comparison hgs (follows_read held hgs)
  | join op left :: _, _, held, ⟨rfl, hgs⟩ => follows_read (.binary op left held) hgs
  | assigned x :: _, _, held, ⟨rfl, hgs⟩ => follows_assigned x hgs held

end Goal

namespace Reader

/-- The reader stands in the stage that its tokens have left behind, and knows the names that they declare. -/
structure Tracks (ts : List Token) (r : Reader) : Prop where
  aligned : Goal.Aligned (Stage.behind ts) r.goals
  declared : ∀ x, x ∈ r.draft.declared ↔ DeclaredIn ts x

theorem tracks_start : Tracks [] start := by
  refine ⟨⟨rfl, trivial⟩, fun x => ?_⟩
  have hnone : ¬ DeclaredIn [] x := by
    rintro ⟨word, name, hinfix, -⟩
    cases List.infix_nil.1 hinfix
  have hempty : x ∉ Names.empty := List.not_mem_nil
  exact iff_of_false hempty hnone

variable {r r' : Reader} {t : Token} {pre ts : List Token} {gs : List Goal} {held : Expr} {event : Option Event} {d : Draft}

theorem Tracks.follows (h : Tracks pre r) (hread : Goal.read r.held t r.goals = .take gs held event) :
    Goal.Follows (Stage.behind pre) t (.take gs held event) := by
  rw [← hread]
  exact Goal.follows_read r.held h.aligned

theorem Tracks.take (h : Tracks pre r) (hread : Goal.read r.held t r.goals = .take gs held event)
    (hnote : r.draft.noteAny event = .ok d) : Tracks (pre ++ [t]) ⟨gs, held, d⟩ := by
  obtain ⟨hgs, hevent⟩ := h.follows hread
  refine ⟨by rwa [Stage.behind_concat], fun x => ?_⟩
  rw [declaredIn_concat, ← h.declared x]
  rcases hevent with rfl | ⟨hs, y, e, rfl⟩
  · exact Stage.mem_declared hnote
  · cases hnote
    simp [hs]

theorem Reads.tracks (h : Reads r ts r') : ∀ {pre : List Token}, Tracks pre r → Tracks (pre ++ ts) r' := by
  induction h with
  | nil =>
    intro pre hr
    rwa [List.append_nil]
  | @cons r r' t ts gs held event d hread hnote _ ih =>
    intro pre hr
    have hstep := ih (hr.take hread hnote)
    rwa [List.append_assoc, List.singleton_append] at hstep

end Reader

end MiniLang
