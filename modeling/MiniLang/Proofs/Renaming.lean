import Mathlib.Data.List.Forall2
import Mathlib.Logic.Equiv.Basic
import MiniLang.Proofs.Category
import MiniLang.Proofs.Grammar.Renaming
import MiniLang.Proofs.Names
/-!
# Texts under other names

Two texts whose tokens read alike under a change of names are analysed alike: a reader of the one goes on as a reader of
the other does (`Reader.Renamed`), with the names of its draft changed, and both end in the same way at the same place
(`analyze_renamed`).  Of the change it takes two things: it tells the names of the text apart, since the declared ones are
looked up, and it leaves the temporaries as they are, since these are made up on the way.

So a text under other names has the analysis of the text under the other names (`analyze_rename`).
-/
namespace MiniLang

/-! ## What is renamed -/

def Fault.rename (f : String → String) : Fault → Fault
  | expected w => expected w
  | redeclared x => redeclared (f x)
  | undeclared x => undeclared (f x)

def Builder.rename (f : String → String) (b : Builder) : Builder := ⟨b.log.map (Instr.rename f), b.temps⟩

def Draft.rename (f : String → String) (d : Draft) : Draft := ⟨d.declared.map f, d.builder.rename f⟩

def Analysis.rename (f : String → String) (a : Analysis) : Analysis := ⟨a.declared.map f, a.code.map (Instr.rename f)⟩

/-- A change of names that leaves the temporaries as they are and tells the names of the tokens apart. -/
structure Separates (f : String → String) (ts : List Token) : Prop where
  temporary : ∀ i, f (temporary i) = temporary i
  injective : ∀ x y, Occurs ts .identifier x → Occurs ts .identifier y → f x = f y → x = y

variable {f : String → String}

theorem Separates.mono {ts ts' : List Token} (h : Separates f ts') (hts : ts ⊆ ts') : Separates f ts :=
  ⟨h.temporary, fun x y hx hy => h.injective x y (hx.mono hts) (hy.mono hts)⟩

theorem DeclaredIn.occurs {ts : List Token} {x : String} (h : DeclaredIn ts x) : Occurs ts .identifier x := by
  obtain ⟨word, name, hinfix, -, hk, hx⟩ := h
  exact ⟨name, hinfix.subset (by simp), hk, hx⟩

theorem Builder.code_rename (b : Builder) : (b.rename f).code = b.code.map (Instr.rename f) := List.map_reverse.symm

theorem Builder.assign_rename (hf : ∀ i, f (temporary i) = temporary i) (b : Builder) (x : String) (e : Expr) :
    (b.rename f).assign (f x) (e.rename f) = (b.assign x e).rename f := by
  have hinstrs : (e.rename f).instrs b.temps = (e.instrs b.temps).map (Instr.rename f) := e.instrs_rename (k := 0) hf b.temps
  have hoperand : (e.rename f).operand b.temps = f (e.operand b.temps) := e.operand_rename (k := 0) hf b.temps
  have htemps : (b.rename f).temps = b.temps := rfl
  rw [assign, assign, lower_eq, lower_eq, htemps, hinstrs, hoperand, e.operations_rename]
  simp [copy, rename, Instr.rename]

namespace Draft

theorem note_rename {d : Draft} {event : Event} (hf : ∀ i, f (temporary i) = temporary i)
    (hinj : ∀ x, event = .declare x ∨ event = .mention x → ∀ y ∈ d.declared, f y = f x → y = x) :
    (d.rename f).note (event.rename f) = ((d.note event).map (rename f)).mapError (Fault.rename f) := by
  cases event with
  | declare x =>
    have hcontains : (d.rename f).declared.contains (f x) = d.declared.contains x := Names.contains_map (hinj x (.inl rfl))
    rw [Event.rename, note, note, hcontains]
    split
    · rfl
    · simp only [Except.map, Except.mapError, rename, Names.map_insert]
  | mention x =>
    have hcontains : (d.rename f).declared.contains (f x) = d.declared.contains x := Names.contains_map (hinj x (.inr rfl))
    rw [Event.rename, note, note, hcontains]
    split <;> rfl
  | assign x e =>
    have hbuilder : (d.rename f).builder = d.builder.rename f := rfl
    rw [Event.rename, note, note, hbuilder, Builder.assign_rename hf]
    rfl

end Draft

/-! ## Two readers -/

/-- Two readers that have come to the same place of two texts, the first of them behind the tokens `pre`. -/
structure Reader.Renamed (f : String → String) (pre : List Token) (r r' : Reader) : Prop where
  tracks : Tracks pre r
  goals : r'.goals = r.goals.map (Goal.rename f)
  held : Goal.usesHeld r.goals = true → r'.held = r.held.rename f
  draft : r'.draft = r.draft.rename f

namespace Reader

theorem renamed_start : start.Renamed f [] start where
  tracks := tracks_start
  goals := rfl
  held huses := by cases huses
  draft := rfl

variable {pre ts ts' : List Token} {r r' R : Reader} {t t' : Token}

namespace Renamed

theorem read (h : r.Renamed f pre r') (ht : t.Renamed f t') :
    (Goal.read r.held t r.goals).Renamed f (Goal.read r'.held t' r'.goals) := by
  rw [h.goals]
  exact Goal.renamed_read ht h.tracks.aligned h.held

/-- Both drafts take note of what the tokens say, or neither does. -/
theorem noteAny (h : r.Renamed f pre r') (hf : Separates f (pre ++ [t])) {gs : List Goal} {held : Expr}
    {event : Option Event} (hread : Goal.read r.held t r.goals = .take gs held event) :
    r'.draft.noteAny (event.map (Event.rename f)) =
      ((r.draft.noteAny event).map (Draft.rename f)).mapError (Fault.rename f) := by
  rw [h.draft]
  cases event with
  | none => rfl
  | some event =>
    refine Draft.note_rename hf.temporary (fun x hx y hy heq => ?_)
    have hoccurs : Occurs (pre ++ [t]) .identifier y :=
      ((h.tracks.declared y).1 hy).occurs.mono (List.subset_append_left pre [t])
    obtain ⟨-, hsaid | ⟨-, z, e, hassign⟩⟩ := h.tracks.follows hread
    · -- a name that is declared or looked up is that of the token
      obtain ⟨hk, hname⟩ := Stage.event?_eq_some hsaid.symm
      obtain rfl : t.lexeme = x := by rcases hname with ⟨-, rfl⟩ | ⟨-, rfl⟩ <;> simpa using hx
      exact hf.injective y _ hoccurs ⟨t, by simp, hk, rfl⟩ heq
    · cases hassign
      simp at hx

theorem take (h : r.Renamed f pre r') (ht : t.Renamed f t') (hf : Separates f (pre ++ [t])) {gs : List Goal} {held : Expr}
    {event : Option Event} {d : Draft} (hread : Goal.read r.held t r.goals = .take gs held event)
    (hnote : r.draft.noteAny event = .ok d) :
    ∃ gs' held' event' d', Goal.read r'.held t' r'.goals = .take gs' held' event' ∧ r'.draft.noteAny event' = .ok d' ∧
      Renamed f (pre ++ [t]) ⟨gs, held, d⟩ ⟨gs', held', d'⟩ := by
  have hmove := h.read ht
  have hdraft := h.noteAny hf hread
  rw [hnote] at hdraft
  rw [hread] at hmove
  generalize hread' : Goal.read r'.held t' r'.goals = move at hmove
  cases hmove with
  | take hheld => exact ⟨_, _, _, _, rfl, hdraft, h.tracks.take hread hnote, rfl, hheld, rfl⟩

theorem refuses (h : r.Renamed f pre r') (ht : t.Renamed f t') (hf : Separates f (pre ++ [t])) {fault : Fault}
    (hrefuses : r.Refuses t fault) : r'.Refuses t' (fault.rename f) := by
  have hmove := h.read ht
  cases hrefuses with
  | unexpected hread =>
    rw [hread] at hmove
    generalize hread' : Goal.read r'.held t' r'.goals = move at hmove
    cases hmove with
    | refuse wanted => exact .unexpected hread'
  | unnoted hread hnote =>
    have hdraft := h.noteAny hf hread
    rw [hnote] at hdraft
    rw [hread] at hmove
    generalize hread' : Goal.read r'.held t' r'.goals = move at hmove
    cases hmove with
    | take hheld => exact .unnoted hread' hdraft

theorem close_eq_error (h : r.Renamed f pre r') {wanted : Expected} :
    Goal.close r'.held r'.goals = .error wanted ↔ Goal.close r.held r.goals = .error wanted := by
  rw [h.goals]
  exact Goal.close_rename r.goals r.held r'.held

theorem close_eq_ok (h : r.Renamed f pre r') {held : Expr} (hclose : Goal.close r.held r.goals = .ok held) :
    ∃ held', Goal.close r'.held r'.goals = .ok held' := by
  cases hclose' : Goal.close r'.held r'.goals with
  | ok held' => exact ⟨held', rfl⟩
  | error wanted =>
    rw [h.close_eq_error, hclose] at hclose'
    cases hclose'

end Renamed

/-- **Readers of the two texts go on side by side.** -/
theorem Reads.renamed (hreads : r.Reads ts R) : ∀ {pre ts' : List Token} {r' : Reader}, r.Renamed f pre r' →
    List.Forall₂ (Token.Renamed f) ts ts' → Separates f (pre ++ ts) →
    ∃ R', r'.Reads ts' R' ∧ R.Renamed f (pre ++ ts) R' := by
  induction hreads with
  | nil =>
    intro pre ts' r' h hts _
    cases hts
    exact ⟨r', .nil, by rwa [List.append_nil]⟩
  | @cons r R t ts gs held event d hread hnote _ ih =>
    intro pre ts' r' h hts hf
    cases hts with
    | cons ht hts =>
      have hstep : Separates f (pre ++ [t]) := hf.mono (by simp)
      obtain ⟨gs', held', event', d', hread', hnote', h'⟩ := h.take ht hstep hread hnote
      have hsplit : pre ++ t :: ts = (pre ++ [t]) ++ ts := by simp
      rw [hsplit] at hf ⊢
      obtain ⟨R', hreads', hR⟩ := ih h' hts hf
      exact ⟨R', .cons hread' hnote' hreads', hR⟩

end Reader

/-! ## Two analyses -/

/-- Both texts are accepted, or both are refused for their end, or both for the token at the same place, and up to the
change of names for the same reason. -/
inductive Outcomes (f : String → String) (ts ts' : List Token) : Prop where
  | accepted (a : Analysis) (h : analyze ts = .ok a) (h' : analyze ts' = .ok (a.rename f))
  | ended (wanted : Expected) (h : analyze ts = .error ⟨.expected wanted, none⟩)
      (h' : analyze ts' = .error ⟨.expected wanted, none⟩)
  | refused (k : Nat) (t t' : Token) (fault : Fault) (hk : ts[k]? = some t) (hk' : ts'[k]? = some t')
      (h : RefusedAt ts k ⟨fault, some t⟩) (h' : RefusedAt ts' k ⟨fault.rename f, some t'⟩)

theorem exists_split {pre post ts' : List Token} {t : Token} {P : Token → Token → Prop}
    (h : List.Forall₂ P (pre ++ t :: post) ts') :
    ∃ pre' t' post', ts' = pre' ++ t' :: post' ∧ List.Forall₂ P pre pre' ∧ P t t' := by
  have hpre : List.Forall₂ (flip P) (ts'.take pre.length) pre := List.forall₂_take_append _ _ _ h.flip
  have hpost : List.Forall₂ (flip P) (ts'.drop pre.length) (t :: post) := List.forall₂_drop_append _ _ _ h.flip
  obtain ⟨t', post', ht, -, hdrop⟩ := List.forall₂_cons_right_iff.1 hpost
  exact ⟨ts'.take pre.length, t', post', by rw [← hdrop, List.take_append_drop], hpre.flip, ht⟩

/-- **Texts that read alike are analysed alike.** -/
theorem analyze_renamed {ts ts' : List Token} (hts : List.Forall₂ (Token.Renamed f) ts ts') (hf : Separates f ts) :
    Outcomes f ts ts' := by
  cases h : analyze ts with
  | ok a =>
    obtain ⟨r, held, hr, hclose, rfl⟩ := analyze_eq_ok_iff_reads.1 h
    obtain ⟨r', hr', hrenamed⟩ := hr.renamed Reader.renamed_start hts hf
    obtain ⟨held', hclose'⟩ := hrenamed.close_eq_ok hclose
    refine .accepted _ h (analyze_eq_ok_iff_reads.2 ⟨r', held', hr', hclose', ?_⟩)
    rw [hrenamed.draft, Draft.rename, Builder.code_rename]
    rfl
  | error e =>
    rcases Reader.meet_error (analyze_eq_error.1 h) with
      ⟨r, wanted, hr, hclose, rfl⟩ | ⟨pre, t, post, r, fault, rfl, hr, hrefuses, rfl⟩
    · obtain ⟨r', hr', hrenamed⟩ := hr.renamed Reader.renamed_start hts hf
      exact .ended wanted h (hr'.analyze_end (hrenamed.close_eq_error.2 hclose))
    · obtain ⟨pre', t', post', rfl, hpre, ht⟩ := exists_split hts
      have hfpre : Separates f pre := hf.mono (List.subset_append_left pre _)
      have hfstep : Separates f (pre ++ [t]) := hf.mono (by simp)
      obtain ⟨r', hr', hrenamed⟩ := hr.renamed Reader.renamed_start hpre hfpre
      have hrefused' : RefusedAt (pre' ++ t' :: post') pre.length ⟨fault.rename f, some t'⟩ := by
        rw [hpre.length_eq]
        exact (hrenamed.refuses ht hfstep hrefuses).refusedAt hr'
      exact .refused pre.length t t' fault (by simp) (by simp [hpre.length_eq]) (hrefuses.refusedAt hr) hrefused'

/-! ## A text under other names -/

/-- The token with its name changed, if it is one. -/
def Token.rename (r : String → String) (t : Token) : Token :=
  if t.kind = .identifier then { t with lexeme := r t.lexeme } else t

/-- The change of the names of the tokens, and of no other text. -/
def onNames (ts : List Token) (r : String → String) (x : String) : String := if Occurs ts .identifier x then r x else x

section

variable {ts : List Token} {r : String → String}

theorem onNames_of_occurs {x : String} (h : Occurs ts .identifier x) : onNames ts r x = r x := if_pos h

theorem Token.renamed_rename (hnumber : ∀ x, Occurs ts .identifier x → ¬ Occurs ts .number x) {t : Token} (ht : t ∈ ts) :
    t.Renamed (onNames ts r) (t.rename r) := by
  unfold rename
  split
  · next hk => exact ⟨rfl, by simp [hk], fun _ => (onNames_of_occurs ⟨t, ht, hk, rfl⟩).symm⟩
  · next hk =>
    refine ⟨rfl, fun _ => rfl, fun hname => ?_⟩
    have hnot : ¬ Occurs ts .identifier t.lexeme := fun hx => hnumber _ hx ⟨t, ht, hname.resolve_left hk, rfl⟩
    exact (if_neg hnot).symm

theorem separates_onNames (hinj : ∀ x y, Occurs ts .identifier x → Occurs ts .identifier y → r x = r y → x = y)
    (htemp : ∀ x, Occurs ts .identifier x → isTemporaryName x = false) : Separates (onNames ts r) ts where
  temporary i := if_neg fun hx => ne_temporary (htemp _ hx) i rfl
  injective x y hx hy heq := by
    rw [onNames_of_occurs hx, onNames_of_occurs hy] at heq
    exact hinj x y hx hy heq

/-- A fault names a variable of the text. -/
theorem RefusedAt.rename_fault {k : Nat} {t : Token} {fault : Fault} (h : RefusedAt ts k ⟨fault, some t⟩) :
    fault.rename (onNames ts r) = fault.rename r := by
  obtain ⟨R, t', fault', hk, hr, hf, heq⟩ := h
  cases heq
  cases hf.judged hr with
  | expected w => rfl
  | redeclared _ _ hd =>
    have hx : Occurs ts .identifier t.lexeme := hd.occurs.mono (List.take_subset k ts)
    rw [Fault.rename, Fault.rename, onNames_of_occurs hx]
  | undeclared _ _ hname _ =>
    have hx : Occurs ts .identifier t.lexeme := ⟨t, List.mem_of_getElem? hk, hname, rfl⟩
    rw [Fault.rename, Fault.rename, onNames_of_occurs hx]

end

/-- **Names are told apart and nothing else is looked at.**  Let the names of a text be changed so that they stay apart,
none of them looking like a temporary or being the text of a number.  If the text is accepted, so is the one under the
other names: with the other names declared, and with the code in which every operand and destination that is a name of
the text is changed.  If it is refused, so is the other one, for a fault of the same category with the same message but
for the name in it, and at the same token or again for the end.  Of the new names it is only asked that they stay apart. -/
theorem analyze_rename (ts : List Token) (r : String → String)
    (hinj : ∀ x y, Occurs ts .identifier x → Occurs ts .identifier y → r x = r y → x = y)
    (hname : ∀ x, Occurs ts .identifier x → isTemporaryName x = false ∧ ¬ Occurs ts .number x) :
    (∀ a, analyze ts = .ok a → ∃ a', analyze (ts.map (Token.rename r)) = .ok a' ∧
      (∀ x, x ∈ a'.declared ↔ ∃ y ∈ a.declared, r y = x) ∧ a'.code = a.code.map (Instr.rename (onNames ts r))) ∧
    ∀ e, analyze ts = .error e → ∃ e', analyze (ts.map (Token.rename r)) = .error e' ∧
      e'.diagnostic = ⟨e.diagnostic.category, (e.fault.rename r).message, e.diagnostic.found.map (Token.rename r)⟩ ∧
      (e.diagnostic.found = none ∨ ∃ k, RefusedAt ts k e ∧ RefusedAt (ts.map (Token.rename r)) k e') := by
  have hts : List.Forall₂ (Token.Renamed (onNames ts r)) ts (ts.map (Token.rename r)) := by
    rw [List.forall₂_map_right_iff, List.forall₂_same]
    exact fun t ht => Token.renamed_rename (fun x hx => (hname x hx).2) ht
  have hf : Separates (onNames ts r) ts := separates_onNames hinj (fun x hx => (hname x hx).1)
  cases analyze_renamed hts hf with
  | accepted a h h' =>
    refine ⟨fun b hb => ?_, fun e he => ?_⟩
    · obtain rfl : a = b := by simpa [h] using hb
      refine ⟨_, h', fun x => ?_, rfl⟩
      rw [Analysis.rename, Names.mem_map]
      refine exists_congr fun y => and_congr_right fun hy => ?_
      rw [onNames_of_occurs (occurs_of_mem_declared h hy)]
    · simp [h] at he
  | ended wanted h h' =>
    refine ⟨fun a ha => by simp [h] at ha, fun e he => ?_⟩
    obtain rfl : (⟨.expected wanted, none⟩ : Refusal) = e := by simpa [h] using he
    exact ⟨_, h', rfl, .inl rfl⟩
  | refused k t t' fault hk hk' h h' =>
    refine ⟨fun a ha => by simp [h.analyze_eq] at ha, fun e he => ?_⟩
    obtain rfl : (⟨fault, some t⟩ : Refusal) = e := by simpa [h.analyze_eq] using he
    obtain rfl : t.rename r = t' := by simpa [hk] using hk'
    refine ⟨_, h'.analyze_eq, ?_, .inr ⟨k, h, h'⟩⟩
    rw [h.rename_fault]
    cases fault <;> rfl

/-- The two names of a text change places: in its code, and in what is said about a name that is declared twice. -/
theorem analyze_rename_swap :
    (∃ a, analyze (tokenize "int y; int x; x = y + 1;") = .ok a ∧
      a.code = [.binary "t0" "y" .add "1", .copy "x" "t0"]) ∧
      ∃ e, analyze (tokenize "int y; int x; int y = 1;") = .error e ∧
        e.diagnostic = ⟨.redeclaration, "Variable 'y' already declared.", some ⟨.identifier, "y", ⟨1, 19⟩⟩⟩ := by
  let swap : String → String := Equiv.swap "x" "y"
  have hapart : ∀ (ts : List Token) (x y : String), Occurs ts .identifier x → Occurs ts .identifier y →
      swap x = swap y → x = y := fun _ _ _ _ _ heq => (Equiv.swap "x" "y").injective heq
  have hnames : ∀ ts : List Token, (∀ t ∈ ts, t.kind = .identifier →
      isTemporaryName t.lexeme = false ∧ ¬ Occurs ts .number t.lexeme) →
      ∀ x, Occurs ts .identifier x → isTemporaryName x = false ∧ ¬ Occurs ts .number x := by
    rintro ts hts x ⟨t, ht, hk, rfl⟩
    exact hts t ht hk
  have hok : analyze (tokenize "int x; int y; y = x + 1;") =
      .ok ⟨.ofList ["x", "y"], [.binary "t0" "x" .add "1", .copy "y" "t0"]⟩ := rfl
  have hbad : analyze (tokenize "int x; int y; int x = 1;") =
      .error ⟨.redeclared "x", some ⟨.identifier, "x", ⟨1, 19⟩⟩⟩ := rfl
  have hrenamed : (tokenize "int x; int y; y = x + 1;").map (Token.rename swap) =
      tokenize "int y; int x; x = y + 1;" := by decide +kernel
  have hrenamed' : (tokenize "int x; int y; int x = 1;").map (Token.rename swap) =
      tokenize "int y; int x; int y = 1;" := by decide +kernel
  constructor
  · obtain ⟨a, ha, -, hcode⟩ :=
      (analyze_rename _ swap (hapart _) (hnames (tokenize "int x; int y; y = x + 1;") (by decide +kernel))).1 _ hok
    rw [hrenamed] at ha
    exact ⟨a, ha, hcode.trans (by decide +kernel)⟩
  · obtain ⟨e, he, hshown, -⟩ :=
      (analyze_rename _ swap (hapart _) (hnames (tokenize "int x; int y; int x = 1;") (by decide +kernel))).2 _ hbad
    rw [hrenamed'] at he
    exact ⟨e, he, hshown.trans (by decide +kernel)⟩

end MiniLang
