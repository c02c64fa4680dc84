import MiniLang.Proofs.Code.Freshness
import MiniLang.Proofs.Grammar.Rendering
import MiniLang.Proofs.Grammar.Target
/-!
# Assignments in post-order

What an assignment adds to the code, wherever it is met and however its right-hand side is put in parentheses: the
operations of the tree in post-order, each into the next temporary, and the copy of its value
(`Renders.meet_assignment`).  The right-hand sides of a program are its `values`; each of them renders one tree, the one
that is lowered.
-/
namespace MiniLang

/-- A statement may stand here, and behind it `gs` is left to be met. -/
inductive Goal.Starts : List Goal → List Goal → Prop where
  | statements {gs : List Goal} : Starts (statements :: gs) (statements :: gs)
  | statement {gs : List Goal} : Starts (statement :: gs) gs
  | body {gs : List Goal} : Starts (body :: gs) (body :: gs)
  | alternative {gs gs' : List Goal} (h : Starts gs gs') : Starts (alternative :: gs) gs'

theorem Goal.Starts.read_identifier {gs gs' : List Goal} (h : Starts gs gs') (held : Expr)
    (t : Leaf (.kind .identifier)) :
    read held t.token gs = .take (mark .assign :: (arithmetic .lowered ++ assigned t.token.lexeme :: gs')) held
      (some (.mention t.token.lexeme)) := by
  induction h with
  | statements => exact Goal.read_identifier loops_statements held t
  | body => exact Goal.read_identifier loops_body held t
  | @statement gs =>
    have henter : read held t.token (Goal.statement :: gs) = enter gs held t.token := by rw [read]
    rw [henter, enter, openStatement_identifier t.kind_eq]
    simp
  | alternative _ ih =>
    have hword : t.token.keyword? ≠ some .elseWord := by simp [Token.keyword?, t.kind_eq]
    rw [read, if_neg hword, ih]

theorem Goal.exists_starts : ∀ {gs : List Goal}, Grounded gs → Aligned .rest gs → ∃ gs', Starts gs gs'
  | _, .floor, _ => ⟨_, .statements⟩
  | g :: gs, .above hg h, ⟨hstage, hgs⟩ => by
    cases g with
    | statements => exact absurd rfl hg
    | statement => exact ⟨_, .statement⟩
    | body => exact ⟨_, .body⟩
    | alternative =>
      obtain ⟨gs', hstarts⟩ := exists_starts h hgs
      exact ⟨gs', .alternative hstarts⟩
    | mark m =>
      cases m with
      | openHead k => cases k <;> cases hstage
      | _ => cases hstage
    | _ => cases hstage

/-- A reader that has come to the target of an assignment is where a statement may stand. -/
theorem Reader.Reads.exists_starts {pre : List Token} {r : Reader} {t : Token} (h : start.Reads pre r)
    (ht : TargetAt (pre ++ [t]) pre.length) : ∃ gs, Goal.Starts r.goals gs := by
  obtain ⟨-, hstage, -⟩ := targetAt_iff.1 ht
  have haligned := (h.tracks tracks_start).aligned
  rw [List.nil_append, hstage] at haligned
  exact Goal.exists_starts (h.grounded .floor) haligned

/-- **An assignment adds the code of its tree**, and no other, to the code written before it. -/
theorem Renders.meet_assignment {e : Expr} {n : Nat} {ts : List Token} (h : Renders e n ts)
    (target : Leaf (.kind .identifier)) (sign : Leaf (.kind .assign)) (endMark : Leaf (.kind .semicolon)) {r : Reader}
    {gs : List Goal} (hstarts : Goal.Starts r.goals gs) (hx : target.token.lexeme ∈ r.draft.declared)
    (rest : List Token) :
    r.meet (target.token :: sign.token :: (ts ++ endMark.token :: rest)) =
      Reader.meet ⟨gs, default, ⟨r.draft.declared, r.draft.builder.assign target.token.lexeme e⟩⟩ rest := by
  obtain ⟨a, rfl, rfl⟩ := h.exists_arith (u := .lowered)
  have hmention : r.draft.note (.mention target.token.lexeme) = .ok r.draft := if_pos (Names.contains_iff.2 hx)
  have hnote : r.draft.noteAll [.mention target.token.lexeme, .assign target.token.lexeme a.expr] =
      .ok ⟨r.draft.declared, r.draft.builder.assign target.token.lexeme a.expr⟩ := by
    rw [Draft.noteAll, hmention]
    rfl
  have hmeet : r.draft.Leads [.mention target.token.lexeme, .assign target.token.lexeme a.expr]
      (r.meet (target.token :: sign.token :: (a.tokens ++ endMark.token :: rest)))
      (fun d' => Reader.meet ⟨gs, default, d'⟩ rest) :=
    a.meet_assignment target sign endMark (hstarts.read_identifier r.held target)
  exact hmeet.eq_of_ok hnote

/-! ## Right-hand sides -/

mutual

def Statement.values : Statement → List (Arith .lowered)
  | .declaration .. => []
  | .assignment _ _ value _ => [value]
  | .branch _ body other => body.values ++ other.values
  | .loop _ body => body.values
  | .print .. => []

def Block.values : Block → List (Arith .lowered)
  | .braces _ p _ => p.values

def Alternative.values : Alternative → List (Arith .lowered)
  | .absent => []
  | .present _ body => body.values

/-- The right-hand sides of a program in the order in which they stand. -/
def Program.values : Program → List (Arith .lowered)
  | .done => []
  | .next s p => s.values ++ p.values

end

theorem assigns_append (es fs : List Event) : assigns (es ++ fs) = assigns es ++ assigns fs := List.filterMap_append

theorem Condition.assigns_mention (c : Condition) : assigns c.mention = [] := by
  rcases c.mention_cases with h | ⟨x, h⟩
  · rw [h]
    rfl
  · rw [h]
    rfl

mutual

theorem Statement.map_values : ∀ s : Statement, (assigns s.events).map Prod.snd = s.values.map Arith.expr
  | .declaration .. => rfl
  | .assignment .. => rfl
  | .branch _ body other => by
    rw [Statement.events, assigns_append, List.map_append, body.map_values, other.map_values, ← List.map_append]
    rfl
  | .loop _ body => body.map_values
  | .print head _ => by
    rw [Statement.events, head.condition.assigns_mention]
    rfl

theorem Block.map_values : ∀ b : Block, (assigns b.events).map Prod.snd = b.values.map Arith.expr
  | .braces _ p _ => p.map_values

theorem Alternative.map_values : ∀ o : Alternative, (assigns o.events).map Prod.snd = o.values.map Arith.expr
  | .absent => rfl
  | .present _ body => body.map_values

theorem Program.map_values : ∀ p : Program, (assigns p.events).map Prod.snd = p.values.map Arith.expr
  | .done => rfl
  | .next s p => by
    rw [Program.events, assigns_append, List.map_append, s.map_values, p.map_values, ← List.map_append]
    rfl

end

/-- **The code of an assignment is the post-order of its tree**, wherever it is met and however the tree is put in
parentheses: it is added behind the code written before, the operations take the next temporaries one after the other,
and the value is copied into the target.  The right-hand sides of an accepted text render one tree each, and these
trees, in order, are what its code is made of. -/
theorem assignment_appends_postorder :
    (∀ (pre : List Token) (t : Token) (r : Reader), Reader.start.Reads pre r → TargetAt (pre ++ [t]) pre.length →
      ∃ gs, Goal.Starts r.goals gs) ∧
    (∀ (e : Expr) (k : Nat) (ts : List Token), Renders e k ts →
      ∀ (target : Leaf (.kind .identifier)) (sign : Leaf (.kind .assign)) (endMark : Leaf (.kind .semicolon))
        (r : Reader) (gs : List Goal), Goal.Starts r.goals gs → target.token.lexeme ∈ r.draft.declared →
        ∃ b : Builder,
          b.code = r.draft.builder.code ++ (e.instrs r.draft.builder.temps ++
            [.copy target.token.lexeme (e.operand r.draft.builder.temps)]) ∧
          b.temps = r.draft.builder.temps + e.operations ∧
          ∀ rest, r.meet (target.token :: sign.token :: (ts ++ endMark.token :: rest)) =
            Reader.meet ⟨gs, default, ⟨r.draft.declared, b⟩⟩ rest) ∧
      (∀ (e : Expr) (n : Nat),
        (e.instrs n).map Instr.result? = (List.range' n e.operations).map (some ∘ temporary)) ∧
      ∀ (ts : List Token) (a : Analysis), analyze ts = .ok a →
        (∃ p : Program, p.tokens = ts) ∧ ∀ p : Program, p.tokens = ts →
          p.assignments.map Prod.snd = p.values.map Arith.expr ∧ a.code = assignmentCode 0 p.assignments ∧
          ∀ v ∈ p.values, (∃ n, Renders v.expr n v.tokens) ∧ ∀ e n, Renders e n v.tokens → e = v.expr := by
  refine ⟨fun pre t r h ht => h.exists_starts ht, ?_, map_result_instrs, ?_⟩
  · intro e k ts h target sign endMark r gs hstarts hx
    exact ⟨r.draft.builder.assign target.token.lexeme e, Builder.code_assign _ _ _, Builder.temps_assign _ _ _,
      h.meet_assignment target sign endMark hstarts hx⟩
  · intro ts a ha
    obtain ⟨p, hp, -⟩ := analyze_eq_ok_iff.1 ha
    refine ⟨⟨p, hp⟩, ?_⟩
    rintro p rfl
    obtain ⟨-, rfl⟩ := analyze_program.1 ha
    refine ⟨p.map_values, p.code_eq, fun v _ => ⟨v.exists_renders, ?_⟩⟩
    intro e n he
    obtain ⟨m, hv⟩ := v.exists_renders
    exact he.unique hv

/-- Behind `if ( x ) { }`, where three temporaries are gone: `x = x - ( ( 2 * x ) )` takes `t3` and `t4`. -/
theorem postorder_behind_branch :
    (∃ e n, Renders e n (tokenize "x - ((2 * x))") ∧
      ∃ b : Builder,
        b.code = [.copy "x" "t2"] ++ [.binary "t3" "2" .mul "x", .binary "t4" "x" .sub "t3", .copy "x" "t4"] ∧
        b.temps = 5 ∧
        ∀ rest, Reader.meet ⟨[.alternative, .body, .statements], default, ⟨.ofList ["x"], ⟨[.copy "x" "t2"], 3⟩⟩⟩
            (⟨.identifier, "x", .start⟩ :: ⟨.assign, "=", .start⟩ ::
              (tokenize "x - ((2 * x))" ++ ⟨.semicolon, ";", .start⟩ :: rest)) =
          Reader.meet ⟨[.body, .statements], default, ⟨.ofList ["x"], b⟩⟩ rest) ∧
      analyze (tokenize "int x; x = x - ((2 * x));") =
        .ok ⟨.ofList ["x"], [.binary "t0" "2" .mul "x", .binary "t1" "x" .sub "t0", .copy "x" "t1"]⟩ ∧
      (∃ p : Program, p.tokens = tokenize "int x; x = x - ((2 * x));" ∧
        [Instr.binary "t0" "2" .mul "x", .binary "t1" "x" .sub "t0", .copy "x" "t1"] =
          assignmentCode 0 p.assignments) ∧
      TargetAt (tokenize "int x;" ++ [⟨.identifier, "x", ⟨1, 8⟩⟩]) 3 ∧ ∃ gs, Goal.Starts [.statements] gs := by
  let left : Leaf (.kind .leftParen) := ⟨⟨.leftParen, "(", ⟨1, 5⟩⟩, rfl⟩
  let inner : Leaf (.kind .leftParen) := ⟨⟨.leftParen, "(", ⟨1, 6⟩⟩, rfl⟩
  let right : Leaf (.kind .rightParen) := ⟨⟨.rightParen, ")", ⟨1, 12⟩⟩, rfl⟩
  let outer : Leaf (.kind .rightParen) := ⟨⟨.rightParen, ")", ⟨1, 13⟩⟩, rfl⟩
  have hproduct : Renders (.binary .mul (.number "2") (.name "x")) 1
      [⟨.number, "2", ⟨1, 7⟩⟩, ⟨.operator, "*", ⟨1, 9⟩⟩, ⟨.identifier, "x", ⟨1, 11⟩⟩] :=
    .binary (.number ⟨⟨.number, "2", ⟨1, 7⟩⟩, rfl⟩) ⟨⟨.operator, "*", ⟨1, 9⟩⟩, rfl, rfl⟩
      (.name ⟨⟨.identifier, "x", ⟨1, 11⟩⟩, rfl⟩) (by decide) (by decide)
  have htext : tokenize "x - ((2 * x))" =
      [⟨.identifier, "x", ⟨1, 1⟩⟩] ++ ⟨.operator, "-", ⟨1, 3⟩⟩ :: (left.token :: ((inner.token ::
        ([⟨.number, "2", ⟨1, 7⟩⟩, ⟨.operator, "*", ⟨1, 9⟩⟩, ⟨.identifier, "x", ⟨1, 11⟩⟩] ++ [right.token])) ++
          [outer.token])) := by
    decide +kernel
  have hrenders : Renders (.binary .sub (.name "x") (.binary .mul (.number "2") (.name "x"))) 0
      (tokenize "x - ((2 * x))") := by
    rw [htext]
    exact .binary (.name ⟨⟨.identifier, "x", ⟨1, 1⟩⟩, rfl⟩) ⟨⟨.operator, "-", ⟨1, 3⟩⟩, rfl, rfl⟩
      (.parens left (.parens inner hproduct right) outer) (by decide) (by decide)
  have ha : analyze (tokenize "int x; x = x - ((2 * x));") =
      .ok ⟨.ofList ["x"], [.binary "t0" "2" .mul "x", .binary "t1" "x" .sub "t0", .copy "x" "t1"]⟩ := rfl
  obtain ⟨⟨p, hp⟩, hvalues⟩ := assignment_appends_postorder.2.2.2 _ _ ha
  obtain ⟨-, hcode, -⟩ := hvalues p hp
  have hstart : tokenize "int x;" =
      [⟨.keyword, "int", ⟨1, 1⟩⟩, ⟨.identifier, "x", ⟨1, 5⟩⟩, ⟨.semicolon, ";", ⟨1, 6⟩⟩] := rfl
  have hreads : Reader.start.Reads (tokenize "int x;") ⟨[.statements], default, ⟨.ofList ["x"], .empty⟩⟩ := by
    rw [hstart]
    exact .cons rfl rfl (.cons rfl rfl (.cons rfl rfl .nil))
  have htarget : TargetAt (tokenize "int x;" ++ [⟨.identifier, "x", ⟨1, 8⟩⟩]) (tokenize "int x;").length := by
    refine targetAt_iff.2 ⟨⟨p, (tokenize "int x; x = x - ((2 * x));").drop 4, ?_⟩, rfl, rfl⟩
    rw [hp]
    rfl
  refine ⟨⟨_, 0, hrenders, ?_⟩, ha, ⟨p, hp, hcode⟩, htarget, assignment_appends_postorder.1 _ _ _ hreads htarget⟩
  exact assignment_appends_postorder.2.1 _ 0 _ hrenders ⟨⟨.identifier, "x", .start⟩, rfl⟩ ⟨⟨.assign, "=", .start⟩, rfl⟩
    ⟨⟨.semicolon, ";", .start⟩, rfl⟩ ⟨[.alternative, .body, .statements], default, ⟨.ofList ["x"], ⟨[.copy "x" "t2"], 3⟩⟩⟩
    [.body, .statements] (.alternative .body) (Names.mem_ofList.2 (by decide))

end MiniLang
