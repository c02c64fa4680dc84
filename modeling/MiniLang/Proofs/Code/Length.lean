import MiniLang.Proofs.Code.Chain
import MiniLang.Proofs.Code.Postorder
/-!
# The length of code

How much code a text has can be counted on its tokens, without reading them as a program: a copy for each `=`, into the
name in front of it, and an operation for each operator between an `=` and the next semicolon, whatever conditions and
`print` statements there are besides (`code_counts`).
-/
namespace MiniLang

/-! ## A scan of the tokens -/

/-- The tokens between an `=` and the next semicolon; `inside` says whether the first one stands there. -/
def valueTokens (inside : Bool) : List Token → List Token
  | [] => []
  | t :: ts =>
    match t.kind with
    | .assign => valueTokens true ts
    | .semicolon => valueTokens false ts
    | _ => if inside then t :: valueTokens inside ts else valueTokens inside ts

/-- The texts of the tokens that stand directly in front of an `=`. -/
def targetTexts : List Token → List String
  | t :: sign :: ts => if sign.kind = .assign then t.lexeme :: targetTexts (sign :: ts) else targetTexts (sign :: ts)
  | [_] | [] => []

/-- The operation that a token stands for. -/
def Token.operation? (t : Token) : Option Op := if t.kind = .operator then Op.ofSymbol? t.lexeme else none

theorem Token.operation?_eq_some {t : Token} {op : Op} :
    t.operation? = some op ↔ t.kind = .operator ∧ t.lexeme = op.symbol := by
  unfold Token.operation?
  by_cases h : t.kind = .operator
  · simp [h, Op.ofSymbol?_eq_some]
  · simp [h]

/-- A token as it stands in an expression: it begins and ends no value, and if it is an operator, it is one of the
four. -/
structure Token.Inner (t : Token) : Prop where
  assign : t.kind ≠ .assign
  semicolon : t.kind ≠ .semicolon
  operator : t.kind = .operator → t.operation?.isSome

theorem Leaf.inner {k : Kind} (t : Leaf (.kind k)) (ha : k ≠ .assign) (hs : k ≠ .semicolon) (ho : k ≠ .operator) :
    t.token.Inner := by
  rw [← t.kind_eq] at ha hs ho
  exact ⟨ha, hs, fun h => absurd h ho⟩

theorem Leaf.inner_operator {op : Op} (t : Leaf (.operator op)) : t.token.Inner where
  assign := by simp [t.fits.1]
  semicolon := by simp [t.fits.1]
  operator _ := Option.isSome_of_mem (Token.operation?_eq_some.2 t.fits)

variable {u : Use}

mutual

theorem Factor.inner : ∀ f : Factor u, ∀ t ∈ f.tokens, t.Inner
  | .name x, t, ht => by
    obtain rfl := List.mem_singleton.1 ht
    exact x.inner (by decide) (by decide) (by decide)
  | .number x, t, ht => by
    obtain rfl := List.mem_singleton.1 ht
    exact x.inner (by decide) (by decide) (by decide)
  | .group left a c right, t, ht => by
    rw [Factor.tokens, List.mem_cons, List.mem_append, List.mem_append, List.mem_singleton] at ht
    rcases ht with rfl | ht | ht | rfl
    · exact left.inner (by decide) (by decide) (by decide)
    · exact a.inner t ht
    · exact c.inner t ht
    · exact right.inner (by decide) (by decide) (by decide)

theorem Term.inner : ∀ a : Term u, ∀ t ∈ a.tokens, t.Inner
  | .factor f, t, ht => f.inner t ht
  | .times a op _ sign f, t, ht => by
    rw [Term.tokens, List.mem_append, List.mem_cons] at ht
    rcases ht with ht | rfl | ht
    · exact a.inner t ht
    · exact sign.inner_operator
    · exact f.inner t ht

theorem Arith.inner : ∀ a : Arith u, ∀ t ∈ a.tokens, t.Inner
  | .term a, t, ht => a.inner t ht
  | .plus a op _ sign b, t, ht => by
    rw [Arith.tokens, List.mem_append, List.mem_cons] at ht
    rcases ht with ht | rfl | ht
    · exact a.inner t ht
    · exact sign.inner_operator
    · exact b.inner t ht

theorem Comparison.inner : ∀ c : Comparison u, ∀ t ∈ c.tokens, t.Inner
  | .absent, t, ht => absurd ht List.not_mem_nil
  | .present _ sign a, t, ht => by
    rw [Comparison.tokens, List.mem_cons] at ht
    rcases ht with rfl | ht
    · exact sign.inner (by decide) (by decide) (by decide)
    · exact a.inner t ht

end

theorem Head.not_assign {k : Keyword} (h : Head k) : ∀ t ∈ h.tokens, t.kind ≠ .assign := by
  intro t ht
  simp only [Head.tokens, Condition.tokens, List.mem_cons, List.mem_append, List.not_mem_nil, or_false] at ht
  rcases ht with rfl | rfl | (ht | ht) | rfl
  · simp [h.word.kind_keyword]
  · simp [h.left.kind_eq]
  · exact (h.condition.arith.inner t ht).assign
  · exact (h.condition.comparison.inner t ht).assign
  · simp [h.right.kind_eq]

/-! ## What the scan finds -/

/-- A scan of these tokens, outside of any value, finds these targets and these tokens of values. -/
structure Scanned (us : List Token) (targets : List String) (values : List Token) : Prop where
  head : ∀ t ∈ us.head?, t.kind ≠ .assign
  targetTexts : ∀ ts, (∀ t ∈ ts.head?, t.kind ≠ .assign) → targetTexts (us ++ ts) = targets ++ targetTexts ts
  valueTokens : ∀ ts, valueTokens false (us ++ ts) = values ++ valueTokens false ts

theorem targetTexts_cons {t : Token} {ts : List Token} (h : ∀ t ∈ ts.head?, t.kind ≠ .assign) :
    targetTexts (t :: ts) = targetTexts ts := by
  cases ts with
  | nil => rfl
  | cons sign ts => rw [targetTexts, if_neg (h sign rfl)]

theorem valueTokens_skip {t : Token} (h : t.kind ≠ .assign) (ts : List Token) :
    valueTokens false (t :: ts) = valueTokens false ts := by
  rw [valueTokens]
  split
  · next hk => exact absurd hk h
  · rfl
  · rfl

theorem valueTokens_inner : ∀ {us : List Token} (_ : ∀ t ∈ us, t.Inner) (ts : List Token),
    valueTokens true (us ++ ts) = us ++ valueTokens true ts
  | [], _, _ => rfl
  | t :: us, h, ts => by
    have ht : t.Inner := h t List.mem_cons_self
    rw [List.cons_append, valueTokens]
    split
    · next hk => exact absurd hk ht.assign
    · next hk => exact absurd hk ht.semicolon
    · rw [if_pos rfl, valueTokens_inner (fun t ht => h t (List.mem_cons_of_mem _ ht)), List.cons_append]

namespace Scanned

variable {us us' : List Token} {targets targets' : List String} {values values' : List Token}

theorem nil : Scanned [] [] [] := ⟨by simp, fun _ _ => rfl, fun _ => rfl⟩

theorem head_append {ts : List Token} (h : Scanned us targets values) (hts : ∀ t ∈ ts.head?, t.kind ≠ .assign) :
    ∀ t ∈ (us ++ ts).head?, t.kind ≠ .assign := by
  cases us with
  | nil => exact hts
  | cons t us => exact h.head

theorem append (h : Scanned us targets values) (h' : Scanned us' targets' values') :
    Scanned (us ++ us') (targets ++ targets') (values ++ values') where
  head := h.head_append h'.head
  targetTexts ts hts := by
    rw [List.append_assoc, h.targetTexts _ (h'.head_append hts), h'.targetTexts ts hts, List.append_assoc]
  valueTokens ts := by
    rw [List.append_assoc, h.valueTokens, h'.valueTokens, List.append_assoc]

theorem cons {t : Token} (ht : t.kind ≠ .assign) (h : Scanned us targets values) : Scanned (t :: us) targets values where
  head := by simpa using ht
  targetTexts ts hts := by
    rw [List.cons_append, targetTexts_cons (h.head_append hts)]
    exact h.targetTexts ts hts
  valueTokens ts := by
    rw [List.cons_append, valueTokens_skip ht]
    exact h.valueTokens ts

/-- Tokens without an `=` hold nothing that is looked for. -/
theorem skip : ∀ {us : List Token}, (∀ t ∈ us, t.kind ≠ .assign) → Scanned us [] []
  | [], _ => nil
  | t :: _, h => cons (h t List.mem_cons_self) (skip fun t ht => h t (List.mem_cons_of_mem _ ht))

theorem assignment (target : Leaf (.kind .identifier)) (sign : Leaf (.kind .assign)) (value : Arith .lowered)
    (endMark : Leaf (.kind .semicolon)) :
    Scanned (target.token :: sign.token :: (value.tokens ++ [endMark.token])) [target.token.lexeme] value.tokens where
  head := by simp [target.kind_eq]
  targetTexts ts hts := by
    have hvalue : Scanned (value.tokens ++ [endMark.token]) [] [] :=
      (skip fun t ht => (value.inner t ht).assign).append (skip (by simp [endMark.kind_eq]))
    rw [List.cons_append, List.cons_append, MiniLang.targetTexts, if_pos sign.kind_eq,
      targetTexts_cons (hvalue.head_append hts), hvalue.targetTexts ts hts]
    rfl
  valueTokens ts := by
    have hend : MiniLang.valueTokens true (endMark.token :: ts) = MiniLang.valueTokens false ts := by
      rw [MiniLang.valueTokens, endMark.kind_eq]
    have hsign : ∀ ws, MiniLang.valueTokens false (sign.token :: ws) = MiniLang.valueTokens true ws := by
      intro ws
      rw [MiniLang.valueTokens, sign.kind_eq]
    rw [List.cons_append, valueTokens_skip (by simp [target.kind_eq]), List.cons_append, hsign, List.append_assoc,
      valueTokens_inner value.inner, List.singleton_append, hend]

end Scanned

mutual

theorem Statement.scanned : ∀ s : Statement,
    Scanned s.tokens ((assigns s.events).map Prod.fst) (s.values.flatMap Arith.tokens)
  | .declaration word name endMark =>
    .skip (by simp [Statement.tokens, word.kind_keyword, name.kind_eq, endMark.kind_eq])
  | .assignment target sign value endMark => by
    rw [Statement.values, List.flatMap_singleton]
    exact .assignment target sign value endMark
  | .branch head body other => by
    rw [Statement.events, assigns_append, List.map_append, Statement.values, List.flatMap_append]
    exact (Scanned.skip head.not_assign).append (body.scanned.append other.scanned)
  | .loop head body => (Scanned.skip head.not_assign).append body.scanned
  | .print head endMark => by
    rw [Statement.events, head.condition.assigns_mention]
    exact (Scanned.skip head.not_assign).append (.skip (by simp [endMark.kind_eq]))

theorem Block.scanned : ∀ b : Block,
    Scanned b.tokens ((assigns b.events).map Prod.fst) (b.values.flatMap Arith.tokens)
  | .braces left p right => by
    have hright : Scanned [right.token] [] [] := .skip (by simp [right.kind_eq])
    have h := (p.scanned.append hright).cons (t := left.token) (by simp [left.kind_eq])
    rwa [List.append_nil, List.append_nil] at h

theorem Alternative.scanned : ∀ o : Alternative,
    Scanned o.tokens ((assigns o.events).map Prod.fst) (o.values.flatMap Arith.tokens)
  | .absent => .nil
  | .present word body => body.scanned.cons (by simp [word.kind_keyword])

/-- **The scan of a program finds its targets and its right-hand sides.** -/
theorem Program.scanned : ∀ p : Program,
    Scanned p.tokens (p.assignments.map Prod.fst) (p.values.flatMap Arith.tokens)
  | .done => .nil
  | .next s p => by
    rw [Program.assignments, Program.events, assigns_append, List.map_append, Program.values, List.flatMap_append]
    exact s.scanned.append p.scanned

end

/-- Behind the first token, there is a target for each `=`. -/
theorem length_targetTexts : ∀ (ts : List Token) (t : Token),
    (targetTexts (t :: ts)).length = ts.countP (·.kind = .assign)
  | [], _ => rfl
  | sign :: ts, t => by
    rw [targetTexts]
    by_cases hs : sign.kind = .assign
    · rw [if_pos hs, List.length_cons, length_targetTexts ts sign, List.countP_cons_of_pos (by simpa using hs)]
    · rw [if_neg hs, length_targetTexts ts sign, List.countP_cons_of_neg (by simpa using hs)]

theorem Program.countP_assign (p : Program) : p.tokens.countP (·.kind = .assign) = p.assignments.length := by
  have hhead := p.scanned.head
  have htargets := p.scanned.targetTexts [] (by simp)
  rw [List.append_nil, targetTexts, List.append_nil] at htargets
  rw [← List.length_map (f := Prod.fst), ← htargets]
  cases hp : p.tokens with
  | nil => rfl
  | cons t ts =>
    rw [hp] at hhead
    rw [length_targetTexts, List.countP_cons_of_neg (by simpa using hhead t rfl)]

/-! ## Operations -/

def Instr.operation? : Instr → Option Op
  | binary _ _ op _ => some op
  | copy .. => none

/-- An instruction is an operation or a copy. -/
theorem length_code : ∀ code : List Instr,
    code.length = (code.filterMap Instr.operation?).length + (code.filterMap Instr.target?).length
  | [] => rfl
  | .binary .. :: code => by
    rw [List.length_cons, length_code code]
    exact Nat.add_right_comm ..
  | .copy .. :: code => congrArg (· + 1) (length_code code)

/-- The operations of an expression, from left to right. -/
def Expr.ops : Expr → List Op
  | name _ | number _ => []
  | binary op left right => left.ops ++ op :: right.ops

theorem Expr.operations_perm : ∀ (e : Expr) (n : Nat), ((e.instrs n).filterMap Instr.operation?).Perm e.ops
  | name _, _ | number _, _ => .nil
  | binary op left right, n => by
    have hboth := (left.operations_perm n).append (right.operations_perm (n + left.operations))
    have hlast : ((binary op left right).instrs n).filterMap Instr.operation? =
        (left.instrs n).filterMap Instr.operation? ++
          (right.instrs (n + left.operations)).filterMap Instr.operation? ++ [op] := by
      rw [instrs, List.filterMap_append, List.filterMap_append]
      rfl
    -- the operation is written behind both sides and stands between them
    have hmiddle : (left.ops ++ right.ops ++ [op]).Perm (left.ops ++ op :: right.ops) := by
      rw [List.append_assoc]
      exact (List.perm_append_singleton op right.ops).append_left left.ops
    rw [hlast]
    exact (hboth.append_right [op]).trans hmiddle

theorem operations_assignmentCode_perm : ∀ (as : List (String × Expr)) (n : Nat),
    ((assignmentCode n as).filterMap Instr.operation?).Perm (as.flatMap (·.2.ops))
  | [], _ => .nil
  | (x, e) :: as, n => by
    have hcopy : Instr.operation? (.copy x (e.operand n)) = none := rfl
    rw [assignmentCode, List.filterMap_append, List.filterMap_cons_none hcopy, List.flatMap_cons]
    exact (e.operations_perm n).append (operations_assignmentCode_perm as (n + e.operations))

theorem Token.operation?_of_kind {t : Token} (h : t.kind ≠ .operator) : t.operation? = none := if_neg h

mutual

theorem Factor.filterMap_operation : ∀ f : Factor .lowered, f.tokens.filterMap Token.operation? = f.expr.ops
  | .name t => List.filterMap_cons_none (Token.operation?_of_kind (by simp [t.kind_eq]))
  | .number t => List.filterMap_cons_none (Token.operation?_of_kind (by simp [t.kind_eq]))
  | .group left a .absent right => by
    have hleft : left.token.operation? = none := Token.operation?_of_kind (by simp [left.kind_eq])
    have hright : right.token.operation? = none := Token.operation?_of_kind (by simp [right.kind_eq])
    rw [Factor.tokens, List.filterMap_cons_none hleft, List.filterMap_append, a.filterMap_operation, Comparison.tokens,
      List.nil_append, List.filterMap_cons_none hright, List.filterMap_nil, List.append_nil, Factor.expr]

theorem Term.filterMap_operation : ∀ a : Term .lowered, a.tokens.filterMap Token.operation? = a.expr.ops
  | .factor f => f.filterMap_operation
  | .times a op _ sign f => by
    rw [Term.tokens, List.filterMap_append, List.filterMap_cons_some (Token.operation?_eq_some.2 sign.fits),
      a.filterMap_operation, f.filterMap_operation, Term.expr, Expr.ops]

/-- **The operators of a right-hand side are the operations of its tree**, from left to right. -/
theorem Arith.filterMap_operation : ∀ a : Arith .lowered, a.tokens.filterMap Token.operation? = a.expr.ops
  | .term a => a.filterMap_operation
  | .plus a op _ sign b => by
    rw [Arith.tokens, List.filterMap_append, List.filterMap_cons_some (Token.operation?_eq_some.2 sign.fits),
      a.filterMap_operation, b.filterMap_operation, Arith.expr, Expr.ops]

end

namespace Program

theorem valueTokens_tokens (p : Program) : valueTokens false p.tokens = p.values.flatMap Arith.tokens := by
  have h := p.scanned.valueTokens []
  rwa [List.append_nil, valueTokens, List.append_nil] at h

theorem targetTexts_tokens (p : Program) : targetTexts p.tokens = p.assignments.map Prod.fst := by
  have h := p.scanned.targetTexts [] (by simp)
  rwa [List.append_nil, targetTexts, List.append_nil] at h

/-- **The operations of the code are the operators of the right-hand sides**, in another order. -/
theorem operations_perm (p : Program) :
    (p.code.filterMap Instr.operation?).Perm ((valueTokens false p.tokens).filterMap Token.operation?) := by
  have hops : p.assignments.flatMap (·.2.ops) = (valueTokens false p.tokens).filterMap Token.operation? := by
    calc p.assignments.flatMap (·.2.ops)
        = (p.assignments.map Prod.snd).flatMap Expr.ops := (List.flatMap_map ..).symm
      _ = (p.values.map Arith.expr).flatMap Expr.ops := congrArg (List.flatMap Expr.ops) p.map_values
      _ = p.values.flatMap (·.expr.ops) := List.flatMap_map ..
      _ = p.values.flatMap (·.tokens.filterMap Token.operation?) := by simp only [Arith.filterMap_operation]
      _ = (p.values.flatMap Arith.tokens).filterMap Token.operation? := (List.filterMap_flatMap ..).symm
      _ = (valueTokens false p.tokens).filterMap Token.operation? := by rw [p.valueTokens_tokens]
  rw [code_eq, ← hops]
  exact operations_assignmentCode_perm p.assignments 0

theorem inner_of_mem_valueTokens {p : Program} {t : Token} (h : t ∈ valueTokens false p.tokens) : t.Inner := by
  rw [valueTokens_tokens] at h
  obtain ⟨a, -, ht⟩ := List.mem_flatMap.1 h
  exact a.inner t ht

end Program

theorem count_operation (ts : List Token) (op : Op) :
    (ts.filterMap Token.operation?).count op = ts.countP fun t => t.kind = .operator ∧ t.lexeme = op.symbol := by
  rw [List.count_eq_countP, List.countP_filterMap]
  refine List.countP_congr (fun t _ => ?_)
  have hsome : (t.operation?.map (· == op)).getD false = true ↔ t.operation? = some op := by
    cases t.operation? <;> simp
  rw [hsome, Token.operation?_eq_some, decide_eq_true_iff]

theorem length_operations {ts : List Token} (h : ∀ t ∈ ts, t.Inner) :
    (ts.filterMap Token.operation?).length = ts.countP (·.kind = .operator) := by
  rw [List.length_filterMap_eq_countP]
  refine List.countP_congr (fun t ht => ?_)
  rw [decide_eq_true_iff]
  constructor
  · intro hsome
    obtain ⟨op, hop⟩ := Option.isSome_iff_exists.1 hsome
    exact (Token.operation?_eq_some.1 hop).1
  · exact (h t ht).operator

/-- **The code of a text is counted on its tokens.**  The copies are as many as the `=`, and their targets are the texts in
front of these, in order.  Of each operation there are as many instructions as the text has operators of this kind between
an `=` and the next semicolon.  So the code is as long as there are operators in right-hand sides and assignments. -/
theorem code_counts (ts : List Token) (a : Analysis) (h : analyze ts = .ok a) :
    a.code.filterMap Instr.target? = targetTexts ts ∧
      (a.code.filterMap Instr.target?).length = ts.countP (·.kind = .assign) ∧
      (∀ op, (a.code.filterMap Instr.operation?).count op =
        (valueTokens false ts).countP fun t => t.kind = .operator ∧ t.lexeme = op.symbol) ∧
      a.code.length = (valueTokens false ts).countP (·.kind = .operator) + ts.countP (·.kind = .assign) := by
  obtain ⟨p, rfl, -, rfl⟩ := analyze_eq_ok_iff.1 h
  have hcode : p.analysis.code = p.code := rfl
  have hassign : (p.code.filterMap Instr.target?).length = p.tokens.countP (·.kind = .assign) := by
    rw [p.filterMap_target_code, List.length_map, p.countP_assign]
  rw [hcode]
  refine ⟨?_, hassign, fun op => ?_, ?_⟩
  · rw [p.filterMap_target_code, p.targetTexts_tokens]
  · rw [p.operations_perm.count, count_operation]
  · rw [length_code, hassign, p.operations_perm.length_eq,
      length_operations (fun t ht => Program.inner_of_mem_valueTokens ht)]

/-- The sum in the condition and the product in the `print` write no code, the difference in parentheses does. -/
theorem counts_behind_condition :
    analyze (tokenize "int a; if (a < 1 + 2) \x7b a = (a - 1) - a; print(a * a); \x7d a = a;") =
        .ok ⟨.ofList ["a"],
          [.binary "t0" "a" .sub "1", .binary "t1" "t0" .sub "a", .copy "a" "t1", .copy "a" "a"]⟩ ∧
      targetTexts (tokenize "int a; if (a < 1 + 2) \x7b a = (a - 1) - a; print(a * a); \x7d a = a;") = ["a", "a"] ∧
      (valueTokens false (tokenize "int a; if (a < 1 + 2) \x7b a = (a - 1) - a; print(a * a); \x7d a = a;")).countP
        (fun t => t.kind = .operator ∧ t.lexeme = "-") = 2 := by
  have h : analyze (tokenize "int a; if (a < 1 + 2) \x7b a = (a - 1) - a; print(a * a); \x7d a = a;") =
      .ok ⟨.ofList ["a"],
        [.binary "t0" "a" .sub "1", .binary "t1" "t0" .sub "a", .copy "a" "t1", .copy "a" "a"]⟩ := rfl
  obtain ⟨htargets, -, hoperations, -⟩ := code_counts _ _ h
  exact ⟨h, htargets.symm, (hoperations .sub).symm⟩

end MiniLang
