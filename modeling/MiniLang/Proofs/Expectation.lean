import MiniLang.Proofs.Category
/-!
# What a message expects

A message that something was expected names a sort of token, and a token of that sort could really stand there: behind
what was read before, it is taken and the text can be completed (`expected_could_stand`).  What a stack of goals calls
for is told from its top, below the goals that may be left behind (`Goal.CallsFor`).  A refused token and an end that
comes too early are answered with something that the stack calls for, and any token of that sort is taken.  One message
is never given: that of an assignment whose name is missing (`Goal.openStatement_error`).
-/
namespace MiniLang

/-- How a message writes a token of punctuation. -/
def Kind.sign : Kind → String
  | semicolon => "';'"
  | leftParen => "'('"
  | rightParen => "')'"
  | leftBrace => "'\x7b'"
  | rightBrace => "'\x7d'"
  | assign => "'='"
  | _ => ""

namespace Expected

/-- The sort of token that a message names. -/
def sort : Expected → String
  | mark m => m.kind.sign
  | statement => "a valid statement"
  | name => "variable name"
  | newName => "variable name after 'int'"
  | operand => "number, variable, or expression"

/-- The sorts that are ever named; a name alone is not among them. -/
def sorts : List String :=
  ["';'", "'('", "')'", "'\x7b'", "'\x7d'", "'='", "variable name after 'int'", "number, variable, or expression",
    "a valid statement"]

/-- The tokens of that sort; a new name is one that is not known yet. -/
def Admits (known : String → Prop) (t : Token) : Expected → Prop
  | mark m => t.kind = m.kind
  | statement => t.keyword? = some .intWord
  | name => t.kind = .identifier
  | newName => t.kind = .identifier ∧ ¬ known t.lexeme
  | operand => t.kind = .number ∨ t.kind = .leftParen

theorem sort_mem_sorts {w : Expected} (h : w ≠ name) : w.sort ∈ sorts := by
  cases w with
  | mark m => cases m <;> simp [sort, Mark.kind, Kind.sign, sorts]
  | name => exact absurd rfl h
  | statement | newName | operand => decide +kernel

theorem sort_in_message (w : Expected) : ("Expected " ++ w.sort).toList <+: w.message.toList := by
  cases w with
  | mark m =>
    cases m with
    | openHead k => cases k <;> decide +kernel
    | _ => decide +kernel
  | statement | name | newName | operand => decide +kernel

theorem message_ne_variable_name {w : Expected} (h : w ≠ name) : w.message ≠ "Expected variable name." := by
  intro hmessage
  have hsort : ("Expected " ++ w.sort).toList <+: "Expected variable name.".toList := hmessage ▸ w.sort_in_message
  have hnone : ∀ s ∈ sorts, ¬ ("Expected " ++ s).toList <+: "Expected variable name.".toList := by decide +kernel
  exact hnone _ (sort_mem_sorts h) hsort

variable {known : String → Prop} {t : Token}

theorem Admits.neutral {w : Expected} (h : w.Admits known t) : t.Neutral := by
  have hname : t.kind = .identifier → t.Neutral := fun hk =>
    Token.neutral_of_kind (by simp [hk]) (by simp [hk]) (by simp [hk])
  cases w with
  | mark m => exact Mark.neutral h
  | statement =>
    have hword : t.keyword? = some .intWord := h
    have hkind : t.kind = .keyword := (Token.keyword?_eq_some.1 hword).1
    exact ⟨by simp [hkind], by simp [hkind], by simp [hword]⟩
  | name => exact hname h
  | newName => exact hname h.1
  | operand => rcases h with h | h <;> exact Token.neutral_of_kind (by simp [h]) (by simp [h]) (by simp [h])

end Expected

namespace Goal

/-- The goals that are left behind at a token that they cannot take. -/
def mayPass : Goal → Bool
  | alternative | factors _ | terms _ | comparison | join .. => true
  | _ => false

/-- What a stack calls for, below the goals that may be left behind.  In a block it is two things. -/
inductive CallsFor : Expected → List Goal → Prop where
  | statements {gs : List Goal} : CallsFor .statement (statements :: gs)
  | statement {gs : List Goal} : CallsFor .statement (statement :: gs)
  | inBlock {gs : List Goal} : CallsFor .statement (body :: gs)
  | closing {gs : List Goal} : CallsFor (.mark .closeBlock) (body :: gs)
  | newName {gs : List Goal} : CallsFor .newName (newName :: gs)
  | mark {m : Mark} {gs : List Goal} : CallsFor (.mark m) (mark m :: gs)
  | printed {gs : List Goal} : CallsFor .operand (printed :: gs)
  | operand {u : Use} {gs : List Goal} : CallsFor .operand (operand u :: gs)
  | assigned {x : String} {gs : List Goal} : CallsFor (.mark .endAssignment) (assigned x :: gs)
  | passing {w : Expected} {g : Goal} {gs : List Goal} (hg : g.mayPass) (h : CallsFor w gs) : CallsFor w (g :: gs)

variable {g : Goal} {gs : List Goal} {t : Token} {w : Expected}

/-! ## What is answered is called for -/

theorem CallsFor.ne_name (h : CallsFor w gs) : w ≠ .name := by
  induction h with
  | passing _ _ ih => exact ih
  | _ => simp

/-- The name of an assignment is asked for where it has been seen, so it is never missed. -/
theorem openStatement_error (h : openStatement t = .error w) : w = .statement := by
  unfold openStatement at h
  split at h
  · next hk =>
    rw [openAssignment, if_pos hk] at h
    cases h
  · split at h <;> cases h
    rfl
  · cases h
    rfl

theorem refuse_enter {held : Expr} (h : enter gs held t = .refuse w) : w = .statement := by
  unfold enter at h
  split at h
  · cases h
  · next wanted hopen =>
    cases h
    exact openStatement_error hopen

theorem refuse_enterOperand {u : Use} {held : Expr} (h : enterOperand u gs held t = .refuse w) : w = .operand := by
  unfold enterOperand at h
  split at h <;> cases h
  rfl

theorem callsFor_of_read : ∀ {gs : List Goal} {held : Expr}, read held t gs = .refuse w → CallsFor w gs
  | [], held, h => by cases h
  | g :: gs, held, h => by
    cases g with
    | statements =>
      obtain rfl := refuse_enter h
      exact .statements
    | statement =>
      obtain rfl := refuse_enter h
      exact .statement
    | body =>
      rw [read] at h
      split at h
      · cases h
      · obtain rfl := refuse_enter h
        exact .inBlock
    | alternative | factors u | terms u | comparison =>
      rw [read] at h
      split at h
      · cases h
      · exact .passing rfl (callsFor_of_read h)
    | newName =>
      rw [read] at h
      split at h <;> cases h
      exact .newName
    | mark m =>
      rw [read] at h
      split at h <;> cases h
      exact .mark
    | printed =>
      rw [read] at h
      split at h
      · cases h
      · obtain rfl := refuse_enterOperand h
        exact .printed
    | operand u =>
      obtain rfl := refuse_enterOperand h
      exact .operand
    | join op left =>
      rw [read] at h
      exact .passing rfl (callsFor_of_read h)
    | assigned x =>
      rw [read] at h
      split at h <;> cases h
      exact .assigned

/-- At the end of the text nothing but statements may be left to read. -/
theorem callsFor_of_close (hground : Grounded gs) : ∀ {held : Expr}, close held gs = .error w → CallsFor w gs := by
  induction hground with
  | floor =>
    intro held h
    cases h
  | @above g gs hg _ ih =>
    intro held h
    cases g with
    | statements => exact absurd rfl hg
    | statement =>
      cases h
      exact .statement
    | body =>
      cases h
      exact .closing
    | newName =>
      cases h
      exact .newName
    | mark m =>
      cases h
      exact .mark
    | printed =>
      cases h
      exact .printed
    | operand u =>
      cases h
      exact .operand
    | assigned x =>
      cases h
      exact .assigned
    | alternative | factors u | terms u | comparison | join op left =>
      rw [close] at h
      exact .passing rfl (ih h)

/-! ## What is called for is taken -/

theorem read_of_mayPass (hg : g.mayPass) (ht : t.Neutral) (held : Expr) :
    ∃ held', read held t (g :: gs) = read held' t gs := by
  cases g with
  | alternative => exact ⟨held, by rw [read, if_neg ht.elseWord]⟩
  | factors u => exact ⟨held, by rw [read, operator?_of_kind ht.operator]⟩
  | terms u => exact ⟨held, by rw [read, operator?_of_kind ht.operator]⟩
  | comparison => exact ⟨held, by rw [read, if_neg ht.comparator]⟩
  | join op left => exact ⟨.binary op left held, rfl⟩
  | statements | statement | body | newName | mark | printed | operand | assigned => cases hg

/-- The token is taken and what it says is noted. -/
def Taken (d : Draft) : Move → Prop
  | .take _ _ event => ∃ d', d.noteAny event = .ok d'
  | .pass _ => False
  | .refuse _ => False

theorem taken_enter {d : Draft} (h : t.keyword? = some .intWord) (gs : List Goal) (held : Expr) :
    Taken d (enter gs held t) := by
  have hkind : t.kind = .keyword := (Token.keyword?_eq_some.1 h).1
  have hopen : openStatement t = .ok ([newName, mark .endDeclaration], none) := by
    rw [openStatement, hkind]
    simp only [h]
  rw [enter, hopen]
  exact ⟨d, rfl⟩

theorem taken_enterOperand {d : Draft} (h : t.kind = .number ∨ t.kind = .leftParen) (u : Use) (gs : List Goal)
    (held : Expr) : Taken d (enterOperand u gs held t) := by
  unfold enterOperand
  rcases h with h | h
  · rw [h]
    exact ⟨d, rfl⟩
  · rw [h]
    exact ⟨d, rfl⟩

/-- **A token of the sort that a stack calls for is taken**, and nothing is wrong with what it says. -/
theorem CallsFor.taken {known : String → Prop} {d : Draft} (h : CallsFor w gs) (ht : w.Admits known t)
    (hd : ∀ x, x ∈ d.declared → known x) : ∀ held, Taken d (read held t gs) := by
  have hneutral : t.Neutral := ht.neutral
  induction h with
  | statements => exact taken_enter ht _
  | statement => exact taken_enter ht _
  | inBlock =>
    intro held
    have hkind : t.kind = .keyword := (Token.keyword?_eq_some.1 ht).1
    rw [read, if_neg (by simp [hkind])]
    exact taken_enter ht _ held
  | closing =>
    intro held
    have hkind : t.kind = .rightBrace := ht
    rw [read, if_pos hkind]
    exact ⟨d, rfl⟩
  | newName =>
    intro held
    have hcontains : ¬ d.declared.contains t.lexeme = true := fun hc => ht.2 (hd _ (Names.contains_iff.1 hc))
    rw [read, if_pos ht.1]
    exact ⟨_, if_neg hcontains⟩
  | @mark m _ =>
    intro held
    have hkind : t.kind = m.kind := ht
    rw [read, if_pos hkind]
    exact ⟨d, rfl⟩
  | printed =>
    intro held
    have hname : t.kind ≠ .identifier := by rcases ht with h | h <;> simp [h]
    rw [read, if_neg hname]
    exact taken_enterOperand ht _ _ held
  | operand => exact taken_enterOperand ht _ _
  | assigned =>
    intro held
    have hkind : t.kind = .semicolon := ht
    rw [read, if_pos hkind]
    exact ⟨_, rfl⟩
  | passing hg _ ih =>
    intro held
    obtain ⟨held', hread⟩ := read_of_mayPass hg hneutral held
    rw [hread]
    exact ih ht held'

end Goal

namespace Reader

variable {pre : List Token} {r : Reader} {t : Token} {w : Expected}

theorem Reads.exists_accepted_behind (h : start.Reads pre r) (hcalls : Goal.CallsFor w r.goals)
    (ht : w.Admits (DeclaredIn pre) t) : ∃ more a, analyze (pre ++ t :: more) = .ok a := by
  have htracks : Tracks pre r := h.tracks tracks_start
  have htaken := hcalls.taken ht (fun x => (htracks.declared x).1) r.held
  cases hread : Goal.read r.held t r.goals with
  | pass held =>
    rw [hread] at htaken
    exact htaken.elim
  | refuse wanted =>
    rw [hread] at htaken
    exact htaken.elim
  | take gs held event =>
    rw [hread] at htaken
    obtain ⟨d, hnote⟩ := htaken
    obtain ⟨more, a, ha⟩ := (h.append (.cons hread hnote .nil)).exists_accepted
    exact ⟨more, a, by rwa [List.append_assoc, List.singleton_append] at ha⟩

end Reader

/-- A syntax error is something that the stack calls for where the text is left. -/
theorem exists_callsFor {ts : List Token} {e : Refusal} (h : analyze ts = .error e)
    (hcategory : e.fault.category = .syntaxError) : ∃ (k : Nat) (w : Expected) (r : Reader),
      Reader.start.Reads (ts.take k) r ∧ Goal.CallsFor w r.goals ∧ e.fault = .expected w ∧
        (e.found = none → k = ts.length) ∧ (e.found ≠ none → RefusedAt ts k e) := by
  rcases Reader.meet_error (analyze_eq_error.1 h) with
    ⟨r, w, hr, hclose, rfl⟩ | ⟨pre, t, post, r, fault, rfl, hr, hf, rfl⟩
  · refine ⟨ts.length, w, r, ?_, Goal.callsFor_of_close (hr.grounded .floor) hclose, rfl, fun _ => rfl, ?_⟩
    · rwa [List.take_length]
    · exact fun hfound => absurd rfl hfound
  · have hpre : Reader.start.Reads ((pre ++ t :: post).take pre.length) r := by rwa [List.take_left]
    have hrefused : RefusedAt (pre ++ t :: post) pre.length ⟨fault, some t⟩ := hf.refusedAt hr
    cases hf with
    | unexpected hread =>
      exact ⟨pre.length, _, r, hpre, Goal.callsFor_of_read hread, rfl, nofun, fun _ => hrefused⟩
    | @unnoted _ _ event _ hread hnote =>
      -- what a token says is no matter of the grammar
      cases event with
      | none => cases hnote
      | some event => exact absurd hcategory (Draft.category_of_note hnote)

theorem message_ne_variable_name {ts : List Token} {e : Refusal} (h : analyze ts = .error e) :
    e.fault.message ≠ "Expected variable name." := by
  cases hfault : e.fault with
  | expected w =>
    obtain ⟨k, w', r, -, hcalls, hw, -⟩ := exists_callsFor h (by rw [hfault]; rfl)
    obtain rfl : w = w' := by simpa [hfault] using hw
    exact Expected.message_ne_variable_name hcalls.ne_name
  | redeclared x | undeclared x =>
    intro hmessage
    have hchars := congrArg String.toList hmessage
    simp [Fault.message] at hchars

/-- **What a message expects could stand there.**  A syntax error is at the end of the text or at one token of it; its
message names a sort of token, and whatever token of that sort is put behind the tokens before, the text that starts with
these can be completed.  No message asks for a variable name alone. -/
theorem expected_could_stand (ts : List Token) (e : Refusal) (h : analyze ts = .error e) :
    (e.diagnostic.category = .syntaxError → ∃ (k : Nat) (w : Expected), e.fault = .expected w ∧
      (e.diagnostic.found = none → k = ts.length) ∧
      (e.diagnostic.found ≠ none → RefusedAt ts k e ∧ ∀ k', RefusedAt ts k' e → k' = k) ∧
      ("Expected " ++ w.sort).toList <+: e.diagnostic.message.toList ∧ w.sort ∈ Expected.sorts ∧
      ∀ t, w.Admits (DeclaredIn (ts.take k)) t → ∃ more a, analyze (ts.take k ++ t :: more) = .ok a) ∧
      e.diagnostic.message ≠ "Expected variable name." := by
  refine ⟨fun hcategory => ?_, message_ne_variable_name h⟩
  obtain ⟨k, w, r, hr, hcalls, hw, hend, hrefused⟩ := exists_callsFor h hcategory
  refine ⟨k, w, hw, hend, fun hfound => ?_, ?_, Expected.sort_mem_sorts hcalls.ne_name, ?_⟩
  · exact ⟨hrefused hfound, fun k' hk' => (hrefused hfound).unique hk'⟩
  · rw [Refusal.diagnostic, hw]
    exact w.sort_in_message
  · exact fun t ht => hr.exists_accepted_behind hcalls ht

/-- Behind the second `int` a name is expected, and any but `x` could stand there; behind `if (1` the parenthesis. -/
theorem new_name_could_stand :
    (analyze (tokenize "int x; int =") = .error ⟨.expected .newName, some ⟨.assign, "=", ⟨1, 12⟩⟩⟩ ∧
      ∀ y, y ≠ "x" → ∃ more a, analyze ((tokenize "int x; int =").take 4 ++ Kind.identifier.token y :: more) = .ok a) ∧
      analyze (tokenize "if (1") = .error ⟨.expected (.mark .closeCondition), none⟩ ∧
      ∃ more a, analyze (tokenize "if (1" ++ Kind.rightParen.token ")" :: more) = .ok a := by
  have hname : analyze (tokenize "int x; int =") = .error ⟨.expected .newName, some ⟨.assign, "=", ⟨1, 12⟩⟩⟩ := rfl
  have hparen : analyze (tokenize "if (1") = .error ⟨.expected (.mark .closeCondition), none⟩ := rfl
  refine ⟨⟨hname, fun y hy => ?_⟩, hparen, ?_⟩
  · obtain ⟨k, w, hw, -, hk, -, -, hadmits⟩ := (expected_could_stand _ _ hname).1 rfl
    cases hw
    let r : Reader := ⟨[.newName, .mark .endDeclaration, .statements], default, ⟨.ofList ["x"], .empty⟩⟩
    have hreads : Reader.start.Reads ((tokenize "int x; int =").take 4) r :=
      .cons rfl rfl (.cons rfl rfl (.cons rfl rfl (.cons rfl rfl .nil)))
    obtain rfl := (hk nofun).2 4 ⟨r, _, _, rfl, hreads, .unexpected rfl, rfl⟩
    have hy' : ¬ DeclaredIn ((tokenize "int x; int =").take 4) y := by
      intro hd
      have hmem : y ∈ Names.ofList ["x"] := ((hreads.tracks Reader.tracks_start).declared y).2 hd
      exact hy (by simpa using Names.mem_ofList.1 hmem)
    exact hadmits _ ⟨rfl, hy'⟩
  · obtain ⟨k, w, hw, hk, -, -, -, hadmits⟩ := (expected_could_stand _ _ hparen).1 rfl
    cases hw
    obtain rfl := hk rfl
    exact hadmits _ rfl

end MiniLang
