import MiniLang.Proofs.Recognition
/-!
# Straight texts

Blocks are no scopes, conditions are not kept, and a `print` writes no code.  So a text says the same without its control
flow: with all tokens deleted but those of its declarations and assignments (`Program.straight`), it declares the same
names and has the same code.
-/
namespace MiniLang

/-- Declares a name or assigns to one. -/
def Statement.IsPlain : Statement → Prop
  | .declaration .. | .assignment .. => True
  | .branch .. | .loop .. | .print .. => False

mutual

def Statement.straight : Statement → List Token
  | .declaration word name endMark => [word.token, name.token, endMark.token]
  | .assignment target sign value endMark => target.token :: sign.token :: (value.tokens ++ [endMark.token])
  | .branch _ body other => body.straight ++ other.straight
  | .loop _ body => body.straight
  | .print .. => []

def Block.straight : Block → List Token
  | .braces _ p _ => p.straight

def Alternative.straight : Alternative → List Token
  | .absent => []
  | .present _ body => body.straight

/-- The tokens that are left where every `print` statement is deleted, every head of an `if` or a `while`, every `else`
and every brace. -/
def Program.straight : Program → List Token
  | .done => []
  | .next s p => s.straight ++ p.straight

end

mutual

def Statement.plain : Statement → List Statement
  | .declaration word name endMark => [.declaration word name endMark]
  | .assignment target sign value endMark => [.assignment target sign value endMark]
  | .branch _ body other => body.plain ++ other.plain
  | .loop _ body => body.plain
  | .print .. => []

def Block.plain : Block → List Statement
  | .braces _ p _ => p.plain

def Alternative.plain : Alternative → List Statement
  | .absent => []
  | .present _ body => body.plain

/-- The declarations and assignments in the order in which they stand, whatever blocks they stand in. -/
def Program.plain : Program → List Statement
  | .done => []
  | .next s p => s.plain ++ p.plain

end

namespace Program

def ofList : List Statement → Program
  | [] => .done
  | s :: ss => .next s (ofList ss)

theorem tokens_ofList : ∀ ss : List Statement, (ofList ss).tokens = ss.flatMap Statement.tokens
  | [] => rfl
  | s :: ss => by rw [ofList, Program.tokens, tokens_ofList ss, List.flatMap_cons]

theorem events_ofList : ∀ ss : List Statement, (ofList ss).events = ss.flatMap Statement.events
  | [] => rfl
  | s :: ss => by rw [ofList, Program.events, events_ofList ss, List.flatMap_cons]

end Program

/-! ## What is left of the tokens -/

mutual

theorem Statement.flatMap_plain : ∀ s : Statement, s.plain.flatMap Statement.tokens = s.straight
  | .declaration .. => List.flatMap_singleton ..
  | .assignment .. => List.flatMap_singleton ..
  | .branch _ body other => by
    rw [Statement.plain, List.flatMap_append, body.flatMap_plain, other.flatMap_plain, Statement.straight]
  | .loop _ body => body.flatMap_plain
  | .print .. => rfl

theorem Block.flatMap_plain : ∀ b : Block, b.plain.flatMap Statement.tokens = b.straight
  | .braces _ p _ => p.flatMap_plain

theorem Alternative.flatMap_plain : ∀ o : Alternative, o.plain.flatMap Statement.tokens = o.straight
  | .absent => rfl
  | .present _ body => body.flatMap_plain

theorem Program.flatMap_plain : ∀ p : Program, p.plain.flatMap Statement.tokens = p.straight
  | .done => rfl
  | .next s p => by
    rw [Program.plain, List.flatMap_append, s.flatMap_plain, p.flatMap_plain, Program.straight]

end

mutual

theorem Statement.isPlain_of_mem : ∀ {s s' : Statement}, s' ∈ s.plain → s'.IsPlain
  | .declaration .., s', h => by
    rw [List.mem_singleton.1 h]
    trivial
  | .assignment .., s', h => by
    rw [List.mem_singleton.1 h]
    trivial
  | .branch .., s', h => by
    rcases List.mem_append.1 h with h | h
    · exact Block.isPlain_of_mem h
    · exact Alternative.isPlain_of_mem h
  | .loop .., s', h => Block.isPlain_of_mem h
  | .print .., s', h => absurd h List.not_mem_nil

theorem Block.isPlain_of_mem : ∀ {b : Block} {s : Statement}, s ∈ b.plain → s.IsPlain
  | .braces .., _, h => Program.isPlain_of_mem h

theorem Alternative.isPlain_of_mem : ∀ {o : Alternative} {s : Statement}, s ∈ o.plain → s.IsPlain
  | .absent, _, h => absurd h List.not_mem_nil
  | .present .., _, h => Block.isPlain_of_mem h

theorem Program.isPlain_of_mem : ∀ {p : Program} {s : Statement}, s ∈ p.plain → s.IsPlain
  | .done, _, h => absurd h List.not_mem_nil
  | .next .., _, h => by
    rcases List.mem_append.1 h with h | h
    · exact Statement.isPlain_of_mem h
    · exact Program.isPlain_of_mem h

end

mutual

theorem Statement.straight_sublist : ∀ s : Statement, s.straight.Sublist s.tokens
  | .declaration .. => .refl _
  | .assignment .. => .refl _
  | .branch head body other => by
    have h : (body.straight ++ other.straight).Sublist (body.tokens ++ other.tokens) :=
      body.straight_sublist.append other.straight_sublist
    exact h.trans (List.sublist_append_right head.tokens _)
  | .loop head body => body.straight_sublist.trans (List.sublist_append_right head.tokens _)
  | .print .. => List.nil_sublist _

theorem Block.straight_sublist : ∀ b : Block, b.straight.Sublist b.tokens
  | .braces _ p right => .cons _ (p.straight_sublist.trans (List.sublist_append_left _ [right.token]))

theorem Alternative.straight_sublist : ∀ o : Alternative, o.straight.Sublist o.tokens
  | .absent => .refl _
  | .present _ body => .cons _ body.straight_sublist

theorem Program.straight_sublist : ∀ p : Program, p.straight.Sublist p.tokens
  | .done => .refl _
  | .next s p => s.straight_sublist.append p.straight_sublist

end

/-! ## What is left of the events -/

namespace Draft

/-- Who takes note of `es` can take note of `fs` as well, and knows the same then.  The converse fails for a text with a
`print`, which may look up a name that is declared nowhere. -/
def Covers (es fs : List Event) : Prop := ∀ d d' : Draft, d.noteAll es = .ok d' → d.noteAll fs = .ok d'

theorem Covers.append {es es' fs fs' : List Event} (h : Covers es fs) (h' : Covers es' fs') :
    Covers (es ++ es') (fs ++ fs') := by
  intro d d' hd
  rw [noteAll_append] at hd ⊢
  cases hes : d.noteAll es with
  | ok d₁ =>
    rw [hes] at hd
    rw [h d d₁ hes]
    exact h' d₁ d' hd
  | error fault =>
    rw [hes] at hd
    cases hd

end Draft

theorem Condition.covers_mention (c : Condition) : Draft.Covers c.mention [] := by
  intro d d' hd
  rcases c.mention_cases with h | ⟨x, h⟩
  · rwa [h] at hd
  · rw [h, Draft.noteAll_singleton_ok, Draft.note] at hd
    by_cases hx : d.declared.contains x = true
    · rwa [if_pos hx] at hd
    · rw [if_neg hx] at hd
      cases hd

mutual

theorem Statement.covers_plain : ∀ s : Statement, Draft.Covers s.events (s.plain.flatMap Statement.events)
  | .declaration .. => fun _ _ hd => hd
  | .assignment .. => fun _ _ hd => hd
  | .branch _ body other => by
    rw [Statement.plain, List.flatMap_append]
    exact body.covers_plain.append other.covers_plain
  | .loop _ body => body.covers_plain
  | .print head _ => head.condition.covers_mention

theorem Block.covers_plain : ∀ b : Block, Draft.Covers b.events (b.plain.flatMap Statement.events)
  | .braces _ p _ => p.covers_plain

theorem Alternative.covers_plain : ∀ o : Alternative, Draft.Covers o.events (o.plain.flatMap Statement.events)
  | .absent => fun _ _ hd => hd
  | .present _ body => body.covers_plain

theorem Program.covers_plain : ∀ p : Program, Draft.Covers p.events (p.plain.flatMap Statement.events)
  | .done => fun _ _ hd => hd
  | .next s p => by
    rw [Program.plain, List.flatMap_append]
    exact s.covers_plain.append p.covers_plain

end

theorem Program.analyze_straight {p : Program} {a : Analysis} (h : analyze p.tokens = .ok a) :
    analyze p.straight = .ok a := by
  obtain ⟨R, hR, rfl⟩ := analyze_eq_ok.1 h
  obtain ⟨d, hd, rfl⟩ := (Reader.meet_program_end p).1 hR
  rw [← p.flatMap_plain, ← Program.tokens_ofList]
  have hplain : Draft.empty.noteAll (Program.ofList p.plain).events = .ok d := by
    rw [Program.events_ofList]
    exact p.covers_plain _ _ hd
  exact analyze_eq_ok.2 ⟨_, (Reader.meet_program_end _).2 ⟨d, hplain, rfl⟩, rfl⟩

/-- **Control flow and printing leave no trace**: what is left of an accepted text without them is a text of declarations
and assignments only, in the order in which they stood, and it is accepted with the same names and the same code. -/
theorem straight_same_analysis (ts : List Token) (a : Analysis) (h : analyze ts = .ok a) :
    (∃ p : Program, p.tokens = ts) ∧ ∀ p : Program, p.tokens = ts →
      p.straight.Sublist ts ∧ (∀ s ∈ p.plain, s.IsPlain) ∧ (Program.ofList p.plain).tokens = p.straight ∧
        analyze p.straight = .ok a := by
  obtain ⟨p, hp, -⟩ := analyze_eq_ok_iff.1 h
  refine ⟨⟨p, hp⟩, ?_⟩
  rintro p rfl
  have htokens : (Program.ofList p.plain).tokens = p.straight := by
    rw [Program.tokens_ofList, p.flatMap_plain]
  exact ⟨p.straight_sublist, fun s hs => Program.isPlain_of_mem hs, htokens, Program.analyze_straight h⟩

/-- `int x ; if ( x < 1 ) { x = 1 + x ; } else { int y ; print ( x ) ; } while ( x ) { y = x ; }` -/
def detours : Program :=
  let x : Leaf (.kind .identifier) := .ofKind .identifier "x"
  let y : Leaf (.kind .identifier) := .ofKind .identifier "y"
  let name {u : Use} : Arith u := .term (.factor (.name x))
  let one {u : Use} : Arith u := .term (.factor (.number (.ofKind .number "1")))
  let sum : Arith .lowered := .plus one .add rfl ⟨⟨.operator, "+", .start⟩, rfl, rfl⟩ (.factor (.name x))
  let head (k : Keyword) (c : Comparison .checked) : Head k :=
    ⟨.ofKeyword k, .ofKind .leftParen "(", ⟨name, c⟩, .ofKind .rightParen ")"⟩
  let endMark : Leaf (.kind .semicolon) := .ofKind .semicolon ";"
  let braces (p : Program) : Block := .braces (.ofKind .leftBrace "\x7b") p (.ofKind .rightBrace "\x7d")
  let declare (x : Leaf (.kind .identifier)) : Statement := .declaration (.ofKeyword .intWord) x endMark
  let assign (x : Leaf (.kind .identifier)) (e : Arith .lowered) : Statement :=
    .assignment x (.ofKind .assign "=") e endMark
  .ofList [declare x,
    .branch (head .ifWord (.present rfl (.ofKind .comparator "<") one)) (braces (.ofList [assign x sum]))
      (.present (.ofKeyword .elseWord) (braces (.ofList [declare y, .print (head .printWord .absent) endMark]))),
    .loop (head .whileWord .absent) (braces (.ofList [assign y name]))]

theorem straight_detours :
    analyze detours.tokens = .ok ⟨.ofList ["x", "y"], [.binary "t0" "1" .add "x", .copy "x" "t0", .copy "y" "x"]⟩ ∧
      detours.straight.map Token.lexeme =
        ["int", "x", ";", "x", "=", "1", "+", "x", ";", "int", "y", ";", "y", "=", "x", ";"] ∧
      analyze detours.straight =
        .ok ⟨.ofList ["x", "y"], [.binary "t0" "1" .add "x", .copy "x" "t0", .copy "y" "x"]⟩ := by
  have h : analyze detours.tokens =
      .ok ⟨.ofList ["x", "y"], [.binary "t0" "1" .add "x", .copy "x" "t0", .copy "y" "x"]⟩ := rfl
  obtain ⟨-, -, -, hstraight⟩ := (straight_same_analysis _ _ h).2 detours rfl
  exact ⟨h, rfl, hstraight⟩

end MiniLang
