import Mathlib.Data.List.DropRight
import MiniLang.Proofs.Token.Placement
/-!
# Offsets

A position is a running count: it goes on over what is passed over and over the lexemes alike.  It agrees with a count
made afresh at each place, of the line feeds in front of it and of the characters behind the last of them
(`Position.behind_eq`).  So the tokens of a text stand one behind the other, none reaching into the next, and each has the
position of the offset where its lexeme is found (`tokenize_offsets`).  A lexeme holds no line feed, so the count may as
well add its length in one step (`tokenize_along`).
-/
namespace MiniLang

/-- The position behind a text, counted afresh: one more than its line feeds, and one more than the characters behind the
last of them. -/
def Position.counted (pre : List Char) : Position :=
  ⟨1 + pre.count '\n', 1 + (pre.rtakeWhile (· != '\n')).length⟩

/-- **The running count is the count made afresh.** -/
theorem Position.behind_eq (pre : List Char) : start.behind pre = counted pre := by
  induction pre using List.reverseRecOn with
  | nil => rfl
  | append_singleton pre c ih =>
    have hstep : start.behind (pre ++ [c]) = (counted pre).after c := by
      rw [behind_append, ih]
      rfl
    rw [hstep, after, counted, counted]
    by_cases hc : c = '\n'
    · subst hc
      rw [if_pos rfl, List.rtakeWhile_concat_neg _ _ _ (by decide)]
      simp [Nat.add_assoc]
    · rw [if_neg hc, List.rtakeWhile_concat_pos _ _ _ (by simpa using hc)]
      simp [hc, Nat.add_assoc]

/-- The lexeme is found at the offset, and the position is that of the offset. -/
structure Token.StandsAt (text : List Char) (t : Token) (offset : Nat) : Prop where
  lexeme : t.lexeme.toList <+: text.drop offset
  pos : t.pos = Position.counted (text.take offset)

theorem Token.standsAt_append {t : Token} {pre post : List Char} (hpos : t.pos = Position.start.behind pre) :
    t.StandsAt (pre ++ (t.lexeme.toList ++ post)) pre.length where
  lexeme := by
    rw [List.drop_left]
    exact List.prefix_append _ _
  pos := by rw [List.take_left, hpos, Position.behind_eq]

/-- The second token starts where the first one has ended, or later. -/
def Token.Apart (p q : Token × Nat) : Prop := p.2 + p.1.lexeme.length ≤ q.2

-- The induction is on the segments, over all that stands in front of them: a segment that is no token only moves on.
theorem exists_offsets : ∀ (ws : List (List Char)) (pre : List Char), ∃ placed : List (Token × Nat),
    placed.map Prod.fst = tokensAt (Position.start.behind pre) ws ∧
    (∀ p ∈ placed, pre.length ≤ p.2 ∧ p.1.StandsAt (pre ++ ws.flatten) p.2) ∧ placed.Pairwise Token.Apart
  | [], pre => ⟨[], rfl, by simp, .nil⟩
  | w :: ws, pre => by
    obtain ⟨placed, htokens, hplaced, happart⟩ := exists_offsets ws (pre ++ w)
    have hflatten : pre ++ w ++ ws.flatten = pre ++ (w :: ws).flatten := by
      rw [List.flatten_cons, List.append_assoc]
    rw [hflatten] at hplaced
    rw [Position.behind_append] at htokens
    have hlater : ∀ p ∈ placed, pre.length + w.length ≤ p.2 ∧ p.1.StandsAt (pre ++ (w :: ws).flatten) p.2 := by
      intro p hp
      rw [← List.length_append]
      exact hplaced p hp
    cases hw : tokenAt? (Position.start.behind pre) w with
    | none =>
      refine ⟨placed, by rw [htokens, tokensAt, hw]; rfl, fun p hp => ?_, happart⟩
      obtain ⟨hle, hstands⟩ := hlater p hp
      exact ⟨by omega, hstands⟩
    | some t =>
      obtain ⟨kind, -, ht⟩ := Option.map_eq_some_iff.1 hw
      have hlexeme : t.lexeme.toList = w := by rw [← ht, String.toList_ofList]
      have hlength : t.lexeme.length = w.length := by rw [← String.length_toList, hlexeme]
      have hstands : t.StandsAt (pre ++ (w :: ws).flatten) pre.length := by
        rw [List.flatten_cons, ← hlexeme]
        exact Token.standsAt_append (by rw [← ht])
      refine ⟨(t, pre.length) :: placed, ?_, ?_, ?_⟩
      · rw [List.map_cons, htokens, tokensAt, hw]
        rfl
      · refine List.forall_mem_cons.2 ⟨⟨Nat.le_refl _, hstands⟩, fun p hp => ?_⟩
        obtain ⟨hle, hp⟩ := hlater p hp
        exact ⟨by omega, hp⟩
      · refine List.pairwise_cons.2 ⟨fun p hp => ?_, happart⟩
        rw [Token.Apart, hlength]
        exact (hlater p hp).1

/-- **The positions of tokens are exact**: there is an offset for each token of a text, in order, at which its lexeme is
found.  The offsets ascend and no token reaches into the next.  The line of a token is one more than the line feeds in
front of its offset, and its column one more than the characters between the last of these and the offset. -/
theorem tokenize_offsets [Text.WordClass] (text : String) : ∃ placed : List (Token × Nat),
    placed.map Prod.fst = tokenize text ∧ (∀ p ∈ placed, p.1.StandsAt text.toList p.2) ∧
      placed.Pairwise Token.Apart ∧ (placed.map Prod.snd).Pairwise (· < ·) := by
  obtain ⟨placed, htokens, hplaced, happart⟩ := exists_offsets (segments text.toList) []
  have hflatten : [] ++ (segments text.toList).flatten = text.toList := (cut_iff.2 rfl).flatten
  have htext : placed.map Prod.fst = tokenize text := by
    rw [htokens, tokenize, lexicon_segmental.tokens_eq]
    rfl
  rw [hflatten] at hplaced
  refine ⟨placed, htext, fun p hp => (hplaced p hp).2, happart, ?_⟩
  refine List.pairwise_map.2 (happart.imp_of_mem (fun {p q} hp _ hpq => ?_))
  have hmem : p.1 ∈ tokenize text := by
    rw [← htext]
    exact List.mem_map_of_mem hp
  obtain ⟨_, _, -, -, hkind⟩ := exists_of_mem_tokenize hmem
  have hpos : 0 < p.1.lexeme.length := by
    rw [← String.length_toList]
    exact List.length_pos_iff.2 (ne_break_of_segmentKind? hkind).1
  unfold Token.Apart at hpq
  omega

/-- Runs that are no tokens, a tab, and a line feed behind a carriage return. -/
example : (tokenize "é\tint\r\n  x2 1a;").map (fun t => (t.lexeme, t.pos)) =
    [("int", ⟨1, 3⟩), ("x2", ⟨2, 3⟩), (";", ⟨2, 8⟩)] := by decide +kernel

/-! ## Spans -/

/-- The position behind a lexeme whose characters are counted and not looked at. -/
def Position.past (p : Position) (lexeme : List Char) : Position := ⟨p.line, p.col + lexeme.length⟩

/-- Lexemes with their positions, each with the span that is skipped in front of it: the span is walked character by
character, the lexeme adds its length. -/
def Position.along (p : Position) : List (List Char × List Char) → List (List Char × Position)
  | [] => []
  | (skipped, lexeme) :: spans => (lexeme, p.behind skipped) :: ((p.behind skipped).past lexeme).along spans

/-- A lexeme holds no line feed, so adding its length is walking over it. -/
theorem behind_eq_past {w : List Char} {kind : Kind} (h : segmentKind? w = some kind) (p : Position) :
    p.behind w = p.past w := Position.behind_of_not_mem fun hmem => ((ne_break_of_segmentKind? h).2 _ hmem).1 rfl

-- What was skipped since the last token is carried along; a segment that is no token is skipped too.
theorem exists_spans : ∀ (ws : List (List Char)) (p : Position) (skipped : List Char), ∃ spans rest,
    skipped ++ ws.flatten = (spans.flatMap fun span => span.1 ++ span.2) ++ rest ∧
      (tokensAt (p.behind skipped) ws).map (fun t => (t.lexeme.toList, t.pos)) = p.along spans
  | [], _, skipped => ⟨[], skipped, by simp, rfl⟩
  | w :: ws, p, skipped => by
    cases hw : segmentKind? w with
    | none =>
      obtain ⟨spans, rest, htext, htokens⟩ := exists_spans ws p (skipped ++ w)
      refine ⟨spans, rest, by rw [← htext, List.flatten_cons, List.append_assoc], ?_⟩
      rw [← htokens, tokensAt, tokenAt?, hw, Position.behind_append]
      rfl
    | some kind =>
      obtain ⟨spans, rest, htext, htokens⟩ := exists_spans ws ((p.behind skipped).past w) []
      refine ⟨(skipped, w) :: spans, rest, ?_, ?_⟩
      · rw [List.flatMap_cons, List.append_assoc, ← htext, List.flatten_cons, List.nil_append, List.append_assoc]
      · rw [tokensAt, tokenAt?, hw, behind_eq_past hw, List.map_append, Position.along, ← htokens]
        simp [Position.behind]

/-- **Walking over what is skipped and adding the length of each lexeme** gives the positions of the tokens. -/
theorem tokenize_along [Text.WordClass] (text : String) : ∃ spans rest,
    text.toList = (spans.flatMap fun span => span.1 ++ span.2) ++ rest ∧
      (tokenize text).map (fun t => (t.lexeme.toList, t.pos)) = Position.start.along spans := by
  obtain ⟨spans, rest, htext, htokens⟩ := exists_spans (segments text.toList) .start []
  rw [List.nil_append, (cut_iff.2 rfl).flatten] at htext
  rw [tokenize, lexicon_segmental.tokens_eq]
  exact ⟨spans, rest, htext, htokens⟩

end MiniLang
