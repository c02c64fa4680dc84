import MiniLang.Proofs.Token.Layout
/-!
# Keywords

Two things keep a reserved word from being read as a name: the rule for keywords is tried before the one for names, and
a name that is reserved counts as a keyword.  Either of them is enough (`either_safeguard_suffices`).  Tried first, the
rule for keywords leaves no reserved word to the one for names (`kindOf_of_token?`).  Tried later, or left out, it is not
missed: what the rules take are whole segments, and the words of its own are names as well (`segmental_of_rules`).
-/
namespace MiniLang

section

variable [Text.WordClass] {before : Option Char} {ahead : List Char} {kind : Kind} {n : Nat}

/-! ## The rule for keywords comes first -/

/-- The rule for keywords has taken what it can before a name is looked for. -/
theorem not_matches_keyword (h : lexicon.token? before ahead = some (.identifier, n)) :
    ¬ (Pattern.anyOf (Keyword.all.map (·.word))).asWord.Matches (segmentAt before ahead) := by
  intro hmatches
  have hfirst := (lexicon_segmental.whole _ List.mem_cons_self before ahead _).2 ⟨hmatches, rfl⟩
  have htoken : lexicon.token? before ahead = some (.keyword, (segmentAt before ahead).length) := by
    rw [Lexicon.token?, lexicon, List.findSome?_cons, hfirst]
    rfl
  rw [htoken] at h
  cases h

/-- A name that is found is a whole segment. -/
theorem take_eq_of_token? (h : lexicon.token? before ahead = some (.identifier, n)) :
    ahead.take n = segmentAt before ahead := by
  obtain ⟨r, hr, hlength⟩ := List.exists_of_findSome?_eq_some h
  obtain ⟨m, hm, hfound⟩ := Option.map_eq_some_iff.1 hlength
  obtain ⟨hkind, rfl⟩ := Prod.mk.inj hfound
  obtain ⟨hmatches, rfl⟩ := (lexicon_segmental.whole r hr before ahead m).1 hm
  have hname : isNameShaped (segmentAt before ahead) = true := by
    rcases lexicon_rule hr with ⟨hk, -⟩ | ⟨-, hp⟩ | ⟨hk, -⟩ | ⟨q, hp, hq⟩
    · rw [hk] at hkind
      cases hkind
    · rwa [hp, Pattern.matches_name] at hmatches
    · rw [hk] at hkind
      cases hkind
    · rw [hp] at hmatches
      obtain ⟨c, -, hc⟩ := hmatches
      exact absurd (hkind ▸ hq c hc) (markKind?_ne_identifier c)
  obtain ⟨hne, hword⟩ := isWordChar_of_isNameShaped hname
  obtain ⟨-, s, hs, -⟩ := exists_run hne hword
  exact (congrArg (List.take _) hs).trans List.take_left

/-- **What is found is of its kind already**: no name that is found is reserved. -/
theorem kindOf_of_token? (h : lexicon.token? before ahead = some (kind, n)) :
    lexicon.kindOf kind (String.ofList (ahead.take n)) = kind := by
  by_cases hkind : kind = .identifier
  · subst hkind
    have hreserved : ¬ isReserved (String.ofList (ahead.take n)) = true := by
      intro hreserved
      obtain ⟨k, hk⟩ := isReserved_iff.1 hreserved
      refine not_matches_keyword h (Pattern.matches_keyword.2 ⟨k, ?_⟩)
      rw [← take_eq_of_token? h, ← hk, String.toList_ofList]
    simp [Lexicon.kindOf, hreserved]
  · rw [Lexicon.kindOf, beq_false_of_ne hkind, Bool.and_false, Bool.false_and]
    rfl

omit [Text.WordClass] in
/-- Where what is found is of its kind already, it does not matter whether reserved names count as keywords. -/
theorem Lexicon.scan_unreserved {lx : Lexicon}
    (h : ∀ before ahead kind n, lx.token? before ahead = some (kind, n) →
      lx.kindOf kind (String.ofList (ahead.take n)) = kind) :
    ∀ (text : List Char) (before : Option Char) (inside : Nat) (pos : Position),
      Lexicon.scan ⟨lx.rules, false⟩ before inside pos text = lx.scan before inside pos text
  | [], _, _, _ => rfl
  | c :: s, before, n + 1, pos => scan_unreserved h s (some c) n (pos.after c)
  | c :: s, before, 0, pos => by
    have htoken : Lexicon.token? ⟨lx.rules, false⟩ before (c :: s) = lx.token? before (c :: s) := rfl
    rw [scan, scan, htoken]
    cases hfound : lx.token? before (c :: s) with
    | none => exact scan_unreserved h s (some c) 0 (pos.after c)
    | some found =>
      obtain ⟨kind, _ | n⟩ := found
      · exact scan_unreserved h s (some c) 0 (pos.after c)
      · simp only [scan_unreserved h s, h _ _ _ _ hfound]
        rfl

/-! ## The rule for keywords is not needed -/

/-- A segment that has a kind is taken by a rule other than that for keywords. -/
theorem exists_rule_beside_keyword {w : List Char} (h : segmentKind? w = some kind) :
    ∃ r ∈ lexicon.rules, r.kind ≠ .keyword ∧ r.pattern.Matches w := by
  obtain ⟨r, hr, hw⟩ := exists_lexicon_rule h
  by_cases hkind : r.kind = .keyword
  · have hword : segmentKind? w = some .keyword := by
      rw [lexicon_segmental.kind_eq r hr w hw, hkind]
      rfl
    obtain ⟨k, rfl⟩ := segmentKind?_eq_some.1 hword
    exact ⟨_, .tail _ (.head _), nofun, Pattern.matches_name.2 (isNameShaped_word k)⟩
  · exact ⟨r, hr, hkind, hw⟩

/-- **Rules of the lexicon read segments** in whatever order they are, and with that for keywords left out. -/
theorem segmental_of_rules {rules : List Rule} (hsub : ∀ r ∈ rules, r ∈ lexicon.rules)
    (hall : ∀ r ∈ lexicon.rules, r.kind ≠ .keyword → r ∈ rules) : Lexicon.Segmental ⟨rules, true⟩ where
  whole r hr := lexicon_segmental.whole r (hsub r hr)
  kind_eq r hr := lexicon_segmental.kind_eq r (hsub r hr)
  exists_rule w kind h := by
    obtain ⟨r, hr, hkind, hw⟩ := exists_rule_beside_keyword h
    exact ⟨r, hall r hr hkind, hw⟩

/-- **Either safeguard of the keywords is enough.**  A text has the same tokens where reserved names do not count as
keywords but the rules are as they are, and where they do but the rule for keywords is left out or the rules are tried in
any other order. -/
theorem either_safeguard_suffices (text : String) :
    { lexicon with reserves := false }.tokens text = tokenize text ∧
      ∀ rules : List Rule, rules.Perm (lexicon.rules.filter (·.kind ≠ Kind.keyword)) ∨ rules.Perm lexicon.rules →
        { lexicon with rules := rules }.tokens text = tokenize text := by
  refine ⟨Lexicon.scan_unreserved (fun _ _ _ _ => kindOf_of_token?) _ _ _ _, fun rules hrules => ?_⟩
  have hsegmental : Lexicon.Segmental ⟨rules, true⟩ := by
    rcases hrules with hrules | hrules
    · refine segmental_of_rules (fun r hr => (List.mem_filter.1 (hrules.mem_iff.1 hr)).1) (fun r hr hkind => ?_)
      exact hrules.mem_iff.2 (List.mem_filter.2 ⟨hr, decide_eq_true hkind⟩)
    · exact segmental_of_rules (fun r hr => hrules.mem_iff.1 hr) (fun r hr _ => hrules.mem_iff.2 hr)
  exact (hsegmental.tokens_eq text).trans (lexicon_segmental.tokens_eq text).symm

end

/-- The rules tried from the last to the first, and without that for keywords: `int` is a keyword and `int1` a name. -/
theorem safeguard_reversed :
    let expected : List Token := [⟨.keyword, "int", ⟨1, 1⟩⟩, ⟨.identifier, "int1", ⟨1, 5⟩⟩, ⟨.semicolon, ";", ⟨1, 9⟩⟩]
    { lexicon with rules := lexicon.rules.reverse }.tokens "int int1;" = expected ∧
      { lexicon with rules := lexicon.rules.filter (·.kind ≠ Kind.keyword) }.tokens "int int1;" = expected := by
  intro expected
  have htokens : tokenize "int int1;" = expected := rfl
  have hrules := (either_safeguard_suffices "int int1;").2
  exact ⟨(hrules _ (.inr (List.reverse_perm _))).trans htokens, (hrules _ (.inl (.refl _))).trans htokens⟩

/-- Without both safeguards a keyword is read as a name. -/
example : { lexicon with rules := lexicon.rules.reverse, reserves := false }.tokens "int" =
    [⟨.identifier, "int", ⟨1, 1⟩⟩] := rfl

end MiniLang
