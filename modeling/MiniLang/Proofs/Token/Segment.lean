import Mathlib.Data.List.SplitBy
import MiniLang.Proofs.Token.Word
/-!
# Segmentation

A text is cut into its segments, and each of them is a token or nothing: what a segment is, and where it stands, says it
all (`Lexicon.Segmental.tokens_eq`).  Of a lexicon this asks no more than that its rules take whole segments and agree on
the kind of one, in whatever order they are tried.
-/
namespace MiniLang

open Text (isWordChar WordClass)

section

variable [WordClass]

/-- The segments of a text: it is cut between two characters unless both are word characters. -/
def segments (text : List Char) : List (List Char) := text.splitBy fun c d => isWordChar c && isWordChar d

/-- The maximal runs of word characters and the single other characters of a text, from left to right. -/
structure Cut (text : List Char) (ws : List (List Char)) : Prop where
  flatten : ws.flatten = text
  piece : ∀ w ∈ ws, (w ≠ [] ∧ ∀ c ∈ w, isWordChar c = true) ∨ ∃ c, w = [c] ∧ isWordChar c = false
  maximal : ws.IsChain fun v w => ¬ ((∀ c ∈ v, isWordChar c = true) ∧ ∀ c ∈ w, isWordChar c = true)

end

/-- A letter, then letters and digits. -/
def isNameShaped : List Char → Bool
  | [] => false
  | c :: w => isLetter c && w.all fun c => isLetter c || c.isDigit

def markKind? : Char → Option Kind
  | '=' => some .assign
  | ';' => some .semicolon
  | '+' | '-' | '*' | '/' => some .operator
  | '<' | '>' => some .comparator
  | '(' => some .leftParen
  | ')' => some .rightParen
  | '\x7b' => some .leftBrace
  | '\x7d' => some .rightBrace
  | _ => none

/-- The kind of token that a segment is, if it is one. -/
def segmentKind? (w : List Char) : Option Kind :=
  if isNameShaped w then some (if isReserved (String.ofList w) then .keyword else .identifier)
  else if isNumeral (String.ofList w) then some .number
  else
    match w with
    | [c] => markKind? c
    | _ => none

def Position.behind (p : Position) (w : List Char) : Position := w.foldl Position.after p

/-- The token that a segment is where it starts at `pos`. -/
def tokenAt? (pos : Position) (w : List Char) : Option Token := (segmentKind? w).map (⟨·, String.ofList w, pos⟩)

def tokensAt (pos : Position) : List (List Char) → List Token
  | [] => []
  | w :: ws => (tokenAt? pos w).toList ++ tokensAt (pos.behind w) ws

/-! ## Cuts -/

section

variable [WordClass]

theorem segments_append {w s : List Char}
    (h : ∀ c ∈ w.getLast?, ∀ d ∈ s.head?, isWordChar c = true → isWordChar d = false) :
    segments (w ++ s) = segments w ++ segments s := by
  refine List.splitBy_append (fun c hc d hd => ?_)
  by_cases hw : isWordChar c = true
  · simp [hw, h c hc d hd hw]
  · simp [hw]

theorem isChain_word_iff {w : List Char} (hne : w ≠ []) :
    (w.IsChain fun c d => (isWordChar c && isWordChar d) = true) ↔ (∀ c ∈ w, isWordChar c = true) ∨ ∃ c, w = [c] := by
  induction w with
  | nil => exact absurd rfl hne
  | cons c w ih =>
    cases w with
    | nil => simp
    | cons d w =>
      rw [List.isChain_cons_cons, ih (List.cons_ne_nil d w), Bool.and_eq_true]
      constructor
      · rintro ⟨⟨hc, hd⟩, hall | ⟨e, he⟩⟩
        · exact .inl (List.forall_mem_cons.2 ⟨hc, hall⟩)
        · obtain ⟨rfl, rfl⟩ := List.cons.inj he
          exact .inl (by simp [hc, hd])
      · rintro (hall | ⟨e, he⟩)
        · obtain ⟨hc, hrest⟩ := List.forall_mem_cons.1 hall
          exact ⟨⟨hc, hrest d List.mem_cons_self⟩, .inl hrest⟩
        · cases he

/-- A segment `w` where `s` follows. -/
inductive Segment : List Char → List Char → Prop where
  | other {c : Char} {s : List Char} (hc : isWordChar c = false) : Segment [c] s
  | run {w s : List Char} (hne : w ≠ []) (hw : ∀ c ∈ w, isWordChar c = true) (hs : s.head?.any isWordChar = false) :
      Segment w s

namespace Segment

variable {before : Option Char} {w s : List Char}

theorem exists_first (hs : s ≠ []) : ∃ w s', s = w ++ s' ∧ Segment w s' := by
  obtain ⟨c, s, rfl⟩ := List.exists_cons_of_ne_nil hs
  by_cases hc : isWordChar c = true
  · have hfirst : segmentAt none (c :: s) = c :: s.takeWhile isWordChar := by simp [segmentAt, hc]
    have hrun : ∀ d ∈ segmentAt none (c :: s), isWordChar d = true := by
      rw [hfirst]
      exact List.forall_mem_cons.2 ⟨hc, List.all_eq_true.1 List.all_takeWhile⟩
    have hne : segmentAt none (c :: s) ≠ [] := by simp [hfirst]
    obtain ⟨-, s', hs', hhead⟩ := exists_run hne hrun
    exact ⟨_, s', hs', .run hne hrun hhead⟩
  · exact ⟨[c], s, rfl, .other (Bool.eq_false_iff.2 hc)⟩

theorem ne_nil (h : Segment w s) : w ≠ [] := by
  cases h with
  | other hc => exact List.cons_ne_nil _ _
  | run hne hw hs => exact hne

theorem segmentAt_eq (h : Segment w s) (hb : before.any isWordChar = true → (w ++ s).head?.any isWordChar = false) :
    segmentAt before (w ++ s) = w := by
  cases h with
  | other hc => exact segmentAt_other hc
  | run hne hw hs =>
    have hword : (w ++ s).head?.any isWordChar = true := by
      obtain ⟨c, w, rfl⟩ := List.exists_cons_of_ne_nil hne
      exact hw c List.mem_cons_self
    refine segmentAt_run (Bool.eq_false_iff.2 (fun hb' => ?_)) hne hw hs
    rw [hb hb'] at hword
    cases hword

/-- A new segment starts behind a segment. -/
theorem starts_behind (h : Segment w s) : w.getLast?.any isWordChar = true → s.head?.any isWordChar = false := by
  cases h with
  | other hc => simp [hc]
  | run hne hw hs => exact fun _ => hs

theorem segments_eq (h : Segment w s) : segments (w ++ s) = w :: segments s := by
  have hone : segments w = [w] := by
    refine List.splitBy_of_isChain h.ne_nil ((isChain_word_iff h.ne_nil).2 ?_)
    cases h with
    | other hc => exact .inr ⟨_, rfl⟩
    | run hne hw hs => exact .inl hw
  have happend : segments (w ++ s) = segments w ++ segments s := by
    refine segments_append (fun c hc d hd hword => ?_)
    have hlast : w.getLast?.any isWordChar = true := by
      rw [Option.mem_def.1 hc]
      exact hword
    have hhead := h.starts_behind hlast
    rwa [Option.mem_def.1 hd] at hhead
  rw [happend, hone]
  rfl

end Segment

theorem segments_other {c : Char} (hc : isWordChar c = false) (s : List Char) : segments (c :: s) = [c] :: segments s :=
  (Segment.other hc).segments_eq

theorem piece_iff {w : List Char} :
    ((w ≠ [] ∧ ∀ c ∈ w, isWordChar c = true) ∨ ∃ c, w = [c] ∧ isWordChar c = false) ↔
      w ≠ [] ∧ w.IsChain fun c d => (isWordChar c && isWordChar d) = true := by
  constructor
  · rintro (⟨hne, hw⟩ | ⟨c, rfl, -⟩)
    · exact ⟨hne, (isChain_word_iff hne).2 (.inl hw)⟩
    · exact ⟨List.cons_ne_nil c [], List.isChain_singleton c⟩
  · rintro ⟨hne, hw⟩
    rcases (isChain_word_iff hne).1 hw with hw | ⟨c, rfl⟩
    · exact .inl ⟨hne, hw⟩
    · cases hc : isWordChar c with
      | true => exact .inl ⟨hne, by simp [hc]⟩
      | false => exact .inr ⟨c, rfl, hc⟩

/-- One character of a piece tells whether it is a run. -/
theorem word_iff_of_piece {w : List Char} {c : Char}
    (h : (w ≠ [] ∧ ∀ c ∈ w, isWordChar c = true) ∨ ∃ c, w = [c] ∧ isWordChar c = false) (hc : c ∈ w) :
    isWordChar c = true ↔ ∀ d ∈ w, isWordChar d = true := by
  rcases h with ⟨-, hw⟩ | ⟨d, rfl, -⟩
  · exact iff_of_true (hw c hc) hw
  · obtain rfl := List.mem_singleton.1 hc
    simp

/-- **The segments are the cut of a text.** -/
theorem cut_iff {text : List Char} {ws : List (List Char)} : Cut text ws ↔ ws = segments text := by
  have hmaximal : (∀ w ∈ ws, (w ≠ [] ∧ ∀ c ∈ w, isWordChar c = true) ∨ ∃ c, w = [c] ∧ isWordChar c = false) →
      ((ws.IsChain fun v w => ¬ ((∀ c ∈ v, isWordChar c = true) ∧ ∀ c ∈ w, isWordChar c = true)) ↔
        ws.IsChain fun v w => ∃ hv hw, (isWordChar (v.getLast hv) && isWordChar (w.head hw)) = false) := by
    intro hpiece
    refine List.IsChain.iff_of_mem_imp (fun v w hv hw => ?_)
    have hvne : v ≠ [] := (piece_iff.1 (hpiece v hv)).1
    have hwne : w ≠ [] := (piece_iff.1 (hpiece w hw)).1
    rw [← word_iff_of_piece (hpiece v hv) (List.getLast_mem hvne),
      ← word_iff_of_piece (hpiece w hw) (List.head_mem hwne), ← Bool.and_eq_true, Bool.not_eq_true]
    exact ⟨fun h => ⟨hvne, hwne, h⟩, fun ⟨_, _, h⟩ => h⟩
  rw [eq_comm (a := ws), segments, List.splitBy_eq_iff]
  constructor
  · rintro ⟨hflat, hpiece, hmax⟩
    refine ⟨hflat.symm, fun hnil => ?_, fun w hw => (piece_iff.1 (hpiece w hw)).2, (hmaximal hpiece).1 hmax⟩
    exact (piece_iff.1 (hpiece [] hnil)).1 rfl
  · rintro ⟨hflat, hnil, hchain, hmax⟩
    have hpiece : ∀ w ∈ ws, (w ≠ [] ∧ ∀ c ∈ w, isWordChar c = true) ∨ ∃ c, w = [c] ∧ isWordChar c = false := by
      intro w hw
      refine piece_iff.2 ⟨?_, hchain w hw⟩
      rintro rfl
      exact hnil hw
    exact ⟨hflat.symm, hpiece, (hmaximal hpiece).2 hmax⟩

end

/-! ## Lexicons that read segments -/

/-- The rules take whole segments, agree on the kind of one, and leave none that has a kind. -/
structure Lexicon.Segmental [WordClass] (lx : Lexicon) : Prop where
  whole : ∀ r ∈ lx.rules, r.pattern.Whole
  kind_eq : ∀ r ∈ lx.rules, ∀ w, r.pattern.Matches w → segmentKind? w = some (lx.kindOf r.kind (String.ofList w))
  exists_rule : ∀ w kind, segmentKind? w = some kind → ∃ r ∈ lx.rules, r.pattern.Matches w

namespace Lexicon

variable {lx : Lexicon} {before : Option Char} {pos : Position}

theorem Segmental.token?_eq [WordClass] (h : lx.Segmental) (before : Option Char) (ahead : List Char) :
    (segmentKind? (segmentAt before ahead) = none ∧ lx.token? before ahead = none) ∨
      ∃ kind, lx.token? before ahead = some (kind, (segmentAt before ahead).length) ∧
        segmentKind? (segmentAt before ahead) = some (lx.kindOf kind (String.ofList (segmentAt before ahead))) := by
  cases htoken : lx.token? before ahead with
  | none =>
    refine .inl ⟨Option.eq_none_iff_forall_ne_some.2 (fun kind hkind => ?_), rfl⟩
    obtain ⟨r, hr, hmatches⟩ := h.exists_rule _ _ hkind
    have hnone := List.findSome?_eq_none_iff.1 htoken r hr
    rw [(h.whole r hr before ahead _).2 ⟨hmatches, rfl⟩] at hnone
    cases hnone
  | some found =>
    obtain ⟨r, hr, hlength⟩ := List.exists_of_findSome?_eq_some htoken
    obtain ⟨n, hn, rfl⟩ := Option.map_eq_some_iff.1 hlength
    obtain ⟨hmatches, rfl⟩ := (h.whole r hr before ahead n).1 hn
    exact .inr ⟨r.kind, rfl, h.kind_eq r hr _ hmatches⟩

theorem scan_skip (lx : Lexicon) {s : List Char} : ∀ {w : List Char} {before : Option Char} {pos : Position},
    lx.scan before w.length pos (w ++ s) = lx.scan (w.getLast?.or before) 0 (pos.behind w) s
  | [], _, _ => rfl
  | c :: w, before, pos => by
    rw [List.cons_append, List.length_cons, scan, scan_skip lx, Pattern.getLast?_cons_or]
    rfl

theorem segmentKind?_nil : segmentKind? [] = none := rfl

section

variable [WordClass]

/-- Nothing is found inside a run. -/
theorem Segmental.scan_inside (h : lx.Segmental) {s : List Char} : ∀ {w : List Char} {b : Char} {pos : Position},
    isWordChar b = true → (∀ c ∈ w, isWordChar c = true) →
      lx.scan (some b) 0 pos (w ++ s) = lx.scan (w.getLast?.or (some b)) 0 (pos.behind w) s
  | [], _, _, _, _ => rfl
  | c :: w, b, pos, hb, hw => by
    obtain ⟨hc, hrest⟩ := List.forall_mem_cons.1 hw
    have hinside : segmentAt (some b) (c :: (w ++ s)) = [] := segmentAt_inside hb hc
    have hnone : lx.token? (some b) (c :: (w ++ s)) = none := by
      rcases h.token?_eq (some b) (c :: (w ++ s)) with ⟨-, hnone⟩ | ⟨kind, -, hkind⟩
      · exact hnone
      · rw [hinside, segmentKind?_nil] at hkind
        cases hkind
    rw [List.cons_append, scan, hnone, Pattern.getLast?_cons_or]
    exact h.scan_inside hc hrest

/-- **What is read of a segment**: the token that it is, if it is one. -/
theorem Segmental.scan_segment (h : lx.Segmental) {w s : List Char} (hseg : Segment w s)
    (hb : before.any isWordChar = true → (w ++ s).head?.any isWordChar = false) :
    lx.scan before 0 pos (w ++ s) = (tokenAt? pos w).toList ++ lx.scan w.getLast? 0 (pos.behind w) s := by
  have hat : segmentAt before (w ++ s) = w := hseg.segmentAt_eq hb
  obtain ⟨c, v, rfl⟩ := List.exists_cons_of_ne_nil hseg.ne_nil
  have hlast : (c :: v).getLast? = v.getLast?.or (some c) := by
    rw [← Pattern.getLast?_cons_or, Option.or_none]
  have htoken := h.token?_eq before (c :: v ++ s)
  rw [hat] at htoken
  rw [List.cons_append] at htoken ⊢
  rcases htoken with ⟨hnone, htoken⟩ | ⟨kind, htoken, hkind⟩
  · have hskip : lx.scan (some c) 0 (pos.after c) (v ++ s) =
        lx.scan (v.getLast?.or (some c)) 0 ((pos.after c).behind v) s := by
      cases hseg with
      | other hc => rfl
      | run hne hw hs =>
        obtain ⟨hc, hrest⟩ := List.forall_mem_cons.1 hw
        exact h.scan_inside hc hrest
    rw [scan, htoken, hlast, tokenAt?, hnone]
    exact hskip
  · have htake : (c :: (v ++ s)).take (v.length + 1) = c :: v := by
      rw [List.take_succ_cons, List.take_left]
    rw [List.length_cons] at htoken
    rw [scan, htoken, hlast, tokenAt?, hkind]
    simp only [htake, scan_skip]
    rfl

/-- **The tokens of a text are those of its segments**, each at the place where it starts. -/
theorem Segmental.scan_eq (h : lx.Segmental) (text : List Char) (before : Option Char) (pos : Position)
    (hb : before.any isWordChar = true → text.head?.any isWordChar = false) :
    lx.scan before 0 pos text = tokensAt pos (segments text) := by
  by_cases hnil : text = []
  · subst hnil
    rfl
  · obtain ⟨w, s, htext, hseg⟩ := Segment.exists_first hnil
    have hshorter : s.length < text.length := by
      have hpos : 0 < w.length := List.length_pos_iff.2 hseg.ne_nil
      rw [htext, List.length_append]
      omega
    have hrest := h.scan_eq s w.getLast? (pos.behind w) hseg.starts_behind
    rw [htext] at hb ⊢
    rw [h.scan_segment hseg hb, hseg.segments_eq, tokensAt, hrest]
termination_by text.length

theorem Segmental.tokens_eq (h : lx.Segmental) (text : String) :
    lx.tokens text = tokensAt .start (segments text.toList) :=
  h.scan_eq text.toList none .start (fun hnone => by cases hnone)

end

end Lexicon

end MiniLang
