import MiniLang.Proofs.Token.Shape
/-!
# Whole segments

A segment is a maximal run of word characters or one other character.  A word pattern asks for an edge on both sides of
its text, so what it takes is a run and never a part of one (`Pattern.whole_asWord`); a pattern of one character that is
no word character takes a segment as well (`Pattern.whole_one`).  Either way a pattern has at most one length at a place,
so neither the order of its ends nor that of the rules can cut a segment short.
-/
namespace MiniLang

open Text (isWordChar WordClass)

section

variable [WordClass]

/-- The segment that starts at a place; none starts inside a run. -/
def segmentAt (before : Option Char) : List Char → List Char
  | [] => []
  | c :: s =>
    if isWordChar c then if before.any isWordChar then [] else c :: s.takeWhile isWordChar
    else [c]

/-! ## Segments -/

variable {before : Option Char} {c : Char} {w s : List Char}

theorem segmentAt_other (hc : isWordChar c = false) : segmentAt before (c :: s) = [c] := by
  simp [segmentAt, hc]

theorem segmentAt_inside (hb : before.any isWordChar = true) (hc : isWordChar c = true) :
    segmentAt before (c :: s) = [] := by
  simp [segmentAt, hb, hc]

theorem segmentAt_run (hb : before.any isWordChar = false) (hne : w ≠ []) (hw : ∀ c ∈ w, isWordChar c = true)
    (hs : s.head?.any isWordChar = false) : segmentAt before (w ++ s) = w := by
  obtain ⟨c, w, rfl⟩ := List.exists_cons_of_ne_nil hne
  have hc : isWordChar c = true := hw c List.mem_cons_self
  have hrest : s.takeWhile isWordChar = [] := by
    cases s with
    | nil => rfl
    | cons d s => exact List.takeWhile_cons_of_neg (by simpa using hs)
  have hrun : (w ++ s).takeWhile isWordChar = w := by
    rw [List.takeWhile_append_of_pos (fun d hd => hw d (List.mem_cons_of_mem c hd)), hrest, List.append_nil]
  rw [List.cons_append, segmentAt, if_pos hc, hb, hrun]
  rfl

/-- A segment of word characters is a run that nothing goes on with on either side. -/
theorem exists_run {ahead : List Char} (hne : segmentAt before ahead ≠ [])
    (hw : ∀ c ∈ segmentAt before ahead, isWordChar c = true) :
    before.any isWordChar = false ∧ ∃ s, ahead = segmentAt before ahead ++ s ∧ s.head?.any isWordChar = false := by
  cases ahead with
  | nil => exact absurd rfl hne
  | cons c s =>
    by_cases hc : isWordChar c = true
    · by_cases hb : before.any isWordChar = true
      · exact absurd (segmentAt_inside hb hc) hne
      · have hb' : before.any isWordChar = false := Bool.eq_false_iff.2 hb
        have hseg : segmentAt before (c :: s) = c :: s.takeWhile isWordChar := by simp [segmentAt, hc, hb']
        refine ⟨hb', s.dropWhile isWordChar, ?_, ?_⟩
        · rw [hseg, List.cons_append, List.takeWhile_append_dropWhile]
        · have hhead := List.head?_dropWhile_not isWordChar s
          cases hd : (s.dropWhile isWordChar).head? with
          | none => rfl
          | some d => simpa [hd] using hhead
    · have hc' : isWordChar c = false := Bool.eq_false_iff.2 hc
      rw [segmentAt_other hc'] at hw
      exact absurd (hw c List.mem_cons_self) hc

end

namespace Place

variable {p : Place} {c : Char} {word : Char → Bool}

theorem isEdge_ahead {s : List Char} (hp : p.ahead = c :: s) (hc : word c = true) :
    p.isEdge word = true ↔ p.before.any word = false := by
  simp [isEdge, hp, hc]

theorem isEdge_before (hp : p.before = some c) (hc : word c = true) :
    p.isEdge word = true ↔ p.ahead.head?.any word = false := by
  simp [isEdge, hp, hc]

end Place

namespace Pattern

/-! ## Patterns that look at no edge -/

def isPlain : Pattern → Bool
  | edge _ => false
  | seq a b => a.isPlain && b.isPlain
  | alt a b => a.isPlain && b.isPlain
  | empty | one _ | many _ => true

theorem mem_ends_of_matches {p' : Place} : ∀ {a : Pattern} {p : Place} {w : List Char}, a.isPlain = true →
    a.Matches w → Between w p p' → p' ∈ a.ends p
  | empty, p, w, _, hw, hb => by
    obtain rfl : w = [] := hw
    exact List.mem_singleton.2 hb.eq_of_nil
  | one q, ⟨before, ahead, n⟩, w, _, hw, hb => by
    obtain ⟨c, rfl, hc⟩ := hw
    obtain rfl : ahead = c :: p'.ahead := hb.ahead
    rw [ends, if_pos hc]
    exact List.mem_singleton.2 (between_cons.1 hb).eq_of_nil
  | many q, p, w, _, hw, hb => mem_runEnds.2 (.inr ⟨w, hw, hb⟩)
  | seq a b, ⟨before, ahead, n⟩, w, hp, hw, hb => by
    obtain ⟨v, v', rfl, hv, hv'⟩ := hw
    rw [isPlain, Bool.and_eq_true] at hp
    let mid : Place := ⟨v.getLast?.or before, v' ++ p'.ahead, n + v.length⟩
    have hfirst : Between v ⟨before, ahead, n⟩ mid := ⟨by rw [hb.ahead, List.append_assoc], rfl, rfl⟩
    have hsecond : Between v' mid p' := by
      refine ⟨rfl, ?_, ?_⟩
      · rw [hb.passed, List.length_append, ← Nat.add_assoc]
      · rw [hb.before, List.getLast?_append, Option.or_assoc]
    exact List.mem_flatMap.2 ⟨mid, mem_ends_of_matches hp.1 hv hfirst, mem_ends_of_matches hp.2 hv' hsecond⟩
  | alt a b, p, w, hp, hw, hb => by
    rw [isPlain, Bool.and_eq_true] at hp
    rcases hw with hw | hw
    · exact List.mem_append_left _ (mem_ends_of_matches hp.1 hw hb)
    · exact List.mem_append_right _ (mem_ends_of_matches hp.2 hw hb)

/-- **A plain pattern ends behind each of its texts**, and nowhere else. -/
theorem mem_ends_iff {a : Pattern} (ha : a.isPlain = true) {p p' : Place} :
    p' ∈ a.ends p ↔ ∃ w, a.Matches w ∧ Between w p p' := by
  constructor
  · exact matches_of_mem_ends
  · rintro ⟨w, hw, hb⟩
    exact mem_ends_of_matches ha hw hb

/-! ## Patterns of whole segments -/

section

variable [WordClass]

/-- Takes a segment if it is one of its texts, and never a part of one. -/
def Whole (a : Pattern) : Prop := ∀ (before : Option Char) (ahead : List Char) (n : Nat),
  a.length? before ahead = some n ↔ a.Matches (segmentAt before ahead) ∧ n = (segmentAt before ahead).length

theorem mem_ends_asWord {a : Pattern} {p p' : Place} :
    p' ∈ a.asWord.ends p ↔ p.isEdge isWordChar = true ∧ p' ∈ a.ends p ∧ p'.isEdge isWordChar = true := by
  have hedge : ∀ q q' : Place, q' ∈ (edge isWordChar).ends q ↔ q.isEdge isWordChar = true ∧ q' = q := by
    intro q q'
    rw [ends]
    split <;> simp_all
  unfold asWord
  rw [ends, List.mem_flatMap]
  constructor
  · rintro ⟨_, h, h'⟩
    obtain ⟨hp, rfl⟩ := (hedge _ _).1 h
    rw [ends, List.mem_flatMap] at h'
    obtain ⟨q, hq, hq'⟩ := h'
    obtain ⟨hedge', rfl⟩ := (hedge _ _).1 hq'
    exact ⟨hp, hq, hedge'⟩
  · rintro ⟨hp, hp', hedge'⟩
    refine ⟨p, (hedge _ _).2 ⟨hp, rfl⟩, ?_⟩
    rw [ends, List.mem_flatMap]
    exact ⟨p', hp', (hedge _ _).2 ⟨hedge', rfl⟩⟩

theorem matches_asWord_iff {a : Pattern} {w : List Char} : a.asWord.Matches w ↔ a.Matches w := by
  refine ⟨matches_asWord, fun h => ⟨[], w, rfl, rfl, w, [], ?_, h, rfl⟩⟩
  exact (List.append_nil w).symm

variable {a : Pattern}

/-- What stands between two edges is a whole run. -/
theorem segmentAt_of_edges {w : List Char} {p p' : Place} (hne : w ≠ []) (hw : ∀ c ∈ w, isWordChar c = true)
    (hb : Between w p p') :
    (p.isEdge isWordChar = true ∧ p'.isEdge isWordChar = true) ↔
      p.before.any isWordChar = false ∧ p'.ahead.head?.any isWordChar = false := by
  have hfirst : p.ahead = w.head hne :: (w.tail ++ p'.ahead) := by
    rw [hb.ahead, ← List.cons_append, List.cons_head_tail]
  have hlast : p'.before = some (w.getLast hne) := by
    rw [hb.before, List.getLast?_eq_some_getLast hne]
    rfl
  rw [Place.isEdge_ahead hfirst (hw _ (List.head_mem hne)), Place.isEdge_before hlast (hw _ (List.getLast_mem hne))]

/-- **A word pattern takes a whole run.** -/
theorem whole_asWord (ha : a.isPlain = true) (hword : ∀ w, a.Matches w → w ≠ [] ∧ ∀ c ∈ w, isWordChar c = true) :
    a.asWord.Whole := by
  intro before ahead n
  rw [matches_asWord_iff]
  have hends : ∀ p' ∈ a.asWord.ends ⟨before, ahead, 0⟩,
      a.Matches (segmentAt before ahead) ∧ p'.passed = (segmentAt before ahead).length := by
    intro p' hp'
    obtain ⟨hp, hmem, hedge⟩ := mem_ends_asWord.1 hp'
    obtain ⟨w, hmatches, hb⟩ := (mem_ends_iff ha).1 hmem
    obtain ⟨hne, hw⟩ := hword w hmatches
    obtain ⟨hbefore, hrest⟩ := (segmentAt_of_edges hne hw hb).1 ⟨hp, hedge⟩
    have hseg : segmentAt before ahead = w := by
      rw [show ahead = w ++ p'.ahead from hb.ahead]
      exact segmentAt_run hbefore hne hw hrest
    rw [hseg]
    exact ⟨hmatches, by rw [hb.passed, Nat.zero_add]⟩
  unfold length?
  constructor
  · intro h
    obtain ⟨p', hp', rfl⟩ := Option.map_eq_some_iff.1 h
    exact hends p' (List.mem_of_mem_head? hp')
  · rintro ⟨hmatches, rfl⟩
    obtain ⟨hne, hw⟩ := hword _ hmatches
    obtain ⟨hbefore, s, hahead, hs⟩ := exists_run hne hw
    let p' : Place := ⟨(segmentAt before ahead).getLast?.or before, s, (segmentAt before ahead).length⟩
    have hb : Between (segmentAt before ahead) ⟨before, ahead, 0⟩ p' := ⟨hahead, by rw [Nat.zero_add], rfl⟩
    obtain ⟨hp, hedge⟩ := (segmentAt_of_edges hne hw hb).2 ⟨hbefore, hs⟩
    have hmem : p' ∈ a.asWord.ends ⟨before, ahead, 0⟩ :=
      mem_ends_asWord.2 ⟨hp, (mem_ends_iff ha).2 ⟨_, hmatches, hb⟩, hedge⟩
    obtain ⟨p₁, ps, hps⟩ := List.exists_cons_of_ne_nil (List.ne_nil_of_mem hmem)
    have hp₁ : p₁ ∈ a.asWord.ends ⟨before, ahead, 0⟩ := by
      rw [hps]
      exact List.mem_cons_self
    rw [hps, List.head?_cons, Option.map_some, (hends p₁ hp₁).2]

/-- **One character that is no word character is a whole segment.** -/
theorem whole_one {q : Char → Bool} (hq : ∀ c, q c = true → isWordChar c = false) : (one q).Whole := by
  intro before ahead n
  have hnil : ¬ (one q).Matches [] := by
    rintro ⟨c, hc, -⟩
    cases hc
  cases ahead with
  | nil => simp [length?, ends, segmentAt, hnil]
  | cons c s =>
    by_cases hc : isWordChar c = true
    · have hqc : ¬ q c = true := by
        intro h
        rw [hq c h] at hc
        cases hc
      have hno : ¬ (one q).Matches (segmentAt before (c :: s)) := by
        rintro ⟨d, hd, hqd⟩
        have hrun : ∀ d ∈ segmentAt before (c :: s), isWordChar d = true := by
          intro d hd
          rw [segmentAt, if_pos hc] at hd
          split at hd
          · cases hd
          · rcases List.mem_cons.1 hd with rfl | hd
            · exact hc
            · exact List.all_eq_true.1 List.all_takeWhile d hd
        have hword : isWordChar d = true := hrun d (by rw [hd]; exact List.mem_cons_self)
        rw [hq d hqd] at hword
        cases hword
      simp [length?, ends, hqc, hno]
    · rw [segmentAt_other (Bool.eq_false_iff.2 hc)]
      by_cases hqc : q c = true
      · have hmatches : (one q).Matches [c] := ⟨c, rfl, hqc⟩
        simp [length?, ends, hqc, hmatches, eq_comm]
      · have hno : ¬ (one q).Matches [c] := by
          rintro ⟨d, hd, hqd⟩
          obtain rfl := (List.cons.inj hd).1
          exact hqc hqd
        simp [length?, ends, hqc, hno]

end

end Pattern

end MiniLang
