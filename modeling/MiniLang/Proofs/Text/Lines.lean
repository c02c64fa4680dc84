import Mathlib.Data.List.Infix
import MiniLang.Text.Lines
/-!
# Where lines begin

Behind a line feed the lines begin anew, and up to it there are as many as line feeds (`lines_append`).  What holds no
line feed and does not end in a carriage return stands in one line, whatever stands behind it (`first_line`).
Lines that hold neither and are each ended by a line feed are read back (`lines_ended`).
-/
namespace MiniLang.Text

/-- The text of lines that each end with a line feed. -/
def ended (ls : List (List Char)) : List Char := ls.flatMap (· ++ ['\n'])

theorem lines_ne_nil {s : List Char} (h : s ≠ []) : lines s ≠ [] := by
  fun_cases lines s <;> simp_all

/-- A character that does not end its line stands in front of the first line behind it. -/
theorem lines_cons {c : Char} {s : List Char} (hc : c ≠ '\n') (hr : c = '\r' → s.head? ≠ some '\n') (hs : s ≠ []) :
    ∃ l ls, lines s = l :: ls ∧ lines (c :: s) = (c :: l) :: ls := by
  obtain ⟨l, ls, hls⟩ := List.exists_cons_of_ne_nil (lines_ne_nil hs)
  refine ⟨l, ls, hls, ?_⟩
  rw [lines, hls]
  · exact hc
  · rintro s' hc' rfl
    exact hr hc' rfl

theorem not_mem_of_mem_lines (s : List Char) : ∀ l ∈ lines s, '\n' ∉ l := by
  fun_induction lines s with
  | case1 => simp
  | case2 s ih | case3 s ih => exact List.forall_mem_cons.2 ⟨List.not_mem_nil, ih⟩
  | case4 c s hc hs hls ih => simpa using Ne.symm hc
  | case5 c s hc hs l ls hls ih =>
    rw [hls, List.forall_mem_cons] at ih
    exact List.forall_mem_cons.2 ⟨List.not_mem_cons_of_ne_of_not_mem (Ne.symm hc) ih.1, ih.2⟩

theorem newline_not_mem_line {text : String} {n : Nat} {l : List Char} (h : line? text n = some l) : '\n' ∉ l := by
  cases n with
  | zero => cases h
  | succ n => exact not_mem_of_mem_lines _ l (List.mem_of_getElem? h)

theorem subset_of_mem_lines (s : List Char) : ∀ l ∈ lines s, l ⊆ s := by
  fun_induction lines s with
  | case1 => simp
  | case2 s ih =>
    refine List.forall_mem_cons.2 ⟨List.nil_subset _, fun l hl => ?_⟩
    exact List.subset_cons_of_subset _ (ih l hl)
  | case3 s ih =>
    refine List.forall_mem_cons.2 ⟨List.nil_subset _, fun l hl => ?_⟩
    exact List.subset_cons_of_subset _ (List.subset_cons_of_subset _ (ih l hl))
  | case4 c s hc hs hls ih => simp
  | case5 c s hc hs l ls hls ih =>
    rw [hls, List.forall_mem_cons] at ih
    refine List.forall_mem_cons.2 ⟨List.cons_subset_cons c ih.1, fun m hm => ?_⟩
    exact List.subset_cons_of_subset c (ih.2 m hm)

theorem mem_of_mem_line {text : String} {n : Nat} {l : List Char} {c : Char} (h : line? text n = some l) (hc : c ∈ l) :
    c ∈ text.toList := by
  cases n with
  | zero => cases h
  | succ n => exact subset_of_mem_lines _ l (List.mem_of_getElem? h) hc

/-- **Behind a line feed the lines begin anew**, and up to it there are as many as line feeds. -/
theorem lines_append (a s : List Char) :
    lines (a ++ '\n' :: s) = lines (a ++ ['\n']) ++ lines s ∧ (lines (a ++ ['\n'])).length = a.count '\n' + 1 := by
  fun_induction lines a with
  | case1 => exact ⟨rfl, rfl⟩
  | case2 a ih | case3 a ih => simp [lines, ih]
  | case4 c a hc hr hls ih | case5 c a hc hr l ls hls ih =>
    by_cases hlast : c = '\r' ∧ a = []
    · obtain ⟨rfl, rfl⟩ := hlast
      exact ⟨rfl, rfl⟩
    · have hhead : ∀ s, c = '\r' → (a ++ '\n' :: s).head? ≠ some '\n' := by
        intro s hc' hhead
        cases a with
        | nil => exact hlast ⟨hc', rfl⟩
        | cons d a => exact hr a hc' (by simpa using hhead)
      obtain ⟨m, ms, hm, hcm⟩ := lines_cons hc (hhead s) (by simp)
      obtain ⟨k, ks, hk, hck⟩ := lines_cons hc (hhead []) (by simp)
      rw [hm, hk] at ih
      obtain ⟨rfl, rfl⟩ := List.cons.inj ih.1
      rw [List.count_cons_of_ne hc]
      exact ⟨by rw [List.cons_append, List.cons_append, hcm, hck]; rfl, by rw [List.cons_append, hck, ← ih.2]; rfl⟩

/-- What holds no line feed stands in the first line of a text that starts with it. -/
theorem first_line {v s : List Char} (hv : v ≠ []) (hn : '\n' ∉ v) (hr : v.getLast? ≠ some '\r') :
    ∃ l ls, lines (v ++ s) = l :: ls ∧ v <+: l := by
  induction v with
  | nil => exact absurd rfl hv
  | cons c v ih =>
    rw [List.mem_cons, not_or] at hn
    cases v with
    | nil =>
      have hc : c ≠ '\r' := by simpa using hr
      by_cases hs : s = []
      · subst hs
        exact ⟨[c], [], by simp [lines, Ne.symm hn.1], List.prefix_refl [c]⟩
      · obtain ⟨l, ls, -, h⟩ := lines_cons (Ne.symm hn.1) (absurd · hc) hs
        exact ⟨c :: l, ls, h, List.prefix_append [c] l⟩
    | cons d v =>
      have hd : d ≠ '\n' := fun h => hn.2 (h ▸ List.mem_cons_self)
      obtain ⟨l, ls, h, hvl⟩ := ih (List.cons_ne_nil d v) hn.2 (by simpa using hr)
      obtain ⟨l', ls', h', hc⟩ := lines_cons (c := c) (s := d :: v ++ s) (Ne.symm hn.1) (by simp [hd]) (by simp)
      obtain ⟨rfl, rfl⟩ := List.cons.inj (h.symm.trans h')
      exact ⟨c :: l, ls, hc, List.cons_prefix_cons.2 ⟨rfl, hvl⟩⟩

/-- A text that ends no line stands as one line in front of a line feed. -/
theorem lines_line {l : List Char} (hn : '\n' ∉ l) (hr : '\r' ∉ l) (s : List Char) :
    lines (l ++ '\n' :: s) = l :: lines s := by
  induction l with
  | nil => rfl
  | cons c l ih =>
    rw [List.mem_cons, not_or] at hn hr
    have hs : l ++ '\n' :: s ≠ [] := List.append_ne_nil_of_right_ne_nil _ (List.cons_ne_nil _ _)
    obtain ⟨m, ms, hm, hcm⟩ := lines_cons (Ne.symm hn.1) (absurd · (Ne.symm hr.1)) hs
    rw [ih hn.2 hr.2] at hm
    obtain ⟨rfl, rfl⟩ := List.cons.inj hm
    rw [List.cons_append, hcm]

/-- **Lines that are ended are read back.** -/
theorem lines_ended {ls : List (List Char)} (h : ∀ l ∈ ls, '\n' ∉ l ∧ '\r' ∉ l) : lines (ended ls) = ls := by
  induction ls with
  | nil => rfl
  | cons l ls ih =>
    rw [List.forall_mem_cons] at h
    have hended : ended (l :: ls) = l ++ '\n' :: ended ls := by
      rw [ended, List.flatMap_cons, List.append_assoc]
      rfl
    rw [hended, lines_line h.1.1 h.1.2, ih h.2]

end MiniLang.Text
