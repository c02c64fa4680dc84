import Mathlib.Data.List.Perm.Basic
import MiniLang.Names
/-!
# Sets of names by their members

A set of names is told by its members (`Names.ext_iff`), since its list is the one ascending list of them.  So the set
of the images under a change of names (`Names.map`) is known by what it contains, however they are ordered.
-/
namespace MiniLang.Names

theorem nodup (ns : Names) : ns.toList.Nodup := by
  refine ns.ascending.imp (fun hlt => ?_)
  rintro rfl
  exact String.lt_irrefl _ hlt

/-- **Two sets with the same members are equal.** -/
theorem ext_iff {ns ms : Names} : ns = ms ↔ ∀ x, x ∈ ns ↔ x ∈ ms := by
  constructor
  · rintro rfl x
    rfl
  · intro h
    have hperm : ns.toList.Perm ms.toList := (List.perm_ext_iff_of_nodup ns.nodup ms.nodup).2 h
    have hlist : ns.toList = ms.toList := by
      refine hperm.eq_of_pairwise (fun x y _ _ hxy hyx => ?_) ns.ascending ms.ascending
      exact absurd (String.lt_trans hxy hyx) (String.lt_irrefl x)
    cases ns
    cases ms
    cases hlist
    rfl

theorem ofList_toList (ns : Names) : ofList ns.toList = ns := by
  rw [ext_iff]
  exact fun _ => mem_ofList

/-! ## Images -/

/-- The images of the names under a change of names. -/
def map (f : String → String) (ns : Names) : Names := ofList (ns.toList.map f)

variable {f : String → String} {ns : Names} {x : String}

theorem mem_map : x ∈ ns.map f ↔ ∃ y ∈ ns, f y = x := by
  rw [map, mem_ofList, List.mem_map]
  rfl

theorem map_id : ns.map id = ns := by
  rw [ext_iff]
  intro x
  rw [mem_map]
  simp

theorem map_insert : (ns.insert x).map f = (ns.map f).insert (f x) := by
  rw [ext_iff]
  intro z
  simp only [mem_map, mem_insert, or_and_right, exists_or, exists_eq_left, eq_comm (a := z)]

/-- An image is found where no other name has the same one. -/
theorem contains_map (h : ∀ y ∈ ns, f y = f x → y = x) : (ns.map f).contains (f x) = ns.contains x := by
  rw [Bool.eq_iff_iff, contains_iff, contains_iff, mem_map]
  constructor
  · rintro ⟨y, hy, heq⟩
    exact h y hy heq ▸ hy
  · exact fun hx => ⟨x, hx, rfl⟩

end MiniLang.Names
