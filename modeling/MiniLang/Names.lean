/-!
# Sets of names

A set of names is kept as its strictly ascending list, so two sets with the same members are equal, and the list is the
order in which names are shown: by code point.
-/
namespace MiniLang

structure Names where
  toList : List String
  ascending : toList.Pairwise (· < ·)
  deriving DecidableEq

namespace Names

def empty : Names := ⟨[], .nil⟩

def size (ns : Names) : Nat := ns.toList.length

def contains (ns : Names) (x : String) : Bool := ns.toList.contains x

/-- Puts a name before the first that is greater, unless it is there. -/
def placed (x : String) : List String → List String
  | [] => [x]
  | y :: ys => if x < y then x :: y :: ys else if x = y then y :: ys else y :: placed x ys

theorem mem_placed {x z : String} : ∀ {ys : List String}, z ∈ placed x ys ↔ z = x ∨ z ∈ ys
  | [] => by simp [placed]
  | y :: ys => by
    unfold placed
    split
    · simp
    · split
      · next h => simp [h]
      · simp only [List.mem_cons, @mem_placed x z ys]
        exact or_left_comm

theorem placed_ascending (x : String) :
    ∀ {ys : List String}, ys.Pairwise (· < ·) → (placed x ys).Pairwise (· < ·)
  | [], _ => List.pairwise_singleton ..
  | y :: ys, h => by
    obtain ⟨hy, hys⟩ := List.pairwise_cons.1 h
    unfold placed
    split
    · next hx =>
      refine List.pairwise_cons.2 ⟨fun z hz => ?_, h⟩
      rcases List.mem_cons.1 hz with rfl | hz
      · exact hx
      · exact String.lt_trans hx (hy z hz)
    · split
      · exact h
      · next hx hne =>
        refine List.pairwise_cons.2 ⟨fun z hz => ?_, placed_ascending x hys⟩
        rcases mem_placed.1 hz with rfl | hz
        · exact Std.lt_of_le_of_ne (String.not_lt.1 hx) (Ne.symm hne)
        · exact hy z hz

def insert (ns : Names) (x : String) : Names := ⟨placed x ns.toList, placed_ascending x ns.ascending⟩

def ofList (xs : List String) : Names := xs.foldl insert empty

instance : Membership String Names := ⟨fun ns x => x ∈ ns.toList⟩

theorem mem_insert {ns : Names} {x z : String} : z ∈ ns.insert x ↔ z = x ∨ z ∈ ns := mem_placed

theorem contains_iff {ns : Names} {x : String} : ns.contains x = true ↔ x ∈ ns := List.contains_iff_mem

theorem mem_foldl_insert {z : String} :
    ∀ {xs : List String} {ns : Names}, z ∈ xs.foldl insert ns ↔ z ∈ xs ∨ z ∈ ns
  | [], _ => by simp
  | x :: xs, ns => by rw [List.foldl_cons, mem_foldl_insert, mem_insert, List.mem_cons, or_left_comm, or_assoc]

theorem mem_ofList {xs : List String} {z : String} : z ∈ ofList xs ↔ z ∈ xs := by
  rw [ofList, mem_foldl_insert]
  exact or_iff_left List.not_mem_nil

end Names

end MiniLang
