import MiniLang.Analysis
import MiniLang.Proofs.Names
import MiniLang.Proofs.Text.Order
/-!
# The listing of names

The names of a report are listed in one order, which depends on nothing but the set: whoever sorts its members by their
bytes gets this list, in whatever order the members came (`Names.eq_toList_of_sorted`).  So two reports are alike if the
names put in were the same ones, however often and in which order (`symbols_canonical`).
-/
namespace MiniLang

open Text (utf8)

namespace Names

theorem ofList_eq_ofList_iff {xs ys : List String} : ofList xs = ofList ys ↔ ∀ x, x ∈ xs ↔ x ∈ ys := by
  simp only [ext_iff, mem_ofList]

/-- **Sorting the members gives the list**, in whatever order they are gone through and whatever a sort does with equal
ones. -/
theorem eq_toList_of_sorted {ns : Names} {order sorted : List String} (hnodup : order.Nodup)
    (hmem : ∀ x, x ∈ order ↔ x ∈ ns) (hperm : sorted.Perm order)
    (hsorted : sorted.Pairwise fun x y => utf8 x ≤ utf8 y) : sorted = ns.toList := by
  have horder : order.Perm ns.toList := (List.perm_ext_iff_of_nodup hnodup ns.nodup).2 hmem
  have hlisted : ns.toList.Pairwise fun x y => utf8 x ≤ utf8 y := by
    refine ns.ascending.imp (fun hlt => ?_)
    exact (Text.strictMono_utf8 hlt).le
  refine (hperm.trans horder).eq_of_pairwise (fun x y _ _ hxy hyx => ?_) hsorted hlisted
  exact Text.strictMono_utf8.injective (le_antisymm hxy hyx)

end Names

end MiniLang
