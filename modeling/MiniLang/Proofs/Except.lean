/-!
# Runs that may fail
-/
namespace MiniLang

variable {ε α β γ : Type}

theorem bind_eq_ok {x : Except ε α} {f : α → Except ε β} {b : β} : (x >>= f) = .ok b ↔ ∃ a, x = .ok a ∧ f a = .ok b := by
  cases x <;> simp [bind, Except.bind]

section Fold

variable {f : β → α → Except ε β} {b c : β}

theorem foldlM_cons_eq_ok {a : α} {as : List α} :
    (a :: as).foldlM f b = .ok c ↔ ∃ b', f b a = .ok b' ∧ as.foldlM f b' = .ok c := by
  rw [List.foldlM_cons, bind_eq_ok]

theorem foldlM_append_eq_ok {as as' : List α} :
    (as ++ as').foldlM f b = .ok c ↔ ∃ b', as.foldlM f b = .ok b' ∧ as'.foldlM f b' = .ok c := by
  rw [List.foldlM_append, bind_eq_ok]

end Fold

end MiniLang
