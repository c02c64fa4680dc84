import Mathlib.Data.List.Basic
import MiniLang.Files.Tree
import MiniLang.Proofs.Except
/-!
# Writing

A path is followed through directories (`enter_eq_ok`), so it still leads where it led when a file is put where no
directory is (`follow_put`).  Hence a file that was written is found under the path it was written to, holds what was
written, and is the only thing in the tree that is not as before (`exists_of_write`).
-/
namespace MiniLang

namespace FileTree

variable {t t' : FileTree} {k l l' : Location} {e : Entry} {p : String}

/-- Follows components one after the other. -/
def follow (t : FileTree) (l : Location) (cs : List String) : Except FileError Location := cs.foldlM t.enter l

/-- A name that a directory can hold. -/
structure IsName (c : String) : Prop where
  ne_empty : c ≠ ""
  ne_dot : c ≠ "."
  ne_dots : c ≠ ".."
  size : c.utf8ByteSize ≤ Path.maxNameBytes

/-- **What one component can do**: from a directory it stays, goes up, or goes down to something that is there. -/
theorem enter_eq_ok {c : String} : t.enter l c = .ok l' ↔ t.find? l = some .directory ∧
    ((c = "" ∨ c = ".") ∧ l' = l ∨ c = ".." ∧ l' = l.tail ∨
      IsName c ∧ (t.find? (c :: l)).isSome ∧ l' = c :: l) := by
  unfold enter
  cases hf : t.find? l with
  | none => simp
  | some e =>
    cases e with
    | file content => simp
    | directory =>
      by_cases hstay : c = "" ∨ c = "."
      · have hname : ¬ IsName c := fun h => hstay.elim h.ne_empty h.ne_dot
        have hup : c ≠ ".." := by rcases hstay with rfl | rfl <;> decide
        simp [hstay, hname, hup, eq_comm (a := l)]
      · by_cases hup : c = ".."
        · subst hup
          have hname : ¬ IsName ".." := fun h => h.ne_dots rfl
          simp [hname, eq_comm (a := l')]
        · by_cases hsize : c.utf8ByteSize > Path.maxNameBytes
          · have hname : ¬ IsName c := fun h => absurd h.size (Nat.not_le.2 hsize)
            simp [hstay, hup, hsize, hname]
          · rw [not_or] at hstay
            have hname : IsName c := ⟨hstay.1, hstay.2, hup, Nat.not_lt.1 hsize⟩
            by_cases hthere : (t.find? (c :: l)).isSome = true
            all_goals simp [hstay, hup, hsize, hname, hthere, eq_comm (a := l')]

theorem enter_empty : t.enter l "" = .ok l' ↔ t.find? l = some .directory ∧ l' = l := by
  have hname : ¬ IsName "" := fun h => h.ne_empty rfl
  rw [enter_eq_ok]
  simp [hname]

theorem find?_put_of_ne (h : l ≠ k) : (t.put k e).find? l = t.find? l := by
  rw [find?_put, if_neg (fun hl => h hl.1)]

theorem enter_put {c : String} (hk : t.find? k ≠ some .directory) (h : t.enter l c = .ok l') :
    (t.put k e).enter l c = .ok l' := by
  obtain ⟨hl, hstep⟩ := enter_eq_ok.1 h
  have hne : l ≠ k := by
    rintro rfl
    exact hk hl
  refine enter_eq_ok.2 ⟨by rw [find?_put_of_ne hne, hl], ?_⟩
  rcases hstep with hstay | hup | ⟨hname, hthere, hl'⟩
  · exact .inl hstay
  · exact .inr (.inl hup)
  · refine .inr (.inr ⟨hname, ?_, hl'⟩)
    rw [find?_put]
    split
    · rfl
    · exact hthere

/-! ## Following a path -/

theorem follow_cons {c : String} {cs : List String} :
    t.follow l (c :: cs) = .ok l' ↔ ∃ m, t.enter l c = .ok m ∧ t.follow m cs = .ok l' := foldlM_cons_eq_ok

theorem follow_append {cs ds : List String} :
    t.follow l (cs ++ ds) = .ok l' ↔ ∃ m, t.follow l cs = .ok m ∧ t.follow m ds = .ok l' := foldlM_append_eq_ok

theorem follow_singleton {c : String} : t.follow l [c] = .ok l' ↔ t.enter l c = .ok l' := by
  rw [follow_cons]
  simp [follow, pure, Except.pure]

/-- A path still leads where it led when a file is put where no directory is. -/
theorem follow_put (hk : t.find? k ≠ some .directory) : ∀ {cs : List String} {l l' : Location},
    t.follow l cs = .ok l' → (t.put k e).follow l cs = .ok l'
  | [], _, _, h => h
  | c :: cs, l, l', h => by
    obtain ⟨m, hm, hcs⟩ := follow_cons.1 h
    exact follow_cons.2 ⟨m, enter_put hk hm, follow_put hk hcs⟩

theorem locate_eq_ok : t.locate p = .ok l ↔ ∃ cs, route p = .ok cs ∧ t.follow (t.origin p) cs = .ok l := bind_eq_ok

/-! ## The place of a file -/

/-- The components of a path that does not end in a slash. -/
theorem eq_of_dropWhile {cs parents : List String} {name : String}
    (h : cs.reverse.dropWhile (· == "") = name :: parents) (hlast : cs.reverse.head? ≠ some "") :
    cs = parents.reverse ++ [name] ∧ name ≠ "" := by
  cases hcs : cs.reverse with
  | nil =>
    rw [hcs] at h
    cases h
  | cons c rest =>
    have hc : c ≠ "" := by
      rintro rfl
      exact hlast (by rw [hcs]; rfl)
    rw [hcs, List.dropWhile_cons_of_neg (by simpa using hc)] at h
    obtain ⟨rfl, rfl⟩ := List.cons.inj h
    exact ⟨by rw [← List.reverse_reverse cs, hcs, List.reverse_cons], hc⟩

/-- **Where a path for writing leads**: to a name in a directory that is there. -/
theorem exists_of_target (h : t.target p = .ok l) : ∃ cs name dir, route p = .ok (cs ++ [name]) ∧ l = name :: dir ∧
    t.follow (t.origin p) cs = .ok dir ∧ t.find? dir = some .directory ∧ IsName name := by
  obtain ⟨cs, hroute, hcs⟩ := bind_eq_ok.1 h
  simp only at hcs
  split at hcs
  · cases hcs
  · next name parents hnames =>
    obtain ⟨dir, hdir, hl⟩ := bind_eq_ok.1 hcs
    split at hl
    · cases hl
    · next hlast =>
      rw [not_or, not_or] at hlast
      split at hl
      · cases hl
      · next hsize =>
        obtain ⟨rfl, hne⟩ := eq_of_dropWhile hnames hlast.1
        obtain ⟨m, hm, hstay⟩ := follow_append.1 hdir
        obtain ⟨hdir', rfl⟩ := enter_empty.1 (follow_singleton.1 hstay)
        have hname : IsName name := ⟨hne, hlast.2.1, hlast.2.2, Nat.not_lt.1 hsize⟩
        exact ⟨parents.reverse, name, dir, hroute, (Except.ok.inj hl).symm, hm, hdir', hname⟩

theorem write_eq_ok {text : String} : t.write p text = .ok t' ↔
    ∃ l, t.target p = .ok l ∧ t.find? l ≠ some .directory ∧ t.denial? t.entries l text = none ∧
      t' = t.put l (.file text.toUTF8) := by
  rw [write, bind_eq_ok]
  refine exists_congr fun l => and_congr_right fun _ => ?_
  rcases t.find? l with _ | ⟨content | _⟩ <;> cases t.denial? t.entries l text <;> simp [eq_comm]

/-- A path leads where it led before something was written. -/
theorem locate_write {q text : String} (h : t.write p text = .ok t') (hq : t.locate q = .ok l) : t'.locate q = .ok l := by
  obtain ⟨k, -, hk, -, rfl⟩ := write_eq_ok.1 h
  obtain ⟨cs, hroute, hcs⟩ := locate_eq_ok.1 hq
  exact locate_eq_ok.2 ⟨cs, hroute, follow_put hk hcs⟩

/-- **What is written is there**, and nothing else has changed. -/
theorem exists_of_write {text : String} (h : t.write p text = .ok t') : ∃ l, t'.locate p = .ok l ∧
    t'.find? l = some (.file text.toUTF8) ∧ ∀ l', l' ≠ l → t'.find? l' = t.find? l' := by
  obtain ⟨l, htarget, hl, -, rfl⟩ := write_eq_ok.1 h
  obtain ⟨cs, name, dir, hroute, rfl, hcs, hdir, hname⟩ := exists_of_target htarget
  have hfile : (t.put (name :: dir) (.file text.toUTF8)).find? (name :: dir) = some (.file text.toUTF8) := by
    simp [find?_put]
  have hdir' : (t.put (name :: dir) (.file text.toUTF8)).find? dir = some .directory := by
    rw [find?_put_of_ne (List.ne_cons_self), hdir]
  refine ⟨name :: dir, ?_, hfile, fun l' hne => find?_put_of_ne hne⟩
  refine locate_eq_ok.2 ⟨_, hroute, follow_append.2 ⟨dir, follow_put hl hcs, follow_singleton.2 ?_⟩⟩
  exact enter_eq_ok.2 ⟨hdir', .inr (.inr ⟨hname, by rw [hfile]; rfl, rfl⟩)⟩

end FileTree

end MiniLang
