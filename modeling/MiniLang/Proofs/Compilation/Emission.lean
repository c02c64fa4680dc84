import MiniLang.Proofs.Compilation.Ending
import MiniLang.Proofs.Files.Writing
/-!
# When files change

A compilation changes files in one case only: its program is accepted, code is asked for, and the writing succeeds
(`FileTree.Emits`).  Then the file asked for holds the code and everything else is as before, whichever file that is
(`files_change_by_emit_only`): the program was read before anything is written, so it may be the program itself.
-/
namespace MiniLang

/-- The code of an accepted program is written to `p`, which turns the files into `t'`. -/
structure FileTree.Emits (t : FileTree) (o : Options) (a : Analysis) (p : String) (t' : FileTree) : Prop where
  accepts : t.Accepts o.input a
  asked : o.output = some p
  written : t.write p a.listing = .ok t'

variable {t t' : FileTree} {o : Options} {a : Analysis} {p : String}

theorem FileTree.Emits.ending (h : t.Emits o a p t') :
    ∃ path text, t.ending o.input o.output = .accepted path text a (some ⟨p, .ok t'⟩) := by
  obtain ⟨path, text, hpath, hread, hcheck⟩ := h.accepts
  refine ⟨path, text, ending_eq_accepted.2 ⟨hpath, hread, hcheck, ?_⟩⟩
  rw [h.asked, Option.map_some, h.written]

/-- The files are as before, or the ending tells what was written. -/
theorem Ending.files_cases (t : FileTree) (e : Ending) : e.files t = t ∨
    ∃ path text a p t', e = .accepted path text a (some ⟨p, .ok t'⟩) ∧ e.result = .ok (.accepted a) := by
  cases e with
  | accepted path text a w =>
    rcases w with _ | ⟨p, cause | t'⟩
    · exact .inl rfl
    · exact .inl rfl
    · exact .inr ⟨path, text, a, p, t', rfl, rfl⟩
  | lost | unreadable | refused => exact .inl rfl

theorem FileTree.emits_of_ending {path text : String}
    (h : t.ending o.input o.output = .accepted path text a (some ⟨p, .ok t'⟩)) : t.Emits o a p t' := by
  obtain ⟨hpath, hread, hcheck, hw⟩ := ending_eq_accepted.1 h
  obtain ⟨q, hq, hwriting⟩ := Option.map_eq_some_iff.1 hw.symm
  obtain ⟨rfl, hwrite⟩ := Writing.mk.inj hwriting
  exact ⟨⟨path, text, hpath, hread, hcheck⟩, hq, hwrite⟩

section

variable {s : Session}

theorem FileTree.Emits.run_compile (h : s.files.Emits o a p t) :
    ((compile o : StateM Session _).run s).1 = .ok (.accepted a) ∧ ((compile o : StateM Session _).run s).2.files = t := by
  obtain ⟨path, text, he⟩ := h.ending
  rw [MiniLang.run_compile, he]
  exact ⟨rfl, rfl⟩

theorem files_of_not_emits (h : ∀ a p t, ¬ s.files.Emits o a p t) :
    ((compile o : StateM Session _).run s).2.files = s.files := by
  rw [run_compile]
  rcases (s.files.ending o.input o.output).files_cases s.files with hfiles | ⟨path, text, a, p, t, he, -⟩
  · exact hfiles
  · exact absurd (FileTree.emits_of_ending he) (h a p t)

theorem files_of_not_success
    (h : ∀ outcome, ((compile o : StateM Session _).run s).1 = .ok outcome → outcome.success = false) :
    ((compile o : StateM Session _).run s).2.files = s.files := by
  rw [run_compile] at h ⊢
  rcases (s.files.ending o.input o.output).files_cases s.files with hfiles | ⟨path, text, a, p, t, -, hresult⟩
  · exact hfiles
  · cases h _ hresult

end

/-- **Files change only where code is emitted.**  Where an accepted program's code is written, the path asked for names
a file that holds the code, nothing else has changed and every path leads where it led.  In every other run, and so in
every run that fails or refuses the program, the files are as before. -/
theorem files_change_by_emit_only (o : Options) (s : Session) :
    let run := (compile o : StateM Session _).run s
    (∀ a p t, s.files.Emits o a p t → run.1 = .ok (.accepted a) ∧ run.2.files = t ∧
      ∃ l, t.locate p = .ok l ∧ t.find? l = some (.file a.listing.toUTF8) ∧ (∀ l', l' ≠ l → t.find? l' = s.files.find? l') ∧
        ∀ q l', s.files.locate q = .ok l' → t.locate q = .ok l') ∧
    ((∀ a p t, ¬ s.files.Emits o a p t) → run.2.files = s.files) ∧
    ((∀ outcome, run.1 = .ok outcome → outcome.success = false) → run.2.files = s.files) := by
  refine ⟨fun a p t h => ?_, files_of_not_emits, files_of_not_success⟩
  obtain ⟨l, hl, hfile, hothers⟩ := FileTree.exists_of_write h.written
  exact ⟨h.run_compile.1, h.run_compile.2, l, hl, hfile, hothers, fun q l' hq => FileTree.locate_write h.written hq⟩

/-- The program is found in its directory, and its code takes its place under another spelling of its path. -/
theorem emitted_over_program :
    let t := FileTree.empty.withFile ["main.minilang", "d"] "int x; x = 1;".toUTF8
    let o : Options := ⟨"d", some "d/../d/main.minilang", false, false, false, false⟩
    t.Emits o ⟨Names.ofList ["x"], [.copy "x" "1"]⟩ "d/../d/main.minilang"
        (t.put ["main.minilang", "d"] (.file "x = 1\n".toUTF8)) ∧
      ((compile o : StateM Session _).run (.start t)).2.files.find? ["main.minilang", "d"] =
        some (.file "x = 1\n".toUTF8) := by
  intro t o
  have hemits : t.Emits o ⟨Names.ofList ["x"], [.copy "x" "1"]⟩ "d/../d/main.minilang"
      (t.put ["main.minilang", "d"] (.file "x = 1\n".toUTF8)) :=
    ⟨⟨"d/main.minilang", "int x; x = 1;", by unfold t o; rfl, by rfl, by rfl⟩, by rfl, by rfl⟩
  obtain ⟨-, hfiles, l, hl, hfile, -, hleads⟩ := (files_change_by_emit_only o (.start t)).1 _ _ _ hemits
  have hprogram : t.locate "d/../d/main.minilang" = .ok ["main.minilang", "d"] := by rfl
  have hl' : ["main.minilang", "d"] = l := Except.ok.inj ((hleads _ _ hprogram).symm.trans hl)
  subst hl'
  exact ⟨hemits, by rw [hfiles, hfile]; rfl⟩

end MiniLang
