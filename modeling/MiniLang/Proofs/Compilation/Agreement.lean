import MiniLang.Proofs.Compilation.Ending
/-!
# Flags and commands

Options and commands show one compilation, each in its own way.  The options other than the paths decide only what is
shown (`flags_only_show`), and the three commands on one program differ in what they put out and in nothing else
(`commands_agree`).  Both are read off the ending: the flags are arguments of its streams and of nothing else.
-/
namespace MiniLang

variable {t : FileTree} {input : String} {output : Option String}

/-- The outcome that a check calls for. -/
def Outcome.of : Except Refusal Analysis → Outcome
  | .ok a => accepted a
  | .error e => refused e.diagnostic

theorem Ending.result_accepted {path text : String} {a : Analysis} {w : Option Writing} {outcome : Outcome}
    (h : (accepted path text a w).result = .ok outcome) : outcome = .accepted a := by
  rcases w with _ | ⟨p, cause | t'⟩
  · exact (Except.ok.inj h).symm
  · cases h
  · exact (Except.ok.inj h).symm

/-- **An outcome is that of checking** the program found under the path. -/
theorem FileTree.exists_of_result {outcome : Outcome} (h : (t.ending input output).result = .ok outcome) :
    ∃ path text, t.resolve input = .ok path ∧ t.read path = .ok text ∧ outcome = .of (check text) := by
  unfold ending at h
  split at h
  · cases h
  · next path hpath =>
    split at h
    · cases h
    · next text hread =>
      refine ⟨path, text, hpath, hread, ?_⟩
      unfold endingOf at h
      cases hcheck : check text with
      | error e =>
        rw [hcheck] at h
        exact (Except.ok.inj h).symm
      | ok a =>
        rw [hcheck] at h
        exact Ending.result_accepted h

/-- **Flags only show.**  Whatever flags a compilation has, it answers the same and leaves the same files.  The notes and
the colors do not touch what is put out, the tokens and the report do not touch the error stream.  An outcome is what
checking the program gives. -/
theorem flags_only_show (s : Session) (input : String) (output : Option String) :
    let run (dev tokens report color : Bool) :=
      (compile ⟨input, output, dev, tokens, report, color⟩ : StateM Session _).run s
    (∀ dev dev' tokens tokens' report report' color color',
      (run dev tokens report color).1 = (run dev' tokens' report' color').1 ∧
      (run dev tokens report color).2.files = (run dev' tokens' report' color').2.files ∧
      (run dev tokens report color).2.out = (run dev' tokens report color').2.out ∧
      (run dev tokens report color).2.err = (run dev tokens' report' color).2.err) ∧
    ∀ dev tokens report color outcome, (run dev tokens report color).1 = .ok outcome →
      ∃ path text, s.files.resolve input = .ok path ∧ s.files.read path = .ok text ∧
        (∀ a, check text = .ok a → outcome.success = true ∧ outcome.errorCount = 0 ∧ outcome.analysis? = some a ∧
          outcome.diagnostic? = none) ∧
        (∀ e, check text = .error e → outcome.success = false ∧ outcome.errorCount = 1 ∧ outcome.analysis? = none ∧
          outcome.diagnostic? = some e.diagnostic) := by
  simp only [run_compile]
  refine ⟨fun _ _ _ _ _ _ _ _ => by simp only [and_self], ?_⟩
  intro dev tokens report color outcome h
  obtain ⟨path, text, hpath, hread, rfl⟩ := FileTree.exists_of_result h
  refine ⟨path, text, hpath, hread, fun a hcheck => ?_, fun e hcheck => ?_⟩
  · rw [hcheck]
    exact ⟨rfl, rfl, rfl, rfl⟩
  · rw [hcheck]
    exact ⟨rfl, rfl, rfl, rfl⟩

/-- With every flag set, a program that is refused. -/
theorem flags_show_refusal :
    let t := FileTree.empty.withFile ["p"] "x = 1;".toUTF8
    ∃ outcome, ((compile ⟨"p", some "q", true, true, true, true⟩ : StateM Session _).run (.start t)).1 = .ok outcome ∧
      check "x = 1;" = .error ⟨.undeclared "x", some ⟨.identifier, "x", ⟨1, 1⟩⟩⟩ ∧ outcome.errorCount = 1 ∧
      outcome.analysis? = none := by
  intro t
  have hrun : ((compile ⟨"p", some "q", true, true, true, true⟩ : StateM Session _).run (.start t)).1 =
      .ok (.refused (Refusal.diagnostic ⟨.undeclared "x", some ⟨.identifier, "x", ⟨1, 1⟩⟩⟩)) := by
    unfold t
    rfl
  have hcheck : check "x = 1;" = .error ⟨.undeclared "x", some ⟨.identifier, "x", ⟨1, 1⟩⟩⟩ := by rfl
  obtain ⟨path, text, hpath, hread, -, hrefused⟩ := (flags_only_show (.start t) "p" (some "q")).2 _ _ _ _ _ hrun
  have hpath' : t.resolve "p" = .ok "p" := by rfl
  cases hpath'.symm.trans hpath
  have hread' : t.read "p" = .ok "x = 1;" := by rfl
  cases hread'.symm.trans hread
  obtain ⟨-, hcount, hanalysis, -⟩ := hrefused _ hcheck
  exact ⟨_, hrun, hcheck, hcount, hanalysis⟩

/-! ## Commands -/

/-- The tokens are put out in front of the report. -/
theorem Ending.out_tokens_report (e : Ending) : e.out true true = e.out true false ++ e.out false true := by
  cases e <;> simp [out]

/-- What is put out does not tell where code is written. -/
theorem FileTree.out_ending (tokens report : Bool) :
    (t.ending input output).out tokens report = (t.ending input none).out tokens report := by
  unfold ending endingOf
  cases t.resolve input with
  | error failure => rfl
  | ok path =>
    cases hread : t.read path with
    | error cause => simp only [hread]
    | ok text =>
      simp only [hread]
      cases check text <;> rfl

/-- Exit code 0 stands for an accepted program without a failure to write. -/
theorem Ending.exitCode_eq_zero {e : Ending} : e.exitCode = 0 ↔
    ∃ path text a w, e = .accepted path text a w ∧ ∀ p cause, w ≠ some ⟨p, .error cause⟩ := by
  constructor
  · intro h
    cases e with
    | accepted path text a w =>
      refine ⟨path, text, a, w, rfl, ?_⟩
      rintro p cause rfl
      cases h
    | lost | unreadable | refused => cases h
  · rintro ⟨path, text, a, w, rfl, hw⟩
    rcases w with _ | ⟨p, cause | t'⟩
    · rfl
    · exact absurd rfl (hw p cause)
    · rfl

/-- All goes well if the program is accepted, and if its code can be written where it is asked for. -/
theorem FileTree.exitCode_ending : (t.ending input output).exitCode = 0 ↔
    ∃ a, t.Accepts input a ∧ ∀ p, output = some p → ∃ t', t.write p a.listing = .ok t' := by
  rw [Ending.exitCode_eq_zero]
  constructor
  · rintro ⟨path, text, a, w, he, hw⟩
    obtain ⟨hpath, hread, hcheck, rfl⟩ := ending_eq_accepted.1 he
    refine ⟨a, ⟨path, text, hpath, hread, hcheck⟩, ?_⟩
    rintro p rfl
    cases hwrite : t.write p a.listing with
    | error cause => exact absurd (by rw [Option.map_some, hwrite]) (hw p cause)
    | ok t' => exact ⟨t', rfl⟩
  · rintro ⟨a, ⟨path, text, hpath, hread, hcheck⟩, hwrite⟩
    refine ⟨path, text, a, _, ending_eq_accepted.2 ⟨hpath, hread, hcheck, rfl⟩, fun p cause hw => ?_⟩
    obtain ⟨q, hq, hwriting⟩ := Option.map_eq_some_iff.1 hw
    obtain ⟨rfl, herror⟩ := Writing.mk.inj hwriting
    obtain ⟨t', ht'⟩ := hwrite q hq
    cases ht'.symm.trans herror

/-- **The commands agree.**  On one program they exit with the same code and put the same on the error stream, and
`emit` puts out what `tokens` does and then what `check` does.  The code is 0 exactly for a program that is accepted.
Where `emit` also writes a file it puts out the same, and the code is 0 exactly if that succeeds too. -/
theorem commands_agree (t : FileTree) (p : String) (noColor dev : Bool) :
    let run (c : Command) := (Invocation.run ⟨noColor, dev, some c⟩ : StateM Session Nat).run (.start t)
    (∀ c ∈ [Command.check p, .tokens p, .emit p none], (run c).1 = (run (.check p)).1 ∧
      (run c).2.err = (run (.check p)).2.err ∧ ((run c).1 = 0 ↔ ∃ a, t.Accepts p a)) ∧
    (run (.emit p none)).2.out = (run (.tokens p)).2.out ++ (run (.check p)).2.out ∧
    ∀ f, (run (.emit p (some f))).2.out = (run (.emit p none)).2.out ∧
      ((run (.emit p (some f))).1 = 0 ↔ ∃ a, t.Accepts p a ∧ ∃ t', t.write f a.listing = .ok t') := by
  have hcode : (t.ending p none).exitCode = 0 ↔ ∃ a, t.Accepts p a := by
    rw [FileTree.exitCode_ending]
    simp
  simp only [run_command, Session.start, String.empty_append]
  refine ⟨fun c hc => ?_, (t.ending p none).out_tokens_report, fun f => ⟨FileTree.out_ending true true, ?_⟩⟩
  · simp only [List.mem_cons, List.not_mem_nil, or_false] at hc
    rcases hc with rfl | rfl | rfl
    all_goals exact ⟨rfl, rfl, hcode⟩
  · refine FileTree.exitCode_ending.trans (exists_congr fun a => and_congr_right fun _ => ⟨fun h => h f rfl, ?_⟩)
    rintro hwrite q ⟨⟩
    exact hwrite

/-- A program that is accepted, whose code is asked for in a directory that is not there. -/
theorem commands_without_directory :
    let run (c : Command) := (Invocation.run ⟨true, false, some c⟩ : StateM Session Nat).run
      (.start (FileTree.empty.withFile ["p"] "int x;".toUTF8))
    (run (.tokens "p")).1 = (run (.check "p")).1 ∧ (run (.check "p")).1 = 0 ∧ (run (.emit "p" (some "d/q"))).1 ≠ 0 := by
  obtain ⟨hcommands, -, hemit⟩ := commands_agree (.withFile .empty ["p"] "int x;".toUTF8) "p" true false
  have haccepts : FileTree.Accepts (.withFile .empty ["p"] "int x;".toUTF8) "p" ⟨Names.ofList ["x"], []⟩ :=
    ⟨"p", "int x;", by rfl, by rfl, by rfl⟩
  refine ⟨(hcommands (.tokens "p") (by simp)).1, (hcommands (.check "p") (by simp)).2.2.2 ⟨_, haccepts⟩, fun hzero => ?_⟩
  obtain ⟨a, -, t', hwrite⟩ := (hemit "d/q").2.1 hzero
  cases hwrite

end MiniLang
