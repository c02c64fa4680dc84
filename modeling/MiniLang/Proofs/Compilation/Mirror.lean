import MiniLang.Proofs.Compilation.Emission
import MiniLang.Proofs.Compilation.Resolution
/-!
# Mirrors

A compilation does nothing to a machine but what it asks of it.  So if one machine mirrors another on the paths of a
compilation, the compilation is seen to do the same on both (`Mirrors.sees_compile`).  There are two uses.

A lawful host is seen to do what a session does.  What holds of every run in memory holds of every run on a lawful host
as it is seen (`Sees.holds`), whatever else such a machine keeps and whatever it has against a write.

A session mirrors itself in another working directory, on absolute paths.  So a compilation whose paths are absolute does
the same from wherever it is started (`compile_within`).
-/
namespace MiniLang

/-- What `x` answers is in `Q`, from wherever it starts. -/
def Answers {σ α : Type} (x : StateM σ α) (Q : α → Prop) : Prop := ∀ s, Q (x.run s).1

namespace Answers

variable {σ α β : Type} {x x' : StateM σ α} {f : α → StateM σ β} {Q : α → Prop} {R : β → Prop}

theorem pure {a : α} (h : Q a) : Answers (Pure.pure a : StateM σ α) Q := fun _ => h

theorem bind (hf : ∀ a, Answers (f a) R) : Answers (x >>= f) R := fun _ => hf _ _

theorem ite {b : Bool} (hx : Answers x Q) (hx' : Answers x' Q) : Answers (if b = true then x else x') Q := by
  cases b
  · exact hx'
  · exact hx

end Answers

namespace Sees

variable {σ τ α β : Type} {view : σ → τ} {x x' : StateM σ α} {y y' : StateM τ α} {f : α → StateM σ β} {g : α → StateM τ β}

theorem pure (a : α) : Sees view (Pure.pure a : StateM σ α) (Pure.pure a) := fun _ => rfl

/-- Only what `x` can answer need be gone on with. -/
theorem bind_of {Q : α → Prop} (hx : Sees view x y) (hQ : Answers x Q) (hf : ∀ a, Q a → Sees view (f a) (g a)) :
    Sees view (x >>= f) (y >>= g) := by
  intro s
  calc (y >>= g).run (view s) = (g (y.run (view s)).1).run (y.run (view s)).2 := rfl
    _ = (g (x.run s).1).run (view (x.run s).2) := by rw [hx s]
    _ = (((x >>= f).run s).1, view ((x >>= f).run s).2) := hf _ (hQ s) _

theorem bind (hx : Sees view x y) (hf : ∀ a, Sees view (f a) (g a)) : Sees view (x >>= f) (y >>= g) :=
  hx.bind_of (Q := fun _ => True) (fun _ => trivial) fun a _ => hf a

theorem ite {b : Bool} (hx : Sees view x y) (hx' : Sees view x' y') :
    Sees view (if b = true then x else x') (if b = true then y else y') := by
  cases b
  · exact hx'
  · exact hx

/-- What holds of every run of `y` holds of every run of `x` as it is seen. -/
theorem holds {P : τ → α → τ → Prop} (h : Sees view x y) (hy : ∀ s, P s (y.run s).1 (y.run s).2) (s : σ) :
    P (view s) (x.run s).1 (view (x.run s).2) := by
  have hrun := hy (view s)
  rwa [h s] at hrun

end Sees

namespace Mirrors

variable {σ τ : Type} [Host (StateM σ)] [Host (StateM τ)] {view : σ → τ} {P : String → Prop}

theorem sees_resolve {input : String} (h : Mirrors view P) (hinput : P input) (hinside : P (Path.inside input entryName)) :
    Sees view (resolve input) (resolve input) :=
  (h.isFile input hinput).bind fun _ => .ite (.pure _) ((h.isThere _ hinside).bind fun _ => .ite (.pure _) (.pure _))

/-- On any machine a path resolves to itself or to that of the program inside it. -/
theorem answers_resolve {input : String} (hinput : P input) (hinside : P (Path.inside input entryName)) :
    Answers (resolve input : StateM σ _) fun found => ∀ path, found = .ok path → P path := by
  have hfound {p : String} (hp : P p) : ∀ path, (.ok p : Except Failure String) = .ok path → P path := by
    rintro path ⟨⟩
    exact hp
  exact .bind fun _ => .ite (.pure (hfound hinput)) (.bind fun _ => .ite (.pure (hfound hinside)) (.pure nofun))

theorem sees_note (h : Mirrors view P) (o : Options) (text : String) : Sees view (note o text) (note o text) :=
  .ite (h.err _) (.pure _)

/-- Something may be put out on the way. -/
theorem sees_out_if {α : Type} {b : Bool} {text : String} {x : StateM σ α} {y : StateM τ α} (h : Mirrors view P)
    (hx : Sees view x y) : Sees view (if b = true then do Host.out text; x else x)
      (if b = true then do Host.out text; y else y) :=
  .ite ((h.out text).bind fun _ => hx) hx

theorem sees_writeCode {o : Options} (h : Mirrors view P) (houtput : ∀ p, o.output = some p → P p) (a : Analysis) :
    Sees view (writeCode o a) (writeCode o a) := by
  unfold writeCode
  cases hpath : o.output with
  | none => exact .pure _
  | some path =>
    refine (h.write path a.listing (houtput path hpath)).bind fun written => ?_
    cases written with
    | error cause => exact .pure _
    | ok => exact (h.sees_note o _).bind fun _ => .pure _

theorem sees_compileText {o : Options} (h : Mirrors view P) (houtput : ∀ p, o.output = some p → P p) (path text : String) :
    Sees view (compileText o path text) (compileText o path text) := by
  unfold compileText
  refine (h.sees_note o _).bind fun _ => h.sees_out_if ?_
  cases analyze (tokenize text) with
  | error refusal => exact (h.err _).bind fun _ => .pure _
  | ok a =>
    refine (h.sees_note o _).bind fun _ => h.sees_out_if ((h.sees_writeCode houtput a).bind fun written => ?_)
    cases written with
    | error failure => exact .pure _
    | ok => exact .pure _

/-- **A compilation is seen to do the same on both machines.** -/
theorem sees_compile {o : Options} (h : Mirrors view P) (hinput : P o.input) (hinside : P (Path.inside o.input entryName))
    (houtput : ∀ p, o.output = some p → P p) : Sees view (compile o) (compile o) := by
  unfold compile
  refine (h.sees_resolve hinput hinside).bind_of (answers_resolve hinput hinside) fun found hfound => ?_
  cases found with
  | error failure => exact .pure _
  | ok path =>
    refine (h.sees_note o _).bind fun _ => (h.read path (hfound path rfl)).bind fun got => ?_
    cases got with
    | error cause => exact .pure _
    | ok text => exact h.sees_compileText houtput path text

theorem sees_run {i : Invocation} (h : Mirrors view P)
    (hcompile : ∀ c, i.command = some c → Sees view (compile (c.options i)) (compile (c.options i))) :
    Sees view i.run i.run := by
  unfold Invocation.run
  cases hcommand : i.command with
  | none => exact (h.out _).bind fun _ => .pure _
  | some c =>
    refine (hcompile c hcommand).bind fun result => ?_
    cases result with
    | error failure => exact (h.err _).bind fun _ => .pure _
    | ok outcome => exact .pure _

end Mirrors

/-! ## Lawful hosts -/

namespace LawfulHost

variable {σ : Type} [Host (StateM σ)] [LawfulHost σ]

theorem sees_compile (o : Options) : Sees (view : σ → Session) (compile o) (compile o) :=
  mirrors.sees_compile trivial trivial fun _ _ => trivial

theorem sees_run (i : Invocation) : Sees (view : σ → Session) i.run i.run := mirrors.sees_run fun _ _ => sees_compile _

/-- **A compilation on a lawful host comes to its ending.** -/
theorem view_compile (o : Options) (s : σ) :
    let e := (view s).files.ending o.input o.output
    let run := (compile o : StateM σ _).run s
    run.1 = e.result ∧ view run.2 =
      ⟨e.files (view s).files, (view s).out ++ e.out o.tokens o.report, (view s).err ++ e.err o.dev o.color⟩ := by
  have hrun := sees_compile o s
  rw [run_compile] at hrun
  exact ⟨(congrArg Prod.fst hrun).symm, (congrArg Prod.snd hrun).symm⟩

/-- **So does a command**, with its exit code and a failure's complaint. -/
theorem view_command (noColor dev : Bool) (c : Command) (s : σ) :
    let o := c.options ⟨noColor, dev, some c⟩
    let e := (view s).files.ending o.input o.output
    let run := (Invocation.run ⟨noColor, dev, some c⟩ : StateM σ Nat).run s
    run.1 = e.exitCode ∧ view run.2 = ⟨e.files (view s).files, (view s).out ++ e.out o.tokens o.report,
      (view s).err ++ (e.err o.dev o.color ++ e.complaint)⟩ := by
  have hrun := sees_run ⟨noColor, dev, some c⟩ s
  rw [run_command] at hrun
  exact ⟨(congrArg Prod.fst hrun).symm, (congrArg Prod.snd hrun).symm⟩

/-- What the options show does not touch what is answered and what is written. -/
theorem view_shown {o o' : Options} (hinput : o'.input = o.input) (houtput : o'.output = o.output) (s : σ) :
    ((compile o' : StateM σ _).run s).1 = ((compile o : StateM σ _).run s).1 ∧
      (view ((compile o' : StateM σ _).run s).2).files = (view ((compile o : StateM σ _).run s).2).files := by
  obtain ⟨hresult, hview⟩ := view_compile o s
  obtain ⟨hresult', hview'⟩ := view_compile o' s
  rw [hinput, houtput] at hresult' hview'
  rw [hresult, hresult', hview, hview']
  exact ⟨rfl, rfl⟩

/-- **Code that is emitted is in the file asked for**, and nothing else has changed. -/
theorem view_emits {o : Options} {a : Analysis} {p : String} {t : FileTree} {s : σ} (h : (view s).files.Emits o a p t) :
    ((compile o : StateM σ _).run s).1 = .ok (.accepted a) ∧ (view ((compile o : StateM σ _).run s).2).files = t ∧
      ∃ l, t.locate p = .ok l ∧ t.find? l = some (.file a.listing.toUTF8) ∧
        ∀ l', l' ≠ l → t.find? l' = (view s).files.find? l' := by
  obtain ⟨hresult, hfiles⟩ := (sees_compile o).holds
    (P := fun s r s' => s.files.Emits o a p t → r = .ok (.accepted a) ∧ s'.files = t) (fun _ h => h.run_compile) s h
  exact ⟨hresult, hfiles, FileTree.exists_of_write h.written⟩

/-- **A compilation that fails, or refuses the program, changes no file.** -/
theorem view_not_success {o : Options} {s : σ}
    (h : ∀ outcome, ((compile o : StateM σ _).run s).1 = .ok outcome → outcome.success = false) :
    (view ((compile o : StateM σ _).run s).2).files = (view s).files :=
  (sees_compile o).holds (P := fun s r s' => (∀ outcome, r = .ok outcome → outcome.success = false) → s'.files = s.files)
    (fun _ => files_of_not_success) s h

end LawfulHost

/-! ## Working directories -/

/-- The same files, from another working directory. -/
def FileTree.within (t : FileTree) (w : Location) : FileTree := { t with working := w }

def Session.within (w : Location) (s : Session) : Session := { s with files := s.files.within w }

section

variable {t : FileTree} {w : Location} {p : String}

theorem FileTree.locate_within (h : Path.isAbsolute p = true) : (t.within w).locate p = t.locate p := by
  unfold locate origin
  rw [if_pos h, if_pos h]
  rfl

theorem FileTree.isFile_within (h : Path.isAbsolute p = true) : (t.within w).isFile p = t.isFile p := by
  rw [isFile, locate_within h]
  rfl

theorem FileTree.isThere_within (h : Path.isAbsolute p = true) : (t.within w).isThere p = t.isThere p := by
  rw [isThere, locate_within h]
  rfl

theorem FileTree.read_within (h : Path.isAbsolute p = true) : (t.within w).read p = t.read p := by
  rw [read, locate_within h]
  rfl

theorem FileTree.target_within (h : Path.isAbsolute p = true) : (t.within w).target p = t.target p := by
  unfold target origin
  rw [if_pos h, if_pos h]
  rfl

theorem FileTree.write_within (h : Path.isAbsolute p = true) (text : String) :
    (t.within w).write p text = (t.write p text).map (·.within w) := by
  unfold write
  rw [target_within h]
  cases t.target p with
  | error e => rfl
  | ok l =>
    have hfind : (t.within w).find? l = t.find? l := rfl
    have hdenial : (t.within w).denial? (t.within w).entries l text = t.denial? t.entries l text := rfl
    simp only [bind, Except.bind, hfind, hdenial]
    rcases t.find? l with _ | ⟨content | _⟩ <;> cases t.denial? t.entries l text <;> rfl

theorem Session.write_within (h : Path.isAbsolute p = true) (s : Session) (text : String) :
    (s.within w).write p text = ((s.write p text).1, (s.write p text).2.within w) := by
  have hfiles : (s.within w).files.write p text = (s.files.write p text).map (·.within w) := FileTree.write_within h text
  unfold write
  rw [hfiles]
  cases s.files.write p text <;> rfl

theorem Session.mirrors_within (w : Location) : Mirrors (within w) fun p => Path.isAbsolute p = true where
  isFile _ hp s := congrArg (·, s.within w) (FileTree.isFile_within hp)
  isThere _ hp s := congrArg (·, s.within w) (FileTree.isThere_within hp)
  read _ hp s := congrArg (·, s.within w) (FileTree.read_within hp)
  write _ text hp s := write_within hp s text
  out _ _ := rfl
  err _ _ := rfl

/-- **A compilation does the same from wherever it is started**, if its paths are absolute. -/
theorem compile_within {o : Options} (hinput : Path.isAbsolute o.input = true)
    (houtput : ∀ p, o.output = some p → Path.isAbsolute p = true) (w : Location) :
    Sees (Session.within w) (compile o) (compile o) :=
  (Session.mirrors_within w).sees_compile hinput (Path.isAbsolute_inside hinput) houtput

/-- A relative path does depend on it. -/
example :
    let t := FileTree.empty.withFile ["p", "d"] ⟨#[]⟩
    (t.within ["d"]).locate "/../d/p" = t.locate "d/p" ∧ (t.within ["d"]).locate "d/p" = .error .notFound := by
  decide +kernel

end

end MiniLang
