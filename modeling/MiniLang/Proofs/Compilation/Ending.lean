import MiniLang.Compilation
/-!
# How a compilation ends

A compilation in memory ends in one of four ways, and the tree, the path and the place for the code alone decide which
(`FileTree.ending`).  What a run answers, what it leaves of the files and what it puts out is read off its ending
(`run_compile`, `run_command`), each stream with the options that it looks at.  Code is written only for a program that
is found, read and accepted (`ending_eq_accepted`).
-/
namespace MiniLang

/-- The path under which a program is found. -/
def FileTree.resolve (t : FileTree) (input : String) : Except Failure String :=
  if t.isFile input then .ok input
  else if t.isThere (Path.inside input entryName) then .ok (Path.inside input entryName)
  else .error (.noEntry input)

/-- Where code was to be written, and what came of it. -/
structure Writing where
  path : String
  result : Except FileError FileTree

/-- Only for an accepted program is something written. -/
inductive Ending where
  | lost (failure : Failure)
  | unreadable (path : String) (cause : FileError)
  | refused (path text : String) (e : Refusal)
  | accepted (path text : String) (a : Analysis) (writing : Option Writing)

/-- The ending that a program comes to, once it is read. -/
def FileTree.endingOf (t : FileTree) (path text : String) (output : Option String) : Ending :=
  match check text with
  | .error e => .refused path text e
  | .ok a => .accepted path text a (output.map fun p => ⟨p, t.write p a.listing⟩)

/-- The ending that a compilation comes to. -/
def FileTree.ending (t : FileTree) (input : String) (output : Option String) : Ending :=
  match t.resolve input with
  | .error failure => .lost failure
  | .ok path =>
    match t.read path with
    | .error cause => .unreadable path cause
    | .ok text => t.endingOf path text output

namespace Ending

def result : Ending → Except Failure Outcome
  | lost failure => .error failure
  | unreadable path cause => .error (.unreadable path cause)
  | refused _ _ e => .ok (.refused e.diagnostic)
  | accepted _ _ _ (some ⟨path, .error cause⟩) => .error (.unwritable path cause)
  | accepted _ _ a _ => .ok (.accepted a)

/-- What is left of the files. -/
def files (t : FileTree) : Ending → FileTree
  | accepted _ _ _ (some ⟨_, .ok t'⟩) => t'
  | _ => t

def out (tokens report : Bool) : Ending → String
  | lost _ | unreadable .. => ""
  | refused _ text _ => if tokens then Token.listing (tokenize text) else ""
  | accepted _ text a _ => (if tokens then Token.listing (tokenize text) else "") ++ (if report then a.report else "")

/-- The note on code that was written. -/
def wrote : Option Writing → List String
  | some ⟨p, .ok _⟩ => ["wrote 3AC to " ++ Text.quoted p]
  | _ => []

def notes : Ending → List String
  | lost _ => []
  | unreadable path _ => ["input_path = " ++ Text.quoted path]
  | refused path text _ => ["input_path = " ++ Text.quoted path, toString (tokenize text).length ++ " tokens"]
  | accepted path text a writing =>
    ["input_path = " ++ Text.quoted path, toString (tokenize text).length ++ " tokens",
      toString a.declared.size ++ " declared, " ++ toString a.code.length ++ " instructions"] ++ wrote writing

/-- The notes on the work, which are put out for a developer only. -/
def noted (dev : Bool) (notes : List String) : String :=
  if dev then String.join (notes.map fun n => "DEBUG: " ++ n ++ "\n") else ""

def shown (color : Bool) : Ending → String
  | refused path text e => e.diagnostic.render text path color
  | _ => ""

def err (dev color : Bool) (e : Ending) : String := noted dev e.notes ++ e.shown color

/-- What a command adds to the error stream. -/
def complaint (e : Ending) : String :=
  match e.result with
  | .error failure => "Error: " ++ failure.message ++ "\n"
  | .ok _ => ""

def exitCode (e : Ending) : Nat :=
  match e.result with
  | .ok outcome => if outcome.success then 0 else 1
  | .error _ => 1

@[simp] theorem noted_nil (dev : Bool) : noted dev [] = "" := by cases dev <;> rfl

theorem noted_append (dev : Bool) (ms ns : List String) : noted dev (ms ++ ns) = noted dev ms ++ noted dev ns := by
  cases dev <;> simp [noted]

end Ending

namespace FileTree

variable {t : FileTree} {input path text : String} {output : Option String} {a : Analysis} {w : Option Writing}

/-- The program found under a path can be read and is accepted. -/
def Accepts (t : FileTree) (input : String) (a : Analysis) : Prop :=
  ∃ path text, t.resolve input = .ok path ∧ t.read path = .ok text ∧ check text = .ok a

theorem ending_eq_accepted : t.ending input output = .accepted path text a w ↔ t.resolve input = .ok path ∧
    t.read path = .ok text ∧ check text = .ok a ∧ w = output.map fun p => ⟨p, t.write p a.listing⟩ := by
  constructor
  · intro h
    unfold ending at h
    split at h
    · cases h
    · next hpath =>
      split at h
      · cases h
      · next hread =>
        unfold endingOf at h
        split at h
        · cases h
        · next hcheck =>
          cases h
          exact ⟨hpath, hread, hcheck, rfl⟩
  · rintro ⟨hpath, hread, hcheck, rfl⟩
    simp [ending, endingOf, hpath, hread, hcheck]

end FileTree

/-! ## Runs in memory -/

theorem run_pure {α : Type} (a : α) (s : Session) : (pure a : StateM Session α).run s = (a, s) := rfl

theorem run_bind {α β : Type} (x : StateM Session α) (f : α → StateM Session β) (s : Session) :
    (x >>= f).run s = (f (x.run s).1).run (x.run s).2 := rfl

theorem run_err (text : String) (s : Session) :
    (Host.err text : StateM Session _).run s = ((), { s with err := s.err ++ text }) := rfl

theorem run_out_if {α : Type} (b : Bool) (text : String) (k : StateM Session α) (s : Session) :
    (if b = true then do Host.out text; k else k).run s = k.run { s with out := s.out ++ if b then text else "" } := by
  cases b with
  | true => rfl
  | false => simp

theorem run_resolve (input : String) (s : Session) :
    (resolve input : StateM Session _).run s = (s.files.resolve input, s) := by
  have hfile : (Host.isFile input : StateM Session _).run s = (s.files.isFile input, s) := rfl
  have hthere : (Host.isThere (Path.inside input entryName) : StateM Session _).run s =
    (s.files.isThere (Path.inside input entryName), s) := rfl
  unfold resolve FileTree.resolve
  rw [run_bind, hfile]
  cases s.files.isFile input with
  | true => rfl
  | false =>
    simp only [Bool.false_eq_true, if_false, run_bind, hthere]
    cases s.files.isThere (Path.inside input entryName) <;> rfl

theorem run_note (o : Options) (text : String) (s : Session) :
    (note o text : StateM Session _).run s = ((), { s with err := s.err ++ Ending.noted o.dev [text] }) := by
  unfold note
  cases o.dev with
  | true => simp [Ending.noted, run_err]
  | false => simp only [Bool.false_eq_true, if_false, run_pure, Ending.noted, String.append_empty]

theorem run_writeCode (o : Options) (a : Analysis) (path text : String) (s : Session) :
    let w := o.output.map fun p => Writing.mk p (s.files.write p a.listing)
    let e := Ending.accepted path text a w
    (writeCode o a : StateM Session _).run s =
      (e.result.map fun _ => (), ⟨e.files s.files, s.out, s.err ++ Ending.noted o.dev (Ending.wrote w)⟩) := by
  unfold writeCode
  cases o.output with
  | none =>
    rw [run_pure]
    simp [Ending.wrote, Ending.files, Ending.result, Except.map]
  | some p =>
    have hwrite : (Host.write p a.listing : StateM Session _).run s = s.write p a.listing := rfl
    simp only [run_bind, hwrite, Session.write, Option.map_some]
    cases s.files.write p a.listing with
    | error cause =>
      rw [run_pure]
      simp [Ending.wrote, Ending.files, Ending.result, Except.map]
    | ok files => simp only [run_bind, run_note, run_pure, Ending.wrote, Ending.files, Ending.result, Except.map]

/-- The note on the path was put out before. -/
theorem run_compileText (o : Options) (path text : String) (s : Session) :
    let e := s.files.endingOf path text o.output
    (compileText o path text : StateM Session _).run s = (e.result, ⟨e.files s.files, s.out ++ e.out o.tokens o.report,
      s.err ++ (Ending.noted o.dev e.notes.tail ++ e.shown o.color)⟩) := by
  unfold compileText FileTree.endingOf check
  simp only [run_bind, run_note, run_out_if]
  cases analyze (tokenize text) with
  | error refusal =>
    simp only [run_bind, run_err, run_pure, Ending.files, Ending.out, Ending.notes, Ending.shown, Ending.result,
      List.tail_cons, String.append_assoc]
  | ok a =>
    simp only [run_bind, run_note, run_out_if, run_writeCode o a path text]
    have hnotes (w : Option Writing) : Ending.noted o.dev (Ending.accepted path text a w).notes.tail =
        Ending.noted o.dev [toString (tokenize text).length ++ " tokens"] ++
          (Ending.noted o.dev [toString a.declared.size ++ " declared, " ++ toString a.code.length ++ " instructions"] ++
            Ending.noted o.dev (Ending.wrote w)) := by
      rw [← Ending.noted_append, ← Ending.noted_append]
      rfl
    simp only [hnotes, Ending.out, Ending.shown, String.append_assoc, String.append_empty]
    generalize o.output.map (fun p => Writing.mk p (s.files.write p a.listing)) = w
    rcases w with _ | ⟨p, cause | files⟩ <;> simp only [Ending.result, Except.map, run_pure]

/-- **A compilation in memory comes to its ending.** -/
theorem run_compile (o : Options) (s : Session) :
    let e := s.files.ending o.input o.output
    (compile o : StateM Session _).run s =
      (e.result, ⟨e.files s.files, s.out ++ e.out o.tokens o.report, s.err ++ e.err o.dev o.color⟩) := by
  unfold compile FileTree.ending
  simp only [run_bind, run_resolve]
  cases s.files.resolve o.input with
  | error failure =>
    rw [run_pure]
    simp [Ending.result, Ending.files, Ending.out, Ending.err, Ending.notes, Ending.shown]
  | ok path =>
    have hread : ∀ s : Session, (Host.read path : StateM Session _).run s = (s.files.read path, s) := fun _ => rfl
    simp only [run_bind, run_note, hread]
    cases s.files.read path with
    | error cause =>
      rw [run_pure]
      simp [Ending.result, Ending.files, Ending.out, Ending.err, Ending.notes, Ending.shown]
    | ok text =>
      simp only [run_compileText]
      have hnotes : Ending.noted o.dev (s.files.endingOf path text o.output).notes =
          Ending.noted o.dev ["input_path = " ++ Text.quoted path] ++
            Ending.noted o.dev (s.files.endingOf path text o.output).notes.tail := by
        rw [← Ending.noted_append]
        unfold FileTree.endingOf
        cases check text <;> rfl
      simp only [Ending.err, hnotes, String.append_assoc]

/-- **What a command does**: the exit code and a failure's complaint are its ending's too. -/
theorem run_command (noColor dev : Bool) (c : Command) (s : Session) :
    let o := c.options ⟨noColor, dev, some c⟩
    let e := s.files.ending o.input o.output
    (Invocation.run ⟨noColor, dev, some c⟩ : StateM Session Nat).run s = (e.exitCode,
      ⟨e.files s.files, s.out ++ e.out o.tokens o.report, s.err ++ (e.err o.dev o.color ++ e.complaint)⟩) := by
  simp only [Invocation.run, run_bind, run_compile]
  generalize s.files.ending _ _ = e
  unfold Ending.exitCode Ending.complaint
  cases e.result with
  | ok outcome => simp only [run_pure, String.append_empty]
  | error failure => simp only [run_bind, run_err, run_pure, String.append_assoc]

end MiniLang
