import MiniLang.Proofs.Invocation.Words
/-!
# Spellings

A command with its flags can be written in many ways: the flags in front of the subcommand, behind it or at both places,
and behind it the flags, the path and the output in any order, the output in one of three forms.  Whoever reads words
lawfully reads each of them back as what it spells (`Lawful.reads_back`).

A law adds one argument to words that read already.  So the parts behind a subcommand are put in one by one, the last one
first, around a path that stands there alone (`Lawful.read_insert`), and then the flags in front (`Lawful.read_front`).
-/
namespace MiniLang.Invocation

/-- What stands behind a subcommand, a word or two. -/
inductive Part where
  | flag (f : Flag)
  | path (p : String)
  | output (form : OutputForm) (x : String)
  deriving DecidableEq, Repr

namespace Part

def words : Part → List String
  | flag f => [f.word]
  | path p => [p]
  | output form x => form.words x

def flag? : Part → Option Flag
  | flag f => some f
  | _ => none

def path? : Part → Option String
  | path p => some p
  | _ => none

def output? : Part → Option String
  | output _ x => some x
  | _ => none

end Part

/-- The words that spell a command and the two flags: some flags, the subcommand, and the parts behind it. -/
structure Spells (c : Command) (noColor dev : Bool) (front : List Flag) (parts : List Part) : Prop where
  front_nodup : front.Nodup
  flags_nodup : (parts.filterMap Part.flag?).Nodup
  path : parts.filterMap Part.path? = [c.path] ∨ c.path = defaultPath ∧ parts.filterMap Part.path? = []
  output : parts.filterMap Part.output? = c.output?.toList
  dev : dev = true ↔ .dev ∈ front ∨ .flag .dev ∈ parts
  noColor : noColor = true ↔ .noColor ∈ front ∨ .flag .noColor ∈ parts

def spelling (c : Command) (front : List Flag) (parts : List Part) : List String :=
  front.map Flag.word ++ c.subcommand.word :: parts.flatMap Part.words

variable {s : Subcommand} {path : String} {parts parts' : List Part} {f : Flag}

theorem mem_filterMap_flag : f ∈ parts.filterMap Part.flag? ↔ .flag f ∈ parts := by
  rw [List.mem_filterMap]
  constructor
  · rintro ⟨p, hp, hf⟩
    cases p <;> cases hf
    exact hp
  · exact fun hf => ⟨_, hf, rfl⟩

/-! ## What is said -/

@[simp] theorem has_give (i : Invocation) (f f' : Flag) : (i.give f).has f' = (decide (f' = f) || i.has f') := by
  cases f <;> cases f' <;> rfl

@[simp] theorem command_give (i : Invocation) (f : Flag) : (i.give f).command = i.command := by cases f <;> rfl

theorem ext_has {i j : Invocation} (hc : i.command = j.command) (h : ∀ f, i.has f = j.has f) : i = j := by
  obtain ⟨noColor, dev, command⟩ := i
  obtain ⟨noColor', dev', command'⟩ := j
  obtain rfl : noColor = noColor' := h .noColor
  obtain rfl : dev = dev' := h .dev
  cases hc
  rfl

/-- What a subcommand comes to with a path and these parts behind it. -/
def said (s : Subcommand) (path : String) (parts : List Part) : Invocation where
  noColor := decide (.noColor ∈ parts.filterMap Part.flag?)
  dev := decide (.dev ∈ parts.filterMap Part.flag?)
  command := some (s.command path (parts.filterMap Part.output?).head?)

theorem has_said : (said s path parts).has f = decide (f ∈ parts.filterMap Part.flag?) := by cases f <;> rfl

theorem give_said : (said s path parts).give f = said s path (.flag f :: parts) :=
  ext_has (command_give _ f) fun f' => by
    rw [has_give, has_said, has_said, List.filterMap_cons_some (show Part.flag? (.flag f) = some f from rfl),
      Bool.eq_iff_iff]
    simp

theorem output?_said (h : parts.filterMap Part.output? = []) : (said s path parts).output? = none := by
  rw [said, h]
  cases s <;> rfl

theorem withOutput_said {form : OutputForm} {x : String} (hs : s.takesOutput) :
    (said s path parts).withOutput x = said s path (.output form x :: parts) := by
  cases s with
  | check | tokens => cases hs
  | emit => rfl

/-! ## Parts -/

/-- Parts that may stand together around a path: each flag once, at most one output, and that a value where there is an
option for it. -/
structure Together (s : Subcommand) (parts : List Part) : Prop where
  path : parts.filterMap Part.path? = []
  flags : (parts.filterMap Part.flag?).Nodup
  output : (parts.filterMap Part.output?).length ≤ 1
  value : ∀ x ∈ parts.filterMap Part.output?, s.takesOutput ∧ IsValue x

theorem Together.sublist (h : Together s parts) (hsub : parts'.Sublist parts) : Together s parts' where
  path := List.sublist_nil.1 (h.path ▸ hsub.filterMap Part.path?)
  flags := h.flags.sublist (hsub.filterMap _)
  output := (hsub.filterMap _).length_le.trans h.output
  value x hx := h.value x ((hsub.filterMap _).subset hx)

/-- Behind a value an argument may stand. -/
theorem boundary_of_isValue {p : String} (hp : IsValue p) : Boundary [p] := by
  have hne : ∀ {w : String}, w.toList.head? = some '-' → p ≠ w := fun hw he => hp.2 (he ▸ hw)
  constructor
  · simpa using (hne rfl).symm
  · intro w hw
    cases hw
    exact ⟨hne rfl, hne rfl⟩

theorem boundary_nil : Boundary [] := ⟨List.not_mem_nil, by simp⟩

namespace Lawful

variable {read : List String → Except Stop Invocation}

/-- **One part more** is said besides the others. -/
theorem read_part (hread : Lawful read) {p : Part} {pre post : List String} (hpre : Boundary pre)
    (h : Together s (p :: parts)) (hok : read (s.word :: (pre ++ post)) = .ok (said s path parts)) :
    read (s.word :: (pre ++ (p.words ++ post))) = .ok (said s path (p :: parts)) := by
  cases p with
  | flag f =>
    have hf : f.isGlobal := by cases f <;> rfl
    have hnew : f ∉ parts.filterMap Part.flag? := (List.nodup_cons.1 h.flags).1
    rw [← give_said]
    exact hread.flag s hf hpre hok (has_said.trans (decide_eq_false hnew))
  | path p => cases h.path
  | output form x =>
    obtain ⟨hs, hx⟩ := h.value x (List.mem_cons_self ..)
    have hnone : parts.filterMap Part.output? = [] :=
      List.eq_nil_of_length_eq_zero (Nat.le_zero.1 (Nat.le_of_succ_le_succ h.output))
    rw [← withOutput_said hs, ← List.append_assoc]
    exact hread.output s form hs hx hpre hok (output?_said hnone)

/-- **Parts put in** at one place are said besides the others. -/
theorem read_insert (hread : Lawful read) {pre post : List String} (hpre : Boundary pre)
    (hok : read (s.word :: (pre ++ post)) = .ok (said s path parts)) : ∀ more : List Part, Together s (more ++ parts) →
      read (s.word :: (pre ++ (more.flatMap Part.words ++ post))) = .ok (said s path (more ++ parts))
  | [], _ => hok
  | p :: more, h => by
    have hmore := hread.read_insert hpre hok more (h.sublist (List.sublist_cons_self ..))
    rw [List.flatMap_cons, List.append_assoc]
    exact hread.read_part hpre h hmore

theorem read_front (hread : Lawful read) {ws : List String} {i : Invocation} (hok : read (s.word :: ws) = .ok i) :
    ∀ {front : List Flag}, front.Nodup →
      read (front.map Flag.word ++ s.word :: ws) = .ok (front.foldr (fun f i => i.give f) i)
  | [], _ => hok
  | f :: front, h => by
    obtain ⟨hnew, hfront⟩ := List.nodup_cons.1 h
    have hf : f.isGlobal := by cases f <;> rfl
    exact hread.front s hf (hread.read_front hok hfront) hnew

end Lawful

theorem has_foldr_give (i : Invocation) (f : Flag) : ∀ front : List Flag,
    (front.foldr (fun f i => i.give f) i).has f = (decide (f ∈ front) || i.has f)
  | [] => by simp
  | f' :: front => by
    rw [List.foldr_cons, has_give, has_foldr_give i f front]
    simp [Bool.or_assoc]

theorem command_foldr_give (i : Invocation) : ∀ front : List Flag,
    (front.foldr (fun f i => i.give f) i).command = i.command
  | [] => rfl
  | f :: front => (command_give _ f).trans (command_foldr_give i front)

/-! ## Spellings -/

variable {c : Command} {noColor dev : Bool} {front : List Flag}

namespace Spells

theorem together (h : Spells c noColor dev front parts) (houtput : ∀ x, c.output? = some x → IsValue x)
    (hflag : parts'.filterMap Part.flag? = parts.filterMap Part.flag?)
    (hout : parts'.filterMap Part.output? = parts.filterMap Part.output?) (hpath : parts'.filterMap Part.path? = []) :
    Together c.subcommand parts' := by
  refine ⟨hpath, hflag ▸ h.flags_nodup, ?_, fun x hx => ?_⟩
  · rw [hout, h.output]
    cases c.output? <;> simp
  · rw [hout, h.output, Option.mem_toList] at hx
    exact ⟨Command.takesOutput_of_output hx, houtput x hx⟩

/-- What is given in front and what is given behind come to the flags that are spelt. -/
theorem has_eq (h : Spells c noColor dev front parts) (f : Flag) :
    (decide (f ∈ front) || decide (f ∈ parts.filterMap Part.flag?)) = has ⟨noColor, dev, some c⟩ f := by
  rw [Bool.eq_iff_iff, Bool.or_eq_true, decide_eq_true_iff, decide_eq_true_iff, mem_filterMap_flag]
  cases f with
  | noColor => exact h.noColor.symm
  | dev => exact h.dev.symm

theorem command_said (h : Spells c noColor dev front parts) :
    (said c.subcommand c.path parts).command = some c := by
  have hhead : (parts.filterMap Part.output?).head? = c.output? := by
    rw [h.output]
    cases c.output? <;> rfl
  rw [said, hhead, Command.command_subcommand]

end Spells

/-- The parts behind the subcommand come to what they say, with a path among them or without. -/
theorem Lawful.read_parts {read : List String → Except Stop Invocation} (hread : Lawful read)
    (h : Spells c noColor dev front parts) (hpath : IsValue c.path) (houtput : ∀ x, c.output? = some x → IsValue x) :
    read (c.subcommand.word :: parts.flatMap Part.words) = .ok (said c.subcommand c.path parts) := by
  rcases h.path with hone | ⟨hdefault, hnone⟩
  · obtain ⟨before, p, behind, hparts, hbefore, hp, hbehind⟩ := List.filterMap_eq_cons_iff.1 hone
    obtain rfl : p = .path c.path := by cases p <;> cases hp; rfl
    have hflag : (before ++ behind).filterMap Part.flag? = parts.filterMap Part.flag? := by
      rw [hparts, List.filterMap_append, List.filterMap_append]
      rfl
    have hout : (before ++ behind).filterMap Part.output? = parts.filterMap Part.output? := by
      rw [hparts, List.filterMap_append, List.filterMap_append]
      rfl
    have hnone : before.filterMap Part.path? = [] := List.filterMap_eq_nil_iff.2 hbefore
    have hall : Together c.subcommand (before ++ behind) :=
      h.together houtput hflag hout (by rw [List.filterMap_append, hnone, hbehind]; rfl)
    have hstart : read (c.subcommand.word :: ([c.path] ++ [])) = .ok (said c.subcommand c.path []) :=
      hread.path c.subcommand hpath
    have hback := hread.read_insert (boundary_of_isValue hpath) hstart behind
      (by simpa using hall.sublist (List.sublist_append_right ..))
    rw [List.append_nil, List.append_nil] at hback
    have hwords := hread.read_insert boundary_nil hback before hall
    have hsaid : said c.subcommand c.path (before ++ behind) = said c.subcommand c.path parts := by
      rw [said, said, hflag, hout]
    rw [hparts, List.flatMap_append, ← hparts, ← hsaid]
    exact hwords
  · have hstart : read (c.subcommand.word :: ([] ++ [])) = .ok (said c.subcommand c.path []) := by
      rw [hdefault]
      exact hread.bare c.subcommand
    have hall : Together c.subcommand parts := h.together houtput rfl rfl hnone
    have hwords := hread.read_insert boundary_nil hstart parts (by simpa using hall)
    rwa [List.append_nil, List.append_nil] at hwords

/-- **Command lines read back as what they spell**, whoever reads them lawfully.  Take a command whose path and output can
stand as values, and the two flags.  Whatever flags stand in front of the subcommand, each once at most, and in whatever
order the flags, the path and the output stand behind it, the output in whichever form and the path left out if it is the
default: if each flag occurs somewhere exactly when it is spelt, the words read back as that invocation. -/
theorem Lawful.reads_back {read : List String → Except Stop Invocation} (hread : Lawful read) (c : Command)
    (noColor dev : Bool) (front : List Flag) (parts : List Part) (hpath : IsValue c.path)
    (houtput : ∀ x, c.output? = some x → IsValue x) (h : Spells c noColor dev front parts) :
    read (spelling c front parts) = .ok ⟨noColor, dev, some c⟩ := by
  rw [spelling, hread.read_front (hread.read_parts h hpath houtput) h.front_nodup]
  refine congrArg Except.ok (ext_has ?_ fun f => ?_)
  · rw [command_foldr_give, h.command_said]
  · rw [has_foldr_give, has_said, h.has_eq]

/-- A path that is a word of the language, an output with an equals sign in it, and a flag at both places. -/
theorem ofWords_reads_back :
    let parts : List Part := [.flag .dev, .output .joined "a=b", .path "check"]
    Lawful ofWords ∧ IsValue "check" ∧ IsValue "a=b" ∧ Spells (.emit "check" (some "a=b")) false true [.dev] parts ∧
      spelling (.emit "check" (some "a=b")) [.dev] parts = ["--dev", "emit", "--dev", "--output=a=b", "check"] ∧
      ofWords ["--dev", "emit", "--dev", "--output=a=b", "check"] = .ok ⟨false, true, some (.emit "check" (some "a=b"))⟩ := by
  intro parts
  have hpath : IsValue "check" := by decide
  have houtput : IsValue "a=b" := by decide
  have hspells : Spells (.emit "check" (some "a=b")) false true [.dev] parts := by
    constructor <;> decide
  have hwords : spelling (.emit "check" (some "a=b")) [.dev] parts =
      ["--dev", "emit", "--dev", "--output=a=b", "check"] := by decide
  refine ⟨lawful_ofWords, hpath, houtput, hspells, hwords, ?_⟩
  rw [← hwords]
  refine lawful_ofWords.reads_back _ false true [.dev] parts hpath (fun x hx => ?_) hspells
  cases hx
  exact houtput

end MiniLang.Invocation
