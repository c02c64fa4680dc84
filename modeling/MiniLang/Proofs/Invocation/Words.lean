import Mathlib.Data.List.TakeWhile
import MiniLang.Invocation.Words
import MiniLang.Proofs.Except
import MiniLang.Proofs.Invocation.Laws
/-!
# The words of a level

The reader of words is lawful (`lawful_ofWords`).  A level keeps a path or an output pending, so what it has read is told
by what it settles to: levels that settle to the same end alike (`ends_of_settle`).  One more argument is gathered with
what was settled before it (`exists_settle_argument`), and the words behind it are read as before, since none of them
asks for the same (`ends_onto`).
-/
namespace MiniLang.Invocation

namespace Word

variable {s : Option Subcommand} {w : String}

theorem long_plain {name : List Char} {switch : Switch} (hs : long? s name = some switch) (hn : '=' ∉ name) :
    long s name = .ok (.plain switch) := by
  have hall : ∀ c ∈ name, (c != '=') = true := fun c hc => bne_iff_ne.2 (fun h => hn (h ▸ hc))
  rw [long, List.takeWhile_eq_self_iff.2 hall, List.dropWhile_eq_nil_iff.2 hall, hs]

theorem long_valued {name text : List Char} {switch : Switch} (hs : long? s name = some switch) (hn : '=' ∉ name) :
    long s (name ++ '=' :: text) = .ok (.valued switch text) := by
  have hall : ∀ c ∈ name, (c != '=') = true := fun c hc => bne_iff_ne.2 (fun h => hn (h ▸ hc))
  have htake : (name ++ '=' :: text).takeWhile (· != '=') = name := by
    rw [List.takeWhile_append_of_pos hall]
    simp
  have hdrop : (name ++ '=' :: text).dropWhile (· != '=') = '=' :: text := by
    rw [List.dropWhile_append_of_pos hall]
    rfl
  rw [long, htake, hdrop, hs]

theorem ofString_long {name : List Char} (hw : w.toList = '-' :: '-' :: name) (hn : name ≠ []) :
    ofString s w = long s name := by
  rw [ofString, hw]
  cases name with
  | nil => exact absurd rfl hn
  | cons c cs => rfl

theorem ofString_of_isValue (hw : IsValue w) : ofString s w = .ok (.value w) := by
  obtain ⟨-, hhead⟩ := hw
  unfold ofString
  split
  · next h => simp [h] at hhead
  · next h => simp [h] at hhead
  · next h => simp [h] at hhead
  · rfl

theorem ofString_flag {f : Flag} (hf : s = none ∨ f.isGlobal) : ofString s f.word = .ok (.plain (.flag f)) := by
  have hw : f.word.toList = '-' :: '-' :: f.name.toList := by cases f <;> rfl
  have hne : f.name.toList ≠ [] := by cases f <;> decide
  have hknown : long? s f.name.toList = some (.flag f) := by
    have hflag : flag? s f.name.toList = some f := by cases f <;> simp [flag?, Flag.all, Flag.name, hf]
    rw [long?, hflag]
  rw [ofString_long hw hne, long_plain hknown (by cases f <;> decide)]

theorem long?_output (hs : s.any (·.takesOutput)) : long? s outputName.toList = some .output := by
  have hflag : flag? s outputName.toList = none := by
    simp [flag?, Flag.all, outputName, Flag.name]
  rw [long?, hflag]
  simp [outputName, hs]

theorem ofString_outputLong (hs : s.any (·.takesOutput)) : ofString s outputLong = .ok (.plain .output) := by
  have hw : outputLong.toList = '-' :: '-' :: outputName.toList := rfl
  rw [ofString_long hw (by decide), long_plain (long?_output hs) (by decide)]

theorem ofString_outputShort (hs : s.any (·.takesOutput)) : ofString s outputShort = .ok (.plain .output) := by
  have hknown : short? s outputLetter = some .output := by simp [short?, outputLetter, hs]
  have hshort : ofString s outputShort = short s outputLetter [] := rfl
  rw [hshort]
  unfold short
  rw [hknown]

theorem ofString_joined (hs : s.any (·.takesOutput)) (x : String) :
    ofString s (outputLong ++ "=" ++ x) = .ok (.valued .output x.toList) := by
  have hw : (outputLong ++ "=" ++ x).toList = '-' :: '-' :: (outputName.toList ++ '=' :: x.toList) := by
    rw [String.toList_append, String.toList_append]
    rfl
  rw [ofString_long hw (by simp), long_valued (long?_output hs) (by decide)]

/-! ## Which words ask for an output -/

theorem long?_eq_output {name : List Char} (h : long? s name = some .output) : name = outputName.toList := by
  unfold long? at h
  split at h
  · cases h
  · split at h
    · cases h
    · split at h
      · cases h
      · split at h
        · next hname => exact hname.1
        · cases h

theorem short?_eq_output {c : Char} (h : short? s c = some .output) : c = outputLetter := by
  unfold short? at h
  split at h
  · cases h
  · split at h
    · cases h
    · split at h
      · next hc => exact hc.1
      · cases h

theorem eq_of_long {name : List Char} (hw : w.toList = '-' :: '-' :: name) (h : long s name = .ok (.plain .output)) :
    w = outputLong := by
  unfold long at h
  split at h
  · cases h
  · next hs hrest =>
    cases h
    have hname : name.takeWhile (· != '=') = name := by
      have happend := List.takeWhile_append_dropWhile (p := (· != '=')) (l := name)
      rwa [hrest, List.append_nil] at happend
    rw [hname] at hs
    refine String.toList_injective ?_
    rw [hw, long?_eq_output hs]
    rfl
  · cases h

theorem eq_of_short {c : Char} {rest : List Char} (hw : w.toList = '-' :: c :: rest)
    (h : short s c rest = .ok (.plain .output)) : w = outputShort := by
  unfold short at h
  split at h
  · cases h
  · next hs =>
    refine String.toList_injective ?_
    rw [hw, short?_eq_output hs]
    rfl
  · cases h
  · cases h
  · next hne _ _ _ =>
    cases h
    exact absurd rfl hne

/-- A value is waited for behind one of the two words of the option only. -/
theorem eq_of_plain_output (h : ofString s w = .ok (.plain .output)) : w = outputShort ∨ w = outputLong := by
  unfold ofString at h
  split at h
  · cases h
  · next hw => exact .inr (eq_of_long hw h)
  · next hw => exact .inl (eq_of_short hw h)
  · cases h

/-- Whether a word is a switch. -/
def isSwitch : Word → Bool
  | plain _ | valued .. => true
  | bare | value _ => false

theorem isSwitch_of_long {name : List Char} {word : Word} (h : long s name = .ok word) : word.isSwitch := by
  unfold long at h
  split at h <;> cases h <;> rfl

theorem isSwitch_of_short {c : Char} {rest : List Char} {word : Word} (h : short s c rest = .ok word) :
    word.isSwitch := by
  unfold short at h
  split at h <;> cases h <;> rfl

theorem eq_of_bare (h : ofString s w = .ok bare) : w = "--" := by
  unfold ofString at h
  split at h
  · next hw => exact String.toList_injective hw
  · cases isSwitch_of_long h
  · cases isSwitch_of_short h
  · cases h

theorem eq_of_value {x : String} (h : ofString s w = .ok (value x)) : x = w := by
  unfold ofString at h
  split at h
  · cases h
  · cases isSwitch_of_long h
  · cases isSwitch_of_short h
  · cases h
    rfl

end Word

namespace Level

variable {l g l' : Level} {w : String} {ws : List String}

@[simp] theorem subcommand_give (l : Level) (f : Flag) : (l.give f).subcommand = l.subcommand := by cases f <;> rfl

@[simp] theorem path_give (l : Level) (f : Flag) : (l.give f).path = l.path := by cases f <;> rfl

@[simp] theorem output_give (l : Level) (f : Flag) : (l.give f).output = l.output := by cases f <;> rfl

@[simp] theorem pending_give (l : Level) (f : Flag) : (l.give f).pending = l.pending := by cases f <;> rfl

@[simp] theorem bare_give (l : Level) (f : Flag) : (l.give f).bare = l.bare := by cases f <;> rfl

@[simp] theorem has_give (l : Level) (f f' : Flag) : (l.give f).has f' = (decide (f' = f) || l.has f') := by
  cases f <;> cases f' <;> rfl

theorem give_comm (l : Level) (f f' : Flag) : (l.give f).give f' = (l.give f').give f := by cases f <;> cases f' <;> rfl

/-! ## What is pending -/

/-- A level whose pending value, if there is one, is looked at and found right. -/
structure Settled (l g : Level) : Prop where
  subcommand : g.subcommand = l.subcommand
  bare : g.bare = l.bare
  pending : g.pending = none
  has (f : Flag) : g.has f = l.has f
  path : l.hasPath = g.path.isSome
  answered : l.pending ≠ some (.output none)

theorem settled_of_settle (h : l.settle = .ok g) : l.Settled g := by
  unfold settle at h
  split at h
  · next hp =>
    cases h
    exact ⟨rfl, rfl, hp, fun _ => rfl, by simp [hasPath, hp], by simp [hp]⟩
  · next value hp =>
    split at h <;> cases h
    exact ⟨rfl, rfl, rfl, fun f => by cases f <;> rfl, by simp [hasPath, hp], by simp [hp]⟩
  · cases h
  · next value hp =>
    unfold acceptOutput at h
    split at h
    · cases h
    · split at h <;> cases h
      exact ⟨rfl, rfl, rfl, fun f => by cases f <;> rfl, by simp [hasPath, hp], by simp [hp]⟩

theorem settle_of_none (h : g.pending = none) : g.settle = .ok g := by rw [settle, h]

theorem settle_settled (h : l.settle = .ok g) : g.settle = .ok g := settle_of_none (settled_of_settle h).pending

theorem settle_bare (l : Level) :
    { l with bare := true }.settle = l.settle.map fun g => { g with bare := true } := by
  obtain ⟨s, noColor, dev, path, out, pending, b⟩ := l
  unfold settle acceptOutput
  cases pending with
  | none => rfl
  | some p =>
    cases p with
    | path value => dsimp only; split <;> rfl
    | output value =>
      cases value with
      | none => rfl
      | some value => dsimp only; split <;> [rfl; split <;> rfl]

/-! ## What a word does -/

/-- What a word does where nothing is pending. -/
inductive Takes (g : Level) (w : String) : Level → Prop where
  | flag {f : Flag} (hnew : g.has f = false) : Takes g w (g.give f)
  | option (hw : w = outputShort ∨ w = outputLong) : Takes g w { g with pending := some (.output none) }
  | output {value : String} (hnew : g.output = none) (hvalue : value.isEmpty = false) :
      Takes g w { g with output := some value, pending := none }
  | path : Takes g w { g with pending := some (.path w) }

/-- What a word that is read does: it ends the flags, it is the value that is waited for, or the level is settled first. -/
inductive Moves (l : Level) (w : String) : Level → Prop where
  | bare (hw : w = "--") : Moves l w { l with bare := true }
  | answer (hp : l.pending = some (.output none)) : Moves l w { l with pending := some (.output (some w)) }
  | settled {g l' : Level} (h : l.settle = .ok g) (ht : g.Takes w l') : Moves l w l'

theorem moves_of_positional (h : l.positional w = .ok l') : l.Moves w l' := by
  unfold positional at h
  split at h
  · cases h
  · split at h
    · cases h
    · obtain ⟨g, hsettle, hg⟩ := bind_eq_ok.1 h
      cases hg
      exact .settled hsettle .path

theorem takes_of_switch {s : Switch} (h : g.switch s = .ok l') (hw : s = .output → w = outputShort ∨ w = outputLong) :
    g.Takes w l' := by
  cases s with
  | flag f =>
    rw [switch] at h
    split at h <;> cases h
    next hnew => exact .flag (by simpa using hnew)
  | help | version => cases h
  | output =>
    cases h
    exact .option (hw rfl)

theorem takes_of_acceptOutput {value : String} (h : g.acceptOutput value = .ok l') : g.Takes w l' := by
  unfold acceptOutput at h
  split at h
  · cases h
  · next hnew =>
    split at h <;> cases h
    next hvalue => exact .output (by simpa using hnew) (by simpa using hvalue)

theorem moves_of_apply {word : Word} (hword : Word.ofString l.subcommand w = .ok word) (h : l.apply word = .ok l') :
    l.Moves w l' := by
  cases word with
  | bare =>
    cases h
    exact .bare (Word.eq_of_bare hword)
  | plain s =>
    obtain ⟨g, hsettle, hg⟩ := bind_eq_ok.1 h
    exact .settled hsettle (takes_of_switch hg fun hs => Word.eq_of_plain_output (hs ▸ hword))
  | valued s text =>
    cases s with
    | flag | help | version => cases h
    | output =>
      obtain ⟨g, hsettle, hg⟩ := bind_eq_ok.1 h
      exact .settled hsettle (takes_of_acceptOutput hg)
  | value x =>
    obtain rfl := Word.eq_of_value hword
    rw [apply] at h
    split at h
    · next hp =>
      cases h
      exact .answer hp
    · exact moves_of_positional h

theorem moves_of_read (h : l.read w = .ok l') : l.Moves w l' := by
  unfold read at h
  split at h
  · exact moves_of_positional h
  · obtain ⟨word, hword, hl'⟩ := bind_eq_ok.1 h
    exact moves_of_apply hword hl'

theorem Moves.subcommand (h : l.Moves w l') : l'.subcommand = l.subcommand := by
  cases h with
  | bare | answer => rfl
  | settled h ht =>
    have hset := (settled_of_settle h).subcommand
    cases ht <;> simpa using hset

theorem Moves.bare_eq (h : l.Moves w l') (hw : w ≠ "--") : l'.bare = l.bare := by
  cases h with
  | bare h => exact absurd h hw
  | answer => rfl
  | settled h ht =>
    have hset := (settled_of_settle h).bare
    cases ht <;> simpa using hset

/-- A word that is not one of an option leaves no value waited for. -/
theorem Moves.answered (h : l.Moves w l') (hbare : w ≠ "--") (hw : w ≠ outputShort ∧ w ≠ outputLong) :
    l'.pending ≠ some (.output none) := by
  cases h with
  | bare h => exact absurd h hbare
  | answer => simp
  | settled h ht =>
    have hset := (settled_of_settle h).pending
    cases ht with
    | flag => simp [hset]
    | option h => exact absurd h (not_or.2 hw)
    | output | path => simp

theorem subcommand_foldlM : ∀ {ws : List String} {l l' : Level}, ws.foldlM read l = .ok l' → l'.subcommand = l.subcommand
  | [], _, _, h => by cases h; rfl
  | w :: ws, l, l', h => by
    obtain ⟨l₁, hread, hws⟩ := foldlM_cons_eq_ok.1 h
    exact (subcommand_foldlM hws).trans (moves_of_read hread).subcommand

theorem bare_foldlM : ∀ {ws : List String} {l l' : Level}, ws.foldlM read l = .ok l' → "--" ∉ ws → l'.bare = l.bare
  | [], _, _, h, _ => by cases h; rfl
  | w :: ws, l, l', h, hws => by
    obtain ⟨hw, hws⟩ := List.ne_and_not_mem_of_not_mem_cons hws
    obtain ⟨l₁, hread, h⟩ := foldlM_cons_eq_ok.1 h
    exact (bare_foldlM h hws).trans ((moves_of_read hread).bare_eq hw.symm)

theorem answered_foldlM (hpre : Boundary ws) (h : ws.foldlM read l = .ok l') (hl : l.pending ≠ some (.output none)) :
    l'.pending ≠ some (.output none) := by
  rcases List.eq_nil_or_concat ws with rfl | ⟨init, w, rfl⟩
  · cases h
    exact hl
  · have hbare : w ≠ "--" := fun hw => hpre.bare (by simp [hw])
    rw [List.concat_eq_append] at h
    obtain ⟨l₁, -, hw⟩ := foldlM_append_eq_ok.1 h
    obtain ⟨l₂, hread, hnil⟩ := foldlM_cons_eq_ok.1 hw
    cases hnil
    exact (moves_of_read hread).answered hbare (hpre.answered w (by simp))

/-! ## Ends -/

/-- What a level comes to at the end of the words. -/
def ends (l : Level) (ws : List String) : Except Stop Level := do (← ws.foldlM read l).settle

theorem ends_eq_ok : l.ends ws = .ok g ↔ ∃ l', ws.foldlM read l = .ok l' ∧ l'.settle = .ok g := bind_eq_ok

theorem pending_of_ends (h : l.ends ws = .ok g) : g.pending = none :=
  have ⟨_, _, hsettle⟩ := ends_eq_ok.1 h
  (settled_of_settle hsettle).pending

theorem ends_cons : l.ends (w :: ws) = .ok g ↔ ∃ l', l.read w = .ok l' ∧ l'.ends ws = .ok g := by
  simp only [ends_eq_ok, foldlM_cons_eq_ok, ← exists_and_right, ← exists_and_left, and_assoc]
  exact exists_comm

theorem ends_append {ws' : List String} :
    l.ends (ws ++ ws') = .ok g ↔ ∃ l', ws.foldlM read l = .ok l' ∧ l'.ends ws' = .ok g := by
  simp only [ends_eq_ok, foldlM_append_eq_ok, ← exists_and_right, ← exists_and_left, and_assoc]
  exact exists_comm

theorem positional_of_settle (h : l.settle = .ok g) (w : String) : l.positional w = g.positional w := by
  have hset := settled_of_settle h
  have hpath : l.hasPath = g.hasPath := by rw [hset.path, (settled_of_settle (settle_settled h)).path]
  rw [positional, positional, hset.subcommand, hpath, h, settle_settled h]

/-- A word is read alike before and behind the settling, but for a bare `--`, at which nothing settles. -/
theorem read_of_settle (h : l.settle = .ok g) (w : String) :
    l.read w = g.read w ∨ l.read w = .ok { l with bare := true } ∧ g.read w = .ok { g with bare := true } := by
  have hset := settled_of_settle h
  have hg := settle_settled h
  rw [read, read, hset.bare, hset.subcommand]
  split
  · exact .inl (positional_of_settle h w)
  · cases Word.ofString l.subcommand w with
    | error stop => exact .inl rfl
    | ok word =>
      cases word with
      | bare => exact .inr ⟨rfl, by rw [← hset.subcommand]; rfl⟩
      | plain s => exact .inl (by simp only [bind, Except.bind, apply, h, hg])
      | valued s text => exact .inl (by cases s <;> simp only [bind, Except.bind, apply, h, hg])
      | value x =>
        have hanswered := (settled_of_settle hg).answered
        simp only [bind, Except.bind, apply, if_neg hset.answered, if_neg hanswered]
        exact .inl (positional_of_settle h x)

theorem ends_of_settle : ∀ (ws : List String) {l g : Level}, l.settle = .ok g → l.ends ws = g.ends ws
  | [], l, g, h => h.trans (settle_settled h).symm
  | w :: ws, l, g, h => by
    rw [ends, ends, List.foldlM_cons, List.foldlM_cons]
    rcases read_of_settle h w with hread | ⟨hl, hg⟩
    · rw [hread]
    · rw [hl, hg]
      exact ends_of_settle ws (by rw [settle_bare, h]; rfl)

/-- A level that ends well, and that waits for no value, has nothing wrong pending. -/
theorem settle_of_ends : ∀ {ws : List String} {l g : Level}, l.ends ws = .ok g → l.pending ≠ some (.output none) →
    ∃ l', l.settle = .ok l'
  | [], _, g, h, _ => ⟨g, h⟩
  | w :: ws, l, g, h, hp => by
    obtain ⟨l₁, hread, hws⟩ := ends_cons.1 h
    cases moves_of_read hread with
    | bare =>
      obtain ⟨l', hl'⟩ := settle_of_ends hws hp
      rw [settle_bare] at hl'
      cases hsettle : l.settle with
      | error stop => rw [hsettle] at hl'; cases hl'
      | ok g => exact ⟨g, rfl⟩
    | answer hans => exact absurd hans hp
    | settled hset => exact ⟨_, hset⟩

end Level

/-! ## One argument more -/

/-- What may stand once more behind a subcommand: a flag, or the output. -/
inductive Argument where
  | flag (f : Flag)
  | output (form : OutputForm) (x : String)
  deriving DecidableEq, Repr

namespace Argument

def words : Argument → List String
  | flag f => [f.word]
  | output form x => form.words x

/-- Whether a level knows the argument, and the value of it is one. -/
def Fits (s : Option Subcommand) : Argument → Prop
  | flag f => s = none ∨ f.isGlobal
  | output _ x => s.any (·.takesOutput) ∧ IsValue x

def onto (g : Level) : Argument → Level
  | flag f => g.give f
  | output _ x => { g with output := some x }

/-- Whether a level has not been given the argument, nor one of its kind. -/
def Free (l : Level) : Argument → Prop
  | flag f => l.has f = false
  | output .. => l.output = none ∧ ∀ value, l.pending ≠ some (.output value)

variable {a : Argument} {l g l' : Level} {w : String} {ws : List String}

@[simp] theorem subcommand_onto (a : Argument) (g : Level) : (a.onto g).subcommand = g.subcommand := by
  cases a <;> simp [onto]

@[simp] theorem bare_onto (a : Argument) (g : Level) : (a.onto g).bare = g.bare := by cases a <;> simp [onto]

@[simp] theorem pending_onto (a : Argument) (g : Level) : (a.onto g).pending = g.pending := by cases a <;> simp [onto]

@[simp] theorem hasPath_onto (a : Argument) (g : Level) : (a.onto g).hasPath = g.hasPath := by
  cases a <;> simp [onto, Level.hasPath]

theorem onto_bare (a : Argument) (l : Level) : a.onto { l with bare := true } = { a.onto l with bare := true } := by
  cases a with
  | flag f => cases f <;> rfl
  | output => rfl

theorem onto_pending (a : Argument) (l : Level) (p : Option Pending) :
    a.onto { l with pending := p } = { a.onto l with pending := p } := by
  cases a with
  | flag f => cases f <;> rfl
  | output => rfl

/-- What is free behind the settling was free before it, and stands apart from it. -/
theorem settle_onto (h : l.settle = .ok g) (hfree : a.Free g) : a.Free l ∧ (a.onto l).settle = .ok (a.onto g) := by
  unfold Level.settle at h
  split at h
  · next hp =>
    cases h
    exact ⟨hfree, Level.settle_of_none (by rw [pending_onto, hp])⟩
  · next value hp =>
    split at h <;> cases h
    next hvalue =>
      have hsettle : (a.onto l).settle = .ok { a.onto l with path := some value, pending := none } := by
        simp [Level.settle, hp, hvalue]
      rw [hsettle]
      cases a with
      | flag f => cases f <;> exact ⟨hfree, rfl⟩
      | output => exact ⟨⟨hfree.1, by simp [hp]⟩, rfl⟩
  · cases h
  · next value hp =>
    unfold Level.acceptOutput at h
    split at h
    · cases h
    · next hnew =>
      split at h <;> cases h
      next hvalue =>
        cases a with
        | flag f =>
          cases f <;>
            exact ⟨hfree, by simp [Level.settle, Level.acceptOutput, onto, Level.give, hp, hnew, hvalue]⟩
        | output => cases hfree.1

theorem Free.of_takes (hg : g.pending = none) (h : g.Takes w l') (hfree : a.Free l') : a.Free g := by
  cases a with
  | flag f =>
    cases h with
    | flag =>
      rw [Free, Level.has_give, Bool.or_eq_false_iff] at hfree
      exact hfree.2
    | option | output | path => cases f <;> exact hfree
  | output form x =>
    cases h with
    | flag => exact ⟨by simpa using hfree.1, by simp [hg]⟩
    | option => exact absurd rfl (hfree.2 none)
    | output => cases hfree.1
    | path => exact ⟨hfree.1, by simp [hg]⟩

theorem Free.of_moves (h : l.Moves w l') (hfree : a.Free l') : a.Free l := by
  cases h with
  | bare =>
    cases a with
    | flag f => cases f <;> exact hfree
    | output => exact hfree
  | answer =>
    cases a with
    | flag f => cases f <;> exact hfree
    | output => exact absurd rfl (hfree.2 _)
  | settled h ht => exact (settle_onto h (hfree.of_takes (Level.settled_of_settle h).pending ht)).1

theorem switch_onto {s : Switch} (h : g.switch s = .ok l') (hfree : a.Free l') : (a.onto g).switch s = .ok (a.onto l') := by
  cases s with
  | help | version => cases h
  | output =>
    cases h
    exact congrArg Except.ok (onto_pending a g _).symm
  | flag f =>
    rw [Level.switch] at h ⊢
    split at h <;> cases h
    next hnew =>
      cases a with
      | flag f' =>
        rw [Free, Level.has_give, Bool.or_eq_false_iff, decide_eq_false_iff_not] at hfree
        have hhas : (onto g (.flag f')).has f = false := by
          simpa [onto, Level.has_give, Ne.symm hfree.1] using hnew
        rw [if_neg (by simp [hhas]), onto, onto, Level.give_comm]
      | output form x =>
        have hhas : (onto g (.output form x)).has f = g.has f := by cases f <;> rfl
        rw [hhas, if_neg hnew]
        cases f <;> rfl

theorem acceptOutput_onto {value : String} (h : g.acceptOutput value = .ok l') (hfree : a.Free l') :
    (a.onto g).acceptOutput value = .ok (a.onto l') := by
  unfold Level.acceptOutput at h ⊢
  split at h
  · cases h
  · next hnew =>
    split at h <;> cases h
    next hvalue =>
      cases a with
      | flag f => simp [onto, hnew, hvalue]; cases f <;> rfl
      | output => cases hfree.1

theorem positional_onto (h : l.positional w = .ok l') (hfree : a.Free l') :
    (a.onto l).positional w = .ok (a.onto l') := by
  unfold Level.positional at h ⊢
  rw [subcommand_onto, hasPath_onto]
  split at h
  · cases h
  · next hs =>
    split at h
    · cases h
    · next hpath =>
      obtain ⟨g, hsettle, hg⟩ := bind_eq_ok.1 h
      cases hg
      have hg := hfree.of_takes (w := w) (Level.settled_of_settle hsettle).pending .path
      rw [if_neg hs, if_neg hpath, (settle_onto hsettle hg).2]
      exact congrArg Except.ok (onto_pending a g _).symm

/-- **A word is read as before** where an argument is given that the word does not ask for. -/
theorem read_onto (h : l.read w = .ok l') (hfree : a.Free l') : (a.onto l).read w = .ok (a.onto l') := by
  unfold Level.read at h ⊢
  rw [bare_onto, subcommand_onto]
  split at h
  · next hbare =>
    rw [if_pos hbare]
    exact positional_onto h hfree
  · next hbare =>
    rw [if_neg hbare]
    obtain ⟨word, hword, hl'⟩ := bind_eq_ok.1 h
    refine bind_eq_ok.2 ⟨word, hword, ?_⟩
    cases word with
    | bare =>
      cases hl'
      exact congrArg Except.ok (onto_bare a l).symm
    | plain s =>
      obtain ⟨g, hsettle, hg⟩ := bind_eq_ok.1 hl'
      have htakes := Level.takes_of_switch hg fun hs => Word.eq_of_plain_output (hs ▸ hword)
      have hsettle' := (settle_onto hsettle (hfree.of_takes (Level.settled_of_settle hsettle).pending htakes)).2
      exact bind_eq_ok.2 ⟨a.onto g, hsettle', switch_onto hg hfree⟩
    | valued s text =>
      cases s with
      | flag | help | version => cases hl'
      | output =>
        obtain ⟨g, hsettle, hg⟩ := bind_eq_ok.1 hl'
        have htakes := Level.takes_of_acceptOutput (w := w) hg
        have hsettle' := (settle_onto hsettle (hfree.of_takes (Level.settled_of_settle hsettle).pending htakes)).2
        exact bind_eq_ok.2 ⟨a.onto g, hsettle', acceptOutput_onto hg hfree⟩
    | value x =>
      rw [Level.apply] at hl' ⊢
      rw [pending_onto]
      split at hl'
      · next hp =>
        cases hl'
        rw [if_pos hp]
        exact congrArg Except.ok (onto_pending a l _).symm
      · next hp =>
        rw [if_neg hp]
        exact positional_onto hl' hfree

theorem ends_onto : ∀ {ws : List String} {l g : Level}, l.ends ws = .ok g → a.Free g →
    a.Free l ∧ (a.onto l).ends ws = .ok (a.onto g)
  | [], _, _, h, hfree => settle_onto h hfree
  | w :: ws, l, g, h, hfree => by
    obtain ⟨l₁, hread, hws⟩ := Level.ends_cons.1 h
    obtain ⟨hfree₁, hends⟩ := ends_onto hws hfree
    exact ⟨hfree₁.of_moves (Level.moves_of_read hread), Level.ends_cons.2 ⟨_, read_onto hread hfree₁, hends⟩⟩

end Argument

namespace Level

variable {l g : Level} {a : Argument} {w : String}

theorem read_word {word : Word} (hb : l.bare = false) (hword : Word.ofString l.subcommand w = .ok word) :
    l.read w = l.apply word := by
  rw [read, hb, if_neg Bool.false_ne_true, hword]
  rfl

theorem read_flag {f : Flag} (h : l.settle = .ok g) (hb : l.bare = false) (hf : l.subcommand = none ∨ f.isGlobal) :
    l.read f.word = g.switch (.flag f) := by
  rw [read_word hb (Word.ofString_flag hf), apply, h]
  rfl

/-- The word behind one that calls for an output is that output. -/
theorem foldlM_answered {x : String} (h : l.read w = .ok { g with pending := some (.output none) }) (hb : g.bare = false)
    (hx : IsValue x) : [w, x].foldlM read l = .ok { g with pending := some (.output (some x)) } := by
  have hread : { g with pending := some (.output none) }.read x = .ok { g with pending := some (.output (some x)) } := by
    have hb' : { g with pending := some (.output none) }.bare = false := hb
    rw [read_word hb' (Word.ofString_of_isValue hx), apply, if_pos rfl]
  exact foldlM_cons_eq_ok.2 ⟨_, h, foldlM_cons_eq_ok.2 ⟨_, hread, rfl⟩⟩

/-- **One argument more** is gathered with what is settled before it. -/
theorem exists_settle_argument (h : l.settle = .ok g) (hb : l.bare = false) (ha : a.Fits l.subcommand) (hfree : a.Free g) :
    ∃ l', a.words.foldlM read l = .ok l' ∧ l'.settle = .ok (a.onto g) := by
  have hset := settled_of_settle h
  cases a with
  | flag f =>
    refine ⟨g.give f, foldlM_cons_eq_ok.2 ⟨_, ?_, rfl⟩, settle_of_none ((pending_give g f).trans hset.pending)⟩
    rw [read_flag h hb ha, switch, if_neg (by simpa [Argument.Free] using hfree)]
  | output form x =>
    obtain ⟨hs, hx⟩ := ha
    have hnone : ¬ g.output.isSome = true := by simp [hfree.1]
    have hvalue : ¬ x.isEmpty = true := by simpa using hx.1
    have hsettle : { g with pending := some (.output (some x)) }.settle = .ok { g with output := some x } := by
      simp [settle, acceptOutput, hnone, hvalue, hset.pending]
    have hplain : ∀ {w}, Word.ofString l.subcommand w = .ok (.plain .output) →
        l.read w = .ok { g with pending := some (.output none) } := fun hw => by
      rw [read_word hb hw, apply, h]
      rfl
    cases form with
    | short => exact ⟨_, foldlM_answered (hplain (Word.ofString_outputShort hs)) (hset.bare.trans hb) hx, hsettle⟩
    | long => exact ⟨_, foldlM_answered (hplain (Word.ofString_outputLong hs)) (hset.bare.trans hb) hx, hsettle⟩
    | joined =>
      refine ⟨{ g with output := some x }, foldlM_cons_eq_ok.2 ⟨_, ?_, rfl⟩, settle_of_none hset.pending⟩
      rw [read_word hb (Word.ofString_joined hs x), apply, h]
      simp [bind, Except.bind, acceptOutput, hnone, hvalue, hset.pending]

/-- **An argument more among words that end well** is gathered with them, wherever one may stand. -/
theorem ends_insert {s : Subcommand} {pre post : List String} (hpre : Boundary pre) (ha : a.Fits (some s))
    (h : (start (some s)).ends (pre ++ post) = .ok g) (hfree : a.Free g) :
    (start (some s)).ends (pre ++ a.words ++ post) = .ok (a.onto g) := by
  obtain ⟨l, hpref, hpost⟩ := ends_append.1 h
  have hs := subcommand_foldlM hpref
  have hb := bare_foldlM hpref hpre.bare
  obtain ⟨k, hk⟩ := settle_of_ends hpost (answered_foldlM hpre hpref (by simp [start]))
  rw [ends_of_settle post hk] at hpost
  obtain ⟨hfreek, honto⟩ := Argument.ends_onto hpost hfree
  obtain ⟨l', hwords, hl'⟩ := exists_settle_argument hk hb (hs ▸ ha) hfreek
  rw [← ends_of_settle post hl'] at honto
  exact ends_append.2 ⟨l', foldlM_append_eq_ok.2 ⟨l, hpref, hwords⟩, honto⟩

end Level

/-! ## The laws -/

/-- What the levels in front of a subcommand and behind it say together. -/
def invocation (top g : Level) (s : Subcommand) : Invocation :=
  ⟨top.noColor || g.noColor, top.dev || g.dev, some (s.command (g.path.getD defaultPath) g.output)⟩

theorem readSubcommand_eq_ok {top : Level} {s : Subcommand} {ws : List String} {i : Invocation} :
    readSubcommand top s ws = .ok i ↔ ∃ g, (Level.start (some s)).ends ws = .ok g ∧ i = invocation top g s := by
  have hends : readSubcommand top s ws = (Level.start (some s)).ends ws >>= fun g => .ok (invocation top g s) := by
    rw [readSubcommand, Level.ends]
    cases ws.foldlM Level.read (.start (some s)) <;> rfl
  rw [hends, bind_eq_ok]
  simp only [Except.ok.injEq, eq_comm]

theorem readFrom_subcommand (s : Subcommand) (ws : List String) {top : Level} (hb : top.bare = false) :
    readFrom top (s.word :: ws) = readSubcommand top s ws := by
  have hhelp : s.word ≠ "help" := by cases s <;> decide
  have hword : Subcommand.ofWord? s.word = some s := by cases s <;> rfl
  rw [readFrom, hb, if_neg Bool.false_ne_true, if_neg hhelp, hword]

theorem ofWords_subcommand {s : Subcommand} {ws : List String} {i : Invocation} :
    ofWords (s.word :: ws) = .ok i ↔
      ∃ g, (Level.start (some s)).ends ws = .ok g ∧ i = invocation (.start none) g s := by
  rw [ofWords, readFrom_subcommand s ws rfl, readSubcommand_eq_ok]

theorem readFrom_flag (f : Flag) (ws : List String) {top : Level} (hs : top.subcommand = none) (hp : top.pending = none)
    (hb : top.bare = false) : readFrom top (f.word :: ws) = (top.switch (.flag f)).bind fun top => readFrom top ws := by
  have hhelp : f.word ≠ "help" := by cases f <;> decide
  have hword : Subcommand.ofWord? f.word = none := by cases f <;> rfl
  rw [readFrom, hb, if_neg Bool.false_ne_true, if_neg hhelp, hword,
    Level.read_flag (Level.settle_of_none hp) hb (.inl hs)]
  rfl

theorem invocation_give (top g : Level) (s : Subcommand) (f : Flag) :
    invocation (top.give f) g s = (invocation top g s).give f := by
  cases f <;> simp [invocation, Level.give, give]

/-- A flag given in front changes nothing for the words behind it, if they do not give it in front once more. -/
theorem readFrom_give {f : Flag} {s : Subcommand} {ws : List String} {i : Invocation} : ∀ {front : List Flag} {top : Level},
    top.subcommand = none → top.pending = none → top.bare = false → f ∉ front →
    readFrom top (front.map Flag.word ++ s.word :: ws) = .ok i →
    readFrom (top.give f) (front.map Flag.word ++ s.word :: ws) = .ok (i.give f)
  | [], top, _, _, hb, _, h => by
    rw [List.map_nil, List.nil_append, readFrom_subcommand s ws hb, readSubcommand_eq_ok] at h
    obtain ⟨g, hg, rfl⟩ := h
    rw [List.map_nil, List.nil_append, readFrom_subcommand s ws (by simpa using hb), readSubcommand_eq_ok]
    exact ⟨g, hg, (invocation_give top g s f).symm⟩
  | f' :: front, top, hs, hp, hb, hf, h => by
    obtain ⟨hne, hf⟩ := List.ne_and_not_mem_of_not_mem_cons hf
    rw [List.map_cons, List.cons_append, readFrom_flag f' _ hs hp hb] at h
    rw [List.map_cons, List.cons_append, readFrom_flag f' _ (by simpa using hs) (by simpa using hp) (by simpa using hb)]
    rw [Level.switch] at h ⊢
    split at h
    · cases h
    · next hnew =>
      have hnew' : ¬ (top.give f).has f' = true := by
        rw [Level.has_give, decide_eq_false (Ne.symm hne)]
        exact hnew
      have hrest := readFrom_give (by simpa using hs) (by simpa using hp) (by simpa using hb) hf h
      rw [if_neg hnew', Except.bind, Level.give_comm]
      exact hrest

/-- **The reader of words is lawful.** -/
theorem lawful_ofWords : Lawful ofWords where
  bare s := by cases s <;> rfl
  path s p hp := by
    refine ofWords_subcommand.2 ⟨{ Level.start (some s) with path := some p }, ?_, by cases s <;> rfl⟩
    have hread : (Level.start (some s)).read p = .ok { Level.start (some s) with pending := some (.path p) } := by
      rw [Level.read_word rfl (Word.ofString_of_isValue hp)]
      rfl
    refine Level.ends_cons.2 ⟨_, hread, ?_⟩
    have hvalue : ¬ p.isEmpty = true := by simpa using hp.1
    exact if_neg hvalue
  flag s f pre post i hf hpre hread hnew := by
    obtain ⟨g, hg, rfl⟩ := ofWords_subcommand.1 hread
    have hfree : g.has f = false := by
      cases f <;> simpa [invocation, has, Level.has, Level.start] using hnew
    have hends := Level.ends_insert (a := .flag f) hpre (.inr hf) hg hfree
    rw [List.append_assoc] at hends
    refine ofWords_subcommand.2 ⟨_, hends, ?_⟩
    cases f <;> simp [invocation, give, Argument.onto, Level.give, Level.start]
  output s form x pre post i hs hx hpre hread hnew := by
    obtain ⟨g, hg, rfl⟩ := ofWords_subcommand.1 hread
    have hout : g.output = none := by cases s <;> [cases hs; cases hs; exact hnew]
    have hfree : Argument.Free g (.output form x) := ⟨hout, by simp [Level.pending_of_ends hg]⟩
    have hends := Level.ends_insert (a := .output form x) hpre ⟨by simpa using hs, hx⟩ hg hfree
    refine ofWords_subcommand.2 ⟨_, hends, ?_⟩
    cases s <;> [cases hs; cases hs; rfl]
  front s f front ws i _ hread hnew := by
    have hgive : (Level.start none).switch (.flag f) = .ok ((Level.start none).give f) := by cases f <;> rfl
    rw [ofWords, readFrom_flag f _ rfl rfl rfl, hgive]
    exact readFrom_give rfl rfl rfl hnew hread

end MiniLang.Invocation
