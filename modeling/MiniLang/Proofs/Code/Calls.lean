import MiniLang.Proofs.Code.Lowering
/-!
# Calls of a builder

What a builder answers to calls in any order, and what it has written at any moment between them.  One call takes a
temporary or none and writes an instruction or none (`served_call`); a run of calls does this one after the other
(`served_run`).  So the names handed out are `t0`, `t1`, … in call order, all of them different, and the code is what
the calls so far have written (`served_in_order`).
-/
namespace MiniLang

/-- What may be asked of a builder. -/
inductive Call where
  | nextTemporary
  | binary (lhs : String) (op : Op) (rhs : String)
  | copy (dest src : String)
  deriving DecidableEq, Repr

namespace Call

/-- Whether the call is answered with a temporary. -/
def isNaming : Call → Bool
  | nextTemporary | binary .. => true
  | copy .. => false

/-- The instruction that a call writes, given what it was answered. -/
def written? : Call × Option String → Option Instr
  | (nextTemporary, _) => none
  | (binary lhs op rhs, answer) => answer.map fun dest => .binary dest lhs op rhs
  | (copy dest src, _) => some (.copy dest src)

end Call

namespace Builder

def call (b : Builder) : Call → Option String × Builder
  | .nextTemporary => (some b.nextTemporary.1, b.nextTemporary.2)
  | .binary lhs op rhs => (some (b.binary lhs op rhs).1, (b.binary lhs op rhs).2)
  | .copy dest src => (none, b.copy dest src)

/-- The calls with their answers, and the builder behind the last of them. -/
def run (b : Builder) : List Call → List (Call × Option String) × Builder
  | [] => ([], b)
  | c :: cs =>
    let (answer, b) := b.call c
    let (served, b) := b.run cs
    ((c, answer) :: served, b)

theorem run_append (b : Builder) (cs ds : List Call) :
    b.run (cs ++ ds) = ((b.run cs).1 ++ ((b.run cs).2.run ds).1, ((b.run cs).2.run ds).2) := by
  induction cs generalizing b with
  | nil => rfl
  | cons c cs ih =>
    simp only [List.cons_append, run, ih]

/-- The calls `cs` lead from `b` to `b'` with the answers in `served`. -/
structure Served (b : Builder) (cs : List Call) (served : List (Call × Option String)) (b' : Builder) : Prop where
  calls : served.map Prod.fst = cs
  answered : ∀ s ∈ served, s.2.isSome = s.1.isNaming
  names : served.filterMap Prod.snd = (List.range' b.temps (cs.countP Call.isNaming)).map temporary
  temps : b'.temps = b.temps + cs.countP Call.isNaming
  code : b'.code = b.code ++ served.filterMap Call.written?

theorem Served.append {b b' b'' : Builder} {cs ds : List Call} {served later : List (Call × Option String)}
    (h : b.Served cs served b') (h' : b'.Served ds later b'') : b.Served (cs ++ ds) (served ++ later) b'' where
  calls := by rw [List.map_append, h.calls, h'.calls]
  answered := List.forall_mem_append.2 ⟨h.answered, h'.answered⟩
  names := by rw [List.filterMap_append, h.names, h'.names, h.temps, List.countP_append, ← List.map_append,
    List.range'_append_1]
  temps := by rw [h'.temps, h.temps, List.countP_append, Nat.add_assoc]
  code := by rw [h'.code, h.code, List.filterMap_append, List.append_assoc]

/-- **One call** takes a temporary or none and writes an instruction or none. -/
theorem served_call (b : Builder) (c : Call) : b.Served [c] [(c, (b.call c).1)] (b.call c).2 := by
  cases c with
  | nextTemporary =>
    exact ⟨rfl, by simp [call, Call.isNaming], rfl, rfl, (List.append_nil _).symm⟩
  | binary lhs op rhs =>
    exact ⟨rfl, by simp [call, Call.isNaming], rfl, rfl, b.code_binary lhs op rhs⟩
  | copy dest src =>
    exact ⟨rfl, by simp [call, Call.isNaming], rfl, rfl, b.code_copy dest src⟩

/-- **A run of calls** serves them one after the other. -/
theorem served_run : ∀ (cs : List Call) (b : Builder), b.Served cs (b.run cs).1 (b.run cs).2
  | [], _ => ⟨rfl, List.forall_mem_nil _, rfl, rfl, (List.append_nil _).symm⟩
  | c :: cs, b => (b.served_call c).append (served_run cs (b.call c).2)

/-- **What a builder has done at any moment.**  However calls are mixed, the names handed out so far are `t0`, `t1`, …
in call order, no two of them alike; the counter is the number of calls that were answered with a name; and the code is
what the calls so far have written, in call order and each operation into the name it was answered with.  What is called
later leaves all this in front. -/
theorem served_in_order (cs later : List Call) :
    let (served, b) := empty.run cs
    let (served', b') := b.run later
    empty.run (cs ++ later) = (served ++ served', b') ∧
      served.map Prod.fst = cs ∧ (∀ s ∈ served, s.2.isSome = s.1.isNaming) ∧
      served.filterMap Prod.snd = (List.range (cs.countP Call.isNaming)).map temporary ∧
      (served.filterMap Prod.snd).Nodup ∧
      b.temps = cs.countP Call.isNaming ∧
      b.code = served.filterMap Call.written? ∧ b.code <+: b'.code := by
  have h := served_run cs empty
  have hlater := served_run later (empty.run cs).2
  have hnames : (empty.run cs).1.filterMap Prod.snd = (List.range (cs.countP Call.isNaming)).map temporary := by
    rw [h.names, List.range_eq_range']
    rfl
  refine ⟨run_append empty cs later, h.calls, h.answered, hnames, ?_, ?_, h.code, ?_⟩
  · rw [hnames]
    exact nodup_temporaries _
  · exact h.temps.trans (Nat.zero_add _)
  · rw [hlater.code]
    exact List.prefix_append _ _

/-- A temporary that is asked for alone takes a number and leaves no instruction, a copy the other way round. -/
example : empty.run [.nextTemporary, .copy "a" "b", .binary "2" .mul "a"] =
    ([(.nextTemporary, some "t0"), (.copy "a" "b", none), (.binary "2" .mul "a", some "t1")],
      ⟨[.binary "t1" "2" .mul "a", .copy "a" "b"], 2⟩) := rfl

end Builder

end MiniLang
