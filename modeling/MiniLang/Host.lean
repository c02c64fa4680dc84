import MiniLang.Files.Tree
/-!
# Hosts

What a compilation asks of the machine it runs on: to look at files, to read and to write them whole, and to take the
texts of its two output streams.  A session is such a machine in memory, and a lawful one is seen as a session: a file is
written whole or, for whatever reason, not at all.
-/
namespace MiniLang

class Host (m : Type → Type) where
  isFile : String → m Bool
  isThere : String → m Bool
  read : String → m (Except FileError String)
  write : String → String → m (Except FileError Unit)
  out : String → m Unit
  err : String → m Unit

/-- A tree of files, and what was put out. -/
structure Session where
  files : FileTree
  out : String
  err : String

namespace Session

def start (files : FileTree) : Session := ⟨files, "", ""⟩

def write (s : Session) (p text : String) : Except FileError Unit × Session :=
  match s.files.write p text with
  | .ok files => (.ok (), { s with files })
  | .error e => (.error e, s)

instance : Host (StateM Session) where
  isFile p := fun s => (s.files.isFile p, s)
  isThere p := fun s => (s.files.isThere p, s)
  read p := fun s => (s.files.read p, s)
  write p text := fun s => s.write p text
  out text := fun s => ((), { s with out := s.out ++ text })
  err text := fun s => ((), { s with err := s.err ++ text })

end Session

section

variable {σ τ : Type}

/-- Seen through `view`, `x` answers what `y` does and leaves what `y` leaves. -/
def Sees {α : Type} (view : σ → τ) (x : StateM σ α) (y : StateM τ α) : Prop :=
  ∀ s, y.run (view s) = ((x.run s).1, view (x.run s).2)

/-- Seen through `view`, one machine does to the paths in `P` what another does. -/
structure Mirrors [Host (StateM σ)] [Host (StateM τ)] (view : σ → τ) (P : String → Prop) : Prop where
  isFile (p : String) : P p → Sees view (Host.isFile p) (Host.isFile p)
  isThere (p : String) : P p → Sees view (Host.isThere p) (Host.isThere p)
  read (p : String) : P p → Sees view (Host.read p) (Host.read p)
  write (p text : String) : P p → Sees view (Host.write p text) (Host.write p text)
  out (text : String) : Sees view (Host.out text) (Host.out text)
  err (text : String) : Sees view (Host.err text) (Host.err text)

end

/-- A machine that does to every path what a session does. -/
class LawfulHost (σ : Type) [Host (StateM σ)] where
  view : σ → Session
  mirrors : Mirrors view fun _ => True

instance : LawfulHost Session where
  view := id
  mirrors := ⟨fun _ _ _ => rfl, fun _ _ _ => rfl, fun _ _ _ => rfl, fun _ _ _ _ => rfl, fun _ _ => rfl, fun _ _ => rfl⟩

end MiniLang
