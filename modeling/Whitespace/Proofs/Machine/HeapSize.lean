import Whitespace.Proofs.Machine.Memory
import Whitespace.Proofs.Machine.SideBySide

/-!
# The size of the heap

The size of the heap is a limit and nothing else. As long as no step looks for a cell outside of a
heap, the steps, what they come to and what they leave are the same with a larger one.

Results:
1. `Likeness.heapSizes`: heaps of two sizes that cannot be told apart within the smaller one.
2. `Machine.heap_size_only_limits`: machines with heaps of different sizes, side by side.
-/

namespace Whitespace

/-! ## Heaps of two sizes -/

/-- The cells of a heap, in a heap of another size. -/
def Heap.withSize (size : Nat) (h : Heap) : Heap :=
  { h with size := size }

theorem Heap.address?_withSize {h : Heap} {size : Nat} (le : h.size ≤ size) {address : Int}
    {cell : Nat} (inside : h.address? address = some cell) :
    (h.withSize size).address? address = some cell := by
  obtain ⟨rfl, hlt⟩ := address?_eq_some inside
  unfold address? withSize
  rw [if_pos (by simp only; omega), Int.toNat_natCast]

/-- A heap is alike to a larger one with the same cells. Past its own end both hold zero. -/
def Likeness.heapSizes {small large : Nat} (le : small ≤ large) : Likeness where
  Heaps h h' := h.size = small ∧ h.IsConfined ∧ h' = h.withSize large
  Consoles b c b' c' := b' = b ∧ c' = c
  inside := by
    rintro h _ address cell ⟨rfl, -, rfl⟩ inside
    exact Heap.address?_withSize le inside
  read := by
    rintro h _ ⟨-, -, rfl⟩ cell
    rfl
  write := by
    rintro h _ address cell ⟨size, confined, rfl⟩ inside value
    exact ⟨size, confined.write inside value, rfl⟩
  readChar := by
    rintro _ b c _ ⟨rfl, rfl⟩
    exact ⟨rfl, rfl, rfl⟩
  readLine := by
    rintro _ b c _ ⟨rfl, rfl⟩
    exact ⟨rfl, rfl, rfl⟩
  emit := by
    rintro _ b c _ ⟨rfl, rfl⟩ text
    exact ⟨rfl, rfl⟩

/-- The step looks for a cell that the heap does not have. -/
def Step.MissesHeap (s : Step) : Prop :=
  s.before.MissesHeap s.instruction

theorem Step.not_missesHeap_of_completes {s : Step} (completes : s.stop = none) :
    ¬s.MissesHeap := by
  intro misses
  obtain ⟨address, stops⟩ := misses.perform_stop
  cases completes.symm.trans stops

namespace Machine

variable {p : Program} {m wide : Machine} {made : List Step} {small large : Nat}

/-! ## Machines with heaps of two sizes -/

/-- The machines differ in the sizes of their heaps only. The cells that both heaps have hold the
same, and the others hold zero. -/
structure SameUpToHeapSize (small large : Nat) (m wide : Machine) : Prop where
  size : m.heap.size = small
  wide_size : wide.heap.size = large
  below : ∀ cell, cell < small → wide.heap.read cell = m.heap.read cell
  above : ∀ cell, small ≤ cell → wide.heap.read cell = 0
  stack : wide.stack = m.stack
  calls : wide.calls = m.calls
  pointer : wide.pointer = m.pointer
  done : wide.done = m.done
  executed : wide.executed = m.executed
  last : wide.last = m.last
  log : wide.log = m.log
  silent : wide.silent = m.silent
  console : wide.console = m.console

theorem sameUpToHeapSize {le : small ≤ large} (alike : (Likeness.heapSizes le).Machines m wide) :
    SameUpToHeapSize small large m wide := by
  obtain ⟨size, confined, heap⟩ := alike.heap
  obtain ⟨silent, console⟩ := alike.console
  exact { alike with
    size := size
    wide_size := by rw [heap]; rfl
    below := fun cell _ => by rw [heap]; rfl
    above := fun cell past => by rw [heap]; exact confined cell (size ▸ past)
    silent := silent
    console := console }

/-- The size of the heap is only a limit. As long as no step looks for a cell that the smaller heap
does not have, the machine with the larger one makes the same steps, and each of them completes or
fails alike. The machines are the same before every step and after the last, but for the cells that
only one of them has, which hold zero. And if a run ends after these steps, it ends alike with the
larger heap. -/
theorem heap_size_only_limits {silent : Bool} {console : Console} (le : small ≤ large)
    (course : Course p (start small silent console) made m) (hits : ∀ s ∈ made, ¬s.MissesHeap) :
    ∃ made' m', Course p (start large silent console) made' m' ∧
      List.Forall₂ (fun s s' => s'.instruction = s.instruction ∧ s'.stop = s.stop ∧
        SameUpToHeapSize small large s.before s'.before) made made' ∧
      SameUpToHeapSize small large m m' ∧ m'.next p = m.next p ∧
      ∀ {Notes : Type} (journal : Journal Notes) fuel observed,
        (start small silent console).run fuel .empty p journal = some observed →
          observed.machine = m →
          ∃ fuel' observed',
            (start large silent console).run fuel' .empty p journal = some observed' ∧
              observed'.machine = m' ∧ observed'.stop = observed.stop := by
  have started : (Likeness.heapSizes le).Machines (start small silent console)
      (start large silent console) :=
    ⟨rfl, rfl, ⟨rfl, Heap.isConfined_clear (.blank small), rfl⟩, rfl, rfl, rfl, rfl, rfl, rfl, rfl⟩
  obtain ⟨made', m', course', steps, alike⟩ :=
    course.alike started fun s hs => .inr (hits s hs)
  refine ⟨made', m', course', ?_, sameUpToHeapSize alike, alike.next p, ?_⟩
  · exact steps.imp fun s s' same => ⟨same.instruction, same.stop, sameUpToHeapSize same.before⟩
  · rintro Notes journal fuel observed ran rfl
    obtain ⟨more, runs⟩ := runsTo_of_run ran
    exact ((runs.of_course course).alike course' steps alike).exists_run journal

def storeOnce : Program :=
  .ofList
    [⟨.stack, .push, some (.number 0), some ⟨"once.stl", 1, 1⟩⟩,
      ⟨.stack, .push, some (.number 5), some ⟨"once.stl", 1, 5⟩⟩,
      ⟨.heap, .store, none, some ⟨"once.stl", 1, 12⟩⟩,
      ⟨.flow, .exit, none, some ⟨"once.stl", 1, 15⟩⟩]

/-- One cell is enough for that. With three cells the run ends in the same way, and the two others
hold zero. -/
theorem stored_in_larger_heap :
    Program.parse "once.stl" .stl "SSSLSSSTSTLTTSLLL" = .ok storeOnce ∧
      ∃ made m m' fuel observed, Course storeOnce (start 1 false (.ofText "")) made m ∧
        (∀ s ∈ made, ¬s.MissesHeap) ∧ SameUpToHeapSize 1 3 m m' ∧
        (start 3 false (.ofText "")).run fuel .empty storeOnce (⟨#[], ()⟩ : Journal Unit) =
          some observed ∧
        observed.machine = m' ∧ observed.stop = none ∧ m'.heap.read 0 = 5 := by
  obtain ⟨made, m, course, complete, done, holds⟩ : ∃ made m,
      Course storeOnce (start 1 false (.ofText "")) made m ∧ (∀ s ∈ made, s.stop = none) ∧
        m.done = true ∧ m.heap.read 0 = 5 := by
    refine ⟨[_, _, _, _], _, .cons rfl (.cons rfl (.cons rfl (.cons rfl .nil))), ?_, rfl, rfl⟩
    simp only [List.forall_mem_cons]
    exact ⟨rfl, rfl, rfl, rfl, List.forall_mem_nil _⟩
  have hits : ∀ s ∈ made, ¬s.MissesHeap :=
    fun s hs => Step.not_missesHeap_of_completes (complete s hs)
  have le : 1 ≤ 3 := by decide
  obtain ⟨made', m', -, -, same, -, ends⟩ := heap_size_only_limits le course hits
  obtain ⟨fuel, observed, ran, last, success⟩ :=
    (RunsTo.exited course complete done).exists_run (⟨#[], ()⟩ : Journal Unit)
  obtain ⟨fuel', observed', ran', last', success'⟩ := ends _ fuel observed ran last
  exact ⟨rfl, _, _, m', fuel', observed', course, hits, same, ran', last', success'.trans success,
    (same.below 0 (by decide)).trans holds⟩

end Machine

end Whitespace
