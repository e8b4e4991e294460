import Std.Data.TreeMap
import Whitespace.Text.ByteCount

/-!
# Heap

A heap is a row of cells, addressed from zero, that all hold zero at first. Only the cells that were
written are stored.
-/

namespace Whitespace

/-- A row of `size` cells. A cell that is not stored holds zero. -/
structure Heap where
  size : Nat
  cells : Std.TreeMap Nat Int

namespace Heap

/-- A heap that nothing was written to. -/
def blank (size : Nat) : Heap :=
  ⟨size, ∅⟩

def negativeSize (size : Int) : String :=
  "heap size must be non-negative, got " ++ Decimal.ofInt size

inductive SizeProblem where
  /-- The size is no signed 64-bit integer. -/
  | dimension
  /-- The number of bytes is no signed 64-bit integer. -/
  | byteCount
  /-- The memory has fewer bytes. -/
  | memory (size : Nat)
deriving DecidableEq, Repr

namespace SizeProblem

def name : SizeProblem → String
  | dimension | byteCount => "ValueError"
  | memory _ => "MemoryError"

def message : SizeProblem → String
  | dimension => "Maximum allowed dimension exceeded"
  | byteCount =>
    "array is too big; `arr.size * arr.dtype.itemsize` is larger than the maximum possible size."
  | memory size =>
    "Unable to allocate " ++ Text.byteCount (4 * size) ++ " for an array with shape (" ++
      Decimal.ofNat size ++ ",) and data type int32"

end SizeProblem

/-- The number of bytes that the cells of a heap may take, 32 GiB. -/
def memoryLimit : Nat := 0x800000000

/-- Why there is no room for a heap of a size, if there is none. A cell takes four bytes. -/
def sizeProblem? (size : Nat) : Option SizeProblem :=
  if 0x8000000000000000 ≤ size then some .dimension
  else if 0x2000000000000000 ≤ size then some .byteCount
  else if memoryLimit < 4 * size then some (.memory size)
  else none

/-- The cell that a number addresses; `none` outside of the heap. -/
def address? (h : Heap) (address : Int) : Option Nat :=
  if 0 ≤ address ∧ address < h.size then some address.toNat else none

def read (h : Heap) (address : Nat) : Int :=
  h.cells.getD address 0

def write (h : Heap) (address : Nat) (value : Int) : Heap :=
  { h with cells := h.cells.insert address value }

def clear (h : Heap) : Heap :=
  { h with cells := ∅ }

/-- The cells that do not hold zero, by ascending address. -/
def nonzero (h : Heap) : List (Nat × Int) :=
  h.cells.toList.filter fun cell => cell.2 ≠ 0

end Heap

end Whitespace
