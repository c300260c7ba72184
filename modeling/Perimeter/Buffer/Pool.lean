import Perimeter.Misuse
import Perimeter.Word

/-!
# Buffer pools

Buffers are kept on shelves by size class, so that work on images of one size does not allocate
again and again. A buffer comes back with whatever it held. Taking one cleans the part that is handed
out. Which of the buffers on its shelf a request gets, or whether it gets a new one, is the pool's
choice.

`Pool.request` computes its class in words and checks what it cuts, so it can fail. `Pool.take` is what a
request gives as long as the class is a word.
-/

namespace Perimeter

/-- A buffer: the cells of which the first `length` are in use. -/
structure Buffer (α : Type) where
  cells : Array α
  length : Nat
  length_le : length ≤ cells.size

namespace Buffer

/-- The cells in use. -/
def content {α : Type} (b : Buffer α) : Array α := b.cells.extract 0 b.length

/-- The number of cells, used or not. -/
def capacity {α : Type} (b : Buffer α) : Nat := b.cells.size

/-- The first `n` of some cells. More than there are is a misuse. -/
def slice {α : Type} (cells : Array α) (n : Int) : Except Misuse (Buffer α) :=
  if h : 0 ≤ n ∧ n ≤ cells.size then .ok ⟨cells, n.toNat, Int.toNat_le.2 h.2⟩
  else .error (.outsideBuffer n)

/-- The same cells, with those of `xs` in place of the ones in use, as far as they go. -/
def write {α : Type} (b : Buffer α) (xs : Array α) : Buffer α where
  cells := Array.ofFn fun (i : Fin b.cells.size) =>
    if i.val < b.length then xs.getD i.val b.cells[i] else b.cells[i]
  length := b.length
  length_le := by simpa using b.length_le

/-- The same cells, with `x` in all that are in use. -/
def fill {α : Type} (b : Buffer α) (x : α) : Buffer α where
  cells := Array.ofFn fun (i : Fin b.cells.size) => if i.val < b.length then x else b.cells[i]
  length := b.length
  length_le := by simpa using b.length_le

end Buffer

/-- The size class of a request: the least multiple of 1024 that holds it, and 1024 at least. -/
def sizeClass (n : Nat) : Nat := if n ≤ 1024 then 1024 else (n + 1023) / 1024 * 1024

theorem le_sizeClass (n : Nat) : n ≤ sizeClass n := by
  simp only [sizeClass]
  split <;> omega

/-- The size class of a request, computed in words. -/
def wordClass (n : Int) : Int :=
  if n ≤ 1024 then 1024 else wrap64 ((wrap64 (n + 1023)).tdiv 1024 * 1024)

/-- The buffers that were given back, each with the class of its shelf. -/
structure Pool (α : Type) where
  shelved : List (Nat × Buffer α) := []

namespace Pool

/-- Puts a buffer on the shelf of its capacity. Giving back nothing does nothing. -/
def give {α : Type} (p : Pool α) : Option (Buffer α) → Pool α
  | none => p
  | some b =>
    ⟨(sizeClass b.capacity,
      { cells := b.cells, length := b.cells.size, length_le := Nat.le_refl _ }) :: p.shelved⟩

/-- A new buffer of the class of a request, all cells `zero`, of which `n` are in use. -/
def fresh {α : Type} (zero : α) (n : Nat) : Buffer α where
  cells := Array.replicate (sizeClass n) zero
  length := n
  length_le := by simpa using le_sizeClass n

/-- A buffer for `n` cells over the cells of `b`, cleaned; a new one if `b` is too small. -/
def reuse {α : Type} (zero : α) (n : Nat) (b : Buffer α) : Buffer α :=
  if h : sizeClass n ≤ b.cells.size then
    Buffer.fill ⟨b.cells, n, Nat.le_trans (le_sizeClass n) h⟩ zero
  else fresh zero n

/-- Picks a buffer of a class. With a `choice` it is the one at that place among those of the class, if
there is one, and it is off its shelf then; otherwise it is none. -/
def pick {α : Type} (p : Pool α) (cls : Int) (choice : Option Nat) : Option (Buffer α) × Pool α :=
  let onShelf := p.shelved.zipIdx.filter fun e => (e.1.1 : Int) == cls
  match choice.bind fun k => onShelf[k]? with
  | some ((_, b), place) => (some b, ⟨p.shelved.eraseIdx place⟩)
  | none => (none, p)

/-- Takes a buffer for `n` cells: the one that the pool picks, or a new one. -/
def take {α : Type} (p : Pool α) (zero : α) (n : Nat) (choice : Option Nat) : Buffer α × Pool α :=
  match p.pick (sizeClass n) choice with
  | (some b, p) => (reuse zero n b, p)
  | (none, p) => (fresh zero n, p)

/-- New cells of a class, all `zero`. A class that is negative is a misuse. Memory for the cells is taken to
be there. -/
def newCells {α : Type} (zero : α) (cls : Int) : Except Misuse (Array α) :=
  if cls < 0 then .error (.impossibleCapacity cls) else .ok (Array.replicate cls.toNat zero)

/-- Asks for a buffer of `n` cells, none if `n` is negative. A buffer that the pool picks and that is too
small for its class is dropped for a new one. -/
def request {α : Type} (p : Pool α) (zero : α) (n : Int) (choice : Option Nat) :
    Except Misuse (Buffer α × Pool α) := do
  let n := max n 0
  let cls := wordClass n
  let (found, p) := p.pick cls choice
  let cells ← match found with
    | some b => if (b.cells.size : Int) < cls then newCells zero cls else .ok b.cells
    | none => newCells zero cls
  let b ← Buffer.slice cells n
  .ok (b.fill zero, p)

end Pool

end Perimeter
