import Mathlib

/-!
# Repeating a sequence of writes

A write sets some cells of a memory to fixed values and leaves the others.  A
memory is *settled* under a sequence of writes when running the whole sequence
again changes nothing.  A memory stays settled when one more write of the
sequence is done, and when something else changes cells that no write of the
sequence touches; so a sequence interleaved with such changes can be rerun at
the end without effect.
-/

set_option autoImplicit false

namespace EthgasReth.Lib

section Cells

variable {Cell Value : Type}

abbrev CellWrites (Cell Value : Type) := Cell → Option Value

def write (cells : CellWrites Cell Value) (memory : Cell → Value) : Cell → Value :=
  fun cell => (cells cell).getD (memory cell)

def writeAll (sequence : List (CellWrites Cell Value)) (memory : Cell → Value) : Cell → Value :=
  sequence.foldl (fun memory cells => write cells memory) memory

def Settled (sequence : List (CellWrites Cell Value)) (memory : Cell → Value) : Prop :=
  writeAll sequence memory = memory

@[simp] theorem writeAll_snoc (sequence : List (CellWrites Cell Value))
    (cells : CellWrites Cell Value) (memory : Cell → Value) :
    writeAll (sequence ++ [cells]) memory = write cells (writeAll sequence memory) := by
  simp [writeAll]

theorem writeAll_cell (sequence : List (CellWrites Cell Value)) (left right : Cell → Value)
    (cell : Cell) (same : left cell = right cell) :
    writeAll sequence left cell = writeAll sequence right cell := by
  induction sequence using List.reverseRecOn with
  | nil => exact same
  | append_singleton sequence cells ih => simp [write, ih]

theorem writeAll_untouched (sequence : List (CellWrites Cell Value)) (memory : Cell → Value)
    (cell : Cell) (untouched : ∀ cells ∈ sequence, cells cell = none) :
    writeAll sequence memory cell = memory cell := by
  induction sequence using List.reverseRecOn with
  | nil => rfl
  | append_singleton sequence cells ih =>
      have last : cells cell = none := untouched cells (by simp)
      have earlier := ih fun other member => untouched other (by simp [member])
      simp [write, last, earlier]

theorem settled_nil (memory : Cell → Value) : Settled [] memory := rfl

theorem Settled.write {sequence : List (CellWrites Cell Value)} {memory : Cell → Value}
    (settled : Settled sequence memory) (cells : CellWrites Cell Value) :
    Settled (sequence ++ [cells]) (write cells memory) := by
  funext cell
  rw [writeAll_snoc]
  cases written : cells cell with
  | some value => simp [Lib.write, written]
  | none =>
      have same : Lib.write cells memory cell = memory cell := by simp [Lib.write, written]
      calc Lib.write cells (writeAll sequence (Lib.write cells memory)) cell
          = writeAll sequence (Lib.write cells memory) cell := by simp [Lib.write, written]
        _ = writeAll sequence memory cell := writeAll_cell sequence _ _ cell same
        _ = memory cell := congrFun settled cell
        _ = Lib.write cells memory cell := same.symm

theorem Settled.frame {sequence : List (CellWrites Cell Value)} {memory other : Cell → Value}
    (settled : Settled sequence memory)
    (kept : ∀ cells ∈ sequence, ∀ cell, cells cell ≠ none → other cell = memory cell) :
    Settled sequence other := by
  funext cell
  by_cases untouched : ∀ cells ∈ sequence, cells cell = none
  · exact writeAll_untouched sequence other cell untouched
  · push Not at untouched
    obtain ⟨cells, member, touched⟩ := untouched
    have same := kept cells member cell touched
    rw [writeAll_cell sequence other memory cell same, congrFun settled cell, same]

end Cells

end EthgasReth.Lib
