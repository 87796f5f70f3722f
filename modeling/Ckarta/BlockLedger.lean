import Mathlib.Data.List.Nodup
import Mathlib.Logic.Function.Basic

/-!
A heap as malloc and free see it, and a table of owners. live are the blocks handed out and
not given back, wild the addresses that were given to free and were not live.
-/
namespace BlockLedger

structure Heap where
  live : List Nat
  wild : List Nat
  deriving DecidableEq, Repr

def Heap.empty : Heap := ⟨[], []⟩

def Heap.malloc (heap : Heap) (answer : Option Nat) : Heap := { heap with live := answer.toList ++ heap.live }

def Heap.free (heap : Heap) : Option Nat → Heap
  | none => heap
  | some address =>
    if address ∈ heap.live then { heap with live := heap.live.erase address }
    else { heap with wild := address :: heap.wild }

/-- The heap holds these blocks, each once, and nothing wild was freed. -/
structure Heap.Holds (heap : Heap) (blocks : List Nat) : Prop where
  live : heap.live.Perm blocks
  wild : heap.wild = []

theorem empty_holds : Heap.empty.Holds [] := ⟨.refl _, rfl⟩

theorem Heap.Holds.malloc {heap : Heap} {blocks : List Nat} (holds : heap.Holds blocks) (answer : Option Nat) :
    (heap.malloc answer).Holds (answer.toList ++ blocks) :=
  ⟨holds.live.append_left _, holds.wild⟩

theorem Heap.Holds.perm {heap : Heap} {blocks other : List Nat} (holds : heap.Holds blocks)
    (same : blocks.Perm other) : heap.Holds other :=
  ⟨holds.live.trans same, holds.wild⟩

theorem Heap.Holds.free {heap : Heap} {blocks : List Nat} (pointer : Option Nat)
    (holds : heap.Holds (pointer.toList ++ blocks)) : (heap.free pointer).Holds blocks := by
  cases pointer with
  | none => exact holds
  | some address =>
    have inside : address ∈ heap.live := holds.live.mem_iff.mpr (by simp)
    have freed : heap.free (some address) = { heap with live := heap.live.erase address } := if_pos inside
    rw [freed]
    refine ⟨?_, holds.wild⟩
    have rest := holds.live.erase address
    simpa using rest

theorem free_sublist (heap : Heap) (pointer : Option Nat) : (heap.free pointer).live.Sublist heap.live := by
  cases pointer with
  | none => exact List.Sublist.refl _
  | some address =>
    unfold Heap.free
    dsimp only
    split
    · exact List.erase_sublist
    · exact List.Sublist.refl _

section
variable {α : Type}

def holdings (count : Nat) (owned : Nat → List α) : List α := (List.range count).flatMap owned

theorem mem_holdings {count index : Nat} {owned : Nat → List α} {item : α} (below : index < count)
    (inside : item ∈ owned index) : item ∈ holdings count owned :=
  List.mem_flatMap.mpr ⟨index, List.mem_range.mpr below, inside⟩

theorem holdings_change {count index : Nat} {owned other : Nat → List α} (below : index < count)
    (away : ∀ i, i ≠ index → other i = owned i) :
    (owned index ++ holdings count other).Perm (other index ++ holdings count owned) := by
  induction count with
  | zero => cases below
  | succ count ih =>
    unfold holdings at ih ⊢
    rw [List.range_succ, List.flatMap_append, List.flatMap_append, List.flatMap_singleton,
      List.flatMap_singleton]
    by_cases last : index = count
    · subst last
      have before : (List.range index).flatMap other = (List.range index).flatMap owned := by
        apply List.flatMap_congr
        intro i inside
        exact away i (Nat.ne_of_lt (List.mem_range.mp inside))
      rw [before]
      have swapped : (owned index ++ (other index ++ (List.range index).flatMap owned)).Perm
          (other index ++ (owned index ++ (List.range index).flatMap owned)) := List.perm_append_comm_assoc _ _ _
      exact (List.perm_append_comm.append_left _).trans (swapped.trans (List.perm_append_comm.append_left _))
    · rw [away count (Ne.symm last), ← List.append_assoc, ← List.append_assoc]
      exact (ih (by omega)).append_right _

theorem holdings_length {count size : Nat} {owned : Nat → List α} {holds : Nat → Bool}
    (each : ∀ index, (owned index).length = if holds index then size else 0) :
    (holdings count owned).length = size * (List.range count).countP holds := by
  unfold holdings
  induction count with
  | zero => rfl
  | succ count ih =>
    rw [List.range_succ, List.flatMap_append, List.flatMap_singleton, List.length_append, ih, each,
      List.countP_append, List.countP_singleton, Nat.mul_add]
    split <;> simp

end

end BlockLedger
