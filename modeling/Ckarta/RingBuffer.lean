import Mathlib.Data.List.Basic
import Mathlib.Logic.Function.Basic

/- A ring of slots with a head and a count: what it holds, and how storing behind the last
   element and taking the first one change that. The capacity is any positive number. -/
namespace RingBuffer

variable {α : Type}

/-- The elements from head on, in order. -/
def contents (capacity : Nat) (slots : Nat → α) (head count : Nat) : List α :=
  (List.range count).map fun i => slots ((head + i) % capacity)

@[simp] theorem contents_length (capacity : Nat) (slots : Nat → α) (head count : Nat) :
    (contents capacity slots head count).length = count := by
  simp [contents]

theorem contents_empty (capacity : Nat) (slots : Nat → α) (head : Nat) :
    contents capacity slots head 0 = [] := rfl

theorem place_ne {capacity head i count : Nat} (less : i < count) (room : count < capacity) :
    (head + i) % capacity ≠ (head + count) % capacity := by
  intro same
  have gap : capacity ∣ head + count - (head + i) :=
    Nat.dvd_of_mod_eq_zero (Nat.sub_mod_eq_zero_of_mod_eq same.symm)
  have short := Nat.le_of_dvd (by omega) gap
  omega

theorem contents_free {capacity count : Nat} (slots : Nat → α) (head : Nat) (x : α)
    (room : count < capacity) :
    contents capacity (Function.update slots ((head + count) % capacity) x) head count =
      contents capacity slots head count := by
  unfold contents
  apply List.map_congr_left
  intro i inside
  rw [Function.update_of_ne (place_ne (List.mem_range.mp inside) room)]

theorem contents_store {capacity count : Nat} (slots : Nat → α) (head : Nat) (x : α)
    (room : count < capacity) :
    contents capacity (Function.update slots ((head + count) % capacity) x) head (count + 1) =
      contents capacity slots head count ++ [x] := by
  have kept := contents_free slots head x room
  unfold contents at kept ⊢
  rw [List.range_succ, List.map_append, kept]
  simp

theorem contents_take {capacity head : Nat} (slots : Nat → α) (count : Nat) (inside : head < capacity) :
    contents capacity slots head (count + 1) =
      slots head :: contents capacity slots ((head + 1) % capacity) count := by
  unfold contents
  rw [List.range_succ_eq_map, List.map_cons, Nat.add_zero, Nat.mod_eq_of_lt inside, List.map_map]
  congr 1
  apply List.map_congr_left
  intro i _
  have place : (head + (i + 1)) % capacity = ((head + 1) % capacity + i) % capacity := by
    rw [Nat.mod_add_mod]
    congr 1
    omega
  simp [place]

theorem place_next {capacity head count : Nat} :
    ((head + count) % capacity + 1) % capacity = (head + (count + 1)) % capacity := by
  rw [Nat.mod_add_mod, Nat.add_assoc]

theorem place_back {capacity place : Nat} (inside : place < capacity) :
    ((place + 1) % capacity + capacity - 1) % capacity = place := by
  by_cases last : place + 1 = capacity
  · rw [last, Nat.mod_self, Nat.zero_add, Nat.mod_eq_of_lt (by omega)]
    omega
  · rw [Nat.mod_eq_of_lt (by omega : place + 1 < capacity)]
    have back : place + 1 + capacity - 1 = place + capacity := by omega
    rw [back, Nat.add_mod_right, Nat.mod_eq_of_lt inside]

end RingBuffer
