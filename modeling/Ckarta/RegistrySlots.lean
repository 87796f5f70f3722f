import Mathlib.Logic.Function.Basic
import Ckarta.RegistryCalls
import Ckarta.StepHistory

/-!
Slots and handles. A handle packs the slot and its generation; the generation of a slot
is a function of how many registrations were tried on it, so it repeats only after
2^32 - 1 of them.
-/
namespace CkartaRegistrySlots
open MachineWord StepHistory CkartaConnection CkartaConnectionRegistry CkartaRegistryCalls

/-- The registry with a count of the registrations that were tried on each slot. -/
structure CountedRegistry where
  registry : ConnectionRegistry
  attempts : Nat → Nat

def countedStep (s : CountedRegistry) (op : Op) : Option (CountedRegistry × Reply) :=
  let (reply, registry) := call s.registry op
  some (⟨registry, match attemptedSlot s.registry op with
    | some index => Function.update s.attempts index (s.attempts index + 1)
    | none => s.attempts⟩, reply)

def counted : CountedRegistry := ⟨ckConnectionRegistryInit, fun _ => 0⟩

/-- The generation of a slot after so many registrations were tried on it. -/
def generationAfter : Nat → Nat
  | 0 => 0
  | n + 1 => n % 4294967295 + 1

structure Sound (s : CountedRegistry) : Prop where
  ready : s.registry.initialized = true
  slot : ∀ i, (s.registry.entries i).active = true → i < registryCapacity ∧ 0 < s.attempts i
  generation : ∀ i, (s.registry.entries i).generation = generationAfter (s.attempts i)

theorem generationAfter_lt (n : Nat) : generationAfter n < 4294967296 := by
  cases n with
  | zero => decide
  | succ n =>
    simp only [generationAfter]
    omega

theorem generationAfter_pos {n : Nat} (tried : 0 < n) : 0 < generationAfter n := by
  cases n with
  | zero => omega
  | succ n =>
    simp only [generationAfter]
    omega

theorem nextGeneration_after (n : Nat) :
    nextGeneration (generationAfter n) = generationAfter (n + 1) := by
  cases n with
  | zero => decide
  | succ n =>
    have generation : generationAfter (n + 1) = n % 4294967295 + 1 := rfl
    have next : generationAfter (n + 1 + 1) = (n + 1) % 4294967295 + 1 := rfl
    rw [generation, next]
    unfold nextGeneration
    by_cases wraps : (n % 4294967295 + 1 + 1) % 4294967296 = 0
    · rw [if_pos wraps]
      omega
    · rw [if_neg wraps]
      omega

/-- Generations repeat only after 2^32 - 1 registrations. -/
theorem generationAfter_distinct {m n : Nat} (tried : 0 < m) (less : m < n)
    (near : n < m + 4294967295) : generationAfter n ≠ generationAfter m := by
  obtain ⟨m, rfl⟩ : ∃ k, m = k + 1 := ⟨m - 1, by omega⟩
  obtain ⟨n, rfl⟩ : ∃ k, n = k + 1 := ⟨n - 1, by omega⟩
  simp only [generationAfter]
  omega

theorem decodeHandle_iff {handle : Handle} {index generation : Nat} :
    decodeHandle handle.val = some (index, generation) ↔
      index < registryCapacity ∧ 0 < generation ∧ generation < 4294967296 ∧
        handle.val = generation * 4294967296 + (index + 1) := by
  have small := handle.isLt
  have capacity : registryCapacity = 256 := rfl
  unfold decodeHandle
  by_cases zero : handle.val = 0
  · rw [if_pos zero]
    simp only [reduceCtorEq, false_iff]
    omega
  · rw [if_neg zero]
    dsimp only
    by_cases slot : handle.val % 4294967296 = 0 ∨ handle.val % 4294967296 > registryCapacity
    · rw [if_pos slot]
      simp only [reduceCtorEq, false_iff]
      omega
    · rw [if_neg slot]
      by_cases none : handle.val / 4294967296 % 4294967296 = 0
      · rw [if_pos none]
        simp only [reduceCtorEq, false_iff]
        omega
      · rw [if_neg none]
        simp only [Option.some.injEq, Prod.mk.injEq]
        omega

theorem makeHandle_val {index generation : Nat} (slot : index < registryCapacity)
    (small : generation < 4294967296) :
    (makeHandle index generation).val = generation * 4294967296 + (index + 1) := by
  simp only [registryCapacity] at slot
  exact Nat.mod_eq_of_lt (by omega)

theorem makeHandle_inj {i j g k : Nat} (first : i < registryCapacity) (second : j < registryCapacity)
    (small : g < 4294967296) (also : k < 4294967296) (same : makeHandle i g = makeHandle j k) :
    i = j ∧ g = k := by
  have words := congrArg Fin.val same
  rw [makeHandle_val first small, makeHandle_val second also] at words
  simp only [registryCapacity] at first second
  constructor <;> omega

theorem find_decodes {registry : ConnectionRegistry} {handle : Handle} {index : Nat} :
    find registry handle = some index ↔ (registry.entries index).active = true ∧
      decodeHandle handle.val = some (index, (registry.entries index).generation) := by
  unfold find registryFind
  cases decodeHandle handle.val with
  | none => simp
  | some parts =>
    obtain ⟨i, generation⟩ := parts
    simp only [ConnectionRegistry.core, Bool.or_eq_true, Bool.not_eq_eq_eq_not, Bool.not_true, bne_iff_ne,
      ne_eq, Option.ite_none_left_eq_some, not_or, Bool.not_eq_false, not_not, Option.some.injEq,
      Prod.mk.injEq]
    constructor
    · rintro ⟨⟨active, same⟩, rfl⟩
      exact ⟨active, rfl, same.symm⟩
    · rintro ⟨active, rfl, same⟩
      exact ⟨⟨active, same.symm⟩, rfl⟩

theorem Sound.small {s : CountedRegistry} (sound : Sound s) (index : Nat) :
    (s.registry.entries index).generation < 4294967296 := by
  rw [sound.generation index]
  exact generationAfter_lt _

theorem find_iff {s : CountedRegistry} (sound : Sound s) {handle : Handle} {index : Nat} :
    find s.registry handle = some index ↔ (s.registry.entries index).active = true ∧
      handle = makeHandle index (s.registry.entries index).generation := by
  rw [find_decodes]
  constructor
  · rintro ⟨active, decoded⟩
    obtain ⟨slot, -, -, word⟩ := decodeHandle_iff.mp decoded
    refine ⟨active, ?_⟩
    apply Fin.ext
    rw [makeHandle_val slot (sound.small index), word]
  · rintro ⟨active, rfl⟩
    obtain ⟨slot, tried⟩ := sound.slot index active
    have positive := generationAfter_pos tried
    rw [← sound.generation index] at positive
    exact ⟨active, decodeHandle_iff.mpr
      ⟨slot, positive, sound.small index, makeHandle_val slot (sound.small index)⟩⟩

theorem action_generation (op : Op) (index : Nat) (entry : Entry) :
    (action op index entry).2.generation = entry.generation := by
  cases op <;> simp only [action]
  all_goals split
  all_goals simp

theorem action_active {op : Op} {index : Nat} {entry : Entry}
    (active : (action op index entry).2.active = true) : entry.active = true := by
  revert active
  cases op <;> simp only [action] <;> first | exact id | (split <;> simp)

theorem sound_counted : Sound counted :=
  ⟨rfl, fun _ active => Bool.noConfusion active, fun _ => rfl⟩

theorem sound_step {s t : CountedRegistry} {op : Op} {reply : Reply} (sound : Sound s)
    (next : countedStep s op = some (t, reply)) : Sound t := by
  simp only [countedStep, Option.some.injEq, Prod.mk.injEq] at next
  obtain ⟨rfl, -⟩ := next
  rcases call_changes s.registry op with ⟨result, -, refused, untried⟩ | ⟨index, acts⟩ | ⟨index, registers⟩
  · simp only [refused, untried]
    exact sound
  · simp only [acts.result, acts.untried]
    refine ⟨sound.ready, ?_, ?_⟩
    · intro i active
      by_cases here : i = index
      · subst here
        rw [set_same] at active
        exact sound.slot i (action_active active)
      · rw [set_other _ _ here] at active
        exact sound.slot i active
    · intro i
      by_cases here : i = index
      · subst here
        rw [set_same, action_generation]
        exact sound.generation i
      · rw [set_other _ _ here]
        exact sound.generation i
  · simp only [registers.changed, registers.tried]
    refine ⟨sound.ready, ?_, ?_⟩
    · intro i active
      dsimp only at active ⊢
      by_cases here : i = index
      · subst here
        rw [Function.update_self]
        exact ⟨registers.slot, Nat.succ_pos _⟩
      · rw [set_other _ _ here] at active
        rw [Function.update_of_ne here]
        exact sound.slot i active
    · intro i
      dsimp only
      by_cases here : i = index
      · subst here
        rw [set_same, Function.update_self, ← nextGeneration_after, ← sound.generation i]
      · rw [set_other _ _ here, Function.update_of_ne here]
        exact sound.generation i

theorem sound_runs {history : List (Op × Reply)} {s t : CountedRegistry} (sound : Sound s)
    (runs : Runs countedStep s history t) : Sound t :=
  runs.invariant (fun _ t => Sound t) sound fun _ kept next => sound_step kept next

end CkartaRegistrySlots
