import Mathlib.Data.Set.Card
import Ckarta.RegistrySlots

/-!
What the registry is for: a partial map from handles to connections, with room for 256.
Slots, generations and the words of the handles must not show, so every run of registry
calls is a run of the map with the same answers.
-/
namespace CkartaRegistryMap
open MachineWord StepHistory CkartaConnection CkartaConnectionRegistry CkartaRegistryCalls
open CkartaRegistrySlots

/-- A connection of the map: where its object lies and who uses it. -/
structure Record where
  address : Nat
  connection : OwnedConnection
  readerUsers : Nat
  outputUsers : Nat

abbrev ConnectionMap := Handle → Option Record

def Record.users (record : Record) : PinKind → Nat
  | .reader => record.readerUsers
  | .output => record.outputUsers

def Record.setUsers (record : Record) (kind : PinKind) (n : Nat) : Record :=
  match kind with
  | .reader => { record with readerUsers := n }
  | .output => { record with outputUsers := n }

def Full (m : ConnectionMap) : Prop := Set.ncard {handle | m handle ≠ none} = registryCapacity

/-- What a call does to the connection it names; none when it takes it out of the map. -/
def effect : Op → Record → Reply × Option Record
  | .register .., record => (answer (-1), some record)
  | .attachSocket _ socketFd, record =>
    let (result, connection) := ckConnectionAttachSocket record.connection socketFd
    (answer result, some { record with connection := connection })
  | .startAsyncCycle _ cycleId, record =>
    let (result, connection) := ckConnectionStartAsyncCycle record.connection.toConnection cycleId
    (answer result, some { record with
      connection := { record.connection with toConnection := connection } })
  | .tryTerminal _ _ event, record =>
    let (result, connection) := ckConnectionTryTerminal record.connection.toConnection event
    (answer result, some { record with
      connection := { record.connection with toConnection := connection } })
  | .acquire kind caller pin, record =>
    if unpackState record.connection.lifecycle = ConnectionState.closed.code ∨
        record.connection.object kind = none then (answerPin 1 pin, some record)
    else (answerPin 0 ⟨some record.address, record.connection.object kind, caller.handle⟩,
      some (record.setUsers kind ((record.users kind + 1) % 4294967296)))
  | .release kind pin, record =>
    if some record.address ≠ pin.connection ∨ record.connection.object kind ≠ pin.object ∨
        record.users kind = 0 then (answerPin (-2) pin, some record)
    else (answerPin 0 .zero, some (record.setUsers kind (record.users kind - 1)))
  | .close _ closeAnswer, record =>
    if record.readerUsers ≠ 0 ∨ record.outputUsers ≠ 0 then (answer 2, some record)
    else
      let (result, connection, closed) := ckConnectionClose record.connection closeAnswer
      (⟨result, none, .zero, closed⟩, some { record with connection := connection })
  | .retire _, record =>
    if record.readerUsers ≠ 0 ∨ record.outputUsers ≠ 0 ∨
        unpackState record.connection.lifecycle ≠ ConnectionState.closed.code ∨
        record.connection.socketFd ≥ 0 then (answer 1, some record)
    else (answer 0, none)

/-- One call on the map. Only register may choose: a handle that is not in use. -/
inductive MapStep : ConnectionMap → Op → Reply → ConnectionMap → Prop where
  | badIds {m : ConnectionMap} {connectionId requestId ownerToken lifetimeToken : Nat}
      {allocation : Allocation} (bad : connectionId = 0 ∨ requestId = 0) :
      MapStep m (.register connectionId requestId ownerToken lifetimeToken allocation) (answer (-1)) m
  | full {m : ConnectionMap} {connectionId requestId ownerToken lifetimeToken : Nat}
      {allocation : Allocation} (ids : ¬ (connectionId = 0 ∨ requestId = 0)) (full : Full m) :
      MapStep m (.register connectionId requestId ownerToken lifetimeToken allocation) (answer enospc) m
  | noMemory {m : ConnectionMap} {connectionId requestId ownerToken lifetimeToken : Nat}
      {allocation : Allocation} (ids : ¬ (connectionId = 0 ∨ requestId = 0)) (room : ¬ Full m)
      (fails : allocation.succeeds = false) :
      MapStep m (.register connectionId requestId ownerToken lifetimeToken allocation) (answer (-1)) m
  | registered {m : ConnectionMap} {connectionId requestId ownerToken lifetimeToken : Nat}
      {allocation : Allocation} (ids : ¬ (connectionId = 0 ∨ requestId = 0)) (room : ¬ Full m)
      (succeeds : allocation.succeeds = true) (handle : Handle) (fresh : m handle = none)
      (record : Record) (apart : ∀ other live, m other = some live → live.address ≠ record.address)
      (core : Connection)
      (made : ckConnectionInit connectionId requestId ownerToken lifetimeToken = some core)
      (holds : record.connection = ⟨core, -1, allocation.reader, allocation.writer, -1⟩)
      (unused : record.readerUsers = 0 ∧ record.outputUsers = 0) :
      MapStep m (.register connectionId requestId ownerToken lifetimeToken allocation)
        ⟨0, some handle, .zero, none⟩ (Function.update m handle (some record))
  | malformed {m : ConnectionMap} {op : Op} (bad : malformed op) : MapStep m op (refusal op (-1)) m
  | unknown {m : ConnectionMap} {op : Op} {handle : Handle} (fine : ¬ malformed op)
      (names : target op = some handle) (absent : m handle = none) : MapStep m op (refusal op (-2)) m
  | mismatch {m : ConnectionMap} {op : Op} {handle : Handle} {record : Record} (fine : ¬ malformed op)
      (names : target op = some handle) (present : m handle = some record)
      (other : matching op record.connection = false) : MapStep m op (refusal op (-3)) m
  | acts {m : ConnectionMap} {op : Op} {handle : Handle} {record : Record} (fine : ¬ malformed op)
      (names : target op = some handle) (present : m handle = some record)
      (same : matching op record.connection = true) :
      MapStep m op (effect op record).1 (Function.update m handle (effect op record).2)

inductive MapRuns : List (Op × Reply) → ConnectionMap → Prop where
  | start : MapRuns [] fun _ => none
  | step {history : List (Op × Reply)} {m m' : ConnectionMap} {op : Op} {reply : Reply}
      (before : MapRuns history m) (next : MapStep m op reply m') :
      MapRuns (history ++ [(op, reply)]) m'

def Entry.record (entry : Entry) (index : Nat) : Record :=
  ⟨index, entry.connection, entry.readerUsers, entry.outputUsers⟩

def abs (registry : ConnectionRegistry) : ConnectionMap :=
  fun handle => (find registry handle).map fun index => Entry.record (registry.entries index) index

theorem abs_iff {s : CountedRegistry} (sound : Sound s) {handle : Handle} {record : Record} :
    abs s.registry handle = some record ↔ ∃ i, (s.registry.entries i).active = true ∧
      handle = makeHandle i (s.registry.entries i).generation ∧
      record = Entry.record (s.registry.entries i) i := by
  simp only [abs, Option.map_eq_some_iff, find_iff sound, and_assoc]
  constructor
  · rintro ⟨i, active, named, rfl⟩
    exact ⟨i, active, named, rfl⟩
  · rintro ⟨i, active, named, rfl⟩
    exact ⟨i, active, named, rfl⟩

theorem abs_set {s t : CountedRegistry} (sound : Sound s) (after : Sound t) {index generation : Nat}
    {entry : Entry} (changed : t.registry = s.registry.set index entry) (slot : index < registryCapacity)
    (small : generation < 4294967296)
    (old : (s.registry.entries index).active = true → (s.registry.entries index).generation = generation)
    (new : entry.active = true → entry.generation = generation) :
    abs t.registry = Function.update (abs s.registry) (makeHandle index generation)
      (if entry.active then some (Entry.record entry index) else none) := by
  funext handle
  apply Option.ext
  intro record
  have others : ∀ i, i ≠ index → t.registry.entries i = s.registry.entries i := by
    intro i other
    rw [changed, set_other _ _ other]
  have here : t.registry.entries index = entry := by rw [changed, set_same]
  by_cases same : handle = makeHandle index generation
  · subst same
    rw [Function.update_self, abs_iff after]
    constructor
    · rintro ⟨i, active, named, rfl⟩
      have which : i = index := (makeHandle_inj slot (after.slot i active).1 small (after.small i) named).1.symm
      subst which
      rw [here] at active ⊢
      rw [if_pos active]
    · intro present
      split at present
      · rename_i active
        rw [Option.some.injEq] at present
        refine ⟨index, ?_, ?_, ?_⟩
        · rw [here]
          exact active
        · rw [here, new active]
        · rw [here, present]
      · cases present
  · rw [Function.update_of_ne same, abs_iff after, abs_iff sound]
    -- the slot itself has another handle, before and after
    constructor
    · rintro ⟨i, active, named, rfl⟩
      have other : i ≠ index := by
        rintro rfl
        rw [here] at active named
        rw [new active] at named
        exact same named
      rw [others i other] at active named ⊢
      exact ⟨i, active, named, rfl⟩
    · rintro ⟨i, active, named, rfl⟩
      have other : i ≠ index := by
        rintro rfl
        rw [old active] at named
        exact same named
      rw [← others i other] at active named ⊢
      exact ⟨i, active, named, rfl⟩

theorem firstFree_none {registry : ConnectionRegistry} :
    firstFree registry = none ↔ ∀ i < registryCapacity, (registry.entries i).active = true := by
  simp [firstFree, List.find?_eq_none]

theorem full_iff {s : CountedRegistry} (sound : Sound s) :
    Full (abs s.registry) ↔ firstFree s.registry = none := by
  have domain : {handle | abs s.registry handle ≠ none} =
      (((Finset.range registryCapacity).filter fun i => (s.registry.entries i).active = true).image
        fun i => makeHandle i (s.registry.entries i).generation : Finset Handle) := by
    ext handle
    simp only [Set.mem_ofPred_eq, Option.ne_none_iff_exists', abs_iff sound, Finset.coe_image,
      Finset.coe_filter, Finset.mem_range, Set.mem_image]
    constructor
    · rintro ⟨record, i, active, named, -⟩
      exact ⟨i, ⟨(sound.slot i active).1, active⟩, named.symm⟩
    · rintro ⟨i, ⟨-, active⟩, named⟩
      exact ⟨_, i, active, named.symm, rfl⟩
  have inj : Set.InjOn (fun i => makeHandle i (s.registry.entries i).generation)
      ((Finset.range registryCapacity).filter fun i => (s.registry.entries i).active = true : Finset Nat) := by
    intro i first j second same
    rw [Finset.mem_coe, Finset.mem_filter, Finset.mem_range] at first second
    exact (makeHandle_inj first.1 second.1 (sound.small i) (sound.small j) same).1
  have all : Full (abs s.registry) ↔
      ((Finset.range registryCapacity).filter fun i => (s.registry.entries i).active = true).card =
        (Finset.range registryCapacity).card := by
    rw [Full, domain, Set.ncard_coe_finset, Finset.card_image_of_injOn inj, Finset.card_range]
  rw [all, Finset.card_filter_eq_iff, firstFree_none]
  simp only [Finset.mem_range]

@[simp] theorem record_connection (entry : Entry) (index : Nat) :
    (Entry.record entry index).connection = entry.connection := rfl

@[simp] theorem record_address (entry : Entry) (index : Nat) : (Entry.record entry index).address = index :=
  rfl

@[simp] theorem record_users (entry : Entry) (index : Nat) (kind : PinKind) :
    (Entry.record entry index).users kind = entry.users kind := by
  cases kind <;> rfl

@[simp] theorem record_setUsers (entry : Entry) (index : Nat) (kind : PinKind) (n : Nat) :
    (Entry.record entry index).setUsers kind n = Entry.record (entry.setUsers kind n) index := by
  cases kind <;> rfl

theorem effect_action (op : Op) (index : Nat) {entry : Entry} (active : entry.active = true) :
    effect op (Entry.record entry index) = ((action op index entry).1,
      if (action op index entry).2.active then some (Entry.record (action op index entry).2 index)
      else none) := by
  cases op with
  | register connectionId requestId ownerToken lifetimeToken allocation => simp [effect, action, active]
  | attachSocket caller socketFd => simp [effect, action, active, Entry.record]
  | startAsyncCycle caller cycleId => simp [effect, action, active, Entry.record]
  | tryTerminal caller cycleId event => simp [effect, action, active, Entry.record]
  | acquire kind caller pin =>
    by_cases refused : unpackState entry.connection.lifecycle = ConnectionState.closed.code ∨
        entry.connection.object kind = none
    · simp [effect, action, refused, active]
    · simp [effect, action, refused, active]
  | release kind pin =>
    by_cases refused : some index ≠ pin.connection ∨ entry.connection.object kind ≠ pin.object ∨
        entry.users kind = 0
    · simp [effect, action, refused, active]
    · simp [effect, action, refused, active]
  | close caller closeAnswer =>
    by_cases held : entry.readerUsers ≠ 0 ∨ entry.outputUsers ≠ 0
    · simp [effect, action, Entry.record, held, active]
    · simp [effect, action, Entry.record, held, active]
  | retire caller =>
    by_cases held : entry.readerUsers ≠ 0 ∨ entry.outputUsers ≠ 0 ∨
        unpackState entry.connection.lifecycle ≠ ConnectionState.closed.code ∨
        entry.connection.socketFd ≥ 0
    · simp [effect, action, Entry.record, held, active]
    · simp [effect, action, Entry.record, held]

theorem registered_connection (old : OwnedConnection)
    {connectionId requestId : Nat} (ownerToken lifetimeToken : Nat) (allocation : Allocation)
    (ids : ¬ (connectionId = 0 ∨ requestId = 0)) :
    (ckConnectionInitOwned old connectionId requestId ownerToken lifetimeToken allocation).1 =
        allocation.succeeds ∧
      (allocation.succeeds = true → ∃ core,
        ckConnectionInit connectionId requestId ownerToken lifetimeToken = some core ∧
        (ckConnectionInitOwned old connectionId requestId ownerToken lifetimeToken allocation).2 =
          ⟨core, -1, allocation.reader, allocation.writer, -1⟩) := by
  obtain ⟨reader, writer, body, response⟩ := allocation
  have made : ckConnectionInit connectionId requestId ownerToken lifetimeToken =
      some ⟨connectionId, requestId, ownerToken, lifetimeToken, ckConnectionPack .opened (-1) 0⟩ :=
    if_neg ids
  simp only [ckConnectionInitOwned, made, Allocation.succeeds]
  cases reader <;> cases writer <;> cases body <;> cases response <;> simp

theorem register_simulates {s t : CountedRegistry} (sound : Sound s) (after : Sound t)
    {connectionId requestId ownerToken lifetimeToken : Nat} {allocation : Allocation} {reply : Reply}
    (next : countedStep s (.register connectionId requestId ownerToken lifetimeToken allocation) =
      some (t, reply)) :
    MapStep (abs s.registry) (.register connectionId requestId ownerToken lifetimeToken allocation) reply
      (abs t.registry) := by
  simp only [countedStep, Option.some.injEq, Prod.mk.injEq] at next
  obtain ⟨state, rfl⟩ := next
  have registry := congrArg CountedRegistry.registry state
  dsimp only at registry
  by_cases ids : connectionId = 0 ∨ requestId = 0
  · have refused : call s.registry (.register connectionId requestId ownerToken lifetimeToken allocation) =
        (answer (-1), s.registry) := if_pos (.inr ids)
    rw [refused] at registry ⊢
    rw [← registry]
    exact .badIds ids
  · have guard : ¬ ((!s.registry.initialized) = true ∨ connectionId = 0 ∨ requestId = 0) := by
      simpa [sound.ready] using ids
    cases free : firstFree s.registry with
    | none =>
      have refused : call s.registry (.register connectionId requestId ownerToken lifetimeToken allocation) =
          (answer enospc, s.registry) := by
        simp only [call, ckConnectionRegistryRegister, if_neg guard, free]
      rw [refused] at registry ⊢
      rw [← registry]
      exact .full ids ((full_iff sound).mpr free)
    | some index =>
      have tried : attemptedSlot s.registry
          (.register connectionId requestId ownerToken lifetimeToken allocation) = some index := by
        simp only [attemptedSlot, if_neg guard, free]
      have room : ¬ Full (abs s.registry) := by
        rw [full_iff sound, free]
        exact Option.some_ne_none index
      have registers := register_registers tried
      have small : nextGeneration (s.registry.entries index).generation < 4294967296 := by
        rw [sound.generation, nextGeneration_after]
        exact generationAfter_lt _
      have update := abs_set sound after (registry.symm.trans registers.changed) registers.slot small
        (fun active => by simp [registers.idle] at active) (fun _ => rfl)
      obtain ⟨success, made⟩ := registered_connection (s.registry.entries index).connection
        ownerToken lifetimeToken allocation ids
      have fresh : abs s.registry (makeHandle index (nextGeneration (s.registry.entries index).generation)) =
          none := by
        by_contra present
        obtain ⟨record, live⟩ := Option.ne_none_iff_exists'.mp present
        obtain ⟨i, active, named, -⟩ := (abs_iff sound).mp live
        obtain ⟨rfl, -⟩ := makeHandle_inj registers.slot (sound.slot i active).1 small (sound.small i) named
        simp [registers.idle] at active
      rw [registers.replied, update]
      simp only [registration, success]
      cases allocated : allocation.succeeds with
      | false =>
        simp only [cond_false, Bool.false_eq_true, ↓reduceIte, ← fresh, Function.update_eq_self]
        exact .noMemory ids room allocated
      | true =>
        obtain ⟨core, init, holds⟩ := made allocated
        simp only [cond_true, ↓reduceIte]
        refine .registered ids room allocated _ fresh _ ?_ core init holds ⟨rfl, rfl⟩
        intro other live present
        obtain ⟨i, active, -, rfl⟩ := (abs_iff sound).mp present
        rintro (rfl : i = index)
        simp [registers.idle] at active

/-- One call of the registry is one call of the map. -/
theorem step_simulates {s t : CountedRegistry} (sound : Sound s) {op : Op} {reply : Reply}
    (next : countedStep s op = some (t, reply)) :
    MapStep (abs s.registry) op reply (abs t.registry) := by
  have after := sound_step sound next
  cases names : target op with
  | none =>
    obtain ⟨connectionId, requestId, ownerToken, lifetimeToken, allocation, rfl⟩ := register_of_unnamed names
    exact register_simulates sound after next
  | some handle =>
    simp only [countedStep, Option.some.injEq, Prod.mk.injEq] at next
    obtain ⟨state, rfl⟩ := next
    have registry := congrArg CountedRegistry.registry state
    dsimp only at registry
    rw [← registry]
    by_cases bad : malformed op
    · rw [call_malformed s.registry bad]
      exact .malformed bad
    · have called := call_target s.registry names bad
      simp only [operate, sound.ready, Bool.not_true, Bool.false_eq_true, ↓reduceIte] at called
      cases found : find s.registry handle with
      | none =>
        rw [called, found]
        exact .unknown bad names (by simp [abs, found])
      | some index =>
        have present : abs s.registry handle = some (Entry.record (s.registry.entries index) index) := by
          simp [abs, found]
        simp only [found] at called
        by_cases same : matching op (s.registry.entries index).connection = true
        · simp only [same, Bool.not_true, Bool.false_eq_true, ↓reduceIte] at called
          obtain ⟨active, named⟩ := (find_iff sound).mp found
          have changed : t.registry =
              s.registry.set index (action op index (s.registry.entries index)).2 := by
            rw [← registry, called]
          have update := abs_set sound after changed (sound.slot index active).1 (sound.small index)
            (fun _ => rfl) (fun _ => action_generation op index _)
          have acted := effect_action op index active
          rw [registry, update, ← named, called]
          have step := MapStep.acts bad names present same
          rw [acted] at step
          exact step
        · have other : matching op (s.registry.entries index).connection = false := by simpa using same
          simp only [other, Bool.not_false, ↓reduceIte] at called
          rw [called]
          exact .mismatch bad names present other

theorem runs_simulate {history : List (Op × Reply)} {s : CountedRegistry}
    (runs : Runs countedStep counted history s) : Sound s ∧ MapRuns history (abs s.registry) := by
  apply runs.invariant (fun history s => Sound s ∧ MapRuns history (abs s.registry))
  · exact ⟨sound_counted, by
      have empty : abs counted.registry = fun _ => none := by
        funext handle
        by_contra present
        obtain ⟨record, live⟩ := Option.ne_none_iff_exists'.mp present
        obtain ⟨i, active, -⟩ := (abs_iff sound_counted).mp live
        cases active
      rw [empty]
      exact .start⟩
  · intro history s t op reply _ holds next
    exact ⟨sound_step holds.1 next, .step holds.2 (step_simulates holds.1 next)⟩

def slotOf (handle : Handle) : Nat := handle.val % 4294967296 - 1

def RetiredIn (handle : Handle) (history : List (Op × Reply)) : Prop :=
  ∃ caller reply, (Op.retire caller, reply) ∈ history ∧ caller.handle = handle ∧ reply.result = 0

theorem slotOf_makeHandle {index generation : Nat} (slot : index < registryCapacity)
    (small : generation < 4294967296) : slotOf (makeHandle index generation) = index := by
  unfold slotOf
  rw [makeHandle_val slot small]
  simp only [registryCapacity] at slot
  omega

theorem step_idle {s t : CountedRegistry} {op : Op} {reply : Reply}
    (next : countedStep s op = some (t, reply)) (index : Nat) :
    s.attempts index ≤ t.attempts index ∧ (t.attempts index = s.attempts index →
      (s.registry.entries index).active = false → (t.registry.entries index).active = false) := by
  simp only [countedStep, Option.some.injEq, Prod.mk.injEq] at next
  obtain ⟨rfl, -⟩ := next
  rcases call_changes s.registry op with ⟨result, -, refused, untried⟩ | ⟨i, acts⟩ | ⟨i, registers⟩
  · simp only [refused, untried]
    exact ⟨le_refl _, fun _ idle => idle⟩
  · simp only [acts.result, acts.untried]
    refine ⟨le_refl _, fun _ idle => ?_⟩
    by_cases here : index = i
    · subst here
      rw [set_same]
      by_contra active
      rw [Bool.not_eq_false] at active
      rw [action_active active] at idle
      cases idle
    · rw [set_other _ _ here]
      exact idle
  · simp only [registers.changed, registers.tried]
    by_cases here : index = i
    · subst here
      rw [Function.update_self]
      exact ⟨by omega, fun tried => by omega⟩
    · rw [Function.update_of_ne here, set_other _ _ here]
      exact ⟨le_refl _, fun _ idle => idle⟩

theorem retire_idle {s t : CountedRegistry} (sound : Sound s) {caller : Caller} {reply : Reply}
    (next : countedStep s (.retire caller) = some (t, reply)) (retired : reply.result = 0) :
    (t.registry.entries (slotOf caller.handle)).active = false := by
  simp only [countedStep, Option.some.injEq, Prod.mk.injEq] at next
  obtain ⟨rfl, rfl⟩ := next
  have called : call s.registry (.retire caller) = operate s.registry caller.handle
    (matching (.retire caller)) (refusal (.retire caller)) (action (.retire caller)) := rfl
  simp only [operate, sound.ready, Bool.not_true, Bool.false_eq_true, ↓reduceIte] at called
  dsimp only
  rw [called] at retired ⊢
  cases found : find s.registry caller.handle with
  | none => simp [found, refusal, answer] at retired
  | some index =>
    obtain ⟨active, named⟩ := (find_iff sound).mp found
    have slot : slotOf caller.handle = index := by
      rw [named]
      exact slotOf_makeHandle (sound.slot index active).1 (sound.small index)
    rw [slot]
    simp only [found] at retired ⊢
    by_cases same : matching (.retire caller) (s.registry.entries index).connection = true
    · simp only [same, Bool.not_true, Bool.false_eq_true, ↓reduceIte, set_same, action] at retired ⊢
      split at retired
      · simp [answer] at retired
      · rename_i free
        rw [if_neg free]
    · simp [same, refusal, answer] at retired

theorem retired_idle {s t : CountedRegistry} (sound : Sound s) {later : List (Op × Reply)}
    (runs : Runs countedStep s later t) (handle : Handle) :
    s.attempts (slotOf handle) ≤ t.attempts (slotOf handle) ∧
      (RetiredIn handle later → t.attempts (slotOf handle) = s.attempts (slotOf handle) →
        (t.registry.entries (slotOf handle)).active = false) := by
  apply runs.invariant (fun later t => s.attempts (slotOf handle) ≤ t.attempts (slotOf handle) ∧
    (RetiredIn handle later → t.attempts (slotOf handle) = s.attempts (slotOf handle) →
      (t.registry.entries (slotOf handle)).active = false))
  · refine ⟨le_refl _, ?_⟩
    rintro ⟨caller, reply, inside, -⟩
    cases inside
  · intro later t u op reply before holds next
    obtain ⟨grows, idle⟩ := step_idle next (slotOf handle)
    refine ⟨holds.1.trans grows, ?_⟩
    rintro ⟨caller, answer, inside, rfl, zero⟩ same
    have grown := holds.1
    rcases List.mem_append.mp inside with earlier | last
    · exact idle (by omega) (holds.2 ⟨caller, answer, earlier, rfl, zero⟩ (by omega))
    · rw [List.mem_singleton, Prod.mk.injEq] at last
      obtain ⟨rfl, rfl⟩ := last
      exact retire_idle (sound_runs sound before) next zero

theorem step_issues {s t : CountedRegistry} (sound : Sound s) {op : Op} {reply : Reply} {handle : Handle}
    (next : countedStep s op = some (t, reply)) (issued : reply.handle = some handle) :
    slotOf handle < registryCapacity ∧ 0 < t.attempts (slotOf handle) ∧
      handle = makeHandle (slotOf handle) (generationAfter (t.attempts (slotOf handle))) := by
  simp only [countedStep, Option.some.injEq, Prod.mk.injEq] at next
  obtain ⟨rfl, rfl⟩ := next
  obtain ⟨index, registers, named⟩ := call_issues issued
  rw [sound.generation, nextGeneration_after] at named
  have slot : slotOf handle = index := by
    rw [named]
    exact slotOf_makeHandle registers.slot (generationAfter_lt _)
  rw [slot]
  simp only [registers.tried, Function.update_self]
  exact ⟨registers.slot, Nat.succ_pos _, named⟩

/-- The registry is a map from handles to connections: every run of calls is a run of the
    map, and a handle whose connection was retired stays unknown until 2^32 - 1 more
    registrations were tried on its slot. -/
theorem registry_is_map {history : List (Op × Reply)} {s : CountedRegistry}
    (runs : Runs countedStep counted history s) :
    MapRuns history (abs s.registry) ∧
      ∀ {op : Op} {reply : Reply} {handle : Handle} {issued last : CountedRegistry}
        {later : List (Op × Reply)}, countedStep s op = some (issued, reply) →
        reply.handle = some handle → Runs countedStep issued later last → RetiredIn handle later →
        last.attempts (slotOf handle) < issued.attempts (slotOf handle) + 4294967295 →
        ∀ stale : Op, target stale = some handle → ¬ malformed stale →
          call last.registry stale = (refusal stale (-2), last.registry) := by
  obtain ⟨sound, simulated⟩ := runs_simulate runs
  refine ⟨simulated, ?_⟩
  intro op reply handle issued last later next gives run retired near stale names fine
  have first := sound_step sound next
  have end_ := sound_runs first run
  obtain ⟨slot, tried, named⟩ := step_issues sound next gives
  obtain ⟨grows, idle⟩ := retired_idle first run handle
  have unknown : find last.registry handle = none := by
    by_contra present
    obtain ⟨i, found⟩ := Option.ne_none_iff_exists'.mp present
    obtain ⟨active, current⟩ := (find_iff end_).mp found
    obtain ⟨rfl, again⟩ := makeHandle_inj slot (end_.slot i active).1 (generationAfter_lt _) (end_.small i)
      (named.symm.trans current)
    rw [end_.generation] at again
    by_cases untried : last.attempts (slotOf handle) = issued.attempts (slotOf handle)
    · rw [idle retired untried] at active
      cases active
    · exact generationAfter_distinct tried (by omega) near again.symm
  have called := call_target last.registry names fine
  simp only [operate, end_.ready, unknown] at called
  simpa using called

def sampleCalls : List Op :=
  [.startAsyncCycle sampleCaller 1, .tryTerminal sampleCaller 1 0, .close sampleCaller 0,
    .retire sampleCaller, sampleRegister]

def sampleIssued : CountedRegistry :=
  ⟨(call counted.registry sampleRegister).2, Function.update (fun _ => 0) 0 1⟩

def sampleRun : List (Op × Reply) × CountedRegistry :=
  (execute countedStep sampleIssued sampleCalls).getD ([], counted)

theorem registry_is_map_reused :
    (sampleRun.2.registry.entries 0).active = true ∧
      call sampleRun.2.registry (.retire sampleCaller) = (answer (-2), sampleRun.2.registry) := by
  have issues : countedStep counted sampleRegister =
      some (sampleIssued, ⟨0, some sampleCaller.handle, .zero, none⟩) := rfl
  have executed : execute countedStep sampleIssued sampleCalls = some (sampleRun.1, sampleRun.2) := rfl
  have retired : RetiredIn sampleCaller.handle sampleRun.1 :=
    ⟨sampleCaller, answer 0, by decide +kernel, rfl, rfl⟩
  exact ⟨by decide +kernel, (registry_is_map .start).2 issues rfl (execute_runs executed) retired
    (by decide +kernel) (.retire sampleCaller) rfl id⟩

end CkartaRegistryMap
