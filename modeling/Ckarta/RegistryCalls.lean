import Ckarta.ConnectionRegistry

/-!
The calls of the registry in one form. All of them but register look up the handle they are
given, compare the caller's values and then act on that one entry; call_changes says once
what a call can do to the registry.
-/
namespace CkartaRegistryCalls
open MachineWord CkartaConnection CkartaConnectionRegistry

def target : Op → Option Handle
  | .register .. => none
  | .attachSocket caller _ | .startAsyncCycle caller _ | .tryTerminal caller _ _
  | .acquire _ caller _ | .close caller _ | .retire caller => some caller.handle
  | .release _ pin => some pin.handle

/-- The calls that are refused for their arguments alone. -/
def malformed : Op → Prop
  | .attachSocket _ socketFd => socketFd < 0
  | .acquire _ _ pin => pin.connection ≠ none ∨ pin.object ≠ none ∨ pin.handle ≠ Pin.zero.handle
  | .release _ pin => pin.connection = none ∨ pin.object = none ∨ pin.handle = Pin.zero.handle ∨
      decodeHandle pin.handle.val = none
  | _ => False

def matching : Op → OwnedConnection → Bool
  | .tryTerminal caller cycleId _, connection => caller.validCycle cycleId connection
  | .attachSocket caller _, connection | .startAsyncCycle caller _, connection
  | .acquire _ caller _, connection | .close caller _, connection
  | .retire caller, connection => caller.valid connection
  | _, _ => true

def refusal : Op → Int → Reply
  | .acquire _ _ pin, result | .release _ pin, result => answerPin result pin
  | _, result => answer result

def action : Op → Nat → Entry → Reply × Entry
  | .register .., _, entry => (answer (-1), entry)
  | .attachSocket _ socketFd, _, entry =>
    (answer (ckConnectionAttachSocket entry.connection socketFd).1,
      { entry with connection := (ckConnectionAttachSocket entry.connection socketFd).2 })
  | .startAsyncCycle _ cycleId, _, entry =>
    (answer (ckConnectionStartAsyncCycle entry.connection.toConnection cycleId).1,
      { entry with connection := { entry.connection with
          toConnection := (ckConnectionStartAsyncCycle entry.connection.toConnection cycleId).2 } })
  | .tryTerminal _ _ event, _, entry =>
    (answer (ckConnectionTryTerminal entry.connection.toConnection event).1,
      { entry with connection := { entry.connection with
          toConnection := (ckConnectionTryTerminal entry.connection.toConnection event).2 } })
  | .acquire kind caller pin, index, entry =>
    if unpackState entry.connection.lifecycle = ConnectionState.closed.code ∨
        entry.connection.object kind = none then (answerPin 1 pin, entry)
    else (answerPin 0 ⟨some index, entry.connection.object kind, caller.handle⟩,
      entry.setUsers kind ((entry.users kind + 1) % 4294967296))
  | .release kind pin, index, entry =>
    if some index ≠ pin.connection ∨ entry.connection.object kind ≠ pin.object ∨
        entry.users kind = 0 then (answerPin (-2) pin, entry)
    else (answerPin 0 .zero, entry.setUsers kind (entry.users kind - 1))
  | .close _ closeAnswer, _, entry =>
    if entry.readerUsers ≠ 0 ∨ entry.outputUsers ≠ 0 then (answer 2, entry)
    else (⟨(ckConnectionClose entry.connection closeAnswer).1, none, .zero,
        (ckConnectionClose entry.connection closeAnswer).2.2⟩,
      { entry with connection := (ckConnectionClose entry.connection closeAnswer).2.1 })
  | .retire _, _, entry =>
    if entry.readerUsers ≠ 0 ∨ entry.outputUsers ≠ 0 ∨
        unpackState entry.connection.lifecycle ≠ ConnectionState.closed.code ∨
        entry.connection.socketFd ≥ 0 then (answer 1, entry)
    else (answer 0, { entry with active := false })

@[simp] theorem set_same (registry : ConnectionRegistry) (index : Nat) (entry : Entry) :
    (registry.set index entry).entries index = entry := by
  simp [ConnectionRegistry.set]

theorem set_other (registry : ConnectionRegistry) {index i : Nat} (entry : Entry) (other : i ≠ index) :
    (registry.set index entry).entries i = registry.entries i := by
  simp [ConnectionRegistry.set, other]

theorem set_unchanged (registry : ConnectionRegistry) (index : Nat) :
    registry.set index (registry.entries index) = registry := by
  simp [ConnectionRegistry.set]

@[simp] theorem setUsers_generation (entry : Entry) (kind : PinKind) (n : Nat) :
    (entry.setUsers kind n).generation = entry.generation := by
  cases kind <;> rfl

@[simp] theorem setUsers_active (entry : Entry) (kind : PinKind) (n : Nat) :
    (entry.setUsers kind n).active = entry.active := by
  cases kind <;> rfl

@[simp] theorem setUsers_connection (entry : Entry) (kind : PinKind) (n : Nat) :
    (entry.setUsers kind n).connection = entry.connection := by
  cases kind <;> rfl

theorem core_put (registry : ConnectionRegistry) (index : Nat) (connection : Connection) :
    (registry.set index { registry.entries index with
      connection := { (registry.entries index).connection with toConnection := connection } }).core =
      registry.core.put index connection := by
  simp only [ConnectionRegistry.core, ConnectionRegistry.set, Registry.put, Registry.mk.injEq, and_true]
  funext i
  by_cases here : i = index
  · subst here
    simp
  · simp [here]

/-- On lifecycles this registry is the one the async contexts were proved over. -/
theorem core_operates (registry : ConnectionRegistry) (handle : Handle) (valid : Connection → Bool)
    (act : Connection → Int × Connection) :
    let done := operate registry handle (fun connection => valid connection.toConnection) answer
      fun _ entry => (answer (act entry.connection.toConnection).1, { entry with
        connection := { entry.connection with toConnection := (act entry.connection.toConnection).2 } })
    (done.1.result, done.2.core) = registryOperation registry.core handle.val valid act := by
  dsimp only [operate, registryOperation, find]
  have ready : registry.core.initialized = registry.initialized := rfl
  rw [ready]
  cases registry.initialized with
  | false => rfl
  | true =>
    simp only [Bool.not_true, Bool.false_eq_true, ↓reduceIte]
    cases registryFind registry.core handle.val with
    | none => rfl
    | some index =>
      have same : (registry.core.entries index).connection = (registry.entries index).connection.toConnection :=
        rfl
      by_cases valued : valid (registry.entries index).connection.toConnection = true
      · simp only [same, valued, Bool.not_true, Bool.false_eq_true, ↓reduceIte, core_put, answer]
      · simp [same, valued, answer]

theorem startAsyncCycle_core (registry : ConnectionRegistry) (caller : Caller) (cycleId : Nat) :
    let done := call registry (.startAsyncCycle caller cycleId)
    (done.1.result, done.2.core) = CkartaConnection.ckConnectionRegistryStartAsyncCycle registry.core
      caller.handle.val caller.requestId caller.ownerToken caller.lifetimeToken cycleId :=
  core_operates registry caller.handle
    (fun connection => ckConnectionValidate connection caller.requestId caller.ownerToken caller.lifetimeToken)
    (fun connection => ckConnectionStartAsyncCycle connection cycleId)

theorem tryTerminal_core (registry : ConnectionRegistry) (caller : Caller) (cycleId : Nat) (event : Int) :
    let done := call registry (.tryTerminal caller cycleId event)
    (done.1.result, done.2.core) = CkartaConnection.ckConnectionRegistryTryTerminal registry.core
      caller.handle.val caller.requestId caller.ownerToken caller.lifetimeToken cycleId event :=
  core_operates registry caller.handle
    (fun connection => ckConnectionValidateCycle connection caller.requestId caller.ownerToken
      caller.lifetimeToken cycleId)
    (fun connection => ckConnectionTryTerminal connection event)

theorem release_operates (kind : PinKind) (registry : ConnectionRegistry) (pin : Pin)
    (fine : ¬ malformed (.release kind pin)) :
    release kind registry pin = operate registry pin.handle (matching (.release kind pin))
      (refusal (.release kind pin)) (action (.release kind pin)) := by
  simp only [malformed, Pin.zero, not_or] at fine
  obtain ⟨hasConnection, hasObject, hasHandle, decodes⟩ := fine
  unfold release operate
  by_cases ready : registry.initialized = true
  · cases decoded : decodeHandle pin.handle.val with
    | none => exact absurd decoded decodes
    | some parts =>
      obtain ⟨index, generation⟩ := parts
      simp only [ready, Bool.not_true, Bool.false_eq_true, hasConnection, hasObject, hasHandle, or_self,
        ↓reduceIte, find, registryFind, decoded, ConnectionRegistry.core, matching, refusal]
      by_cases alive : (registry.entries index).active = true ∧
          (registry.entries index).generation = generation
      · by_cases held : some index ≠ pin.connection ∨
            (registry.entries index).connection.object kind ≠ pin.object ∨
            (registry.entries index).users kind = 0
        · simp [alive, action, held, set_unchanged]
        · simp [alive, action, held]
      · rw [not_and_or] at alive
        rcases alive with idle | stale
        · simp [idle]
        · simp [stale]
  · simp [ready, refusal]

theorem call_malformed (registry : ConnectionRegistry) {op : Op} (bad : malformed op) :
    call registry op = (refusal op (-1), registry) := by
  cases op with
  | attachSocket caller socketFd =>
    exact if_pos bad
  | acquire kind caller pin =>
    cases kind <;> exact if_pos bad
  | release kind pin =>
    have refused : release kind registry pin = (answerPin (-1) pin, registry) := by
      unfold release
      by_cases early : (!registry.initialized) = true ∨ pin.connection = none ∨ pin.object = none ∨
          pin.handle = 0
      · rw [if_pos early]
      · rw [if_neg early]
        simp only [malformed, Pin.zero] at bad
        have decoded : decodeHandle pin.handle.val = none := by tauto
        rw [decoded]
    cases kind <;> exact refused
  | register connectionId requestId ownerToken lifetimeToken allocation => exact bad.elim
  | startAsyncCycle caller cycleId => exact bad.elim
  | tryTerminal caller cycleId event => exact bad.elim
  | close caller closeAnswer => exact bad.elim
  | retire caller => exact bad.elim

theorem call_target (registry : ConnectionRegistry) {op : Op} {handle : Handle}
    (names : target op = some handle) (fine : ¬ malformed op) :
    call registry op = operate registry handle (matching op) (refusal op) (action op) := by
  cases op with
  | register connectionId requestId ownerToken lifetimeToken allocation => simp [target] at names
  | attachSocket caller socketFd =>
    obtain rfl : caller.handle = handle := Option.some.inj names
    exact if_neg fine
  | startAsyncCycle caller cycleId =>
    obtain rfl : caller.handle = handle := Option.some.inj names
    rfl
  | tryTerminal caller cycleId event =>
    obtain rfl : caller.handle = handle := Option.some.inj names
    rfl
  | acquire kind caller pin =>
    obtain rfl : caller.handle = handle := Option.some.inj names
    cases kind <;> exact if_neg fine
  | release kind pin =>
    obtain rfl : pin.handle = handle := Option.some.inj names
    cases kind
    · exact release_operates .reader registry pin fine
    · exact release_operates .output registry pin fine
  | close caller closeAnswer =>
    obtain rfl : caller.handle = handle := Option.some.inj names
    rfl
  | retire caller =>
    obtain rfl : caller.handle = handle := Option.some.inj names
    rfl

/-- The slot on which a call tries to register. -/
def attemptedSlot (registry : ConnectionRegistry) : Op → Option Nat
  | .register connectionId requestId _ _ _ =>
    if !registry.initialized ∨ connectionId = 0 ∨ requestId = 0 then none else firstFree registry
  | _ => none

theorem attemptedSlot_target (registry : ConnectionRegistry) {op : Op} {handle : Handle}
    (names : target op = some handle) : attemptedSlot registry op = none := by
  cases op <;> simp [target, attemptedSlot] at names ⊢

structure Acts (registry : ConnectionRegistry) (op : Op) (index : Nat) : Prop where
  fine : ¬ malformed op
  found : ∃ handle, target op = some handle ∧ find registry handle = some index
  same : matching op (registry.entries index).connection = true
  result : call registry op = ((action op index (registry.entries index)).1,
    registry.set index (action op index (registry.entries index)).2)

def registration (registry : ConnectionRegistry) (index : Nat) (op : Op) : Bool × OwnedConnection :=
  match op with
  | .register connectionId requestId ownerToken lifetimeToken allocation =>
    ckConnectionInitOwned (registry.entries index).connection connectionId requestId ownerToken
      lifetimeToken allocation
  | _ => (false, (registry.entries index).connection)

structure Registers (registry : ConnectionRegistry) (op : Op) (index : Nat) : Prop where
  tried : attemptedSlot registry op = some index
  idle : (registry.entries index).active = false
  slot : index < registryCapacity
  changed : (call registry op).2 = registry.set index ⟨(registration registry index op).2,
    nextGeneration (registry.entries index).generation, 0, 0, (registration registry index op).1⟩
  replied : (call registry op).1 = bif (registration registry index op).1 then
    ⟨0, some (makeHandle index (nextGeneration (registry.entries index).generation)), .zero, none⟩
    else answer (-1)

theorem firstFree_some {registry : ConnectionRegistry} {index : Nat}
    (free : firstFree registry = some index) :
    index < registryCapacity ∧ (registry.entries index).active = false := by
  unfold firstFree at free
  have member := List.mem_of_find?_eq_some free
  have idle := List.find?_some free
  exact ⟨List.mem_range.mp member, by simpa using idle⟩

theorem register_of_unnamed {op : Op} (unnamed : target op = none) :
    ∃ connectionId requestId ownerToken lifetimeToken allocation,
      op = .register connectionId requestId ownerToken lifetimeToken allocation := by
  cases op with
  | register connectionId requestId ownerToken lifetimeToken allocation => exact ⟨_, _, _, _, _, rfl⟩
  | attachSocket caller socketFd => cases unnamed
  | startAsyncCycle caller cycleId => cases unnamed
  | tryTerminal caller cycleId event => cases unnamed
  | acquire kind caller pin => cases unnamed
  | release kind pin => cases unnamed
  | close caller closeAnswer => cases unnamed
  | retire caller => cases unnamed

theorem register_of_tried {registry : ConnectionRegistry} {op : Op} {index : Nat}
    (tried : attemptedSlot registry op = some index) :
    ∃ connectionId requestId ownerToken lifetimeToken allocation,
      op = .register connectionId requestId ownerToken lifetimeToken allocation := by
  cases names : target op with
  | none => exact register_of_unnamed names
  | some handle =>
    rw [attemptedSlot_target registry names] at tried
    cases tried

theorem register_registers {registry : ConnectionRegistry} {op : Op} {index : Nat}
    (tried : attemptedSlot registry op = some index) : Registers registry op index := by
  obtain ⟨connectionId, requestId, ownerToken, lifetimeToken, allocation, rfl⟩ := register_of_tried tried
  simp only [attemptedSlot] at tried
  by_cases refused : (!registry.initialized) = true ∨ connectionId = 0 ∨ requestId = 0
  · rw [if_pos refused] at tried
    cases tried
  · have free : firstFree registry = some index := by rwa [if_neg refused] at tried
    obtain ⟨slot, idle⟩ := firstFree_some free
    refine ⟨tried, idle, slot, ?_, ?_⟩
    all_goals
      simp only [call, ckConnectionRegistryRegister, if_neg refused, free, registration]
      cases made : ckConnectionInitOwned (registry.entries index).connection connectionId requestId
          ownerToken lifetimeToken allocation with
      | mk success connection => cases success <;> rfl

/-- What a call can do: nothing, act on the entry it names, or try to register. -/
theorem call_changes (registry : ConnectionRegistry) (op : Op) :
    (∃ result, result ≠ 0 ∧ call registry op = (refusal op result, registry) ∧
        attemptedSlot registry op = none) ∨
      (∃ index, Acts registry op index) ∨ ∃ index, Registers registry op index := by
  cases names : target op with
  | some handle =>
    have untried := attemptedSlot_target registry names
    by_cases bad : malformed op
    · exact .inl ⟨-1, by decide, call_malformed registry bad, untried⟩
    · have called := call_target registry names bad
      unfold operate at called
      by_cases ready : registry.initialized = true
      · cases found : find registry handle with
        | none => exact .inl ⟨-2, by decide, by simp [called, ready, found], untried⟩
        | some index =>
          by_cases same : matching op (registry.entries index).connection = true
          · exact .inr (.inl ⟨index, bad, ⟨handle, names, found⟩, same, by simp [called, ready, found, same]⟩)
          · exact .inl ⟨-3, by decide, by simp [called, ready, found, same], untried⟩
      · exact .inl ⟨-1, by decide, by simp [called, ready], untried⟩
  | none =>
    cases tried : attemptedSlot registry op with
    | some index => exact .inr (.inr ⟨index, register_registers tried⟩)
    | none =>
      left
      obtain ⟨connectionId, requestId, ownerToken, lifetimeToken, allocation, rfl⟩ := register_of_unnamed names
      simp only [attemptedSlot] at tried
      by_cases refused : (!registry.initialized) = true ∨ connectionId = 0 ∨ requestId = 0
      · refine ⟨-1, by decide, ?_, rfl⟩
        simp only [call, ckConnectionRegistryRegister, if_pos refused, refusal]
      · rw [if_neg refused] at tried
        refine ⟨enospc, by decide, ?_, rfl⟩
        simp only [call, ckConnectionRegistryRegister, if_neg refused, tried, refusal]

@[simp] theorem refusal_result (op : Op) (result : Int) : (refusal op result).result = result := by
  cases op <;> rfl

@[simp] theorem refusal_handle (op : Op) (result : Int) : (refusal op result).handle = none := by
  cases op <;> rfl

@[simp] theorem refusal_closed (op : Op) (result : Int) : (refusal op result).closed = none := by
  cases op <;> rfl

theorem action_handle (op : Op) (index : Nat) (entry : Entry) :
    (action op index entry).1.handle = none := by
  cases op <;> simp only [action] <;> first | rfl | (split <;> rfl)

theorem call_issues {registry : ConnectionRegistry} {op : Op} {handle : Handle}
    (issued : (call registry op).1.handle = some handle) :
    ∃ index, Registers registry op index ∧
      handle = makeHandle index (nextGeneration (registry.entries index).generation) := by
  rcases call_changes registry op with ⟨result, -, refused, -⟩ | ⟨index, acts⟩ | ⟨index, registers⟩
  · rw [refused, refusal_handle] at issued
    cases issued
  · rw [acts.result, action_handle] at issued
    cases issued
  · refine ⟨index, registers, ?_⟩
    rw [registers.replied] at issued
    cases made : (registration registry index op).1 with
    | false =>
      rw [made] at issued
      cases issued
    | true =>
      rw [made] at issued
      exact (Option.some.inj issued).symm

theorem Acts.untried {registry : ConnectionRegistry} {op : Op} {index : Nat}
    (acts : Acts registry op index) : attemptedSlot registry op = none := by
  obtain ⟨handle, names, -⟩ := acts.found
  exact attemptedSlot_target registry names

/-- A connection for the first slot, and the values its callers then use. -/
def sampleRegister : Op := .register 3 7 5 9 ⟨some 1, some 2, true, true⟩

def sampleCaller : Caller := ⟨makeHandle 0 1, 7, 5, 9⟩

end CkartaRegistryCalls
