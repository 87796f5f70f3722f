import Ckarta.RegistrySlots
import Ckarta.AsyncContext

/-!
Connection handles on their way through Java. A handle is an unsigned word with the slot's
generation in its upper half; java/org/ckarta/servlet/CkartaNativeAsyncBridge.java and
c/jni/ck_async_bridge.c hold it as a signed jlong and take only positive ones. The lowest
free slot is registered first, so one slot can go through all its generations.
-/
namespace CkartaNativeHandles
open CkartaConnection CkartaConnectionRegistry CkartaRegistryCalls CkartaRegistrySlots
  CkartaAsyncContext

/-- The conversion of ck_connection_handle_t to jlong. -/
def toJlong (handle : Handle) : Int :=
  if handle.val < 9223372036854775808 then handle.val else handle.val - 18446744073709551616

structure NativeAsyncBridge where
  registryHandle : Int
  connectionHandle : Int
  deriving DecidableEq, Repr

/-- The constructor of CkartaNativeAsyncBridge; the text is that of its exception. -/
def newNativeAsyncBridge (registryHandle connectionHandle : Int) : Except String NativeAsyncBridge :=
  if registryHandle ≤ 0 then .error "registryHandle must be positive"
  else if connectionHandle ≤ 0 then .error "connectionHandle must be positive"
  else .ok ⟨registryHandle, connectionHandle⟩

/-- The arguments that the native entry points take besides the connection handle. -/
structure CallerWords where
  registryHandle : Int
  requestId : Int
  ownerToken : Int
  lifetimeToken : Int
  cycleId : Int
  registry_pos : 0 < registryHandle
  request_pos : 0 < requestId
  owner_nonneg : 0 ≤ ownerToken
  lifetime_nonneg : 0 ≤ lifetimeToken
  cycle_pos : 0 < cycleId

theorem CallerWords.fine (words : CallerWords) : 0 < words.registryHandle ∧ 0 < words.requestId ∧
    0 ≤ words.ownerToken ∧ 0 ≤ words.lifetimeToken ∧ 0 < words.cycleId :=
  ⟨words.registry_pos, words.request_pos, words.owner_nonneg, words.lifetime_nonneg, words.cycle_pos⟩

/-- Java takes the handle, and the registry gets back the word it issued. -/
structure WorksFromJava (handle : Handle) : Prop where
  positive : 0 < toJlong handle
  constructed : ∀ registryHandle, 0 < registryHandle →
    newNativeAsyncBridge registryHandle (toJlong handle) = .ok ⟨registryHandle, toJlong handle⟩
  starts : ∀ (registry : Registry) (words : CallerWords),
    ckNativeStartAsyncCycle registry words.registryHandle (toJlong handle) words.requestId words.ownerToken
        words.lifetimeToken words.cycleId =
      CkartaConnection.ckConnectionRegistryStartAsyncCycle registry handle.val words.requestId.toNat
        words.ownerToken.toNat words.lifetimeToken.toNat words.cycleId.toNat
  ends : ∀ (registry : Registry) (words : CallerWords) (event : ConnectionTerminal),
    ckNativeTryTerminal registry words.registryHandle (toJlong handle) words.requestId words.ownerToken
        words.lifetimeToken words.cycleId event.code =
      CkartaConnection.ckConnectionRegistryTryTerminal registry handle.val words.requestId.toNat
        words.ownerToken.toNat words.lifetimeToken.toNat words.cycleId.toNat event.code

def registryAfter (ops : List Op) : ConnectionRegistry :=
  ops.foldl (fun registry op => (call registry op).2) ckConnectionRegistryInit

def allocates : Op → Bool
  | .register _ _ _ _ allocation => allocation.succeeds
  | _ => false

/-- A registration that takes a slot with the upper half of its generations reached. -/
def TakesHighGeneration (registry : ConnectionRegistry) (op : Op) : Prop :=
  ∃ index, attemptedSlot registry op = some index ∧ allocates op = true ∧
    2147483648 ≤ nextGeneration (registry.entries index).generation

theorem nextGeneration_lt (generation : Nat) : nextGeneration generation < 4294967296 := by
  unfold nextGeneration
  split <;> omega

theorem toJlong_makeHandle {index generation : Nat} (slot : index < registryCapacity)
    (small : generation < 4294967296) :
    0 < toJlong (makeHandle index generation) ↔ generation < 2147483648 := by
  have word := makeHandle_val slot small
  simp only [registryCapacity] at slot
  unfold toJlong
  rw [word]
  split <;> omega

theorem toJlong_val {handle : Handle} (positive : 0 < toJlong handle) : toJlong handle = handle.val := by
  have small := handle.isLt
  unfold toJlong at positive ⊢
  split
  · rfl
  · rename_i high
    rw [if_neg high] at positive
    omega

/-- A positive handle is all that the Java side asks for. -/
theorem works_iff {handle : Handle} : WorksFromJava handle ↔ 0 < toJlong handle := by
  constructor
  · exact WorksFromJava.positive
  · intro positive
    have word := toJlong_val positive
    have back : (toJlong handle).toNat = handle.val := by omega
    have taken : ¬ toJlong handle ≤ 0 := by omega
    refine ⟨positive, ?_, ?_, ?_⟩
    · intro registryHandle given
      have known : ¬ registryHandle ≤ 0 := by omega
      simp [newNativeAsyncBridge, known, taken]
    · intro registry words
      obtain ⟨known, request, owner, lifetime, cycle⟩ := words.fine
      rw [ckNativeStartAsyncCycle, if_neg (by omega), back]
    · intro registry words event
      obtain ⟨known, request, owner, lifetime, cycle⟩ := words.fine
      have named : ¬ (event.code < ConnectionTerminal.complete.code ∨
          event.code > ConnectionTerminal.shutdown.code) := by
        cases event <;> decide
      rw [ckNativeTryTerminal, if_neg (by omega), back]

theorem registration_allocates {registry : ConnectionRegistry} {op : Op} {index : Nat}
    (tried : attemptedSlot registry op = some index) : (registration registry index op).1 = allocates op := by
  obtain ⟨connectionId, requestId, ownerToken, lifetimeToken, allocation, rfl⟩ := register_of_tried tried
  obtain ⟨reader, writer, body, response⟩ := allocation
  simp only [attemptedSlot] at tried
  split at tried
  · cases tried
  · rename_i fine
    have ids : ¬ (connectionId = 0 ∨ requestId = 0) := fun bad => fine (.inr bad)
    simp only [registration, ckConnectionInitOwned, ckConnectionInit, if_neg ids, allocates,
      Allocation.succeeds]
    cases reader <;> cases writer <;> cases body <;> cases response <;> rfl

theorem issued_works_iff (registry : ConnectionRegistry) (op : Op) :
    (∀ handle, (call registry op).1.handle = some handle → WorksFromJava handle) ↔
      ¬ TakesHighGeneration registry op := by
  constructor
  · rintro works ⟨index, tried, allocated, high⟩
    have registers := register_registers tried
    have made := registration_allocates tried
    have issued : (call registry op).1.handle =
        some (makeHandle index (nextGeneration (registry.entries index).generation)) := by
      rw [registers.replied, made, allocated]
      rfl
    have positive := (works _ issued).positive
    rw [toJlong_makeHandle registers.slot (nextGeneration_lt _)] at positive
    omega
  · intro low handle issued
    obtain ⟨index, registers, rfl⟩ := call_issues issued
    rw [works_iff, toJlong_makeHandle registers.slot (nextGeneration_lt _)]
    by_contra high
    refine low ⟨index, registers.tried, ?_, by omega⟩
    rw [registers.replied] at issued
    cases made : (registration registry index op).1 with
    | false =>
      rw [made] at issued
      cases issued
    | true => rw [← registration_allocates registers.tried, made]

/-- Over any run of registry calls: every handle that is issued works from Java, exactly when
    no registration of the run takes a slot whose next generation is 2^31 or more. -/
theorem issued_handles_work_iff (ops : List Op) :
    (∀ before op after handle, ops = before ++ op :: after →
      (call (registryAfter before) op).1.handle = some handle → WorksFromJava handle) ↔
    ∀ before op after, ops = before ++ op :: after → ¬ TakesHighGeneration (registryAfter before) op := by
  constructor
  · intro works before op after cut
    exact (issued_works_iff _ op).mp fun handle issued => works before op after handle cut issued
  · intro low before op after handle cut
    exact (issued_works_iff _ op).mpr (low before op after cut) handle

def bindingCaller (b : CycleBinding) (handle : Handle) : Caller :=
  ⟨handle, b.requestId.toNat, b.ownerToken.toNat, b.lifetimeToken.toNat⟩

theorem registryAfter_snoc (ops : List Op) (op : Op) :
    registryAfter (ops ++ [op]) = (call (registryAfter ops) op).2 := by
  simp [registryAfter]

section
variable {b : CycleBinding} {handle : Handle} {ops : List Op}

theorem startCycle_served (named : toJlong handle = b.connectionHandle) :
    b.startCycle (registryAfter ops).core =
      ((call (registryAfter ops) (.startAsyncCycle (bindingCaller b handle) b.cycleId.toNat)).1.result,
        (registryAfter (ops ++ [.startAsyncCycle (bindingCaller b handle) b.cycleId.toNat])).core) := by
  obtain ⟨known, connection, request, owner, lifetime, cycle⟩ : 0 < b.registryHandle ∧
      0 < b.connectionHandle ∧ 0 < b.requestId ∧ 0 ≤ b.ownerToken ∧ 0 ≤ b.lifetimeToken ∧ 0 < b.cycleId :=
    ⟨b.registry_pos, b.connection_pos, b.request_pos, b.owner_nonneg, b.lifetime_nonneg, b.cycle_pos⟩
  have word : toJlong handle = handle.val := toJlong_val (named ▸ connection)
  have back : b.connectionHandle.toNat = handle.val := by omega
  rw [CycleBinding.startCycle, ckNativeStartAsyncCycle, if_neg (by omega), back, registryAfter_snoc]
  exact (startAsyncCycle_core (registryAfter ops) (bindingCaller b handle) b.cycleId.toNat).symm

theorem nativeTerminal_served (named : toJlong handle = b.connectionHandle) (event : Int) :
    (b.nativeTerminal (registryAfter ops).core event).2 =
      (registryAfter (ops ++ [.tryTerminal (bindingCaller b handle) b.cycleId.toNat event])).core := by
  have connection := b.connection_pos
  have word : toJlong handle = handle.val := toJlong_val (named ▸ connection)
  have back : b.connectionHandle.toNat = handle.val := by omega
  rw [CycleBinding.nativeTerminal, back, registryAfter_snoc]
  exact congrArg Prod.snd
    (tryTerminal_core (registryAfter ops) (bindingCaller b handle) b.cycleId.toNat event).symm

theorem tryTerminal_native (b : CycleBinding) (registry : Registry) (event : TerminalEvent) :
    b.tryTerminal registry event = b.nativeTerminal registry event.ordinal := by
  obtain ⟨known, connection, request, owner, lifetime, cycle⟩ : 0 < b.registryHandle ∧
      0 < b.connectionHandle ∧ 0 < b.requestId ∧ 0 ≤ b.ownerToken ∧ 0 ≤ b.lifetimeToken ∧ 0 < b.cycleId :=
    ⟨b.registry_pos, b.connection_pos, b.request_pos, b.owner_nonneg, b.lifetime_nonneg, b.cycle_pos⟩
  have ordinals : ¬ (event.ordinal < ConnectionTerminal.complete.code ∨
      event.ordinal > ConnectionTerminal.shutdown.code) := by
    cases event <;> decide
  rw [CycleBinding.tryTerminal, ckNativeTryTerminal, if_neg (by omega), CycleBinding.nativeTerminal]

theorem threadStep_registry {s : AsyncSystem} {sinkThrows : Bool} {thread : Thread}
    {next : Thread × AsyncSystem} (moved : threadStep b s sinkThrows thread = some next) :
    next.2.registry = s.registry ∨
      ∃ event, next.2.registry = (b.tryTerminal s.registry event).2 := by
  cases thread with
  | addListener listener pc =>
    cases pc <;> simp only [threadStep, listenerStep, reduceCtorEq, Option.some.injEq] at moved <;>
      subst moved <;> exact .inl rfl
  | terminate event failOnRace sinkFailed pc =>
    simp only [threadStep] at moved
    cases pc with
    | native =>
      simp only [terminateStep] at moved
      split at moved <;> cases moved <;> exact .inr ⟨event, rfl⟩
    | firing rest => cases rest <;> cases moved <;> exact .inl rfl
    | done outcome => cases moved
    | checkActive | gate | cas | fire =>
      simp only [terminateStep] at moved
      split at moved <;> cases moved <;> exact .inl rfl
    | sink | publish | invalidate =>
      cases moved
      exact .inl rfl

theorem step_served {s t : AsyncSystem} {move : Move} (named : toJlong handle = b.connectionHandle)
    (held : s.registry = (registryAfter ops).core) (next : step b s move = some t) :
    ∃ more, (∀ op ∈ more, target op = some handle) ∧ t.registry = (registryAfter (ops ++ more)).core := by
  have ends : ∀ event, ∃ more, (∀ op ∈ more, target op = some handle) ∧
      (b.nativeTerminal s.registry event).2 = (registryAfter (ops ++ more)).core := by
    intro event
    refine ⟨[.tryTerminal (bindingCaller b handle) b.cycleId.toNat event], ?_, ?_⟩
    · intro op member
      rw [List.mem_singleton.mp member]
      rfl
    · rw [held]
      exact nativeTerminal_served named event
  have rests : ∃ more, (∀ op ∈ more, target op = some handle) ∧
      s.registry = (registryAfter (ops ++ more)).core := ⟨[], by simp, by rw [held, List.append_nil]⟩
  cases move with
  | call call =>
    cases next
    exact rests
  | addListener listener =>
    cases next
    exact rests
  | advance i sinkThrows =>
    simp only [step, Option.bind_eq_some_iff, Option.map_eq_some_iff] at next
    obtain ⟨thread, -, moved, advanced, rfl⟩ := next
    obtain kept | ⟨event, asked⟩ := threadStep_registry advanced
    · simpa only [kept] using rests
    · simpa only [asked, tryTerminal_native] using ends event.ordinal
  | native event =>
    cases next
    exact ends event

end

/-- An async context works on the whole registry. Bound over any registry that calls lead to,
    it keeps in every interleaving to a registry that further calls on its own handle lead to. -/
theorem context_served {b : CycleBinding} {handle : Handle} {ops : List Op} {start s : AsyncSystem}
    {moves : List Move} (named : toJlong handle = b.connectionHandle)
    (opened : bound b (registryAfter ops).core = some start) (run : runMoves b start moves = some s) :
    ∃ more, (∀ op ∈ more, target op = some handle) ∧ s.registry = (registryAfter (ops ++ more)).core := by
  have started : ∃ more, (∀ op ∈ more, target op = some handle) ∧
      start.registry = (registryAfter (ops ++ more)).core := by
    simp only [bound, Option.ite_none_right_eq_some, Option.some.injEq] at opened
    obtain ⟨-, rfl⟩ := opened
    refine ⟨[.startAsyncCycle (bindingCaller b handle) b.cycleId.toNat], ?_, ?_⟩
    · intro op member
      rw [List.mem_singleton.mp member]
      rfl
    · rw [startCycle_served named]
  clear opened
  induction moves generalizing start with
  | nil =>
    cases run
    exact started
  | cons move moves ih =>
    simp only [runMoves, Option.bind_eq_some_iff] at run
    obtain ⟨next, stepped, rest⟩ := run
    obtain ⟨first, own, held⟩ := started
    obtain ⟨more, further, reached⟩ := step_served named held stepped
    refine ih rest ⟨first ++ more, ?_, by rw [reached, List.append_assoc]⟩
    intro op member
    exact (List.mem_append.mp member).elim (own op) (further op)

def connectionCaller (generation : Nat) : Caller := ⟨makeHandle 0 generation, 7, 5, 9⟩

def connectionRegister : Op := .register 3 7 5 9 ⟨some 1, some 2, true, true⟩

/-- One connection in the first slot, from its registration to its retirement, when the
    registration brings the slot to this generation. -/
def connectionLife (generation : Nat) : List Op :=
  [connectionRegister, .startAsyncCycle (connectionCaller generation) 1,
    .tryTerminal (connectionCaller generation) 1 0, .close (connectionCaller generation) 0,
    .retire (connectionCaller generation)]

def connectionLives : Nat → List Op
  | 0 => []
  | n + 1 => connectionLives n ++ connectionLife (n + 1)

def lived (lifecycle : Nat) (reader writer : Option Nat) : OwnedConnection :=
  ⟨⟨3, 7, 5, 9, lifecycle⟩, -1, reader, writer, -1⟩

structure FirstSlot (registry : ConnectionRegistry) (generation : Nat) (connection : OwnedConnection)
    (active : Bool) : Prop where
  ready : registry.initialized = true
  entry : registry.entries 0 = ⟨connection, generation, 0, 0, active⟩

theorem call_first {registry : ConnectionRegistry} {op : Op} {generation : Nat}
    {before after : OwnedConnection} {active : Bool} (first : FirstSlot registry generation before true)
    (tried : 0 < generation) (small : generation < 4294967296)
    (names : target op = some (makeHandle 0 generation)) (fine : ¬ malformed op)
    (known : matching op before = true)
    (acts : (action op 0 ⟨before, generation, 0, 0, true⟩).2 = ⟨after, generation, 0, 0, active⟩) :
    FirstSlot (call registry op).2 generation after active := by
  have found : find registry (makeHandle 0 generation) = some 0 := by
    rw [find_decodes, decodeHandle_iff, first.entry]
    exact ⟨rfl, by decide, tried, small, makeHandle_val (by decide) small⟩
  have called : (call registry op).2 = registry.set 0 ⟨after, generation, 0, 0, active⟩ := by
    rw [call_target registry names fine]
    simp [operate, first.ready, found, first.entry, known, acts]
  rw [called]
  exact ⟨first.ready, set_same _ _ _⟩

theorem registered_first {registry : ConnectionRegistry} {generation : Nat} {old : OwnedConnection}
    (first : FirstSlot registry generation old false) (small : generation + 1 < 4294967296) :
    (call registry connectionRegister).1.handle = some (makeHandle 0 (generation + 1)) ∧
      FirstSlot (call registry connectionRegister).2 (generation + 1)
        (lived (ckConnectionPack .opened (-1) 0) (some 1) (some 2)) true := by
  have free : firstFree registry = some 0 := by
    have front : List.range registryCapacity = 0 :: (List.range 255).map Nat.succ := List.range_succ_eq_map
    rw [firstFree, front, List.find?_cons_of_pos]
    rw [first.entry]
    rfl
  have next : nextGeneration (registry.entries 0).generation = generation + 1 := by
    rw [first.entry, nextGeneration]
    dsimp only
    rw [if_neg (by omega), Nat.mod_eq_of_lt small]
  have tried : attemptedSlot registry connectionRegister = some 0 := by
    simp [attemptedSlot, connectionRegister, first.ready, free]
  have registers := register_registers tried
  rw [registers.replied, registers.changed, registration_allocates tried, next]
  exact ⟨rfl, first.ready, set_same _ _ _⟩

theorem life_first {registry : ConnectionRegistry} {generation : Nat} {old : OwnedConnection}
    (first : FirstSlot registry generation old false) (small : generation + 1 < 4294967296) :
    FirstSlot ((connectionLife (generation + 1)).foldl (fun registry op => (call registry op).2) registry)
      (generation + 1) (lived (ckConnectionPack .closed 0 1) none none) false := by
  have tried := Nat.succ_pos generation
  have ends : ckConnectionTryTerminal (lived (ckConnectionPack .asyncWait (-1) 1) (some 1) (some 2)).toConnection 0 =
      (terminalClaimed, (lived (ckConnectionPack .closing 0 1) (some 1) (some 2)).toConnection) := by decide
  have closes : ckConnectionClose (lived (ckConnectionPack .closing 0 1) (some 1) (some 2)) 0 =
      (0, lived (ckConnectionPack .closed 0 1) none none, none) := by decide
  have opened := (registered_first first small).2
  have waiting : FirstSlot (call _ (.startAsyncCycle (connectionCaller (generation + 1)) 1)).2 (generation + 1)
      (lived (ckConnectionPack .asyncWait (-1) 1) (some 1) (some 2)) true :=
    call_first opened tried small rfl id rfl rfl
  have ending : FirstSlot (call _ (.tryTerminal (connectionCaller (generation + 1)) 1 0)).2 (generation + 1)
      (lived (ckConnectionPack .closing 0 1) (some 1) (some 2)) true :=
    call_first waiting tried small rfl id rfl (by rw [action, ends]; rfl)
  have closed : FirstSlot (call _ (.close (connectionCaller (generation + 1)) 0)).2 (generation + 1)
      (lived (ckConnectionPack .closed 0 1) none none) true :=
    call_first ending tried small rfl id rfl (by rw [action, if_neg (by simp), closes])
  have retires : ¬ ((0 : Nat) ≠ 0 ∨ (0 : Nat) ≠ 0 ∨
      unpackState (lived (ckConnectionPack .closed 0 1) none none).lifecycle ≠ ConnectionState.closed.code ∨
      (lived (ckConnectionPack .closed 0 1) none none).socketFd ≥ 0) := by decide
  exact call_first closed tried small rfl id rfl (by rw [action, if_neg retires])

theorem registryAfter_append (before after : List Op) :
    registryAfter (before ++ after) =
      after.foldl (fun registry op => (call registry op).2) (registryAfter before) := by
  simp [registryAfter]

theorem lives_first {n : Nat} (small : n < 4294967296) :
    ∃ last, FirstSlot (registryAfter (connectionLives n)) n last false := by
  induction n with
  | zero => exact ⟨_, rfl, rfl⟩
  | succ n ih =>
    obtain ⟨last, before⟩ := ih (by omega)
    rw [connectionLives, registryAfter_append]
    exact ⟨_, life_first before small⟩

/-- After 2^31 - 1 connections in the first slot the next handle is negative as a jlong, and
    Java and the native entry points refuse it. -/
theorem high_handle_refused :
    (call (registryAfter (connectionLives 2147483647)) connectionRegister).1.handle =
        some 9223372036854775809 ∧
      toJlong 9223372036854775809 = -9223372036854775807 ∧
      newNativeAsyncBridge 1 (-9223372036854775807) = .error "connectionHandle must be positive" ∧
      ¬ ∀ before op after handle, connectionLives 2147483647 ++ [connectionRegister] = before ++ op :: after →
        (call (registryAfter before) op).1.handle = some handle → WorksFromJava handle := by
  obtain ⟨last, first⟩ := lives_first (n := 2147483647) (by decide)
  have issued := (registered_first first (by decide)).1
  have negative : toJlong 9223372036854775809 = -9223372036854775807 := by decide
  refine ⟨issued, negative, by decide, ?_⟩
  intro works
  have positive := (works _ connectionRegister [] 9223372036854775809 rfl issued).positive
  rw [negative] at positive
  cases positive

end CkartaNativeHandles
