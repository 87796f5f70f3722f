import Ckarta.MachineWord

/-!
Connection lifecycle and registry, c/connection/ck_connection.[ch] and
ck_connection_registry.[ch], as far as an async cycle needs them. The lifecycle word is
a natural number below 2^64; its three fields do not overlap, so the shifts and masks
are divisions and remainders. Every registry operation runs under the registry mutex
and is one function here; the weak compare-exchange loop then ends at the word it read.
-/
namespace CkartaConnection
open MachineWord

inductive ConnectionState where
  | opened
  | asyncWait
  | closing
  | closed
  deriving DecidableEq, Repr

def ConnectionState.code : ConnectionState → Nat
  | .opened => 0
  | .asyncWait => 1
  | .closing => 2
  | .closed => 3

inductive ConnectionTerminal where
  | complete
  | clientDisconnect
  | timeout
  | error
  | shutdown
  deriving DecidableEq, Repr

def ConnectionTerminal.code : ConnectionTerminal → Int
  | .complete => 0
  | .clientDisconnect => 1
  | .timeout => 2
  | .error => 3
  | .shutdown => 4

def terminalClaimed : Int := 0
def terminalAlreadySame : Int := 1
def terminalAlreadyDifferent : Int := 2

def cycleMask : Nat := 281474976710655

def ckConnectionPack (state : ConnectionState) (event : Int) (cycleId : Nat) : Nat :=
  let eventBits := if event < 0 then 255 else event.toNat
  cycleId % 281474976710656 * 65536 + eventBits % 256 * 256 + state.code % 256

def unpackState (lifecycle : Nat) : Nat := lifecycle % 256

def unpackEvent (lifecycle : Nat) : Int :=
  if lifecycle / 256 % 256 = 255 then -1 else (lifecycle / 256 % 256 : Nat)

def unpackCycle (lifecycle : Nat) : Nat := lifecycle / 65536 % 281474976710656

def validEvent (event : Int) : Bool :=
  decide (ConnectionTerminal.complete.code ≤ event) && decide (event ≤ ConnectionTerminal.shutdown.code)

def validCycleId (cycleId : Nat) : Bool := cycleId != 0 && decide (cycleId ≤ cycleMask)

structure Connection where
  connectionId : Nat
  requestId : Nat
  ownerToken : Nat
  lifetimeToken : Nat
  lifecycle : Nat
  deriving DecidableEq, Repr

def ckConnectionInit (connectionId requestId ownerToken lifetimeToken : Nat) : Option Connection :=
  if connectionId = 0 ∨ requestId = 0 then none
  else some ⟨connectionId, requestId, ownerToken, lifetimeToken, ckConnectionPack .opened (-1) 0⟩

def ckConnectionStartAsyncCycle (connection : Connection) (cycleId : Nat) : Int × Connection :=
  if !validCycleId cycleId then (-1, connection)
  else if connection.lifecycle = ckConnectionPack .opened (-1) 0 then
    (0, { connection with lifecycle := ckConnectionPack .asyncWait (-1) cycleId })
  else (1, connection)

def ckConnectionTryTerminal (connection : Connection) (event : Int) : Int × Connection :=
  if !validEvent event then (-1, connection)
  else
    let state := unpackState connection.lifecycle
    if state = ConnectionState.closing.code ∨ state = ConnectionState.closed.code then
      if unpackEvent connection.lifecycle = event then (terminalAlreadySame, connection)
      else (terminalAlreadyDifferent, connection)
    else if state ≠ ConnectionState.opened.code ∧ state ≠ ConnectionState.asyncWait.code then
      (-1, connection)
    else (terminalClaimed, { connection with
      lifecycle := ckConnectionPack .closing event (unpackCycle connection.lifecycle) })

def sameOwner (connection : Connection) (requestId ownerToken lifetimeToken : Nat) : Bool :=
  connection.requestId == requestId && connection.ownerToken == ownerToken &&
    connection.lifetimeToken == lifetimeToken

def ckConnectionValidate (connection : Connection) (requestId ownerToken lifetimeToken : Nat) : Bool :=
  requestId != 0 && sameOwner connection requestId ownerToken lifetimeToken

def ckConnectionValidateCycle (connection : Connection)
    (requestId ownerToken lifetimeToken cycleId : Nat) : Bool :=
  requestId != 0 && validCycleId cycleId &&
    sameOwner connection requestId ownerToken lifetimeToken &&
    unpackCycle connection.lifecycle == cycleId

def registryCapacity : Nat := 256

structure RegistryEntry where
  connection : Connection
  generation : Nat
  active : Bool
  deriving DecidableEq, Repr

structure Registry where
  entries : Nat → RegistryEntry
  initialized : Bool

def decodeHandle (handle : Nat) : Option (Nat × Nat) :=
  if handle = 0 then none
  else
    let slot := handle % 4294967296
    if slot = 0 ∨ slot > registryCapacity then none
    else if handle / 4294967296 % 4294967296 = 0 then none
    else some (slot - 1, handle / 4294967296 % 4294967296)

def registryFind (registry : Registry) (handle : Nat) : Option Nat :=
  match decodeHandle handle with
  | none => none
  | some (index, generation) =>
    if !(registry.entries index).active || (registry.entries index).generation != generation then none
    else some index

def Registry.put (registry : Registry) (index : Nat) (connection : Connection) : Registry :=
  { registry with entries := fun i =>
      if i = index then { registry.entries index with connection := connection }
      else registry.entries i }

/-- What the registry operations share: find the entry, validate the caller, act on it. -/
def registryOperation (registry : Registry) (handle : Nat) (valid : Connection → Bool)
    (act : Connection → Int × Connection) : Int × Registry :=
  if !registry.initialized then (-1, registry)
  else match registryFind registry handle with
    | none => (-2, registry)
    | some index =>
      let connection := (registry.entries index).connection
      if !valid connection then (-3, registry)
      else ((act connection).1, registry.put index (act connection).2)

def ckConnectionRegistryStartAsyncCycle (registry : Registry)
    (handle requestId ownerToken lifetimeToken cycleId : Nat) : Int × Registry :=
  registryOperation registry handle
    (fun connection => ckConnectionValidate connection requestId ownerToken lifetimeToken)
    (fun connection => ckConnectionStartAsyncCycle connection cycleId)

def ckConnectionRegistryTryTerminal (registry : Registry)
    (handle requestId ownerToken lifetimeToken cycleId : Nat) (event : Int) : Int × Registry :=
  registryOperation registry handle
    (fun connection => ckConnectionValidateCycle connection requestId ownerToken lifetimeToken cycleId)
    (fun connection => ckConnectionTryTerminal connection event)

theorem unpackState_pack (state : ConnectionState) (event : Int) (cycleId : Nat) :
    unpackState (ckConnectionPack state event cycleId) = state.code := by
  simp only [unpackState, ckConnectionPack]
  cases state <;> simp only [ConnectionState.code] <;> omega

theorem unpackEvent_pack {state : ConnectionState} {event : Int} {cycleId : Nat}
    (valid : validEvent event = true) :
    unpackEvent (ckConnectionPack state event cycleId) = event := by
  simp only [validEvent, Bool.and_eq_true, decide_eq_true_eq] at valid
  have range : 0 ≤ event ∧ event ≤ 4 := valid
  have small : state.code % 256 < 256 := Nat.mod_lt _ (by omega)
  have bits : (if event < 0 then 255 else event.toNat) = event.toNat := if_neg (by omega)
  simp only [unpackEvent, ckConnectionPack, bits]
  have field : (cycleId % 281474976710656 * 65536 + event.toNat % 256 * 256 + state.code % 256) / 256 %
      256 = event.toNat := by omega
  rw [field, if_neg (by omega)]
  omega

theorem unpackCycle_pack (state : ConnectionState) (event : Int) (cycleId : Nat) :
    unpackCycle (ckConnectionPack state event cycleId) = cycleId % 281474976710656 := by
  simp only [unpackCycle, ckConnectionPack]
  generalize (if event < 0 then 255 else event.toNat) = bits
  omega

/-- The connection has ended: nothing but CLOSED can follow, and its event stays. -/
def Ended (connection : Connection) : Prop :=
  unpackState connection.lifecycle = ConnectionState.closing.code ∨
    unpackState connection.lifecycle = ConnectionState.closed.code

theorem tryTerminal_ended {connection : Connection} (event : Int) (ended : Ended connection) :
    (ckConnectionTryTerminal connection event).2 = connection := by
  have ended : unpackState connection.lifecycle = ConnectionState.closing.code ∨
    unpackState connection.lifecycle = ConnectionState.closed.code := ended
  simp only [ckConnectionTryTerminal, ended, ↓reduceIte]
  split
  · rfl
  · split <;> rfl

theorem tryTerminal_wins {connection : Connection} {event : Int}
    (won : (ckConnectionTryTerminal connection event).1 = terminalClaimed ∨
      (ckConnectionTryTerminal connection event).1 = terminalAlreadySame) :
    Ended (ckConnectionTryTerminal connection event).2 ∧
      unpackEvent (ckConnectionTryTerminal connection event).2.lifecycle = event := by
  simp only [ckConnectionTryTerminal] at won ⊢
  split at won
  · simp [terminalClaimed, terminalAlreadySame] at won
  · rename_i valid
    split at won
    · rename_i ended
      split at won
      · rename_i same
        simp only [valid, Bool.false_eq_true, ↓reduceIte, ended, same]
        exact ⟨ended, trivial⟩
      · simp [terminalClaimed, terminalAlreadySame, terminalAlreadyDifferent] at won
    · rename_i open_
      split at won
      · simp [terminalClaimed, terminalAlreadySame] at won
      · rename_i known
        simp only [valid, Bool.false_eq_true, ↓reduceIte, open_, known]
        exact ⟨.inl (unpackState_pack _ _ _), unpackEvent_pack (by simpa using valid)⟩

def registryLookup (registry : Registry) (handle : Nat) : Option Connection :=
  (registryFind registry handle).map fun i => (registry.entries i).connection

theorem registryFind_put (registry : Registry) (index handle : Nat) (connection : Connection) :
    registryFind (registry.put index connection) handle = registryFind registry handle := by
  have kept : ∀ i, ((registry.put index connection).entries i).active = (registry.entries i).active ∧
      ((registry.put index connection).entries i).generation = (registry.entries i).generation := by
    intro i
    simp only [Registry.put]
    by_cases same : i = index
    · simp [same]
    · simp [same]
  simp only [registryFind, (kept _).1, (kept _).2]

theorem registryLookup_put {registry : Registry} {index handle : Nat} {connection : Connection}
    (found : registryFind registry handle = some index) :
    registryLookup (registry.put index connection) handle = some connection := by
  rw [registryLookup, registryFind_put, found]
  simp [Registry.put]

/-- What an operation does to the entry it is called on: nothing, or its action. -/
theorem registryOperation_lookup (registry : Registry) (handle : Nat) (valid : Connection → Bool)
    (act : Connection → Int × Connection) :
    ((registryOperation registry handle valid act).2 = registry ∧
      (registryOperation registry handle valid act).1 < 0) ∨
    ∃ connection, registryLookup registry handle = some connection ∧
      (registryOperation registry handle valid act).1 = (act connection).1 ∧
      registryLookup (registryOperation registry handle valid act).2 handle =
        some (act connection).2 := by
  simp only [registryOperation]
  split
  · exact .inl ⟨rfl, by simp⟩
  · cases found : registryFind registry handle with
    | none => exact .inl ⟨rfl, by simp⟩
    | some index =>
      dsimp only
      split
      · exact .inl ⟨rfl, by simp⟩
      · refine .inr ⟨(registry.entries index).connection, by simp [registryLookup, found], rfl, ?_⟩
        exact registryLookup_put found

end CkartaConnection
