import Mathlib.Logic.Function.Basic
import Ckarta.Connection

/-!
The whole connection registry, c/connection/ck_connection_registry.[ch], over the lifecycle
of Connection: slots with their generation, descriptors, the two kinds of pins, close and
retire. A pointer is an address, none is NULL; the connection object of a slot has the
slot's index for its address. The answers of malloc and close are arguments.
-/
namespace CkartaConnectionRegistry
open MachineWord CkartaConnection

/-- ck_connection_t with what it owns; writerFd is the socket_fd of *http_writer. -/
structure OwnedConnection extends Connection where
  socketFd : Int
  httpReader : Option Nat
  httpWriter : Option Nat
  writerFd : Int
  deriving DecidableEq, Repr

structure Entry where
  connection : OwnedConnection
  generation : Nat
  readerUsers : Nat
  outputUsers : Nat
  active : Bool
  deriving DecidableEq, Repr

structure ConnectionRegistry where
  entries : Nat → Entry
  initialized : Bool

abbrev Handle := Fin 18446744073709551616

def enospc : Int := 28
def eintr : Int := 4

/-- The part of the registry that an async cycle works on. -/
def ConnectionRegistry.core (registry : ConnectionRegistry) : Registry :=
  ⟨fun i => ⟨(registry.entries i).connection.toConnection, (registry.entries i).generation,
    (registry.entries i).active⟩, registry.initialized⟩

def ConnectionRegistry.set (registry : ConnectionRegistry) (index : Nat) (entry : Entry) :
    ConnectionRegistry := { registry with entries := Function.update registry.entries index entry }

def zeroEntry : Entry := ⟨⟨⟨0, 0, 0, 0, 0⟩, 0, none, none, 0⟩, 0, 0, 0, false⟩

def ckConnectionRegistryInit : ConnectionRegistry := ⟨fun _ => zeroEntry, true⟩

def makeHandle (index generation : Nat) : Handle :=
  Fin.ofNat 18446744073709551616 (generation * 4294967296 + (index + 1))

def find (registry : ConnectionRegistry) (handle : Handle) : Option Nat :=
  registryFind registry.core handle.val

structure Allocation where
  reader : Option Nat
  writer : Option Nat
  body : Bool
  response : Bool
  deriving DecidableEq, Repr

def Allocation.succeeds (allocation : Allocation) : Bool :=
  allocation.reader.isSome && allocation.writer.isSome && allocation.body && allocation.response

/-- ck_connection_init on the memory of an old connection. -/
def ckConnectionInitOwned (old : OwnedConnection)
    (connectionId requestId ownerToken lifetimeToken : Nat) (allocation : Allocation) :
    Bool × OwnedConnection :=
  match ckConnectionInit connectionId requestId ownerToken lifetimeToken with
  | none => (false, old)
  | some connection =>
    match allocation.reader, allocation.writer with
    | none, _ => (false, { old with httpReader := none })
    | some _, none => (false, { old with httpReader := none, httpWriter := none })
    | some reader, some writer =>
      if !allocation.body || !allocation.response then
        (false, { old with httpReader := none, httpWriter := none })
      else (true, ⟨connection, -1, some reader, some writer, -1⟩)

def ckConnectionAttachSocket (connection : OwnedConnection) (socketFd : Int) :
    Int × OwnedConnection :=
  if socketFd < 0 then (-1, connection)
  else if unpackState connection.lifecycle ≠ ConnectionState.opened.code then (1, connection)
  else if connection.socketFd ≥ 0 then (1, connection)
  else if connection.httpWriter = none ∨ connection.writerFd ≥ 0 then
    (-1, { connection with socketFd := -1 })
  else (0, { connection with socketFd := socketFd, writerFd := socketFd })

/-- The descriptor given to ck_socket_close is the third component; answer is what that
    call returns. -/
def ckConnectionClose (connection : OwnedConnection) (answer : Int) :
    Int × OwnedConnection × Option Int :=
  if unpackState connection.lifecycle = ConnectionState.closed.code then (1, connection, none)
  else if unpackState connection.lifecycle ≠ ConnectionState.closing.code ∨
      unpackEvent connection.lifecycle < 0 then (1, connection, none)
  else
    let freed : OwnedConnection := { connection with
      lifecycle := ckConnectionPack .closed (unpackEvent connection.lifecycle)
        (unpackCycle connection.lifecycle)
      socketFd := -1, httpReader := none, httpWriter := none }
    if connection.socketFd ≥ 0 then
      if answer ≠ 0 ∧ answer ≠ eintr then (-1, freed, some connection.socketFd)
      else (if answer = 0 then 0 else 2, freed, some connection.socketFd)
    else (0, freed, none)

structure Caller where
  handle : Handle
  requestId : Nat
  ownerToken : Nat
  lifetimeToken : Nat
  deriving DecidableEq, Repr

def Caller.valid (caller : Caller) (connection : OwnedConnection) : Bool :=
  ckConnectionValidate connection.toConnection caller.requestId caller.ownerToken caller.lifetimeToken

def Caller.validCycle (caller : Caller) (cycleId : Nat) (connection : OwnedConnection) : Bool :=
  ckConnectionValidateCycle connection.toConnection caller.requestId caller.ownerToken
    caller.lifetimeToken cycleId

inductive PinKind where
  | reader
  | output
  deriving DecidableEq, Repr

structure Pin where
  connection : Option Nat
  object : Option Nat
  handle : Handle
  deriving DecidableEq, Repr

def Pin.zero : Pin := ⟨none, none, 0⟩

def OwnedConnection.object (connection : OwnedConnection) : PinKind → Option Nat
  | .reader => connection.httpReader
  | .output => connection.httpWriter

def Entry.users (entry : Entry) : PinKind → Nat
  | .reader => entry.readerUsers
  | .output => entry.outputUsers

def Entry.setUsers (entry : Entry) (kind : PinKind) (n : Nat) : Entry :=
  match kind with
  | .reader => { entry with readerUsers := n }
  | .output => { entry with outputUsers := n }

/-- What a registry call answers: its result, the handle or pin it wrote, and the descriptor
    it gave to ck_socket_close. -/
structure Reply where
  result : Int
  handle : Option Handle
  pin : Pin
  closed : Option Int
  deriving DecidableEq, Repr

def answer (result : Int) : Reply := ⟨result, none, .zero, none⟩

def answerPin (result : Int) (pin : Pin) : Reply := ⟨result, none, pin, none⟩

def firstFree (registry : ConnectionRegistry) : Option Nat :=
  (List.range registryCapacity).find? fun i => !(registry.entries i).active

def nextGeneration (generation : Nat) : Nat :=
  if (generation + 1) % 4294967296 = 0 then 1 else (generation + 1) % 4294967296

def ckConnectionRegistryRegister (registry : ConnectionRegistry)
    (connectionId requestId ownerToken lifetimeToken : Nat) (allocation : Allocation) :
    Reply × ConnectionRegistry :=
  if !registry.initialized ∨ connectionId = 0 ∨ requestId = 0 then (answer (-1), registry)
  else match firstFree registry with
    | none => (answer enospc, registry)
    | some index =>
      let entry := registry.entries index
      let generation := nextGeneration entry.generation
      match ckConnectionInitOwned entry.connection connectionId requestId ownerToken lifetimeToken
          allocation with
      | (false, connection) =>
        (answer (-1), registry.set index ⟨connection, generation, 0, 0, false⟩)
      | (true, connection) =>
        (⟨0, some (makeHandle index generation), .zero, none⟩,
          registry.set index ⟨connection, generation, 0, 0, true⟩)

/-- What the other operations share: find the entry, validate the caller, act on it. -/
def operate (registry : ConnectionRegistry) (handle : Handle) (valid : OwnedConnection → Bool)
    (refused : Int → Reply) (act : Nat → Entry → Reply × Entry) : Reply × ConnectionRegistry :=
  if !registry.initialized then (refused (-1), registry)
  else match find registry handle with
    | none => (refused (-2), registry)
    | some index =>
      if !valid (registry.entries index).connection then (refused (-3), registry)
      else ((act index (registry.entries index)).1,
        registry.set index (act index (registry.entries index)).2)

def ckConnectionRegistryAttachSocket (registry : ConnectionRegistry) (caller : Caller)
    (socketFd : Int) : Reply × ConnectionRegistry :=
  if socketFd < 0 then (answer (-1), registry)
  else operate registry caller.handle caller.valid answer fun _ entry =>
    let (result, connection) := ckConnectionAttachSocket entry.connection socketFd
    (answer result, { entry with connection := connection })

def ckConnectionRegistryStartAsyncCycle (registry : ConnectionRegistry) (caller : Caller)
    (cycleId : Nat) : Reply × ConnectionRegistry :=
  operate registry caller.handle caller.valid answer fun _ entry =>
    let (result, connection) := ckConnectionStartAsyncCycle entry.connection.toConnection cycleId
    (answer result, { entry with
      connection := { entry.connection with toConnection := connection } })

def ckConnectionRegistryTryTerminal (registry : ConnectionRegistry) (caller : Caller)
    (cycleId : Nat) (event : Int) : Reply × ConnectionRegistry :=
  operate registry caller.handle (caller.validCycle cycleId) answer fun _ entry =>
    let (result, connection) := ckConnectionTryTerminal entry.connection.toConnection event
    (answer result, { entry with
      connection := { entry.connection with toConnection := connection } })

def acquire (kind : PinKind) (registry : ConnectionRegistry) (caller : Caller) (pin : Pin) :
    Reply × ConnectionRegistry :=
  if pin.connection ≠ none ∨ pin.object ≠ none ∨ pin.handle ≠ 0 then (answerPin (-1) pin, registry)
  else operate registry caller.handle caller.valid (fun result => answerPin result pin) fun index entry =>
    if unpackState entry.connection.lifecycle = ConnectionState.closed.code ∨
        entry.connection.object kind = none then (answerPin 1 pin, entry)
    else (answerPin 0 ⟨some index, entry.connection.object kind, caller.handle⟩,
      entry.setUsers kind ((entry.users kind + 1) % 4294967296))

def release (kind : PinKind) (registry : ConnectionRegistry) (pin : Pin) :
    Reply × ConnectionRegistry :=
  if !registry.initialized ∨ pin.connection = none ∨ pin.object = none ∨ pin.handle = 0 then
    (answerPin (-1) pin, registry)
  else match decodeHandle pin.handle.val with
    | none => (answerPin (-1) pin, registry)
    | some (index, generation) =>
      let entry := registry.entries index
      if !entry.active ∨ entry.generation ≠ generation ∨ some index ≠ pin.connection ∨
          entry.connection.object kind ≠ pin.object ∨ entry.users kind = 0 then
        (answerPin (-2) pin, registry)
      else (answerPin 0 .zero, registry.set index (entry.setUsers kind (entry.users kind - 1)))

def ckConnectionRegistryReaderAcquire := acquire .reader
def ckConnectionRegistryReaderRelease := release .reader
def ckConnectionRegistryOutputAcquire := acquire .output
def ckConnectionRegistryOutputRelease := release .output

def ckConnectionRegistryClose (registry : ConnectionRegistry) (caller : Caller) (closeAnswer : Int) :
    Reply × ConnectionRegistry :=
  operate registry caller.handle caller.valid answer fun _ entry =>
    if entry.readerUsers ≠ 0 ∨ entry.outputUsers ≠ 0 then (answer 2, entry)
    else
      let (result, connection, closed) := ckConnectionClose entry.connection closeAnswer
      (⟨result, none, .zero, closed⟩, { entry with connection := connection })

def ckConnectionRegistryRetire (registry : ConnectionRegistry) (caller : Caller) :
    Reply × ConnectionRegistry :=
  operate registry caller.handle caller.valid answer fun _ entry =>
    if entry.readerUsers ≠ 0 ∨ entry.outputUsers ≠ 0 ∨
        unpackState entry.connection.lifecycle ≠ ConnectionState.closed.code ∨
        entry.connection.socketFd ≥ 0 then (answer 1, entry)
    else (answer 0, { entry with active := false })

inductive Op where
  | register (connectionId requestId ownerToken lifetimeToken : Nat) (allocation : Allocation)
  | attachSocket (caller : Caller) (socketFd : Int)
  | startAsyncCycle (caller : Caller) (cycleId : Nat)
  | tryTerminal (caller : Caller) (cycleId : Nat) (event : Int)
  | acquire (kind : PinKind) (caller : Caller) (pin : Pin)
  | release (kind : PinKind) (pin : Pin)
  | close (caller : Caller) (closeAnswer : Int)
  | retire (caller : Caller)
  deriving DecidableEq, Repr

def call (registry : ConnectionRegistry) : Op → Reply × ConnectionRegistry
  | .register connectionId requestId ownerToken lifetimeToken allocation =>
    ckConnectionRegistryRegister registry connectionId requestId ownerToken lifetimeToken allocation
  | .attachSocket caller socketFd => ckConnectionRegistryAttachSocket registry caller socketFd
  | .startAsyncCycle caller cycleId => ckConnectionRegistryStartAsyncCycle registry caller cycleId
  | .tryTerminal caller cycleId event => ckConnectionRegistryTryTerminal registry caller cycleId event
  | .acquire .reader caller pin => ckConnectionRegistryReaderAcquire registry caller pin
  | .acquire .output caller pin => ckConnectionRegistryOutputAcquire registry caller pin
  | .release .reader pin => ckConnectionRegistryReaderRelease registry pin
  | .release .output pin => ckConnectionRegistryOutputRelease registry pin
  | .close caller closeAnswer => ckConnectionRegistryClose registry caller closeAnswer
  | .retire caller => ckConnectionRegistryRetire registry caller

end CkartaConnectionRegistry
