import Mathlib.Data.List.Count
import Ckarta.RegistryCalls

/-!
Threads over the connection registry: any of them makes registry calls, each one step
under the registry mutex, and the holder of a pin may call ck_connection_try_terminal on
the pinned connection, one step for the load of the lifecycle word and one for each weak
compare-exchange.
-/
namespace CkartaConnectionSystem
open MachineWord CkartaConnection CkartaConnectionRegistry CkartaRegistryCalls

/-- An acquired pin that was not released; birth says which connection of the slot it is on. -/
structure Held where
  kind : PinKind
  pin : Pin
  birth : Nat
  deriving DecidableEq, Repr

/-- A ck_connection_try_terminal in progress; current is the word it saw last. -/
structure TerminalCall where
  slot : Nat
  event : Int
  current : Option Nat
  deriving DecidableEq, Repr

/-- births counts the connections that were registered in each slot. -/
structure System where
  registry : ConnectionRegistry
  births : Nat → Nat
  held : List Held
  calls : List TerminalCall

inductive Move where
  | call (op : Op)
  | begin (held : Held) (event : Int)
  | load (running : TerminalCall)
  | exchange (running : TerminalCall) (spurious : Bool)
  deriving DecidableEq, Repr

abbrev Instance := Nat × Nat

/-- What a step answers: the result of the call that returned with it, the connection it
    looked at and the descriptor it gave to ck_socket_close. -/
structure Answer where
  result : Option Int
  acted : Option Instance
  closed : Option Int
  deriving DecidableEq, Repr

def System.word (s : System) (slot : Nat) : Nat := (s.registry.entries slot).connection.lifecycle

def System.current (s : System) (slot : Nat) : Instance := (slot, s.births slot)

def actedSlot (registry : ConnectionRegistry) (op : Op) : Option Nat := (target op).bind (find registry)

def birthsAfter (s : System) (op : Op) (reply : Reply) : Nat → Nat :=
  match attemptedSlot s.registry op with
  | some slot =>
    if reply.result = 0 then Function.update s.births slot (s.births slot + 1) else s.births
  | none => s.births

def isPin (kind : PinKind) (pin : Pin) (held : Held) : Bool := held.kind == kind && held.pin == pin

def heldAfter (s : System) (op : Op) (reply : Reply) : List Held :=
  match op with
  | .acquire kind _ _ =>
    if reply.result = 0 then ⟨kind, reply.pin, s.births (reply.pin.connection.getD 0)⟩ :: s.held else s.held
  | .release kind pin => if reply.result = 0 then s.held.eraseP (isPin kind pin) else s.held
  | _ => s.held

/-- The loop of ck_connection_try_terminal at the word it has: return, or try the exchange. -/
def look (running : TerminalCall) (word : Nat) : Int ⊕ TerminalCall :=
  let state := unpackState word
  if state = ConnectionState.closing.code ∨ state = ConnectionState.closed.code then
    if unpackEvent word = running.event then .inl terminalAlreadySame else .inl terminalAlreadyDifferent
  else if state ≠ ConnectionState.opened.code ∧ state ≠ ConnectionState.asyncWait.code then .inl (-1)
  else .inr { running with current := some word }

def proceed (s : System) (running : TerminalCall) : System × Answer :=
  match look running (s.word running.slot) with
  | .inl result => ({ s with calls := s.calls.erase running }, ⟨some result, some (s.current running.slot), none⟩)
  | .inr next =>
    ({ s with calls := next :: s.calls.erase running }, ⟨none, some (s.current running.slot), none⟩)

def setWord (registry : ConnectionRegistry) (slot word : Nat) : ConnectionRegistry :=
  registry.set slot { registry.entries slot with
    connection := { (registry.entries slot).connection with lifecycle := word } }

def step (s : System) : Move → Option (System × Answer)
  | .call op =>
    let (reply, registry) := call s.registry op
    some ({ s with
        registry := registry
        births := birthsAfter s op reply
        held := heldAfter s op reply },
      ⟨some reply.result, (actedSlot s.registry op).map s.current, reply.closed⟩)
  | .begin held event =>
    match held.pin.connection with
    | none => none
    | some slot =>
      if held ∉ s.held then none
      else if !validEvent event then some (s, ⟨some (-1), none, none⟩)
      else some ({ s with calls := ⟨slot, event, none⟩ :: s.calls }, ⟨none, none, none⟩)
  | .load running =>
    if running ∉ s.calls ∨ running.current ≠ none then none else some (proceed s running)
  | .exchange running spurious =>
    match running.current with
    | none => none
    | some word =>
      if running ∉ s.calls then none
      else if !spurious ∧ s.word running.slot = word then
        some ({ s with
            registry := setWord s.registry running.slot
              (ckConnectionPack .closing running.event (unpackCycle word))
            calls := s.calls.erase running },
          ⟨some terminalClaimed, some (s.current running.slot), none⟩)
      else some (proceed s running)

def start : System := ⟨ckConnectionRegistryInit, fun _ => 0, [], []⟩

/-- The reader pin of the first connection in the first slot. -/
def samplePin : Held := ⟨.reader, ⟨some 0, some 1, makeHandle 0 1⟩, 1⟩

end CkartaConnectionSystem
