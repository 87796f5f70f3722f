import Ckarta.Connection

/-!
How a Servlet async cycle ends: java/org/ckarta/servlet/CkartaAsyncContext.java with its
CkartaAsyncCycleBinding, the CkartaNativeAsyncBridge and c/jni/ck_async_bridge.c. Each
atomic access of a Java object, each native call and each callback is one step; any
number of Java threads and native try_terminal calls are interleaved.
-/
namespace CkartaAsyncContext
open MachineWord CkartaConnection

inductive TerminalEvent where
  | complete
  | timeout
  | error
  | clientDisconnect
  | shutdown
  deriving DecidableEq, Repr

/-- Enum.ordinal(): the position in the Java declaration. -/
def TerminalEvent.ordinal : TerminalEvent → Int
  | .complete => 0
  | .timeout => 1
  | .error => 2
  | .clientDisconnect => 3
  | .shutdown => 4

def TerminalEvent.sameName : TerminalEvent → ConnectionTerminal
  | .complete => .complete
  | .timeout => .timeout
  | .error => .error
  | .clientDisconnect => .clientDisconnect
  | .shutdown => .shutdown

inductive State where
  | active
  | completing
  | completed
  | timingOut
  | errored
  | recycled
  deriving DecidableEq, Repr

inductive TerminalDecision where
  | claimed
  | alreadyClaimed
  | lost
  | error
  deriving DecidableEq, Repr

def maxCycleId : Int := 281474976710655

/-- A cycle's identity and the bridge it is bound to; the constructors refuse other values. -/
structure CycleBinding where
  registryHandle : Int
  connectionHandle : Int
  requestId : Int
  ownerToken : Int
  lifetimeToken : Int
  cycleId : Int
  registry_pos : 0 < registryHandle
  connection_pos : 0 < connectionHandle
  request_pos : 0 < requestId
  owner_nonneg : 0 ≤ ownerToken
  lifetime_nonneg : 0 ≤ lifetimeToken
  cycle_pos : 0 < cycleId
  cycle_le : cycleId ≤ maxCycleId

def ckNativeStartAsyncCycle (registry : Registry) (registryHandle connectionHandle requestId
    ownerToken lifetimeToken cycleId : Int) : Int × Registry :=
  if registryHandle ≤ 0 ∨ connectionHandle ≤ 0 ∨ requestId ≤ 0 ∨ ownerToken < 0 ∨
      lifetimeToken < 0 ∨ cycleId ≤ 0 then (-1, registry)
  else ckConnectionRegistryStartAsyncCycle registry connectionHandle.toNat requestId.toNat
    ownerToken.toNat lifetimeToken.toNat cycleId.toNat

def ckNativeTryTerminal (registry : Registry) (registryHandle connectionHandle requestId
    ownerToken lifetimeToken cycleId event : Int) : Int × Registry :=
  if registryHandle ≤ 0 ∨ connectionHandle ≤ 0 ∨ requestId ≤ 0 ∨ ownerToken < 0 ∨
      lifetimeToken < 0 ∨ cycleId ≤ 0 ∨ event < ConnectionTerminal.complete.code ∨
      event > ConnectionTerminal.shutdown.code then (-1, registry)
  else ckConnectionRegistryTryTerminal registry connectionHandle.toNat requestId.toNat
    ownerToken.toNat lifetimeToken.toNat cycleId.toNat event

def CycleBinding.startCycle (b : CycleBinding) (registry : Registry) : Int × Registry :=
  ckNativeStartAsyncCycle registry b.registryHandle b.connectionHandle b.requestId b.ownerToken
    b.lifetimeToken b.cycleId

/-- CkartaNativeAsyncBridge.tryTerminal: the event crosses JNI as its ordinal. -/
def CycleBinding.tryTerminal (b : CycleBinding) (registry : Registry) (event : TerminalEvent) :
    Int × Registry :=
  ckNativeTryTerminal registry b.registryHandle b.connectionHandle b.requestId b.ownerToken
    b.lifetimeToken b.cycleId event.ordinal

def CycleBinding.nativeTerminal (b : CycleBinding) (registry : Registry) (event : Int) :
    Int × Registry :=
  ckConnectionRegistryTryTerminal registry b.connectionHandle.toNat b.requestId.toNat
    b.ownerToken.toNat b.lifetimeToken.toNat b.cycleId.toNat event

def decisionOf (result : Int) : TerminalDecision :=
  if result = 0 then .claimed
  else if result = 1 then .alreadyClaimed
  else if result = 2 then .lost
  else .error

def terminalState : TerminalEvent → State
  | .complete => .completing
  | .timeout => .timingOut
  | _ => .errored

inductive CallOutcome where
  | returned (won : Bool)
  | notActive
  | arbitrationFailed
  | sinkFailure
  deriving DecidableEq, Repr

/-- Where a tryTerminate call is; checkActive is the guard of start(). -/
inductive TerminatePc where
  | checkActive
  | gate
  | native
  | cas
  | sink
  | fire
  | firing (rest : List Nat)
  | publish
  | invalidate
  | done (outcome : CallOutcome)
  deriving DecidableEq, Repr

inductive ListenerPc where
  | checkActive
  | recheck
  | add
  | added
  | refused
  deriving DecidableEq, Repr

inductive Thread where
  | terminate (event : TerminalEvent) (failOnRace sinkFailed : Bool) (pc : TerminatePc)
  | addListener (listener : Nat) (pc : ListenerPc)
  deriving DecidableEq, Repr

structure AsyncSystem where
  registry : Registry
  active : Bool
  state : State
  listenerFired : Bool
  listeners : List Nat
  threads : List Thread
  sinkCalls : List TerminalEvent
  heard : List (Nat × TerminalEvent)

def bound (b : CycleBinding) (registry : Registry) : Option AsyncSystem :=
  if (b.startCycle registry).1 = 0 then
    some ⟨(b.startCycle registry).2, true, .active, false, [], [], [], []⟩
  else none

def terminateStep (b : CycleBinding) (s : AsyncSystem) (sinkThrows : Bool) (event : TerminalEvent)
    (failOnRace sinkFailed : Bool) : TerminatePc → Option (Thread × AsyncSystem)
  | .checkActive =>
    if s.state ≠ .active then some (.terminate event failOnRace sinkFailed (.done .notActive), s)
    else some (.terminate event failOnRace sinkFailed .gate, s)
  | .gate =>
    if !s.active then
      some (.terminate event failOnRace sinkFailed (.done (.returned false)), s)
    else some (.terminate event failOnRace sinkFailed .native, s)
  | .native =>
    let answer := b.tryTerminal s.registry event
    let called := { s with registry := answer.2 }
    match decisionOf answer.1 with
    | .error => some (.terminate event failOnRace sinkFailed
        (.done (if failOnRace then .arbitrationFailed else .returned false)), called)
    | .lost => some (.terminate event failOnRace sinkFailed (.done (.returned false)), called)
    | _ => some (.terminate event failOnRace sinkFailed .cas, called)
  | .cas =>
    if s.state = .active then
      some (.terminate event failOnRace sinkFailed .sink, { s with state := terminalState event })
    else some (.terminate event failOnRace sinkFailed (.done (.returned false)), s)
  | .sink => some (.terminate event failOnRace sinkThrows .fire,
      { s with sinkCalls := s.sinkCalls ++ [event] })
  | .fire =>
    if s.listenerFired then some (.terminate event failOnRace sinkFailed .publish, s)
    else some (.terminate event failOnRace sinkFailed (.firing s.listeners),
      { s with listenerFired := true })
  | .firing (listener :: rest) => some (.terminate event failOnRace sinkFailed (.firing rest),
      { s with heard := s.heard ++ [(listener, event)] })
  | .firing [] => some (.terminate event failOnRace sinkFailed .publish, s)
  | .publish => some (.terminate event failOnRace sinkFailed .invalidate,
      { s with state := .completed })
  | .invalidate => some (.terminate event failOnRace sinkFailed
      (.done (if sinkFailed && failOnRace then .sinkFailure else .returned true)),
      { s with active := false })
  | .done _ => none

def listenerStep (s : AsyncSystem) (listener : Nat) : ListenerPc → Option (Thread × AsyncSystem)
  | .checkActive => some (.addListener listener (if s.state ≠ .active then .refused else .recheck), s)
  | .recheck => some (.addListener listener (if s.state ≠ .active then .refused else .add), s)
  | .add => some (.addListener listener .added, { s with listeners := s.listeners ++ [listener] })
  | .added => none
  | .refused => none

def threadStep (b : CycleBinding) (s : AsyncSystem) (sinkThrows : Bool) :
    Thread → Option (Thread × AsyncSystem)
  | .terminate event failOnRace sinkFailed pc =>
    terminateStep b s sinkThrows event failOnRace sinkFailed pc
  | .addListener listener pc => listenerStep s listener pc

/-- The public operations that end a cycle; start() ends it by a rejected execution or by
    the exception of the runnable. -/
inductive Call where
  | complete
  | timeout
  | error
  | clientDisconnect
  | shutdown
  | startRejected
  | startThrew
  deriving DecidableEq, Repr

def Call.event : Call → TerminalEvent
  | .complete => .complete
  | .timeout => .timeout
  | .error | .startRejected | .startThrew => .error
  | .clientDisconnect => .clientDisconnect
  | .shutdown => .shutdown

def Call.thread : Call → Thread
  | .complete => .terminate .complete true false .gate
  | .timeout => .terminate .timeout false false .gate
  | .error => .terminate .error false false .gate
  | .clientDisconnect => .terminate .clientDisconnect false false .gate
  | .shutdown => .terminate .shutdown false false .gate
  | .startRejected => .terminate .error true false .checkActive
  | .startThrew => .terminate .error false false .checkActive

inductive Move where
  | call (call : Call)
  | addListener (listener : Nat)
  | advance (thread : Nat) (sinkThrows : Bool)
  | native (event : Int)
  deriving DecidableEq, Repr

def step (b : CycleBinding) (s : AsyncSystem) : Move → Option AsyncSystem
  | .call call => some { s with threads := s.threads ++ [call.thread] }
  | .addListener listener =>
    some { s with threads := s.threads ++ [.addListener listener .checkActive] }
  | .advance i sinkThrows => (s.threads[i]?).bind fun thread =>
      (threadStep b s sinkThrows thread).map fun next =>
        { next.2 with threads := s.threads.set i next.1 }
  | .native event => some { s with registry := (b.nativeTerminal s.registry event).2 }

def runMoves (b : CycleBinding) (s : AsyncSystem) : List Move → Option AsyncSystem
  | [] => some s
  | move :: moves => (step b s move).bind fun next => runMoves b next moves

def boundConnection (b : CycleBinding) (registry : Registry) : Option Connection :=
  registryLookup registry b.connectionHandle.toNat

def recorded (b : CycleBinding) (registry : Registry) : Option Int :=
  (boundConnection b registry).map fun c => unpackEvent c.lifecycle

/-- The sink heard of at most one end, and the native side recorded it by the same name. -/
def SidesAgree (b : CycleBinding) (s : AsyncSystem) : Prop :=
  s.sinkCalls.length ≤ 1 ∧ ∀ e ∈ s.sinkCalls, recorded b s.registry = some e.sameName.code

/-- The bound connection has ended with the number this event crosses JNI as. -/
def Claimed (b : CycleBinding) (registry : Registry) (event : TerminalEvent) : Prop :=
  ∃ c, boundConnection b registry = some c ∧ Ended c ∧ unpackEvent c.lifecycle = event.ordinal

theorem registryTryTerminal_claimed {b : CycleBinding} {registry : Registry} {e : TerminalEvent}
    {requestId ownerToken lifetimeToken cycleId : Nat} {event : Int} (claimed : Claimed b registry e) :
    Claimed b (ckConnectionRegistryTryTerminal registry b.connectionHandle.toNat requestId ownerToken
      lifetimeToken cycleId event).2 e := by
  obtain ⟨c, look, ended, same⟩ := claimed
  rcases registryOperation_lookup registry b.connectionHandle.toNat
      (fun c => ckConnectionValidateCycle c requestId ownerToken lifetimeToken cycleId)
      (fun c => ckConnectionTryTerminal c event) with ⟨kept, -⟩ | ⟨c', look', -, after⟩
  · exact ⟨c, by rw [ckConnectionRegistryTryTerminal, kept]; exact look, ended, same⟩
  · rw [boundConnection] at look
    rw [look] at look'
    obtain rfl := Option.some.inj look'
    rw [tryTerminal_ended event ended] at after
    exact ⟨c, after, ended, same⟩

theorem nativeTerminal_claimed {b : CycleBinding} {registry : Registry} {e : TerminalEvent}
    {event : Int} (claimed : Claimed b registry e) :
    Claimed b (b.nativeTerminal registry event).2 e := registryTryTerminal_claimed claimed

theorem tryTerminal_claimed {b : CycleBinding} {registry : Registry} {e event : TerminalEvent}
    (claimed : Claimed b registry e) : Claimed b (b.tryTerminal registry event).2 e := by
  simp only [CycleBinding.tryTerminal, ckNativeTryTerminal]
  split
  · exact claimed
  · exact registryTryTerminal_claimed claimed

theorem tryTerminal_claims {b : CycleBinding} {registry : Registry} {event : TerminalEvent}
    (won : decisionOf (b.tryTerminal registry event).1 = .claimed ∨
      decisionOf (b.tryTerminal registry event).1 = .alreadyClaimed) :
    Claimed b (b.tryTerminal registry event).2 event := by
  have answer : (b.tryTerminal registry event).1 = terminalClaimed ∨
      (b.tryTerminal registry event).1 = terminalAlreadySame := by
    simp only [decisionOf] at won
    simp only [terminalClaimed, terminalAlreadySame]
    grind
  simp only [CycleBinding.tryTerminal, ckNativeTryTerminal] at answer ⊢
  split at answer
  · simp [terminalClaimed, terminalAlreadySame] at answer
  · rename_i passes
    rw [if_neg passes]
    simp only [ckConnectionRegistryTryTerminal] at answer ⊢
    rcases registryOperation_lookup registry b.connectionHandle.toNat
        (fun c => ckConnectionValidateCycle c b.requestId.toNat b.ownerToken.toNat
          b.lifetimeToken.toNat b.cycleId.toNat)
        (fun c => ckConnectionTryTerminal c event.ordinal) with ⟨-, refused⟩ | ⟨c, -, result, after⟩
    · simp only [terminalClaimed, terminalAlreadySame] at answer
      omega
    · rw [result] at answer
      obtain ⟨ended, same⟩ := tryTerminal_wins answer
      exact ⟨_, after, ended, same⟩

def atSink : Thread → Bool
  | .terminate _ _ _ .sink => true
  | _ => false

/-- The event of a thread that the gate has let through and that may still reach the sink. -/
def passed : Thread → Option TerminalEvent
  | .terminate event _ _ .cas => some event
  | .terminate event _ _ .sink => some event
  | _ => none

/-- What every interleaving keeps: one thread at most stands before the sink, the sink was
    called at most once, and both know the recorded number. -/
structure Sound (b : CycleBinding) (s : AsyncSystem) : Prop where
  quiet : s.state = .active → s.sinkCalls = [] ∧ ∀ t ∈ s.threads, atSink t = false
  first : ∀ t ∈ s.threads, atSink t = true → s.sinkCalls = []
  alone : ∀ (i j : Nat) (t u : Thread), s.threads[i]? = some t → s.threads[j]? = some u →
    atSink t = true → atSink u = true → i = j
  once : s.sinkCalls.length ≤ 1
  claims : ∀ t ∈ s.threads, ∀ e, passed t = some e → Claimed b s.registry e
  sunk : ∀ e ∈ s.sinkCalls, Claimed b s.registry e

theorem bound_sound {b : CycleBinding} {registry : Registry} {s : AsyncSystem}
    (start : bound b registry = some s) : Sound b s := by
  simp only [bound] at start
  split at start
  · simp only [Option.some.injEq] at start
    subst start
    refine ⟨fun _ => ⟨rfl, ?_⟩, ?_, ?_, Nat.zero_le _, ?_, ?_⟩ <;> simp
  · simp at start

theorem registry_sound {b : CycleBinding} {s : AsyncSystem} {registry : Registry} (sound : Sound b s)
    (kept : ∀ e, Claimed b s.registry e → Claimed b registry e) :
    Sound b { s with registry := registry } := by
  obtain ⟨quiet, first, alone, once, claims, sunk⟩ := sound
  exact ⟨quiet, first, alone, once, fun t member e gone => kept e (claims t member e gone),
    fun e member => kept e (sunk e member)⟩

theorem spawn_sound {b : CycleBinding} {s : AsyncSystem} {thread : Thread} (sound : Sound b s)
    (away : atSink thread = false) (fresh : passed thread = none) :
    Sound b { s with threads := s.threads ++ [thread] } := by
  obtain ⟨quiet, first, alone, once, claims, sunk⟩ := sound
  refine ⟨?_, ?_, ?_, once, ?_, sunk⟩
  · intro active
    refine ⟨(quiet active).1, ?_⟩
    intro t member
    rcases List.mem_append.mp member with old | new
    · exact (quiet active).2 t old
    · rw [List.mem_singleton.mp new]
      exact away
  · intro t member here
    rcases List.mem_append.mp member with old | new
    · exact first t old here
    · rw [List.mem_singleton.mp new, away] at here
      simp at here
  · intro i j t u left right here there
    have old : ∀ (k : Nat) (v : Thread), (s.threads ++ [thread])[k]? = some v → atSink v = true →
        s.threads[k]? = some v := by
      intro k v found sinks
      by_cases inside : k < s.threads.length
      · rwa [List.getElem?_append_left inside] at found
      · rw [List.getElem?_append_right (by omega), List.getElem?_singleton] at found
        split at found
        · simp only [Option.some.injEq] at found
          rw [← found, away] at sinks
          simp at sinks
        · simp at found
    exact alone i j t u (old i t left here) (old j u right there) here there
  · intro t member e gone
    rcases List.mem_append.mp member with old | new
    · exact claims t old e gone
    · rw [List.mem_singleton.mp new, fresh] at gone
      simp at gone

theorem thread_sound {b : CycleBinding} {s t : AsyncSystem} {i : Nat} {after : Thread}
    (sound : Sound b s)
    (registry : ∀ e, Claimed b s.registry e → Claimed b t.registry e)
    (calls : t.sinkCalls = s.sinkCalls) (same : t.state = .active → s.state = .active)
    (away : atSink after = false) (gone : ∀ e, passed after = some e → Claimed b t.registry e) :
    Sound b { t with threads := s.threads.set i after } := by
  obtain ⟨quiet, first, alone, once, claims, sunk⟩ := sound
  have old : ∀ (k : Nat) (v : Thread), (s.threads.set i after)[k]? = some v → atSink v = true →
      s.threads[k]? = some v := by
    intro k v there sinks
    rw [List.getElem?_set] at there
    split at there
    · rename_i here
      subst here
      split at there
      · simp only [Option.some.injEq] at there
        rw [← there, away] at sinks
        simp at sinks
      · simp at there
    · exact there
  have member : ∀ v ∈ s.threads.set i after, v ∈ s.threads ∨ v = after :=
    fun v inside => List.mem_or_eq_of_mem_set inside
  refine ⟨?_, ?_, ?_, by rw [calls]; exact once, ?_, ?_⟩
  · intro active
    have before := quiet (same active)
    refine ⟨by rw [calls]; exact before.1, ?_⟩
    intro t inside
    rcases member t inside with kept | rfl
    · exact before.2 t kept
    · exact away
  · intro t inside here
    rcases member t inside with kept | rfl
    · rw [calls]
      exact first t kept here
    · rw [away] at here
      simp at here
  · intro j k t u left right here there
    exact alone j k t u (old j t left here) (old k u right there) here there
  · intro t inside e through
    rcases member t inside with kept | rfl
    · exact registry e (claims t kept e through)
    · exact gone e through
  · intro e heard
    rw [calls] at heard
    exact registry e (sunk e heard)

theorem cas_sound {b : CycleBinding} {s : AsyncSystem} {i : Nat} {event : TerminalEvent}
    {failOnRace sinkFailed : Bool} (sound : Sound b s)
    (found : s.threads[i]? = some (.terminate event failOnRace sinkFailed .cas))
    (active : s.state = .active) :
    Sound b { s with
      state := terminalState event
      threads := s.threads.set i (.terminate event failOnRace sinkFailed .sink) } := by
  obtain ⟨quiet, first, alone, once, claims, sunk⟩ := sound
  obtain ⟨silent, nobody⟩ := quiet active
  have here : ∀ (k : Nat) (v : Thread),
      (s.threads.set i (.terminate event failOnRace sinkFailed .sink))[k]? = some v →
      atSink v = true → k = i := by
    intro k v there sinks
    by_contra other
    rw [List.getElem?_set_ne (Ne.symm other)] at there
    rw [nobody v (List.mem_of_getElem? there)] at sinks
    simp at sinks
  refine ⟨?_, fun _ _ _ => silent, ?_, once, ?_, sunk⟩
  · intro still
    cases event <;> simp [terminalState] at still
  · intro j k t u left right sinks others
    rw [here j t left sinks, here k u right others]
  · intro t inside e through
    rcases List.mem_or_eq_of_mem_set inside with kept | rfl
    · exact claims t kept e through
    · exact claims _ (List.mem_of_getElem? found) e through

theorem sink_sound {b : CycleBinding} {s : AsyncSystem} {i : Nat} {event : TerminalEvent}
    {failOnRace sinkFailed sinkThrows : Bool} (sound : Sound b s)
    (found : s.threads[i]? = some (.terminate event failOnRace sinkFailed .sink)) :
    Sound b { s with
      sinkCalls := s.sinkCalls ++ [event]
      threads := s.threads.set i (.terminate event failOnRace sinkThrows .fire) } := by
  obtain ⟨quiet, first, alone, once, claims, sunk⟩ := sound
  have inside := List.mem_of_getElem? found
  have silent := first _ inside rfl
  have nobody : ∀ t ∈ s.threads.set i (.terminate event failOnRace sinkThrows .fire),
      atSink t = false := by
    intro t member
    obtain ⟨k, there⟩ := List.mem_iff_getElem?.mp member
    rw [List.getElem?_set] at there
    split at there
    · split at there
      · simp only [Option.some.injEq] at there
        rw [← there]
        rfl
      · simp at there
    · rename_i other
      by_contra sinks
      exact other (alone i k _ t found there rfl (by simpa using sinks))
  refine ⟨?_, ?_, ?_, by simp [silent], ?_, ?_⟩
  · intro active
    have away := (quiet active).2 _ inside
    simp [atSink] at away
  · intro t member sinks
    rw [nobody t member] at sinks
    simp at sinks
  · intro j k t u left _ sinks _
    rw [nobody t (List.mem_of_getElem? left)] at sinks
    simp at sinks
  · intro t member e through
    rcases List.mem_or_eq_of_mem_set member with kept | rfl
    · exact claims t kept e through
    · simp [passed] at through
  · intro e heard
    rw [silent, List.nil_append, List.mem_singleton] at heard
    subst heard
    exact claims _ inside e rfl

theorem terminateStep_sound {b : CycleBinding} {s next : AsyncSystem} {i : Nat}
    {event : TerminalEvent} {failOnRace sinkFailed sinkThrows : Bool} {pc : TerminatePc}
    {after : Thread} (sound : Sound b s)
    (found : s.threads[i]? = some (.terminate event failOnRace sinkFailed pc))
    (h : terminateStep b s sinkThrows event failOnRace sinkFailed pc = some (after, next)) :
    Sound b { next with threads := s.threads.set i after } := by
  have keep : ∀ e, Claimed b s.registry e → Claimed b s.registry e := fun _ claimed => claimed
  cases pc with
  | checkActive =>
    simp only [terminateStep] at h
    split at h <;> simp only [Option.some.injEq, Prod.mk.injEq] at h <;> obtain ⟨rfl, rfl⟩ := h
    · exact thread_sound sound keep rfl id rfl (by simp [passed])
    · exact thread_sound sound keep rfl id rfl (by simp [passed])
  | gate =>
    simp only [terminateStep] at h
    split at h <;> simp only [Option.some.injEq, Prod.mk.injEq] at h <;> obtain ⟨rfl, rfl⟩ := h
    · exact thread_sound sound keep rfl id rfl (by simp [passed])
    · exact thread_sound sound keep rfl id rfl (by simp [passed])
  | native =>
    simp only [terminateStep] at h
    have kept : ∀ e, Claimed b s.registry e → Claimed b (b.tryTerminal s.registry event).2 e :=
      fun _ claimed => tryTerminal_claimed claimed
    cases decision : decisionOf (b.tryTerminal s.registry event).1 with
    | claimed =>
      simp only [decision, Option.some.injEq, Prod.mk.injEq] at h
      obtain ⟨rfl, rfl⟩ := h
      refine thread_sound sound kept rfl id rfl fun e through => ?_
      obtain rfl := Option.some.inj through
      exact tryTerminal_claims (.inl decision)
    | alreadyClaimed =>
      simp only [decision, Option.some.injEq, Prod.mk.injEq] at h
      obtain ⟨rfl, rfl⟩ := h
      refine thread_sound sound kept rfl id rfl fun e through => ?_
      obtain rfl := Option.some.inj through
      exact tryTerminal_claims (.inr decision)
    | lost =>
      simp only [decision, Option.some.injEq, Prod.mk.injEq] at h
      obtain ⟨rfl, rfl⟩ := h
      exact thread_sound sound kept rfl id rfl (by simp [passed])
    | error =>
      simp only [decision, Option.some.injEq, Prod.mk.injEq] at h
      obtain ⟨rfl, rfl⟩ := h
      exact thread_sound sound kept rfl id rfl (by simp [passed])
  | cas =>
    simp only [terminateStep] at h
    split at h <;> simp only [Option.some.injEq, Prod.mk.injEq] at h <;> obtain ⟨rfl, rfl⟩ := h
    · exact cas_sound (s := s) sound found (by assumption)
    · exact thread_sound sound keep rfl id rfl (by simp [passed])
  | sink =>
    simp only [terminateStep, Option.some.injEq, Prod.mk.injEq] at h
    obtain ⟨rfl, rfl⟩ := h
    exact sink_sound (s := s) sound found
  | fire =>
    simp only [terminateStep] at h
    split at h <;> simp only [Option.some.injEq, Prod.mk.injEq] at h <;> obtain ⟨rfl, rfl⟩ := h
    · exact thread_sound sound keep rfl id rfl (by simp [passed])
    · exact thread_sound (t := { s with listenerFired := true }) sound keep rfl id rfl
        (by simp [passed])
  | firing rest =>
    cases rest with
    | nil =>
      simp only [terminateStep, Option.some.injEq, Prod.mk.injEq] at h
      obtain ⟨rfl, rfl⟩ := h
      exact thread_sound sound keep rfl id rfl (by simp [passed])
    | cons listener rest =>
      simp only [terminateStep, Option.some.injEq, Prod.mk.injEq] at h
      obtain ⟨rfl, rfl⟩ := h
      exact thread_sound (t := { s with heard := s.heard ++ [(listener, event)] }) sound keep
        rfl id rfl (by simp [passed])
  | publish =>
    simp only [terminateStep, Option.some.injEq, Prod.mk.injEq] at h
    obtain ⟨rfl, rfl⟩ := h
    exact thread_sound (t := { s with state := .completed }) sound keep rfl (by simp) rfl
      (by simp [passed])
  | invalidate =>
    simp only [terminateStep, Option.some.injEq, Prod.mk.injEq] at h
    obtain ⟨rfl, rfl⟩ := h
    exact thread_sound (t := { s with active := false }) sound keep rfl id rfl
      (by simp [passed])
  | done outcome => simp [terminateStep] at h

theorem listenerStep_sound {b : CycleBinding} {s next : AsyncSystem} {i listener : Nat}
    {pc : ListenerPc} {after : Thread} (sound : Sound b s)
    (found : s.threads[i]? = some (.addListener listener pc))
    (h : listenerStep s listener pc = some (after, next)) :
    Sound b { next with threads := s.threads.set i after } := by
  have keep : ∀ e, Claimed b s.registry e → Claimed b s.registry e := fun _ claimed => claimed
  cases pc with
  | added => simp [listenerStep] at h
  | refused => simp [listenerStep] at h
  | add =>
    simp only [listenerStep, Option.some.injEq, Prod.mk.injEq] at h
    obtain ⟨rfl, rfl⟩ := h
    exact thread_sound (t := { s with listeners := s.listeners ++ [listener] }) sound keep
      rfl id rfl (by simp [passed])
  | _ =>
    simp only [listenerStep, Option.some.injEq, Prod.mk.injEq] at h
    obtain ⟨rfl, rfl⟩ := h
    exact thread_sound sound keep rfl id rfl (by simp [passed])

theorem call_thread (call : Call) : atSink call.thread = false ∧ passed call.thread = none := by
  cases call <;> exact ⟨rfl, rfl⟩

theorem step_sound {b : CycleBinding} {s next : AsyncSystem} {move : Move} (sound : Sound b s)
    (h : step b s move = some next) : Sound b next := by
  cases move with
  | call call =>
    simp only [step, Option.some.injEq] at h
    subst h
    exact spawn_sound sound (call_thread call).1 (call_thread call).2
  | addListener listener =>
    simp only [step, Option.some.injEq] at h
    subst h
    exact spawn_sound sound rfl rfl
  | native event =>
    simp only [step, Option.some.injEq] at h
    subst h
    exact registry_sound sound fun e claimed => nativeTerminal_claimed claimed
  | advance i sinkThrows =>
    simp only [step, Option.bind_eq_some_iff, Option.map_eq_some_iff] at h
    obtain ⟨thread, found, ⟨after, changed⟩, moved, rfl⟩ := h
    cases thread with
    | terminate event failOnRace sinkFailed pc => exact terminateStep_sound sound found moved
    | addListener listener pc => exact listenerStep_sound sound found moved

theorem runMoves_sound {b : CycleBinding} {s last : AsyncSystem} {moves : List Move}
    (sound : Sound b s) (run : runMoves b s moves = some last) : Sound b last := by
  induction moves generalizing s with
  | nil =>
    simp only [runMoves, Option.some.injEq] at run
    exact run ▸ sound
  | cons move moves ih =>
    simp only [runMoves, Option.bind_eq_some_iff] at run
    obtain ⟨next, first, rest⟩ := run
    exact ih (step_sound sound first) rest

def threadEvent : Thread → Option TerminalEvent
  | .terminate event _ _ _ => some event
  | .addListener _ _ => none

structure EventsIn (kind : TerminalEvent → Prop) (s : AsyncSystem) : Prop where
  threads : ∀ t ∈ s.threads, ∀ e, threadEvent t = some e → kind e
  calls : ∀ e ∈ s.sinkCalls, kind e

theorem threadStep_event {b : CycleBinding} {s next : AsyncSystem} {sinkThrows : Bool}
    {thread after : Thread} (h : threadStep b s sinkThrows thread = some (after, next)) :
    threadEvent after = threadEvent thread ∧
      ∀ e ∈ next.sinkCalls, e ∈ s.sinkCalls ∨ threadEvent thread = some e := by
  cases thread with
  | addListener listener pc =>
    cases pc <;> simp [threadStep, listenerStep] at h <;> obtain ⟨rfl, rfl⟩ := h <;>
      exact ⟨rfl, fun e member => .inl member⟩
  | terminate event failOnRace sinkFailed pc =>
    simp only [threadStep] at h
    cases pc with
    | sink =>
      simp only [terminateStep, Option.some.injEq, Prod.mk.injEq] at h
      obtain ⟨rfl, rfl⟩ := h
      refine ⟨rfl, fun e member => ?_⟩
      rcases List.mem_append.mp member with old | new
      · exact .inl old
      · exact .inr (by rw [List.mem_singleton.mp new]; rfl)
    | firing rest =>
      cases rest <;> simp only [terminateStep, Option.some.injEq, Prod.mk.injEq] at h <;>
        obtain ⟨rfl, rfl⟩ := h <;> exact ⟨rfl, fun e member => .inl member⟩
    | done outcome => simp [terminateStep] at h
    | _ =>
      simp only [terminateStep] at h
      repeat' split at h
      all_goals simp only [Option.some.injEq, Prod.mk.injEq] at h
      all_goals obtain ⟨rfl, rfl⟩ := h
      all_goals exact ⟨rfl, fun e member => .inl member⟩

theorem call_event (call : Call) : threadEvent call.thread = some call.event := by
  cases call <;> rfl

theorem step_events {b : CycleBinding} {kind : TerminalEvent → Prop} {s next : AsyncSystem}
    {move : Move} (events : EventsIn kind s) (calls : ∀ c, move = .call c → kind c.event)
    (h : step b s move = some next) : EventsIn kind next := by
  obtain ⟨threads, sunk⟩ := events
  cases move with
  | call call =>
    simp only [step, Option.some.injEq] at h
    subst h
    refine ⟨fun t member e under => ?_, sunk⟩
    rcases List.mem_append.mp member with old | new
    · exact threads t old e under
    · rw [List.mem_singleton.mp new, call_event] at under
      rw [← Option.some.inj under]
      exact calls call rfl
  | addListener listener =>
    simp only [step, Option.some.injEq] at h
    subst h
    refine ⟨fun t member e under => ?_, sunk⟩
    rcases List.mem_append.mp member with old | new
    · exact threads t old e under
    · rw [List.mem_singleton.mp new] at under
      simp [threadEvent] at under
  | native event =>
    simp only [step, Option.some.injEq] at h
    subst h
    exact ⟨threads, sunk⟩
  | advance i sinkThrows =>
    simp only [step, Option.bind_eq_some_iff, Option.map_eq_some_iff] at h
    obtain ⟨thread, found, ⟨after, changed⟩, moved, rfl⟩ := h
    obtain ⟨same, heard⟩ := threadStep_event moved
    have inside := List.mem_of_getElem? found
    refine ⟨fun t member e under => ?_, fun e member => ?_⟩
    · rcases List.mem_or_eq_of_mem_set member with kept | rfl
      · exact threads t kept e under
      · rw [same] at under
        exact threads thread inside e under
    · rcases heard e member with old | new
      · exact sunk e old
      · exact threads thread inside e new

theorem runMoves_events {b : CycleBinding} (kind : TerminalEvent → Prop) {s last : AsyncSystem}
    {moves : List Move} (events : EventsIn kind s)
    (calls : ∀ c, Move.call c ∈ moves → kind c.event)
    (run : runMoves b s moves = some last) : EventsIn kind last := by
  induction moves generalizing s with
  | nil =>
    simp only [runMoves, Option.some.injEq] at run
    exact run ▸ events
  | cons move moves ih =>
    simp only [runMoves, Option.bind_eq_some_iff] at run
    obtain ⟨next, first, rest⟩ := run
    exact ih (step_events events (fun c same => calls c (same ▸ List.mem_cons_self)) first)
      (fun c member => calls c (List.mem_cons_of_mem _ member)) rest

theorem bound_events {b : CycleBinding} {kind : TerminalEvent → Prop} {registry : Registry}
    {s : AsyncSystem} (start : bound b registry = some s) : EventsIn kind s := by
  simp only [bound] at start
  split at start
  · simp only [Option.some.injEq] at start
    subst start
    exact ⟨by simp, by simp⟩
  · simp at start

theorem recorded_of_claimed {b : CycleBinding} {registry : Registry} {event : TerminalEvent}
    (claimed : Claimed b registry event) : recorded b registry = some event.ordinal := by
  obtain ⟨c, look, -, same⟩ := claimed
  simp [recorded, look, same]

def oneConnection : Registry :=
  ⟨fun _ => ⟨⟨1, 1, 0, 0, ckConnectionPack .opened (-1) 0⟩, 1, true⟩, true⟩

def oneBinding : CycleBinding :=
  ⟨1, 4294967297, 1, 0, 0, 1, by decide, by decide, by decide, by decide, by decide, by decide,
    by decide⟩

def aloneMoves (call : Call) : List Move := .call call :: List.replicate 5 (.advance 0 false)

theorem alone_records (call : Call) :
    ((bound oneBinding oneConnection).bind fun s => runMoves oneBinding s (aloneMoves call)).map
      (fun s => (s.sinkCalls, recorded oneBinding s.registry)) =
      some ([call.event], some call.event.ordinal) := by
  cases call <;> decide

/-- For any choice of terminal calls, Java and native agree in every interleaving of such
    calls with native ones if and only if the choice has complete() and shutdown() only. -/
theorem sides_agree_iff (allowed : Call → Prop) :
    (∀ b registry start moves s, bound b registry = some start → runMoves b start moves = some s →
      (∀ call, Move.call call ∈ moves → allowed call) → SidesAgree b s) ↔
    ∀ call, allowed call → call = .complete ∨ call = .shutdown := by
  constructor
  · intro agree call allow
    have run := alone_records call
    simp only [Option.map_eq_some_iff, Option.bind_eq_some_iff, Prod.mk.injEq] at run
    obtain ⟨s, ⟨start, opened, moved⟩, heard, number⟩ := run
    have only : ∀ other, Move.call other ∈ aloneMoves call → allowed other := by
      intro other member
      simp only [aloneMoves, List.mem_cons, Move.call.injEq, List.mem_replicate, reduceCtorEq,
        and_false, or_false] at member
      exact member ▸ allow
    have named := (agree _ _ _ _ s opened moved only).2 call.event (by simp [heard])
    rw [number] at named
    revert named
    cases call <;> decide
  · intro only b registry start moves s opened run calls
    have sound := runMoves_sound (bound_sound opened) run
    have events := runMoves_events (fun e => e.ordinal = e.sameName.code)
      (bound_events opened) (fun call member => by
        rcases only call (calls call member) with rfl | rfl <;> rfl) run
    refine ⟨sound.once, fun e member => ?_⟩
    rw [recorded_of_claimed (sound.sunk e member), events.calls e member]

/-- timeout() on a fresh cycle: the sink hears TIMEOUT, the connection records
    CLIENT_DISCONNECT. -/
theorem timeout_recorded_as_disconnect :
    ∃ start s, bound oneBinding oneConnection = some start ∧
      runMoves oneBinding start (aloneMoves .timeout) = some s ∧ s.sinkCalls = [.timeout] ∧
      recorded oneBinding s.registry = some ConnectionTerminal.clientDisconnect.code ∧
      ¬ SidesAgree oneBinding s := by
  have run := alone_records .timeout
  simp only [Option.map_eq_some_iff, Option.bind_eq_some_iff, Prod.mk.injEq] at run
  obtain ⟨s, ⟨start, opened, moved⟩, heard, number⟩ := run
  refine ⟨start, s, opened, moved, heard, number, ?_⟩
  rintro ⟨-, names⟩
  have named := names .timeout (by simp [heard, Call.event])
  rw [number] at named
  revert named
  decide

end CkartaAsyncContext
