import Mathlib.Data.List.Nodup
import Ckarta.AsyncContext
import Ckarta.RegistrySlots
import Ckarta.Termination

/-!
The ids of async cycles, java/org/ckarta/servlet/CkartaAsyncCycleBinding.java with its
CkartaNativeAsyncBridge. Threads construct bindings, one step for each get and
compareAndSet of NEXT_CYCLE_ID and for each native call, and ask the gates of the bindings
for the end of their connections, over the connections of ConnectionSystem. The native side
makes every registry call but ck_connection_registry_start_async_cycle, which only the
bridge calls in src.
-/
namespace CkartaCycleIds
open StepHistory MachineWord CkartaConnection CkartaConnectionRegistry CkartaRegistryCalls CkartaTermination
open CkartaAsyncContext (TerminalEvent maxCycleId)
open CkartaConnectionLifecycle (Mark markOf markAt)
open CkartaRegistrySlots (find_decodes)

/-- The arguments of the constructor; bridge is the connection handle of its native bridge. -/
structure Identity where
  requestId : Int
  ownerToken : Int
  lifetimeToken : Int
  bridge : Option Handle
  deriving DecidableEq, Repr

def Identity.refused (identity : Identity) : Bool :=
  decide (identity.requestId ≤ 0) || decide (identity.ownerToken < 0) || decide (identity.lifetimeToken < 0)

/-- The constructor of a CkartaNativeAsyncBridge takes positive handles only. -/
def Identity.bridged (identity : Identity) : Bool :=
  identity.bridge.all fun handle => decide (0 < handle.val ∧ handle.val < 9223372036854775808)

def Identity.caller (identity : Identity) (handle : Handle) : Caller :=
  ⟨handle, identity.requestId.toNat, identity.ownerToken.toNat, identity.lifetimeToken.toNat⟩

structure Binding where
  identity : Identity
  cycleId : Int
  active : Bool
  deriving DecidableEq, Repr

def Binding.isMatch (binding : Binding) (requestId ownerToken lifetimeToken cycleId : Int) : Bool :=
  binding.active && binding.identity.requestId == requestId && binding.identity.ownerToken == ownerToken &&
    binding.identity.lifetimeToken == lifetimeToken && binding.cycleId == cycleId

/-- Where a thread is: in the constructor, or past the active.get() of a gate. -/
inductive Task where
  | reading (identity : Identity)
  | swapping (identity : Identity) (current : Int)
  | starting (identity : Identity) (cycleId : Int)
  | gated (index : Nat) (event : TerminalEvent)
  deriving DecidableEq, Repr

structure System where
  native : CkartaConnectionSystem.System
  next : Int
  tasks : Nat → Option Task
  bindings : List Binding

inductive Move where
  | construct (thread : Nat) (identity : Identity)
  | get (thread : Nat)
  | compareAndSet (thread : Nat)
  | startCycle (thread : Nat)
  | invalidate (index : Nat)
  | gate (thread index : Nat) (event : TerminalEvent)
  | tryTerminal (thread : Nat)
  | native (move : CkartaConnectionSystem.Move)
  deriving DecidableEq, Repr

inductive Outcome where
  | refused
  | exhausted
  | failed
  | built
  deriving DecidableEq, Repr

/-- What a step answers: the id it took, how a constructor ended, the result of a gate's
    native call with the index of its binding, and the step of the connections it made. -/
structure Answer where
  generated : Option Int
  outcome : Option Outcome
  decided : Option (Nat × Int)
  native : Option (CkartaConnectionSystem.Move × CkartaConnectionSystem.Answer)
  deriving DecidableEq, Repr

def quiet : Answer := ⟨none, none, none, none⟩

def System.setTask (s : System) (thread : Nat) (task : Option Task) : System :=
  { s with tasks := Function.update s.tasks thread task }

def terminalLost : Int := 2

def isStart : CkartaConnectionSystem.Move → Bool
  | .call (.startAsyncCycle ..) => true
  | _ => false

def step (s : System) : Move → Option (System × Answer)
  | .construct thread identity =>
    if s.tasks thread ≠ none ∨ !identity.bridged then none
    else if identity.refused then some (s, { quiet with outcome := some .refused })
    else some (s.setTask thread (some (.reading identity)), quiet)
  | .get thread =>
    match s.tasks thread with
    | some (.reading identity) =>
      if s.next ≤ 0 ∨ s.next > maxCycleId then
        some (s.setTask thread none, { quiet with outcome := some .exhausted })
      else some (s.setTask thread (some (.swapping identity s.next)), quiet)
    | _ => none
  | .compareAndSet thread =>
    match s.tasks thread with
    | some (.swapping identity current) =>
      if s.next ≠ current then some (s.setTask thread (some (.reading identity)), quiet)
      else if identity.bridge = none then
        some (⟨s.native, current + 1, Function.update s.tasks thread none,
            s.bindings ++ [⟨identity, current, true⟩]⟩,
          { quiet with generated := some current, outcome := some .built })
      else
        some ({ s with next := current + 1, tasks := Function.update s.tasks thread (some (.starting identity current)) },
          { quiet with generated := some current })
    | _ => none
  | .startCycle thread =>
    match s.tasks thread with
    | some (.starting identity cycleId) =>
      identity.bridge.bind fun handle =>
        let move := .call (.startAsyncCycle (identity.caller handle) cycleId.toNat)
        (CkartaConnectionSystem.step s.native move).map fun (native, answer) =>
          if answer.result = some 0 then
            (⟨native, s.next, Function.update s.tasks thread none, s.bindings ++ [⟨identity, cycleId, true⟩]⟩,
              { quiet with outcome := some .built, native := some (move, answer) })
          else
            (⟨native, s.next, Function.update s.tasks thread none, s.bindings⟩,
              { quiet with outcome := some .failed, native := some (move, answer) })
    | _ => none
  | .invalidate index =>
    some ({ s with bindings := s.bindings.modify index fun binding => { binding with active := false } }, quiet)
  | .gate thread index event =>
    match s.tasks thread, s.bindings[index]? with
    | none, some binding =>
      if binding.identity.bridge = none then none
      else if binding.active then some (s.setTask thread (some (.gated index event)), quiet)
      else some (s, { quiet with decided := some (index, terminalLost) })
    | _, _ => none
  | .tryTerminal thread =>
    match s.tasks thread with
    | some (.gated index event) =>
      s.bindings[index]?.bind fun binding =>
        binding.identity.bridge.bind fun handle =>
          let move := .call (.tryTerminal (binding.identity.caller handle) binding.cycleId.toNat event.ordinal)
          (CkartaConnectionSystem.step s.native move).map fun (native, answer) =>
            (⟨native, s.next, Function.update s.tasks thread none, s.bindings⟩,
              { quiet with decided := answer.result.map (index, ·), native := some (move, answer) })
    | _ => none
  | .native move =>
    if isStart move then none
    else (CkartaConnectionSystem.step s.native move).map fun (native, answer) =>
      ({ s with native := native }, { quiet with native := some (move, answer) })

def start : System := ⟨CkartaConnectionSystem.start, 1, fun _ => none, []⟩

def generated (history : List (Move × Answer)) : List Int := history.filterMap (·.2.generated)

def nativeHistory (history : List (Move × Answer)) :
    List (CkartaConnectionSystem.Move × CkartaConnectionSystem.Answer) := history.filterMap (·.2.native)

def startedId (entry : CkartaConnectionSystem.Move × CkartaConnectionSystem.Answer) : Option Nat :=
  match entry.1 with
  | .call (.startAsyncCycle _ cycleId) => some cycleId
  | _ => none

def startedIds (history : List (Move × Answer)) : List Nat := (nativeHistory history).filterMap startedId

def Binding.key (binding : Binding) : Identity × Int := (binding.identity, binding.cycleId)

inductive Does (s : System) : System → Answer → Prop where
  | quiet {t : System} {answer : Answer} (native : t.native = s.native) (next : t.next = s.next)
      (keys : t.bindings.map Binding.key = s.bindings.map Binding.key)
      (tasks : ∀ thread task, t.tasks thread = some task → s.tasks thread = some task ∨
        (∀ identity cycleId, task ≠ .starting identity cycleId) ∧
          ∀ identity current, task = .swapping identity current → 0 < current ∧ current ≤ maxCycleId)
      (taken : answer.generated = none) (called : answer.native = none) : Does s t answer
  | took {thread : Nat} {identity : Identity} {answer : Answer}
      (at_ : s.tasks thread = some (.swapping identity s.next)) (plain : identity.bridge = none)
      (taken : answer.generated = some s.next) (called : answer.native = none) :
      Does s ⟨s.native, s.next + 1, Function.update s.tasks thread none,
        s.bindings ++ [⟨identity, s.next, true⟩]⟩ answer
  | tookBridged {thread : Nat} {identity : Identity} {answer : Answer}
      (at_ : s.tasks thread = some (.swapping identity s.next))
      (taken : answer.generated = some s.next) (called : answer.native = none) :
      Does s { s with
        next := s.next + 1
        tasks := Function.update s.tasks thread (some (.starting identity s.next)) } answer
  | started {thread : Nat} {identity : Identity} {cycleId : Int} {handle : Handle} {answer : Answer}
      {native : CkartaConnectionSystem.System} {reply : CkartaConnectionSystem.Answer}
      {bindings : List Binding} (at_ : s.tasks thread = some (.starting identity cycleId))
      (bridge : identity.bridge = some handle)
      (stepped : CkartaConnectionSystem.step s.native (.call (.startAsyncCycle (identity.caller handle)
        cycleId.toNat)) = some (native, reply))
      (built : bindings = s.bindings ∨ reply.result = some 0 ∧ bindings = s.bindings ++ [⟨identity, cycleId, true⟩])
      (taken : answer.generated = none)
      (called : answer.native = some (.call (.startAsyncCycle (identity.caller handle) cycleId.toNat), reply)) :
      Does s ⟨native, s.next, Function.update s.tasks thread none, bindings⟩ answer
  | called {t : System} {move : CkartaConnectionSystem.Move} {answer : Answer}
      {reply : CkartaConnectionSystem.Answer} (notStart : isStart move = false)
      (stepped : CkartaConnectionSystem.step s.native move = some (t.native, reply)) (next : t.next = s.next)
      (bindings : t.bindings = s.bindings) (tasks : ∀ thread task, t.tasks thread = some task → s.tasks thread = some task)
      (taken : answer.generated = none) (called : answer.native = some (move, reply)) : Does s t answer

theorem task_update {tasks : Nat → Option Task} {thread : Nat} {next : Option Task} {keep : Task → Prop}
    (new : ∀ task, next = some task → keep task) :
    ∀ other task, Function.update tasks thread next other = some task → tasks other = some task ∨ keep task := by
  intro other task found
  by_cases same : other = thread
  · subst same
    rw [Function.update_self] at found
    exact .inr (new task found)
  · rw [Function.update_of_ne same] at found
    exact .inl found

theorem task_cleared {tasks : Nat → Option Task} {thread : Nat} :
    ∀ other task, Function.update tasks thread none other = some task → tasks other = some task := by
  intro other task found
  rcases @task_update tasks thread none (fun _ => False) (by simp) other task found with old | impossible
  · exact old
  · exact impossible.elim

theorem keys_invalidated (bindings : List Binding) (index : Nat) :
    (bindings.modify index fun binding => { binding with active := false }).map Binding.key =
      bindings.map Binding.key := by
  induction bindings generalizing index with
  | nil => simp
  | cons binding rest ih =>
    cases index with
    | zero => simp [Binding.key]
    | succ index => simp [ih]

theorem step_does {s t : System} {move : Move} {answer : Answer} (next : step s move = some (t, answer)) :
    Does s t answer := by
  cases move with
  | construct thread identity =>
    simp only [step, Option.ite_none_left_eq_some] at next
    obtain ⟨-, next⟩ := next
    split at next <;> cases next
    · exact .quiet rfl rfl rfl (fun _ _ found => .inl found) rfl rfl
    · exact .quiet rfl rfl rfl (task_update (by rintro task ⟨⟩; simp)) rfl rfl
  | get thread =>
    simp only [step] at next
    split at next
    · split at next <;> cases next
      · exact .quiet rfl rfl rfl (fun other task found => .inl (task_cleared other task found)) rfl rfl
      · rename_i identity at_ room
        rw [not_or, not_le, not_lt] at room
        refine .quiet rfl rfl rfl (task_update ?_) rfl rfl
        rintro task ⟨⟩
        refine ⟨by simp, ?_⟩
        rintro other current ⟨⟩
        exact room
    · cases next
  | compareAndSet thread =>
    simp only [step] at next
    split at next
    · rename_i identity current at_
      split at next
      · cases next
        exact .quiet rfl rfl rfl (task_update (by rintro task ⟨⟩; simp)) rfl rfl
      · rename_i same
        rw [not_not] at same
        subst same
        split at next <;> cases next
        · rename_i plain
          exact .took at_ plain rfl rfl
        · exact .tookBridged at_ rfl rfl
    · cases next
  | startCycle thread =>
    simp only [step] at next
    split at next
    · rename_i identity cycleId at_
      simp only [Option.bind_eq_some_iff, Option.map_eq_some_iff, Prod.exists] at next
      obtain ⟨handle, bridge, native, reply, stepped, same⟩ := next
      split at same <;> cases same
      · rename_i zero
        exact .started at_ bridge stepped (.inr ⟨zero, rfl⟩) rfl rfl
      · exact .started at_ bridge stepped (.inl rfl) rfl rfl
    · cases next
  | invalidate index =>
    cases next
    exact .quiet rfl rfl (keys_invalidated _ _) (fun _ _ found => .inl found) rfl rfl
  | gate thread index event =>
    simp only [step] at next
    split at next
    · simp only [Option.ite_none_left_eq_some] at next
      obtain ⟨-, next⟩ := next
      split at next <;> cases next
      · exact .quiet rfl rfl rfl (task_update (by rintro task ⟨⟩; simp)) rfl rfl
      · exact .quiet rfl rfl rfl (fun _ _ found => .inl found) rfl rfl
    · cases next
  | tryTerminal thread =>
    simp only [step] at next
    split at next
    · simp only [Option.bind_eq_some_iff, Option.map_eq_some_iff, Prod.exists] at next
      obtain ⟨binding, -, handle, -, native, reply, stepped, same⟩ := next
      cases same
      exact .called rfl stepped rfl rfl task_cleared rfl rfl
    · cases next
  | native move =>
    simp only [step, Option.ite_none_left_eq_some, Option.map_eq_some_iff, Prod.exists] at next
    obtain ⟨notStart, native, reply, stepped, same⟩ := next
    cases same
    exact .called (by simpa using notStart) stepped rfl rfl (fun _ _ found => found) rfl rfl

def System.keys (s : System) : List (Identity × Int) := s.bindings.map Binding.key

/-- The id is taken, and nobody but the thread that took it knows it. -/
structure InFlight (history : List (Move × Answer)) (s : System) (cycleId : Int) : Prop where
  positive : 0 < cycleId
  below : cycleId < s.next
  unbound : cycleId ∉ s.keys.map Prod.snd
  unstarted : cycleId.toNat ∉ startedIds history

structure Holds (history : List (Move × Answer)) (s : System) : Prop where
  next : s.next = (generated history).length + 1
  ids : generated history = (List.range (generated history).length).map fun k : Nat => (k : Int) + 1
  bound : s.next ≤ maxCycleId + 1
  swapping : ∀ thread identity current, s.tasks thread = some (.swapping identity current) →
    0 < current ∧ current ≤ maxCycleId
  flight : ∀ thread identity cycleId, s.tasks thread = some (.starting identity cycleId) →
    InFlight history s cycleId
  apart : ∀ thread other identity identity' cycleId, s.tasks thread = some (.starting identity cycleId) →
    s.tasks other = some (.starting identity' cycleId) → thread = other
  bindings : ∀ cycleId ∈ s.keys.map Prod.snd, 0 < cycleId ∧ cycleId < s.next
  starts : ∀ cycleId ∈ startedIds history, (cycleId : Int) < s.next
  distinct : (s.keys.map Prod.snd).Nodup
  once : (startedIds history).Nodup
  own : ∀ identity cycleId handle, (identity, cycleId) ∈ s.keys → identity.bridge = some handle →
    ∃ reply, (.call (.startAsyncCycle (identity.caller handle) cycleId.toNat), reply) ∈ nativeHistory history ∧
      reply.result = some 0

theorem generated_snoc (history : List (Move × Answer)) (entry : Move × Answer) :
    generated (history ++ [entry]) = generated history ++ entry.2.generated.toList := filterMap_snoc _ _ _

theorem native_snoc (history : List (Move × Answer)) (entry : Move × Answer) :
    nativeHistory (history ++ [entry]) = nativeHistory history ++ entry.2.native.toList := filterMap_snoc _ _ _

theorem started_snoc (history : List (Move × Answer)) (entry : Move × Answer) :
    startedIds (history ++ [entry]) = startedIds history ++ (entry.2.native.bind startedId).toList := by
  unfold startedIds
  rw [native_snoc, List.filterMap_append]
  cases entry.2.native with
  | none => rfl
  | some made => cases found : startedId made <;> simp [found]

section
variable {history : List (Move × Answer)} {s t : System} {move : Move} {answer : Answer} (holds : Holds history s)
include holds

theorem Holds.rest (next : t.next = s.next) (keys : t.keys = s.keys)
    (tasks : ∀ thread task, t.tasks thread = some task → s.tasks thread = some task ∨
      (∀ identity cycleId, task ≠ .starting identity cycleId) ∧
        ∀ identity current, task = .swapping identity current → 0 < current ∧ current ≤ maxCycleId)
    (taken : answer.generated = none) (unstarted : answer.native.bind startedId = none) :
    Holds (history ++ [(move, answer)]) t := by
  have flew : ∀ {thread identity cycleId}, t.tasks thread = some (.starting identity cycleId) →
      s.tasks thread = some (.starting identity cycleId) := by
    intro thread identity cycleId found
    rcases tasks thread _ found with old | ⟨not, -⟩
    · exact old
    · exact absurd rfl (not identity cycleId)
  have ids : generated (history ++ [(move, answer)]) = generated history := by
    rw [generated_snoc, taken]
    exact List.append_nil _
  have starts : startedIds (history ++ [(move, answer)]) = startedIds history := by
    rw [started_snoc, unstarted]
    exact List.append_nil _
  exact {
    next := by rw [next, ids]; exact holds.next
    ids := by rw [ids]; exact holds.ids
    bound := by rw [next]; exact holds.bound
    swapping := by
      intro thread identity current found
      rcases tasks thread _ found with old | ⟨-, range⟩
      · exact holds.swapping thread identity current old
      · exact range identity current rfl
    flight := by
      intro thread identity cycleId found
      obtain ⟨positive, below, unbound, unstarted⟩ := holds.flight thread identity cycleId (flew found)
      exact ⟨positive, next ▸ below, keys ▸ unbound, starts ▸ unstarted⟩
    apart := fun thread other identity identity' cycleId first second =>
      holds.apart thread other identity identity' cycleId (flew first) (flew second)
    bindings := by rw [keys, next]; exact holds.bindings
    starts := by rw [starts, next]; exact holds.starts
    distinct := by rw [keys]; exact holds.distinct
    once := by rw [starts]; exact holds.once
    own := by
      intro identity cycleId handle member bridge
      rw [keys] at member
      obtain ⟨reply, made, zero⟩ := holds.own identity cycleId handle member bridge
      exact ⟨reply, by rw [native_snoc]; exact List.mem_append_left _ made, zero⟩ }

theorem Holds.taken (taken : answer.generated = some s.next) :
    s.next + 1 = ((generated (history ++ [(move, answer)])).length : Int) + 1 ∧
      generated (history ++ [(move, answer)]) =
        (List.range (generated (history ++ [(move, answer)])).length).map fun k : Nat => (k : Int) + 1 := by
  have ids := holds.ids
  have next := holds.next
  rw [generated_snoc, taken, Option.toList_some, List.length_append, List.length_singleton, List.range_succ,
    List.map_append, List.map_singleton, ← ids, ← next]
  refine ⟨?_, rfl⟩
  push_cast
  omega

theorem Holds.took {thread : Nat} {identity : Identity} (at_ : s.tasks thread = some (.swapping identity s.next))
    (plain : identity.bridge = none) (taken : answer.generated = some s.next) (called : answer.native = none) :
    Holds (history ++ [(move, answer)]) ⟨s.native, s.next + 1, Function.update s.tasks thread none,
      s.bindings ++ [⟨identity, s.next, true⟩]⟩ := by
  obtain ⟨next, ids⟩ := @Holds.taken history s move answer holds taken
  have starts : startedIds (history ++ [(move, answer)]) = startedIds history := by
    rw [started_snoc, called]
    exact List.append_nil _
  have keys : System.keys ⟨s.native, s.next + 1, Function.update s.tasks thread none,
      s.bindings ++ [⟨identity, s.next, true⟩]⟩ = s.keys ++ [(identity, s.next)] := by
    simp [System.keys, Binding.key]
  obtain ⟨positive, small⟩ := holds.swapping thread identity s.next at_
  exact {
    next := next
    ids := ids
    bound := by dsimp only; omega
    swapping := fun other identity current found =>
      holds.swapping other identity current (task_cleared other _ found)
    flight := by
      intro other identity cycleId found
      obtain ⟨above, below, unbound, unstarted⟩ := holds.flight other identity cycleId (task_cleared other _ found)
      refine ⟨above, by dsimp only; omega, ?_, starts ▸ unstarted⟩
      rw [keys, List.map_append, List.mem_append, not_or]
      refine ⟨unbound, ?_⟩
      rw [List.map_singleton, List.mem_singleton]
      exact ne_of_lt below
    apart := fun first second identity identity' cycleId one two =>
      holds.apart first second identity identity' cycleId (task_cleared first _ one) (task_cleared second _ two)
    bindings := by
      intro cycleId member
      rw [keys, List.map_append, List.mem_append] at member
      rcases member with old | new
      · obtain ⟨above, below⟩ := holds.bindings cycleId old
        exact ⟨above, by dsimp only; omega⟩
      · obtain rfl := List.mem_singleton.mp new
        exact ⟨positive, by dsimp only; omega⟩
    starts := by
      intro cycleId member
      rw [starts] at member
      have below := holds.starts cycleId member
      dsimp only
      omega
    distinct := by
      rw [keys, List.map_append, List.map_singleton]
      refine List.nodup_append.mpr ⟨holds.distinct, by simp, ?_⟩
      intro cycleId old new fresh same
      subst same
      have below := (holds.bindings cycleId old).2
      rw [List.mem_singleton.mp fresh] at below
      exact absurd below (lt_irrefl _)
    once := by rw [starts]; exact holds.once
    own := by
      intro other cycleId handle member bridge
      rw [keys, List.mem_append] at member
      rcases member with old | new
      · obtain ⟨reply, made, zero⟩ := holds.own other cycleId handle old bridge
        exact ⟨reply, by rw [native_snoc]; exact List.mem_append_left _ made, zero⟩
      · obtain ⟨rfl, -⟩ := Prod.mk.inj (List.mem_singleton.mp new)
        rw [plain] at bridge
        cases bridge }

theorem Holds.tookBridged {thread : Nat} {identity : Identity}
    (at_ : s.tasks thread = some (.swapping identity s.next)) (taken : answer.generated = some s.next)
    (called : answer.native = none) :
    Holds (history ++ [(move, answer)]) { s with
      next := s.next + 1
      tasks := Function.update s.tasks thread (some (.starting identity s.next)) } := by
  obtain ⟨next, ids⟩ := @Holds.taken history s move answer holds taken
  have starts : startedIds (history ++ [(move, answer)]) = startedIds history := by
    rw [started_snoc, called]
    exact List.append_nil _
  obtain ⟨positive, small⟩ := holds.swapping thread identity s.next at_
  have flew : ∀ {other identity' cycleId},
      Function.update s.tasks thread (some (.starting identity s.next)) other = some (.starting identity' cycleId) →
      (other = thread ∧ cycleId = s.next) ∨ (other ≠ thread ∧ s.tasks other = some (.starting identity' cycleId)) := by
    intro other identity' cycleId found
    by_cases same : other = thread
    · subst same
      rw [Function.update_self] at found
      cases found
      exact .inl ⟨rfl, rfl⟩
    · rw [Function.update_of_ne same] at found
      exact .inr ⟨same, found⟩
  exact {
    next := next
    ids := ids
    bound := by dsimp only; omega
    swapping := by
      intro other identity' current found
      rcases task_update (by rintro task ⟨⟩; exact rfl) other _ found with old | impossible
      · exact holds.swapping other identity' current old
      · cases impossible
    flight := by
      intro other identity' cycleId found
      rcases flew found with ⟨-, rfl⟩ | ⟨-, old⟩
      · refine ⟨positive, by dsimp only; omega, ?_, ?_⟩
        · intro bound
          exact absurd (holds.bindings _ bound).2 (lt_irrefl _)
        · intro member
          rw [starts] at member
          have below := holds.starts _ member
          omega
      · obtain ⟨above, below, unbound, unstarted⟩ := holds.flight other identity' cycleId old
        exact ⟨above, by dsimp only; omega, unbound, starts ▸ unstarted⟩
    apart := by
      intro first second identity identity' cycleId one two
      rcases flew one with ⟨rfl, new⟩ | ⟨-, old⟩ <;> rcases flew two with ⟨rfl, new'⟩ | ⟨-, old'⟩
      · rfl
      · have below := (holds.flight _ _ _ old').below
        rw [new] at below
        exact absurd below (lt_irrefl _)
      · have below := (holds.flight _ _ _ old).below
        rw [new'] at below
        exact absurd below (lt_irrefl _)
      · exact holds.apart first second identity identity' cycleId old old'
    bindings := by
      intro cycleId member
      obtain ⟨above, below⟩ := holds.bindings cycleId member
      exact ⟨above, by dsimp only; omega⟩
    starts := by
      intro cycleId member
      rw [starts] at member
      have below := holds.starts cycleId member
      dsimp only
      omega
    distinct := holds.distinct
    once := by rw [starts]; exact holds.once
    own := by
      intro other cycleId handle member bridge
      obtain ⟨reply, made, zero⟩ := holds.own other cycleId handle member bridge
      exact ⟨reply, by rw [native_snoc]; exact List.mem_append_left _ made, zero⟩ }

theorem Holds.started {thread : Nat} {identity : Identity} {cycleId : Int} {handle : Handle}
    {native : CkartaConnectionSystem.System} {reply : CkartaConnectionSystem.Answer} {bindings : List Binding}
    (at_ : s.tasks thread = some (.starting identity cycleId)) (bridge : identity.bridge = some handle)
    (built : bindings = s.bindings ∨ reply.result = some 0 ∧ bindings = s.bindings ++ [⟨identity, cycleId, true⟩])
    (taken : answer.generated = none)
    (called : answer.native = some (.call (.startAsyncCycle (identity.caller handle) cycleId.toNat), reply)) :
    Holds (history ++ [(move, answer)]) ⟨native, s.next, Function.update s.tasks thread none, bindings⟩ := by
  have flying := holds.flight thread identity cycleId at_
  have ids : generated (history ++ [(move, answer)]) = generated history := by
    rw [generated_snoc, taken]
    exact List.append_nil _
  have starts : startedIds (history ++ [(move, answer)]) = startedIds history ++ [cycleId.toNat] := by
    rw [started_snoc, called]
    rfl
  have natives : nativeHistory (history ++ [(move, answer)]) = nativeHistory history ++
      [(.call (.startAsyncCycle (identity.caller handle) cycleId.toNat), reply)] := by
    rw [native_snoc, called]
    rfl
  let after : System := ⟨native, s.next, Function.update s.tasks thread none, bindings⟩
  have keys : ∀ key ∈ after.keys, key ∈ s.keys ∨ reply.result = some 0 ∧ key = (identity, cycleId) := by
    intro key member
    rcases built with rfl | ⟨zero, rfl⟩
    · exact .inl member
    · simp only [System.keys, after, List.map_append, List.mem_append, List.map_singleton,
        List.mem_singleton] at member
      rcases member with old | new
      · exact .inl old
      · exact .inr ⟨zero, new⟩
  have away : ∀ {other identity' cycleId'}, after.tasks other = some (.starting identity' cycleId') →
      s.tasks other = some (.starting identity' cycleId') ∧ cycleId' ≠ cycleId := by
    intro other identity' cycleId' found
    have old := task_cleared other _ found
    refine ⟨old, ?_⟩
    rintro rfl
    obtain rfl := holds.apart other thread identity' identity cycleId' old at_
    simp only [after, Function.update_self] at found
    cases found
  exact {
    next := by rw [ids]; exact holds.next
    ids := by rw [ids]; exact holds.ids
    bound := holds.bound
    swapping := fun other identity current found =>
      holds.swapping other identity current (task_cleared other _ found)
    flight := by
      intro other identity' cycleId' found
      obtain ⟨old, different⟩ := away found
      obtain ⟨above, below, unbound, unstarted⟩ := holds.flight other identity' cycleId' old
      refine ⟨above, below, ?_, ?_⟩
      · intro member
        obtain ⟨key, inside, same⟩ := List.mem_map.mp member
        rcases keys key inside with before | ⟨-, rfl⟩
        · exact unbound (List.mem_map.mpr ⟨key, before, same⟩)
        · exact different same.symm
      · rw [starts, List.mem_append, not_or]
        refine ⟨unstarted, ?_⟩
        rw [List.mem_singleton]
        have positive := flying.positive
        omega
    apart := fun first second identity identity' cycleId one two =>
      holds.apart first second identity identity' cycleId (away one).1 (away two).1
    bindings := by
      intro cycleId' member
      obtain ⟨key, inside, rfl⟩ := List.mem_map.mp member
      rcases keys key inside with before | ⟨-, rfl⟩
      · exact holds.bindings _ (List.mem_map.mpr ⟨key, before, rfl⟩)
      · exact ⟨flying.positive, flying.below⟩
    starts := by
      intro cycleId' member
      rw [starts, List.mem_append] at member
      rcases member with old | new
      · exact holds.starts cycleId' old
      · rw [List.mem_singleton.mp new]
        have positive := flying.positive
        have below := flying.below
        dsimp only
        omega
    distinct := by
      rcases built with rfl | ⟨-, rfl⟩
      · exact holds.distinct
      · simp only [System.keys, List.map_append, List.map_singleton]
        refine List.nodup_append.mpr ⟨holds.distinct, by simp, ?_⟩
        intro old inside new fresh same
        subst same
        obtain rfl := List.mem_singleton.mp fresh
        exact flying.unbound inside
    once := by
      rw [starts]
      refine List.nodup_append.mpr ⟨holds.once, by simp, ?_⟩
      intro old inside new fresh same
      subst same
      obtain rfl := List.mem_singleton.mp fresh
      exact flying.unstarted inside
    own := by
      intro other cycleId' handle' member bridge'
      rw [natives]
      rcases keys _ member with before | ⟨zero, same⟩
      · obtain ⟨reply', made, zero⟩ := holds.own other cycleId' handle' before bridge'
        exact ⟨reply', List.mem_append_left _ made, zero⟩
      · obtain ⟨rfl, rfl⟩ := Prod.mk.inj same
        obtain rfl := Option.some.inj (bridge'.symm.trans bridge)
        exact ⟨reply, List.mem_append_right _ (List.mem_singleton_self _), zero⟩ }

theorem Holds.goes (does : Does s t answer) : Holds (history ++ [(move, answer)]) t := by
  cases does with
  | quiet native next keys tasks taken called => exact holds.rest next keys tasks taken (by rw [called]; rfl)
  | took at_ plain taken called => exact holds.took at_ plain taken called
  | tookBridged at_ taken called => exact holds.tookBridged at_ taken called
  | started at_ bridge stepped built taken called => exact holds.started at_ bridge built taken called
  | @called _ move _ reply notStart stepped next bindings tasks taken called =>
    refine holds.rest next ?_ (fun thread task found => .inl (tasks thread task found)) taken ?_
    · unfold System.keys
      rw [bindings]
    · rw [called]
      cases move with
      | call op => cases op <;> first | rfl | cases notStart
      | begin | load | exchange => rfl

end

theorem holds_start : Holds [] start where
  next := rfl
  ids := rfl
  bound := by decide
  swapping := by intro thread identity current found; cases found
  flight := by intro thread identity cycleId found; cases found
  apart := by intro thread other identity identity' cycleId found; cases found
  bindings := by intro cycleId member; cases member
  starts := by intro cycleId member; cases member
  distinct := List.nodup_nil
  once := List.nodup_nil
  own := by intro identity cycleId handle member; cases member

theorem runs_hold {history : List (Move × Answer)} {s : System} (runs : Runs step start history s) :
    Holds history s := by
  apply runs.invariant fun history s => Holds history s
  · exact holds_start
  · intro history s t move answer before holds next
    exact holds.goes (step_does next)

theorem native_runs {history : List (Move × Answer)} {s : System} (runs : Runs step start history s) :
    Runs CkartaConnectionSystem.step CkartaConnectionSystem.start (nativeHistory history) s.native := by
  apply runs.invariant fun history s =>
    Runs CkartaConnectionSystem.step CkartaConnectionSystem.start (nativeHistory history) s.native
  · exact .start
  · intro history s t move answer before inner next
    rw [native_snoc]
    cases step_does next with
    | quiet native next keys tasks taken called =>
      rw [called, native]
      simpa using inner
    | took at_ plain taken called =>
      rw [called]
      simpa using inner
    | tookBridged at_ taken called =>
      rw [called]
      simpa using inner
    | started at_ bridge stepped built taken called =>
      rw [called]
      exact .step inner stepped
    | called notStart stepped next bindings tasks taken called =>
      rw [called]
      exact .step inner stepped

theorem ids_distinct {history : List (Move × Answer)} {s : System} (holds : Holds history s) :
    (s.bindings.map Binding.cycleId).Nodup := by
  have distinct := holds.distinct
  unfold System.keys at distinct
  rw [List.map_map] at distinct
  exact distinct

/-- Whatever threads construct bindings at once, the ids they take are 1, 2, 3 and so on, each
    once and none above the limit of the native word; so at most one binding answers to the
    values of a late event, and once the ids are used up every constructor throws. -/
theorem cycle_ids_unique {history : List (Move × Answer)} {s : System} (runs : Runs step start history s) :
    generated history = ((List.range (generated history).length).map fun k : Nat => (k : Int) + 1) ∧
      (generated history).length ≤ 281474976710655 ∧ (s.bindings.map Binding.cycleId).Nodup ∧
      (∀ requestId ownerToken lifetimeToken cycleId,
        s.bindings.countP (·.isMatch requestId ownerToken lifetimeToken cycleId) ≤ 1) ∧
      ((generated history).length = 281474976710655 → ∀ thread t answer,
        step s (.get thread) = some (t, answer) → answer.outcome = some .exhausted) := by
  have holds := runs_hold runs
  have bound := holds.bound
  have next := holds.next
  have limit : maxCycleId = 281474976710655 := rfl
  refine ⟨holds.ids, by omega, ids_distinct holds, ?_, ?_⟩
  · intro requestId ownerToken lifetimeToken cycleId
    calc s.bindings.countP (·.isMatch requestId ownerToken lifetimeToken cycleId)
        ≤ s.bindings.countP (fun binding => binding.cycleId == cycleId) := by
          apply List.countP_mono_left
          intro binding _ named
          simp only [Binding.isMatch, Bool.and_eq_true] at named
          exact named.2
      _ = (s.bindings.map Binding.cycleId).count cycleId := by
          rw [List.count, List.countP_map]
          rfl
      _ ≤ 1 := List.nodup_iff_count_le_one.mp (ids_distinct holds) cycleId
  · intro used thread t answer got
    simp only [step] at got
    split at got
    · rw [if_pos (.inr (by omega))] at got
      cases got
      rfl
    · cases got

/-- Two threads read the same id; the one that loses takes the next, starts the cycle of its
    connection and is asked for its end. -/
def sampleMoves : List Move :=
  [.native (.call (.register 3 7 5 9 ⟨some 1, some 2, true, true⟩)), .construct 1 ⟨7, 5, 9, some (makeHandle 0 1)⟩,
    .construct 2 ⟨8, 5, 9, none⟩, .get 1, .get 2, .compareAndSet 2, .compareAndSet 1, .get 1, .compareAndSet 1,
    .startCycle 1, .gate 3 1 .complete]

def sampleRun : List (Move × Answer) × System := (execute step start sampleMoves).getD ([], start)

theorem cycle_ids_unique_sample :
    generated sampleRun.1 = [1, 2] ∧ (sampleRun.2.bindings.map Binding.cycleId).Nodup ∧
      sampleRun.2.bindings.countP (·.isMatch 7 5 9 2) ≤ 1 := by
  have executed : execute step start sampleMoves = some (sampleRun.1, sampleRun.2) := rfl
  obtain ⟨-, -, distinct, matched, -⟩ := cycle_ids_unique (execute_runs executed)
  exact ⟨rfl, distinct, matched 7 5 9 2⟩

theorem same_entry {α β : Type} {f : α → Option β} {list : List α} {first second : α} {value : β}
    (once : (list.filterMap f).Nodup) (one : first ∈ list) (two : second ∈ list)
    (valued : f first = some value) (valued' : f second = some value) : first = second := by
  induction list with
  | nil => cases one
  | cons head rest ih =>
    have behind : ∀ {entry : α}, entry ∈ rest → f entry = some value → value ∈ rest.filterMap f :=
      fun inside valued => List.mem_filterMap.mpr ⟨_, inside, valued⟩
    have later : (rest.filterMap f).Nodup := by
      cases found : f head with
      | none => simpa [found] using once
      | some _ =>
        rw [List.filterMap_cons_some found] at once
        exact (List.nodup_cons.mp once).2
    have apart : f head = some value → value ∉ rest.filterMap f := by
      intro found
      rw [List.filterMap_cons_some found] at once
      exact (List.nodup_cons.mp once).1
    rcases List.mem_cons.mp one with rfl | early <;> rcases List.mem_cons.mp two with rfl | late
    · rfl
    · exact absurd (behind late valued') (apart valued)
    · exact absurd (behind early valued) (apart valued')
    · exact ih later early late

theorem started_mark {move : CkartaConnectionSystem.Move} {answer : CkartaConnectionSystem.Answer} {cycleId : Nat}
    (marked : markAt move answer = some (.started cycleId)) : startedId (move, answer) = some cycleId := by
  cases move with
  | call op =>
    cases op with
    | startAsyncCycle caller other =>
      simp only [markAt, Option.ite_none_right_eq_some, Option.some.injEq, Mark.started.injEq] at marked
      exact congrArg some marked.2
    | attachSocket | tryTerminal | close => simp [markAt] at marked
    | register | acquire | release | retire => cases marked
  | exchange running spurious => simp [markAt] at marked
  | begin | load => cases marked

theorem cycle_started {history : List (CkartaConnectionSystem.Move × CkartaConnectionSystem.Answer)}
    {s : CkartaConnectionSystem.System} (runs : Runs CkartaConnectionSystem.step CkartaConnectionSystem.start history s)
    {slot : Nat} (active : (s.registry.entries slot).active = true) (inCycle : unpackCycle (s.word slot) ≠ 0) :
    ∃ entry ∈ history, startedId entry = some (unpackCycle (s.word slot)) ∧
      entry.2.acted = some (s.current slot) := by
  obtain ⟨sound, lives⟩ := runs_lives runs
  obtain ⟨life, replayed, valid, fits⟩ := lives.now slot (sound.active slot active)
  have cycle := fits_cycle fits valid
  have summary := (replay_summary replayed).cycles
  rw [← cycle, if_neg inCycle] at summary
  have member : unpackCycle (s.word slot) ∈ (log markOf (s.current slot) history).filterMap Mark.cycle := by
    rw [summary]
    exact List.mem_singleton_self _
  obtain ⟨mark, marked, isCycle⟩ := List.mem_filterMap.mp member
  obtain ⟨entry, inside, tells⟩ := List.mem_filterMap.mp marked
  refine ⟨entry, inside, ?_⟩
  obtain ⟨move, answer⟩ := entry
  rw [told_eq] at tells
  split at tells
  · rename_i acted
    refine ⟨?_, acted⟩
    cases mark with
    | started cycleId =>
      obtain rfl := Option.some.inj isCycle
      exact started_mark tells
    | attached | claimed | ended => cases isCycle
  · cases tells

theorem claim_found {registry : ConnectionRegistry} {caller : Caller} {cycleId : Nat} {event : Int}
    (claimed : (call registry (.tryTerminal caller cycleId event)).1.result = terminalClaimed) :
    ∃ slot, find registry caller.handle = some slot ∧
      unpackCycle (registry.entries slot).connection.lifecycle = cycleId := by
  rcases call_changes registry (.tryTerminal caller cycleId event) with
    ⟨result, failed, refused, -⟩ | ⟨slot, acts⟩ | ⟨slot, registers⟩
  · rw [refused, refusal_result] at claimed
    exact absurd claimed failed
  · obtain ⟨handle, names, found⟩ := acts.found
    obtain rfl : caller.handle = handle := Option.some.inj names
    have valid := acts.same
    simp only [matching, Caller.validCycle, ckConnectionValidateCycle, Bool.and_eq_true, beq_iff_eq] at valid
    exact ⟨slot, found, valid.2⟩
  · cases registers.tried

/-- The gate of a binding claims the end of no connection but the one on which the
    constructor of this very binding started the cycle: not of another binding's, and not of
    a later connection in the same slot. -/
theorem terminal_ends_own_cycle {history : List (Move × Answer)} {s t : System} {answer : Answer}
    {thread index : Nat} (runs : Runs step start history s)
    (next : step s (.tryTerminal thread) = some (t, answer))
    (claimed : answer.decided = some (index, terminalClaimed)) :
    ∃ binding handle call reply started, s.bindings[index]? = some binding ∧
      binding.identity.bridge = some handle ∧ answer.native = some (call, reply) ∧
      (.call (.startAsyncCycle (binding.identity.caller handle) binding.cycleId.toNat), started) ∈
        nativeHistory history ∧
      started.result = some 0 ∧ started.acted = reply.acted ∧ reply.acted.isSome := by
  have holds := runs_hold runs
  have natives := native_runs runs
  obtain ⟨sound, -⟩ := runs_lives natives
  simp only [step] at next
  split at next
  · rename_i gated event at_
    simp only [Option.bind_eq_some_iff, Option.map_eq_some_iff, Prod.exists] at next
    obtain ⟨binding, bound, handle, bridge, native, reply, stepped, same⟩ := next
    cases same
    simp only [Option.map_eq_some_iff, Prod.mk.injEq] at claimed
    obtain ⟨result, told, rfl, rfl⟩ := claimed
    have key : (binding.identity, binding.cycleId) ∈ s.keys :=
      List.mem_map.mpr ⟨binding, List.mem_of_getElem? bound, rfl⟩
    have positive := (holds.bindings _ (List.mem_map.mpr ⟨_, key, rfl⟩)).1
    obtain ⟨started, made, zero⟩ := holds.own _ _ _ key bridge
    refine ⟨binding, handle, _, reply, started, bound, bridge, rfl, made, zero, ?_⟩
    simp only [CkartaConnectionSystem.step, Option.some.injEq, Prod.mk.injEq] at stepped
    obtain ⟨-, rfl⟩ := stepped
    obtain ⟨slot, found, inCycle⟩ := claim_found (Option.some.inj told)
    have acted : (CkartaConnectionSystem.actedSlot s.native.registry (.tryTerminal (binding.identity.caller handle)
        binding.cycleId.toNat event.ordinal)).map s.native.current = some (s.native.current slot) := by
      simp [CkartaConnectionSystem.actedSlot, target, found]
    have active := (find_decodes.mp found).1
    have word : unpackCycle (s.native.word slot) = binding.cycleId.toNat := inCycle
    obtain ⟨entry, inside, id, place⟩ := cycle_started natives active (by rw [word]; omega)
    obtain rfl := same_entry holds.once made inside rfl (id.trans (congrArg some word))
    dsimp only at place ⊢
    rw [place, acted]
    exact ⟨rfl, rfl⟩
  · cases next

theorem terminal_ends_own_cycle_sample :
    ∃ t answer, step sampleRun.2 (.tryTerminal 3) = some (t, answer) ∧
      answer.decided = some (1, terminalClaimed) ∧ ∃ started,
        (.call (.startAsyncCycle ⟨makeHandle 0 1, 7, 5, 9⟩ 2), started) ∈ nativeHistory sampleRun.1 ∧
          started.acted = some (0, 1) := by
  have executed : execute step start sampleMoves = some (sampleRun.1, sampleRun.2) := rfl
  let done := (step sampleRun.2 (.tryTerminal 3)).getD (start, quiet)
  have next : step sampleRun.2 (.tryTerminal 3) = some (done.1, done.2) := rfl
  have claimed : done.2.decided = some (1, terminalClaimed) := rfl
  obtain ⟨binding, handle, move, reply, started, bound, bridge, native, made, -, acted, -⟩ :=
    terminal_ends_own_cycle (execute_runs executed) next claimed
  have isBinding : sampleRun.2.bindings[1]? = some ⟨⟨7, 5, 9, some (makeHandle 0 1)⟩, 2, true⟩ := rfl
  obtain rfl := Option.some.inj (isBinding.symm.trans bound)
  obtain rfl := Option.some.inj bridge
  have place : done.2.native.bind (·.2.acted) = some (0, 1) := rfl
  rw [native] at place
  exact ⟨done.1, done.2, next, claimed, started, made, acted.trans place⟩

end CkartaCycleIds
