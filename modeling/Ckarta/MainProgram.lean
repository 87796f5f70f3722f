import Ckarta.DispatchWorker

/-!
The program itself, c/core/main.c: the command line, and then one call after another, each
with any answer, over the dispatch worker and the completion queue of its runtime. What main
holds (the configuration, the runtime, the event loop) is read off the calls it has made.
-/
namespace CkartaMainProgram
open StepHistory CkartaRequestOutcome
open CkartaCompletionQueue (CompletionRecord Errno)

structure Options where
  configPath : String
  testOnly : Bool
  dumpConfig : Bool
  deriving DecidableEq, Repr

def defaultOptions : Options := ⟨"conf/ckarta.conf", false, false⟩

/-- parse_arguments over argv[1..]; what it returns and the options it has set. -/
def parseArguments (options : Options) : List String → Int × Options
  | [] => (0, options)
  | argument :: rest =>
    if argument = "-c" then
      match rest with
      | [] => (-1, options)
      | path :: rest => parseArguments { options with configPath := path } rest
    else if argument = "-t" then parseArguments { options with testOnly := true } rest
    else if argument = "-T" then parseArguments { options with testOnly := true, dumpConfig := true } rest
    else if argument = "-h" ∨ argument = "--help" then (1, options)
    else (-1, options)

inductive Call where
  | configInit
  | configLoad
  | configDump
  | configDestroy
  | parseRequest (index : Nat)
  | initRequest (index : Nat)
  | runtimeInit
  | dispatch
  | runtimeShutdown
  | runtimeDestroy
  | loopInit
  | loopAdd
  | loopWait
  | loopDestroy
  | drainNotification
  | pollCompletion
  deriving DecidableEq, Repr

/-- The calls main makes before it returns: all three, the last two, or the last. -/
inductive Cleanup where
  | shutdown
  | destroyRuntime
  | destroyConfig
  deriving DecidableEq, Repr

/-- The call that comes next; in joining the worker thread runs, in routing a popped record
    is on its way to its request. -/
inductive Point where
  | configInit
  | configLoad
  | dump
  | parseRequest (index : Nat)
  | initRequest (index : Nat)
  | runtimeInit
  | dispatch
  | joining
  | loopInit
  | loopAdd
  | waiting
  | draining
  | polling
  | routing
  | loopDestroy
  | shutdown
  | shutdownAgain
  | cleanup (stage : Cleanup) (status : Int)
  | returned (status : Int)
  deriving DecidableEq, Repr

def exitSuccess : Int := 0
def exitFailure : Int := 1
def eintr : Int := 4

/-- delivered counts the completions that Java has published. -/
structure State where
  options : Options
  point : Point
  worker : CkartaDispatchWorker.System
  completed : Nat
  delivered : Nat

inductive Move where
  | answer (result : Int)
  | worker (move : CkartaDispatchWorker.Move)
  | deliver (record : CompletionRecord) (fault : Option Errno)
  | resume (spurious : Bool)
  deriving DecidableEq

def mainThread : Nat := 1
def javaThread : Nat := 2

def State.loop (s : State) : State :=
  { s with point := if s.completed < 2 then .waiting else .loopDestroy }

def State.polled (s : State) (result : Int) : State :=
  if result > 0 then { s with point := .polling, completed := if result = 1 then s.completed + 1 else s.completed }
  else if result < 0 then { s with point := .loopDestroy }
  else s.loop

def State.go (s : State) (point : Point) : State := { s with point := point }

def after (s : State) (result : Int) : Option (Call × State) :=
  match s.point with
  | .configInit =>
    some (.configInit, s.go (if result ≠ 0 then .returned exitFailure else .configLoad))
  | .configLoad =>
    some (.configLoad, s.go (if result ≠ 0 then .cleanup .destroyConfig exitFailure
      else if s.options.dumpConfig then .dump
      else if s.options.testOnly then .cleanup .destroyConfig exitSuccess
      else .parseRequest 0))
  | .dump =>
    some (.configDump, s.go (.cleanup .destroyConfig (if result = 0 then exitSuccess else exitFailure)))
  | .parseRequest index =>
    some (.parseRequest index, s.go (if result ≠ 0 then .cleanup .destroyConfig exitFailure else .initRequest index))
  | .initRequest index =>
    some (.initRequest index, s.go (if result ≠ 0 then .cleanup .destroyConfig exitFailure
      else if index = 0 then .parseRequest 1 else .runtimeInit))
  | .runtimeInit =>
    some (.runtimeInit, s.go (if result ≠ 0 then .cleanup .destroyConfig exitFailure else .dispatch))
  | .dispatch =>
    some (.dispatch, s.go (if result ≠ 0 then .cleanup .shutdown exitFailure else .joining))
  | .joining =>
    match s.worker.point with
    | .ended _ =>
      some (.dispatch, s.go (if result ≠ 0 then .cleanup .shutdown exitFailure else .loopInit))
    | _ => none
  | .loopInit =>
    some (.loopInit, s.go (if result ≠ 0 then .cleanup .shutdown exitFailure else .loopAdd))
  | .loopAdd =>
    some (.loopAdd, if result ≠ 0 then s.go .loopDestroy else s.loop)
  | .waiting =>
    some (.loopWait,
      if result = -eintr then s.loop
      else if result < 0 then s.go .loopDestroy
      else if result = 0 then s.loop
      else s.go .draining)
  | .draining =>
    some (.drainNotification, s.go (if result ≠ 0 then .loopDestroy else .polling))
  | .loopDestroy =>
    some (.loopDestroy, s.go (if s.completed = 2 then .shutdown else .cleanup .shutdown exitFailure))
  | .shutdown =>
    some (.runtimeShutdown, s.go (if result ≠ 0 then .cleanup .destroyRuntime exitFailure else .shutdownAgain))
  | .shutdownAgain =>
    some (.runtimeShutdown, s.go (.cleanup .destroyRuntime (if result ≠ 0 then exitFailure else exitSuccess)))
  | .cleanup .shutdown status =>
    some (.runtimeShutdown, s.go (.cleanup .destroyRuntime status))
  | .cleanup .destroyRuntime status =>
    some (.runtimeDestroy, s.go (.cleanup .destroyConfig status))
  | .cleanup .destroyConfig status => some (.configDestroy, s.go (.returned status))
  | .polling | .routing | .returned _ => none

/-- The worker's own accesses: no other thread of the program touches the requests while
    main waits for it. -/
def isOther : CkartaDispatchWorker.Move → Bool
  | .other _ => true
  | _ => false

def step (s : State) : Move → Option (State × Option (Call × Int))
  | .answer result => (after s result).map fun (call, next) => (next, some (call, result))
  | .worker move =>
    if s.point ≠ .joining ∨ isOther move then none
    else (CkartaDispatchWorker.step s.worker move).map fun (worker, _) => ({ s with worker := worker }, none)
  -- one completion for each call of dispatchAsync
  | .deliver record fault =>
    if s.delivered < s.worker.calls then
      (CkartaRequestOutcome.step s.worker.inner ⟨javaThread, .deliver record fault⟩).map fun (inner, _) =>
        ({ s with worker := { s.worker with inner := inner }, delivered := s.delivered + 1 }, none)
    else none
  | .resume spurious =>
    match s.point with
    | .polling | .routing =>
      let action : Action := if s.point = .polling then .poll else .resume spurious
      (CkartaRequestOutcome.step s.worker.inner ⟨mainThread, action⟩).map fun (inner, answer) =>
        let moved := { s with worker := { s.worker with inner := inner } }
        match answer.result with
        | some result => (moved.polled result, some (.pollCompletion, result))
        | none => ({ moved with point := .routing }, none)
    | _ => none

def identities : List Identity := [⟨805498, 1, 11⟩, ⟨805499, 2, 22⟩]

def start (arguments : List String) (lengths : Nat → CkartaDispatchWorker.Lengths) : State :=
  let (result, options) := parseArguments defaultOptions arguments
  ⟨options, if result > 0 then .returned exitSuccess else if result < 0 then .returned exitFailure else .configInit,
    CkartaDispatchWorker.start identities lengths, 0, 0⟩

def calls (history : List (Move × Option (Call × Int))) : List (Call × Int) := history.filterMap (·.2)

inductive RuntimeHeld where
  | absent
  | running
  | stopped
  deriving DecidableEq, Repr

structure Held where
  config : Bool
  runtime : RuntimeHeld
  eventLoop : Bool
  deriving DecidableEq, Repr

def Held.nothing : Held := ⟨false, .absent, false⟩

/-- Who may be called with what is held, and what is held then. -/
def Held.next (held : Held) (made : Call × Int) : Option Held :=
  match made.1 with
  | .configInit => if held = .nothing then some { held with config := decide (made.2 = 0) } else none
  | .configLoad | .configDump => if held = ⟨true, .absent, false⟩ then some held else none
  | .parseRequest _ | .initRequest _ => some held
  | .runtimeInit =>
    if held = ⟨true, .absent, false⟩ then
      some { held with runtime := if made.2 = 0 then .running else .absent }
    else none
  | .dispatch => if held.runtime = .running then some held else none
  | .loopInit => if held = ⟨true, .running, false⟩ then some { held with eventLoop := decide (made.2 = 0) } else none
  | .loopAdd | .loopWait | .drainNotification | .pollCompletion =>
    if held.runtime = .running ∧ held.eventLoop then some held else none
  | .loopDestroy => if held.eventLoop then some { held with eventLoop := false } else none
  | .runtimeShutdown =>
    if held.runtime ≠ .absent ∧ !held.eventLoop then some { held with runtime := .stopped } else none
  | .runtimeDestroy => if held.runtime = .stopped then some { held with runtime := .absent } else none
  | .configDestroy => if held = ⟨true, .absent, false⟩ then some .nothing else none

def follow (made : List (Call × Int)) : Option Held := made.foldlM Held.next .nothing

/-- What main holds at each point. -/
def expected : Point → Held
  | .configInit | .returned _ => .nothing
  | .configLoad | .dump | .parseRequest _ | .initRequest _ | .runtimeInit | .cleanup .destroyConfig _ =>
    ⟨true, .absent, false⟩
  | .dispatch | .joining | .loopInit | .shutdown | .cleanup .shutdown _ => ⟨true, .running, false⟩
  | .loopAdd | .waiting | .draining | .polling | .routing | .loopDestroy => ⟨true, .running, true⟩
  | .shutdownAgain | .cleanup .destroyRuntime _ => ⟨true, .stopped, false⟩

theorem loop_expected (s : State) : expected s.loop.point = ⟨true, .running, true⟩ := by
  unfold State.loop
  dsimp only
  split <;> rfl

theorem polled_expected (s : State) (result : Int) : expected (s.polled result).point = ⟨true, .running, true⟩ := by
  unfold State.polled
  split
  · rfl
  · split
    · rfl
    · exact loop_expected s

theorem after_follows {s t : State} {call : Call} {result : Int} (made : after s result = some (call, t)) :
    (expected s.point).next (call, result) = some (expected t.point) := by
  cases at_ : s.point with
  | configInit | runtimeInit | loopInit =>
    simp only [after, at_, Option.some.injEq, Prod.mk.injEq] at made
    obtain ⟨rfl, rfl⟩ := made
    by_cases zero : result = 0 <;> simp [State.go, expected, Held.next, Held.nothing, zero]
  | configLoad | dump | parseRequest | dispatch | draining | loopDestroy | shutdown | shutdownAgain =>
    simp only [after, at_, Option.some.injEq, Prod.mk.injEq] at made
    obtain ⟨rfl, rfl⟩ := made
    simp only [State.go]
    split_ifs <;> rfl
  | initRequest index =>
    simp only [after, at_, Option.some.injEq, Prod.mk.injEq] at made
    obtain ⟨rfl, rfl⟩ := made
    simp only [State.go]
    split_ifs <;> rfl
  | joining =>
    simp only [after, at_] at made
    split at made
    · cases made
      simp only [State.go]
      split_ifs <;> rfl
    · cases made
  | loopAdd =>
    simp only [after, at_, Option.some.injEq, Prod.mk.injEq] at made
    obtain ⟨rfl, rfl⟩ := made
    split_ifs
    · rfl
    · rw [loop_expected]
      rfl
  | waiting =>
    simp only [after, at_, Option.some.injEq, Prod.mk.injEq] at made
    obtain ⟨rfl, rfl⟩ := made
    split_ifs <;> first | rfl | (rw [loop_expected]; rfl)
  | cleanup stage status =>
    cases stage <;> simp only [after, at_, Option.some.injEq, Prod.mk.injEq] at made <;>
      obtain ⟨rfl, rfl⟩ := made <;> rfl
  | polling | routing | returned => simp [after, at_] at made

theorem follow_snoc (made : List (Call × Int)) (last : Call × Int) :
    follow (made ++ [last]) = (follow made).bind (·.next last) := by
  simp [follow, List.foldlM_append]

theorem step_follows {history : List (Move × Option (Call × Int))} {s t : State} {move : Move}
    {answer : Option (Call × Int)} (follows : follow (calls history) = some (expected s.point))
    (next : step s move = some (t, answer)) :
    follow (calls (history ++ [(move, answer)])) = some (expected t.point) := by
  have called : calls (history ++ [(move, answer)]) = calls history ++ answer.toList := filterMap_snoc _ _ _
  rw [called]
  cases move with
  | answer result =>
    simp only [step, Option.map_eq_some_iff, Prod.exists] at next
    obtain ⟨call, after_, made, same⟩ := next
    cases same
    rw [Option.toList_some, follow_snoc, follows]
    exact after_follows made
  | worker move =>
    simp only [step, Option.ite_none_left_eq_some, Option.map_eq_some_iff, Prod.exists] at next
    obtain ⟨-, worker, -, -, same⟩ := next
    cases same
    simpa using follows
  | deliver record fault =>
    simp only [step, Option.ite_none_right_eq_some, Option.map_eq_some_iff, Prod.exists] at next
    obtain ⟨-, inner, -, -, same⟩ := next
    cases same
    simpa using follows
  | resume spurious =>
    have polls : s.point = .polling ∨ s.point = .routing := by
      simp only [step] at next
      split at next
      · exact .inl ‹_›
      · exact .inr ‹_›
      · cases next
    have holds : expected s.point = ⟨true, .running, true⟩ := by
      rcases polls with at_ | at_ <;> rw [at_] <;> rfl
    have moves : ∃ inner reply, CkartaRequestOutcome.step s.worker.inner ⟨mainThread,
        if s.point = .polling then .poll else .resume spurious⟩ = some (inner, reply) ∧
        (t, answer) = match reply.result with
          | some result => (({ s with worker := { s.worker with inner := inner } } : State).polled result,
              some (.pollCompletion, result))
          | none => ({ s with worker := { s.worker with inner := inner }, point := .routing }, none) := by
      rcases polls with at_ | at_ <;> simp only [step, at_, Option.map_eq_some_iff, Prod.exists] at next ⊢ <;>
        obtain ⟨inner, reply, moved, same⟩ := next <;> exact ⟨inner, reply, moved, same.symm⟩
    obtain ⟨inner, reply, -, same⟩ := moves
    rw [holds] at follows
    split at same
    · cases same
      rw [Option.toList_some, follow_snoc, follows, polled_expected]
      rfl
    · cases same
      rw [Option.toList_none, List.append_nil]
      exact follows

/-- Main gives back what it took, once and in time, on every path: no call is made without
    what it needs or after it was given back, the event loop goes before the runtime and the
    runtime before the configuration, and when main returns it holds nothing. -/
theorem main_releases_all {arguments : List String} {lengths : Nat → CkartaDispatchWorker.Lengths}
    {history : List (Move × Option (Call × Int))} {s : State} (runs : Runs step (start arguments lengths) history s) :
    ∃ held, follow (calls history) = some held ∧ ∀ status, s.point = .returned status → held = .nothing := by
  have follows : follow (calls history) = some (expected s.point) := by
    apply runs.invariant fun history s => follow (calls history) = some (expected s.point)
    · simp only [start]
      split_ifs <;> rfl
    · intro history s t move answer before follows next
      exact step_follows follows next
  refine ⟨_, follows, ?_⟩
  intro status returned
  rw [returned]
  rfl

/-- The worker cannot attach; main polls an empty queue and then cannot wait any more. -/
def sampleMoves : List Move :=
  List.replicate 7 (.answer 0) ++ [.answer 0, .worker (.attach (-1)), .answer 0, .answer 0, .answer 0, .answer 1,
    .answer 0, .resume false, .answer (-9)] ++ List.replicate 4 (.answer 0)

def sampleStart : State := start ["-c", "alt.conf"] fun _ => ⟨40, 0⟩

def sampleRun : List (Move × Option (Call × Int)) × State :=
  (execute step sampleStart sampleMoves).getD ([], sampleStart)

theorem main_releases_all_sample :
    sampleRun.2.point = .returned exitFailure ∧ follow (calls sampleRun.1) = some .nothing := by
  have executed : execute step sampleStart sampleMoves = some (sampleRun.1, sampleRun.2) := rfl
  have returned : sampleRun.2.point = .returned exitFailure := rfl
  obtain ⟨held, followed, released⟩ := main_releases_all (execute_runs executed)
  rw [released exitFailure returned] at followed
  exact ⟨returned, followed⟩

theorem enter_quiet {inner after : CkartaRequestOutcome.System} {action : Action}
    {answer : CkartaRequestOutcome.Answer}
    (which : (∃ index, action = .begin index) ∨ ∃ index error, action = .fail index error)
    (idle : inner.threads CkartaDispatchWorker.workerThread = none)
    (next : CkartaRequestOutcome.step inner ⟨CkartaDispatchWorker.workerThread, action⟩ = some (after, answer)) :
    after.queue = inner.queue := by
  rcases which with ⟨index, rfl⟩ | ⟨index, error, rfl⟩
  · simp only [CkartaRequestOutcome.step, idle, enter, Option.ite_none_right_eq_some, Option.some.injEq,
      Prod.mk.injEq] at next
    obtain ⟨-, rfl, -⟩ := next
    rfl
  · simp only [CkartaRequestOutcome.step, idle, enter, failExchange, Option.ite_none_right_eq_some] at next
    obtain ⟨-, next⟩ := next
    split at next
    · cases next
      rfl
    · split at next <;> cases next <;> rfl

theorem worker_quiet {count : Nat} {worker after : CkartaDispatchWorker.System}
    {move : CkartaDispatchWorker.Move} {answer : Unit} (holds : CkartaDispatchWorker.Holds count worker)
    (own : isOther move = false) (next : CkartaDispatchWorker.step worker move = some (after, answer)) :
    after.inner.queue = worker.inner.queue ∧
      after.inner.threads mainThread = worker.inner.threads mainThread := by
  have call := holds.call
  have main_ : ∀ {action : Action} {inner : CkartaRequestOutcome.System} {reply : CkartaRequestOutcome.Answer},
      CkartaRequestOutcome.step worker.inner ⟨CkartaDispatchWorker.workerThread, action⟩ = some (inner, reply) →
      inner.threads mainThread = worker.inner.threads mainThread := by
    intro action inner reply stepped
    exact CkartaDispatchWorker.Effect.others (CkartaRequestFates.step_effect holds.saw stepped) Nat.one_ne_zero
  cases move with
  | other move => cases own
  | attach result =>
    simp only [CkartaDispatchWorker.step, Option.ite_none_right_eq_some] at next
    obtain ⟨-, next⟩ := next
    split_ifs at next <;> cases next <;> exact ⟨rfl, rfl⟩
  | detach result =>
    simp only [CkartaDispatchWorker.step] at next
    split at next
    · simp only [Option.ite_none_left_eq_some, Option.some.injEq, Prod.mk.injEq] at next
      obtain ⟨-, rfl, -⟩ := next
      exact ⟨rfl, rfl⟩
    · cases next
  | begin =>
    simp only [CkartaDispatchWorker.step] at next
    split at next
    · rename_i index at_
      rw [at_] at call
      simp only [Option.ite_none_right_eq_some, Option.map_eq_some_iff, Prod.exists] at next
      obtain ⟨-, inner, reply, stepped, same⟩ := next
      have queue := enter_quiet (.inl ⟨index, rfl⟩) call stepped
      split at same <;> cases same <;> exact ⟨queue, main_ stepped⟩
    · cases next
  | dispatch answers buffers =>
    simp only [CkartaDispatchWorker.step] at next
    split at next
    · rename_i index at_
      rw [at_] at call
      split at next
      · cases next
        exact ⟨rfl, rfl⟩
      · split at next
        · cases next
          exact ⟨rfl, rfl⟩
        · simp only [Option.map_eq_some_iff, Prod.exists, Prod.mk.injEq] at next
          obtain ⟨inner, reply, stepped, rfl, -⟩ := next
          have queue := enter_quiet (.inr ⟨index, _, rfl⟩) call stepped
          unfold CkartaDispatchWorker.failed
          split <;> exact ⟨queue, main_ stepped⟩
    · cases next
  | fail =>
    simp only [CkartaDispatchWorker.step] at next
    split at next
    · rename_i index at_
      rw [at_] at call
      simp only [Option.map_eq_some_iff, Prod.exists, Prod.mk.injEq] at next
      obtain ⟨inner, reply, stepped, rfl, -⟩ := next
      have queue : inner.queue = worker.inner.queue := by
        obtain ⟨error, write | store⟩ := call
        · simp only [CkartaRequestOutcome.step, write, continued, Option.some.injEq, Prod.mk.injEq] at stepped
          obtain ⟨rfl, -⟩ := stepped
          rfl
        · simp only [CkartaRequestOutcome.step, store, continued, Option.some.injEq, Prod.mk.injEq] at stepped
          obtain ⟨rfl, -⟩ := stepped
          rfl
      unfold CkartaDispatchWorker.failed
      split <;> exact ⟨queue, main_ stepped⟩
    · cases next

/-- The points main can reach while no request has completed. -/
def Point.fruitless : Point → Bool
  | .dump | .routing | .shutdown | .shutdownAgain => false
  | .cleanup _ status | .returned status => decide (status ≠ exitSuccess)
  | _ => true

structure Fruitless (s : State) : Prop where
  serving : s.options.testOnly = false ∧ s.options.dumpConfig = false
  worker : CkartaDispatchWorker.Holds identities.length s.worker
  queue : s.worker.inner.queue = CkartaCompletionQueue.ckCompletionQueueInit
  idle : s.worker.inner.threads mainThread = none
  completed : s.completed = 0
  point : s.point.fruitless = true

theorem Fruitless.answered {s t : State} {call : Call} {result : Int} (fruitless : Fruitless s)
    (made : after s result = some (call, t)) : Fruitless t := by
  obtain ⟨serving, worker, queue, idle, completed, point⟩ := fruitless
  have looped : s.loop = s.go .waiting := by simp [State.loop, State.go, completed]
  have goes : ∀ {next : Point}, next.fruitless = true → Fruitless (s.go next) :=
    fun fine => ⟨serving, worker, queue, idle, completed, fine⟩
  cases at_ : s.point with
  | configInit | parseRequest | runtimeInit | dispatch | loopInit | draining =>
    simp only [after, at_, Option.some.injEq, Prod.mk.injEq] at made
    obtain ⟨-, rfl⟩ := made
    split_ifs <;> exact goes rfl
  | configLoad =>
    simp only [after, at_, serving.1, serving.2, Bool.false_eq_true, if_false, Option.some.injEq,
      Prod.mk.injEq] at made
    obtain ⟨-, rfl⟩ := made
    split_ifs <;> exact goes rfl
  | initRequest index =>
    simp only [after, at_, Option.some.injEq, Prod.mk.injEq] at made
    obtain ⟨-, rfl⟩ := made
    split_ifs <;> exact goes rfl
  | joining =>
    simp only [after, at_] at made
    split at made
    · cases made
      split_ifs <;> exact goes rfl
    · cases made
  | loopAdd | waiting =>
    simp only [after, at_, looped, Option.some.injEq, Prod.mk.injEq] at made
    obtain ⟨-, rfl⟩ := made
    split_ifs <;> exact goes rfl
  | loopDestroy =>
    simp only [after, at_, completed, Option.some.injEq, Prod.mk.injEq] at made
    obtain ⟨-, rfl⟩ := made
    exact goes rfl
  | cleanup stage status =>
    rw [at_] at point
    cases stage <;> simp only [after, at_, Option.some.injEq, Prod.mk.injEq] at made <;>
      obtain ⟨-, rfl⟩ := made <;> exact goes point
  | dump | shutdown | shutdownAgain =>
    rw [at_] at point
    cases point
  | polling | routing | returned => simp [after, at_] at made

theorem Fruitless.resumed {s t : State} {spurious : Bool} {answer : Option (Call × Int)}
    (fruitless : Fruitless s) (next : step s (.resume spurious) = some (t, answer)) : t = s.go .waiting := by
  have polls : s.point = .polling := by
    have point := fruitless.point
    simp only [CkartaMainProgram.step] at next
    split at next
    · assumption
    · rename_i routing
      rw [routing] at point
      cases point
    · cases next
  have polled : CkartaRequestOutcome.step s.worker.inner ⟨mainThread, .poll⟩ =
      some (s.worker.inner, ⟨some 0, none, none⟩) := by
    simp only [CkartaRequestOutcome.step, fruitless.idle, enter, fruitless.queue]
    rfl
  simp only [CkartaMainProgram.step, polls, if_true, polled, Option.map_some, Option.some.injEq,
    Prod.mk.injEq] at next
  obtain ⟨rfl, -⟩ := next
  simp [State.polled, State.loop, State.go, fruitless.completed]

theorem Fruitless.step {s t : State} {move : Move} {answer : Option (Call × Int)} (fruitless : Fruitless s)
    (next : step s move = some (t, answer)) : Fruitless t := by
  cases move with
  | answer result =>
    simp only [CkartaMainProgram.step, Option.map_eq_some_iff, Prod.exists] at next
    obtain ⟨call, after_, made, same⟩ := next
    cases same
    exact fruitless.answered made
  | worker move =>
    simp only [CkartaMainProgram.step, Option.ite_none_left_eq_some, not_or, Option.map_eq_some_iff,
      Prod.exists] at next
    obtain ⟨⟨-, own⟩, worker, reply, stepped, same⟩ := next
    cases same
    obtain ⟨queue, idle⟩ := worker_quiet fruitless.worker (by simpa using own) stepped
    exact ⟨fruitless.serving, fruitless.worker.step stepped, queue.trans fruitless.queue,
      idle.trans fruitless.idle, fruitless.completed, fruitless.point⟩
  | deliver record fault =>
    simp only [CkartaMainProgram.step, fruitless.worker.uncalled] at next
    cases next
  | resume spurious =>
    obtain rfl := fruitless.resumed next
    exact ⟨fruitless.serving, fruitless.worker, fruitless.queue, fruitless.idle, fruitless.completed, rfl⟩

/-- The call returned an error to main's loop. -/
def Failed : Call × Int → Prop
  | (.loopWait, result) => result < 0 ∧ result ≠ -eintr
  | (_, result) => result ≠ 0

theorem Fruitless.loop_left {s t : State} {move : Move} {answer : Option (Call × Int)}
    (fruitless : Fruitless s) (next : CkartaMainProgram.step s move = some (t, answer))
    (left : t.point = .loopDestroy) : ∃ made, answer = some made ∧ Failed made := by
  cases move with
  | answer result =>
    simp only [CkartaMainProgram.step, Option.map_eq_some_iff, Prod.exists] at next
    obtain ⟨call, then_, made, same⟩ := next
    cases same
    refine ⟨_, rfl, ?_⟩
    have looped : s.loop = s.go .waiting := by simp [State.loop, State.go, fruitless.completed]
    cases at_ : s.point with
    | loopAdd | draining =>
      simp only [after, at_, looped, Option.some.injEq, Prod.mk.injEq] at made
      obtain ⟨rfl, rfl⟩ := made
      split at left
      · assumption
      · cases left
    | waiting =>
      simp only [after, at_, looped, Option.some.injEq, Prod.mk.injEq] at made
      obtain ⟨rfl, rfl⟩ := made
      split_ifs at left with interrupted negative
      · cases left
      · exact ⟨negative, interrupted⟩
      · cases left
      · cases left
    | joining =>
      simp only [after, at_] at made
      split at made
      · cases made
        split_ifs at left <;> cases left
      · cases made
    | cleanup stage status =>
      cases stage <;> simp only [after, at_, Option.some.injEq, Prod.mk.injEq] at made <;>
        obtain ⟨-, rfl⟩ := made <;> cases left
    | polling | routing | returned => simp [after, at_] at made
    | configInit | configLoad | dump | parseRequest | initRequest | runtimeInit | dispatch | loopInit
      | loopDestroy | shutdown | shutdownAgain =>
      simp only [after, at_, Option.some.injEq, Prod.mk.injEq] at made
      obtain ⟨-, rfl⟩ := made
      split_ifs at left <;> cases left
  | worker move =>
    simp only [CkartaMainProgram.step, Option.ite_none_left_eq_some, not_or, Option.map_eq_some_iff,
      Prod.exists] at next
    obtain ⟨⟨joins, -⟩, worker, reply, -, same⟩ := next
    cases same
    rw [left] at joins
    exact absurd nofun joins
  | deliver record fault =>
    simp only [CkartaMainProgram.step, fruitless.worker.uncalled] at next
    cases next
  | resume spurious =>
    obtain rfl := fruitless.resumed next
    cases left

theorem parse_dump (options : Options) (arguments : List String)
    (both : options.dumpConfig = true → options.testOnly = true) :
    (parseArguments options arguments).2.dumpConfig = true →
      (parseArguments options arguments).2.testOnly = true := by
  fun_induction parseArguments options arguments with
  | case1 options => exact both
  | case2 options => exact both
  | case3 options path rest ih => exact ih both
  | case4 options rest _ ih => exact ih (fun _ => rfl)
  | case5 options rest _ _ ih => exact ih (fun _ => rfl)
  | case6 options argument rest => exact both
  | case7 options argument rest => exact both

theorem runs_fruitless {arguments : List String} {lengths : Nat → CkartaDispatchWorker.Lengths}
    {history : List (Move × Option (Call × Int))} {s : State} (runs : Runs step (start arguments lengths) history s)
    (wellFormed : (parseArguments defaultOptions arguments).1 = 0)
    (serving : (parseArguments defaultOptions arguments).2.testOnly = false) : Fruitless s := by
  have undumped : (parseArguments defaultOptions arguments).2.dumpConfig = false := by
    by_contra dumps
    have tests := parse_dump defaultOptions arguments (by simp [defaultOptions]) (by simpa using dumps)
    rw [serving] at tests
    cases tests
  apply runs.invariant fun _ s => Fruitless s
  · refine ⟨⟨serving, undumped⟩, CkartaDispatchWorker.holds_start identities lengths, rfl, rfl, rfl, ?_⟩
    simp only [start, wellFormed]
    rfl
  · intro history s t move answer before fruitless next
    exact fruitless.step next

/-- A program that is not asked to test its configuration never succeeds: no request
    completes, an error is what makes main leave its loop, and main does not return
    EXIT_SUCCESS. -/
theorem serving_never_succeeds {arguments : List String} {lengths : Nat → CkartaDispatchWorker.Lengths}
    {history : List (Move × Option (Call × Int))} {s : State} (runs : Runs step (start arguments lengths) history s)
    (wellFormed : (parseArguments defaultOptions arguments).1 = 0)
    (serving : (parseArguments defaultOptions arguments).2.testOnly = false) :
    s.completed = 0 ∧ s.point ≠ .returned exitSuccess ∧
    (s.point = .loopDestroy → ∃ made, (calls history).getLast? = some made ∧ Failed made) := by
  have fruitless := runs_fruitless runs wellFormed serving
  refine ⟨fruitless.completed, ?_, ?_⟩
  · intro returned
    have point := fruitless.point
    rw [returned] at point
    cases point
  · intro left
    cases runs with
    | start => simp [start, wellFormed] at left
    | step before next =>
      obtain ⟨made, rfl, failed⟩ := (runs_fruitless before wellFormed serving).loop_left next left
      exact ⟨made, by simp [calls], failed⟩

def leavingRun : List (Move × Option (Call × Int)) × State :=
  (execute step sampleStart (sampleMoves.take 16)).getD ([], sampleStart)

theorem serving_never_succeeds_sample : leavingRun.2.point = .loopDestroy ∧
    leavingRun.2.completed = 0 ∧ ∃ made, (calls leavingRun.1).getLast? = some made ∧ Failed made := by
  have executed : execute step sampleStart (sampleMoves.take 16) = some (leavingRun.1, leavingRun.2) := rfl
  have left : leavingRun.2.point = .loopDestroy := rfl
  obtain ⟨completed, -, error⟩ := serving_never_succeeds (execute_runs executed) (by decide) (by decide)
  exact ⟨left, completed, error left⟩

end CkartaMainProgram
