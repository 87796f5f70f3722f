import Ckarta.RuntimeProtocol

/-!
What ck_runtime_init and ck_runtime_shutdown answer, and that they answer: init is all or
nothing, shutdown returns how the Java VM went down and keeps saying so, and neither waits
for a wake-up that was already given.
-/
namespace CkartaRuntimeCalls
open StepHistory CkartaRuntimeLifecycle CkartaRuntimeProtocol
open CkartaCompletionQueue (CompletionQueue CompletionRecord Errno Sound)

def ofInit : Move → Bool
  | .init .. | .initTest | .initWake | .initJoin => true
  | _ => false

theorem unheld_off {s : System} (reachable : Reachable s) (sync : s.runtime.syncInitialized = false) : Off s := by
  cases reachable with
  | off off => exact off
  | booting booting => simp [booting.held.sync] at sync
  | failing failing => simp [failing.held.sync] at sync
  | serving serving => simp [serving.held.sync] at sync
  | leaving leaving => simp [leaving.held.sync] at sync
  | finished finished => simp [finished.sync] at sync

theorem initSection_answers {s t : System} {answer : Answer} {result : Int} (reachable : Reachable s)
    (caller : s.caller = .initTesting ∨ ∃ woken, s.caller = .initAsleep woken)
    (next : initSection s = (t, answer)) (returned : answer.returned = some result) :
    result = 0 ∧ Serving t ∧ t.caller = .idle := by
  cases reachable with
  | off off =>
    rw [off.caller] at caller
    simp at caller
  | booting booting =>
    simp only [initSection, booting.undone] at next
    obtain ⟨rfl, rfl⟩ := Prod.mk.inj next
    cases returned
  | failing failing =>
    simp only [initSection, failing.done, Bool.not_true, Bool.false_eq_true, if_false,
      if_pos failing.failed] at next
    obtain ⟨rfl, rfl⟩ := Prod.mk.inj next
    cases returned
  | serving serving =>
    simp only [initSection, serving.done, serving.status] at next
    obtain ⟨rfl, rfl⟩ := Prod.mk.inj next
    exact ⟨(Option.some.inj returned).symm, { serving with caller := .inr (.inr (.inl rfl)) }, rfl⟩
  | leaving leaving =>
    rcases leaving.caller with other | other <;> simp [other] at caller
  | finished finished =>
    rcases finished.caller with ⟨other, -⟩ | ⟨other, -⟩ <;> simp [other] at caller

theorem init_returns {s t : System} {move : Move} {answer : Answer} {result : Int} (reachable : Reachable s)
    (next : step s move = some (t, answer)) (init : ofInit move = true)
    (returned : answer.returned = some result) :
    (result = 0 ∧ Serving t ∧ t.caller = .idle) ∨ (result ≠ 0 ∧ Off t) := by
  cases move with
  | init classPath queue mutex condition thread fault =>
    simp only [step, Option.ite_none_right_eq_some, Option.some.injEq] at next
    have off := unheld_off reachable (by simpa using next.1.2)
    rcases init_cases off next.2 with ⟨after, code, failed, rfl⟩ | ⟨-, -, rfl⟩
    · exact .inr ⟨Option.some.inj returned ▸ failed, after⟩
    · cases returned
  | initTest =>
    simp only [step, Option.ite_none_right_eq_some, Option.some.injEq] at next
    exact .inl (initSection_answers reachable (.inl next.1) next.2 returned)
  | initWake =>
    simp only [step] at next
    split at next
    · rename_i woken caller
      exact .inl (initSection_answers reachable (.inr ⟨woken, caller⟩) (Option.some.inj next) returned)
    · cases next
  | initJoin =>
    have after := (reachable.goes (step_does next)).reachable
    simp only [step, Option.ite_none_right_eq_some, Option.some.injEq, Prod.mk.injEq] at next
    obtain ⟨-, rfl, rfl⟩ := next
    exact .inr ⟨by rw [← Option.some.inj returned]; decide, unheld_off after rfl⟩
  | _ => cases init

/-- Init is all or nothing in every interleaving and under every failure: when it returns 0
    the VM and Java run and the bootstrap thread waits for the shutdown; when it returns
    anything else there is no thread, no VM, no queue and no lock. -/
theorem init_all_or_nothing {history : List (Move × Answer)} {s t : System} {move : Move} {answer : Answer}
    {result : Int} (runs : Runs step start history s) (next : step s move = some (t, answer))
    (init : ofInit move = true) (returned : answer.returned = some result) :
    (result = 0 ∧ t.caller = .idle ∧ t.bootstrap = .asleep false ∧ t.vmAlive = true ∧ t.javaRunning = true ∧
      t.runtime.vm = true ∧ t.runtime.completionQueue.initialized = true) ∨
    (result ≠ 0 ∧ t.caller = .idle ∧ t.bootstrap = .absent ∧ t.vmAlive = false ∧ t.javaRunning = false ∧
      t.runtime.vm = false ∧ t.runtime.completionQueue.initialized = false ∧
      t.runtime.syncInitialized = false) := by
  obtain ⟨reachable, -⟩ := runs_reachable runs
  rcases init_returns reachable next init returned with ⟨zero, serving, idle⟩ | ⟨failed, off⟩
  · exact .inl ⟨zero, idle, serving.thread, serving.alive, serving.java, serving.vm, serving.held.sound.ready⟩
  · exact .inr ⟨failed, off.caller, off.thread, off.alive, off.quiet.java, off.vm, off.queue, off.sync⟩

/-- A bootstrap thread that could not create the VM. -/
def sampleRefused : List Move :=
  [.init [47] 0 0 0 0 none, .format, .create (-4), .refuse, .initTest]

theorem init_all_or_nothing_refused :
    ∃ t answer, step (sampleRun sampleRefused).2 .initJoin = some (t, answer) ∧ answer.returned = some (-1) ∧
      t.bootstrap = .absent ∧ t.runtime.completionQueue.initialized = false := by
  have executed : execute step start sampleRefused =
      some ((sampleRun sampleRefused).1, (sampleRun sampleRefused).2) := rfl
  have joined : step (sampleRun sampleRefused).2 .initJoin = some
      ({ (sampleRun sampleRefused).2 with runtime := zeroRuntime, bootstrap := .absent, caller := .idle },
        returns (-1)) := rfl
  have returned : (returns (-1)).returned = some (-1) := rfl
  refine ⟨_, _, joined, returned, ?_⟩
  rcases init_all_or_nothing (execute_runs executed) joined rfl returned with
    ⟨zero, -⟩ | ⟨-, -, thread, -, -, -, queue, -⟩
  · cases zero
  · exact ⟨thread, queue⟩

/-- How the VM went down, as far as the bootstrap thread has come: the end of what was told
    and what shutdown_status holds of it. -/
def Told (s : System) (told : List VmEvent) : Prop :=
  s.runtime.shutdownRequested = true →
  match s.bootstrap with
  | .stopping => ∃ before, told = before ++ [.closed] ∧ s.runtime.shutdownStatus = 0
  | .destroying => ∃ before stop, told = before ++ [.closed, .stopped stop] ∧
      s.runtime.shutdownStatus = if stop = 0 then 0 else -1
  | .ended | .absent => ∃ before stop result, told = before ++ [.closed, .stopped stop, .destroyed result] ∧
      s.runtime.shutdownStatus = if stop = 0 then result else -1
  | _ => True

theorem Told.still {s t : System} {answer : Answer} {told : List VmEvent} (holds : Told s told)
    (untold : answer.event = none) (asked : t.runtime.shutdownRequested = s.runtime.shutdownRequested)
    (point : t.bootstrap = s.bootstrap) (status : t.runtime.shutdownStatus = s.runtime.shutdownStatus) :
    Told t (told ++ answer.event.toList) := by
  unfold Told
  rw [untold, asked, point, status]
  simpa [Told] using holds

theorem asked_cases {s : System} (reachable : Reachable s) (asked : s.runtime.shutdownRequested = true) :
    Leaving s ∨ Finished s := by
  cases reachable with
  | off off => simp [off.unasked] at asked
  | booting booting => simp [booting.unasked] at asked
  | failing failing => simp [failing.unasked] at asked
  | serving serving => simp [serving.unasked] at asked
  | leaving leaving => exact .inl leaving
  | finished finished => exact .inr finished

theorem Told.shutdown {s t : System} {answer : Answer} {fault : Option Errno} {told : List VmEvent}
    (holds : Told s told) (leaving : Leaving s) (next : ckRuntimeShutdown s fault = (t, answer)) :
    Told t (told ++ answer.event.toList) := by
  obtain ⟨event, queue, -, -, rfl | rfl⟩ := shutdown_cases leaving.held next
  · rw [leaving.asked] at event
    exact holds.still event leaving.asked.symm rfl rfl
  · rw [leaving.asked] at event
    rcases broadcast_point (requestShutdown s queue) with ⟨point, -⟩ | ⟨woken, -, point⟩
    · exact holds.still event leaving.asked.symm point rfl
    · intro _
      dsimp only
      rw [point]
      trivial

theorem Told.leaving {s t : System} {move : Move} {answer : Answer} {told : List VmEvent} (holds : Told s told)
    (leaving : Leaving s) (does : Does s move t answer) : Told t (told ++ answer.event.toList) := by
  have late := leaving.late
  have held := leaving.held
  have known := holds leaving.asked
  cases does with
  | shutdown caller next => exact holds.shutdown leaving next
  | shutdownJoin caller point =>
    rw [point] at known
    intro _
    simpa [silent] using known
  | destroy caller =>
    have same : ckRuntimeDestroy s = s := by simp [ckRuntimeDestroy, held.incomplete]
    rw [same]
    exact holds.still rfl rfl rfl rfl
  | @dispatch requestCount thread _ _ caller next =>
    have refused : ckRuntimeDispatch s requestCount thread = (s, returns (-1)) := by
      simp [ckRuntimeDispatch, leaving.asked]
    obtain ⟨rfl, rfl⟩ := Prod.mk.inj (refused.symm.trans next)
    exact holds.still rfl rfl rfl rfl
  | poll caller next =>
    simp only [runtimePop, held.queue, Bool.not_true, Bool.false_eq_true, if_false] at next
    obtain ⟨rfl, rfl⟩ := Prod.mk.inj next
    exact holds.still rfl rfl rfl rfl
  | wake point =>
    intro _
    simp [leaving.asked]
  | close point =>
    rw [point] at late
    intro _
    rw [leaving.close_eq]
    exact ⟨told, by simp [tells], late.2⟩
  | @stop answers point =>
    rw [point] at known
    obtain ⟨before, rfl, zero⟩ := known
    intro _
    rw [bootstrapStop_point, bootstrapStop_status, zero]
    refine ⟨before, ckCallStop answers, by simp [tells], ?_⟩
    by_cases stopped : ckCallStop answers = 0 <;> simp [stopped]
  | @destroyVm result point left =>
    rw [point] at known
    obtain ⟨before, stop, rfl, status⟩ := known
    intro _
    rw [bootstrapDestroy_point, bootstrapDestroy_status, status]
    refine ⟨before, stop, result, by simp [tells], ?_⟩
    by_cases stopped : stop = 0
    · by_cases gone : result = 0 <;> simp [stopped, gone, jniOk]
    · simp [stopped]
  | publish alive => exact holds.still rfl rfl rfl rfl
  | exit alive => exact holds.still rfl rfl rfl rfl
  | init caller sync next =>
    rw [held.sync] at sync
    cases sync
  | format point | createFails point failed | create point | refuse point | store point | start point
  | report point | abandon point =>
    rw [point] at late
    cases late
  | initTest caller next | initWake caller next | initJoin caller point | shutdownFinish caller | attachFails caller failed | attach caller | detach caller
  | execute caller java =>
    rcases leaving.caller with other | other <;> simp [other] at caller

theorem Finished.keeps {s t : System} {move : Move} {answer : Answer} (finished : Finished s)
    (does : Does s move t answer) :
    answer.event = none ∧ t.bootstrap = .absent ∧ ((move = .destroy ∧ t.runtime = zeroRuntime) ∨
      (t.runtime.shutdownStatus = s.runtime.shutdownStatus ∧ t.runtime.syncInitialized = true ∧
        t.runtime.shutdownRequested = true ∧
        (s.runtime.shutdownComplete = true → t.runtime.shutdownComplete = true))) := by
  have thread := finished.thread
  have left := finished.quiet.executor
  have same : s.bootstrap = .absent ∧ ((move = .destroy ∧ s.runtime = zeroRuntime) ∨
      (s.runtime.shutdownStatus = s.runtime.shutdownStatus ∧ s.runtime.syncInitialized = true ∧
        s.runtime.shutdownRequested = true ∧
        (s.runtime.shutdownComplete = true → s.runtime.shutdownComplete = true))) :=
    ⟨thread, .inr ⟨rfl, finished.sync, finished.asked, id⟩⟩
  cases does with
  | shutdown caller next =>
    rcases finished.caller with ⟨other, -⟩ | ⟨-, complete⟩
    · rw [caller] at other
      cases other
    · simp only [ckRuntimeShutdown, finished.sync, finished.started, complete] at next
      obtain ⟨rfl, rfl⟩ := Prod.mk.inj next
      exact ⟨rfl, same⟩
  | shutdownFinish caller => exact ⟨rfl, thread, .inr ⟨rfl, finished.sync, finished.asked, fun _ => rfl⟩⟩
  | destroy caller =>
    unfold ckRuntimeDestroy
    split
    · exact ⟨rfl, same⟩
    · exact ⟨rfl, thread, .inl ⟨rfl, rfl⟩⟩
  | @dispatch requestCount created _ _ caller next =>
    have refused : ckRuntimeDispatch s requestCount created = (s, returns (-1)) := by
      simp [ckRuntimeDispatch, finished.asked]
    obtain ⟨rfl, rfl⟩ := Prod.mk.inj (refused.symm.trans next)
    exact ⟨rfl, same⟩
  | poll caller next =>
    unfold runtimePop at next
    split at next
    · obtain ⟨rfl, rfl⟩ := Prod.mk.inj next
      exact ⟨rfl, same⟩
    · obtain ⟨rfl, rfl⟩ := Prod.mk.inj next
      exact ⟨rfl, thread, .inr ⟨rfl, finished.sync, finished.asked, id⟩⟩
  | init caller sync next =>
    rw [finished.sync] at sync
    cases sync
  | initTest caller next | initWake caller next | initJoin caller point | shutdownJoin caller point | attachFails caller failed | attach caller | detach caller
  | execute caller java =>
    rcases finished.caller with ⟨other, -⟩ | ⟨other, -⟩ <;> simp [other] at caller
  | publish alive =>
    rcases finished.caller with ⟨other, -⟩ | ⟨other, -⟩ <;> simp [other, left] at alive
  | _ => simp_all

theorem Told.finished {s t : System} {move : Move} {answer : Answer} {told : List VmEvent} (holds : Told s told)
    (finished : Finished s) (does : Does s move t answer) : Told t (told ++ answer.event.toList) := by
  obtain ⟨untold, thread, ⟨-, cleared⟩ | ⟨status, -, asked, -⟩⟩ := Finished.keeps finished does
  · intro again
    rw [cleared] at again
    cases again
  · exact holds.still untold (asked.trans finished.asked.symm) (thread.trans finished.thread.symm) status

theorem shutdown_asks {s t : System} {answer : Answer} {fault : Option Errno} (reachable : Reachable s)
    (unasked : s.runtime.shutdownRequested = false) (caller : s.caller = .idle)
    (next : ckRuntimeShutdown s fault = (t, answer)) :
    t.runtime.shutdownRequested = false ∨ ∃ woken, t.bootstrap = .asleep woken := by
  cases reachable with
  | off off =>
    simp only [ckRuntimeShutdown, off.sync] at next
    obtain ⟨rfl, rfl⟩ := Prod.mk.inj next
    exact .inl unasked
  | booting booting => exact absurd caller booting.notIdle.1
  | failing failing => rcases failing.caller with other | other | other <;> simp [caller] at other
  | serving serving =>
    have thread := serving.thread
    obtain ⟨-, queue, -, -, rfl | rfl⟩ := shutdown_cases serving.held next
    · exact .inr ⟨false, thread⟩
    · exact .inr ⟨true, by simp [broadcast, requestShutdown, thread]⟩
  | leaving leaving => simp [leaving.asked] at unasked
  | finished finished => simp [finished.asked] at unasked

theorem dispatch_moves {s t : System} {answer : Answer} {requestCount : Nat} {thread : Int}
    (next : ckRuntimeDispatch s requestCount thread = (t, answer)) : ∃ place, t = { s with caller := place } := by
  unfold ckRuntimeDispatch at next
  split at next
  · obtain ⟨rfl, rfl⟩ := Prod.mk.inj next
    exact ⟨s.caller, rfl⟩
  · split at next
    · obtain ⟨rfl, rfl⟩ := Prod.mk.inj next
      exact ⟨s.caller, rfl⟩
    · split at next
      · obtain ⟨rfl, rfl⟩ := Prod.mk.inj next
        exact ⟨s.caller, rfl⟩
      · obtain ⟨rfl, rfl⟩ := Prod.mk.inj next
        exact ⟨.dispatching, rfl⟩

theorem pop_moves {s t : System} {answer : Answer} (next : runtimePop s = (t, answer)) :
    ∃ queue, t = requeue s queue := by
  unfold runtimePop at next
  split at next
  · obtain ⟨rfl, rfl⟩ := Prod.mk.inj next
    exact ⟨s.runtime.completionQueue, rfl⟩
  · obtain ⟨rfl, rfl⟩ := Prod.mk.inj next
    exact ⟨_, rfl⟩

theorem Does.unasked {s t : System} {move : Move} {answer : Answer} (does : Does s move t answer) (reachable : Reachable s)
    (unasked : s.runtime.shutdownRequested = false) :
    t.runtime.shutdownRequested = false ∨ ∃ woken, t.bootstrap = .asleep woken := by
  cases does with
  | init caller sync next =>
    rcases init_cases (unheld_off reachable sync) next with ⟨off, -⟩ | ⟨booting, -⟩
    · exact .inl off.unasked
    · exact .inl booting.unasked
  | initTest caller next | initWake caller next =>
    unfold initSection at next
    split at next
    · obtain ⟨rfl, rfl⟩ := Prod.mk.inj next
      exact .inl unasked
    · split at next <;> obtain ⟨rfl, rfl⟩ := Prod.mk.inj next <;> exact .inl unasked
  | initJoin caller point => exact .inl rfl
  | shutdown caller next => exact shutdown_asks reachable unasked caller next
  | destroy caller =>
    unfold ckRuntimeDestroy
    split
    · exact .inl unasked
    · exact .inl rfl
  | dispatch caller next =>
    obtain ⟨place, rfl⟩ := dispatch_moves next
    exact .inl unasked
  | poll caller next =>
    obtain ⟨queue, rfl⟩ := pop_moves next
    exact .inl unasked
  | format point =>
    unfold bootstrapFormat
    split <;> exact .inl unasked
  | report point =>
    unfold bootstrapReport
    dsimp only
    split
    · exact .inl unasked
    · split <;> exact .inl unasked
  | close point =>
    unfold bootstrapClose
    dsimp only
    split <;> exact .inl unasked
  | stop point =>
    unfold bootstrapStop
    dsimp only
    split <;> exact .inl unasked
  | destroyVm point left =>
    unfold bootstrapDestroy
    dsimp only
    split <;> exact .inl unasked
  | _ => exact .inl unasked

theorem runs_told {history : List (Move × Answer)} {s : System} (runs : Runs step start history s) :
    Reachable s ∧ Told s (events history) := by
  apply runs.invariant (fun history s => Reachable s ∧ Told s (events history))
  · exact ⟨.off start_off, fun asked => by cases asked⟩
  · intro history s t move answer _ holds next
    have does := step_does next
    refine ⟨(holds.1.goes does).reachable, ?_⟩
    unfold events
    rw [filterMap_snoc]
    by_cases asked : s.runtime.shutdownRequested = true
    · rcases asked_cases holds.1 asked with leaving | finished
      · exact holds.2.leaving leaving does
      · exact holds.2.finished finished does
    · intro now
      rcases Does.unasked does holds.1 (by simpa using asked) with unasked | ⟨woken, point⟩
      · rw [unasked] at now
        cases now
      · rw [point]
        trivial

/-- Moves other than the destruction of the runtime. -/
def keepsRuntime (_ : System) (move : Move) : Bool := decide (move ≠ .destroy)

theorem finish_finished {s t : System} {answer : Answer} (reachable : Reachable s)
    (next : step s .shutdownFinish = some (t, answer)) :
    Finished s ∧ answer = returns s.runtime.shutdownStatus ∧
      t = { s with runtime := { s.runtime with shutdownComplete := true }, caller := .idle } := by
  simp only [step, Option.ite_none_right_eq_some, Option.some.injEq, Prod.mk.injEq] at next
  obtain ⟨caller, rfl, rfl⟩ := next
  refine ⟨?_, rfl, rfl⟩
  cases reachable with
  | off off => simp [off.caller] at caller
  | booting booting => exact absurd caller booting.notIdle.2.2.2.1
  | failing failing => rcases failing.caller with other | other | other <;> simp [caller] at other
  | serving serving =>
    rcases serving.caller with other | other | other | other | other <;> simp [caller] at other
  | leaving leaving => rcases leaving.caller with other | other <;> simp [caller] at other
  | finished finished => exact finished

/-- The first shutdown that runs to its end returns how the VM went down: -1 if Java could not
    be stopped, else what DestroyJavaVM returned. By then the thread is joined, the VM gone and
    the queue closed, and every further shutdown of the same runtime returns the same. -/
theorem shutdown_verdict {history : List (Move × Answer)} {s t : System} {answer : Answer}
    (runs : Runs step start history s) (next : step s .shutdownFinish = some (t, answer)) :
    (∃ before stop result, events history = before ++ [.closed, .stopped stop, .destroyed result] ∧
      answer.returned = some (if stop = 0 then result else -1)) ∧
    t.bootstrap = .absent ∧ t.vmAlive = false ∧ t.runtime.completionQueue.closed = true ∧
    ∀ {later : List (Move × Answer)} {u v : System} {fault : Option Errno} {again : Answer},
      Runs (guarded keepsRuntime step) t later u → step u (.shutdown fault) = some (v, again) →
      again.returned = answer.returned ∧ v.runtime = u.runtime := by
  obtain ⟨reachable, told⟩ := runs_told runs
  obtain ⟨finished, rfl, same⟩ := finish_finished reachable next
  have after := (reachable.goes (step_does next)).reachable
  have known := told finished.asked
  rw [finished.thread] at known
  obtain ⟨before, stop, result, ended, status⟩ := known
  refine ⟨⟨before, stop, result, ended, congrArg some status⟩, by rw [same]; exact finished.thread,
    by rw [same]; exact finished.alive, by rw [same]; exact finished.closed, ?_⟩
  intro later u v fault again continued repeated
  -- the runtime stays as the first shutdown left it until it is destroyed
  have kept : Finished u ∧ u.runtime.shutdownComplete = true ∧
      u.runtime.shutdownStatus = s.runtime.shutdownStatus := by
    apply continued.invariant (fun _ u => Finished u ∧ u.runtime.shutdownComplete = true ∧
      u.runtime.shutdownStatus = s.runtime.shutdownStatus)
    · subst same
      exact ⟨{ finished with
        caller := .inr ⟨rfl, rfl⟩
        quiet := ⟨finished.quiet.java, finished.quiet.executor⟩ }, rfl, rfl⟩
    · intro _ u w move reply _ holds moved
      obtain ⟨allowed, moved⟩ := guarded_cases moved
      obtain ⟨-, thread, ⟨isDestroy, -⟩ | ⟨status, sync, asked, complete⟩⟩ := Finished.keeps holds.1 (step_does moved)
      · exact absurd isDestroy (of_decide_eq_true allowed)
      · rcases asked_cases (holds.1.goes (step_does moved)).reachable asked with leaving | finished
        · have late := leaving.late
          rw [thread] at late
          cases late
        · exact ⟨finished, complete holds.2.1, status.trans holds.2.2⟩
  obtain ⟨finished, complete, status⟩ := kept
  simp only [step, Option.ite_none_right_eq_some, Option.some.injEq, ckRuntimeShutdown, finished.sync,
    finished.started, complete] at repeated
  obtain ⟨-, repeated⟩ := repeated
  obtain ⟨rfl, rfl⟩ := Prod.mk.inj repeated
  exact ⟨congrArg some status, rfl⟩

theorem shutdown_verdict_sample :
    ∃ t answer, step (sampleRun (sampleServed ++ sampleLeft)).2 .shutdownFinish = some (t, answer) ∧
      answer.returned = some 0 ∧ t.vmAlive = false ∧ t.runtime.completionQueue.closed = true := by
  have executed : execute step start (sampleServed ++ sampleLeft) =
      some ((sampleRun (sampleServed ++ sampleLeft)).1, (sampleRun (sampleServed ++ sampleLeft)).2) := rfl
  obtain ⟨-, -, gone, closed, -⟩ := shutdown_verdict (execute_runs executed) rfl
  exact ⟨_, _, rfl, rfl, gone, closed⟩

def bootstrapLeft : Bootstrap → Nat
  | .absent => 0
  | .ended => 2
  | .destroying => 3
  | .stopping | .abandoning _ => 4
  | .closing => 5
  | .asleep _ => 6
  | .reporting _ => 8
  | .starting => 9
  | .storing | .refused _ => 10
  | .creating => 11
  | .formatting => 12

def callerLeft : Caller → Nat
  | .idle => 0
  | .initJoining | .shutdownFinishing | .attached => 1
  | .initAsleep false | .shutdownJoining | .dispatching => 2
  | .initAsleep true => 3
  | .initTesting => 4

/-- How many steps of their own the threads have before them at most. -/
def stepsLeft (s : System) : Nat :=
  bootstrapLeft s.bootstrap + callerLeft s.caller + s.executorThread.toNat

/-- The steps the threads make by themselves once a call is under way, without the wake-ups
    that find nothing to do; the executor thread ends when its executor is shut down. -/
def advances (s : System) : Move → Bool
  | .initTest | .initJoin | .shutdownJoin | .shutdownFinish | .attach _ | .detach | .format | .create _
  | .refuse | .store | .start _ | .report | .close _ | .stop _ | .abandon | .destroyVm _ => true
  | .initWake => s.runtime.bootstrapDone
  | .wake => s.runtime.shutdownRequested
  | .exit => !s.javaRunning
  | _ => false

theorem callerLeft_broadcast (s : System) : callerLeft (broadcast s).caller ≤ callerLeft s.caller + 1 := by
  unfold broadcast
  cases s.caller with
  | initAsleep woken => cases woken <;> simp [callerLeft]
  | _ => simp [callerLeft]

theorem initSection_left {s t : System} {answer : Answer}
    (caller : s.caller = .initTesting ∨ (s.runtime.bootstrapDone = true ∧ ∃ woken, s.caller = .initAsleep woken))
    (next : initSection s = (t, answer)) : stepsLeft t < stepsLeft s := by
  unfold initSection at next
  have less : ∀ {place : Caller}, callerLeft place < callerLeft s.caller →
      stepsLeft { s with caller := place } < stepsLeft s := by
    intro place below
    unfold stepsLeft
    dsimp only
    omega
  split at next
  · rename_i undone
    obtain ⟨rfl, rfl⟩ := Prod.mk.inj next
    rcases caller with caller | ⟨done, -⟩
    · exact less (by simp [caller, callerLeft])
    · simp [done] at undone
  · have waits : 1 < callerLeft s.caller := by
      rcases caller with caller | ⟨-, woken, caller⟩
      · simp [caller, callerLeft]
      · cases woken <;> simp [caller, callerLeft]
    split at next <;> obtain ⟨rfl, rfl⟩ := Prod.mk.inj next
    · exact less (by simpa [callerLeft] using waits)
    · exact less (Nat.lt_trans Nat.zero_lt_one waits)

theorem Does.left {s t : System} {move : Move} {answer : Answer} (does : Does s move t answer)
    (own : advances s move = true) : stepsLeft t < stepsLeft s := by
  cases does with
  | initTest caller next => exact initSection_left (.inl caller) next
  | initWake caller next => exact initSection_left (.inr ⟨own, _, caller⟩) next
  | initJoin caller point => simp [stepsLeft, caller, point, callerLeft, bootstrapLeft]
  | shutdownJoin caller point => simp [stepsLeft, caller, point, callerLeft, bootstrapLeft]
  | shutdownFinish caller => simp [stepsLeft, caller, callerLeft]
  | attachFails caller failed => simp [stepsLeft, caller, callerLeft]
  | attach caller => simp [stepsLeft, caller, callerLeft]
  | detach caller => simp [stepsLeft, caller, callerLeft]
  | format point =>
    unfold bootstrapFormat
    split <;> simp [stepsLeft, point, bootstrapLeft]
  | createFails point failed => simp [stepsLeft, point, bootstrapLeft]
  | create point => simp [stepsLeft, point, bootstrapLeft]
  | @refuse status point =>
    have woken := callerLeft_broadcast { s with
      runtime := { s.runtime with bootstrapStatus := status, bootstrapDone := true } }
    simp only [stepsLeft, point, bootstrapLeft, broadcast] at woken ⊢
    omega
  | store point => simp [stepsLeft, point, bootstrapLeft]
  | start point => simp [stepsLeft, point, bootstrapLeft]
  | @report startStatus point =>
    have woken := callerLeft_broadcast { s with
      runtime := { s.runtime with bootstrapStatus := startStatus, bootstrapDone := true } }
    unfold bootstrapReport
    dsimp only
    split
    · simp only [stepsLeft, point, bootstrapLeft, broadcast] at woken ⊢
      omega
    · split
      · simp only [stepsLeft, point, bootstrapLeft, broadcast] at woken ⊢
        omega
      · simp only [stepsLeft, point, bootstrapLeft, broadcast] at woken ⊢
        omega
  | wake point =>
    have asked : s.runtime.shutdownRequested = true := own
    simp [stepsLeft, point, bootstrapLeft, asked]
  | close point =>
    unfold bootstrapClose
    dsimp only
    split <;> simp [stepsLeft, point, bootstrapLeft, setShutdownStatus, requeue]
  | stop point =>
    unfold bootstrapStop
    dsimp only
    split <;> simp [stepsLeft, point, bootstrapLeft, setShutdownStatus]
  | abandon point => simp [stepsLeft, point, bootstrapLeft, setShutdownStatus]
  | destroyVm point left =>
    unfold bootstrapDestroy
    dsimp only
    split <;> simp [stepsLeft, point, bootstrapLeft, setShutdownStatus]
  | exit alive => simp [stepsLeft, alive]
  | _ => cases own

/-- While a call is under way some thread can go on, or Java could not be stopped and keeps
    the thread of its executor. -/
theorem Reachable.advance {s : System} (reachable : Reachable s) (busy : s.caller ≠ .idle) :
    (∃ move, advances s move = true ∧ (step s move).isSome) ∨
      (s.bootstrap = .destroying ∧ s.executorThread = true ∧ s.javaRunning = true) := by
  have answers : JniAnswers := ⟨true, 0, true, true⟩
  cases reachable with
  | off off => exact absurd off.caller busy
  | booting booting =>
    have early := booting.early
    left
    cases point : s.bootstrap with
    | formatting => exact ⟨.format, rfl, by simp [step, point]⟩
    | creating => exact ⟨.create jniOk, rfl, by simp [step, point]⟩
    | refused status => exact ⟨.refuse, rfl, by simp [step, point]⟩
    | storing => exact ⟨.store, rfl, by simp [step, point]⟩
    | starting => exact ⟨.start answers, rfl, by simp [step, point]⟩
    | reporting startStatus => exact ⟨.report, rfl, by simp [step, point]⟩
    | _ =>
      rw [point] at early
      cases early
  | failing failing =>
    left
    rcases failing.caller with caller | caller | caller
    · exact ⟨.initTest, rfl, by simp [step, caller]⟩
    · exact ⟨.initWake, failing.done, by simp [step, caller]⟩
    · rcases failing.thread with ⟨point, -⟩ | ⟨⟨status, point⟩ | point, -⟩
      · exact ⟨.initJoin, rfl, by simp [step, caller, point]⟩
      · exact ⟨.abandon, rfl, by simp [step, point]⟩
      · exact ⟨.destroyVm 0, rfl, by simp [step, point, failing.quiet.executor]⟩
  | serving serving =>
    left
    rcases serving.caller with caller | caller | caller | caller | caller
    · exact ⟨.initTest, rfl, by simp [step, caller]⟩
    · exact ⟨.initWake, serving.done, by simp [step, caller]⟩
    · exact absurd caller busy
    · exact ⟨.attach jniOk, rfl, by simp [step, caller]⟩
    · exact ⟨.detach, rfl, by simp [step, caller]⟩
  | leaving leaving =>
    have late := leaving.late
    cases point : s.bootstrap with
    | asleep woken => exact .inl ⟨.wake, leaving.asked, by simp [step, point]⟩
    | closing => exact .inl ⟨.close none, rfl, by simp [step, point]⟩
    | stopping => exact .inl ⟨.stop answers, rfl, by simp [step, point]⟩
    | destroying =>
      by_cases running : s.executorThread = true
      · by_cases java : s.javaRunning = true
        · exact .inr ⟨rfl, running, java⟩
        · exact .inl ⟨.exit, by simpa [advances] using java, by simp [step, running]⟩
      · exact .inl ⟨.destroyVm 0, rfl, by simp [step, point, running]⟩
    | ended =>
      rcases leaving.caller with caller | caller
      · exact absurd caller busy
      · exact .inl ⟨.shutdownJoin, rfl, by simp [step, caller, point]⟩
    | _ =>
      rw [point] at late
      cases late
  | finished finished =>
    rcases finished.caller with ⟨caller, -⟩ | ⟨caller, -⟩
    · exact .inl ⟨.shutdownFinish, rfl, by simp [step, caller]⟩
    · exact absurd caller busy

theorem stepsLeft_le (s : System) : stepsLeft s ≤ 17 := by
  have thread : bootstrapLeft s.bootstrap ≤ 12 := by cases s.bootstrap <;> simp [bootstrapLeft]
  have caller : callerLeft s.caller ≤ 4 := by
    cases s.caller with
    | initAsleep woken => cases woken <;> simp [callerLeft]
    | _ => simp [callerLeft]
  have executor := Bool.toNat_le s.executorThread
  unfold stepsLeft
  omega

theorem idle_initWake {s t : System} {answer : Answer} (reachable : Reachable s)
    (undone : s.runtime.bootstrapDone = false) (next : step s .initWake = some (t, answer)) :
    t = s ∧ answer = silent := by
  cases step_does next with
  | initWake caller tested =>
    simp only [initSection, undone] at tested
    obtain ⟨rfl, rfl⟩ := Prod.mk.inj tested
    refine ⟨?_, rfl⟩
    have asleep : s.caller = .initAsleep false := by
      cases reachable with
      | off off => simp [off.caller] at caller
      | booting booting =>
        rcases booting.caller with other | other
        · simp [other] at caller
        · exact other
      | failing failing => simp [failing.done] at undone
      | serving serving => simp [serving.done] at undone
      | leaving leaving => rcases leaving.caller with other | other <;> simp [other] at caller
      | finished finished => rcases finished.caller with ⟨other, -⟩ | ⟨other, -⟩ <;> simp [other] at caller
    rw [← asleep]

theorem idle_wake {s t : System} {answer : Answer} (reachable : Reachable s)
    (unasked : s.runtime.shutdownRequested = false) (next : step s .wake = some (t, answer)) :
    t = s ∧ answer = silent := by
  cases step_does next with
  | wake point =>
    have asleep : s.bootstrap = .asleep false := by
      cases reachable with
      | off off => simp [off.thread] at point
      | booting booting =>
        have early := booting.early
        rw [point] at early
        cases early
      | failing failing =>
        rcases failing.thread with ⟨other, -⟩ | ⟨⟨status, other⟩ | other, -⟩ <;> simp [other] at point
      | serving serving => exact serving.thread
      | leaving leaving => simp [leaving.asked] at unasked
      | finished finished => simp [finished.thread] at point
    rw [unasked, if_neg (by decide), ← asleep]
    exact ⟨rfl, rfl⟩

/-- Init, shutdown and dispatch return: from every state of every interleaving the threads
    make at most seventeen steps of their own, whatever the JNI answers, and where none is
    left the call has returned. The one exception is a Java that could not be stopped. A
    wake-up that finds nothing to do leaves everything as it was. -/
theorem calls_return {history : List (Move × Answer)} {s : System} (runs : Runs step start history s) :
    (∀ {later : List (Move × Answer)} {t : System}, Runs (guarded advances step) s later t →
      later.length ≤ 17 ∧
      ((∀ move, guarded advances step t move = none) →
        t.caller = .idle ∨ (t.bootstrap = .destroying ∧ t.executorThread = true ∧ t.javaRunning = true))) ∧
    (∀ {move : Move} {t : System} {answer : Answer}, move = .initWake ∨ move = .wake →
      advances s move = false → step s move = some (t, answer) → t = s ∧ answer = silent) := by
  obtain ⟨reachable, -⟩ := runs_reachable runs
  refine ⟨?_, ?_⟩
  · intro later t continued
    obtain ⟨after, bound⟩ := continued.bounded Reachable stepsLeft reachable (by
      intro s t move answer reachable next
      obtain ⟨own, next⟩ := guarded_cases next
      exact ⟨(reachable.goes (step_does next)).reachable, Does.left (step_does next) own⟩)
    have most := stepsLeft_le s
    refine ⟨by omega, fun stuck => ?_⟩
    by_cases idle : t.caller = .idle
    · exact .inl idle
    · rcases Reachable.advance after idle with ⟨move, own, possible⟩ | stopped
      · have none := stuck move
        rw [guarded, if_pos own] at none
        rw [none] at possible
        cases possible
      · exact .inr stopped
  · intro move t answer which idle next
    rcases which with rfl | rfl
    · exact idle_initWake reachable idle next
    · exact idle_wake reachable idle next

def sampleAsked : List Move := sampleServed ++ [.detach, .shutdown none]

def sampleDown : List Move :=
  [.wake, .close none, .stop sampleAnswers, .exit, .destroyVm 0, .shutdownJoin, .shutdownFinish]

def sampleDownRun : List (Move × Answer) × System :=
  (execute (guarded advances step) (sampleRun sampleAsked).2 sampleDown).getD ([], start)

theorem calls_return_sample :
    (sampleRun sampleAsked).2.caller = .shutdownJoining ∧ sampleDownRun.2.caller = .idle ∧
      sampleDownRun.1.length ≤ 17 := by
  have executed : execute step start sampleAsked =
      some ((sampleRun sampleAsked).1, (sampleRun sampleAsked).2) := rfl
  have continued : execute (guarded advances step) (sampleRun sampleAsked).2 sampleDown =
      some (sampleDownRun.1, sampleDownRun.2) := rfl
  exact ⟨rfl, rfl, ((calls_return (execute_runs executed)).1 (execute_runs continued)).1⟩

end CkartaRuntimeCalls
