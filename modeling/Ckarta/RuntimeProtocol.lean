import Ckarta.RuntimeLifecycle

/-!
What holds of the runtime across every interleaving of its threads. The Java VM goes through
the life of Vm.next, whatever is called and whatever fails; init is all or nothing; shutdown
returns what became of the stop and of the VM; nobody waits for a wake-up that was given.
-/
namespace CkartaRuntimeProtocol
open StepHistory CkartaRuntimeLifecycle
open CkartaCompletionQueue (CompletionQueue CompletionRecord Errno Sound init_sound pop_takes
  pushWait_publishes close_closes ckCompletionQueuePop ckCompletionQueuePushWait ckCompletionQueueClose
  ckCompletionQueueInit)

/-- The life of a Java VM: it is stopped only after it was started, asked to leave and its
    completion queue closed, destroyed once and last, and used by a worker thread only while
    nobody asked it to leave. -/
inductive Vm where
  | absent
  | created
  | serving
  | inUse
  | leaving
  | closed
  | ending
  deriving DecidableEq, Repr

def Vm.next : Vm → VmEvent → Option Vm
  | .absent, .created => some .created
  | .created, .started => some .serving
  | .created, .startFailed => some .ending
  | .serving, .attached => some .inUse
  | .inUse, .detached => some .serving
  | .serving, .requested => some .leaving
  | .leaving, .closed => some .closed
  | .closed, .stopped _ => some .ending
  | .ending, .destroyed _ => some .absent
  | _, _ => none

def Vm.after (vm : Vm) : Option VmEvent → Option Vm
  | none => some vm
  | some event => vm.next event

/-- Where the VM of a system is in its life. -/
def vmOf (s : System) : Vm :=
  match s.bootstrap with
  | .absent | .formatting | .creating | .refused _ | .ended => .absent
  | .storing | .starting => .created
  | .reporting startStatus => if startStatus = 0 then .serving else .ending
  | .asleep _ =>
    if s.runtime.shutdownRequested then .leaving else if s.caller = .attached then .inUse else .serving
  | .closing => .leaving
  | .stopping => .closed
  | .abandoning _ | .destroying => .ending

/-- The runtime holds its lock, its queue and its thread. -/
structure Held (runtime : Runtime) : Prop where
  sync : runtime.syncInitialized = true
  thread : runtime.bootstrapThreadStarted = true
  queue : runtime.completionQueueInitialized = true
  sound : Sound runtime.completionQueue
  incomplete : runtime.shutdownComplete = false

/-- The Java side before a successful start and after the end. -/
structure Quiet (s : System) : Prop where
  java : s.javaRunning = false
  executor : s.executorThread = false

/-- Nothing is held: before init, after a failed one, after destroy. -/
structure Off (s : System) : Prop where
  thread : s.bootstrap = .absent
  caller : s.caller = .idle
  sync : s.runtime.syncInitialized = false
  vm : s.runtime.vm = false
  alive : s.vmAlive = false
  queue : s.runtime.completionQueue.initialized = false
  flag : s.runtime.completionQueueInitialized = false
  unasked : s.runtime.shutdownRequested = false
  quiet : Quiet s

/-- The bootstrap thread before its report, with what it has made so far. -/
def Early (vm alive java : Bool) : Bootstrap → Prop
  | .formatting | .creating => vm = false ∧ alive = false ∧ java = false
  | .refused status => status ≠ 0 ∧ vm = false ∧ alive = false ∧ java = false
  | .storing => vm = false ∧ alive = true ∧ java = false
  | .starting => vm = true ∧ alive = true ∧ java = false
  | .reporting startStatus => vm = true ∧ alive = true ∧ java = decide (startStatus = 0)
  | _ => False

structure Booting (s : System) : Prop where
  held : Held s.runtime
  early : Early s.runtime.vm s.vmAlive s.javaRunning s.bootstrap
  caller : s.caller = .initTesting ∨ s.caller = .initAsleep false
  undone : s.runtime.bootstrapDone = false
  unasked : s.runtime.shutdownRequested = false
  status : s.runtime.shutdownStatus = 0
  executor : s.executorThread = false

/-- The start failed; init is to join the thread. -/
structure Failing (s : System) : Prop where
  held : Held s.runtime
  thread : (s.bootstrap = .ended ∧ s.vmAlive = false) ∨
    (((∃ status, s.bootstrap = .abandoning status) ∨ s.bootstrap = .destroying) ∧ s.vmAlive = true)
  caller : s.caller = .initTesting ∨ s.caller = .initAsleep true ∨ s.caller = .initJoining
  done : s.runtime.bootstrapDone = true
  failed : s.runtime.bootstrapStatus ≠ 0
  unasked : s.runtime.shutdownRequested = false
  quiet : Quiet s

structure Serving (s : System) : Prop where
  held : Held s.runtime
  thread : s.bootstrap = .asleep false
  caller : s.caller = .initTesting ∨ s.caller = .initAsleep true ∨ s.caller = .idle ∨
    s.caller = .dispatching ∨ s.caller = .attached
  done : s.runtime.bootstrapDone = true
  status : s.runtime.bootstrapStatus = 0
  unasked : s.runtime.shutdownRequested = false
  clean : s.runtime.shutdownStatus = 0
  vm : s.runtime.vm = true
  alive : s.vmAlive = true
  java : s.javaRunning = true

/-- The bootstrap thread on its way out; status is what shutdown_status holds. -/
def Late (alive : Bool) (status : Int) : Bootstrap → Prop
  | .asleep _ | .closing | .stopping => alive = true ∧ status = 0
  | .destroying => alive = true
  | .ended => alive = false
  | _ => False

structure Leaving (s : System) : Prop where
  held : Held s.runtime
  late : Late s.vmAlive s.runtime.shutdownStatus s.bootstrap
  caller : s.caller = .idle ∨ s.caller = .shutdownJoining
  woken : s.caller = .shutdownJoining → s.bootstrap ≠ .asleep false
  asked : s.runtime.shutdownRequested = true
  closed : s.runtime.completionQueue.closed = true
  gone : s.bootstrap = .ended → Quiet s

/-- The thread is joined; shutdown has only to say so. -/
structure Finished (s : System) : Prop where
  sync : s.runtime.syncInitialized = true
  thread : s.bootstrap = .absent
  started : s.runtime.bootstrapThreadStarted = true
  sound : Sound s.runtime.completionQueue
  caller : (s.caller = .shutdownFinishing ∧ s.runtime.shutdownComplete = false) ∨
    (s.caller = .idle ∧ s.runtime.shutdownComplete = true)
  asked : s.runtime.shutdownRequested = true
  closed : s.runtime.completionQueue.closed = true
  alive : s.vmAlive = false
  quiet : Quiet s

inductive Reachable (s : System) : Prop where
  | off (off : Off s)
  | booting (booting : Booting s)
  | failing (failing : Failing s)
  | serving (serving : Serving s)
  | leaving (leaving : Leaving s)
  | finished (finished : Finished s)

theorem start_off : Off start := ⟨rfl, rfl, rfl, rfl, rfl, rfl, rfl, rfl, rfl, rfl⟩

structure Goes (s t : System) (answer : Answer) : Prop where
  reachable : Reachable t
  follows : (vmOf s).after answer.event = some (vmOf t)

theorem pop_keeps {queue : CompletionQueue} (sound : Sound queue) :
    Sound (ckCompletionQueuePop queue).2.2 ∧ (ckCompletionQueuePop queue).2.2.closed = queue.closed := by
  rcases pop_takes sound with ⟨empty, -⟩ | ⟨record, next, takes, -, after, same⟩
  · rw [empty]
    exact ⟨sound, rfl⟩
  · rw [takes]
    exact ⟨after, same⟩

theorem pushWait_keeps {queue : CompletionQueue} (sound : Sound queue) (record : CompletionRecord)
    (fault : Option Errno) :
    Sound (ckCompletionQueuePushWait queue record fault).2 ∧
      (ckCompletionQueuePushWait queue record fault).2.closed = queue.closed := by
  rcases pushWait_publishes sound record fault with ⟨waits, -⟩ | ⟨result, next, answers, published, -⟩
  · rw [waits]
    exact ⟨sound, rfl⟩
  · rw [answers]
    exact ⟨published.sound, published.closed⟩

theorem Held.requeue {runtime : Runtime} (held : Held runtime) {queue : CompletionQueue}
    (sound : Sound queue) : Held { runtime with completionQueue := queue } :=
  ⟨held.sync, held.thread, held.queue, sound, held.incomplete⟩

theorem Serving.requeue {s : System} (serving : Serving s) {queue : CompletionQueue} (sound : Sound queue) :
    Serving (requeue s queue) :=
  { serving with held := serving.held.requeue sound }

theorem Leaving.requeue {s : System} (leaving : Leaving s) {queue : CompletionQueue} (sound : Sound queue)
    (closed : queue.closed = true) : Leaving (requeue s queue) :=
  { leaving with
    held := leaving.held.requeue sound
    closed := closed
    gone := fun ended => ⟨(leaving.gone ended).java, (leaving.gone ended).executor⟩ }

theorem destroyed_uninitialized (queue : CompletionQueue) (fault : Option Errno) :
    (ckCompletionQueueDestroy queue fault).initialized = false := by
  unfold ckCompletionQueueDestroy
  split
  · rename_i missing
    simpa using missing
  · rfl

theorem Off.stays {s t : System} {answer : Answer} (off : Off s) (after : Off t)
    (untold : answer.event = none) : Goes s t answer :=
  ⟨.off after, by simp [Vm.after, untold, vmOf, off.thread, after.thread]⟩

theorem init_cases {s t : System} {answer : Answer} {classPath : List UInt8}
    {queue mutex condition thread : Int} {fault : Option Errno} (off : Off s)
    (next : ckRuntimeInit s classPath queue mutex condition thread fault = (t, answer)) :
    (Off t ∧ ∃ result, result ≠ 0 ∧ answer = returns result) ∨
      (Booting t ∧ t.bootstrap = .formatting ∧ answer = silent) := by
  -- every early return leaves a cleared runtime without lock and queue
  have cleared : ∀ {given : CompletionQueue}, given.initialized = false →
      Off { s with runtime := { zeroRuntime with classPath := classPath, completionQueue := given } } := by
    intro given missing
    exact ⟨off.thread, off.caller, rfl, rfl, off.alive, missing, rfl, rfl, off.quiet.java, off.quiet.executor⟩
  have released := cleared (destroyed_uninitialized ckCompletionQueueInit fault)
  unfold ckRuntimeInit at next
  dsimp only at next
  split at next
  · obtain ⟨rfl, rfl⟩ := Prod.mk.inj next
    exact .inl ⟨off, -1, by decide, rfl⟩
  · split at next
    · rename_i failed
      obtain ⟨rfl, rfl⟩ := Prod.mk.inj next
      exact .inl ⟨cleared rfl, queue, failed, rfl⟩
    · split at next
      · rename_i failed
        obtain ⟨rfl, rfl⟩ := Prod.mk.inj next
        exact .inl ⟨released, mutex, failed, rfl⟩
      · split at next
        · rename_i failed
          obtain ⟨rfl, rfl⟩ := Prod.mk.inj next
          exact .inl ⟨released, condition, failed, rfl⟩
        · split at next
          · rename_i failed
            obtain ⟨rfl, rfl⟩ := Prod.mk.inj next
            exact .inl ⟨released, thread, failed, rfl⟩
          · obtain ⟨rfl, rfl⟩ := Prod.mk.inj next
            exact .inr ⟨⟨⟨rfl, rfl, rfl, init_sound, rfl⟩, ⟨rfl, off.alive, off.quiet.java⟩, .inl rfl, rfl,
              rfl, rfl, off.quiet.executor⟩, rfl, rfl⟩

theorem init_goes {s t : System} {answer : Answer} {classPath : List UInt8}
    {queue mutex condition thread : Int} {fault : Option Errno} (off : Off s)
    (next : ckRuntimeInit s classPath queue mutex condition thread fault = (t, answer)) : Goes s t answer := by
  rcases init_cases off next with ⟨after, result, -, rfl⟩ | ⟨booting, point, rfl⟩
  · exact off.stays after rfl
  · exact ⟨.booting booting, by simp [Vm.after, vmOf, off.thread, point, silent]⟩

inductive Does (s : System) : Move → System → Answer → Prop where
  | init {classPath : List UInt8} {queue mutex condition thread : Int} {fault : Option Errno} {t : System}
      {answer : Answer} (caller : s.caller = .idle) (sync : s.runtime.syncInitialized = false)
      (next : ckRuntimeInit s classPath queue mutex condition thread fault = (t, answer)) :
      Does s (.init classPath queue mutex condition thread fault) t answer
  | initTest {t : System} {answer : Answer} (caller : s.caller = .initTesting)
      (next : initSection s = (t, answer)) : Does s .initTest t answer
  | initWake {woken : Bool} {t : System} {answer : Answer} (caller : s.caller = .initAsleep woken)
      (next : initSection s = (t, answer)) : Does s .initWake t answer
  | initJoin (caller : s.caller = .initJoining) (point : s.bootstrap = .ended) :
      Does s .initJoin { s with runtime := zeroRuntime, bootstrap := .absent, caller := .idle } (returns (-1))
  | shutdown {fault : Option Errno} {t : System} {answer : Answer} (caller : s.caller = .idle)
      (next : ckRuntimeShutdown s fault = (t, answer)) : Does s (.shutdown fault) t answer
  | shutdownJoin (caller : s.caller = .shutdownJoining) (point : s.bootstrap = .ended) :
      Does s .shutdownJoin { s with bootstrap := .absent, caller := .shutdownFinishing } silent
  | shutdownFinish (caller : s.caller = .shutdownFinishing) :
      Does s .shutdownFinish { s with runtime := { s.runtime with shutdownComplete := true }, caller := .idle }
        (returns s.runtime.shutdownStatus)
  | destroy (caller : s.caller = .idle) : Does s .destroy (ckRuntimeDestroy s) silent
  | dispatch {requestCount : Nat} {thread : Int} {t : System} {answer : Answer} (caller : s.caller = .idle)
      (next : ckRuntimeDispatch s requestCount thread = (t, answer)) : Does s (.dispatch requestCount thread) t answer
  | attachFails {result : Int} (caller : s.caller = .dispatching) (failed : result ≠ jniOk) :
      Does s (.attach result) { s with caller := .idle } (returns 0)
  | attach (caller : s.caller = .dispatching) :
      Does s (.attach jniOk) { s with caller := .attached } (tells .attached)
  | detach (caller : s.caller = .attached) : Does s .detach { s with caller := .idle } ⟨some 0, some .detached⟩
  | poll {t : System} {answer : Answer} (caller : s.caller = .idle) (next : runtimePop s = (t, answer)) :
      Does s .poll t answer
  | format (point : s.bootstrap = .formatting) : Does s .format (bootstrapFormat s) silent
  | createFails {result : Int} (point : s.bootstrap = .creating) (failed : result ≠ jniOk) :
      Does s (.create result) { s with bootstrap := .refused result } silent
  | create (point : s.bootstrap = .creating) :
      Does s (.create jniOk) { s with bootstrap := .storing, vmAlive := true } (tells .created)
  | refuse {status : Int} (point : s.bootstrap = .refused status) :
      Does s .refuse { broadcast { s with
        runtime := { s.runtime with bootstrapStatus := status, bootstrapDone := true } } with
          bootstrap := .ended } silent
  | store (point : s.bootstrap = .storing) :
      Does s .store { s with runtime := { s.runtime with vm := true }, bootstrap := .starting } silent
  | start {answers : JniAnswers} (point : s.bootstrap = .starting) :
      Does s (.start answers) { s with
        bootstrap := .reporting (ckCallStart answers), javaRunning := decide (ckCallStart answers = 0) }
        (tells (if ckCallStart answers = 0 then .started else .startFailed))
  | report {startStatus : Int} (point : s.bootstrap = .reporting startStatus) :
      Does s .report (bootstrapReport s startStatus) silent
  | wake {woken : Bool} (point : s.bootstrap = .asleep woken) :
      Does s .wake { s with bootstrap := if s.runtime.shutdownRequested then .closing else .asleep false } silent
  | close {fault : Option Errno} (point : s.bootstrap = .closing) :
      Does s (.close fault) (bootstrapClose s fault) (tells .closed)
  | stop {answers : JniAnswers} (point : s.bootstrap = .stopping) :
      Does s (.stop answers) (bootstrapStop s answers) (tells (.stopped (ckCallStop answers)))
  | abandon {startStatus : Int} (point : s.bootstrap = .abandoning startStatus) :
      Does s .abandon { setShutdownStatus s startStatus with bootstrap := .destroying } silent
  | destroyVm {result : Int} (point : s.bootstrap = .destroying) (left : s.executorThread = false) :
      Does s (.destroyVm result) (bootstrapDestroy s result) (tells (.destroyed result))
  | execute (caller : s.caller = .attached) (java : s.javaRunning = true) :
      Does s .execute { s with executorThread := true } silent
  | publish {record : CompletionRecord} {fault : Option Errno}
      (alive : s.executorThread = true ∨ s.caller = .attached) :
      Does s (.publish record fault) (requeue s (ckCompletionQueuePushWait s.runtime.completionQueue record fault).2)
        ⟨(ckCompletionQueuePushWait s.runtime.completionQueue record fault).1, none⟩
  | exit (alive : s.executorThread = true) : Does s .exit { s with executorThread := false } silent

theorem step_does {s t : System} {move : Move} {answer : Answer} (next : step s move = some (t, answer)) :
    Does s move t answer := by
  cases move with
  | init classPath queue mutex condition thread fault =>
    simp only [step, Option.ite_none_right_eq_some, Option.some.injEq] at next
    exact .init next.1.1 (by simpa using next.1.2) next.2
  | initTest =>
    simp only [step, Option.ite_none_right_eq_some, Option.some.injEq] at next
    exact .initTest next.1 next.2
  | initWake =>
    simp only [step] at next
    split at next
    · rename_i woken caller
      exact .initWake caller (Option.some.inj next)
    · cases next
  | initJoin =>
    simp only [step, Option.ite_none_right_eq_some, Option.some.injEq, Prod.mk.injEq] at next
    obtain ⟨⟨caller, point⟩, rfl, rfl⟩ := next
    exact .initJoin caller point
  | shutdown fault =>
    simp only [step, Option.ite_none_right_eq_some, Option.some.injEq] at next
    exact .shutdown next.1 next.2
  | shutdownJoin =>
    simp only [step, Option.ite_none_right_eq_some, Option.some.injEq, Prod.mk.injEq] at next
    obtain ⟨⟨caller, point⟩, rfl, rfl⟩ := next
    exact .shutdownJoin caller point
  | shutdownFinish =>
    simp only [step, Option.ite_none_right_eq_some, Option.some.injEq, Prod.mk.injEq] at next
    obtain ⟨caller, rfl, rfl⟩ := next
    exact .shutdownFinish caller
  | destroy =>
    simp only [step, Option.ite_none_right_eq_some, Option.some.injEq, Prod.mk.injEq] at next
    obtain ⟨caller, rfl, rfl⟩ := next
    exact .destroy caller
  | dispatch requestCount thread =>
    simp only [step, Option.ite_none_right_eq_some, Option.some.injEq] at next
    exact .dispatch next.1 next.2
  | attach result =>
    simp only [step, Option.ite_none_right_eq_some] at next
    obtain ⟨caller, next⟩ := next
    split at next
    · rename_i failed
      obtain ⟨rfl, rfl⟩ := Prod.mk.inj (Option.some.inj next)
      exact .attachFails caller failed
    · rename_i fine
      obtain ⟨rfl, rfl⟩ := Prod.mk.inj (Option.some.inj next)
      exact not_not.mp fine ▸ .attach caller
  | detach =>
    simp only [step, Option.ite_none_right_eq_some, Option.some.injEq, Prod.mk.injEq] at next
    obtain ⟨caller, rfl, rfl⟩ := next
    exact .detach caller
  | poll =>
    simp only [step, Option.ite_none_right_eq_some, Option.some.injEq] at next
    exact .poll next.1 next.2
  | format =>
    simp only [step, Option.ite_none_right_eq_some, Option.some.injEq, Prod.mk.injEq] at next
    obtain ⟨point, rfl, rfl⟩ := next
    exact .format point
  | create result =>
    simp only [step, Option.ite_none_right_eq_some] at next
    obtain ⟨point, next⟩ := next
    split at next
    · rename_i failed
      obtain ⟨rfl, rfl⟩ := Prod.mk.inj (Option.some.inj next)
      exact .createFails point failed
    · rename_i fine
      obtain ⟨rfl, rfl⟩ := Prod.mk.inj (Option.some.inj next)
      exact not_not.mp fine ▸ .create point
  | refuse =>
    simp only [step] at next
    split at next
    · rename_i status point
      obtain ⟨rfl, rfl⟩ := Prod.mk.inj (Option.some.inj next)
      exact .refuse point
    · cases next
  | store =>
    simp only [step, Option.ite_none_right_eq_some, Option.some.injEq, Prod.mk.injEq] at next
    obtain ⟨point, rfl, rfl⟩ := next
    exact .store point
  | start answers =>
    simp only [step, Option.ite_none_right_eq_some, Option.some.injEq, Prod.mk.injEq] at next
    obtain ⟨point, rfl, rfl⟩ := next
    exact .start point
  | report =>
    simp only [step] at next
    split at next
    · rename_i status point
      obtain ⟨rfl, rfl⟩ := Prod.mk.inj (Option.some.inj next)
      exact .report point
    · cases next
  | wake =>
    simp only [step] at next
    split at next
    · rename_i woken point
      obtain ⟨rfl, rfl⟩ := Prod.mk.inj (Option.some.inj next)
      exact .wake point
    · cases next
  | close fault =>
    simp only [step, Option.ite_none_right_eq_some, Option.some.injEq, Prod.mk.injEq] at next
    obtain ⟨point, rfl, rfl⟩ := next
    exact .close point
  | stop answers =>
    simp only [step, Option.ite_none_right_eq_some, Option.some.injEq, Prod.mk.injEq] at next
    obtain ⟨point, rfl, rfl⟩ := next
    exact .stop point
  | abandon =>
    simp only [step] at next
    split at next
    · rename_i status point
      obtain ⟨rfl, rfl⟩ := Prod.mk.inj (Option.some.inj next)
      exact .abandon point
    · cases next
  | destroyVm result =>
    simp only [step, Option.ite_none_right_eq_some, Option.some.injEq, Prod.mk.injEq] at next
    obtain ⟨⟨point, left⟩, rfl, rfl⟩ := next
    exact .destroyVm point (by simpa using left)
  | execute =>
    simp only [step, Option.ite_none_right_eq_some, Option.some.injEq, Prod.mk.injEq] at next
    obtain ⟨⟨caller, java⟩, rfl, rfl⟩ := next
    exact .execute caller java
  | publish record fault =>
    simp only [step, Option.ite_none_right_eq_some, Option.some.injEq, Prod.mk.injEq] at next
    obtain ⟨alive, rfl, rfl⟩ := next
    exact .publish alive
  | exit =>
    simp only [step, Option.ite_none_right_eq_some, Option.some.injEq, Prod.mk.injEq] at next
    obtain ⟨alive, rfl, rfl⟩ := next
    exact .exit alive

theorem Off.goes {s t : System} {move : Move} {answer : Answer} (off : Off s) (does : Does s move t answer) : Goes s t answer := by
  have thread := off.thread
  have idle := off.caller
  have left := off.quiet.executor
  cases does with
  | init caller sync next => exact init_goes off next
  | shutdown caller next =>
    simp only [ckRuntimeShutdown, off.sync] at next
    obtain ⟨rfl, rfl⟩ := Prod.mk.inj next
    exact off.stays off rfl
  | destroy caller =>
    simp only [ckRuntimeDestroy, off.sync]
    exact off.stays off rfl
  | @dispatch requestCount created _ _ caller next =>
    have refused : ckRuntimeDispatch s requestCount created = (s, returns (-1)) := by
      simp [ckRuntimeDispatch, off.vm]
    obtain ⟨rfl, rfl⟩ := Prod.mk.inj (refused.symm.trans next)
    exact off.stays off rfl
  | poll caller next =>
    simp only [runtimePop, off.flag] at next
    obtain ⟨rfl, rfl⟩ := Prod.mk.inj next
    exact off.stays off rfl
  | _ => simp_all

theorem Booting.initSection {s t : System} {answer : Answer} (booting : Booting s)
    (next : initSection s = (t, answer)) : Goes s t answer := by
  simp only [CkartaRuntimeLifecycle.initSection, booting.undone] at next
  obtain ⟨rfl, rfl⟩ := Prod.mk.inj next
  refine ⟨.booting { booting with caller := .inr rfl }, ?_⟩
  have early := booting.early
  simp only [vmOf, Vm.after, silent]
  cases point : s.bootstrap with
  | asleep woken =>
    rw [point] at early
    cases early
  | _ => rfl

theorem Booting.notIdle {s : System} (booting : Booting s) :
    s.caller ≠ .idle ∧ s.caller ≠ .initJoining ∧ s.caller ≠ .shutdownJoining ∧
      s.caller ≠ .shutdownFinishing ∧ s.caller ≠ .dispatching ∧ s.caller ≠ .attached := by
  rcases booting.caller with caller | caller <;> simp [caller]

theorem Booting.woken {s : System} (booting : Booting s) (runtime : Runtime) :
    (broadcast { s with runtime := runtime }).caller = .initTesting ∨
      (broadcast { s with runtime := runtime }).caller = .initAsleep true := by
  rcases booting.caller with caller | caller
  · exact .inl (by simp [broadcast, caller])
  · exact .inr (by simp [broadcast, caller])

theorem Booting.report {s : System} (booting : Booting s) {startStatus : Int}
    (point : s.bootstrap = .reporting startStatus) : Goes s (bootstrapReport s startStatus) silent := by
  have early := booting.early
  simp only [point, Early] at early
  obtain ⟨vm, alive, java⟩ := early
  have held : Held { s.runtime with bootstrapStatus := startStatus, bootstrapDone := true } :=
    ⟨booting.held.sync, booting.held.thread, booting.held.queue, booting.held.sound, booting.held.incomplete⟩
  have woken := booting.woken { s.runtime with bootstrapStatus := startStatus, bootstrapDone := true }
  unfold bootstrapReport
  dsimp only
  by_cases failed : startStatus = 0
  · subst failed
    rw [if_neg (by simp), if_neg (by simp [booting.unasked])]
    refine ⟨.serving ⟨held, rfl, ?_, rfl, rfl, booting.unasked, booting.status, vm, alive,
      java.trans (decide_eq_true rfl)⟩, ?_⟩
    · exact woken.imp_right .inl
    · have away : (broadcast { s with runtime := { s.runtime with
          bootstrapStatus := 0, bootstrapDone := true } }).caller ≠ .attached := by
        rcases woken with caller | caller <;> simp [caller]
      simp [Vm.after, silent, vmOf, point, broadcast, booting.unasked]
      simpa [broadcast] using away
  · rw [if_pos failed]
    refine ⟨.failing ⟨held, .inr ⟨.inl ⟨_, rfl⟩, alive⟩, ?_, rfl, failed, booting.unasked, ?_, booting.executor⟩, ?_⟩
    · rcases woken with caller | caller
      · exact .inl caller
      · exact .inr (.inl caller)
    · exact java.trans (decide_eq_false failed)
    · simp [Vm.after, silent, vmOf, point, failed]

theorem Booting.goes {s t : System} {move : Move} {answer : Answer} (booting : Booting s) (does : Does s move t answer) :
    Goes s t answer := by
  obtain ⟨idle, initJoining, shutdownJoining, finishing, dispatching, attached⟩ := booting.notIdle
  have early := booting.early
  have left := booting.executor
  have held := booting.held
  cases does with
  | initTest caller next | initWake caller next => exact booting.initSection next
  | format point =>
    rw [point] at early
    unfold bootstrapFormat
    split
    · exact ⟨.booting { booting with early := ⟨by decide, early⟩ }, by simp [Vm.after, vmOf, silent, point]⟩
    · exact ⟨.booting { booting with early := early }, by simp [Vm.after, vmOf, silent, point]⟩
  | createFails point failed =>
    rw [point] at early
    exact ⟨.booting { booting with early := ⟨failed, early⟩ }, by simp [Vm.after, vmOf, silent, point]⟩
  | create point =>
    rw [point] at early
    exact ⟨.booting { booting with early := ⟨early.1, rfl, early.2.2⟩ },
      by simp [Vm.after, Vm.next, vmOf, tells, point]⟩
  | refuse point =>
    rw [point] at early
    obtain ⟨failed, vm, alive, java⟩ := early
    refine ⟨.failing ⟨⟨held.sync, held.thread, held.queue, held.sound, held.incomplete⟩, .inl ⟨rfl, alive⟩, ?_, rfl,
      failed, booting.unasked, java, left⟩, by simp [Vm.after, vmOf, silent, point]⟩
    rcases booting.woken _ with caller | caller
    · exact .inl caller
    · exact .inr (.inl caller)
  | store point =>
    rw [point] at early
    exact ⟨.booting { booting with
      held := ⟨held.sync, held.thread, held.queue, held.sound, held.incomplete⟩
      early := ⟨rfl, early.2⟩ }, by simp [Vm.after, vmOf, silent, point]⟩
  | @start answers point =>
    rw [point] at early
    refine ⟨.booting { booting with early := ⟨early.1, early.2.1, rfl⟩ }, ?_⟩
    by_cases zero : ckCallStart answers = 0 <;> simp [Vm.after, Vm.next, vmOf, tells, point, zero]
  | report point => exact booting.report point
  | wake point | close point | stop point | abandon point | destroyVm point left =>
    rw [point] at early
    cases early
  | _ => simp_all

theorem vmOf_caller {s : System} (awake : ∀ woken, s.bootstrap ≠ .asleep woken) (caller : Caller) :
    vmOf { s with caller := caller } = vmOf s := by
  unfold vmOf
  dsimp only
  cases point : s.bootstrap with
  | asleep woken => exact absurd point (awake woken)
  | _ => rfl

theorem Failing.goes {s t : System} {move : Move} {answer : Answer} (failing : Failing s) (does : Does s move t answer) :
    Goes s t answer := by
  have left := failing.quiet.executor
  have held := failing.held
  have notIdle : s.caller ≠ .idle ∧ s.caller ≠ .shutdownJoining ∧ s.caller ≠ .shutdownFinishing ∧
      s.caller ≠ .dispatching ∧ s.caller ≠ .attached := by
    rcases failing.caller with caller | caller | caller <;> simp [caller]
  obtain ⟨idle, shutdownJoining, finishing, dispatching, attached⟩ := notIdle
  have awake : ∀ woken, s.bootstrap ≠ .asleep woken := by
    intro woken
    rcases failing.thread with ⟨point, -⟩ | ⟨⟨status, point⟩ | point, -⟩ <;> simp [point]
  cases does with
  | initTest caller next | initWake caller next =>
    simp only [initSection, failing.done, Bool.not_true, Bool.false_eq_true, if_false,
      if_pos failing.failed] at next
    obtain ⟨rfl, rfl⟩ := Prod.mk.inj next
    exact ⟨.failing { failing with
      caller := .inr (.inr rfl), quiet := ⟨failing.quiet.java, left⟩ }, by simp [Vm.after, silent, vmOf_caller awake]⟩
  | initJoin caller point =>
    have alive : s.vmAlive = false := by
      rcases failing.thread with ⟨-, alive⟩ | ⟨⟨status, other⟩ | other, -⟩
      · exact alive
      · rw [point] at other
        cases other
      · rw [point] at other
        cases other
    exact ⟨.off ⟨rfl, rfl, rfl, rfl, alive, rfl, rfl, rfl, failing.quiet.java, left⟩,
      by simp [Vm.after, returns, vmOf, point]⟩
  | abandon point =>
    have alive : s.vmAlive = true := by
      rcases failing.thread with ⟨other, -⟩ | ⟨-, alive⟩
      · rw [point] at other
        cases other
      · exact alive
    exact ⟨.failing ⟨⟨held.sync, held.thread, held.queue, held.sound, held.incomplete⟩, .inr ⟨.inr rfl, alive⟩,
      failing.caller, failing.done, failing.failed, failing.unasked, failing.quiet.java, left⟩,
      by simp [Vm.after, silent, vmOf, point]⟩
  | destroyVm point left =>
    unfold bootstrapDestroy
    dsimp only
    split <;>
    exact ⟨.failing ⟨⟨held.sync, held.thread, held.queue, held.sound, held.incomplete⟩, .inl ⟨rfl, rfl⟩,
      failing.caller, failing.done, failing.failed, failing.unasked, rfl, left⟩,
      by simp [Vm.after, Vm.next, tells, vmOf, point, setShutdownStatus]⟩
  | wake point => exact absurd point (awake _)
  | format point | createFails point failed | create point | refuse point | store point | start point
  | report point | close point | stop point =>
    rcases failing.thread with ⟨other, -⟩ | ⟨⟨status, other⟩ | other, -⟩ <;> simp [point] at other
  | _ => simp_all

theorem Serving.vm_eq {s : System} (serving : Serving s) :
    vmOf s = if s.caller = .attached then .inUse else .serving := by
  simp [vmOf, serving.thread, serving.unasked]

theorem Serving.moves {s : System} (serving : Serving s) {caller : Caller} {answer : Answer}
    (place : caller = .idle ∨ caller = .dispatching ∨ caller = .attached)
    (follows : (vmOf s).after answer.event = some (if caller = .attached then .inUse else .serving)) :
    Goes s { s with caller := caller } answer := by
  have after : Serving { s with caller := caller } := { serving with caller := .inr (.inr place) }
  exact ⟨.serving after, by rw [follows, after.vm_eq]⟩

theorem shutdown_cases {s t : System} {answer : Answer} {fault : Option Errno} (held : Held s.runtime)
    (next : ckRuntimeShutdown s fault = (t, answer)) :
    answer.event = (if s.runtime.shutdownRequested then none else some .requested) ∧
      ∃ queue, Sound queue ∧ queue.closed = true ∧
        (t = requestShutdown s queue ∨
          t = { broadcast (requestShutdown s queue) with caller := .shutdownJoining }) := by
  obtain ⟨-, closed, sound⟩ := close_closes held.sound fault
  simp only [ckRuntimeShutdown, held.sync, held.thread, held.incomplete, Bool.not_true,
    Bool.or_self, Bool.false_eq_true, if_false] at next
  split at next
  · obtain ⟨rfl, rfl⟩ := Prod.mk.inj next
    exact ⟨rfl, _, sound, closed, .inl rfl⟩
  · obtain ⟨rfl, rfl⟩ := Prod.mk.inj next
    exact ⟨rfl, _, sound, closed, .inr rfl⟩

theorem Held.asked {runtime : Runtime} (held : Held runtime) {queue : CompletionQueue}
    (sound : Sound queue) :
    Held { runtime with shutdownRequested := true, completionQueue := queue } :=
  ⟨held.sync, held.thread, held.queue, sound, held.incomplete⟩

theorem Serving.shutdown {s t : System} {answer : Answer} {fault : Option Errno} (serving : Serving s)
    (caller : s.caller = .idle) (next : ckRuntimeShutdown s fault = (t, answer)) : Goes s t answer := by
  have thread := serving.thread
  obtain ⟨event, queue, sound, closed, rfl | rfl⟩ := shutdown_cases serving.held next
  · refine ⟨.leaving ⟨serving.held.asked sound, ?_, .inl caller, ?_, rfl, closed, ?_⟩, ?_⟩
    · simp [requestShutdown, Late, thread, serving.alive, serving.clean]
    · simp [requestShutdown, caller]
    · simp [requestShutdown, thread]
    · simp [event, serving.unasked, requestShutdown, caller, Vm.after, Vm.next, vmOf, thread]
  · refine ⟨.leaving ⟨serving.held.asked sound, ?_, .inr rfl, ?_, rfl, closed, ?_⟩, ?_⟩
    · simp [requestShutdown, Late, broadcast, thread, serving.alive, serving.clean]
    · simp [requestShutdown, broadcast, thread]
    · simp [requestShutdown, broadcast, thread]
    · simp [event, serving.unasked, requestShutdown, caller, Vm.after, Vm.next, vmOf, broadcast, thread]

theorem Serving.goes {s t : System} {move : Move} {answer : Answer} (serving : Serving s) (does : Does s move t answer) :
    Goes s t answer := by
  have held := serving.held
  have thread := serving.thread
  have vm := serving.vm_eq
  have notFinishing : s.caller ≠ .initJoining ∧ s.caller ≠ .shutdownJoining ∧ s.caller ≠ .shutdownFinishing := by
    rcases serving.caller with caller | caller | caller | caller | caller <;> simp [caller]
  obtain ⟨initJoining, shutdownJoining, finishing⟩ := notFinishing
  cases does with
  | initTest caller next | initWake caller next =>
    simp only [initSection, serving.done, serving.status] at next
    obtain ⟨rfl, rfl⟩ := Prod.mk.inj next
    exact serving.moves (.inl rfl) (by simp [Vm.after, returns, vm, caller])
  | shutdown caller next => exact serving.shutdown caller next
  | destroy caller =>
    have same : ckRuntimeDestroy s = s := by simp [ckRuntimeDestroy, held.incomplete]
    rw [same]
    exact ⟨.serving serving, rfl⟩
  | dispatch caller next =>
    unfold ckRuntimeDispatch at next
    split at next
    · obtain ⟨rfl, rfl⟩ := Prod.mk.inj next
      exact ⟨.serving serving, rfl⟩
    · split at next
      · obtain ⟨rfl, rfl⟩ := Prod.mk.inj next
        exact ⟨.serving serving, rfl⟩
      · split at next
        · obtain ⟨rfl, rfl⟩ := Prod.mk.inj next
          exact ⟨.serving serving, rfl⟩
        · obtain ⟨rfl, rfl⟩ := Prod.mk.inj next
          exact serving.moves (.inr (.inl rfl)) (by simp [Vm.after, silent, vm, caller])
  | attachFails caller failed => exact serving.moves (.inl rfl) (by simp [Vm.after, returns, vm, caller])
  | attach caller => exact serving.moves (.inr (.inr rfl)) (by simp [Vm.after, Vm.next, tells, vm, caller])
  | detach caller => exact serving.moves (.inl rfl) (by simp [Vm.after, Vm.next, vm, caller])
  | poll caller next =>
    simp only [runtimePop, held.queue, Bool.not_true, Bool.false_eq_true, if_false] at next
    obtain ⟨rfl, rfl⟩ := Prod.mk.inj next
    exact ⟨.serving (serving.requeue (pop_keeps held.sound).1), rfl⟩
  | wake point =>
    have after : Serving { s with
        bootstrap := if s.runtime.shutdownRequested then .closing else .asleep false } :=
      { serving with thread := by simp [serving.unasked] }
    exact ⟨.serving after, by rw [after.vm_eq, vm]; rfl⟩
  | execute caller java => exact ⟨.serving { serving with }, rfl⟩
  | publish alive => exact ⟨.serving (serving.requeue (pushWait_keeps held.sound _ _).1), rfl⟩
  | exit alive => exact ⟨.serving { serving with }, rfl⟩
  | init caller sync next =>
    rw [held.sync] at sync
    cases sync
  | _ => simp_all

theorem Leaving.vm_eq {s t : System} (leaving : Leaving s) (asked : t.runtime.shutdownRequested = true)
    (thread : t.bootstrap = s.bootstrap ∨ ∃ woken other, s.bootstrap = .asleep woken ∧ t.bootstrap = .asleep other) :
    vmOf t = vmOf s := by
  rcases thread with same | ⟨woken, other, before, after⟩
  · simp [vmOf, same, asked, leaving.asked]
  · simp [vmOf, before, after, asked, leaving.asked]

theorem broadcast_point (s : System) :
    ((broadcast s).bootstrap = s.bootstrap ∧ ∀ woken, s.bootstrap ≠ .asleep woken) ∨
      ∃ woken, s.bootstrap = .asleep woken ∧ (broadcast s).bootstrap = .asleep true := by
  unfold broadcast
  dsimp only
  cases point : s.bootstrap with
  | asleep woken => exact .inr ⟨woken, rfl, rfl⟩
  | _ => exact .inl ⟨rfl, by simp⟩

theorem Leaving.shutdown {s t : System} {answer : Answer} {fault : Option Errno} (leaving : Leaving s)
    (next : ckRuntimeShutdown s fault = (t, answer)) : Goes s t answer := by
  obtain ⟨event, queue, sound, closed, rfl | rfl⟩ := shutdown_cases leaving.held next
  · have after : Leaving (requestShutdown s queue) :=
      { leaving with
        held := leaving.held.asked sound
        asked := rfl
        closed := closed
        gone := fun ended => ⟨(leaving.gone ended).java, (leaving.gone ended).executor⟩ }
    have same : vmOf (requestShutdown s queue) = vmOf s := leaving.vm_eq rfl (.inl rfl)
    refine ⟨.leaving after, ?_⟩
    rw [same, event, leaving.asked]
    rfl
  · have late := leaving.late
    rcases broadcast_point (requestShutdown s queue) with ⟨point, awake⟩ | ⟨woken, before, point⟩
    · have after : Leaving { broadcast (requestShutdown s queue) with caller := .shutdownJoining } :=
        ⟨leaving.held.asked sound, by rw [point]; exact late, .inr rfl, fun _ => by rw [point]; exact awake false, rfl,
          closed, fun ended => ⟨(leaving.gone (point.symm.trans ended)).java,
            (leaving.gone (point.symm.trans ended)).executor⟩⟩
      have same : vmOf { broadcast (requestShutdown s queue) with caller := .shutdownJoining } = vmOf s :=
        leaving.vm_eq rfl (.inl point)
      refine ⟨.leaving after, ?_⟩
      rw [same, event, leaving.asked]
      rfl
    · have was : s.bootstrap = .asleep woken := before
      have after : Leaving { broadcast (requestShutdown s queue) with caller := .shutdownJoining } := by
        rw [was] at late
        exact ⟨leaving.held.asked sound, by rw [point]; exact late, .inr rfl, fun _ => by rw [point]; simp, rfl,
          closed, fun ended => by rw [point] at ended; cases ended⟩
      have same : vmOf { broadcast (requestShutdown s queue) with caller := .shutdownJoining } = vmOf s :=
        leaving.vm_eq rfl (.inr ⟨woken, true, was, point⟩)
      refine ⟨.leaving after, ?_⟩
      rw [same, event, leaving.asked]
      rfl

theorem Leaving.close_eq {s : System} (leaving : Leaving s) {fault : Option Errno} :
    bootstrapClose s fault = { s with bootstrap := .stopping } := by
  have again : ckCompletionQueueClose s.runtime.completionQueue fault = (1, s.runtime.completionQueue) := by
    simp [ckCompletionQueueClose, leaving.held.sound.ready, leaving.closed]
  simp [bootstrapClose, again, CkartaRuntimeLifecycle.requeue]

theorem Leaving.goes {s t : System} {move : Move} {answer : Answer} (leaving : Leaving s) (does : Does s move t answer) :
    Goes s t answer := by
  have held := leaving.held
  have late := leaving.late
  have notIn : s.caller ≠ .initTesting ∧ (∀ woken, s.caller ≠ .initAsleep woken) ∧ s.caller ≠ .initJoining ∧
      s.caller ≠ .shutdownFinishing ∧ s.caller ≠ .dispatching ∧ s.caller ≠ .attached := by
    rcases leaving.caller with caller | caller <;> simp [caller]
  obtain ⟨initTesting, initAsleep, initJoining, finishing, dispatching, attached⟩ := notIn
  cases does with
  | shutdown caller next => exact leaving.shutdown next
  | shutdownJoin caller point =>
    rw [point] at late
    exact ⟨.finished ⟨held.sync, rfl, held.thread, held.sound, .inl ⟨rfl, held.incomplete⟩, leaving.asked,
      leaving.closed, late, (leaving.gone point).java, (leaving.gone point).executor⟩,
      by simp [Vm.after, silent, vmOf, point]⟩
  | destroy caller =>
    have same : ckRuntimeDestroy s = s := by simp [ckRuntimeDestroy, held.incomplete]
    rw [same]
    exact ⟨.leaving leaving, rfl⟩
  | @dispatch requestCount thread _ _ caller next =>
    have refused : ckRuntimeDispatch s requestCount thread = (s, returns (-1)) := by
      simp [ckRuntimeDispatch, leaving.asked]
    obtain ⟨rfl, rfl⟩ := Prod.mk.inj (refused.symm.trans next)
    exact ⟨.leaving leaving, rfl⟩
  | poll caller next => 
    simp only [runtimePop, held.queue, Bool.not_true, Bool.false_eq_true, if_false] at next
    obtain ⟨rfl, rfl⟩ := Prod.mk.inj next
    obtain ⟨sound, closed⟩ := pop_keeps held.sound
    exact ⟨.leaving (leaving.requeue sound (closed.trans leaving.closed)), rfl⟩
  | wake point =>
    rw [point] at late
    simp only [leaving.asked, if_true]
    exact ⟨.leaving { leaving with late := late, woken := by simp, gone := by simp },
      by simp [Vm.after, silent, vmOf, point, leaving.asked]⟩
  | close point =>
    rw [point] at late
    rw [leaving.close_eq]
    exact ⟨.leaving ⟨held, late, leaving.caller, by simp, leaving.asked, leaving.closed, by simp⟩,
      by simp [Vm.after, Vm.next, tells, vmOf, point]⟩
  | stop point =>
    rw [point] at late
    unfold bootstrapStop
    dsimp only
    split <;>
    exact ⟨.leaving ⟨⟨held.sync, held.thread, held.queue, held.sound, held.incomplete⟩, late.1, leaving.caller,
      by simp [setShutdownStatus], leaving.asked, leaving.closed, by simp [setShutdownStatus]⟩,
      by simp [Vm.after, Vm.next, tells, vmOf, point, setShutdownStatus]⟩
  | destroyVm point left =>
    unfold bootstrapDestroy
    dsimp only
    split <;>
    exact ⟨.leaving ⟨⟨held.sync, held.thread, held.queue, held.sound, held.incomplete⟩, rfl, leaving.caller,
      by simp [setShutdownStatus], leaving.asked, leaving.closed, fun _ => ⟨rfl, left⟩⟩,
      by simp [Vm.after, Vm.next, tells, vmOf, point, setShutdownStatus]⟩
  | publish alive =>
    obtain ⟨sound, closed⟩ := pushWait_keeps held.sound _ _
    exact ⟨.leaving (leaving.requeue sound (closed.trans leaving.closed)), rfl⟩
  | exit alive =>
    exact ⟨.leaving { leaving with gone := fun ended => ⟨(leaving.gone ended).java, rfl⟩ }, rfl⟩
  | init caller sync next =>
    rw [held.sync] at sync
    cases sync
  | format point | createFails point failed | create point | refuse point | store point | start point
  | report point | abandon point =>
    rw [point] at late
    cases late
  | _ => simp_all

theorem Finished.goes {s t : System} {move : Move} {answer : Answer} (finished : Finished s) (does : Does s move t answer) :
    Goes s t answer := by
  have thread := finished.thread
  have left := finished.quiet.executor
  have notIn : s.caller ≠ .initTesting ∧ (∀ woken, s.caller ≠ .initAsleep woken) ∧ s.caller ≠ .initJoining ∧
      s.caller ≠ .shutdownJoining ∧ s.caller ≠ .dispatching ∧ s.caller ≠ .attached := by
    rcases finished.caller with ⟨caller, -⟩ | ⟨caller, -⟩ <;> simp [caller]
  obtain ⟨initTesting, initAsleep, initJoining, shutdownJoining, dispatching, attached⟩ := notIn
  have complete : s.caller = .idle → s.runtime.shutdownComplete = true := by
    intro idle
    rcases finished.caller with ⟨caller, -⟩ | ⟨-, complete⟩
    · rw [idle] at caller
      cases caller
    · exact complete
  cases does with
  | shutdown caller next =>
    simp only [ckRuntimeShutdown, finished.sync, finished.started, complete caller] at next
    obtain ⟨rfl, rfl⟩ := Prod.mk.inj next
    exact ⟨.finished finished, rfl⟩
  | shutdownFinish caller =>
    exact ⟨.finished { finished with
      caller := .inr ⟨rfl, rfl⟩, quiet := ⟨finished.quiet.java, left⟩ }, by simp [Vm.after, returns, vmOf, thread]⟩
  | destroy caller =>
    have cleared : ckRuntimeDestroy s = { s with runtime := zeroRuntime } := by
      simp [ckRuntimeDestroy, finished.sync, complete caller]
    rw [cleared]
    exact ⟨.off ⟨thread, caller, rfl, rfl, finished.alive, rfl, rfl, rfl, finished.quiet.java, left⟩,
      by simp [Vm.after, silent, vmOf, thread]⟩
  | @dispatch requestCount created _ _ caller next =>
    have refused : ckRuntimeDispatch s requestCount created = (s, returns (-1)) := by
      simp [ckRuntimeDispatch, finished.asked]
    obtain ⟨rfl, rfl⟩ := Prod.mk.inj (refused.symm.trans next)
    exact ⟨.finished finished, rfl⟩
  | poll caller next =>
    unfold runtimePop at next
    split at next
    · obtain ⟨rfl, rfl⟩ := Prod.mk.inj next
      exact ⟨.finished finished, rfl⟩
    · obtain ⟨rfl, rfl⟩ := Prod.mk.inj next
      obtain ⟨sound, closed⟩ := pop_keeps finished.sound
      exact ⟨.finished { finished with
        sound := sound
        closed := closed.trans finished.closed
        quiet := ⟨finished.quiet.java, left⟩ }, rfl⟩
  | init caller sync next =>
    rw [finished.sync] at sync
    cases sync
  | _ => simp_all

theorem Reachable.goes {s t : System} {move : Move} {answer : Answer} (reachable : Reachable s) (does : Does s move t answer) :
    Goes s t answer := by
  cases reachable with
  | off off => exact off.goes does
  | booting booting => exact booting.goes does
  | failing failing => exact failing.goes does
  | serving serving => exact serving.goes does
  | leaving leaving => exact leaving.goes does
  | finished finished => exact finished.goes does

def events (history : List (Move × Answer)) : List VmEvent := history.filterMap fun entry => entry.2.event

theorem follow_snoc {told : List VmEvent} {vm : Vm} {next : Option Vm} {event : Option VmEvent}
    (before : told.foldlM Vm.next .absent = some vm) (after : vm.after event = next) :
    (told ++ event.toList).foldlM Vm.next .absent = next := by
  rw [List.foldlM_append, before]
  cases event with
  | none => exact after
  | some event => simpa [Vm.after] using after

theorem runs_reachable {history : List (Move × Answer)} {s : System} (runs : Runs step start history s) :
    Reachable s ∧ (events history).foldlM Vm.next .absent = some (vmOf s) := by
  apply runs.invariant (fun history s => Reachable s ∧ (events history).foldlM Vm.next .absent = some (vmOf s))
  · exact ⟨.off start_off, rfl⟩
  · intro history s t move answer _ holds next
    obtain ⟨reachable, follows⟩ := holds.1.goes (step_does next)
    refine ⟨reachable, ?_⟩
    unfold events
    rw [filterMap_snoc]
    exact follow_snoc holds.2 follows

/-- The Java VM lives as it must in every interleaving and under every failure: what the
    bootstrap and worker threads do to it is a life of Vm.next, and it is alive exactly
    between its creation and its destruction. -/
theorem vm_life_followed {history : List (Move × Answer)} {s : System} (runs : Runs step start history s) :
    (events history).foldlM Vm.next .absent = some (vmOf s) ∧ (s.vmAlive = true ↔ vmOf s ≠ .absent) := by
  obtain ⟨reachable, follows⟩ := runs_reachable runs
  refine ⟨follows, ?_⟩
  cases reachable with
  | off off => simp [off.alive, vmOf, off.thread]
  | booting booting =>
    have early := booting.early
    cases point : s.bootstrap <;> simp_all [Early, vmOf]
    split <;> simp
  | failing failing =>
    rcases failing.thread with ⟨point, alive⟩ | ⟨⟨status, point⟩ | point, alive⟩ <;> simp [vmOf, point, alive]
  | serving serving =>
    rw [serving.vm_eq, serving.alive]
    split <;> simp
  | leaving leaving =>
    have late := leaving.late
    cases point : s.bootstrap <;> simp_all [Late, vmOf, leaving.asked]
  | finished finished => simp [finished.alive, vmOf, finished.thread]

def sampleAnswers : JniAnswers := ⟨true, 0, true, true⟩

/-- Init waits for the start, then a dispatch hands a task to the executor. -/
def sampleServed : List Move :=
  [.init [47] 0 0 0 0 none, .format, .create 0, .initTest, .store, .start sampleAnswers, .report, .initWake,
    .dispatch 2 0, .attach 0, .execute]

def sampleLeft : List Move :=
  [.detach, .shutdown none, .wake, .close none, .stop sampleAnswers, .exit, .destroyVm 0, .shutdownJoin]

def sampleRun (moves : List Move) : List (Move × Answer) × System := (execute step start moves).getD ([], start)

theorem vm_life_followed_sample :
    events (sampleRun (sampleServed ++ sampleLeft)).1 =
        [.created, .started, .attached, .detached, .requested, .closed, .stopped 0, .destroyed 0] ∧
      vmOf (sampleRun (sampleServed ++ sampleLeft)).2 = .absent := by
  have executed : execute step start (sampleServed ++ sampleLeft) =
      some ((sampleRun (sampleServed ++ sampleLeft)).1, (sampleRun (sampleServed ++ sampleLeft)).2) := rfl
  have told : events (sampleRun (sampleServed ++ sampleLeft)).1 =
      [.created, .started, .attached, .detached, .requested, .closed, .stopped 0, .destroyed 0] := rfl
  have followed := (vm_life_followed (execute_runs executed)).1
  rw [told] at followed
  exact ⟨told, (Option.some.inj followed).symm⟩

theorem closed_pushWait {queue : CompletionQueue} (sound : Sound queue) (closed : queue.closed = true)
    (record : CompletionRecord) (fault : Option Errno) :
    (ckCompletionQueuePushWait queue record fault).1 = some 2 := by
  simp [ckCompletionQueuePushWait, sound.ready, closed]

/-- Nothing is used after its release, whatever the threads do: who may still publish, and the
    worker thread of a dispatch, finds the VM alive and the queue initialised; a join is of a
    thread that was started and not joined; and when Java is stopped the queue is closed, so
    that no publisher waits for room in it. -/
theorem no_use_after_release {history : List (Move × Answer)} {s : System} (runs : Runs step start history s) :
    ((s.executorThread = true ∨ s.caller = .dispatching ∨ s.caller = .attached) →
      s.vmAlive = true ∧ s.runtime.completionQueue.initialized = true) ∧
    ((s.caller = .initJoining ∨ s.caller = .shutdownJoining) → s.bootstrap ≠ .absent) ∧
    (s.bootstrap = .stopping → ∀ record fault,
      (ckCompletionQueuePushWait s.runtime.completionQueue record fault).1 = some 2) := by
  obtain ⟨reachable, -⟩ := runs_reachable runs
  cases reachable with
  | off off => simp [off.thread, off.caller, off.quiet.executor]
  | booting booting =>
    obtain ⟨-, initJoining, shutdownJoining, -, dispatching, attached⟩ := booting.notIdle
    have early := booting.early
    refine ⟨by simp [booting.executor, dispatching, attached], by simp [initJoining, shutdownJoining], ?_⟩
    intro point
    rw [point] at early
    cases early
  | failing failing =>
    refine ⟨?_, fun _ => ?_, fun point => ?_⟩
    · rcases failing.caller with caller | caller | caller <;> simp [caller, failing.quiet.executor]
    · rcases failing.thread with ⟨point, -⟩ | ⟨⟨status, point⟩ | point, -⟩ <;> simp [point]
    · rcases failing.thread with ⟨other, -⟩ | ⟨⟨status, other⟩ | other, -⟩ <;> simp [point] at other
  | serving serving =>
    exact ⟨fun _ => ⟨serving.alive, serving.held.sound.ready⟩, by simp [serving.thread], by simp [serving.thread]⟩
  | leaving leaving =>
    have late := leaving.late
    refine ⟨fun used => ⟨?_, leaving.held.sound.ready⟩, fun _ point => ?_, fun _ => ?_⟩
    · have running : s.executorThread = true := by
        rcases leaving.caller with caller | caller <;> simpa [caller] using used
      have unended : s.bootstrap ≠ .ended := by
        intro ended
        rw [(leaving.gone ended).executor] at running
        cases running
      cases point : s.bootstrap <;> simp_all [Late]
    · rw [point] at late
      cases late
    · exact closed_pushWait leaving.held.sound leaving.closed
  | finished finished =>
    refine ⟨?_, ?_, by simp [finished.thread]⟩
    · rcases finished.caller with ⟨caller, -⟩ | ⟨caller, -⟩ <;> simp [caller, finished.quiet.executor]
    · rcases finished.caller with ⟨caller, -⟩ | ⟨caller, -⟩ <;> simp [caller]

theorem no_use_after_release_sample :
    (sampleRun sampleServed).2.executorThread = true ∧ (sampleRun sampleServed).2.vmAlive = true ∧
      (sampleRun sampleServed).2.runtime.completionQueue.initialized = true := by
  have executed : execute step start sampleServed =
      some ((sampleRun sampleServed).1, (sampleRun sampleServed).2) := rfl
  have running : (sampleRun sampleServed).2.executorThread = true := rfl
  exact ⟨running, (no_use_after_release (execute_runs executed)).1 (.inl running)⟩

end CkartaRuntimeProtocol
