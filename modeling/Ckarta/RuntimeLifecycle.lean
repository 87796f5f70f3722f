import Ckarta.CompletionQueue

/-!
The life of the runtime, c/jni/ck_jni_runtime.c: the thread that calls ck_runtime_init,
dispatch, shutdown and destroy, the bootstrap thread it starts, which owns the Java VM, and
the worker thread of the Java executor. A critical section under runtime->lock is one step,
up to the pthread_cond_wait in it; a waiter may wake at any time. The answers of the JNI and
of pthread_mutex_init, pthread_cond_init and pthread_create are arguments of the steps.
-/
namespace CkartaRuntimeLifecycle
open StepHistory CkartaCompletionQueue

def jniOk : Int := 0
def jniEinval : Int := -6

/-- The static methods of CkartaRuntime with their JNI signatures. -/
def runtimeMethods : List (String × String) :=
  [("matchesAscii", "(Ljava/nio/ByteBuffer;Ljava/lang/String;)Z"), ("start", "(J)V"), ("stop", "()V"),
    ("dispatchAsync", "(JJJLjava/nio/ByteBuffer;Ljava/nio/ByteBuffer;)V"),
    ("publishCompletion", "(JJJJJJI)I")]

/-- What the JNI answers inside a call into CkartaRuntime: FindClass gave the class, what
    RegisterNatives returned, nothing but a missing method stopped GetStaticMethodID, and the
    call ended without an exception. -/
structure JniAnswers where
  findClass : Bool
  registerNatives : Int
  getStaticMethodId : Bool
  callReturned : Bool
  deriving DecidableEq, Repr

def getStaticMethodId (answers : JniAnswers) (name signature : String) : Bool :=
  answers.getStaticMethodId && runtimeMethods.contains (name, signature)

def ckCallStart (answers : JniAnswers) : Int :=
  if !answers.findClass then -1
  else if answers.registerNatives ≠ jniOk then -1
  else if !getStaticMethodId answers "start" "(J)V" then -1
  else if !answers.callReturned then -1
  else 0

def ckCallStop (answers : JniAnswers) : Int :=
  if !answers.findClass then -1
  else if !getStaticMethodId answers "stop" "()V" then -1
  else if !answers.callReturned then -1
  else 0

/-- ck_runtime_t; vm says whether the pointer is set. -/
structure Runtime where
  vm : Bool
  classPath : List UInt8
  bootstrapDone : Bool
  bootstrapStatus : Int
  shutdownRequested : Bool
  shutdownStatus : Int
  syncInitialized : Bool
  bootstrapThreadStarted : Bool
  shutdownComplete : Bool
  completionQueue : CompletionQueue
  completionQueueInitialized : Bool

def zeroQueue : CompletionQueue := { ckCompletionQueueInit with initialized := false }

def zeroRuntime : Runtime := ⟨false, [], false, 0, false, 0, false, false, false, zeroQueue, false⟩

def ckCompletionQueueDestroy (queue : CompletionQueue) (fault : Option Errno) : CompletionQueue :=
  if !queue.initialized then queue
  else { (ckCompletionQueueClose queue fault).2 with initialized := false }

/-- Where the bootstrap thread is in ck_bootstrap_main. -/
inductive Bootstrap where
  | absent
  | formatting
  | creating
  | refused (status : Int)
  | storing
  | starting
  | reporting (startStatus : Int)
  | asleep (woken : Bool)
  | closing
  | stopping
  | abandoning (startStatus : Int)
  | destroying
  | ended
  deriving DecidableEq, Repr

/-- Where the calling thread is; attached is its worker thread between AttachCurrentThread
    and DetachCurrentThread, which it joins. -/
inductive Caller where
  | idle
  | initTesting
  | initAsleep (woken : Bool)
  | initJoining
  | shutdownJoining
  | shutdownFinishing
  | dispatching
  | attached
  deriving DecidableEq, Repr

/-- javaRunning: CkartaRuntime holds an executor. executorThread: its worker thread lives. -/
structure System where
  runtime : Runtime
  bootstrap : Bootstrap
  caller : Caller
  vmAlive : Bool
  javaRunning : Bool
  executorThread : Bool

def start : System := ⟨zeroRuntime, .absent, .idle, false, false, false⟩

/-- What the Java VM sees of a step. -/
inductive VmEvent where
  | created
  | started
  | startFailed
  | attached
  | detached
  | requested
  | closed
  | stopped (result : Int)
  | destroyed (result : Int)
  deriving DecidableEq, Repr

structure Answer where
  returned : Option Int
  event : Option VmEvent
  deriving DecidableEq, Repr

def silent : Answer := ⟨none, none⟩
def returns (result : Int) : Answer := ⟨some result, none⟩
def tells (event : VmEvent) : Answer := ⟨none, some event⟩

inductive Move where
  | init (classPath : List UInt8) (queue mutex condition thread : Int) (fault : Option Errno)
  | initTest
  | initWake
  | initJoin
  | shutdown (fault : Option Errno)
  | shutdownJoin
  | shutdownFinish
  | destroy
  | dispatch (requestCount : Nat) (thread : Int)
  | attach (result : Int)
  | detach
  | poll
  | format
  | create (result : Int)
  | refuse
  | store
  | start (answers : JniAnswers)
  | report
  | wake
  | close (fault : Option Errno)
  | stop (answers : JniAnswers)
  | abandon
  | destroyVm (result : Int)
  | execute
  | publish (record : CompletionRecord) (fault : Option Errno)
  | exit
  deriving DecidableEq

def broadcast (s : System) : System :=
  { s with
    bootstrap := match s.bootstrap with
      | .asleep _ => .asleep true
      | point => point
    caller := match s.caller with
      | .initAsleep _ => .initAsleep true
      | point => point }

/-- ck_runtime_init up to the thread it creates. -/
def ckRuntimeInit (s : System) (classPath : List UInt8) (queue mutex condition thread : Int)
    (fault : Option Errno) : System × Answer :=
  let cleared := { zeroRuntime with classPath := classPath }
  let released := { cleared with completionQueue := ckCompletionQueueDestroy ckCompletionQueueInit fault }
  if classPath = [] then (s, returns (-1))
  else if queue ≠ 0 then ({ s with runtime := cleared }, returns queue)
  else if mutex ≠ 0 then ({ s with runtime := released }, returns mutex)
  else if condition ≠ 0 then ({ s with runtime := released }, returns condition)
  else if thread ≠ 0 then ({ s with runtime := released }, returns thread)
  else
    ({ s with
        runtime := { cleared with
          completionQueue := ckCompletionQueueInit
          completionQueueInitialized := true
          syncInitialized := true
          bootstrapThreadStarted := true }
        bootstrap := .formatting
        caller := .initTesting }, silent)

/-- The wait of ck_runtime_init for the bootstrap thread, from one taking of the lock to its
    release. -/
def initSection (s : System) : System × Answer :=
  if !s.runtime.bootstrapDone then ({ s with caller := .initAsleep false }, silent)
  else if s.runtime.bootstrapStatus ≠ 0 then ({ s with caller := .initJoining }, silent)
  else ({ s with caller := .idle }, returns 0)

def requestShutdown (s : System) (queue : CompletionQueue) : System :=
  { s with runtime := { s.runtime with shutdownRequested := true, completionQueue := queue } }

/-- ck_runtime_shutdown up to pthread_join. -/
def ckRuntimeShutdown (s : System) (fault : Option Errno) : System × Answer :=
  let runtime := s.runtime
  if !runtime.syncInitialized || !runtime.bootstrapThreadStarted then (s, returns (-1))
  else if runtime.shutdownComplete then (s, returns runtime.shutdownStatus)
  else
    let (result, queue) := ckCompletionQueueClose runtime.completionQueue fault
    let asked := requestShutdown s queue
    let event := if runtime.shutdownRequested then none else some VmEvent.requested
    if result ≠ 0 ∧ result ≠ 1 then (asked, ⟨some result, event⟩)
    else ({ broadcast asked with caller := .shutdownJoining }, ⟨none, event⟩)

def ckRuntimeDestroy (s : System) : System :=
  if !s.runtime.syncInitialized || !s.runtime.shutdownComplete then s else { s with runtime := zeroRuntime }

/-- The guards of ck_runtime_dispatch_async_smoke and the thread it creates. -/
def ckRuntimeDispatch (s : System) (requestCount : Nat) (thread : Int) : System × Answer :=
  if requestCount = 0 then (s, returns (-1))
  else if !s.runtime.vm || s.runtime.shutdownRequested || s.runtime.shutdownComplete then (s, returns (-1))
  else if thread ≠ 0 then (s, returns thread)
  else ({ s with caller := .dispatching }, silent)

def requeue (s : System) (queue : CompletionQueue) : System :=
  { s with runtime := { s.runtime with completionQueue := queue } }

def runtimePop (s : System) : System × Answer :=
  if !s.runtime.completionQueueInitialized then (s, returns (-1))
  else
    let (result, _, queue) := ckCompletionQueuePop s.runtime.completionQueue
    (requeue s queue, returns result)

/-- The option string "-Djava.class.path=" with the class path must fit in 4096 bytes. -/
def bootstrapFormat (s : System) : System :=
  if 18 + s.runtime.classPath.length ≥ 4096 then { s with bootstrap := .refused jniEinval }
  else { s with bootstrap := .creating }

/-- The bootstrap thread reports how it started and waits for the shutdown. -/
def bootstrapReport (s : System) (startStatus : Int) : System :=
  let told := broadcast { s with
    runtime := { s.runtime with bootstrapStatus := startStatus, bootstrapDone := true } }
  if startStatus ≠ 0 then { told with bootstrap := .abandoning startStatus }
  else if s.runtime.shutdownRequested then { told with bootstrap := .closing }
  else { told with bootstrap := .asleep false }

def setShutdownStatus (s : System) (status : Int) : System :=
  { s with runtime := { s.runtime with shutdownStatus := status } }

def bootstrapClose (s : System) (fault : Option Errno) : System :=
  let (result, queue) := ckCompletionQueueClose s.runtime.completionQueue fault
  let closed := { requeue s queue with bootstrap := .stopping }
  if result ≠ 0 ∧ result ≠ 1 then setShutdownStatus closed result else closed

def bootstrapStop (s : System) (answers : JniAnswers) : System :=
  let stopStatus := ckCallStop answers
  let stopped := { s with
    javaRunning := if stopStatus = 0 then false else s.javaRunning
    bootstrap := .destroying }
  if stopStatus ≠ 0 ∧ s.runtime.shutdownStatus = 0 then setShutdownStatus stopped (-1) else stopped

def bootstrapDestroy (s : System) (result : Int) : System :=
  let destroyed := { s with vmAlive := false, javaRunning := false, bootstrap := .ended }
  if result ≠ jniOk ∧ s.runtime.shutdownStatus = 0 then setShutdownStatus destroyed result else destroyed

@[simp]
theorem bootstrapStop_point (s : System) (answers : JniAnswers) : (bootstrapStop s answers).bootstrap = .destroying := by
  unfold bootstrapStop
  dsimp only
  split <;> rfl

theorem bootstrapStop_status (s : System) (answers : JniAnswers) :
    (bootstrapStop s answers).runtime.shutdownStatus =
      if ckCallStop answers ≠ 0 ∧ s.runtime.shutdownStatus = 0 then -1 else s.runtime.shutdownStatus := by
  unfold bootstrapStop
  dsimp only
  split <;> rfl

@[simp]
theorem bootstrapDestroy_point (s : System) (result : Int) : (bootstrapDestroy s result).bootstrap = .ended := by
  unfold bootstrapDestroy
  dsimp only
  split <;> rfl

theorem bootstrapDestroy_status (s : System) (result : Int) :
    (bootstrapDestroy s result).runtime.shutdownStatus =
      if result ≠ jniOk ∧ s.runtime.shutdownStatus = 0 then result else s.runtime.shutdownStatus := by
  unfold bootstrapDestroy
  dsimp only
  split <;> rfl

/-- Init is called on a runtime that holds nothing; pthread_join needs an ended thread, and
    DestroyJavaVM waits for the threads of the Java program. -/
def step (s : System) : Move → Option (System × Answer)
  | .init classPath queue mutex condition thread fault =>
    if s.caller = .idle ∧ !s.runtime.syncInitialized then
      some (ckRuntimeInit s classPath queue mutex condition thread fault)
    else none
  | .initTest => if s.caller = .initTesting then some (initSection s) else none
  | .initWake =>
    match s.caller with
    | .initAsleep _ => some (initSection s)
    | _ => none
  | .initJoin =>
    if s.caller = .initJoining ∧ s.bootstrap = .ended then
      some ({ s with runtime := zeroRuntime, bootstrap := .absent, caller := .idle }, returns (-1))
    else none
  | .shutdown fault => if s.caller = .idle then some (ckRuntimeShutdown s fault) else none
  | .shutdownJoin =>
    if s.caller = .shutdownJoining ∧ s.bootstrap = .ended then
      some ({ s with bootstrap := .absent, caller := .shutdownFinishing }, silent)
    else none
  | .shutdownFinish =>
    if s.caller = .shutdownFinishing then
      some ({ s with runtime := { s.runtime with shutdownComplete := true }, caller := .idle },
        returns s.runtime.shutdownStatus)
    else none
  | .destroy => if s.caller = .idle then some (ckRuntimeDestroy s, silent) else none
  | .dispatch requestCount thread =>
    if s.caller = .idle then some (ckRuntimeDispatch s requestCount thread) else none
  | .attach result =>
    if s.caller = .dispatching then
      if result ≠ jniOk then some ({ s with caller := .idle }, returns 0)
      else some ({ s with caller := .attached }, tells .attached)
    else none
  | .detach => if s.caller = .attached then some ({ s with caller := .idle }, ⟨some 0, some .detached⟩) else none
  | .poll => if s.caller = .idle then some (runtimePop s) else none
  | .format => if s.bootstrap = .formatting then some (bootstrapFormat s, silent) else none
  | .create result =>
    if s.bootstrap = .creating then
      if result ≠ jniOk then some ({ s with bootstrap := .refused result }, silent)
      else some ({ s with bootstrap := .storing, vmAlive := true }, tells .created)
    else none
  | .refuse =>
    match s.bootstrap with
    | .refused status =>
      some ({ broadcast { s with
        runtime := { s.runtime with bootstrapStatus := status, bootstrapDone := true } } with
          bootstrap := .ended }, silent)
    | _ => none
  | .store =>
    if s.bootstrap = .storing then
      some ({ s with runtime := { s.runtime with vm := true }, bootstrap := .starting }, silent)
    else none
  | .start answers =>
    if s.bootstrap = .starting then
      let status := ckCallStart answers
      some ({ s with bootstrap := .reporting status, javaRunning := status = 0 },
        tells (if status = 0 then .started else .startFailed))
    else none
  | .report =>
    match s.bootstrap with
    | .reporting startStatus => some (bootstrapReport s startStatus, silent)
    | _ => none
  | .wake =>
    match s.bootstrap with
    | .asleep _ =>
      some ({ s with bootstrap := if s.runtime.shutdownRequested then .closing else .asleep false }, silent)
    | _ => none
  | .close fault => if s.bootstrap = .closing then some (bootstrapClose s fault, tells .closed) else none
  | .stop answers =>
    if s.bootstrap = .stopping then some (bootstrapStop s answers, tells (.stopped (ckCallStop answers)))
    else none
  | .abandon =>
    match s.bootstrap with
    | .abandoning startStatus =>
      some ({ setShutdownStatus s startStatus with bootstrap := .destroying }, silent)
    | _ => none
  | .destroyVm result =>
    if s.bootstrap = .destroying ∧ !s.executorThread then
      some (bootstrapDestroy s result, tells (.destroyed result))
    else none
  | .execute =>
    if s.caller = .attached ∧ s.javaRunning then some ({ s with executorThread := true }, silent) else none
  | .publish record fault =>
    if s.executorThread ∨ s.caller = .attached then
      let (result, queue) := ckCompletionQueuePushWait s.runtime.completionQueue record fault
      some (requeue s queue, ⟨result, none⟩)
    else none
  | .exit => if s.executorThread then some ({ s with executorThread := false }, silent) else none

end CkartaRuntimeLifecycle
