import Mathlib.Data.List.Count
import Mathlib.Data.List.Nodup
import Ckarta.RuntimeTask

/-!
From dispatchAsync to the completion queue: java/org/ckarta/bootstrap/CkartaRuntime.java with
its ThreadPoolExecutor of one thread and sixteen places, and ck_native_publish_completion of
c/jni/ck_jni_runtime.c. Any number of threads dispatch, the thread of the executor runs the
tasks, and start was called once; a step is one synchronized block, one look of execute at the
executor's state and thread count, one call of its queue, one addWorker, or one pass through the
critical section of push_wait. A task that throws ends the thread, and the executor replaces it
later: in between there is none.
-/
namespace CkartaDispatchPipeline
open StepHistory CkartaRuntimeTask
open CkartaCompletionQueue (CompletionQueue CompletionRecord Errno Sound Published pending init_sound pop_takes
  pushWait_publishes close_closes ckCompletionQueuePop ckCompletionQueuePushWait ckCompletionQueueClose
  ckCompletionQueueInit)

def executorQueueCapacity : Nat := 16

structure Job where
  call : Nat
  task : Task
  deriving DecidableEq, Repr

/-- The thread of the executor: not started, at the take of its queue, or in a task. -/
inductive Worker where
  | absent
  | idle
  | busy (job : Job)
  deriving DecidableEq, Repr

def Worker.jobs : Worker → List Job
  | .busy job => [job]
  | .absent | .idle => []

@[simp]
theorem busy_jobs (job : Job) : (Worker.busy job).jobs = [job] := rfl

@[simp]
theorem absent_jobs : Worker.absent.jobs = [] := rfl

@[simp]
theorem idle_jobs : Worker.idle.jobs = [] := rfl

/-- ThreadPoolExecutor(1, 1, ArrayBlockingQueue(16), AbortPolicy). shut and stopped are its states from
    SHUTDOWN and from STOP on; dying counts the threads that went and have not asked for their
    replacement. -/
structure Pool where
  worker : Worker
  queue : List Job
  shut : Bool
  stopped : Bool
  dying : Nat

/-- The calls of dispatchAsync: captured before execute, offering where execute saw a running pool
    with its thread, unplaced where the queue was full, rechecking behind the queue, rejected in
    the catch block. -/
structure System where
  executor : Bool
  nativeQueueHandle : Int
  pool : Pool
  captured : List Job
  offering : List Job
  unplaced : List Job
  rechecking : List Job
  rejected : List Job
  completions : CompletionQueue
  calls : Nat

def start (queueHandle : Int) : System :=
  ⟨true, queueHandle, ⟨.absent, [], false, false, 0⟩, [], [], [], [], [], ckCompletionQueueInit, 0⟩

/-- ck_native_publish_completion on the queue of a positive handle, which dispatchAsync made
    sure of; none while push_wait waits for room. -/
def ckNativePublishCompletion (queue : CompletionQueue) (requestId ownerToken lifetimeToken cycleId result
    status : Int) (fault : Option Errno) : Option Int × CompletionQueue :=
  if requestId ≤ 0 ∨ ownerToken < 0 ∨ lifetimeToken < 0 ∨ cycleId ≤ 0 then (some (-1), queue)
  else ckCompletionQueuePushWait queue
    ⟨requestId.toNat, ownerToken.toNat, lifetimeToken.toNat, cycleId.toNat, result, status⟩ fault

def completionOf (task : Task) (result status : Int) : CompletionRecord :=
  ⟨task.requestHandle.toNat, task.ownerToken.toNat, task.lifetimeToken.toNat, 1, result, status⟩

def publishFor (queue : CompletionQueue) (task : Task) (outcome : Int × Int) (fault : Option Errno) :
    Option Int × CompletionQueue :=
  ckNativePublishCompletion queue task.requestHandle task.ownerToken task.lifetimeToken 1 outcome.1 outcome.2 fault

def rejection : Int × Int := (0, -2)

inductive Move where
  | dispatch (task : Task)
  | execute (job : Job)
  | offer (job : Job)
  | addWorker (job : Job)
  | recheck (job : Job)
  | reject (job : Job) (fault : Option Errno)
  | take
  | publish (fault : Option Errno)
  | replace
  | leave
  | terminate
  | stop
  | shutdown
  | shutdownNow
  | clearHandle
  | pop
  | close (fault : Option Errno)
  deriving DecidableEq

/-- What a step did: the call it began, the task the executor took in or gave back, the publication
    of the worker or of a catch block with what it returned, the tasks dropped, the record popped. -/
structure Answer where
  began : Option Job
  enrolled : Option Job
  withdrawn : Option Job
  finished : Option (Job × Int)
  refused : Option (Job × Int)
  dropped : List Job
  popped : Option CompletionRecord

def silent : Answer := ⟨none, none, none, none, none, [], none⟩

/-- addWorker without a task: a thread where there is none and there may be one. -/
def addWorker (pool : Pool) : Worker :=
  if pool.worker = .absent ∧ ¬ (pool.shut ∧ (pool.stopped ∨ pool.queue = [])) then .idle else pool.worker

/-- ThreadPoolExecutor.execute up to the queue: a pool that was shut throws the
    RejectedExecutionException, one without a thread starts it with the task. -/
def execute (s : System) (job : Job) : System × Answer :=
  let left := { s with captured := s.captured.erase job }
  if s.pool.shut then ({ left with rejected := job :: s.rejected }, silent)
  else if s.pool.worker = .absent then
    ({ left with pool := { s.pool with worker := .busy job } }, { silent with enrolled := some job })
  else ({ left with offering := job :: s.offering }, silent)

/-- The offer to the queue, of a pool that may have been shut meanwhile. -/
def offer (s : System) (job : Job) : System × Answer :=
  let left := { s with offering := s.offering.erase job }
  if s.pool.queue.length < executorQueueCapacity then
    ({ left with
        rechecking := job :: s.rechecking
        pool := { s.pool with queue := s.pool.queue ++ [job] } },
      { silent with enrolled := some job })
  else ({ left with unplaced := job :: s.unplaced }, silent)

/-- addWorker with the task that found no place, and AbortPolicy where there is a thread. -/
def addWorkerWith (s : System) (job : Job) : System × Answer :=
  let left := { s with unplaced := s.unplaced.erase job }
  if s.pool.shut = false ∧ s.pool.worker = .absent then
    ({ left with pool := { s.pool with worker := .busy job } }, { silent with enrolled := some job })
  else ({ left with rejected := job :: s.rejected }, silent)

/-- The rest of execute behind the queue: a task that a shut executor still has is taken back and
    rejected, and a thread is started where there is none. -/
def recheck (s : System) (job : Job) : System × Answer :=
  let left := { s with rechecking := s.rechecking.erase job }
  if s.pool.shut ∧ job ∈ s.pool.queue then
    ({ left with
        rejected := job :: s.rejected
        pool := { s.pool with queue := s.pool.queue.erase job } }, { silent with withdrawn := some job })
  else ({ left with pool := { s.pool with worker := addWorker s.pool } }, silent)

/-- The pool behind a task: a publication that failed is thrown, and ends the thread. -/
def poolAfter (pool : Pool) (result : Int) : Pool :=
  if result ≠ 0 ∧ result ≠ 2 then { pool with worker := .absent, dying := pool.dying + 1 }
  else { pool with worker := .idle }

def step (s : System) : Move → Option (System × Answer)
  | .dispatch task =>
    if !s.executor || s.nativeQueueHandle ≤ 0 then some (s, silent)
    else
      some ({ s with calls := s.calls + 1, captured := ⟨s.calls, task⟩ :: s.captured },
        { silent with began := some ⟨s.calls, task⟩ })
  | .execute job => if job ∈ s.captured then some (execute s job) else none
  | .offer job => if job ∈ s.offering then some (offer s job) else none
  | .addWorker job => if job ∈ s.unplaced then some (addWorkerWith s job) else none
  | .recheck job => if job ∈ s.rechecking then some (recheck s job) else none
  | .reject job fault =>
    if job ∈ s.rejected then
      match publishFor s.completions job.task rejection fault with
      | (none, queue) => some ({ s with completions := queue }, silent)
      | (some result, queue) =>
        some ({ s with completions := queue, rejected := s.rejected.erase job },
          { silent with refused := some (job, result) })
    else none
  | .take =>
    match s.pool.worker, s.pool.queue with
    | .idle, job :: rest =>
      if s.pool.stopped then none
      else some ({ s with pool := { s.pool with worker := .busy job, queue := rest } }, silent)
    | _, _ => none
  | .publish fault =>
    match s.pool.worker with
    | .busy job =>
      match publishFor s.completions job.task (runTask job.task) fault with
      | (none, queue) => some ({ s with completions := queue }, silent)
      | (some result, queue) =>
        some ({ s with completions := queue, pool := poolAfter s.pool result },
          { silent with finished := some (job, result) })
    | _ => none
  | .replace =>
    if s.pool.dying = 0 then none
    else
      some ({ s with pool := { s.pool with worker := addWorker s.pool, dying := s.pool.dying - 1 } }, silent)
  | .leave =>
    if s.pool.worker = .idle ∧ s.pool.shut ∧ (s.pool.stopped ∨ s.pool.queue = []) then
      some ({ s with pool := { s.pool with worker := .absent, dying := s.pool.dying + 1 } }, silent)
    else none
  -- tryTerminate, which many calls of the executor end with
  | .terminate =>
    if s.pool.worker = .absent ∧ s.pool.shut ∧ s.pool.queue = [] then
      some ({ s with pool := { s.pool with stopped := true } }, silent)
    else none
  | .stop => some ({ s with executor := false }, silent)
  | .shutdown => if s.executor then none else some ({ s with pool := { s.pool with shut := true } }, silent)
  | .shutdownNow =>
    if s.pool.shut then
      some ({ s with pool := { s.pool with queue := [], stopped := true } },
        { silent with dropped := s.pool.queue })
    else none
  | .clearHandle => if s.executor then none else some ({ s with nativeQueueHandle := 0 }, silent)
  | .pop =>
    let (_, popped, queue) := ckCompletionQueuePop s.completions
    some ({ s with completions := queue }, { silent with popped := popped })
  | .close fault =>
    some ({ s with completions := (ckCompletionQueueClose s.completions fault).2 }, silent)

theorem publishFor_cases {queue : CompletionQueue} (sound : Sound queue) (task : Task) (outcome : Int × Int)
    (fault : Option Errno) :
    publishFor queue task outcome fault = (none, queue) ∨
      ∃ result next, publishFor queue task outcome fault = (some result, next) ∧
        Published queue next (completionOf task outcome.1 outcome.2) result := by
  unfold publishFor ckNativePublishCompletion
  split
  · exact .inr ⟨-1, queue, rfl, .refused sound _ (by decide)⟩
  · rcases pushWait_publishes sound (completionOf task outcome.1 outcome.2) fault with
      ⟨waits, -⟩ | ⟨result, next, returns, published, -⟩
    · exact .inl waits
    · exact .inr ⟨result, next, returns, published⟩

def begun (history : List (Move × Answer)) : List Job := history.filterMap fun entry => entry.2.began

def entrusted (tasks : List Job) (answer : Answer) : List Job :=
  match answer.withdrawn with
  | none => tasks ++ answer.enrolled.toList
  | some job => tasks.erase job

/-- The tasks the executor took in and did not give back, in the order of execute. -/
def enrolled (history : List (Move × Answer)) : List Job :=
  history.foldl (fun tasks entry => entrusted tasks entry.2) []

def finishedJobs (history : List (Move × Answer)) : List Job :=
  history.filterMap fun entry => entry.2.finished.map Prod.fst

def refusedJobs (history : List (Move × Answer)) : List Job :=
  history.filterMap fun entry => entry.2.refused.map Prod.fst

def droppedJobs (history : List (Move × Answer)) : List Job := history.flatMap fun entry => entry.2.dropped

def queued (outcome : Task → Int × Int) : Option (Job × Int) → List CompletionRecord
  | some (job, result) =>
    if result = 0 then [completionOf job.task (outcome job.task).1 (outcome job.task).2] else []
  | none => []

def acceptedBy (answer : Answer) : List CompletionRecord :=
  queued runTask answer.finished ++ queued (fun _ => rejection) answer.refused

def accepted (history : List (Move × Answer)) : List CompletionRecord :=
  history.flatMap fun entry => acceptedBy entry.2

def poppedRecords (history : List (Move × Answer)) : List CompletionRecord :=
  history.filterMap fun entry => entry.2.popped

/-- The tasks that execute has not taken in, or has thrown back. -/
def withCaller (s : System) : List Job := s.captured ++ s.offering ++ s.unplaced ++ s.rejected

/-- Where the calls of dispatchAsync are that were begun and have not ended. -/
def underWay (s : System) : List Job := withCaller s ++ s.pool.worker.jobs ++ s.pool.queue

/-- The calls that ended, each with its publication or dropped by shutdownNow. -/
def settled (history : List (Move × Answer)) : List Job :=
  finishedJobs history ++ refusedJobs history ++ droppedJobs history

def entrustedTo (history : List (Move × Answer)) (pool : Pool) : List Job :=
  finishedJobs history ++ pool.worker.jobs ++ droppedJobs history ++ pool.queue

/-- The same tasks, and in the same order where all is fine. -/
structure Keeps (fine : Prop) (left right : List Job) : Prop where
  same : left.Perm right
  order : fine → left = right

theorem Keeps.append {fine : Prop} {left right : List Job} (keeps : Keeps fine left right) (more : List Job) :
    Keeps fine (left ++ more) (right ++ more) :=
  ⟨keeps.same.append_right more, fun holds => by rw [keeps.order holds]⟩

theorem Keeps.erase {fine : Prop} {left right : List Job} (keeps : Keeps fine left right) (job : Job) :
    Keeps fine (left.erase job) (right.erase job) :=
  ⟨keeps.same.erase job, fun holds => by rw [keeps.order holds]⟩

/-- A task whose publication fails is thrown. -/
def Answer.Throws (answer : Answer) : Prop :=
  ∃ job result, answer.finished = some (job, result) ∧ result ≠ 0 ∧ result ≠ 2

/-- No task of the run throws. -/
def Unfailing (history : List (Move × Answer)) : Prop := ∀ entry ∈ history, ¬ entry.2.Throws

/-- A pool without a thread has not begun, or has somebody to replace it, or is shut. -/
def Staffed (s : System) : Prop :=
  s.pool.worker = .absent → (s.offering = [] ∧ s.pool.queue = []) ∨ s.pool.dying ≠ 0 ∨ s.pool.shut = true

structure Holds (history : List (Move × Answer)) (s : System) : Prop where
  sound : Sound s.completions
  fifo : poppedRecords history ++ pending s.completions = accepted history
  counts : ∀ job, (underWay s ++ settled history).count job = (begun history).count job
  numbers : (begun history).map Job.call = List.range s.calls
  tasks : Keeps (Unfailing history) (enrolled history) (entrustedTo history s.pool)
  room : s.pool.queue.length ≤ executorQueueCapacity
  whole : s.pool.shut = false → droppedJobs history = []
  cleared : droppedJobs history = [] ∨ s.pool.stopped = true
  staffed : Staffed s
  living : Unfailing history → s.pool.dying = 0 ∨ s.pool.shut = true

theorem start_holds (queueHandle : Int) : Holds [] (start queueHandle) :=
  ⟨init_sound, rfl, fun _ => rfl, rfl, ⟨.rfl, fun _ => rfl⟩, Nat.zero_le _, fun _ => rfl, .inl rfl,
    fun _ => .inl ⟨rfl, rfl⟩, fun _ => .inl rfl⟩

section
variable {history : List (Move × Answer)} {move : Move} {answer : Answer}

theorem begun_snoc : begun (history ++ [(move, answer)]) = begun history ++ answer.began.toList :=
  filterMap_snoc _ _ _

theorem enrolled_snoc : enrolled (history ++ [(move, answer)]) = entrusted (enrolled history) answer := by
  rw [enrolled, List.foldl_append]
  rfl

theorem unfailing_snoc : Unfailing (history ++ [(move, answer)]) ↔ Unfailing history ∧ ¬ answer.Throws := by
  simp [Unfailing, or_imp, forall_and]

theorem finished_snoc : finishedJobs (history ++ [(move, answer)]) =
    finishedJobs history ++ (answer.finished.map Prod.fst).toList := filterMap_snoc _ _ _

theorem refused_snoc : refusedJobs (history ++ [(move, answer)]) =
    refusedJobs history ++ (answer.refused.map Prod.fst).toList := filterMap_snoc _ _ _

theorem dropped_snoc : droppedJobs (history ++ [(move, answer)]) = droppedJobs history ++ answer.dropped := by
  simp [droppedJobs]

theorem accepted_snoc : accepted (history ++ [(move, answer)]) = accepted history ++ acceptedBy answer := by
  simp [accepted]

theorem popped_snoc : poppedRecords (history ++ [(move, answer)]) =
    poppedRecords history ++ answer.popped.toList := filterMap_snoc _ _ _

theorem settled_snoc (job : Job) : (settled (history ++ [(move, answer)])).count job =
    (settled history).count job + (answer.finished.map Prod.fst).toList.count job +
      (answer.refused.map Prod.fst).toList.count job + answer.dropped.count job := by
  simp only [settled, finished_snoc, refused_snoc, dropped_snoc, List.count_append]
  omega

structure Handled (history : List (Move × Answer)) (s t : System) (answer : Answer) : Prop where
  counts : ∀ job, (underWay t).count job + (answer.finished.map Prod.fst).toList.count job +
    (answer.refused.map Prod.fst).toList.count job + answer.dropped.count job =
      (underWay s).count job + answer.began.toList.count job
  numbers : (begun history ++ answer.began.toList).map Job.call = List.range t.calls
  tasks : Keeps (Unfailing history) (entrusted (enrolled history) answer)
    (finishedJobs history ++ (answer.finished.map Prod.fst).toList ++ t.pool.worker.jobs ++
      (droppedJobs history ++ answer.dropped) ++ t.pool.queue)
  room : t.pool.queue.length ≤ executorQueueCapacity
  whole : t.pool.shut = false → droppedJobs history ++ answer.dropped = []
  cleared : droppedJobs history ++ answer.dropped = [] ∨ t.pool.stopped = true
  staffed : Staffed t
  living : Unfailing history → ¬ answer.Throws → t.pool.dying = 0 ∨ t.pool.shut = true

structure Queued (s t : System) (answer : Answer) : Prop where
  sound : Sound t.completions
  moved : answer.popped.toList ++ pending t.completions = pending s.completions ++ acceptedBy answer

theorem Holds.snoc {s t : System} (holds : Holds history s) (handled : Handled history s t answer)
    (moves : Queued s t answer) : Holds (history ++ [(move, answer)]) t where
  sound := moves.sound
  fifo := by
    rw [popped_snoc, accepted_snoc, ← holds.fifo, List.append_assoc, moves.moved, List.append_assoc]
  counts := by
    intro job
    have before := holds.counts job
    have step := handled.counts job
    rw [List.count_append] at before ⊢
    rw [settled_snoc, begun_snoc, List.count_append]
    omega
  numbers := by
    rw [begun_snoc]
    exact handled.numbers
  tasks := by
    rw [enrolled_snoc, entrustedTo, finished_snoc, dropped_snoc]
    exact ⟨handled.tasks.same, fun fine => handled.tasks.order (unfailing_snoc.mp fine).1⟩
  room := handled.room
  whole := by
    intro opened
    rw [dropped_snoc]
    exact handled.whole opened
  cleared := by
    rw [dropped_snoc]
    exact handled.cleared
  staffed := handled.staffed
  living := by
    intro fine
    obtain ⟨before, lives⟩ := unfailing_snoc.mp fine
    exact handled.living before lives

theorem Holds.kept {s : System} (holds : Holds history s) {tasks : List Job}
    (enrolled_ : answer.enrolled = none) (withdrawn : answer.withdrawn = none)
    (same : tasks = entrustedTo history s.pool) :
    Keeps (Unfailing history) (entrusted (enrolled history) answer) tasks := by
  rw [entrusted, withdrawn, enrolled_, Option.toList_none, List.append_nil, same]
  exact holds.tasks

theorem Holds.unhandled {s t : System} (holds : Holds history s) (callers : withCaller t = withCaller s)
    (offering : t.offering = s.offering) (pool : t.pool = s.pool) (calls : t.calls = s.calls)
    (began : answer.began = none)
    (enrolled : answer.enrolled = none) (withdrawn : answer.withdrawn = none) (finished : answer.finished = none)
    (refused : answer.refused = none) (dropped : answer.dropped = []) : Handled history s t answer where
  counts := by simp [underWay, callers, pool, began, finished, refused, dropped]
  numbers := by simpa [began, calls] using holds.numbers
  tasks := holds.kept enrolled withdrawn (by simp [entrustedTo, finished, dropped, pool])
  room := pool ▸ holds.room
  whole := by
    rw [dropped, List.append_nil, pool]
    exact holds.whole
  cleared := by
    rw [dropped, List.append_nil, pool]
    exact holds.cleared
  staffed := by
    rw [Staffed, pool, offering]
    exact holds.staffed
  living := by
    rw [pool]
    exact fun fine _ => holds.living fine

/-- A step that changes the state of the executor, and moves no task. -/
theorem Holds.repooled {s t : System} (holds : Holds history s) (callers : withCaller t = withCaller s)
    (calls : t.calls = s.calls) (jobs : t.pool.worker.jobs = s.pool.worker.jobs)
    (queue : t.pool.queue = s.pool.queue) (shut : t.pool.shut = false → s.pool.shut = false)
    (stopped : s.pool.stopped = true → t.pool.stopped = true)
    (staffed : Staffed t) (living : s.pool.dying = 0 ∨ s.pool.shut = true → t.pool.dying = 0 ∨ t.pool.shut = true) :
    Handled history s t silent where
  counts := by simp [underWay, silent, callers, jobs, queue]
  numbers := by simpa [silent, calls] using holds.numbers
  tasks := holds.kept rfl rfl (by simp [entrustedTo, silent, jobs, queue])
  room := queue ▸ holds.room
  whole := by
    intro opened
    simpa [silent] using holds.whole (shut opened)
  cleared := by
    rw [silent, List.append_nil]
    exact holds.cleared.imp_right stopped
  staffed := staffed
  living := fun fine _ => living (holds.living fine)

/-- A step that moves tasks from one point of their calls to another. -/
theorem Holds.passed {s t : System} (holds : Holds history s) (pool : t.pool = s.pool) (calls : t.calls = s.calls)
    (callers : ∀ job, (withCaller t).count job = (withCaller s).count job)
    (offering : s.pool.worker = .absent → s.offering = [] → t.offering = []) : Handled history s t silent where
  counts := by
    intro job
    simp [underWay, silent, pool, callers job]
  numbers := by simpa [silent, calls] using holds.numbers
  tasks := holds.kept rfl rfl (by simp [entrustedTo, silent, pool])
  room := pool ▸ holds.room
  whole := by simpa [silent, pool] using holds.whole
  cleared := by simpa [silent, pool] using holds.cleared
  staffed := by
    rw [Staffed, pool]
    intro absent
    exact (holds.staffed absent).imp_left fun nothing => ⟨offering absent nothing.1, nothing.2⟩
  living := by
    rw [pool]
    exact fun fine _ => holds.living fine

/-- A running pool starts its thread with a task: where no task has thrown, none was waiting. -/
theorem Holds.starts {s t : System} (holds : Holds history s) {job : Job} (opened : s.pool.shut = false)
    (absent : s.pool.worker = .absent) (pool : t.pool = { s.pool with worker := .busy job })
    (calls : t.calls = s.calls)
    (callers : ∀ other, (withCaller t).count other + [job].count other = (withCaller s).count other) :
    Handled history s t { silent with enrolled := some job } := by
  have none := holds.whole opened
  have tasks := holds.tasks.append [job]
  rw [entrustedTo, absent, none, absent_jobs, List.append_nil, List.append_nil] at tasks
  exact {
    counts := by
      intro other
      have one := callers other
      simp only [underWay, silent, pool, absent, busy_jobs, absent_jobs, List.count_append, List.count_nil,
        Option.map_none, Option.toList_none]
      omega
    numbers := by simpa [silent, calls] using holds.numbers
    tasks := by
      refine ⟨tasks.same.trans ?_, fun fine => ?_⟩
      · rw [List.perm_iff_count]
        intro other
        simp only [silent, none, pool, busy_jobs, Option.map_none, Option.toList_none, List.count_append,
          List.count_nil]
        omega
      · have living : s.pool.dying = 0 := by simpa [opened] using holds.living fine
        have nothing : s.pool.queue = [] :=
          ((holds.staffed absent).resolve_right (by simp [opened, living])).2
        simpa [entrusted, silent, pool, nothing, none] using tasks.order fine
    room := by
      rw [pool]
      exact holds.room
    whole := by simpa [silent, pool] using holds.whole
    cleared := .inl (by simp [silent, none])
    staffed := by
      rw [Staffed, pool]
      exact fun busy => by cases busy
    living := by
      rw [pool]
      exact fun fine _ => holds.living fine }

theorem Queued.same {s t : System} (sound : Sound s.completions) (completions : t.completions = s.completions)
    (finished : answer.finished = none) (refused : answer.refused = none)
    (popped : answer.popped = none) : Queued s t answer :=
  ⟨completions ▸ sound, by simp [completions, acceptedBy, queued, finished, refused, popped]⟩

theorem count_erase_cons {jobs : List Job} {job : Job} (member : job ∈ jobs) (other : Job) :
    (jobs.erase job).count other + [job].count other = jobs.count other := by
  have split := (List.perm_cons_erase member).count_eq other
  rw [List.count_cons] at split
  rw [List.count_cons, List.count_nil]
  omega

theorem Holds.dispatch {s : System} (holds : Holds history s) (task : Task) :
    Handled history s { s with calls := s.calls + 1, captured := ⟨s.calls, task⟩ :: s.captured }
      { silent with began := some ⟨s.calls, task⟩ } where
  counts := by
    intro job
    simp only [underWay, withCaller, silent, List.count_append, List.count_cons, List.count_nil, Option.map_none,
      Option.toList_none, Option.toList_some]
    omega
  numbers := by simp [holds.numbers, List.range_succ]
  tasks := holds.kept rfl rfl (by simp [entrustedTo, silent])
  room := holds.room
  whole := by simpa [silent] using holds.whole
  cleared := by simpa [silent] using holds.cleared
  staffed := holds.staffed
  living := fun fine _ => holds.living fine

theorem execute_queued {s : System} (sound : Sound s.completions) (job : Job) :
    Queued s (execute s job).1 (execute s job).2 := by
  unfold execute
  dsimp only
  split
  · apply Queued.same sound <;> rfl
  · split
    · apply Queued.same sound <;> rfl
    · apply Queued.same sound <;> rfl

theorem Holds.execute {s : System} (holds : Holds history s) {job : Job} (member : job ∈ s.captured) :
    Handled history s (execute s job).1 (execute s job).2 := by
  have taken := count_erase_cons member
  unfold CkartaDispatchPipeline.execute
  dsimp only
  split
  · refine holds.passed rfl rfl ?_ ?_
    · intro other
      have one := taken other
      simp only [withCaller, List.count_append, List.count_cons, List.count_nil] at one ⊢
      omega
    · exact fun _ nothing => nothing
  · rename_i shut
    split
    · rename_i absent
      refine holds.starts (by simpa using shut) absent rfl rfl ?_
      intro other
      have one := taken other
      simp only [withCaller, List.count_append] at one ⊢
      omega
    · rename_i present
      refine holds.passed rfl rfl ?_ ?_
      · intro other
        have one := taken other
        simp only [withCaller, List.count_append, List.count_cons, List.count_nil] at one ⊢
        omega
      · exact fun absent => absurd absent present

theorem offer_queued {s : System} (sound : Sound s.completions) (job : Job) :
    Queued s (offer s job).1 (offer s job).2 := by
  unfold offer
  dsimp only
  split
  · apply Queued.same sound <;> rfl
  · apply Queued.same sound <;> rfl

theorem Holds.offer {s : System} (holds : Holds history s) {job : Job} (member : job ∈ s.offering) :
    Handled history s (offer s job).1 (offer s job).2 := by
  have taken := count_erase_cons member
  unfold CkartaDispatchPipeline.offer
  dsimp only
  split
  · rename_i place
    exact {
      counts := by
        intro other
        have one := taken other
        simp only [underWay, withCaller, silent, List.count_append, List.count_cons, List.count_nil,
          Option.map_none, Option.toList_none] at one ⊢
        omega
      numbers := by simpa [silent] using holds.numbers
      tasks := by simpa [entrusted, entrustedTo, silent] using holds.tasks.append [job]
      room := by
        rw [List.length_append, List.length_singleton]
        exact place
      whole := by simpa [silent] using holds.whole
      cleared := by simpa [silent] using holds.cleared
      staffed := by
        intro absent
        exact .inr ((holds.staffed absent).resolve_left fun nothing => by simp [nothing.1] at member)
      living := fun fine _ => holds.living fine }
  · refine holds.passed rfl rfl ?_ ?_
    · intro other
      have one := taken other
      simp only [withCaller, List.count_append, List.count_cons, List.count_nil] at one ⊢
      omega
    · intro _ nothing
      simp [nothing]

theorem addWorkerWith_queued {s : System} (sound : Sound s.completions) (job : Job) :
    Queued s (addWorkerWith s job).1 (addWorkerWith s job).2 := by
  unfold addWorkerWith
  dsimp only
  split
  · apply Queued.same sound <;> rfl
  · apply Queued.same sound <;> rfl

theorem Holds.addWorkerWith {s : System} (holds : Holds history s) {job : Job} (member : job ∈ s.unplaced) :
    Handled history s (addWorkerWith s job).1 (addWorkerWith s job).2 := by
  have taken := count_erase_cons member
  unfold CkartaDispatchPipeline.addWorkerWith
  dsimp only
  split
  · rename_i free
    refine holds.starts free.1 free.2 rfl rfl ?_
    intro other
    have one := taken other
    simp only [withCaller, List.count_append] at one ⊢
    omega
  · refine holds.passed rfl rfl ?_ ?_
    · intro other
      have one := taken other
      simp only [withCaller, List.count_append, List.count_cons, List.count_nil] at one ⊢
      omega
    · exact fun _ nothing => nothing

theorem recheck_queued {s : System} (sound : Sound s.completions) (job : Job) :
    Queued s (recheck s job).1 (recheck s job).2 := by
  unfold recheck
  dsimp only
  split
  · apply Queued.same sound <;> rfl
  · apply Queued.same sound <;> rfl

theorem addWorker_jobs (pool : Pool) : (addWorker pool).jobs = pool.worker.jobs := by
  unfold addWorker
  split
  · rename_i started
    rw [started.1]
    rfl
  · rfl

theorem addWorker_absent {pool : Pool} (absent : addWorker pool = .absent) : pool.shut = true := by
  unfold addWorker at absent
  split at absent
  · cases absent
  · rename_i kept
    simp only [absent, true_and, not_not] at kept
    exact kept.1

theorem Holds.waiting {s : System} (holds : Holds history s) {job : Job} (member : job ∈ s.pool.queue) :
    job ∉ finishedJobs history ∧ job ∉ s.pool.worker.jobs ∧ job ∉ droppedJobs history := by
  have numbered : (begun history).Nodup := by
    apply List.Nodup.of_map Job.call
    rw [holds.numbers]
    exact List.nodup_range
  have once : (begun history).count job ≤ 1 := List.nodup_iff_count_le_one.mp numbered job
  have here : 0 < s.pool.queue.count job := List.count_pos_iff.mpr member
  have counts := holds.counts job
  simp only [underWay, settled, List.count_append] at counts
  refine ⟨?_, ?_, ?_⟩ <;> rw [← List.count_eq_zero] <;> omega

theorem Holds.withdraw {s : System} (holds : Holds history s) {job : Job} (member : job ∈ s.pool.queue) :
    Handled history s { s with
        rechecking := s.rechecking.erase job
        rejected := job :: s.rejected
        pool := { s.pool with queue := s.pool.queue.erase job } } { silent with withdrawn := some job } where
  counts := by
    intro other
    have one := count_erase_cons member other
    simp only [underWay, withCaller, silent, List.count_append, List.count_cons, List.count_nil, Option.map_none,
      Option.toList_none] at one ⊢
    omega
  numbers := by simpa [silent] using holds.numbers
  tasks := by
    obtain ⟨finished, running, dropped⟩ := holds.waiting member
    have tasks := holds.tasks.erase job
    rw [entrustedTo, List.erase_append_right _ (by simp [finished, running, dropped])] at tasks
    simpa [entrusted, silent] using tasks
  room := Nat.le_trans (List.length_erase_le) holds.room
  whole := by simpa [silent] using holds.whole
  cleared := by simpa [silent] using holds.cleared
  staffed := by
    intro absent
    exact .inr ((holds.staffed absent).resolve_left fun nothing => by simp [nothing.2] at member)
  living := fun fine _ => holds.living fine

theorem Holds.recheck {s : System} (holds : Holds history s) (job : Job) :
    Handled history s (recheck s job).1 (recheck s job).2 := by
  unfold CkartaDispatchPipeline.recheck
  dsimp only
  split
  · rename_i shut
    exact holds.withdraw shut.2
  · exact holds.repooled rfl rfl (addWorker_jobs s.pool) rfl id id
      (fun absent => .inr (.inr (@addWorker_absent s.pool absent))) id

theorem Holds.replace {s : System} (holds : Holds history s) :
    Handled history s
      { s with pool := { s.pool with worker := addWorker s.pool, dying := s.pool.dying - 1 } } silent := by
  refine holds.repooled rfl rfl (addWorker_jobs s.pool) rfl id id ?_ ?_
  · exact fun absent => .inr (.inr (@addWorker_absent s.pool absent))
  · rintro (none | shut)
    · exact .inl (by simp [none])
    · exact .inr shut

theorem Published.queued {s t : System} {task : Task} {outcome : Int × Int} {result : Int}
    (published : Published s.completions t.completions (completionOf task outcome.1 outcome.2) result)
    (unpopped : answer.popped = none)
    (taken : acceptedBy answer = if result = 0 then [completionOf task outcome.1 outcome.2] else []) :
    Queued s t answer := by
  refine ⟨published.sound, ?_⟩
  rw [unpopped, taken]
  by_cases zero : result = 0
  · rw [if_pos zero]
    exact published.stored zero
  · rw [if_neg zero, List.append_nil]
    exact published.kept zero

theorem Holds.reject {s : System} (holds : Holds history s) {job : Job} (member : job ∈ s.rejected) (result : Int)
    (queue : CompletionQueue) :
    Handled history s { s with completions := queue, rejected := s.rejected.erase job }
      { silent with refused := some (job, result) } where
  counts := by
    intro other
    have one := count_erase_cons member other
    simp only [underWay, withCaller, silent, List.count_append, List.count_cons, List.count_nil, Option.map_none,
      Option.map_some, Option.toList_none, Option.toList_some] at one ⊢
    omega
  numbers := by simpa [silent] using holds.numbers
  tasks := holds.kept rfl rfl (by simp [entrustedTo, silent])
  room := holds.room
  whole := by simpa [silent] using holds.whole
  cleared := by simpa [silent] using holds.cleared
  staffed := holds.staffed
  living := fun fine _ => holds.living fine

theorem poolAfter_kept (pool : Pool) (result : Int) : (poolAfter pool result).worker.jobs = [] ∧
    (poolAfter pool result).queue = pool.queue ∧ (poolAfter pool result).shut = pool.shut ∧
    (poolAfter pool result).stopped = pool.stopped := by
  unfold poolAfter
  split <;> exact ⟨rfl, rfl, rfl, rfl⟩

theorem Holds.publish {s : System} (holds : Holds history s) {job : Job} (busy : s.pool.worker = .busy job)
    (result : Int) (queue : CompletionQueue) :
    Handled history s { s with completions := queue, pool := poolAfter s.pool result }
      { silent with finished := some (job, result) } := by
  obtain ⟨jobs, waiting, shut, stopped⟩ := poolAfter_kept s.pool result
  exact {
    counts := by
      intro other
      simp only [underWay, withCaller, silent, jobs, waiting, busy, busy_jobs, List.count_append, List.count_cons,
        List.count_nil, Option.map_none, Option.map_some, Option.toList_none, Option.toList_some]
      omega
    numbers := by simpa [silent] using holds.numbers
    tasks := holds.kept rfl rfl (by simp [entrustedTo, silent, jobs, waiting, busy])
    room := by
      dsimp only
      rw [waiting]
      exact holds.room
    whole := by
      intro opened
      dsimp only at opened
      rw [shut] at opened
      simpa [silent] using holds.whole opened
    cleared := by
      dsimp only
      rw [stopped]
      simpa [silent] using holds.cleared
    staffed := by
      intro absent
      dsimp only at absent ⊢
      unfold poolAfter at absent ⊢
      split at absent
      · rename_i thrown
        rw [if_pos thrown]
        exact .inr (.inl (Nat.succ_ne_zero _))
      · cases absent
    living := by
      intro fine lives
      dsimp only
      unfold poolAfter
      split
      · rename_i thrown
        exact absurd ⟨job, result, rfl, thrown⟩ lives
      · exact holds.living fine }

theorem Holds.take {s : System} (holds : Holds history s) {job : Job} {rest : List Job}
    (idle : s.pool.worker = .idle) (next : s.pool.queue = job :: rest) (runs : s.pool.stopped ≠ true) :
    Handled history s { s with pool := { s.pool with worker := .busy job, queue := rest } } silent where
  counts := by
    intro other
    simp only [underWay, withCaller, silent, idle, next, busy_jobs, idle_jobs, List.count_append, List.count_cons,
      List.count_nil, Option.map_none, Option.toList_none]
    omega
  numbers := by simpa [silent] using holds.numbers
  tasks := holds.kept rfl rfl (by simp [entrustedTo, silent, idle, next, holds.cleared.resolve_right runs])
  room := by
    have room := holds.room
    rw [next, List.length_cons] at room
    dsimp only
    omega
  whole := by simpa [silent] using holds.whole
  cleared := .inl (by simpa [silent] using holds.cleared.resolve_right runs)
  staffed := fun busy => by cases busy
  living := fun fine _ => holds.living fine

theorem Holds.leave {s : System} (holds : Holds history s) (idle : s.pool.worker = .idle)
    (shut : s.pool.shut = true) :
    Handled history s { s with pool := { s.pool with worker := .absent, dying := s.pool.dying + 1 } } silent :=
  holds.repooled rfl rfl (by simp [idle]) rfl id id (fun _ => .inr (.inr shut)) fun _ => .inr shut

theorem Holds.terminate {s : System} (holds : Holds history s) :
    Handled history s { s with pool := { s.pool with stopped := true } } silent :=
  holds.repooled rfl rfl rfl rfl id (fun _ => rfl) holds.staffed id

theorem Holds.shutdown {s : System} (holds : Holds history s) :
    Handled history s { s with pool := { s.pool with shut := true } } silent :=
  holds.repooled rfl rfl rfl rfl nofun id (fun _ => .inr (.inr rfl)) fun _ => .inr rfl

theorem Holds.shutdownNow {s : System} (holds : Holds history s) (shut : s.pool.shut = true) :
    Handled history s { s with pool := { s.pool with queue := [], stopped := true } }
      { silent with dropped := s.pool.queue } where
  counts := by
    intro other
    simp only [underWay, withCaller, silent, List.count_append, List.count_nil, Option.map_none, Option.toList_none]
    omega
  numbers := by simpa [silent] using holds.numbers
  tasks := holds.kept rfl rfl (by simp [entrustedTo, silent])
  room := Nat.zero_le _
  whole := by
    intro opened
    rw [shut] at opened
    cases opened
  cleared := .inr rfl
  staffed := fun _ => .inr (.inr shut)
  living := fun _ _ => .inr shut

theorem Holds.rejectStep {s t : System} {job : Job} {fault : Option Errno} (holds : Holds history s)
    (next : step s (.reject job fault) = some (t, answer)) : Handled history s t answer ∧ Queued s t answer := by
  simp only [step, Option.ite_none_right_eq_some] at next
  obtain ⟨member, next⟩ := next
  rcases publishFor_cases holds.sound job.task rejection fault with waits | ⟨result, queue, returns, published⟩
  · rw [waits] at next
    obtain ⟨rfl, rfl⟩ := Prod.mk.inj (Option.some.inj next)
    exact ⟨holds.unhandled rfl rfl rfl rfl rfl rfl rfl rfl rfl rfl, .same holds.sound rfl rfl rfl rfl⟩
  · rw [returns] at next
    obtain ⟨rfl, rfl⟩ := Prod.mk.inj (Option.some.inj next)
    exact ⟨holds.reject member result queue, Published.queued published rfl (by simp [acceptedBy, queued, silent])⟩

theorem Holds.publishStep {s t : System} {fault : Option Errno} (holds : Holds history s)
    (next : step s (.publish fault) = some (t, answer)) : Handled history s t answer ∧ Queued s t answer := by
  simp only [step] at next
  split at next
  · rename_i job busy
    rcases publishFor_cases holds.sound job.task (runTask job.task) fault with
      waits | ⟨result, queue, returns, published⟩
    · rw [waits] at next
      obtain ⟨rfl, rfl⟩ := Prod.mk.inj (Option.some.inj next)
      exact ⟨holds.unhandled rfl rfl rfl rfl rfl rfl rfl rfl rfl rfl, .same holds.sound rfl rfl rfl rfl⟩
    · rw [returns] at next
      obtain ⟨rfl, rfl⟩ := Prod.mk.inj (Option.some.inj next)
      exact ⟨holds.publish busy result queue, Published.queued published rfl (by simp [acceptedBy, queued, silent])⟩
  · cases next

theorem Holds.made {s t : System} {made : System × Answer} (holds : Holds history s)
    (handled : Handled history s made.1 made.2) (moves : Queued s made.1 made.2) (next : made = (t, answer)) :
    Holds (history ++ [(move, answer)]) t := by
  rw [next] at handled moves
  exact holds.snoc handled moves

theorem Holds.step {s t : System} (holds : Holds history s) (next : step s move = some (t, answer)) :
    Holds (history ++ [(move, answer)]) t := by
  have quiet : ∀ {u : System}, withCaller u = withCaller s → u.offering = s.offering → u.pool = s.pool →
      u.calls = s.calls → Handled history s u silent := by
    intro u callers offering pool calls
    exact holds.unhandled callers offering pool calls rfl rfl rfl rfl rfl rfl
  cases move with
  | dispatch task =>
    simp only [CkartaDispatchPipeline.step] at next
    split at next
    · obtain ⟨rfl, rfl⟩ := Prod.mk.inj (Option.some.inj next)
      exact holds.snoc (quiet rfl rfl rfl rfl) (.same holds.sound rfl rfl rfl rfl)
    · obtain ⟨rfl, rfl⟩ := Prod.mk.inj (Option.some.inj next)
      exact holds.snoc (holds.dispatch task) (.same holds.sound rfl rfl rfl rfl)
  | execute job =>
    simp only [CkartaDispatchPipeline.step, Option.ite_none_right_eq_some, Option.some.injEq] at next
    obtain ⟨member, next⟩ := next
    exact holds.made (holds.execute member) (execute_queued holds.sound job) next
  | offer job =>
    simp only [CkartaDispatchPipeline.step, Option.ite_none_right_eq_some, Option.some.injEq] at next
    obtain ⟨member, next⟩ := next
    exact holds.made (holds.offer member) (offer_queued holds.sound job) next
  | addWorker job =>
    simp only [CkartaDispatchPipeline.step, Option.ite_none_right_eq_some, Option.some.injEq] at next
    obtain ⟨member, next⟩ := next
    exact holds.made (holds.addWorkerWith member) (addWorkerWith_queued holds.sound job) next
  | recheck job =>
    simp only [CkartaDispatchPipeline.step, Option.ite_none_right_eq_some, Option.some.injEq] at next
    exact holds.made (holds.recheck job) (recheck_queued holds.sound job) next.2
  | reject job fault =>
    obtain ⟨handled, moves⟩ := holds.rejectStep next
    exact holds.snoc handled moves
  | take =>
    simp only [CkartaDispatchPipeline.step] at next
    split at next
    · rename_i job rest idle queue
      simp only [Option.ite_none_left_eq_some, Option.some.injEq, Prod.mk.injEq] at next
      obtain ⟨runs, rfl, rfl⟩ := next
      exact holds.snoc (holds.take idle queue runs) (.same holds.sound rfl rfl rfl rfl)
    · cases next
  | publish fault =>
    obtain ⟨handled, moves⟩ := holds.publishStep next
    exact holds.snoc handled moves
  | replace =>
    simp only [CkartaDispatchPipeline.step, Option.ite_none_left_eq_some, Option.some.injEq, Prod.mk.injEq] at next
    obtain ⟨-, rfl, rfl⟩ := next
    exact holds.snoc holds.replace (.same holds.sound rfl rfl rfl rfl)
  | leave =>
    simp only [CkartaDispatchPipeline.step, Option.ite_none_right_eq_some, Option.some.injEq, Prod.mk.injEq] at next
    obtain ⟨⟨idle, shut, -⟩, rfl, rfl⟩ := next
    exact holds.snoc (holds.leave idle shut) (.same holds.sound rfl rfl rfl rfl)
  | terminate =>
    simp only [CkartaDispatchPipeline.step, Option.ite_none_right_eq_some, Option.some.injEq, Prod.mk.injEq] at next
    obtain ⟨-, rfl, rfl⟩ := next
    exact holds.snoc holds.terminate (.same holds.sound rfl rfl rfl rfl)
  | stop =>
    obtain ⟨rfl, rfl⟩ := Prod.mk.inj (Option.some.inj next)
    exact holds.snoc (quiet rfl rfl rfl rfl) (.same holds.sound rfl rfl rfl rfl)
  | shutdown =>
    simp only [CkartaDispatchPipeline.step, Option.ite_none_left_eq_some, Option.some.injEq, Prod.mk.injEq] at next
    obtain ⟨-, rfl, rfl⟩ := next
    exact holds.snoc holds.shutdown (.same holds.sound rfl rfl rfl rfl)
  | shutdownNow =>
    simp only [CkartaDispatchPipeline.step, Option.ite_none_right_eq_some, Option.some.injEq, Prod.mk.injEq] at next
    obtain ⟨shut, rfl, rfl⟩ := next
    exact holds.snoc (holds.shutdownNow shut) (.same holds.sound rfl rfl rfl rfl)
  | clearHandle =>
    simp only [CkartaDispatchPipeline.step, Option.ite_none_left_eq_some, Option.some.injEq, Prod.mk.injEq] at next
    obtain ⟨-, rfl, rfl⟩ := next
    exact holds.snoc (quiet rfl rfl rfl rfl) (.same holds.sound rfl rfl rfl rfl)
  | pop =>
    rcases pop_takes holds.sound with ⟨empty, -⟩ | ⟨record, queue, takes, taken, sound, -⟩
    · simp only [CkartaDispatchPipeline.step, empty, Option.some.injEq, Prod.mk.injEq] at next
      obtain ⟨rfl, rfl⟩ := next
      exact holds.snoc (quiet rfl rfl rfl rfl) (.same holds.sound rfl rfl rfl rfl)
    · simp only [CkartaDispatchPipeline.step, takes, Option.some.injEq, Prod.mk.injEq] at next
      obtain ⟨rfl, rfl⟩ := next
      exact holds.snoc (holds.unhandled rfl rfl rfl rfl rfl rfl rfl rfl rfl rfl)
        ⟨sound, by simp [acceptedBy, queued, silent, taken]⟩
  | close fault =>
    obtain ⟨rfl, rfl⟩ := Prod.mk.inj (Option.some.inj next)
    obtain ⟨same, -, sound⟩ := close_closes holds.sound fault
    exact holds.snoc (quiet rfl rfl rfl rfl) ⟨sound, by simpa [acceptedBy, queued, silent] using same⟩

end

theorem runs_hold {queueHandle : Int} {history : List (Move × Answer)} {s : System}
    (runs : Runs step (start queueHandle) history s) : Holds history s := by
  apply runs.invariant Holds
  · exact start_holds queueHandle
  · intro history s t move answer _ holds next
    exact holds.step next

/-- Every dispatch ends once: in every interleaving the begun calls of dispatchAsync are, each
    exactly once, either on their way or settled by one publication or by shutdownNow; and the
    completions that were popped or wait in the queue are, in order, those that the
    publications put there. -/
theorem dispatch_settled_once {queueHandle : Int} {history : List (Move × Answer)} {s : System}
    (runs : Runs step (start queueHandle) history s) :
    (underWay s ++ settled history).Perm (begun history) ∧ (underWay s ++ settled history).Nodup ∧
      (begun history).map Job.call = List.range s.calls ∧
      poppedRecords history ++ pending s.completions = accepted history := by
  have holds := runs_hold runs
  have same : (underWay s ++ settled history).Perm (begun history) := List.perm_iff_count.mpr holds.counts
  have distinct : (begun history).Nodup := by
    apply List.Nodup.of_map Job.call
    rw [holds.numbers]
    exact List.nodup_range
  exact ⟨same, same.nodup_iff.mpr distinct, holds.numbers, holds.fifo⟩

def sampleTask (requestHandle : Int) : Task := ⟨requestHandle, 5, 9, none, none⟩

/-- Two calls; the second task is still queued when the first completion is popped. -/
def sampleMoves : List Move :=
  [.dispatch (sampleTask 101), .dispatch (sampleTask 102), .execute ⟨0, sampleTask 101⟩,
    .execute ⟨1, sampleTask 102⟩, .offer ⟨1, sampleTask 102⟩, .recheck ⟨1, sampleTask 102⟩, .publish none,
    .pop]

def sampleRun : List (Move × Answer) × System :=
  (StepHistory.execute step (start 1) sampleMoves).getD ([], start 1)

theorem dispatch_settled_once_sample :
    underWay sampleRun.2 = [⟨1, sampleTask 102⟩] ∧ settled sampleRun.1 = [⟨0, sampleTask 101⟩] ∧
      ([⟨1, sampleTask 102⟩, ⟨0, sampleTask 101⟩] : List Job).Perm (begun sampleRun.1) := by
  have executed : StepHistory.execute step (start 1) sampleMoves = some (sampleRun.1, sampleRun.2) := rfl
  have moving : underWay sampleRun.2 = [⟨1, sampleTask 102⟩] := rfl
  have ended : settled sampleRun.1 = [⟨0, sampleTask 101⟩] := rfl
  have once := (dispatch_settled_once (execute_runs executed)).1
  rw [moving, ended] at once
  exact ⟨moving, ended, once⟩

/-- What makes a step turn a task away, or take it back. -/
structure TurnsAway (s t : System) (answer : Answer) : Prop where
  rejected : ∀ job ∈ t.rejected, job ∉ s.rejected →
    s.pool.shut = true ∨ (job ∈ s.unplaced ∧ s.pool.worker ≠ .absent)
  unplaced : ∀ job ∈ t.unplaced, job ∉ s.unplaced → s.pool.queue.length = 16
  withdrawn : answer.withdrawn ≠ none → s.pool.shut = true

theorem TurnsAway.same {s t : System} {answer : Answer} (rejected : t.rejected ⊆ s.rejected)
    (unplaced : t.unplaced ⊆ s.unplaced) (withdrawn : answer.withdrawn = none) : TurnsAway s t answer :=
  ⟨fun _ new old => absurd (rejected new) old, fun _ new old => absurd (unplaced new) old,
    fun back => absurd withdrawn back⟩

theorem execute_turns (s : System) (job : Job) : TurnsAway s (execute s job).1 (execute s job).2 := by
  unfold execute
  dsimp only
  split
  · rename_i shut
    exact ⟨fun _ _ _ => .inl shut, fun _ new old => absurd new old, fun _ => shut⟩
  · split
    · exact .same (List.Subset.refl _) (List.Subset.refl _) rfl
    · exact .same (List.Subset.refl _) (List.Subset.refl _) rfl

theorem offer_turns {s : System} (room : s.pool.queue.length ≤ executorQueueCapacity) (job : Job) :
    TurnsAway s (offer s job).1 (offer s job).2 := by
  unfold offer
  dsimp only
  split
  · exact .same (List.Subset.refl _) (List.Subset.refl _) rfl
  · rename_i full
    simp only [executorQueueCapacity] at full room
    exact ⟨fun _ new old => absurd new old, fun _ _ _ => by omega, fun back => absurd rfl back⟩

theorem addWorkerWith_turns {s : System} {job : Job} (member : job ∈ s.unplaced) :
    TurnsAway s (addWorkerWith s job).1 (addWorkerWith s job).2 := by
  unfold addWorkerWith
  dsimp only
  split
  · exact .same (List.Subset.refl _) (List.erase_subset) rfl
  · rename_i busy
    refine ⟨?_, fun _ new old => absurd (List.mem_of_mem_erase new) old, fun back => absurd rfl back⟩
    intro other new old
    obtain rfl := (List.mem_cons.mp new).resolve_right old
    cases shut : s.pool.shut with
    | true => exact .inl rfl
    | false => exact .inr ⟨member, fun absent => busy ⟨shut, absent⟩⟩

theorem recheck_turns (s : System) (job : Job) : TurnsAway s (recheck s job).1 (recheck s job).2 := by
  unfold recheck
  dsimp only
  split
  · rename_i shut
    exact ⟨fun _ _ _ => .inl shut.1, fun _ new old => absurd new old, fun _ => shut.1⟩
  · exact .same (List.Subset.refl _) (List.Subset.refl _) rfl

theorem step_turns {s t : System} {move : Move} {answer : Answer}
    (room : s.pool.queue.length ≤ executorQueueCapacity) (next : step s move = some (t, answer)) :
    TurnsAway s t answer := by
  have rests : ∀ {u : System} {told : Answer}, u.rejected = s.rejected → u.unplaced = s.unplaced →
      told.withdrawn = none → TurnsAway s u told := by
    intro u told rejected unplaced withdrawn
    exact .same (rejected ▸ List.Subset.refl _) (unplaced ▸ List.Subset.refl _) withdrawn
  cases move with
  | execute job =>
    simp only [step, Option.ite_none_right_eq_some, Option.some.injEq] at next
    have turns := execute_turns s job
    rwa [next.2] at turns
  | offer job =>
    simp only [step, Option.ite_none_right_eq_some, Option.some.injEq] at next
    have turns := offer_turns room job
    rwa [next.2] at turns
  | addWorker job =>
    simp only [step, Option.ite_none_right_eq_some, Option.some.injEq] at next
    have turns := addWorkerWith_turns next.1
    rwa [next.2] at turns
  | recheck job =>
    simp only [step, Option.ite_none_right_eq_some, Option.some.injEq] at next
    have turns := recheck_turns s job
    rwa [next.2] at turns
  | reject job fault =>
    simp only [step, Option.ite_none_right_eq_some] at next
    obtain ⟨-, next⟩ := next
    split at next
    · cases next
      exact rests rfl rfl rfl
    · cases next
      exact .same List.erase_subset (List.Subset.refl _) rfl
  | publish fault =>
    simp only [step] at next
    split at next
    · split at next <;> cases next <;> exact rests rfl rfl rfl
    · cases next
  | take =>
    simp only [step] at next
    split at next
    · split at next <;> cases next
      exact rests rfl rfl rfl
    · cases next
  | dispatch task | replace | leave | terminate | shutdown | shutdownNow | clearHandle =>
    simp only [step] at next
    split at next <;> cases next <;> exact rests rfl rfl rfl
  | stop | pop | close fault =>
    cases next
    exact rests rfl rfl rfl

/-- The executor keeps its tasks: those it took in and did not give back are those whose completion
    was published, the one that runs, those that shutdownNow dropped and those that wait (never
    more than sixteen), and in this order as long as no task throws. It turns a task away only
    when it is shut down, or has its thread and found sixteen waiting as the task was offered. -/
theorem executor_in_order {queueHandle : Int} {history : List (Move × Answer)} {s : System}
    (runs : Runs step (start queueHandle) history s) :
    (enrolled history).Perm (entrustedTo history s.pool) ∧
      (Unfailing history → enrolled history = entrustedTo history s.pool) ∧
      s.pool.queue.length ≤ 16 ∧
      ∀ {move : Move} {t : System} {answer : Answer}, step s move = some (t, answer) → TurnsAway s t answer := by
  have holds := runs_hold runs
  exact ⟨holds.tasks.same, holds.tasks.order, holds.room, fun next => step_turns holds.room next⟩

theorem executor_in_order_sample :
    enrolled sampleRun.1 = [⟨0, sampleTask 101⟩, ⟨1, sampleTask 102⟩] ∧
      finishedJobs sampleRun.1 = [⟨0, sampleTask 101⟩] ∧ sampleRun.2.pool.queue = [⟨1, sampleTask 102⟩] := by
  have executed : StepHistory.execute step (start 1) sampleMoves = some (sampleRun.1, sampleRun.2) := rfl
  have finished : finishedJobs sampleRun.1 = [⟨0, sampleTask 101⟩] := rfl
  have waiting : sampleRun.2.pool.queue = [⟨1, sampleTask 102⟩] := rfl
  have placed : entrustedTo sampleRun.1 sampleRun.2.pool = [⟨0, sampleTask 101⟩, ⟨1, sampleTask 102⟩] := rfl
  have unfailing : Unfailing sampleRun.1 := by
    have only : ∀ entry ∈ sampleRun.1, entry.2.finished = none ∨
        entry.2.finished = some (⟨0, sampleTask 101⟩, 0) := by decide +kernel
    rintro entry member ⟨job, result, published, wrong, -⟩
    rcases only entry member with none | done
    · simp [none] at published
    · simp only [done, Option.some.injEq, Prod.mk.injEq] at published
      exact wrong published.2.symm
  have order := (executor_in_order (execute_runs executed)).2.1 unfailing
  rw [placed] at order
  exact ⟨order, finished, waiting⟩

/-- A task that throws (its request id is 0) ends the thread, and before there is a new one the next
    call starts it with a task of its own, ahead of the one that waits. -/
def overtaking : List Move :=
  [.dispatch (sampleTask 0), .dispatch (sampleTask 102), .dispatch (sampleTask 103),
    .execute ⟨0, sampleTask 0⟩, .execute ⟨1, sampleTask 102⟩, .offer ⟨1, sampleTask 102⟩, .publish none,
    .execute ⟨2, sampleTask 103⟩, .replace]

example : (StepHistory.execute step (start 1) overtaking).map (fun run =>
    ((enrolled run.1).map Job.call, (entrustedTo run.1 run.2.pool).map Job.call)) =
      some ([0, 1, 2], [0, 2, 1]) := by
  decide +kernel

end CkartaDispatchPipeline
