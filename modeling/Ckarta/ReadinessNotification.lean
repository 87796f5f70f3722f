import Ckarta.ReadListenerCallbacks

/-!
Readiness of the source and the listener that waits for it. The ready callback is dropped
while waitingForData is unset or callbackScheduled is set, so every path that sets the one or
unsets the other has to look at the source again. isReady() and read() set waitingForData
after they asked the source and do not look again; the paths that find the end of the body
leave waitingForData set. Where neither happens, no readiness is lost.
-/
namespace CkartaReadinessNotification
open StepHistory ThreadStacks CkartaServletInputStream CkartaReadListenerCallbacks

variable {thread : Nat} {s t : Stream} {instr : Instr} {choice : Choice} {entry : Entry}
  {after code : List Instr} {event : Option Event}

def live (s : Stream) : Bool := s.listener.isSome && !s.closed && s.terminalError.isNone

/-- The listener was told to wait while the source is ready. -/
def stuck (s : Stream) : Bool := live s && s.waitingForData && s.source.ready

/-- No task is pending or running, no source callback and no application call is in progress. -/
def Quiescent (s : Running) : Prop :=
  s.shared.executor = ⟨0, 0, 0⟩ ∧ s.shared.source.owed = 0 ∧ ∀ code ∈ s.threads, code = []

/-- Code that will still look at waitingForData and the source, or have a task do so. -/
def rechecks : Instr → Nat
  | .dataClosed _ | .dataListener _ | .dataWaiting | .dataClaim | .submit .invokeDataAvailable
  | .finallyActive | .finallyPermit | .finallyScheduled | .finallyError | .finallyFinished
  | .finallyErrorAgain | .finallyWaiting | .finallyReady
  | .listenMode | .listenFinished | .listenReady | .listenWaiting _ _ | .listenInterest _ _
  | .listenErrorInterest _ _ | .listenFinishedAgain | .listenReadyAgain => 1
  | _ => 0

def waitingChecks (s : Stream) : Nat := s.source.owed + s.executor.invokeDataAvailable

/-- How many looks at the source are still to come. -/
def checks (s : Running) : Nat := waitingChecks s.shared + total rechecks s.threads

/-- The writes of isReady() and read() that tell the application to wait. -/
def tellsToWait : Instr → Bool
  | .isReadyWaiting false | .readBlockWaiting => true
  | _ => false

/-- The points that give up their look at the source because the body has ended. -/
def findsEnd (s : Stream) : Instr → Bool
  | .finallyFinished | .listenFinishedAgain => s.source.finished
  | .listenErrorInterest finished _ => finished
  | _ => false

/-- Nobody is told to wait on a ready source unless a look at it is still to come, and the
    end of the body is not found in place of the only look at a source that is waited for. -/
def timely (s : Running) : Move → Bool
  | .run thread _ =>
    match s.threads.getD thread [] with
    | instr :: _ =>
      (!tellsToWait instr || !live s.shared || !s.shared.source.ready || decide (0 < checks s)) &&
        (!findsEnd s.shared instr || !stuck s.shared || decide (1 < checks s))
    | [] => true
  | _ => true

/-- What an instruction that leaves the listener stuck does to the looks that are to come. -/
inductive Rechecks (s : Stream) (instr : Instr) (t : Stream) (after : List Instr) : Prop where
  | remains (before : stuck s = true) (same : waitingChecks s + rechecks instr ≤ waitingChecks t + weight rechecks after)
  | comes (some_ : 0 < waitingChecks t + weight rechecks after)
  | waits (told : tellsToWait instr = true) (before : live s = true) (ready : s.source.ready = true)
      (same : waitingChecks s + rechecks instr ≤ waitingChecks t + weight rechecks after)
  | ends (found : findsEnd s instr = true) (before : stuck s = true)
      (one : waitingChecks s + rechecks instr ≤ waitingChecks t + weight rechecks after + 1)
  | scheduled (claim : instr = .dataClaim) (flag : s.callbackScheduled = true)
      (same : waitingChecks s = waitingChecks t)

theorem exec_rechecks (executed : exec thread s instr choice = some (t, after, event)) (stays : stuck t = true) :
    Rechecks s instr t after := by
  cases instr with
  | isReadyWaiting ready =>
    obtain ⟨rfl, rfl, rfl⟩ := answers_eq.mp executed
    simp only [stuck, live, Bool.and_eq_true] at stays
    cases ready with
    | true => simp at stays
    | false => exact .waits rfl (by simp [live, stays.1.1]) stays.2 (by simp [waitingChecks, rechecks])
  | readBlockWaiting =>
    obtain ⟨rfl, rfl, rfl⟩ := goes_eq.mp executed
    simp only [stuck, live, Bool.and_eq_true] at stays
    exact .waits rfl (by simp [live, stays.1.1]) stays.2 (by simp [waitingChecks, rechecks])
  | listenErrorInterest finished ready =>
    obtain ⟨rfl, rfl, rfl⟩ := goes_eq.mp executed
    cases finished with
    | true => exact .ends rfl stays (by simp [waitingChecks, rechecks])
    | false => cases ready <;> exact .comes (by simp [scheduleDataAvailable, rechecks])
  | finallyFinished | listenFinishedAgain =>
    simp only [exec] at executed
    split at executed
    · rename_i found
      obtain ⟨rfl, rfl, rfl⟩ := goes_eq.mp executed
      exact .ends found stays (by simp [waitingChecks, rechecks])
    · obtain ⟨rfl, rfl, rfl⟩ := goes_eq.mp executed
      exact .comes (by simp [rechecks])
  | dataClaim =>
    simp only [exec] at executed
    split at executed
    · rename_i flag
      obtain ⟨rfl, rfl, rfl⟩ := goes_eq.mp executed
      exact .scheduled rfl flag rfl
    · obtain ⟨rfl, rfl, rfl⟩ := goes_eq.mp executed
      exact .comes (by simp [rechecks])
  | submit task =>
    obtain ⟨rfl, rfl, rfl⟩ := goes_eq.mp executed
    cases task with
    | invokeDataAvailable =>
      refine .comes ?_
      simp only [waitingChecks, Executor.execute, weight_nil]
      omega
    | onAllDataRead | onError => exact .remains stays (by simp [waitingChecks, Executor.execute, rechecks])
  | listenLock listener | invokeLock | lastLock | failLock | unlock =>
    obtain ⟨lock, -, executed⟩ := Option.bind_eq_some_iff.mp executed
    obtain ⟨rfl, rfl, rfl⟩ := goes_eq.mp executed
    exact .remains stays (by simp [waitingChecks, rechecks])
  | _ =>
    -- a look leads to the next one, or what it found rules out that the listener is stuck
    simp only [exec, readResult, scheduleDataAvailable, scheduleAllDataRead, scheduleError,
      notifyBodyError] at executed
    (repeat' split at executed) <;> first
      | (obtain ⟨rfl, rfl, rfl⟩ := goes_eq.mp executed)
      | (obtain ⟨rfl, rfl, rfl⟩ := answers_eq.mp executed)
      | cases executed
    all_goals first
      | (refine .comes ?_; simp [rechecks]; done)
      | (refine .remains stays ?_; simp [waitingChecks, rechecks]; done)
      | simp_all [stuck, live]

/-- What keeps callbackScheduled set: a task of scheduleDataAvailable up to its finally block. -/
def keepsScheduled : Instr → Nat
  | .submit .invokeDataAvailable | .finallyActive | .finallyPermit | .finallyScheduled => 1
  | _ => 0

def registering : Instr → Nat
  | .listenMode | .listenFinished | .listenReady | .listenWaiting _ _ | .listenInterest _ _ => 1
  | _ => 0

theorem keepsScheduled_le (instr : Instr) : keepsScheduled instr ≤ rechecks instr := by
  cases instr with
  | submit task => cases task <;> simp [keepsScheduled, rechecks]
  | _ => simp [keepsScheduled, rechecks]

theorem registering_le (instr : Instr) : registering instr ≤ rechecks instr := by
  cases instr <;> simp [registering, rechecks]

structure Keeps (s : Stream) (instr : Instr) (t : Stream) (after : List Instr) : Prop where
  scheduled : t.callbackScheduled.toNat + s.executor.invokeDataAvailable + keepsScheduled instr =
      s.callbackScheduled.toNat + t.executor.invokeDataAvailable + weight keepsScheduled after ∨
    t.callbackScheduled = false ∧ t.executor.invokeDataAvailable = s.executor.invokeDataAvailable ∧
      keepsScheduled instr = 1 ∧ weight keepsScheduled after = 0
  registered : t.listener.isSome = true → t.source.readInterest = true ∨ 0 < weight registering after ∨
    s.listener.isSome = true ∧ s.source.readInterest = t.source.readInterest ∧ registering instr = 0

theorem Keeps.quiet (flag : t.callbackScheduled = s.callbackScheduled) (executor : t.executor = s.executor)
    (listener : t.listener = s.listener) (source : t.source = s.source)
    (holds : weight keepsScheduled after = keepsScheduled instr)
    (goesOn : registering instr ≤ weight registering after) : Keeps s instr t after where
  scheduled := by
    rw [flag, executor, holds]
    exact .inl rfl
  registered set := by
    rw [listener] at set
    by_cases some_ : 0 < weight registering after
    · exact .inr (.inl some_)
    · exact .inr (.inr ⟨set, by rw [source], by omega⟩)

theorem exec_keeps (executed : exec thread s instr choice = some (t, after, event)) : Keeps s instr t after := by
  cases instr with
  | listenLock listener | invokeLock | lastLock | failLock | unlock =>
    obtain ⟨lock, -, executed⟩ := Option.bind_eq_some_iff.mp executed
    obtain ⟨rfl, rfl, rfl⟩ := goes_eq.mp executed
    exact .quiet rfl rfl rfl rfl (by simp [keepsScheduled]) (by simp [registering])
  | listenSet listener =>
    simp only [exec] at executed
    split at executed
    · obtain ⟨rfl, rfl, rfl⟩ := answers_eq.mp executed
      exact .quiet rfl rfl rfl rfl rfl (by simp [registering])
    · obtain ⟨rfl, rfl, rfl⟩ := goes_eq.mp executed
      exact ⟨.inl (by simp [keepsScheduled]), fun _ => .inr (.inl (by simp [registering]))⟩
  | listenInterest finished ready =>
    obtain ⟨rfl, rfl, rfl⟩ := goes_eq.mp executed
    exact ⟨.inl (by simp [keepsScheduled]), fun _ => .inl rfl⟩
  | listenErrorInterest finished ready =>
    obtain ⟨rfl, rfl, rfl⟩ := goes_eq.mp executed
    refine ⟨.inl ?_, fun set => .inr (.inr ⟨set, rfl, rfl⟩)⟩
    cases finished <;> cases ready <;>
      simp [keepsScheduled, scheduleDataAvailable, scheduleAllDataRead]
  | dataClaim =>
    simp only [exec] at executed
    split at executed
    · obtain ⟨rfl, rfl, rfl⟩ := goes_eq.mp executed
      exact .quiet rfl rfl rfl rfl rfl (by simp [registering])
    · rename_i unclaimed
      obtain ⟨rfl, rfl, rfl⟩ := goes_eq.mp executed
      refine ⟨.inl ?_, fun set => .inr (.inr ⟨set, rfl, rfl⟩)⟩
      simp [keepsScheduled, unclaimed]
      omega
  | submit task =>
    obtain ⟨rfl, rfl, rfl⟩ := goes_eq.mp executed
    refine ⟨.inl ?_, fun set => .inr (.inr ⟨set, rfl, rfl⟩)⟩
    cases task with
    | invokeDataAvailable =>
      simp only [Executor.execute, keepsScheduled, weight_nil]
      omega
    | onAllDataRead | onError => simp [Executor.execute, keepsScheduled]
  | finallyScheduled =>
    obtain ⟨rfl, rfl, rfl⟩ := goes_eq.mp executed
    exact ⟨.inr ⟨rfl, rfl, rfl, rfl⟩, fun set => .inr (.inr ⟨set, rfl, rfl⟩)⟩
  | storeError error =>
    simp only [exec] at executed
    split at executed
    · obtain ⟨rfl, rfl, rfl⟩ := goes_eq.mp executed
      exact .quiet rfl rfl rfl rfl rfl (by simp [registering])
    · cases executed
      exact .quiet rfl rfl rfl rfl rfl (by simp [registering])
  | _ =>
    simp only [exec, readResult, scheduleDataAvailable, scheduleAllDataRead, notifyBodyError] at executed
    (repeat' split at executed) <;> first
      | (obtain ⟨rfl, rfl, rfl⟩ := goes_eq.mp executed)
      | (obtain ⟨rfl, rfl, rfl⟩ := answers_eq.mp executed)
      | cases executed
    all_goals exact .quiet rfl rfl rfl rfl (by simp [keepsScheduled]) (by simp [registering])

structure KeepsOn (s t : Stream) (code : List Instr) : Prop where
  checks : waitingChecks t + weight rechecks code = waitingChecks s
  same : stuck t = stuck s
  flag : t.callbackScheduled = s.callbackScheduled
  scheduled : t.executor.invokeDataAvailable + weight keepsScheduled code = s.executor.invokeDataAvailable
  listener : t.listener = s.listener
  interest : t.source.readInterest = s.source.readInterest

theorem enter_keepsOn (entered : enter s entry = some (t, code, event)) : KeepsOn s t code := by
  rcases enter_cases entered with ⟨task, left, before, rfl, rfl, rfl⟩ | ⟨others, owes, rfl, rfl, rfl⟩ |
    ⟨rfl, rfl, answer, rfl⟩ | ⟨rfl, first, opens, rfl, rfl⟩
  · cases task <;> constructor <;>
      simp [before, Executor.execute, Task.code, invokeDataAvailable, waitingChecks, rechecks, keepsScheduled, stuck,
        live, Nat.add_assoc]
  · constructor <;> simp [scheduleDataAvailable, waitingChecks, rechecks, keepsScheduled, stuck, live, owes]
    omega
  · constructor <;> simp
  · cases opens <;> constructor <;> simp [rechecks, keepsScheduled]

/-- In every run a set callbackScheduled belongs to one task, a registered listener reaches
    the source, and whoever waits for a ready source has a look at it still to come. -/
structure Watched (s : Running) : Prop where
  scheduled : s.shared.executor.invokeDataAvailable + total keepsScheduled s.threads =
    s.shared.callbackScheduled.toNat
  registered : s.shared.listener.isSome = true →
    s.shared.source.readInterest = true ∨ 0 < total registering s.threads
  checked : stuck s.shared = true → 0 < checks s

theorem Watched.scheduled_checks {s : Running} (watched : Watched s) (flag : s.shared.callbackScheduled = true) :
    0 < s.shared.executor.invokeDataAvailable + total keepsScheduled s.threads := by
  rw [watched.scheduled, flag]
  exact Nat.zero_lt_one

theorem changes_owed (source : BodySource) (change : SourceChange) :
    (source.changes change).readInterest = source.readInterest ∧ source.owed ≤ (source.changes change).owed ∧
      ((source.changes change).ready = true → source.ready = true ∨ source.readInterest = false ∨
        0 < (source.changes change).owed) := by
  cases change with
  | ready ready =>
    simp only [BodySource.changes]
    split
    · unfold BodySource.callsBack
      by_cases interest : source.readInterest = true
      · simp [interest]
      · simp [interest]
    · rename_i unchanged
      refine ⟨rfl, Nat.le_refl _, fun becomes => .inl ?_⟩
      have is_ready : ready = true := becomes
      simpa [is_ready] using unchanged
  | finished finished => exact ⟨rfl, Nat.le_refl _, .inl⟩
  | repeats =>
    simp only [BodySource.changes, BodySource.callsBack]
    split
    · exact ⟨rfl, Nat.le_succ _, .inl⟩
    · exact ⟨rfl, Nat.le_refl _, .inl⟩

theorem changes_watched {s : Running} (watched : Watched s) (change : SourceChange) :
    Watched ⟨{ s.shared with source := s.shared.source.changes change }, s.threads⟩ := by
  obtain ⟨interest, more, owes⟩ := changes_owed s.shared.source change
  refine ⟨watched.scheduled, ?_, ?_⟩
  · rw [interest]
    exact watched.registered
  · intro stays
    simp only [stuck, live, Bool.and_eq_true] at stays
    obtain ⟨⟨⟨⟨set, open_⟩, unset⟩, waits⟩, becomes⟩ := stays
    unfold checks waitingChecks
    rcases owes becomes with before | unregistered | owed
    · have some_ := watched.checked (by simp_all [stuck, live])
      unfold checks waitingChecks at some_
      dsimp only
      omega
    · rcases watched.registered set with registered | some_
      · rw [unregistered] at registered
        cases registered
      · have below := total_mono registering_le s.threads
        dsimp only
        omega
    · dsimp only
      omega

theorem run_watched {s t : Running} {thread : Nat} {choice : Choice} {instr : Instr} {rest after : List Instr}
    {event : Option Event} (watched : Watched s) (meets : timely s (.run thread choice) = true)
    (found : s.threads[thread]? = some (instr :: rest))
    (executed : exec thread s.shared instr choice = some (t.shared, after, event))
    (threads : t.threads = s.threads.set thread (after ++ rest)) : Watched t := by
  have keeps := exec_keeps executed
  refine ⟨?_, ?_, ?_⟩
  · have moved := total_run keepsScheduled after found
    have before := watched.scheduled
    have bound := weight_le_total keepsScheduled found
    rw [weight_cons] at bound
    rw [threads]
    rcases keeps.scheduled with balance | ⟨unset, same, one, none_⟩
    · omega
    · have flag := Bool.toNat_le s.shared.callbackScheduled
      rw [unset]
      simp only [Bool.toNat_false]
      omega
  · intro set
    have moved := total_run registering after found
    rw [threads]
    rcases keeps.registered set with interest | some_ | ⟨before, same, none_⟩
    · exact .inl interest
    · have bound := weight_le_total registering found
      rw [weight_cons] at bound
      exact .inr (by omega)
    · rcases watched.registered before with interest | some_
      · exact .inl (same ▸ interest)
      · exact .inr (by omega)
  · intro stays
    have moved := total_run rechecks after found
    have bound := weight_le_total rechecks found
    rw [weight_cons] at bound
    simp only [timely, getD_of_found found, Bool.and_eq_true, Bool.or_eq_true, Bool.not_eq_true', decide_eq_true_eq] at meets
    unfold checks
    rw [threads]
    have checked := watched.checked
    unfold checks at checked meets
    cases exec_rechecks executed stays with
    | remains before same =>
      have some_ := checked before
      omega
    | comes some_ => omega
    | waits told before ready same =>
      have some_ : 0 < waitingChecks s.shared + total rechecks s.threads := by
        simpa [told, before, ready] using meets.1
      omega
    | ends ended before one =>
      have others : 1 < waitingChecks s.shared + total rechecks s.threads := by
        simpa [ended, before] using meets.2
      omega
    | scheduled claim flag same =>
      -- the task that keeps callbackScheduled set has its own look to come
      subst claim
      have kept := total_run keepsScheduled after found
      have some_ := watched.scheduled_checks flag
      have below := total_mono keepsScheduled_le (s.threads.set thread (after ++ rest))
      simp only [keepsScheduled] at kept
      unfold waitingChecks at same ⊢
      omega

theorem step_watched {s t : Running} {move : Move} {event : Option Event} (watched : Watched s)
    (meets : timely s move = true) (next : step s move = some (t, event)) : Watched t := by
  rcases step_cases next with ⟨thread, choice, instr, rest, after, rfl, found, executed, threads⟩ |
    ⟨thread, entry, rest, code, -, found, entered, threads⟩ | ⟨-, shared, threads⟩ | ⟨change, -, shared, threads⟩
  · exact run_watched watched meets found executed threads
  · have keeps := enter_keepsOn entered
    refine ⟨?_, ?_, ?_⟩
    · have before := watched.scheduled
      have same := keeps.scheduled
      rw [threads, total_push keepsScheduled code found, keeps.flag]
      omega
    · intro set
      rw [keeps.listener] at set
      rw [threads, total_push registering code found, keeps.interest]
      exact (watched.registered set).imp_right fun some_ => Nat.lt_of_lt_of_le some_ (Nat.le_add_right _ _)
    · intro stays
      have before := watched.checked (keeps.same.symm.trans stays)
      have same := keeps.checks
      unfold checks at before ⊢
      rw [threads, total_push rechecks code found]
      omega
  · have same : t = ⟨s.shared, s.threads ++ [[]]⟩ := by rw [← shared, ← threads]
    rw [same]
    refine ⟨?_, ?_, ?_⟩
    · rw [total_spawn]
      exact watched.scheduled
    · rw [total_spawn]
      exact watched.registered
    · unfold checks
      rw [total_spawn]
      exact watched.checked
  · have same : t = ⟨{ s.shared with source := s.shared.source.changes change }, s.threads⟩ := by
      rw [← shared, ← threads]
    rw [same]
    exact changes_watched watched change

/-- In every run whose steps are timely, a quiescent stream with a registered listener, open
    and without error, never waits for a source that is ready. -/
theorem no_lost_readiness {asyncStarted ready finished : Bool} {history : List (Move × Option Event)} {s : Running}
    (runs : Runs (guarded timely step) (start asyncStarted ready finished) history s) (quiet : Quiescent s) :
    ¬ (s.shared.listener.isSome = true ∧ s.shared.closed = false ∧ s.shared.terminalError = none ∧
      s.shared.waitingForData = true ∧ s.shared.source.ready = true) := by
  rintro ⟨set, open_, unset, waits, is_ready⟩
  have watched : Watched s := by
    refine runs.invariant (fun _ s => Watched s) ?_ fun _ holds next =>
      step_watched holds (guarded_cases next).1 (guarded_cases next).2
    exact ⟨rfl, (fun set => by cases set), (fun stays => by cases stays)⟩
  have some_ := watched.checked (by simp [stuck, live, set, open_, unset, waits, is_ready])
  obtain ⟨executor, owed, idle⟩ := quiet
  simp [checks, waitingChecks, executor, owed, total_idle rechecks idle] at some_

/-- The body is read inside onDataAvailable; later the application asks isReady() outside of
    it, and the source becomes ready between the answer of the source and the write. -/
def raceMoves : List Move :=
  registration ++ dataCallback ++ [.enter 0 (.read 8)] ++ steps 0 4 ++
    [.run 0 (.reads (.data 8)), .run 0 .returns, .source (.ready false)] ++ steps 0 9 ++
    [.enter 0 .isReady] ++ steps 0 4 ++ [.source (.ready true), .enter 1 .readInterest] ++ steps 1 3 ++ steps 0 2

def raceRun : List (Move × Option Event) × Running :=
  (execute step (start true true false) raceMoves).getD ([], start true true false)

theorem readiness_lost :
    ¬ ∀ {asyncStarted ready finished : Bool} {history : List (Move × Option Event)} {s : Running},
      Runs step (start asyncStarted ready finished) history s → Quiescent s →
        ¬ (s.shared.listener.isSome = true ∧ s.shared.closed = false ∧ s.shared.terminalError = none ∧
          s.shared.waitingForData = true ∧ s.shared.source.ready = true) := by
  intro claimed
  have executed : execute step (start true true false) raceMoves = some (raceRun.1, raceRun.2) := rfl
  have quiet : Quiescent raceRun.2 := by
    unfold Quiescent
    decide +kernel
  exact claimed (execute_runs executed) quiet (by decide +kernel)

/-- The source becomes ready after isReady() told the application to wait. -/
def answeredMoves : List Move :=
  registration ++ dataCallback ++ [.enter 0 (.read 8)] ++ steps 0 4 ++
    [.run 0 (.reads (.data 8)), .run 0 .returns, .source (.ready false)] ++ steps 0 9 ++
    [.enter 0 .isReady] ++ steps 0 6 ++ [.source (.ready true), .enter 1 .readInterest] ++ steps 1 5 ++
    dataCallback ++ steps 0 9

def answeredRun : List (Move × Option Event) × Running :=
  (execute (guarded timely step) (start true true false) answeredMoves).getD ([], start true true false)

theorem no_lost_readiness_answered :
    Quiescent answeredRun.2 ∧ answeredRun.2.shared.source.ready = true ∧
      answeredRun.2.shared.waitingForData ≠ true ∧ starts .onDataAvailable answeredRun.1 = 2 := by
  have executed : execute (guarded timely step) (start true true false) answeredMoves =
    some (answeredRun.1, answeredRun.2) := rfl
  have quiet : Quiescent answeredRun.2 := by
    unfold Quiescent
    decide +kernel
  have is_ready : answeredRun.2.shared.source.ready = true := by decide +kernel
  refine ⟨quiet, is_ready, ?_, by decide +kernel⟩
  intro waits
  exact no_lost_readiness (execute_runs executed) quiet
    ⟨by decide +kernel, by decide +kernel, by decide +kernel, waits, is_ready⟩

end CkartaReadinessNotification
