import Ckarta.ReadListenerCallbacks

/-!
onAllDataRead as the last data callback. scheduleDataAvailable does not look at
allDataReadNotified, and only the EOF branch of read clears waitingForData before the end of
the body is announced, so a ready callback can queue onDataAvailable behind onAllDataRead.
Where the two claims never overlap, onAllDataRead comes last.
-/
namespace CkartaLastDataCallback
open StepHistory ThreadStacks CkartaServletInputStream CkartaReadListenerCallbacks

variable {thread : Nat} {s t : Stream} {instr : Instr} {choice : Choice} {entry : Entry}
  {after code : List Instr} {event : Option Event}

/-- No onDataAvailable follows an onAllDataRead. -/
def AllDataReadLast (history : List (Move × Option Event)) : Prop :=
  history.Pairwise fun earlier later =>
    begins earlier.2 = some .onAllDataRead → begins later.2 ≠ some .onDataAvailable

instance (history : List (Move × Option Event)) : Decidable (AllDataReadLast history) :=
  inferInstanceAs (Decidable (List.Pairwise _ history))

def dataDue : Instr → Nat
  | .submit .invokeDataAvailable | .invokeListener | .invokeClosed _ | .invokeError | .invokeWaiting
  | .invokeActive | .invokePermit | .invokeLock | .startListener | .startClosed _ | .startError _ => 1
  | _ => 0

def underWay (s : Running) : Nat := s.shared.executor.invokeDataAvailable + total dataDue s.threads

/-- scheduleDataAvailable wins its flag only while the end of the body is unannounced, and
    scheduleAllDataRead wins its own only while no call of onDataAvailable is under way. -/
def apart (s : Running) : Move → Bool
  | .run thread _ =>
    match s.threads.getD thread [] with
    | .dataClaim :: _ => s.shared.callbackScheduled || !s.shared.allDataReadNotified
    | .allClaim :: _ => s.shared.allDataReadNotified || underWay s == 0
    | _ => true
  | _ => true

structure DataAccounts (s : Stream) (instr : Instr) (t : Stream) (after : List Instr)
    (event : Option Event) : Prop where
  spends : instr ≠ .dataClaim ∨ s.callbackScheduled = true →
    t.executor.invokeDataAvailable + weight dataDue after ≤ s.executor.invokeDataAvailable + dataDue instr
  announces : instr ≠ .allClaim ∨ s.allDataReadNotified = true → t.allDataReadNotified = s.allDataReadNotified
  starts : begins event = some .onDataAvailable → dataDue instr = 1

theorem DataAccounts.quiet (silent : begins event ≠ some .onDataAvailable) (executor : t.executor = s.executor)
    (flag : t.allDataReadNotified = s.allDataReadNotified) (data : weight dataDue after ≤ dataDue instr) :
    DataAccounts s instr t after event where
  spends _ := by
    rw [executor]
    omega
  announces _ := flag
  starts began := absurd began silent

theorem exec_dataAccounts (executed : exec thread s instr choice = some (t, after, event)) :
    DataAccounts s instr t after event := by
  cases instr with
  | listenLock listener | invokeLock | lastLock | failLock | unlock =>
    obtain ⟨lock, -, executed⟩ := Option.bind_eq_some_iff.mp executed
    obtain ⟨rfl, rfl, rfl⟩ := goes_eq.mp executed
    exact .quiet (by simp [begins]) rfl rfl (by simp [dataDue])
  | submit task =>
    obtain ⟨rfl, rfl, rfl⟩ := goes_eq.mp executed
    cases task <;> constructor <;> simp [Executor.execute, dataDue, begins]
  | storeError error =>
    simp only [exec, scheduleError] at executed
    split at executed
    · obtain ⟨rfl, rfl, rfl⟩ := goes_eq.mp executed
      exact .quiet (by simp [begins]) rfl rfl (by simp [dataDue])
    · cases executed
      exact .quiet (by simp [begins]) rfl rfl (by simp [dataDue])
  | dataClaim | allClaim =>
    simp only [exec] at executed
    split at executed
    · obtain ⟨rfl, rfl, rfl⟩ := goes_eq.mp executed
      exact .quiet (by simp [begins]) rfl rfl (by simp)
    · rename_i unclaimed
      obtain ⟨rfl, rfl, rfl⟩ := goes_eq.mp executed
      constructor <;> simp [unclaimed, dataDue, begins]
  | startError current | lastError current =>
    simp only [exec] at executed
    split at executed
    · obtain ⟨rfl, rfl, rfl⟩ := goes_eq.mp executed
      exact .quiet (by simp [begins]) rfl rfl (by simp [dataDue])
    · cases executed
      constructor <;> simp [dataDue, begins]
  | failClosed current error =>
    simp only [exec] at executed
    split at executed
    · obtain ⟨rfl, rfl, rfl⟩ := goes_eq.mp executed
      exact .quiet (by simp [begins]) rfl rfl (by simp [dataDue])
    · split at executed
      · cases executed
        exact .quiet (by simp [begins]) rfl rfl (by simp [dataDue])
      · obtain ⟨rfl, rfl, rfl⟩ := goes_eq.mp executed
        exact .quiet (by simp [begins]) rfl rfl (by simp [dataDue])
  | _ =>
    simp only [exec, readResult, scheduleDataAvailable, scheduleAllDataRead, notifyBodyError] at executed
    (repeat' split at executed) <;> first
      | (obtain ⟨rfl, rfl, rfl⟩ := goes_eq.mp executed
         exact .quiet (by simp [begins]) rfl rfl (by simp [dataDue]))
      | (obtain ⟨rfl, rfl, rfl⟩ := answers_eq.mp executed
         exact .quiet (by simp [begins]) rfl rfl (by simp))
      | cases executed

theorem enter_data (entered : enter s entry = some (t, code, event)) :
    t.executor.invokeDataAvailable + weight dataDue code = s.executor.invokeDataAvailable := by
  rcases enter_cases entered with ⟨task, left, before, rfl, rfl, rfl⟩ | ⟨others, -, rfl, rfl, rfl⟩ |
    ⟨rfl, rfl, answer, rfl⟩ | ⟨rfl, first, opens, rfl, rfl⟩
  · cases task <;> simp [before, Executor.execute, Task.code, invokeDataAvailable, dataDue]
  · simp [scheduleDataAvailable, dataDue]
  · simp
  · cases opens <;> simp [dataDue]

/-- Once the end of the body is announced, no call of onDataAvailable is under way. -/
def Clear (s : Running) : Prop := s.shared.allDataReadNotified = true → underWay s = 0

theorem step_clear {s t : Running} {move : Move} {event : Option Event} (clear : Clear s)
    (meets : apart s move = true) (next : step s move = some (t, event)) : Clear t := by
  intro announced
  unfold underWay
  rcases step_cases next with ⟨thread, choice, instr, rest, after, rfl, found, executed, threads⟩ |
    ⟨thread, entry, rest, code, -, found, entered, threads⟩ | ⟨-, shared, threads⟩ | ⟨change, -, shared, threads⟩
  · have accounts := exec_dataAccounts executed
    have moved := total_run dataDue after found
    simp only [apart, getD_of_found found] at meets
    have none_ : underWay s = 0 ∧ (instr ≠ .dataClaim ∨ s.shared.callbackScheduled = true) := by
      by_cases data : instr = .dataClaim
      · subst data
        have same := accounts.announces (.inl (by simp))
        rw [announced] at same
        rw [← same] at meets
        exact ⟨clear same.symm, .inr (by simpa using meets)⟩
      · refine ⟨?_, .inl data⟩
        by_cases last : instr = .allClaim
        · subst last
          simp only [Bool.or_eq_true, beq_iff_eq] at meets
          exact meets.elim clear id
        · exact clear ((accounts.announces (.inl last)).symm.trans announced)
    have spent := accounts.spends none_.2
    have nothing := none_.1
    unfold underWay at nothing
    rw [threads]
    omega
  · have nothing := clear ((enter_enters entered).flags.1.symm.trans announced)
    have same := enter_data entered
    unfold underWay at nothing
    rw [threads, total_push dataDue code found]
    omega
  · rw [shared, threads, total_spawn]
    rw [shared] at announced
    exact clear announced
  · rw [shared, threads]
    rw [shared] at announced
    exact clear announced

theorem step_starts {s t : Running} {move : Move} {event : Option Event} (next : step s move = some (t, event))
    (began : begins event = some .onDataAvailable) : 0 < underWay s := by
  unfold underWay
  rcases step_cases next with ⟨thread, choice, instr, rest, after, -, found, executed, -⟩ |
    ⟨thread, entry, rest, code, -, -, entered, -⟩ | ⟨rfl, -, -⟩ | ⟨change, rfl, -, -⟩
  · have due := (exec_dataAccounts executed).starts began
    have bound := weight_le_total dataDue found
    rw [weight_cons] at bound
    omega
  · rw [(enter_enters entered).silent] at began
    cases began
  · cases began
  · cases began

section
variable {asyncStarted ready finished : Bool} {history : List (Move × Option Event)} {s : Running}

theorem clear (runs : Runs (guarded apart step) (start asyncStarted ready finished) history s) : Clear s := by
  refine runs.invariant (fun _ s => Clear s) (fun announced => by cases announced) ?_
  intro history s t move event _ holds next
  obtain ⟨meets, stepped⟩ := guarded_cases next
  exact step_clear holds meets stepped

theorem not_started (runs : Runs step (start asyncStarted ready finished) history s)
    (unannounced : s.shared.allDataReadNotified = false) :
    ∀ entry ∈ history, begins entry.2 ≠ some .onAllDataRead := by
  have paid := last_account runs
  rw [unannounced] at paid
  have none_ : starts .onAllDataRead history = 0 := Nat.le_zero.mp (Nat.le_trans (Nat.le_add_left _ _) paid)
  intro entry inside began
  exact absurd (decide_eq_true began) (by simpa using List.countP_eq_zero.mp none_ entry inside)

/-- In every run in which the two claims never overlap, onAllDataRead is the last data callback. -/
theorem all_data_read_last (runs : Runs (guarded apart step) (start asyncStarted ready finished) history s) :
    AllDataReadLast history := by
  refine runs.invariant (fun history _ => AllDataReadLast history) List.Pairwise.nil ?_
  intro history s t move event before holds next
  refine List.pairwise_append.mpr ⟨holds, List.pairwise_singleton _ _, ?_⟩
  intro earlier inside later now started began
  obtain rfl := List.mem_singleton.mp now
  have due := step_starts (guarded_cases next).2 began
  have unannounced : s.shared.allDataReadNotified = false := by
    cases flag : s.shared.allDataReadNotified with
    | false => rfl
    | true => exact absurd (clear before flag) (Nat.ne_of_gt due)
  exact not_started before.unguarded unannounced earlier inside started

end

/-- Inside onDataAvailable: a read of all there is, then isReady(), which answers false. -/
def readAndAsk : List Move :=
  [.enter 0 (.read 8)] ++ steps 0 4 ++ [.run 0 (.reads (.data 8)), .run 0 .returns, .source (.ready false),
    .enter 0 .isReady] ++ steps 0 6

/-- The body ends after the task gave callbackScheduled back; the task announces the end, and
    then the ready callback still finds waitingForData set. -/
def lateMoves : List Move :=
  registration ++ dataCallback ++ readAndAsk ++ steps 0 5 ++
    [.source (.finished true), .source (.ready true)] ++ steps 0 7 ++ [.enter 1 .readInterest] ++ steps 1 5 ++
    [.enter 0 (.task .onAllDataRead)] ++ steps 0 6 ++ dataCallback

def lateRun : List (Move × Option Event) × Running :=
  (execute step (start true true false) lateMoves).getD ([], start true true false)

theorem data_after_all_data_read :
    ¬ ∀ {asyncStarted ready finished : Bool} {history : List (Move × Option Event)} {s : Running},
      Runs step (start asyncStarted ready finished) history s → AllDataReadLast history := by
  intro claimed
  have executed : execute step (start true true false) lateMoves = some (lateRun.1, lateRun.2) := rfl
  exact absurd (claimed (execute_runs executed)) (by decide +kernel)

/-- The body ends inside onDataAvailable: the ready callback finds callbackScheduled set. -/
def endMoves : List Move :=
  registration ++ dataCallback ++ readAndAsk ++ [.source (.finished true), .source (.ready true),
    .enter 1 .readInterest] ++ steps 1 4 ++ steps 0 12 ++ [.enter 0 (.task .onAllDataRead)] ++ steps 0 4

def endRun : List (Move × Option Event) × Running :=
  (execute (guarded apart step) (start true true false) endMoves).getD ([], start true true false)

theorem all_data_read_last_end :
    starts .onDataAvailable endRun.1 = 1 ∧ starts .onAllDataRead endRun.1 = 1 ∧ AllDataReadLast endRun.1 := by
  have executed : execute (guarded apart step) (start true true false) endMoves = some (endRun.1, endRun.2) := rfl
  exact ⟨by decide +kernel, by decide +kernel, all_data_read_last (execute_runs executed)⟩

end CkartaLastDataCallback
