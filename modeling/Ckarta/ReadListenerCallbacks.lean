import Ckarta.ServletInputStream

/-!
The callbacks of a read listener, for every order of source events, application calls and
executor tasks on any threads. A task that may still call the listener is a token, and the
flag that was claimed for it pays for one; the lock is held as often as the code that a
thread has left says, so the callbacks of different threads exclude each other.
-/
namespace CkartaReadListenerCallbacks
open StepHistory ThreadStacks CkartaServletInputStream

variable {thread : Nat} {s t : Stream} {instr : Instr} {choice : Choice} {entry : Entry}
  {after code : List Instr} {event : Option Event}

inductive Callback where
  | onDataAvailable
  | onAllDataRead
  | onError
  deriving DecidableEq, Repr

def begins : Option Event → Option Callback
  | some (.onDataAvailable _) => some .onDataAvailable
  | some (.onAllDataRead _) => some .onAllDataRead
  | some (.onError _ _) => some .onError
  | _ => none

def starts (callback : Callback) (history : List (Move × Option Event)) : Nat :=
  history.countP fun entry => begins entry.2 = some callback

theorem starts_snoc (callback : Callback) (history : List (Move × Option Event)) (move : Move)
    (event : Option Event) :
    starts callback (history ++ [(move, event)]) =
      starts callback history + if begins event = some callback then 1 else 0 := by
  simp [starts, List.countP_append, List.countP_cons]

section
variable {pool claim : Stream → Nat} {due : Instr → Nat} {callback : Callback}

/-- What tasks of one kind may still start is paid for by the claim of their flag. -/
theorem account {asyncStarted ready finished : Bool} {history : List (Move × Option Event)} {s : Running}
    (runs : Runs step (start asyncStarted ready finished) history s)
    (nothing : pool (start asyncStarted ready finished).shared = 0)
    (executing : ∀ {thread s instr choice t after event}, exec thread s instr choice = some (t, after, event) →
      pool t + weight due after + (if begins event = some callback then 1 else 0) + claim s ≤
        pool s + due instr + claim t)
    (entering : ∀ {s entry t code event}, enter s entry = some (t, code, event) →
      begins event = none ∧ pool t + weight due code = pool s ∧ claim t = claim s)
    (apart : ∀ s source, pool { s with source := source } = pool s ∧ claim { s with source := source } = claim s) :
    pool s.shared + total due s.threads + starts callback history ≤ claim s.shared := by
  refine runs.invariant
    (fun history s => pool s.shared + total due s.threads + starts callback history ≤ claim s.shared) ?_ ?_
  · rw [nothing]
    exact Nat.zero_le _
  · intro history s t move event _ holds next
    rw [starts_snoc]
    rcases step_cases next with ⟨thread, choice, instr, rest, after, -, found, executed, threads⟩ |
      ⟨thread, entry, rest, code, -, found, entered, threads⟩ | ⟨rfl, shared, threads⟩ | ⟨change, rfl, shared, threads⟩
    · have paid := executing executed
      have moved := total_run due after found
      rw [threads]
      omega
    · obtain ⟨quiet, same, unclaimed⟩ := entering entered
      rw [threads, total_push due code found, quiet, unclaimed]
      simp only [reduceCtorEq, if_false]
      omega
    · rw [threads, total_spawn, shared]
      simpa [begins] using holds
    · rw [threads, shared, (apart _ _).1, (apart _ _).2]
      simpa [begins] using holds

end

def lastDue : Instr → Nat
  | .submit .onAllDataRead | .lastLock | .lastListener | .lastClosed _ | .lastError _ => 1
  | _ => 0

def failDue : Instr → Nat
  | .submit .onError | .failLock | .failListener | .failError _ | .failClosed _ _ => 1
  | _ => 0

def held : Instr → Nat
  | .startListener | .startClosed _ | .startError _ | .inDataAvailable
  | .lastListener | .lastClosed _ | .lastError _ | .inAllDataRead
  | .failListener | .failError _ | .failClosed _ _ | .inError | .unlock => 1
  | _ => 0

def depth (lock : Option (Nat × Nat)) (thread : Nat) : Nat :=
  match lock with
  | none => 0
  | some (owner, again) => if owner = thread then again + 1 else 0

theorem acquire_depth {lock : Option (Nat × Nat)} {taken : Nat × Nat} (acquired : acquire lock thread = some taken)
    (other : Nat) : depth (some taken) other = depth lock other + if other = thread then 1 else 0 := by
  unfold acquire at acquired
  cases lock with
  | none =>
    obtain rfl := Option.some.inj acquired
    simp [depth, eq_comm]
  | some pair =>
    obtain ⟨owner, again⟩ := pair
    simp only at acquired
    split at acquired
    · rename_i same
      obtain rfl := Option.some.inj acquired
      subst same
      by_cases here : owner = other
      · simp [depth, here]
      · simp [depth, here, Ne.symm here]
    · cases acquired

theorem release_depth {lock left : Option (Nat × Nat)} (released : release lock thread = some left)
    (other : Nat) : depth left other + (if other = thread then 1 else 0) = depth lock other := by
  unfold release at released
  cases lock with
  | none => cases released
  | some pair =>
    obtain ⟨owner, again⟩ := pair
    simp only at released
    split at released
    · rename_i same
      subst same
      cases again with
      | zero =>
        obtain rfl := Option.some.inj released
        simp [depth, eq_comm]
      | succ again =>
        obtain rfl := Option.some.inj released
        by_cases here : owner = other
        · simp [depth, here]
        · simp [depth, here, Ne.symm here]
    · cases released

def stored : Option Event → Option BodyError
  | some (.stored error) => some error
  | _ => none

/-- A task that is about to call onError has read the terminal error. -/
def Fits (s : Stream) : Instr → Prop
  | .failClosed _ (some error) => s.terminalError = some error
  | _ => True

structure Accounts (thread : Nat) (s : Stream) (instr : Instr) (t : Stream) (after : List Instr)
    (event : Option Event) : Prop where
  last : t.executor.onAllDataRead + weight lastDue after +
      (if begins event = some .onAllDataRead then 1 else 0) + s.allDataReadNotified.toNat ≤
    s.executor.onAllDataRead + lastDue instr + t.allDataReadNotified.toNat
  fail : t.executor.onError + weight failDue after +
      (if begins event = some .onError then 1 else 0) + s.errorNotified.toNat ≤
    s.executor.onError + failDue instr + t.errorNotified.toNat
  lock : ∀ other, depth t.listenerLock other + (if other = thread then held instr else 0) =
    depth s.listenerLock other + if other = thread then weight held after else 0
  stores : t.terminalError.toList = s.terminalError.toList ++ (stored event).toList
  fits : ∀ left ∈ after, Fits t left
  open_ : begins event = some .onDataAvailable ∨ begins event = some .onAllDataRead → s.terminalError = none
  received : ∀ listener error, event = some (.onError listener error) → Fits s instr → s.terminalError = some error

theorem Accounts.quiet (silent : begins event = none) (unstored : stored event = none)
    (flags : t.allDataReadNotified = s.allDataReadNotified ∧ t.errorNotified = s.errorNotified)
    (executor : t.executor = s.executor) (lock : t.listenerLock = s.listenerLock)
    (error : t.terminalError = s.terminalError) (last : weight lastDue after ≤ lastDue instr)
    (fail : weight failDue after ≤ failDue instr) (inside : weight held after = held instr)
    (fits : ∀ left ∈ after, Fits t left) : Accounts thread s instr t after event where
  last := by
    rw [executor, flags.1, silent]
    simp only [reduceCtorEq, if_false]
    omega
  fail := by
    rw [executor, flags.2, silent]
    simp only [reduceCtorEq, if_false]
    omega
  lock other := by rw [lock, inside]
  stores := by simp [error, unstored]
  fits := fits
  open_ started := by simp [silent] at started
  received listener given started := by
    rw [started] at silent
    cases silent

theorem Accounts.locks {lock : Nat × Nat} (acquired : acquire s.listenerLock thread = some lock)
    (last : weight lastDue after ≤ lastDue instr) (fail : weight failDue after ≤ failDue instr)
    (inside : weight held after = held instr + 1) (fits : ∀ left ∈ after, Fits s left) :
    Accounts thread s instr { s with listenerLock := some lock } after none where
  last := by
    simp only [begins, reduceCtorEq, if_false]
    omega
  fail := by
    simp only [begins, reduceCtorEq, if_false]
    omega
  lock other := by
    rw [acquire_depth acquired, inside]
    split <;> omega
  stores := by simp [stored]
  fits := by
    intro left inside
    have known := fits left inside
    unfold Fits at known ⊢
    exact known
  open_ started := by simp [begins] at started
  received _ _ started := by cases started

theorem exec_accounts (executed : exec thread s instr choice = some (t, after, event)) :
    Accounts thread s instr t after event := by
  cases instr with
  | listenLock listener | invokeLock | lastLock | failLock =>
    obtain ⟨lock, acquired, executed⟩ := Option.bind_eq_some_iff.mp executed
    obtain ⟨rfl, rfl, rfl⟩ := goes_eq.mp executed
    exact .locks acquired (by simp [lastDue]) (by simp [failDue]) (by simp [held]) (by simp [Fits])
  | unlock =>
    obtain ⟨lock, released, executed⟩ := Option.bind_eq_some_iff.mp executed
    obtain ⟨rfl, rfl, rfl⟩ := goes_eq.mp executed
    have left := release_depth released
    constructor <;> simp [lastDue, failDue, held, begins, stored, left]
  | submit task =>
    obtain ⟨rfl, rfl, rfl⟩ := goes_eq.mp executed
    cases task <;> constructor <;> simp [Executor.execute, lastDue, failDue, held, begins, stored]
  | storeError error =>
    simp only [exec] at executed
    split at executed
    · obtain ⟨rfl, rfl, rfl⟩ := goes_eq.mp executed
      exact .quiet rfl rfl ⟨rfl, rfl⟩ rfl rfl rfl (by simp [scheduleError, lastDue])
        (by simp [scheduleError, failDue]) rfl (by simp [scheduleError, Fits])
    · rename_i unset
      cases executed
      constructor <;> simp [scheduleError, lastDue, failDue, held, begins, stored, Fits, unset]
  | errorClaim | allClaim =>
    simp only [exec] at executed
    split at executed
    · obtain ⟨rfl, rfl, rfl⟩ := goes_eq.mp executed
      exact .quiet rfl rfl ⟨rfl, rfl⟩ rfl rfl rfl (by simp) (by simp) rfl (by simp)
    · rename_i unclaimed
      obtain ⟨rfl, rfl, rfl⟩ := goes_eq.mp executed
      constructor <;> simp [unclaimed, lastDue, failDue, held, begins, stored, Fits]
  | startError current | lastError current =>
    simp only [exec] at executed
    split at executed
    · obtain ⟨rfl, rfl, rfl⟩ := goes_eq.mp executed
      exact .quiet rfl rfl ⟨rfl, rfl⟩ rfl rfl rfl (by simp [lastDue]) (by simp [failDue]) rfl (by simp [Fits])
    · rename_i unset
      cases executed
      constructor <;> simp_all [lastDue, failDue, held, begins, stored, Fits]
  | failError current =>
    obtain ⟨rfl, rfl, rfl⟩ := goes_eq.mp executed
    refine .quiet rfl rfl ⟨rfl, rfl⟩ rfl rfl rfl (by simp [lastDue]) (by simp [failDue]) rfl ?_
    intro left inside
    obtain rfl := List.mem_singleton.mp inside
    cases found : s.terminalError with
    | none => trivial
    | some error => exact found
  | failClosed current error =>
    simp only [exec] at executed
    split at executed
    · obtain ⟨rfl, rfl, rfl⟩ := goes_eq.mp executed
      exact .quiet rfl rfl ⟨rfl, rfl⟩ rfl rfl rfl (by simp [lastDue]) (by simp [failDue]) rfl (by simp [Fits])
    · split at executed
      · cases executed
        constructor <;> simp [lastDue, failDue, held, begins, stored, Fits]
      · obtain ⟨rfl, rfl, rfl⟩ := goes_eq.mp executed
        exact .quiet rfl rfl ⟨rfl, rfl⟩ rfl rfl rfl (by simp [lastDue]) (by simp [failDue]) rfl (by simp [Fits])
  | _ =>
    simp only [exec, readResult, scheduleDataAvailable, scheduleAllDataRead, notifyBodyError] at executed
    (repeat' split at executed) <;> first
      | (obtain ⟨rfl, rfl, rfl⟩ := goes_eq.mp executed
         exact .quiet rfl rfl ⟨rfl, rfl⟩ rfl rfl rfl (by simp [lastDue]) (by simp [failDue]) rfl (by simp [Fits]))
      | (obtain ⟨rfl, rfl, rfl⟩ := answers_eq.mp executed
         exact .quiet rfl rfl ⟨rfl, rfl⟩ rfl rfl rfl (by simp) (by simp) rfl (by simp))
      | cases executed

structure Enters (s t : Stream) (code : List Instr) (event : Option Event) : Prop where
  silent : begins event = none
  unstored : stored event = none
  flags : t.allDataReadNotified = s.allDataReadNotified ∧ t.errorNotified = s.errorNotified
  last : t.executor.onAllDataRead + weight lastDue code = s.executor.onAllDataRead
  fail : t.executor.onError + weight failDue code = s.executor.onError
  lock : t.listenerLock = s.listenerLock
  outside : weight held code = 0
  error : t.terminalError = s.terminalError
  fits : ∀ left ∈ code, Fits t left

theorem enter_enters (entered : enter s entry = some (t, code, event)) : Enters s t code event := by
  rcases enter_cases entered with ⟨task, left, before, rfl, rfl, rfl⟩ | ⟨others, -, rfl, rfl, rfl⟩ |
    ⟨rfl, rfl, answer, rfl⟩ | ⟨rfl, first, opens, rfl, rfl⟩
  · cases task <;> constructor <;>
      simp [before, Executor.execute, Task.code, invokeDataAvailable, begins, stored, lastDue, failDue, held, Fits]
  · constructor <;> simp [scheduleDataAvailable, begins, stored, lastDue, failDue, held, Fits]
  · constructor <;> simp [begins, stored]
  · cases opens <;> constructor <;> simp [begins, stored, lastDue, failDue, held, Fits]

/-- In every reachable state the lock is held as the code left says, and terminalError
    is what was stored first, what onError got and what no later callback saw unset. -/
structure Orderly (history : List (Move × Option Event)) (s : Running) : Prop where
  locked : ∀ thread, depth s.shared.listenerLock thread = share held s.threads thread
  fits : Everywhere (Fits s.shared) s.threads
  log : history.filterMap (fun entry => stored entry.2) = s.shared.terminalError.toList
  received : ∀ entry ∈ history, ∀ listener error, entry.2 = some (.onError listener error) →
    s.shared.terminalError = some error
  final : history.Pairwise fun earlier later => begins earlier.2 = some .onError →
    begins later.2 ≠ some .onDataAvailable ∧ begins later.2 ≠ some .onAllDataRead

theorem begins_error (began : begins event = some .onError) :
    ∃ listener error, event = some (.onError listener error) := by
  cases event with
  | none => cases began
  | some given =>
    cases given with
    | onError listener error => exact ⟨listener, error, rfl⟩
    | _ => cases began

theorem Orderly.extend {history : List (Move × Option Event)} {s t : Running} {move : Move} {event : Option Event}
    (orderly : Orderly history s)
    (locked : ∀ thread, depth t.shared.listenerLock thread = share held t.threads thread)
    (fits : Everywhere (Fits t.shared) t.threads)
    (stores : t.shared.terminalError.toList = s.shared.terminalError.toList ++ (stored event).toList)
    (open_ : begins event = some .onDataAvailable ∨ begins event = some .onAllDataRead →
      s.shared.terminalError = none)
    (received : ∀ listener error, event = some (.onError listener error) →
      s.shared.terminalError = some error) :
    Orderly (history ++ [(move, event)]) t := by
  have kept : ∀ {error}, s.shared.terminalError = some error → t.shared.terminalError = some error := by
    intro error set
    rw [set] at stores
    cases found : t.shared.terminalError with
    | none => simp [found] at stores
    | some other => simp_all
  refine ⟨locked, fits, ?_, ?_, ?_⟩
  · rw [filterMap_snoc, orderly.log, stores]
  · intro entry inside listener error started
    rcases List.mem_append.mp inside with earlier | now
    · exact kept (orderly.received entry earlier listener error started)
    · obtain rfl := List.mem_singleton.mp now
      exact kept (received listener error started)
  · refine List.pairwise_append.mpr ⟨orderly.final, List.pairwise_singleton _ _, ?_⟩
    intro earlier before later now started
    obtain rfl := List.mem_singleton.mp now
    obtain ⟨listener, error, same⟩ := begins_error started
    have set := orderly.received earlier before listener error same
    constructor
    · intro began
      rw [open_ (.inl began)] at set
      cases set
    · intro began
      rw [open_ (.inr began)] at set
      cases set

theorem step_orderly {history : List (Move × Option Event)} {s t : Running} {move : Move} {event : Option Event}
    (orderly : Orderly history s) (next : step s move = some (t, event)) :
    Orderly (history ++ [(move, event)]) t := by
  rcases step_cases next with ⟨thread, choice, instr, rest, after, -, found, executed, threads⟩ |
    ⟨thread, entry, rest, code, -, found, entered, threads⟩ | ⟨rfl, shared, threads⟩ | ⟨change, rfl, shared, threads⟩
  · have accounts := exec_accounts executed
    have inside := orderly.fits _ (List.mem_of_getElem? found)
    refine orderly.extend ?_ ?_ accounts.stores accounts.open_ fun listener error started =>
      accounts.received listener error started (inside instr List.mem_cons_self)
    · intro other
      have lock := accounts.lock other
      rw [orderly.locked other] at lock
      rw [threads, share_set held _ found]
      split
      · rename_i same
        rw [same, share_of_found held found, weight_cons] at lock
        simp only [if_true] at lock
        rw [same, weight_append]
        omega
      · rename_i apart
        simpa [apart] using lock
    · rw [threads]
      refine everywhere_set orderly.fits ?_ found (List.subset_cons_self _ _) accounts.fits
      intro left known
      cases left with
      | failClosed current error =>
        cases error with
        | none => trivial
        | some error =>
          have stores := accounts.stores
          simp only [Fits] at known ⊢
          rw [known] at stores
          cases kept : t.shared.terminalError with
          | none => simp [kept] at stores
          | some other => simp_all
      | _ => trivial
  · have enters := enter_enters entered
    refine orderly.extend ?_ ?_ (by simp [enters.error, enters.unstored]) (by simp [enters.silent]) ?_
    · intro other
      rw [enters.lock, orderly.locked other, threads, share_set held _ found, weight_append, enters.outside,
        Nat.zero_add, ← share_of_found held found]
      split
      · rename_i same
        rw [same]
      · rfl
    · rw [threads]
      refine everywhere_set orderly.fits ?_ found (List.Subset.refl _) enters.fits
      intro left known
      unfold Fits at known ⊢
      rwa [enters.error]
    · intro listener error started
      have silent := enters.silent
      rw [started] at silent
      cases silent
  · refine orderly.extend ?_ ?_ (by simp [shared, stored]) (by simp [begins]) (by simp)
    · intro other
      rw [shared, threads, share_spawn]
      exact orderly.locked other
    · rw [shared, threads]
      intro code inside
      rcases List.mem_append.mp inside with before | new
      · exact orderly.fits code before
      · obtain rfl := List.mem_singleton.mp new
        simp
  · refine orderly.extend ?_ ?_ (by simp [shared, stored]) (by simp [begins]) (by simp)
    · rw [shared, threads]
      exact orderly.locked
    · rw [shared, threads]
      exact orderly.fits

def inCallback (s : Running) (thread : Nat) : Prop :=
  Instr.inDataAvailable ∈ s.threads.getD thread [] ∨ Instr.inAllDataRead ∈ s.threads.getD thread [] ∨
    Instr.inError ∈ s.threads.getD thread []

theorem callback_holds {s : Running} {thread : Nat} (calling : inCallback s thread) :
    0 < share held s.threads thread := by
  unfold share
  rcases calling with inside | inside | inside <;> exact weight_of_mem held inside

theorem depth_owner {lock : Option (Nat × Nat)} {first second : Nat} (one : 0 < depth lock first)
    (other : 0 < depth lock second) : first = second := by
  cases lock with
  | none => simp [depth] at one
  | some pair =>
    simp only [depth] at one other
    split at one
    · rename_i same
      split at other
      · rename_i again
        exact same.symm.trans again
      · omega
    · omega

section
variable {asyncStarted ready finished : Bool} {history : List (Move × Option Event)} {s : Running}

theorem orderly (runs : Runs step (start asyncStarted ready finished) history s) : Orderly history s := by
  refine runs.invariant Orderly ?_ fun _ holds next => step_orderly holds next
  refine ⟨?_, ?_, rfl, ?_, List.Pairwise.nil⟩
  · intro thread
    simp [start, depth, share]
  · intro code inside
    cases inside
  · intro entry inside
    cases inside

theorem last_account (runs : Runs step (start asyncStarted ready finished) history s) :
    s.shared.executor.onAllDataRead + total lastDue s.threads + starts .onAllDataRead history ≤
      s.shared.allDataReadNotified.toNat :=
  @account (fun s => s.executor.onAllDataRead) (fun s => s.allDataReadNotified.toNat) lastDue .onAllDataRead
    _ _ _ _ _ runs rfl (fun executed => (exec_accounts executed).last)
    (fun entered => ⟨(enter_enters entered).silent, (enter_enters entered).last,
      congrArg Bool.toNat (enter_enters entered).flags.1⟩) fun _ _ => ⟨rfl, rfl⟩

theorem fail_account (runs : Runs step (start asyncStarted ready finished) history s) :
    s.shared.executor.onError + total failDue s.threads + starts .onError history ≤
      s.shared.errorNotified.toNat :=
  @account (fun s => s.executor.onError) (fun s => s.errorNotified.toNat) failDue .onError
    _ _ _ _ _ runs rfl (fun executed => (exec_accounts executed).fail)
    (fun entered => ⟨(enter_enters entered).silent, (enter_enters entered).fail,
      congrArg Bool.toNat (enter_enters entered).flags.2⟩) fun _ _ => ⟨rfl, rfl⟩

/-- In every run onAllDataRead and onError start at most once, onError with the error that
    was stored first; callbacks of different threads exclude each other; and once onError has
    started, neither onDataAvailable nor onAllDataRead starts. -/
theorem terminal_callbacks_once (runs : Runs step (start asyncStarted ready finished) history s) :
    starts .onAllDataRead history ≤ 1 ∧ starts .onError history ≤ 1 ∧
      (∀ entry ∈ history, ∀ listener error, entry.2 = some (.onError listener error) →
        (history.filterMap fun entry => stored entry.2).head? = some error) ∧
      (∀ first second, inCallback s first → inCallback s second → first = second) ∧
      history.Pairwise fun earlier later => begins earlier.2 = some .onError →
        begins later.2 ≠ some .onDataAvailable ∧ begins later.2 ≠ some .onAllDataRead := by
  have holds := orderly runs
  refine ⟨?_, ?_, ?_, ?_, holds.final⟩
  · have paid := last_account runs
    have flag := Bool.toNat_le s.shared.allDataReadNotified
    omega
  · have paid := fail_account runs
    have flag := Bool.toNat_le s.shared.errorNotified
    omega
  · intro entry inside listener error started
    rw [holds.log, holds.received entry inside listener error started]
    rfl
  · intro first second one other
    apply depth_owner
    · rw [holds.locked first]
      exact callback_holds one
    · rw [holds.locked second]
      exact callback_holds other

end

def steps (thread count : Nat) : List Move := List.replicate count (.run thread .returns)

/-- Of two threads the first registers a listener; the source is ready. -/
def registration : List Move := [.spawn, .spawn, .enter 0 (.setReadListener (some 7))] ++ steps 0 15

def dataCallback : List Move := .enter 0 (.task .invokeDataAvailable) :: steps 0 10

/-- The source reports an error while onDataAvailable runs, and onDataAvailable throws another. -/
def errorMoves : List Move :=
  registration ++ dataCallback ++ [.enter 1 (.errorInterest (some (.ioException 1)))] ++ steps 1 6 ++
    [.enter 1 (.task .onError), .run 0 (.throws (.runtimeException 2))] ++ steps 0 11 ++ steps 1 4

def errorRun : List (Move × Option Event) × Running :=
  (execute step (start true true false) errorMoves).getD ([], start true true false)

theorem terminal_callbacks_once_error :
    inCallback errorRun.2 1 ∧ ¬ inCallback errorRun.2 0 ∧ starts .onError errorRun.1 = 1 ∧
      (errorRun.1.filterMap fun entry => stored entry.2).head? = some (.given 1) := by
  have executed : execute step (start true true false) errorMoves = some (errorRun.1, errorRun.2) := rfl
  have called : (.run 1 .returns, some (.onError 7 (.given 1))) ∈ errorRun.1 := by decide +kernel
  have calling : inCallback errorRun.2 1 := by
    unfold inCallback
    decide +kernel
  obtain ⟨-, -, first, alone, -⟩ := terminal_callbacks_once (execute_runs executed)
  refine ⟨calling, ?_, by decide +kernel, first _ called 7 (.given 1) rfl⟩
  intro other
  exact absurd (alone 0 1 other calling) (by decide)

end CkartaReadListenerCallbacks
