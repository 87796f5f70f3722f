import Ckarta.RingBuffer
import Ckarta.StepHistory

/-!
The completion queue, c/completion/ck_completion_queue.[ch], with the eventfd it signals,
c/event/ck_completion_notification.[ch]. A critical section is one function; what write
answers on the eventfd, apart from the counter itself, is an argument.
-/
namespace CkartaCompletionQueue
open StepHistory RingBuffer

structure CompletionRecord where
  requestId : Nat
  ownerToken : Nat
  lifetimeToken : Nat
  cycleId : Nat
  result : Int
  status : Int
  deriving DecidableEq, Repr

def queueCapacity : Nat := 64

/-- The counter of an eventfd stays below 2^64 - 1. -/
def counterMaximum : Nat := 18446744073709551614

/-- errno after a failed call is positive. -/
abbrev Errno := { code : Nat // 0 < code }

def eagain : Errno := ⟨11, by decide⟩

/-- ck_completion_queue_t; counter is the counter of its eventfd. -/
structure CompletionQueue where
  entries : Nat → CompletionRecord
  head : Nat
  tail : Nat
  count : Nat
  counter : Nat
  initialized : Bool
  closed : Bool

def zeroRecord : CompletionRecord := ⟨0, 0, 0, 0, 0, 0⟩

def ckCompletionQueueInit : CompletionQueue := ⟨fun _ => zeroRecord, 0, 0, 0, 0, true, false⟩

/-- write of the value 1: it fails as it is told to, or adds, or finds the counter full. -/
def eventfdWrite (counter : Nat) (fault : Option Errno) : Option Errno × Nat :=
  match fault with
  | some errno => (some errno, counter)
  | none => if counter < counterMaximum then (none, counter + 1) else (some eagain, counter)

/-- read returns the counter and clears it; none is EAGAIN. -/
def eventfdRead (counter : Nat) : Option Nat × Nat := if counter = 0 then (none, 0) else (some counter, 0)

def ckCompletionNotificationSignal (counter : Nat) (fault : Option Errno) : Int × Nat :=
  match eventfdWrite counter fault with
  | (none, counter) => (0, counter)
  | (some errno, counter) => (if errno = eagain then 0 else errno.val, counter)

/-- The end of push and push_wait: store the record, signal, and take it back if that fails. -/
def publish (queue : CompletionQueue) (record : CompletionRecord) (fault : Option Errno) :
    Int × CompletionQueue :=
  let stored := { queue with
    entries := Function.update queue.entries queue.tail record
    tail := (queue.tail + 1) % queueCapacity
    count := queue.count + 1 }
  let (result, counter) := ckCompletionNotificationSignal stored.counter fault
  if result ≠ 0 then
    (result, { stored with
      tail := (stored.tail + queueCapacity - 1) % queueCapacity
      count := stored.count - 1
      counter := counter })
  else (0, { stored with counter := counter })

def ckCompletionQueuePush (queue : CompletionQueue) (record : CompletionRecord)
    (fault : Option Errno) : Int × CompletionQueue :=
  if !queue.initialized then (-1, queue)
  else if queue.closed then (2, queue)
  else if queue.count = queueCapacity then (1, queue)
  else publish queue record fault

/-- One pass of push_wait through its critical section; none when it waits for not_full. -/
def ckCompletionQueuePushWait (queue : CompletionQueue) (record : CompletionRecord)
    (fault : Option Errno) : Option Int × CompletionQueue :=
  if !queue.initialized then (some (-1), queue)
  else if !queue.closed ∧ queue.count = queueCapacity then (none, queue)
  else if queue.closed then (some 2, queue)
  else (some (publish queue record fault).1, (publish queue record fault).2)

def ckCompletionQueuePop (queue : CompletionQueue) : Int × Option CompletionRecord × CompletionQueue :=
  if !queue.initialized then (-1, none, queue)
  else if queue.count = 0 then (0, none, queue)
  else (1, some (queue.entries queue.head), { queue with
    head := (queue.head + 1) % queueCapacity
    count := queue.count - 1 })

def ckCompletionQueueClose (queue : CompletionQueue) (fault : Option Errno) : Int × CompletionQueue :=
  if !queue.initialized then (-1, queue)
  else if queue.closed then (1, queue)
  else
    let (result, counter) := ckCompletionNotificationSignal queue.counter fault
    (result, { queue with closed := true, counter := counter })

def pending (queue : CompletionQueue) : List CompletionRecord :=
  contents queueCapacity queue.entries queue.head queue.count

structure Sound (queue : CompletionQueue) : Prop where
  ready : queue.initialized = true
  head : queue.head < queueCapacity
  count : queue.count ≤ queueCapacity
  tail : queue.tail = (queue.head + queue.count) % queueCapacity

theorem init_sound : Sound ckCompletionQueueInit := ⟨rfl, by decide, by decide, by decide⟩

/-- What a call may do to the queue: add this record, or leave what it holds. -/
structure Published (queue next : CompletionQueue) (record : CompletionRecord) (result : Int) : Prop where
  sound : Sound next
  closed : next.closed = queue.closed
  stored : result = 0 → pending next = pending queue ++ [record]
  kept : result ≠ 0 → pending next = pending queue

theorem publish_publishes {queue : CompletionQueue} (sound : Sound queue) (record : CompletionRecord)
    (fault : Option Errno) (room : queue.count ≠ queueCapacity) :
    Published queue (publish queue record fault).2 record (publish queue record fault).1 := by
  have free : queue.count < queueCapacity := Nat.lt_of_le_of_ne sound.count room
  have inside : queue.tail < queueCapacity := by
    rw [sound.tail]
    exact Nat.mod_lt _ (by decide)
  unfold publish
  dsimp only
  cases signalled : ckCompletionNotificationSignal queue.counter fault with
  | mk result counter =>
    dsimp only
    by_cases failed : result ≠ 0
    · rw [if_pos failed]
      refine ⟨⟨sound.ready, sound.head, ?_, ?_⟩, rfl, fun zero => absurd zero failed, fun _ => ?_⟩
      · exact sound.count
      · dsimp only
        rw [place_back inside, Nat.add_sub_cancel]
        exact sound.tail
      · unfold pending
        dsimp only
        rw [sound.tail, Nat.add_sub_cancel]
        exact contents_free _ _ _ free
    · rw [if_neg failed]
      refine ⟨⟨sound.ready, sound.head, free, ?_⟩, rfl, fun _ => ?_, fun wrong => absurd rfl wrong⟩
      · dsimp only
        rw [sound.tail]
        exact place_next
      · unfold pending
        dsimp only
        rw [sound.tail]
        exact contents_store _ _ _ free

theorem Published.refused {queue : CompletionQueue} (sound : Sound queue) (record : CompletionRecord)
    {result : Int} (refused : result ≠ 0) : Published queue queue record result :=
  ⟨sound, rfl, fun zero => absurd zero refused, fun _ => rfl⟩

theorem push_publishes {queue : CompletionQueue} (sound : Sound queue) (record : CompletionRecord)
    (fault : Option Errno) :
    Published queue (ckCompletionQueuePush queue record fault).2 record
        (ckCompletionQueuePush queue record fault).1 ∧
      (queue.closed = true → (ckCompletionQueuePush queue record fault).1 ≠ 0) := by
  unfold ckCompletionQueuePush
  rw [if_neg (by simp [sound.ready])]
  by_cases closed : queue.closed = true
  · rw [if_pos closed]
    exact ⟨.refused sound record (by simp), fun _ => by simp⟩
  · rw [if_neg closed]
    by_cases full : queue.count = queueCapacity
    · rw [if_pos full]
      exact ⟨.refused sound record (by simp), fun _ => by simp⟩
    · rw [if_neg full]
      exact ⟨publish_publishes sound record fault full, fun now => absurd now closed⟩

theorem pushWait_publishes {queue : CompletionQueue} (sound : Sound queue) (record : CompletionRecord)
    (fault : Option Errno) :
    (ckCompletionQueuePushWait queue record fault = (none, queue) ∧ queue.closed = false) ∨
      ∃ result next, ckCompletionQueuePushWait queue record fault = (some result, next) ∧
        Published queue next record result ∧ (queue.closed = true → result ≠ 0) := by
  unfold ckCompletionQueuePushWait
  rw [if_neg (by simp [sound.ready])]
  by_cases closed : queue.closed = true
  · right
    refine ⟨2, queue, ?_, .refused sound record (by decide), fun _ => by decide⟩
    simp [closed]
  · by_cases full : queue.count = queueCapacity
    · exact .inl ⟨by simp [closed, full], by simpa using closed⟩
    · right
      refine ⟨_, _, ?_, publish_publishes sound record fault full, fun now => absurd now closed⟩
      simp [closed, full]

theorem pop_takes {queue : CompletionQueue} (sound : Sound queue) :
    (ckCompletionQueuePop queue = (0, none, queue) ∧ pending queue = []) ∨
      ∃ record next, ckCompletionQueuePop queue = (1, some record, next) ∧
        pending queue = record :: pending next ∧ Sound next ∧ next.closed = queue.closed := by
  unfold ckCompletionQueuePop
  rw [if_neg (by simp [sound.ready])]
  by_cases empty : queue.count = 0
  · rw [if_pos empty]
    refine .inl ⟨rfl, ?_⟩
    unfold pending
    rw [empty]
    exact contents_empty _ _ _
  · rw [if_neg empty]
    obtain ⟨rest, held⟩ : ∃ rest, queue.count = rest + 1 := ⟨queue.count - 1, by omega⟩
    refine .inr ⟨_, _, rfl, ?_, ⟨sound.ready, Nat.mod_lt _ (by decide), ?_, ?_⟩, rfl⟩
    · unfold pending
      dsimp only
      rw [held, Nat.add_sub_cancel]
      exact contents_take _ _ sound.head
    · have bound := sound.count
      dsimp only
      omega
    · dsimp only
      rw [sound.tail, held, Nat.add_sub_cancel, Nat.mod_add_mod]
      congr 1
      omega

theorem close_closes {queue : CompletionQueue} (sound : Sound queue) (fault : Option Errno) :
    pending (ckCompletionQueueClose queue fault).2 = pending queue ∧
      (ckCompletionQueueClose queue fault).2.closed = true ∧
      Sound (ckCompletionQueueClose queue fault).2 := by
  unfold ckCompletionQueueClose
  rw [if_neg (by simp [sound.ready])]
  by_cases closed : queue.closed = true
  · rw [if_pos closed]
    exact ⟨rfl, closed, sound⟩
  · rw [if_neg closed]
    exact ⟨rfl, rfl, sound.ready, sound.head, sound.count, sound.tail⟩

structure System where
  queue : CompletionQueue
  waiting : List CompletionRecord

/-- A waiting push_wait may wake at any time: signalled, by the broadcast, or spuriously. -/
inductive Move where
  | push (record : CompletionRecord) (fault : Option Errno)
  | pushWait (record : CompletionRecord) (fault : Option Errno)
  | wake (record : CompletionRecord) (fault : Option Errno)
  | pop
  | close (fault : Option Errno)
  deriving DecidableEq

structure Answer where
  result : Option Int
  popped : Option CompletionRecord
  deriving DecidableEq, Repr

def waitPass (queue : CompletionQueue) (waiting : List CompletionRecord) (record : CompletionRecord)
    (fault : Option Errno) : System × Answer :=
  match ckCompletionQueuePushWait queue record fault with
  | (none, next) => (⟨next, record :: waiting⟩, ⟨none, none⟩)
  | (some result, next) => (⟨next, waiting⟩, ⟨some result, none⟩)

def step (s : System) : Move → Option (System × Answer)
  | .push record fault =>
    let (result, queue) := ckCompletionQueuePush s.queue record fault
    some ({ s with queue := queue }, ⟨some result, none⟩)
  | .pushWait record fault => some (waitPass s.queue s.waiting record fault)
  | .wake record fault =>
    if record ∈ s.waiting then some (waitPass s.queue (s.waiting.erase record) record fault) else none
  | .pop =>
    let (result, popped, queue) := ckCompletionQueuePop s.queue
    some ({ s with queue := queue }, ⟨some result, popped⟩)
  | .close fault =>
    let (result, queue) := ckCompletionQueueClose s.queue fault
    some ({ s with queue := queue }, ⟨some result, none⟩)

def start : System := ⟨ckCompletionQueueInit, []⟩

def pushed : Move → Option CompletionRecord
  | .push record _ | .pushWait record _ | .wake record _ => some record
  | _ => none

def acceptedBy (entry : Move × Answer) : Option CompletionRecord :=
  if entry.2.result = some 0 then pushed entry.1 else none

/-- The records whose push or push_wait returned 0, in the order of the critical sections. -/
def accepted (history : List (Move × Answer)) : List CompletionRecord := history.filterMap acceptedBy

def poppedRecords (history : List (Move × Answer)) : List CompletionRecord :=
  history.filterMap fun entry => entry.2.popped

inductive Section (s t : System) (move : Move) (answer : Answer) : Prop where
  | pushed (record : CompletionRecord) (about : pushed move = some record) (silent : answer.popped = none)
      (returned : answer.result = some 0) (opened : s.queue.closed = false) (same : t.queue.closed = false)
      (stored : pending t.queue = pending s.queue ++ [record])
  | kept (silent : answer.popped = none) (refused : pushed move = none ∨ answer.result ≠ some 0)
      (closed : s.queue.closed = true → t.queue.closed = true)
      (same : pending t.queue = pending s.queue)
  | popped (record : CompletionRecord) (isPop : move = .pop) (gives : answer = ⟨some 1, some record⟩)
      (closed : t.queue.closed = s.queue.closed)
      (taken : pending s.queue = record :: pending t.queue)

theorem Published.sections {s t : System} {move : Move} {record : CompletionRecord} {result : Int}
    (published : Published s.queue t.queue record result)
    (closedFails : s.queue.closed = true → result ≠ 0) (about : pushed move = some record) :
    Section s t move ⟨some result, none⟩ := by
  by_cases zero : result = 0
  · have opened : s.queue.closed = false := by
      by_contra closed
      exact closedFails (by simpa using closed) zero
    exact .pushed record about rfl (by rw [zero]) opened (published.closed.trans opened)
      (published.stored zero)
  · refine .kept rfl (.inr ?_) (fun closed => published.closed.trans closed) (published.kept zero)
    intro same
    exact zero (Option.some.inj same)

theorem waitPass_section {s : System} (sound : Sound s.queue) (waiting : List CompletionRecord) {move : Move}
    {record : CompletionRecord} (fault : Option Errno) (about : pushed move = some record) :
    Sound (waitPass s.queue waiting record fault).1.queue ∧
      Section s (waitPass s.queue waiting record fault).1 move
        (waitPass s.queue waiting record fault).2 := by
  unfold waitPass
  rcases pushWait_publishes sound record fault with ⟨waits, -⟩ | ⟨result, next, answers, published, fails⟩
  · rw [waits]
    exact ⟨sound, .kept rfl (.inr (by simp)) id rfl⟩
  · rw [answers]
    exact ⟨published.sound, published.sections fails about⟩

theorem step_section {s t : System} {move : Move} {answer : Answer} (sound : Sound s.queue)
    (next : step s move = some (t, answer)) : Sound t.queue ∧ Section s t move answer := by
  cases move with
  | push record fault =>
    simp only [step, Option.some.injEq, Prod.mk.injEq] at next
    obtain ⟨rfl, rfl⟩ := next
    obtain ⟨published, fails⟩ := push_publishes sound record fault
    exact ⟨published.sound, published.sections fails rfl⟩
  | pushWait record fault =>
    have both := Option.some.inj next
    have done := @waitPass_section s sound s.waiting (.pushWait record fault) record fault rfl
    rw [both] at done
    exact done
  | wake record fault =>
    simp only [step] at next
    split at next
    · have both := Option.some.inj next
      have done := @waitPass_section s sound (s.waiting.erase record) (.wake record fault) record fault rfl
      rw [both] at done
      exact done
    · cases next
  | pop =>
    simp only [step, Option.some.injEq, Prod.mk.injEq] at next
    obtain ⟨rfl, rfl⟩ := next
    rcases pop_takes sound with ⟨empty, -⟩ | ⟨record, queue, takes, taken, after, closed⟩
    · rw [empty]
      exact ⟨sound, .kept rfl (.inl rfl) id rfl⟩
    · rw [takes]
      exact ⟨after, .popped record rfl rfl closed taken⟩
  | close fault =>
    simp only [step, Option.some.injEq, Prod.mk.injEq] at next
    obtain ⟨rfl, rfl⟩ := next
    obtain ⟨same, closed, after⟩ := close_closes sound fault
    exact ⟨after, .kept rfl (.inl rfl) (fun _ => closed) same⟩

/-- What a section adds to the two lists of a history. -/
theorem section_conserves {s t : System} {move : Move} {answer : Answer}
    (does : Section s t move answer) {before popped : List CompletionRecord}
    (balanced : popped ++ pending s.queue = before) :
    popped ++ answer.popped.toList ++ pending t.queue = before ++ (acceptedBy (move, answer)).toList := by
  cases does with
  | pushed record about silent returned opened same stored =>
    simp [acceptedBy, about, returned, silent, stored, ← balanced]
  | kept silent refused closed same =>
    have none : acceptedBy (move, answer) = none := by
      unfold acceptedBy
      rcases refused with about | result
      · simp [about]
      · simp [result]
    simp [none, silent, same, balanced]
  | popped record isPop gives closed taken =>
    subst isPop gives
    rw [← balanced, taken]
    simp [acceptedBy]

theorem runs_conserve {history : List (Move × Answer)} {s t : System} (sound : Sound s.queue)
    (runs : Runs step s history t) :
    Sound t.queue ∧ poppedRecords history ++ pending t.queue = pending s.queue ++ accepted history := by
  apply runs.invariant (fun history t => Sound t.queue ∧
    poppedRecords history ++ pending t.queue = pending s.queue ++ accepted history)
  · exact ⟨sound, by simp [poppedRecords, accepted]⟩
  · intro history t u move answer _ holds next
    obtain ⟨after, does⟩ := step_section holds.1 next
    refine ⟨after, ?_⟩
    have conserved := section_conserves does holds.2
    unfold poppedRecords accepted at conserved ⊢
    rw [filterMap_snoc, filterMap_snoc, ← List.append_assoc]
    exact conserved

theorem runs_closed {later : List (Move × Answer)} {s t : System} (sound : Sound s.queue)
    (runs : Runs step s later t) (closed : s.queue.closed = true) :
    t.queue.closed = true ∧ accepted later = [] := by
  apply runs.invariant (fun later t => t.queue.closed = true ∧ accepted later = [])
  · exact ⟨closed, rfl⟩
  · intro later t u move answer before holds next
    obtain ⟨-, does⟩ := step_section (runs_conserve sound before).1 next
    unfold accepted
    rw [filterMap_snoc]
    have held : later.filterMap acceptedBy = [] := holds.2
    rw [held]
    cases does with
    | pushed record about silent returned opened same stored =>
      rw [holds.1] at opened
      cases opened
    | kept silent refused stays same =>
      refine ⟨stays holds.1, ?_⟩
      rcases refused with about | result
      · simp [acceptedBy, about]
      · simp [acceptedBy, result]
    | popped record isPop gives stays taken =>
      subst isPop gives
      exact ⟨stays.trans holds.1, rfl⟩

/-- The completion queue loses, duplicates and reorders nothing: popped and queued records
    together are the accepted ones in their order, at most 64 are queued, a push that does
    not return 0 changes nothing queued, and after close nothing is accepted while what is
    queued comes out in order. -/
theorem completion_queue_fifo {history : List (Move × Answer)} {s : System}
    (runs : Runs step start history s) :
    poppedRecords history ++ pending s.queue = accepted history ∧ s.queue.count ≤ 64 ∧
      (pending s.queue).length = s.queue.count ∧
      (∀ {move : Move} {t : System} {answer : Answer}, step s move = some (t, answer) →
        pushed move ≠ none → answer.result ≠ some 0 → pending t.queue = pending s.queue) ∧
      (∀ {record : CompletionRecord} {rest : List CompletionRecord}, pending s.queue = record :: rest →
        ∃ t, step s .pop = some (t, ⟨some 1, some record⟩) ∧ pending t.queue = rest) ∧
      (s.queue.closed = true → ∀ {later : List (Move × Answer)} {t : System}, Runs step s later t →
        accepted later = [] ∧ poppedRecords later ++ pending t.queue = pending s.queue) := by
  obtain ⟨sound, conserved⟩ := runs_conserve init_sound runs
  refine ⟨conserved, sound.count, contents_length _ _ _ _, ?_, ?_, ?_⟩
  · intro move t answer next about refused
    obtain ⟨-, does⟩ := step_section sound next
    cases does with
    | pushed record about silent returned opened same stored => exact absurd returned refused
    | kept silent refused closed same => exact same
    | popped record isPop gives closed taken =>
      subst isPop
      exact absurd rfl about
  · intro record rest held
    rcases pop_takes sound with ⟨-, empty⟩ | ⟨first, next, takes, taken, -⟩
    · rw [empty] at held
      cases held
    · rw [held, List.cons.injEq] at taken
      obtain ⟨rfl, rfl⟩ := taken
      exact ⟨{ s with queue := next }, by simp only [step, takes], rfl⟩
  · intro closed later t run
    obtain ⟨-, none⟩ := runs_closed sound run closed
    obtain ⟨-, balance⟩ := runs_conserve sound run
    rw [none, List.append_nil] at balance
    exact ⟨none, balance⟩

def sampleRecord (requestId : Nat) : CompletionRecord := ⟨requestId, 5, 9, 1, 200, 0⟩

/-- A push whose signal fails is taken back between two that succeed; after the close
    nothing more is taken in. -/
def sampleMoves : List Move :=
  [.push (sampleRecord 1) none, .push (sampleRecord 2) (some ⟨5, by decide⟩),
    .pushWait (sampleRecord 3) none, .pop, .close none, .push (sampleRecord 4) none]

def sampleRun : List (Move × Answer) × System := (execute step start sampleMoves).getD ([], start)

theorem completion_queue_fifo_rollback :
    poppedRecords sampleRun.1 = [sampleRecord 1] ∧ accepted sampleRun.1 = [sampleRecord 1, sampleRecord 3] ∧
      pending sampleRun.2.queue = [sampleRecord 3] := by
  have executed : execute step start sampleMoves = some (sampleRun.1, sampleRun.2) := rfl
  have popped : poppedRecords sampleRun.1 = [sampleRecord 1] := by decide +kernel
  have taken : accepted sampleRun.1 = [sampleRecord 1, sampleRecord 3] := by decide +kernel
  have conserved := (completion_queue_fifo (execute_runs executed)).1
  rw [popped, taken] at conserved
  exact ⟨popped, taken, (List.cons.inj conserved).2⟩

end CkartaCompletionQueue
