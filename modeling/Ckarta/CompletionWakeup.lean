import Ckarta.CompletionQueue

/-!
The consumer of the completion queue, the loop of c/core/main.c: wait until the eventfd can
be read, read it until it answers EAGAIN, pop until the queue is empty. Signals coalesce in
the counter, so what must not happen is that the consumer waits while records are queued
and the counter is zero.
-/
namespace CkartaCompletionWakeup
open StepHistory RingBuffer CkartaCompletionQueue

inductive Consumer where
  | waiting
  | draining
  | popping
  deriving DecidableEq, Repr

structure Loop where
  system : System
  consumer : Consumer

inductive Turn where
  | producer (move : Move)
  | readable
  | read
  | pop
  deriving DecidableEq

/-- Only the consumer pops, and write answers EAGAIN only at the maximum of the counter. -/
def honest : Move → Bool
  | .push _ fault | .pushWait _ fault | .wake _ fault | .close fault => decide (fault ≠ some eagain)
  | .pop => false

def turn (s : Loop) : Turn → Option (Loop × Answer)
  | .producer move =>
    if honest move then (step s.system move).map fun (next, answer) => ({ s with system := next }, answer)
    else none
  | .readable =>
    if s.consumer = .waiting ∧ s.system.queue.counter ≠ 0 then
      some ({ s with consumer := .draining }, ⟨none, none⟩)
    else none
  | .read =>
    if s.consumer = .draining then
      match eventfdRead s.system.queue.counter with
      | (some _, counter) =>
        some ({ s with system := { s.system with queue := { s.system.queue with counter := counter } } },
          ⟨none, none⟩)
      | (none, _) => some ({ s with consumer := .popping }, ⟨some 0, none⟩)
    else none
  | .pop =>
    if s.consumer = .popping then
      (step s.system .pop).map fun (next, answer) =>
        (⟨next, if answer.result = some 0 then .waiting else .popping⟩, answer)
    else none

def initial : Loop := ⟨start, .waiting⟩

/-- Who waits on a queue that is not empty can be woken. -/
structure Awake (s : Loop) : Prop where
  sound : Sound s.system.queue
  signalled : s.consumer = .waiting → pending s.system.queue ≠ [] → s.system.queue.counter ≠ 0

theorem signal_counter (counter : Nat) {fault : Option Errno} (fair : fault ≠ some eagain) :
    (counter ≠ 0 → (ckCompletionNotificationSignal counter fault).2 ≠ 0) ∧
      ((ckCompletionNotificationSignal counter fault).1 = 0 →
        (ckCompletionNotificationSignal counter fault).2 ≠ 0) := by
  unfold ckCompletionNotificationSignal eventfdWrite
  cases fault with
  | some errno =>
    have other : errno ≠ eagain := fun same => fair (by rw [same])
    have positive := errno.property
    simp only [if_neg other]
    refine ⟨id, fun zero => ?_⟩
    omega
  | none =>
    by_cases room : counter < counterMaximum
    · simp [room]
    · have high : counter ≠ 0 := by
        rintro rfl
        exact room (by decide)
      simp [room, high]

theorem publish_counter (queue : CompletionQueue) (record : CompletionRecord) {fault : Option Errno}
    (fair : fault ≠ some eagain) :
    (queue.counter ≠ 0 → (publish queue record fault).2.counter ≠ 0) ∧
      ((publish queue record fault).1 = 0 → (publish queue record fault).2.counter ≠ 0) := by
  have signal := signal_counter queue.counter fair
  unfold publish
  dsimp only
  split
  · rename_i failed
    exact ⟨signal.1, fun zero => absurd zero failed⟩
  · rename_i done
    exact ⟨signal.1, fun _ => signal.2 (not_not.mp done)⟩

theorem push_counter (queue : CompletionQueue) (record : CompletionRecord) {fault : Option Errno}
    (fair : fault ≠ some eagain) :
    (queue.counter ≠ 0 → (ckCompletionQueuePush queue record fault).2.counter ≠ 0) ∧
      ((ckCompletionQueuePush queue record fault).1 = 0 →
        (ckCompletionQueuePush queue record fault).2.counter ≠ 0) := by
  unfold ckCompletionQueuePush
  split
  · exact ⟨id, fun zero => by cases zero⟩
  · split
    · exact ⟨id, fun zero => by cases zero⟩
    · split
      · exact ⟨id, fun zero => by cases zero⟩
      · exact publish_counter queue record fair

theorem waitPass_counter (queue : CompletionQueue) (waiting : List CompletionRecord)
    (record : CompletionRecord) {fault : Option Errno} (fair : fault ≠ some eagain) :
    (queue.counter ≠ 0 → (waitPass queue waiting record fault).1.queue.counter ≠ 0) ∧
      ((waitPass queue waiting record fault).2.result = some 0 →
        (waitPass queue waiting record fault).1.queue.counter ≠ 0) := by
  have published := publish_counter queue record fair
  unfold waitPass ckCompletionQueuePushWait
  by_cases ready : queue.initialized = true
  · by_cases closed : queue.closed = true
    · simp [ready, closed]
    · by_cases full : queue.count = queueCapacity
      · simp [ready, closed, full]
      · simpa [ready, closed, full] using published
  · simp [ready]

theorem step_counter {s t : System} {move : Move} {answer : Answer} (fair : honest move = true)
    (next : step s move = some (t, answer)) :
    (s.queue.counter ≠ 0 → t.queue.counter ≠ 0) ∧
      (pushed move ≠ none → answer.result = some 0 → t.queue.counter ≠ 0) := by
  cases move with
  | push record fault =>
    simp only [step, Option.some.injEq, Prod.mk.injEq] at next
    obtain ⟨rfl, rfl⟩ := next
    obtain ⟨stays, signals⟩ := push_counter s.queue record (of_decide_eq_true fair)
    exact ⟨stays, fun _ zero => signals (Option.some.inj zero)⟩
  | pushWait record fault =>
    have both := Option.some.inj next
    obtain ⟨stays, signals⟩ := waitPass_counter s.queue s.waiting record (of_decide_eq_true fair)
    rw [both] at stays signals
    exact ⟨stays, fun _ => signals⟩
  | wake record fault =>
    simp only [step] at next
    split at next
    · have both := Option.some.inj next
      obtain ⟨stays, signals⟩ :=
        waitPass_counter s.queue (s.waiting.erase record) record (of_decide_eq_true fair)
      rw [both] at stays signals
      exact ⟨stays, fun _ => signals⟩
    · cases next
  | pop => cases fair
  | close fault =>
    simp only [step, Option.some.injEq, Prod.mk.injEq] at next
    obtain ⟨rfl, -⟩ := next
    refine ⟨?_, fun about => absurd rfl about⟩
    intro before
    unfold ckCompletionQueueClose
    split
    · exact before
    · split
      · exact before
      · exact (signal_counter s.queue.counter (of_decide_eq_true fair)).1 before

theorem turn_awake {s t : Loop} {move : Turn} {answer : Answer} (awake : Awake s)
    (next : turn s move = some (t, answer)) : Awake t := by
  cases move with
  | producer move =>
    simp only [turn] at next
    split at next
    · rename_i fair
      obtain ⟨⟨system, reply⟩, stepped, same⟩ := Option.map_eq_some_iff.mp next
      obtain ⟨rfl, rfl⟩ := Prod.mk.inj same
      obtain ⟨sound, does⟩ := step_section awake.sound stepped
      obtain ⟨stays, signals⟩ := step_counter fair stepped
      refine ⟨sound, fun waits queued => ?_⟩
      cases does with
      | pushed record about silent returned opened closed stored =>
        exact signals (by simp [about]) returned
      | kept silent refused closed same =>
        rw [same] at queued
        exact stays (awake.signalled waits queued)
      | popped record isPop gives closed taken =>
        subst isPop
        cases fair
    · cases next
  | readable =>
    simp only [turn] at next
    split at next
    · obtain ⟨rfl, -⟩ := Prod.mk.inj (Option.some.inj next)
      exact ⟨awake.sound, fun waits => by cases waits⟩
    · cases next
  | read =>
    simp only [turn] at next
    split at next
    · rename_i drains
      split at next
      · obtain ⟨rfl, -⟩ := Prod.mk.inj (Option.some.inj next)
        refine ⟨⟨awake.sound.ready, awake.sound.head, awake.sound.count, awake.sound.tail⟩, ?_⟩
        intro waits
        rw [drains] at waits
        cases waits
      · obtain ⟨rfl, -⟩ := Prod.mk.inj (Option.some.inj next)
        exact ⟨awake.sound, fun waits => by cases waits⟩
    · cases next
  | pop =>
    simp only [turn] at next
    split at next
    · obtain ⟨⟨system, reply⟩, stepped, same⟩ := Option.map_eq_some_iff.mp next
      obtain ⟨rfl, rfl⟩ := Prod.mk.inj same
      simp only [step, Option.some.injEq, Prod.mk.injEq] at stepped
      obtain ⟨rfl, rfl⟩ := stepped
      -- the consumer goes back to wait only from a pop that found the queue empty
      rcases pop_takes awake.sound with ⟨empty, nothing⟩ | ⟨record, queue, takes, -, sound, -⟩
      · rw [empty]
        exact ⟨awake.sound, fun _ queued => absurd nothing queued⟩
      · rw [takes]
        exact ⟨sound, fun waits => by cases waits⟩
    · cases next

/-- No wake-up is lost: in every interleaving, a consumer that waits while records are queued
    finds the counter of the eventfd above zero. -/
theorem no_lost_wakeup {history : List (Turn × Answer)} {s : Loop} (runs : Runs turn initial history s)
    (waits : s.consumer = .waiting) (queued : pending s.system.queue ≠ []) :
    s.system.queue.counter ≠ 0 := by
  have awake : Awake s := runs.invariant (fun _ s => Awake s)
    ⟨init_sound, fun _ queued => absurd rfl queued⟩ fun _ holds next => turn_awake holds next
  exact awake.signalled waits queued

/-- One record arrives between the drain and the pops, one after the last empty pop. -/
def sampleTurns : List Turn :=
  [.producer (.push (sampleRecord 1) none), .readable, .read, .read,
    .producer (.pushWait (sampleRecord 2) none), .pop, .pop, .pop, .producer (.push (sampleRecord 3) none)]

def sampleRun : List (Turn × Answer) × Loop := (execute turn initial sampleTurns).getD ([], initial)

theorem no_lost_wakeup_late :
    sampleRun.2.consumer = .waiting ∧ pending sampleRun.2.system.queue = [sampleRecord 3] ∧
      sampleRun.2.system.queue.counter ≠ 0 := by
  have executed : execute turn initial sampleTurns = some (sampleRun.1, sampleRun.2) := rfl
  have waits : sampleRun.2.consumer = .waiting := by decide +kernel
  have queued : pending sampleRun.2.system.queue = [sampleRecord 3] := by decide +kernel
  exact ⟨waits, queued, no_lost_wakeup (execute_runs executed) waits (by rw [queued]; exact List.cons_ne_nil _ _)⟩

end CkartaCompletionWakeup
