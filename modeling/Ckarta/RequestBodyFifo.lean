import Ckarta.RequestBodyQueue
import Ckarta.StepHistory

/-!
The request-body queue as a bounded FIFO, read off the answers of its calls: what reads
handed out is a prefix of what successful writes took in, in every interleaving.
-/
namespace CkartaRequestBodyFifo
open MachineWord StepHistory CkartaHttpParser CkartaRequestBody CkartaRequestBodyQueue

def Event.written : Event → Bytes
  | .wrote .ok data => data
  | _ => []

def Event.handedOut : Event → Bytes
  | .read _ bytes => bytes
  | _ => []

def writtenBytes (history : List (Move × Event)) : Bytes := history.flatMap fun entry => Event.written entry.2

def readBytes (history : List (Move × Event)) : Bytes := history.flatMap fun entry => Event.handedOut entry.2

def Event.invalid : Event → Prop
  | .wrote .invalid _ => True
  | .read .invalid _ => True
  | _ => False

def writtenSlot (q : Queue) : Move → Option Nat
  | .producer => match q.producer with
    | .copy data head k => if k < data.length then some (slot head data.length k) else none
    | _ => none
  | _ => none

structure StepKeeps (q next : Queue) (event : Event) : Prop where
  accepted : next.accepted = q.accepted ++ Event.written event
  returned : next.returned = q.returned ++ Event.handedOut event
  publishes : (∀ data, event ≠ .wrote .ok data) → next.body.head = q.body.head

theorem producerStep_keeps {q next : Queue} {event : Event}
    (h : producerStep q = some (next, event)) : StepKeeps q next event := by
  unfold producerStep at h
  cases running : q.producer with
  | idle => simp [running] at h
  | loadEof data | loadError data | loadHead data | loadTail data head =>
    simp only [running, Queue.endWrite] at h
    repeat' split at h
    all_goals simp only [Option.some.injEq, Prod.mk.injEq] at h
    all_goals obtain ⟨rfl, rfl⟩ := h
    all_goals exact ⟨by simp [Event.written], by simp [Event.handedOut], fun _ => rfl⟩
  | copy data head k =>
    simp only [running] at h
    split at h
    all_goals simp only [Option.some.injEq, Prod.mk.injEq] at h
    all_goals obtain ⟨rfl, rfl⟩ := h
    · exact ⟨by simp [Event.written], by simp [Event.handedOut], fun _ => rfl⟩
    · refine ⟨by simp [Event.written], by simp [Event.handedOut], ?_⟩
      intro other
      exact absurd rfl (other data)

theorem consumerStep_keeps {q next : Queue} {event : Event}
    (h : consumerStep q = some (next, event)) : StepKeeps q next event := by
  unfold consumerStep at h
  cases running : q.consumer with
  | idle => simp [running] at h
  | loadHead capacity | loadTail capacity head | loadError head | loadEof head | copy tail length out =>
    simp only [running, Queue.endRead] at h
    repeat' split at h
    all_goals simp only [Option.some.injEq, Prod.mk.injEq] at h
    all_goals obtain ⟨rfl, rfl⟩ := h
    all_goals exact ⟨by simp [Event.written], by simp [Event.handedOut], fun _ => rfl⟩

theorem step_keeps {q next : Queue} {move : Move} {event : Event}
    (h : step q move = some (next, event)) : StepKeeps q next event := by
  cases move with
  | producer => exact producerStep_keeps h
  | consumer => exact consumerStep_keeps h
  | write data | markEof | markError | read capacity =>
    simp only [step] at h
    repeat' split at h
    all_goals simp only [Option.some.injEq, Prod.mk.injEq, reduceCtorEq] at h
    all_goals obtain ⟨rfl, rfl⟩ := h
    all_goals exact ⟨by simp [Event.written], by simp [Event.handedOut], fun _ => rfl⟩

structure Holds (history : List (Move × Event)) (q : Queue) : Prop where
  sound : Sound q
  accepted : q.accepted = writtenBytes history
  returned : q.returned = readBytes history

theorem runs_hold {buffer : Nat → UInt8} {history : List (Move × Event)} {q : Queue}
    (runs : Runs step (start buffer) history q) : Holds history q := by
  apply runs.invariant Holds
  · exact ⟨start_sound buffer, rfl, rfl⟩
  · intro history s t move answer before holds next
    have keeps := step_keeps next
    constructor
    · exact step_sound holds.sound next
    · rw [keeps.accepted, holds.accepted]
      simp [writtenBytes]
    · rw [keeps.returned, holds.returned]
      simp [readBytes]

theorem used_le {q : Queue} (sound : Sound q) : bodyUsed q.body.head q.body.tail ≤ bodyBufferBytes := by
  have shorter := sound.ring.order.length_le
  have bound := sound.ring.bound
  rw [sound.ring.head_eq, sound.ring.tail_eq, bodyUsed_eq shorter bound]
  omega

theorem producerStep_valid {q next : Queue} {event : Event} (sound : Sound q)
    (h : producerStep q = some (next, event)) : ¬ Event.invalid event := by
  unfold producerStep at h
  cases running : q.producer with
  | idle => simp [running] at h
  | loadTail data head =>
    have view := sound.producer
    have bounded := used_le sound
    simp only [ProducerHolds, running] at view
    rw [sound.ring.head_eq, ← view] at bounded
    simp only [running, Queue.endWrite, Nat.not_lt.mpr bounded, ↓reduceIte] at h
    split at h
    all_goals simp only [Option.some.injEq, Prod.mk.injEq] at h
    all_goals simp [← h.2, Event.invalid]
  | loadEof data | loadError data | loadHead data | copy data head k =>
    simp only [running, Queue.endWrite] at h
    repeat' split at h
    all_goals simp only [Option.some.injEq, Prod.mk.injEq] at h
    all_goals simp [← h.2, Event.invalid]

theorem consumerStep_valid {q next : Queue} {event : Event} (sound : Sound q)
    (h : consumerStep q = some (next, event)) : ¬ Event.invalid event := by
  unfold consumerStep at h
  cases running : q.consumer with
  | idle => simp [running] at h
  | loadTail capacity head =>
    have view := sound.consumer
    simp only [ConsumerHolds, running] at view
    obtain ⟨ahead, rfl, lower, upper⟩ := view
    have bound := sound.ring.bound
    have bounded : ¬ bodyUsed (u64 ahead) q.body.tail > bodyBufferBytes := by
      rw [sound.ring.tail_eq, bodyUsed_eq lower (by omega)]
      omega
    simp only [running, Queue.endRead, bounded, ↓reduceIte] at h
    repeat' split at h
    all_goals simp only [Option.some.injEq, Prod.mk.injEq] at h
    all_goals simp [← h.2, Event.invalid]
  | loadHead capacity | loadError head | loadEof head | copy tail length out =>
    simp only [running, Queue.endRead] at h
    repeat' split at h
    all_goals simp only [Option.some.injEq, Prod.mk.injEq] at h
    all_goals simp [← h.2, Event.invalid]

theorem step_valid {q next : Queue} {move : Move} {event : Event} (sound : Sound q)
    (h : step q move = some (next, event)) : ¬ Event.invalid event := by
  cases move with
  | producer => exact producerStep_valid sound h
  | consumer => exact consumerStep_valid sound h
  | write data | markEof | markError | read capacity =>
    simp only [step] at h
    repeat' split at h
    all_goals simp only [Option.some.injEq, Prod.mk.injEq, reduceCtorEq] at h
    all_goals simp [← h.2, Event.invalid]

theorem writtenSlot_free {q : Queue} {move : Move} {i p : Nat} (sound : Sound q)
    (written : writtenSlot q move = some i) (after : q.returned.length ≤ p)
    (before : p < q.accepted.length) : p % bodyBufferBytes ≠ i := by
  unfold writtenSlot at written
  split at written
  · split at written
    · rename_i data head k running
      split at written
      · rename_i within
        have view := sound.producer
        have shorter := sound.ring.order.length_le
        simp only [ProducerHolds, running] at view
        obtain ⟨rfl, -, room, -⟩ := view
        rw [Option.some.injEq, slot_eq q.accepted.length within (by omega)] at written
        rw [← written]
        exact ring_distinct (by omega) (by omega)
      · simp at written
    · simp at written
  · simp at written

theorem step_buffer {q next : Queue} {move : Move} {event : Event} {i : Nat}
    (h : step q move = some (next, event)) (other : writtenSlot q move ≠ some i) :
    next.body.buffer i = q.body.buffer i := by
  cases move with
  | producer =>
    simp only [step, producerStep, Queue.endWrite] at h
    cases running : q.producer with
    | copy data head k =>
      simp only [running] at h
      split at h
      · rename_i b byte
        have within := (List.getElem?_eq_some_iff.mp byte).1
        simp only [Option.some.injEq, Prod.mk.injEq] at h
        rw [← h.1]
        apply putByte_other
        intro same
        simp [writtenSlot, running, within, same] at other
      · simp only [Option.some.injEq, Prod.mk.injEq] at h
        rw [← h.1]
    | idle => simp [running] at h
    | loadEof data | loadError data | loadHead data | loadTail data head =>
      simp only [running] at h
      repeat' split at h
      all_goals simp only [Option.some.injEq, Prod.mk.injEq] at h
      all_goals rw [← h.1]
  | consumer =>
    simp only [step, consumerStep, Queue.endRead] at h
    repeat' split at h
    all_goals simp only [Option.some.injEq, Prod.mk.injEq, reduceCtorEq] at h
    all_goals rw [← h.1]
  | write data | markEof | markError | read capacity =>
    simp only [step, ckHttpRequestBodyMarkEof, ckHttpRequestBodyMarkError] at h
    repeat' split at h
    all_goals simp only [Option.some.injEq, Prod.mk.injEq, reduceCtorEq] at h
    all_goals rw [← h.1]

theorem runs_valid {buffer : Nat → UInt8} {history : List (Move × Event)} {q : Queue}
    (runs : Runs step (start buffer) history q) : ∀ entry ∈ history, ¬ Event.invalid entry.2 := by
  apply runs.invariant fun history _ => ∀ entry ∈ history, ¬ Event.invalid entry.2
  · simp
  · intro history s t move answer before valid next entry member
    rcases List.mem_append.mp member with earlier | last
    · exact valid entry earlier
    · rw [List.mem_singleton.mp last]
      exact step_valid (runs_hold before).sound next

/-- The queue is a loss-free bounded FIFO in every interleaving: after any run, and at any
    step that may follow it. -/
theorem queue_is_fifo {buffer : Nat → UInt8} {history : List (Move × Event)} {q : Queue}
    (runs : Runs step (start buffer) history q) :
    readBytes history <+: writtenBytes history ∧
      bodyUsed q.body.head q.body.tail ≤ bodyBufferBytes ∧
      (∀ entry ∈ history, ¬ Event.invalid entry.2) ∧
      ∀ move next event, step q move = some (next, event) →
        (∀ i, writtenSlot q move ≠ some i → next.body.buffer i = q.body.buffer i) ∧
        (∀ i, writtenSlot q move = some i → ∀ p, (readBytes history).length ≤ p →
          p < (writtenBytes history).length → p % bodyBufferBytes ≠ i) ∧
        ((∀ data, event ≠ .wrote .ok data) → next.body.head = q.body.head) := by
  have holds := runs_hold runs
  refine ⟨?_, used_le holds.sound, runs_valid runs, ?_⟩
  · rw [← holds.returned, ← holds.accepted]
    exact holds.sound.ring.order
  · intro move next event follows
    refine ⟨fun i other => step_buffer follows other, ?_, (step_keeps follows).publishes⟩
    intro i written p after before
    rw [← holds.returned] at after
    rw [← holds.accepted] at before
    exact writtenSlot_free holds.sound written after before

/-- Three writes and three reads step by step in turn, up to the copy of the last byte. -/
def busySchedule : List Move :=
  [.write [7]] ++ List.replicate 6 .producer ++
    [.write [8, 9], .read 2, .producer, .consumer, .producer, .consumer, .producer, .consumer,
      .producer, .consumer, .producer, .producer, .producer] ++
    [.read 1, .write [10, 11], .consumer, .producer, .consumer, .producer, .consumer, .producer,
      .consumer, .producer, .read 5, .producer]

theorem queue_is_fifo_busy :
    ∃ history q next, Runs step (start fun _ => 0) history q ∧ writtenBytes history = [7, 8, 9] ∧
      readBytes history = [7, 8] ∧ readBytes history <+: writtenBytes history ∧
      (∀ entry ∈ history, ¬ Event.invalid entry.2) ∧ step q .producer = some (next, .silent) ∧
      writtenSlot q .producer = some 4 ∧ next.body.buffer 2 = q.body.buffer 2 ∧
      (∀ p, 2 ≤ p → p < 3 → p % bodyBufferBytes ≠ 4) ∧ next.body.head = q.body.head := by
  have reaches : ((execute step (start fun _ => 0) busySchedule).bind fun last =>
      (step last.2 .producer).map fun out =>
        (out.2, writtenBytes last.1, readBytes last.1, writtenSlot last.2 .producer)) =
      some (.silent, [7, 8, 9], [7, 8], some 4) := by decide
  simp only [Option.bind_eq_some_iff, Option.map_eq_some_iff, Prod.mk.injEq] at reaches
  obtain ⟨⟨history, q⟩, executed, ⟨next, event⟩, follows, rfl, written, returned, place⟩ := reaches
  have runs := execute_runs executed
  obtain ⟨order, -, valid, steps⟩ := queue_is_fifo runs
  obtain ⟨others, free, unpublished⟩ := steps .producer next .silent follows
  have unread := free 4 place
  rw [written, returned] at unread
  refine ⟨history, q, next, runs, written, returned, order, valid, follows, place, ?_, unread, ?_⟩
  · exact others 2 (by simp [place])
  · exact unpublished (by simp)

end CkartaRequestBodyFifo
