import Ckarta.RequestBody
import Ckarta.StepHistory

/-!
One producer and one consumer on the request-body queue, interleaved. Each atomic load
or store of head, tail, eof and error and each copied byte is one step; the computation
between two of them belongs to the step before it. accepted and returned are ghosts:
the bytes of the writes that answered WRITE_OK and the bytes handed out by reads.
-/
namespace CkartaRequestBodyQueue
open MachineWord StepHistory CkartaHttpParser CkartaRequestBody

/-- Where a write call is: what it does next and what it has loaded. -/
inductive Producer where
  | idle
  | loadEof (data : Bytes)
  | loadError (data : Bytes)
  | loadHead (data : Bytes)
  | loadTail (data : Bytes) (head : Nat)
  | copy (data : Bytes) (head k : Nat)
  deriving DecidableEq, Repr

inductive Consumer where
  | idle
  | loadHead (capacity : Nat)
  | loadTail (capacity head : Nat)
  | loadError (head : Nat)
  | loadEof (head : Nat)
  | copy (tail length : Nat) (out : Bytes)
  deriving DecidableEq, Repr

inductive Event where
  | silent
  | wrote (result : WriteResult) (data : Bytes)
  | read (result : ReadResult) (bytes : Bytes)
  deriving DecidableEq, Repr

structure Queue where
  body : RequestBody
  producer : Producer
  consumer : Consumer
  accepted : Bytes
  returned : Bytes

def start (buffer : Nat → UInt8) : Queue :=
  ⟨ckHttpRequestBodyInit buffer, .idle, .idle, [], []⟩

def Queue.endWrite (q : Queue) (result : WriteResult) (data : Bytes) : Option (Queue × Event) :=
  some ({ q with producer := .idle }, .wrote result data)

def producerStep (q : Queue) : Option (Queue × Event) :=
  match q.producer with
  | .idle => none
  | .loadEof data =>
    if q.body.eof then q.endWrite .closed data
    else some ({ q with producer := .loadError data }, .silent)
  | .loadError data =>
    if q.body.error then q.endWrite .closed data
    else some ({ q with producer := .loadHead data }, .silent)
  | .loadHead data => some ({ q with producer := .loadTail data q.body.head }, .silent)
  | .loadTail data head =>
    let used := bodyUsed head q.body.tail
    if used > bodyBufferBytes then q.endWrite .invalid data
    else if bodyBufferBytes - used < data.length then q.endWrite .wouldBlock data
    else some ({ q with producer := .copy data head 0 }, .silent)
  | .copy data head k =>
    match data[k]? with
    | some b => some ({ q with
        body := { q.body with buffer := putByte q.body.buffer (slot head data.length k) b }
        producer := .copy data head (k + 1) }, .silent)
    | none => some ({ q with
        body := { q.body with head := addU64 head data.length }
        producer := .idle, accepted := q.accepted ++ data }, .wrote .ok data)

def Queue.endRead (q : Queue) (result : ReadResult) : Option (Queue × Event) :=
  some ({ q with consumer := .idle }, .read result [])

def consumerStep (q : Queue) : Option (Queue × Event) :=
  match q.consumer with
  | .idle => none
  | .loadHead capacity => some ({ q with consumer := .loadTail capacity q.body.head }, .silent)
  | .loadTail capacity head =>
    let tail := q.body.tail
    let available := bodyUsed head tail
    if available > bodyBufferBytes then q.endRead .invalid
    else if available = 0 then some ({ q with consumer := .loadError head }, .silent)
    else if capacity = 0 then q.endRead .wouldBlock
    else
      let length := if available > capacity then capacity else available
      some ({ q with consumer := .copy tail length [] }, .silent)
  | .loadError head =>
    if q.body.error then q.endRead .error
    else some ({ q with consumer := .loadEof head }, .silent)
  | .loadEof _ => if q.body.eof then q.endRead .eof else q.endRead .wouldBlock
  | .copy tail length out =>
    if out.length < length then some ({ q with
      consumer := .copy tail length (out ++ [q.body.buffer (slot tail length out.length)]) }, .silent)
    else some ({ q with
      body := { q.body with tail := addU64 tail length }
      consumer := .idle, returned := q.returned ++ out }, .read .data out)

/-- What the scheduler may let happen next: a call begins, a running call makes its next
    step, or the producer stores one of its flags. -/
inductive Move where
  | write (data : Bytes)
  | markEof
  | markError
  | producer
  | read (capacity : Nat)
  | consumer
  deriving DecidableEq, Repr

def step (q : Queue) : Move → Option (Queue × Event)
  | .write data =>
    if q.producer ≠ .idle then none
    else if data.length = 0 then some (q, .wrote .ok [])
    else some ({ q with producer := .loadEof data }, .silent)
  | .markEof =>
    if q.producer ≠ .idle then none
    else some ({ q with body := ckHttpRequestBodyMarkEof q.body }, .silent)
  | .markError =>
    if q.producer ≠ .idle then none
    else some ({ q with body := ckHttpRequestBodyMarkError q.body }, .silent)
  | .producer => producerStep q
  | .read capacity =>
    if q.consumer ≠ .idle then none else some ({ q with consumer := .loadHead capacity }, .silent)
  | .consumer => consumerStep q

/-- The ring holds what was accepted and not yet returned. -/
structure RingHolds (body : RequestBody) (accepted returned : Bytes) : Prop where
  head_eq : body.head = u64 accepted.length
  tail_eq : body.tail = u64 returned.length
  order : returned <+: accepted
  bound : accepted.length ≤ returned.length + bodyBufferBytes
  held : ∀ i, returned.length ≤ i → i < accepted.length →
    accepted[i]? = some (body.buffer (i % bodyBufferBytes))

def ProducerHolds (q : Queue) : Prop :=
  match q.producer with
  | .loadTail _ head => head = u64 q.accepted.length
  | .copy data head k => head = u64 q.accepted.length ∧ k ≤ data.length ∧
      q.accepted.length + data.length ≤ q.returned.length + bodyBufferBytes ∧
      ∀ j, j < k → data[j]? = some (q.body.buffer ((q.accepted.length + j) % bodyBufferBytes))
  | _ => True

def ConsumerHolds (q : Queue) : Prop :=
  match q.consumer with
  | .loadTail _ head => ∃ ahead, head = u64 ahead ∧ q.returned.length ≤ ahead ∧
      ahead ≤ q.accepted.length
  | .loadError head | .loadEof head => head = u64 q.returned.length
  | .copy tail length out => tail = u64 q.returned.length ∧ out.length ≤ length ∧
      length ≤ bodyBufferBytes ∧ q.returned.length + length ≤ q.accepted.length ∧
      out = (q.accepted.drop q.returned.length).take out.length
  | _ => True

structure Sound (q : Queue) : Prop where
  ring : RingHolds q.body q.accepted q.returned
  producer : ProducerHolds q
  consumer : ConsumerHolds q

theorem start_sound (buffer : Nat → UInt8) : Sound (start buffer) :=
  ⟨⟨rfl, rfl, List.prefix_refl _, Nat.zero_le _, fun i _ below => absurd below (Nat.not_lt_zero i)⟩,
    trivial, trivial⟩

theorem putByte_other {buffer : Nat → UInt8} {i j : Nat} {b : UInt8} (other : j ≠ i) :
    putByte buffer i b j = buffer j := if_neg other

theorem putByte_same {buffer : Nat → UInt8} {i : Nat} {b : UInt8} : putByte buffer i b i = b :=
  if_pos rfl

theorem copy_sound {q : Queue} {data : Bytes} {head k : Nat} {b : UInt8} (sound : Sound q)
    (running : q.producer = .copy data head k) (byte : data[k]? = some b) :
    Sound { q with
      body := { q.body with buffer := putByte q.body.buffer (slot head data.length k) b }
      producer := .copy data head (k + 1) } := by
  obtain ⟨⟨head_eq, tail_eq, order, bound, held⟩, producer, consumer⟩ := sound
  simp only [ProducerHolds, running] at producer
  obtain ⟨rfl, -, room, copied⟩ := producer
  have below : k < data.length := (List.getElem?_eq_some_iff.mp byte).1
  have shorter := order.length_le
  have place := slot_eq q.accepted.length below (by omega)
  refine ⟨⟨head_eq, tail_eq, order, bound, ?_⟩, ?_, consumer⟩
  · intro i after before
    dsimp only at after before ⊢
    have other : i % bodyBufferBytes ≠ (q.accepted.length + k) % bodyBufferBytes :=
      ring_distinct (by omega) (by omega)
    rw [place, putByte_other other]
    exact held i after before
  · refine ⟨rfl, below, room, ?_⟩
    intro j less
    dsimp only
    rw [place]
    by_cases last : j = k
    · rw [last, putByte_same]
      exact byte
    · have other := ring_distinct (i := q.accepted.length + j) (j := q.accepted.length + k)
        (by omega) (by omega)
      rw [putByte_other other]
      exact copied j (by omega)

theorem store_sound {q : Queue} {data : Bytes} {head k : Nat} (sound : Sound q)
    (running : q.producer = .copy data head k) (done : data[k]? = none) :
    Sound { q with
      body := { q.body with head := addU64 head data.length }
      producer := .idle, accepted := q.accepted ++ data } := by
  obtain ⟨⟨head_eq, tail_eq, order, bound, held⟩, producer, consumer⟩ := sound
  simp only [ProducerHolds, running] at producer
  obtain ⟨rfl, within, room, copied⟩ := producer
  have all : data.length = k := by
    have past := List.getElem?_eq_none_iff.mp done
    omega
  have shorter := order.length_le
  refine ⟨⟨?_, tail_eq, order.trans (List.prefix_append _ _), ?_, ?_⟩, trivial, ?_⟩
  · simp only [addU64_u64, List.length_append]
  · simpa using room
  · intro i after before
    simp only [List.length_append] at before
    by_cases old : i < q.accepted.length
    · rw [List.getElem?_append_left old]
      exact held i after old
    · rw [List.getElem?_append_right (by omega)]
      have byte := copied (i - q.accepted.length) (by omega)
      rwa [show q.accepted.length + (i - q.accepted.length) = i by omega] at byte
  · revert consumer
    simp only [ConsumerHolds, List.length_append]
    cases q.consumer with
    | loadTail capacity head =>
      rintro ⟨ahead, loaded, lower, upper⟩
      exact ⟨ahead, loaded, lower, by omega⟩
    | copy tail length out =>
      rintro ⟨loaded, copied, fits, upper, same⟩
      refine ⟨loaded, copied, fits, by omega, ?_⟩
      rw [List.drop_append_of_le_length shorter, List.take_append_of_le_length]
      · exact same
      · rw [List.length_drop]
        omega
    | _ => exact fun h => h

theorem producerStep_sound {q next : Queue} {event : Event} (sound : Sound q)
    (h : producerStep q = some (next, event)) : Sound next := by
  obtain ⟨ring, producer, consumer⟩ := id sound
  simp only [producerStep, Queue.endWrite] at h
  cases running : q.producer with
  | idle => simp [running] at h
  | loadEof data =>
    simp only [running] at h
    split at h <;> simp only [Option.some.injEq, Prod.mk.injEq] at h <;> obtain ⟨rfl, -⟩ := h
    · exact ⟨ring, trivial, consumer⟩
    · exact ⟨ring, trivial, consumer⟩
  | loadError data =>
    simp only [running] at h
    split at h <;> simp only [Option.some.injEq, Prod.mk.injEq] at h <;> obtain ⟨rfl, -⟩ := h
    · exact ⟨ring, trivial, consumer⟩
    · exact ⟨ring, trivial, consumer⟩
  | loadHead data =>
    simp only [running, Option.some.injEq, Prod.mk.injEq] at h
    obtain ⟨rfl, -⟩ := h
    exact ⟨ring, ring.head_eq, consumer⟩
  | loadTail data head =>
    simp only [ProducerHolds, running] at producer
    subst producer
    have used := bodyUsed_eq ring.order.length_le ring.bound
    simp only [running, ring.tail_eq, used] at h
    split at h
    · simp only [Option.some.injEq, Prod.mk.injEq] at h
      obtain ⟨rfl, -⟩ := h
      exact ⟨ring, trivial, consumer⟩
    · split at h
      · simp only [Option.some.injEq, Prod.mk.injEq] at h
        obtain ⟨rfl, -⟩ := h
        exact ⟨ring, trivial, consumer⟩
      · simp only [Option.some.injEq, Prod.mk.injEq] at h
        obtain ⟨rfl, -⟩ := h
        refine ⟨ring, ⟨rfl, Nat.zero_le _, ?_, fun j less => absurd less (Nat.not_lt_zero j)⟩, consumer⟩
        dsimp only
        have shorter := ring.order.length_le
        omega
  | copy data head k =>
    simp only [running] at h
    split at h <;> simp only [Option.some.injEq, Prod.mk.injEq] at h <;> obtain ⟨rfl, -⟩ := h
    · exact copy_sound sound running (by assumption)
    · exact store_sound sound running (by assumption)

theorem copyOut_sound {q : Queue} {tail length : Nat} {out : Bytes} (sound : Sound q)
    (running : q.consumer = .copy tail length out) (more : out.length < length) :
    Sound { q with
      consumer := .copy tail length (out ++ [q.body.buffer (slot tail length out.length)]) } := by
  obtain ⟨ring, producer, consumer⟩ := sound
  simp only [ConsumerHolds, running] at consumer
  obtain ⟨rfl, within, fits, upper, same⟩ := consumer
  refine ⟨ring, producer, rfl, by simpa [Nat.succ_le_iff] using more, fits, upper, ?_⟩
  have place := slot_eq q.returned.length more fits
  have byte := ring.held (q.returned.length + out.length) (by omega) (by omega)
  rw [List.length_append, List.length_singleton, place, List.take_add_one, ← same, List.getElem?_drop,
    byte]
  rfl

theorem release_sound {q : Queue} {tail length : Nat} {out : Bytes} (sound : Sound q)
    (running : q.consumer = .copy tail length out) (done : ¬ out.length < length) :
    Sound { q with
      body := { q.body with tail := addU64 tail length }
      consumer := .idle, returned := q.returned ++ out } := by
  obtain ⟨⟨head_eq, tail_eq, order, bound, held⟩, producer, consumer⟩ := sound
  simp only [ConsumerHolds, running] at consumer
  obtain ⟨rfl, within, fits, upper, same⟩ := consumer
  have whole : out.length = length := by omega
  refine ⟨⟨head_eq, ?_, ?_, ?_, ?_⟩, ?_, trivial⟩
  · simp only [addU64_u64, List.length_append, whole]
  · obtain ⟨rest, split⟩ := order
    rw [← split, List.drop_left] at same
    dsimp only
    rw [← split]
    refine (List.prefix_append_right_inj _).mpr ?_
    rw [same]
    exact List.take_prefix _ _
  · simp only [List.length_append]
    omega
  · intro i after before
    simp only [List.length_append] at after
    exact held i (by omega) before
  · revert producer
    simp only [ProducerHolds, List.length_append]
    cases q.producer with
    | copy data head k =>
      rintro ⟨loaded, copied, room, bytes⟩
      exact ⟨loaded, copied, by omega, bytes⟩
    | _ => exact fun h => h

theorem consumerStep_sound {q next : Queue} {event : Event} (sound : Sound q)
    (h : consumerStep q = some (next, event)) : Sound next := by
  obtain ⟨ring, producer, consumer⟩ := id sound
  simp only [consumerStep, Queue.endRead] at h
  cases running : q.consumer with
  | idle => simp [running] at h
  | loadHead capacity =>
    simp only [running, Option.some.injEq, Prod.mk.injEq] at h
    obtain ⟨rfl, -⟩ := h
    exact ⟨ring, producer, q.accepted.length, ring.head_eq, ring.order.length_le, Nat.le_refl _⟩
  | loadTail capacity head =>
    simp only [ConsumerHolds, running] at consumer
    obtain ⟨ahead, rfl, lower, upper⟩ := consumer
    have bound := ring.bound
    have available := bodyUsed_eq lower (by omega)
    simp only [running, ring.tail_eq, available] at h
    repeat' split at h
    all_goals simp only [Option.some.injEq, Prod.mk.injEq] at h
    all_goals obtain ⟨rfl, -⟩ := h
    · exact ⟨ring, producer, trivial⟩
    · rename_i none
      exact ⟨ring, producer, congrArg u64 (show ahead = q.returned.length by omega)⟩
    · exact ⟨ring, producer, trivial⟩
    · exact ⟨ring, producer, rfl, Nat.zero_le _, by omega, by dsimp only; omega, by simp⟩
    · exact ⟨ring, producer, rfl, Nat.zero_le _, by omega, by dsimp only; omega, by simp⟩
  | loadError head =>
    simp only [ConsumerHolds, running] at consumer
    simp only [running] at h
    split at h <;> simp only [Option.some.injEq, Prod.mk.injEq] at h <;> obtain ⟨rfl, -⟩ := h
    · exact ⟨ring, producer, trivial⟩
    · exact ⟨ring, producer, consumer⟩
  | loadEof head =>
    simp only [running] at h
    split at h <;> simp only [Option.some.injEq, Prod.mk.injEq] at h <;> obtain ⟨rfl, -⟩ := h
    · exact ⟨ring, producer, trivial⟩
    · exact ⟨ring, producer, trivial⟩
  | copy tail length out =>
    simp only [running] at h
    split at h <;> simp only [Option.some.injEq, Prod.mk.injEq] at h <;> obtain ⟨rfl, -⟩ := h
    · exact copyOut_sound sound running (by assumption)
    · exact release_sound sound running (by assumption)

theorem step_sound {q next : Queue} {move : Move} {event : Event} (sound : Sound q)
    (h : step q move = some (next, event)) : Sound next := by
  obtain ⟨ring, producer, consumer⟩ := id sound
  cases move with
  | producer => exact producerStep_sound sound h
  | consumer => exact consumerStep_sound sound h
  | write data =>
    simp only [step] at h
    repeat' split at h
    all_goals simp only [Option.some.injEq, Prod.mk.injEq, reduceCtorEq] at h
    all_goals obtain ⟨rfl, -⟩ := h
    · exact sound
    · exact ⟨ring, trivial, consumer⟩
  | markEof =>
    simp only [step] at h
    split at h <;> simp only [Option.some.injEq, Prod.mk.injEq, reduceCtorEq] at h
    obtain ⟨rfl, -⟩ := h
    exact ⟨⟨ring.head_eq, ring.tail_eq, ring.order, ring.bound, ring.held⟩, producer, consumer⟩
  | markError =>
    simp only [step] at h
    split at h <;> simp only [Option.some.injEq, Prod.mk.injEq, reduceCtorEq] at h
    obtain ⟨rfl, -⟩ := h
    exact ⟨⟨ring.head_eq, ring.tail_eq, ring.order, ring.bound, ring.held⟩, producer, consumer⟩
  | read capacity =>
    simp only [step] at h
    split at h <;> simp only [Option.some.injEq, Prod.mk.injEq, reduceCtorEq] at h
    obtain ⟨rfl, -⟩ := h
    exact ⟨ring, producer, trivial⟩

theorem runs_sound {buffer : Nat → UInt8} {history : List (Move × Event)} {q : Queue}
    (runs : Runs step (start buffer) history q) : Sound q := by
  apply runs.invariant fun _ => Sound
  · exact start_sound buffer
  · intro history s t move answer _ sound next
    exact step_sound sound next

theorem read_eof_inv {q next : Queue} {bytes : Bytes}
    (ends : step q .consumer = some (next, .read .eof bytes)) :
    ∃ head, q.consumer = .loadEof head ∧ q.body.eof = true := by
  simp only [step, consumerStep, Queue.endRead] at ends
  cases running : q.consumer with
  | loadEof head =>
    simp only [running] at ends
    split at ends
    · exact ⟨head, rfl, by assumption⟩
    · simp at ends
  | _ =>
    simp only [running] at ends
    repeat' split at ends
    all_goals simp at ends

/-- Does this step of a run publish bytes by storing head? -/
def storesHead : Move × Event → Bool
  | (.producer, .wrote .ok _) => true
  | _ => false

/-- A read's first step is its load of head; what comes later is kept. -/
def followRead (since : Option (List (Move × Event))) (entry : Move × Event) :
    Option (List (Move × Event)) :=
  match entry.1, since with
  | .read _, _ => none
  | .consumer, none => some []
  | _, since => since.map fun steps => steps ++ [entry]

/-- The steps of a run behind the last read's load of head. -/
def sinceHeadLoad (history : List (Move × Event)) : List (Move × Event) :=
  (history.foldl followRead none).getD []

def Quiet (steps : List (Move × Event)) : Prop := ∀ entry ∈ steps, storesHead entry = false

theorem quiet_snoc (steps : List (Move × Event)) (entry : Move × Event) :
    Quiet (steps ++ [entry]) ↔ Quiet steps ∧ storesHead entry = false := by
  simp [Quiet, or_imp, forall_and]

def Producer.data : Producer → Bytes
  | .idle => []
  | .loadEof data | .loadError data | .loadHead data | .loadTail data _ | .copy data _ _ => data

/-- A running read against the steps since its load of head: it sees all that was accepted
    exactly as long as none of them stored head. -/
def ReadFollows (since : Option (List (Move × Event))) (q : Queue) : Prop :=
  match q.consumer with
  | .loadHead _ => since = none
  | .loadTail _ head => ∃ steps ahead, since = some steps ∧ head = u64 ahead ∧
      q.returned.length ≤ ahead ∧ ahead ≤ q.accepted.length ∧ (ahead = q.accepted.length ↔ Quiet steps)
  | .loadError _ | .loadEof _ => ∃ steps, since = some steps ∧
      (q.returned.length = q.accepted.length ↔ Quiet steps)
  | _ => True

structure Follows (history : List (Move × Event)) (q : Queue) : Prop where
  writing : q.producer ≠ .idle → q.producer.data ≠ []
  reading : ReadFollows (history.foldl followRead none) q

structure Publishes (q next : Queue) (entry : Move × Event) : Prop where
  writing : next.producer ≠ .idle → next.producer.data ≠ []
  consumer : next.consumer = q.consumer
  returned : next.returned = q.returned
  longer : q.accepted.length ≤ next.accepted.length
  stores : q.accepted.length < next.accepted.length ↔ storesHead entry = true

theorem producerStep_publishes {q next : Queue} {event : Event}
    (writing : q.producer ≠ .idle → q.producer.data ≠ [])
    (h : producerStep q = some (next, event)) : Publishes q next (.producer, event) := by
  unfold producerStep at h
  cases running : q.producer with
  | idle => simp [running] at h
  | loadEof data | loadError data | loadHead data | loadTail data head =>
    have nonempty : data ≠ [] := by simpa [running, Producer.data] using writing
    simp only [running, Queue.endWrite] at h
    repeat' split at h
    all_goals simp only [Option.some.injEq, Prod.mk.injEq] at h
    all_goals obtain ⟨rfl, rfl⟩ := h
    all_goals refine ⟨?_, rfl, rfl, Nat.le_refl _, by simp [storesHead]⟩
    all_goals simp [Producer.data, nonempty]
  | copy data head k =>
    have nonempty : data ≠ [] := by simpa [running, Producer.data] using writing
    simp only [running] at h
    split at h
    all_goals simp only [Option.some.injEq, Prod.mk.injEq] at h
    all_goals obtain ⟨rfl, rfl⟩ := h
    · exact ⟨fun _ => nonempty, rfl, rfl, Nat.le_refl _, by simp [storesHead]⟩
    · have positive := List.length_pos_iff.mpr nonempty
      exact ⟨fun busy => absurd rfl busy, rfl, rfl, by simp, by simp [storesHead, positive]⟩

theorem step_publishes {q next : Queue} {move : Move} {event : Event}
    (writing : q.producer ≠ .idle → q.producer.data ≠ []) (h : step q move = some (next, event))
    (own : move ≠ .consumer) (running : ∀ capacity, move ≠ .read capacity) :
    Publishes q next (move, event) := by
  cases move with
  | producer => exact producerStep_publishes writing h
  | consumer => exact absurd rfl own
  | read capacity => exact absurd rfl (running capacity)
  | write data =>
    simp only [step] at h
    repeat' split at h
    all_goals simp only [Option.some.injEq, Prod.mk.injEq, reduceCtorEq] at h
    all_goals obtain ⟨rfl, rfl⟩ := h
    · exact ⟨writing, rfl, rfl, Nat.le_refl _, by simp [storesHead]⟩
    · rename_i nonempty
      exact ⟨fun _ none => nonempty (congrArg List.length none), rfl, rfl, Nat.le_refl _,
        by simp [storesHead]⟩
  | markEof | markError =>
    simp only [step] at h
    split at h <;> simp only [Option.some.injEq, Prod.mk.injEq, reduceCtorEq] at h
    obtain ⟨rfl, rfl⟩ := h
    exact ⟨writing, rfl, rfl, Nat.le_refl _, by simp [storesHead]⟩

theorem ReadFollows.publishes {q next : Queue} {since : Option (List (Move × Event))}
    {entry : Move × Event} (follows : ReadFollows since q)
    (shorter : q.returned.length ≤ q.accepted.length) (step : Publishes q next entry) :
    ReadFollows (since.map fun steps => steps ++ [entry]) next := by
  have longer := step.longer
  have stores := step.stores
  simp only [ReadFollows, step.consumer, step.returned] at follows ⊢
  cases running : q.consumer with
  | loadHead capacity =>
    simp only [running] at follows
    rw [follows, Option.map_none]
  | loadTail capacity head =>
    simp only [running] at follows
    obtain ⟨steps, ahead, loaded, same, lower, upper, quiet⟩ := follows
    refine ⟨steps ++ [entry], ahead, by rw [loaded, Option.map_some], same, lower, by omega, ?_⟩
    rw [quiet_snoc, ← quiet, ← Bool.not_eq_true, ← stores]
    omega
  | loadError head | loadEof head =>
    simp only [running] at follows
    obtain ⟨steps, loaded, quiet⟩ := follows
    refine ⟨steps ++ [entry], by rw [loaded, Option.map_some], ?_⟩
    rw [quiet_snoc, ← quiet, ← Bool.not_eq_true, ← stores]
    omega
  | idle | copy tail length out => trivial

theorem consumerStep_follows {q next : Queue} {event : Event} {since : Option (List (Move × Event))}
    (sound : Sound q) (follows : ReadFollows since q) (h : consumerStep q = some (next, event)) :
    ReadFollows (followRead since (.consumer, event)) next := by
  unfold consumerStep at h
  cases running : q.consumer with
  | idle => simp [running] at h
  | loadHead capacity =>
    simp only [ReadFollows, running] at follows
    simp only [running, Option.some.injEq, Prod.mk.injEq] at h
    rw [follows, ← h.1]
    exact ⟨[], q.accepted.length, rfl, sound.ring.head_eq, sound.ring.order.length_le, Nat.le_refl _,
      by simp [Quiet]⟩
  | loadTail capacity head =>
    simp only [ReadFollows, running] at follows
    obtain ⟨steps, ahead, rfl, rfl, lower, upper, quiet⟩ := follows
    have bound := sound.ring.bound
    have available := bodyUsed_eq lower (by omega)
    simp only [running, sound.ring.tail_eq, available, Queue.endRead] at h
    repeat' split at h
    all_goals simp only [Option.some.injEq, Prod.mk.injEq] at h
    all_goals obtain ⟨rfl, rfl⟩ := h
    · trivial
    · rename_i none
      have all : ahead = q.returned.length := by omega
      refine ⟨steps ++ [(.consumer, .silent)], rfl, ?_⟩
      rw [quiet_snoc, ← quiet, all]
      simp [storesHead]
    · trivial
    · trivial
    · trivial
  | loadError head =>
    simp only [ReadFollows, running] at follows
    obtain ⟨steps, rfl, quiet⟩ := follows
    simp only [running, Queue.endRead] at h
    split at h <;> simp only [Option.some.injEq, Prod.mk.injEq] at h <;> obtain ⟨rfl, rfl⟩ := h
    · trivial
    · refine ⟨steps ++ [(.consumer, .silent)], rfl, ?_⟩
      rw [quiet_snoc, ← quiet]
      simp [storesHead]
  | loadEof head =>
    simp only [running, Queue.endRead] at h
    split at h <;> simp only [Option.some.injEq, Prod.mk.injEq] at h <;> rw [← h.1] <;> trivial
  | copy tail length out =>
    simp only [running] at h
    split at h <;> simp only [Option.some.injEq, Prod.mk.injEq] at h <;> rw [← h.1] <;> trivial

theorem consumerStep_producer {q next : Queue} {event : Event}
    (h : consumerStep q = some (next, event)) : next.producer = q.producer := by
  unfold consumerStep at h
  simp only [Queue.endRead] at h
  repeat' split at h
  all_goals simp only [Option.some.injEq, Prod.mk.injEq, reduceCtorEq] at h
  all_goals rw [← h.1]

theorem step_follows {history : List (Move × Event)} {q next : Queue} {move : Move} {event : Event}
    (sound : Sound q) (follows : Follows history q) (h : step q move = some (next, event)) :
    Follows (history ++ [(move, event)]) next := by
  obtain ⟨writing, reading⟩ := follows
  have shorter := sound.ring.order.length_le
  cases move with
  | consumer =>
    refine ⟨by rwa [consumerStep_producer h], ?_⟩
    rw [List.foldl_append]
    exact consumerStep_follows sound reading h
  | read capacity =>
    simp only [step] at h
    split at h <;> simp only [Option.some.injEq, Prod.mk.injEq, reduceCtorEq] at h
    obtain ⟨rfl, rfl⟩ := h
    refine ⟨writing, ?_⟩
    rw [List.foldl_append]
    rfl
  | write data | markEof | markError | producer =>
    have published := step_publishes writing h (by simp) (by simp)
    refine ⟨published.writing, ?_⟩
    rw [List.foldl_append]
    exact reading.publishes shorter published

theorem runs_follow {buffer : Nat → UInt8} {history : List (Move × Event)} {q : Queue}
    (runs : Runs step (start buffer) history q) : Follows history q := by
  apply runs.invariant Follows
  · exact ⟨fun busy => absurd rfl busy, trivial⟩
  · intro history s t move answer before follows next
    exact step_follows (runs_sound before) follows next

/-- In every interleaving, a read that answers READ_EOF has left no accepted byte behind
    if and only if no step between its load of head and its load of eof stored head. -/
theorem read_eof_after_body_iff (buffer : Nat → UInt8) (history : List (Move × Event)) (q next : Queue)
    (bytes : Bytes) (runs : Runs step (start buffer) history q)
    (ends : step q .consumer = some (next, .read .eof bytes)) :
    q.returned = q.accepted ↔ ∀ entry ∈ sinceHeadLoad history, storesHead entry = false := by
  have sound := runs_sound runs
  have follows := (runs_follow runs).reading
  obtain ⟨head, running, -⟩ := read_eof_inv ends
  simp only [ReadFollows, running] at follows
  obtain ⟨steps, loaded, quiet⟩ := follows
  rw [sinceHeadLoad, loaded, Option.getD_some]
  constructor
  · intro same
    exact quiet.mp (congrArg List.length same)
  · intro unstored
    exact sound.ring.order.eq_of_length (quiet.mpr unstored)

/-- Two writes and three reads step by step in turn; mark_eof falls between the last read's
    load of head and its load of eof, the stores of head come before it. -/
def orderlySchedule : List Move :=
  [.write [7, 8], .read 2] ++ List.replicate 7 .producer ++ [.consumer, .write [9], .consumer,
    .producer, .consumer, .producer, .consumer, .producer, .consumer] ++ List.replicate 3 .producer ++
    [.read 4] ++ List.replicate 4 .consumer ++ [.read 4, .consumer, .markEof, .consumer, .consumer]

theorem read_eof_after_body_orderly :
    ∃ history q next, Runs step (start fun _ => 0) history q ∧
      step q .consumer = some (next, .read .eof []) ∧ q.returned = q.accepted ∧
      q.accepted = [7, 8, 9] := by
  have reaches : ((execute step (start fun _ => 0) orderlySchedule).bind fun last =>
      (step last.2 .consumer).map fun out =>
        (out.2, (sinceHeadLoad last.1).all fun entry => !storesHead entry, last.2.accepted)) =
      some (.read .eof [], true, [7, 8, 9]) := by decide
  simp only [Option.bind_eq_some_iff, Option.map_eq_some_iff, Prod.mk.injEq] at reaches
  obtain ⟨⟨history, q⟩, executed, ⟨next, event⟩, ends, rfl, quiet, accepted⟩ := reaches
  have runs := execute_runs executed
  refine ⟨history, q, next, runs, ends, ?_, accepted⟩
  exact (read_eof_after_body_iff _ _ q next [] runs ends).mpr (by simpa using quiet)

/-- The read loads head, then a whole write and mark_eof happen, then it loads eof. -/
def lateSchedule : List Move :=
  [.read 1, .consumer, .write [7]] ++ List.replicate 6 .producer ++ [.markEof] ++
    List.replicate 2 .consumer

theorem read_eof_before_body :
    ∃ history q next, Runs step (start fun _ => 0) history q ∧
      step q .consumer = some (next, .read .eof []) ∧ q.accepted = [7] ∧ q.returned = [] := by
  have reaches : ((execute step (start fun _ => 0) lateSchedule).bind fun last =>
      (step last.2 .consumer).map fun out => (out.2, last.2.accepted, last.2.returned)) =
      some (.read .eof [], [7], []) := by decide
  simp only [Option.bind_eq_some_iff, Option.map_eq_some_iff, Prod.mk.injEq] at reaches
  obtain ⟨⟨history, q⟩, executed, ⟨next, event⟩, ends, rfl, accepted, returned⟩ := reaches
  exact ⟨history, q, next, execute_runs executed, ends, accepted, returned⟩

end CkartaRequestBodyQueue
