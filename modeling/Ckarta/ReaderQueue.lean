import Ckarta.ReaderProgress
import Ckarta.RequestBodyQueue

/-!
The reader and its body queue. A drive without a sink of its own writes accepted spans to
the attached queue; apart from that it only marks the queue, with the end of the body when
the request is complete and with an error when the peer closes too early.
-/
namespace CkartaReaderQueue
open MachineWord CkartaHttpParser CkartaHttpInput CkartaConnectionReader CkartaReaderSteps
  CkartaReaderTurns CkartaReaderRuns CkartaReaderProgress
open CkartaRequestBody hiding ReadResult
open CkartaRequestBodyQueue (RingHolds Sound copy_sound store_sound release_sound)
variable {σ : Type}

theorem init_holds (buffer : Nat → UInt8) : RingHolds (ckHttpRequestBodyInit buffer) [] [] :=
  (CkartaRequestBodyQueue.start_sound buffer).ring

theorem ring_flags {body : RequestBody} {accepted returned : Bytes}
    (ring : RingHolds body accepted returned) (eof error : Bool) :
    RingHolds { body with eof := eof, error := error } accepted returned :=
  ⟨ring.head_eq, ring.tail_eq, ring.order, ring.bound, ring.held⟩

theorem ring_used {body : RequestBody} {accepted returned : Bytes}
    (ring : RingHolds body accepted returned) :
    bodyUsed body.head body.tail = (accepted.drop returned.length).length := by
  rw [ring.head_eq, ring.tail_eq, List.length_drop]
  exact bodyUsed_eq ring.order.length_le ring.bound

theorem copyIn_sound {body : RequestBody} {accepted returned data rest : Bytes} {head k : Nat}
    (left : data.drop k = rest)
    (sound : Sound ⟨body, .copy data head k, .idle, accepted, returned⟩) :
    ∃ last, data[last]? = none ∧ Sound ⟨{ body with buffer := copyIn body.buffer head data.length k rest },
      .copy data head last, .idle, accepted, returned⟩ := by
  induction rest generalizing body k with
  | nil =>
    refine ⟨k, ?_, sound⟩
    rw [List.getElem?_eq_none_iff]
    exact List.drop_eq_nil_iff.mp left
  | cons b rest ih =>
    have byte : data[k]? = some b := by
      rw [← List.head?_drop, left, List.head?_cons]
    have tail : data.drop (k + 1) = rest := by
      rw [← List.tail_drop, left, List.tail_cons]
    exact ih tail (copy_sound sound rfl byte)

theorem write_holds {body : RequestBody} {accepted returned : Bytes} (data : Bytes)
    (ring : RingHolds body accepted returned) :
    let answer := ckHttpRequestBodyWrite body data
    (answer.1 = .ok ∧ answer.2.2 = data.length ∧ RingHolds answer.2.1 (accepted ++ data) returned ∧
      answer.2.1.eof = body.eof ∧ answer.2.1.error = body.error) ∨
    ((answer.1 = .closed ∨ answer.1 = .wouldBlock) ∧ answer.2.1 = body ∧ answer.2.2 = 0) := by
  have used := ring_used ring
  have shorter := ring.order.length_le
  have bound := ring.bound
  rw [List.length_drop] at used
  simp only [ckHttpRequestBodyWrite]
  by_cases empty : data.length = 0
  · rw [if_pos empty]
    exact .inl ⟨rfl, empty.symm, by simpa [List.length_eq_zero_iff.mp empty] using ring, rfl, rfl⟩
  · rw [if_neg empty]
    by_cases shut : (body.eof || body.error) = true
    · rw [if_pos shut]
      exact .inr ⟨.inl rfl, rfl, rfl⟩
    · rw [if_neg shut, if_neg (by omega)]
      by_cases full : bodyBufferBytes - bodyUsed body.head body.tail < data.length
      · rw [if_pos full]
        exact .inr ⟨.inr rfl, rfl, rfl⟩
      · rw [if_neg full]
        have begun : Sound ⟨body, .copy data body.head 0, .idle, accepted, returned⟩ :=
          ⟨ring, ⟨ring.head_eq, Nat.zero_le _, by dsimp only; omega,
            fun j less => absurd less (Nat.not_lt_zero j)⟩, trivial⟩
        obtain ⟨last, done, copied⟩ := copyIn_sound (List.drop_zero) begun
        exact .inl ⟨rfl, rfl, (store_sound copied rfl done).ring, rfl, rfl⟩

theorem copyOut_eq {body : RequestBody} {accepted returned : Bytes} {length : Nat}
    (ring : RingHolds body accepted returned) (within : length ≤ (accepted.drop returned.length).length)
    (fits : length ≤ bodyBufferBytes) :
    copyOut body.buffer body.tail length = (accepted.drop returned.length).take length := by
  apply List.ext_getElem?
  intro k
  by_cases inside : k < length
  · have place := slot_eq returned.length inside fits
    have byte := ring.held (returned.length + k) (by omega) (by
      rw [List.length_drop] at within
      omega)
    rw [List.getElem?_take_of_lt inside, List.getElem?_drop, byte]
    simp only [copyOut, List.getElem?_map, List.getElem?_range inside, Option.map_some, ring.tail_eq,
      place]
  · rw [List.getElem?_eq_none (by simp [copyOut]; omega),
      List.getElem?_eq_none (by rw [List.length_take]; omega)]

theorem read_holds {body : RequestBody} {accepted returned : Bytes} (capacity : Nat)
    (ring : RingHolds body accepted returned) :
    let queued := accepted.drop returned.length
    let answer := ckHttpRequestBodyRead body capacity
    RingHolds answer.2.1 accepted (returned ++ answer.2.2) ∧
      answer.2.1.eof = body.eof ∧ answer.2.1.error = body.error ∧ answer.2.2 = queued.take capacity ∧
      answer.1 = if queued = [] then (if body.error then .error else if body.eof then .eof else .wouldBlock)
        else if capacity = 0 then .wouldBlock else .data := by
  have used := ring_used ring
  have bound := ring.bound
  have width : (accepted.drop returned.length).length = accepted.length - returned.length :=
    List.length_drop
  simp only [ckHttpRequestBodyRead, used]
  rw [if_neg (by omega)]
  generalize queued_eq : accepted.drop returned.length = queued at *
  by_cases empty : queued = []
  · subst empty
    simp only [List.length_nil, ↓reduceIte, List.take_nil]
    repeat' split
    all_goals simpa using ring
  · have some : queued.length ≠ 0 := fun none => empty (List.length_eq_zero_iff.mp none)
    simp only [some, empty, ↓reduceIte]
    by_cases none : capacity = 0
    · simp only [none, ↓reduceIte, List.take_zero, List.append_nil]
      exact ⟨ring, trivial, trivial, trivial, trivial⟩
    · simp only [none, ↓reduceIte]
      generalize taken_eq : (if queued.length > capacity then capacity else queued.length) = length
      have short : length ≤ queued.length ∧ length ≤ capacity := by
        split at taken_eq <;> omega
      have bytes : copyOut body.buffer body.tail length = queued.take length := by
        rw [copyOut_eq ring (by rw [queued_eq]; exact short.1) (by omega), queued_eq]
      have same : queued.take length = queued.take capacity := by
        split at taken_eq
        · rw [taken_eq]
        · rw [← taken_eq, List.take_of_length_le (Nat.le_refl _), List.take_of_length_le (by omega)]
      have copying : Sound ⟨body, .idle, .copy body.tail length (queued.take length), accepted, returned⟩ := by
        refine ⟨ring, trivial, ring.tail_eq, ?_, by omega, by dsimp only; omega, ?_⟩
        · exact List.length_take_le _ _
        · dsimp only
          rw [queued_eq, List.length_take, Nat.min_eq_left short.1]
      have released := (release_sound copying rfl (by rw [List.length_take]; omega)).ring
      rw [bytes, same] at *
      exact ⟨released, trivial, trivial, rfl, trivial⟩

/-- The part of the delivered bytes that goes to the queue. -/
def forQueue (sink : Option (BodySink σ)) (data : Bytes) : Bytes :=
  match sink with
  | none => data
  | some _ => []

theorem forQueue_append (sink : Option (BodySink σ)) (data more : Bytes) :
    forQueue sink (data ++ more) = forQueue sink data ++ forQueue sink more := by
  cases sink <;> rfl

@[simp] theorem forQueue_nil (sink : Option (BodySink σ)) : forQueue sink [] = [] := by
  cases sink <;> rfl

theorem writeBodyQueue_holds {queue : RequestBody} {accepted returned : Bytes} (data : Bytes)
    (ring : RingHolds queue accepted returned) :
    (writeBodyQueue queue data).2.error = queue.error ∧ RingHolds (writeBodyQueue queue data).2
      (accepted ++ if (writeBodyQueue queue data).1 = 0 then data else []) returned := by
  have wrote := write_holds data ring
  obtain ⟨result, after, written, answer⟩ : ∃ result after written,
      ckHttpRequestBodyWrite queue data = (result, after, written) := ⟨_, _, _, rfl⟩
  simp only [writeBodyQueue, answer] at wrote ⊢
  rcases wrote with ⟨rfl, rfl, ring', -, flag⟩ | ⟨kind, rfl, -⟩
  · simpa using ⟨flag, ring'⟩
  · rcases kind with rfl | rfl
    · simpa using ring
    · simpa [bodySinkWouldBlock] using ring

/-- What a drive in progress does to the attached queue: new is written to it if the queue is
    the sink, and the error flag stays as it is. -/
structure Queues (sink : Option (BodySink σ)) (s t : DriveState σ) (new : Bytes) : Prop where
  delivered : deliveredBytes t.trace = deliveredBytes s.trace ++ new
  ring : ∀ body accepted returned, s.reader.bodyQueue = some body → RingHolds body accepted returned →
    ∃ after, t.reader.bodyQueue = some after ∧ after.error = body.error ∧
      RingHolds after (accepted ++ forQueue sink new) returned

theorem Queues.same {sink : Option (BodySink σ)} {s t : DriveState σ}
    (trace : deliveredBytes t.trace = deliveredBytes s.trace)
    (queue : t.reader.bodyQueue = s.reader.bodyQueue) : Queues sink s t [] :=
  ⟨by rw [trace, List.append_nil], fun body accepted returned attached ring =>
    ⟨body, queue.trans attached, rfl, by simpa using ring⟩⟩

theorem Queues.trans {sink : Option (BodySink σ)} {s t u : DriveState σ} {new more : Bytes}
    (first : Queues sink s t new) (second : Queues sink t u more) : Queues sink s u (new ++ more) := by
  refine ⟨by rw [second.delivered, first.delivered, List.append_assoc], ?_⟩
  intro body accepted returned attached ring
  obtain ⟨middle, there, flag, held⟩ := first.ring body accepted returned attached ring
  obtain ⟨after, here, flag', held'⟩ := second.ring middle _ returned there held
  refine ⟨after, here, flag'.trans flag, ?_⟩
  rwa [List.append_assoc, ← forQueue_append] at held'

theorem fed_queues (sink : Option (BodySink σ)) (s : DriveState σ) (y : HttpInput) (length : Nat)
    (result : InputResult) : Queues sink s ((s.setInput y).emit (.fed length result)) [] :=
  .same (by simp [DriveState.setInput, DriveState.emit, deliveredBytes]) rfl

theorem setInput_queues (sink : Option (BodySink σ)) (s : DriveState σ) (y : HttpInput) :
    Queues sink s (s.setInput y) [] := .same rfl rfl

theorem settleTurn_queues (sink : Option (BodySink σ)) (s : DriveState σ) (consumed : Nat)
    (result : InputResult) : Queues sink s (settleTurn s consumed result).1 [] := by
  simp only [settleTurn]
  split
  · refine ⟨by simp [DriveState.emit, deliveredBytes], ?_⟩
    intro body accepted returned attached ring
    refine ⟨ckHttpRequestBodyMarkEof body, by simp [DriveState.emit, attached], rfl, ?_⟩
    rw [forQueue_nil, List.append_nil]
    exact ring_flags ring true body.error
  · repeat' split
    all_goals exact .same (by simp [DriveState.emit, deliveredBytes]) rfl

theorem offerSpan_queues {sink : Option (BodySink σ)} {s t : DriveState σ} {data : Bytes} {answer : Int}
    (h : offerSpan sink s data = some (answer, t)) :
    Queues sink s t (if answer = 0 then data else []) := by
  simp only [offerSpan] at h
  split at h
  · simp only [Option.some.injEq, Prod.mk.injEq] at h
    obtain ⟨rfl, rfl⟩ := h
    refine ⟨by simp [DriveState.emit, deliveredBytes], ?_⟩
    intro body accepted returned attached ring
    exact ⟨body, attached, rfl, by simpa [forQueue] using ring⟩
  · split at h
    · rename_i queue there
      simp only [Option.some.injEq, Prod.mk.injEq] at h
      obtain ⟨rfl, rfl⟩ := h
      refine ⟨by simp [DriveState.emit, deliveredBytes], ?_⟩
      intro body accepted returned attached ring
      have same : queue = body := by rwa [there, Option.some.injEq] at attached
      subst same
      exact ⟨(writeBodyQueue queue data).2, rfl, writeBodyQueue_holds data ring⟩
    · simp at h

theorem processOne_queues (sink : Option (BodySink σ)) (s : DriveState σ) :
    ∃ new, Queues sink s (processOne sink s).1 new := by
  rw [processOne_eq]
  split
  · exact ⟨[], .same rfl rfl⟩
  · generalize ckHttpInputFeed s.reader.input s.reader.beginPos (slice s) = fed
    have begun := fed_queues sink s fed.input (slice s).length fed.result
    simp only [afterFeed]
    split
    · exact ⟨[], begun⟩
    · split
      · simp only [acceptSpan]
        split
        · exact ⟨[], begun⟩
        · rename_i answer t offered
          have held := begun.trans (offerSpan_queues offered)
          split
          · exact ⟨_, held⟩
          · split
            · exact ⟨_, held⟩
            · split
              · exact ⟨_, held⟩
              · rename_i input taken acked
                have acked := held.trans (setInput_queues sink t input)
                split
                · exact ⟨_, acked⟩
                · exact ⟨_, acked.trans (settleTurn_queues sink _ _ _)⟩
      · exact ⟨_, begun.trans (settleTurn_queues sink _ _ _)⟩

theorem receiveOne_queue (s : DriveState σ) :
    deliveredBytes (receiveOne s).1.trace = deliveredBytes s.trace ∧
      (receiveOne s).1.reader.bodyQueue = if (receiveOne s).2 = some .eofIncomplete
        then s.reader.bodyQueue.map ckHttpRequestBodyMarkError else s.reader.bodyQueue := by
  simp only [receiveOne]
  split
  · exact ⟨by simp [DriveState.emit, deliveredBytes], rfl⟩
  · refine ⟨rfl, ?_⟩
    simp only [ckHttpInputEof]
    repeat' split
    all_goals simp_all [mapInputResult]
  · exact ⟨rfl, rfl⟩
  · exact ⟨rfl, rfl⟩
  · exact ⟨rfl, rfl⟩

theorem receiveStep_queue (s : DriveState σ) :
    deliveredBytes (receiveStep s).1.trace = deliveredBytes s.trace ∧
      (receiveStep s).1.reader.bodyQueue = if (receiveStep s).2 = some .eofIncomplete
        then s.reader.bodyQueue.map ckHttpRequestBodyMarkError else s.reader.bodyQueue := by
  rcases receiveStep_cases s with ⟨t, result, ends, room⟩ | ⟨t, received, room⟩
  · rw [ends]
    cases room with
    | spent more empty => exact ⟨rfl, rfl⟩
    | full left full front => exact ⟨rfl, rfl⟩
    | starved t room empty spare => exact ⟨by rw [room.trace], room.input.2⟩
  · rw [received]
    cases room with
    | ready t room reads left spare =>
      have queue := receiveOne_queue t
      rwa [room.input.2, room.trace] at queue

theorem turn_stops {sink : Option (BodySink σ)} {s t : DriveState σ} {result : ReadResult}
    (outcome : TurnOutcome sink s (t, .stop result)) : result ≠ .eofIncomplete ∧ result ≠ .ioError := by
  cases outcome with
  | spent empty => simp
  | again _ done moved => simp
  | refused _ y z n _ held within moved unwilling kind => rcases kind with rfl | rfl <;> simp
  | acked _ z n data _ held moved goes =>
    cases goes with
    | complete done => simp
  | ran _ read rest out y _ ready cut run idle next vain moved goes =>
    cases goes with
    | complete done => simp
  | complete _ read rest n e y ready cut wide within run ends idle header done moved => simp
  | rejected _ fed _ ready feeds kind told within next moved =>
    rw [told]
    rcases kind with bad | large
    · simp [bad, mapInputResult]
    · simp [large, mapInputResult]

/-- From s a drive comes to t, and there its answer may mark the queue. -/
structure Ends (sink : Option (BodySink σ)) (s t : DriveState σ) (answer : Option ReadResult)
    (new : Bytes) : Prop where
  delivered : deliveredBytes t.trace = deliveredBytes s.trace ++ new
  ring : ∀ body accepted returned, s.reader.bodyQueue = some body → RingHolds body accepted returned →
    ∃ after, t.reader.bodyQueue = some after ∧
      after.error = (body.error || decide (answer = some .eofIncomplete)) ∧
      RingHolds after (accepted ++ forQueue sink new) returned

theorem Queues.ends {sink : Option (BodySink σ)} {s u t : DriveState σ} {answer : Option ReadResult}
    {new : Bytes} (queues : Queues sink s u new) (trace : deliveredBytes t.trace = deliveredBytes u.trace)
    (queue : t.reader.bodyQueue = if answer = some .eofIncomplete
      then u.reader.bodyQueue.map ckHttpRequestBodyMarkError else u.reader.bodyQueue) :
    Ends sink s t answer new := by
  refine ⟨trace.trans queues.delivered, ?_⟩
  intro body accepted returned attached ring
  obtain ⟨after, there, flag, held⟩ := queues.ring body accepted returned attached ring
  rw [there] at queue
  by_cases eof : answer = some .eofIncomplete
  · rw [if_pos eof] at queue
    exact ⟨ckHttpRequestBodyMarkError after, queue, by simp [ckHttpRequestBodyMarkError, eof],
      ring_flags held after.eof true⟩
  · rw [if_neg eof] at queue
    exact ⟨after, queue, by simp [flag, eof], held⟩

theorem driveStep_ends {sink : Option (BodySink σ)} {s t : DriveState σ} {answer : Option ReadResult}
    (sound : DriveSound s) (step : driveStep sink s = (t, answer)) :
    ∃ new, Ends sink s t answer new := by
  obtain ⟨new, queues⟩ := processOne_queues sink s
  rcases driveStep_inv step with ⟨-, ⟨turned, rfl⟩ | ⟨result, turned, rfl⟩⟩ | ⟨-, u, turned, received⟩ |
    ⟨-, received⟩
  · rw [turned] at queues
    exact ⟨new, queues.ends rfl rfl⟩
  · rw [turned] at queues
    exact ⟨new, queues.ends rfl (by simp [(turn_stops (turn_outcome sound turned)).1])⟩
  · have marked := receiveStep_queue u
    rw [turned] at queues
    rw [received] at marked
    exact ⟨new, queues.ends marked.1 marked.2⟩
  · have marked := receiveStep_queue s
    rw [received] at marked
    have still : Queues sink s s [] := .same rfl rfl
    exact ⟨[], still.ends marked.1 marked.2⟩

theorem Ends.after {sink : Option (BodySink σ)} {s t u : DriveState σ} {answer : Option ReadResult}
    {new more : Bytes} (first : Ends sink s t none new) (second : Ends sink t u answer more) :
    Ends sink s u answer (new ++ more) := by
  refine ⟨by rw [second.delivered, first.delivered, List.append_assoc], ?_⟩
  intro body accepted returned attached ring
  obtain ⟨middle, there, flag, held⟩ := first.ring body accepted returned attached ring
  obtain ⟨after, here, flag', held'⟩ := second.ring middle _ returned there held
  rw [List.append_assoc, ← forQueue_append] at held'
  exact ⟨after, here, by simpa [flag] using flag', held'⟩

theorem visits_ends {sink : Option (BodySink σ)} {s t : DriveState σ} (sound : DriveSound s)
    (visits : Visits sink s t) : ∃ new, Ends sink s t none new := by
  induction visits with
  | refl s =>
    have still : Queues sink s s [] := .same rfl rfl
    exact ⟨[], still.ends rfl rfl⟩
  | step first rest ih =>
    obtain ⟨new, one⟩ := driveStep_ends sound first
    obtain ⟨more, others⟩ := ih ((driveStep_sound sound first).2 rfl)
    exact ⟨new ++ more, one.after others⟩

theorem returns_ends {sink : Option (BodySink σ)} {s t : DriveState σ} {result : ReadResult}
    (sound : DriveSound s) (returns : Returns sink s t result) : ∃ new, Ends sink s t (some result) new := by
  obtain ⟨last, visits, stops⟩ := returns
  obtain ⟨new, before⟩ := visits_ends sound visits
  obtain ⟨more, ends⟩ := driveStep_ends (visits_sound sound visits) stops
  exact ⟨new ++ more, before.after ends⟩

/-- A whole drive: the queue has taken what was delivered, and its error flag is set at the end
    of the stream only. -/
theorem drive_ring {reader : ConnectionReader} {body : RequestBody} {accepted returned : Bytes}
    (sound : ReaderSound reader) (socket : Socket) (sink : Option (BodySink σ)) (context : σ)
    (attached : reader.bodyQueue = some body) (ring : RingHolds body accepted returned) :
    let driven := ckHttpConnectionReaderDrive reader socket sink context
    ∃ after, driven.1.reader.bodyQueue = some after ∧
      after.error = (body.error || decide (driven.2 = .eofIncomplete)) ∧
      RingHolds after (accepted ++ forQueue sink (deliveredBytes driven.1.trace)) returned := by
  obtain ⟨new, ends⟩ := returns_ends (startDrive_sound sound socket context)
    (drive_returns reader socket sink context)
  have delivered : deliveredBytes (ckHttpConnectionReaderDrive reader socket sink context).1.trace = new :=
    ends.delivered
  obtain ⟨after, there, flag, held⟩ := ends.ring body accepted returned attached ring
  rw [← delivered] at held
  exact ⟨after, there, by simpa using flag, held⟩

theorem write_ok_iff {body : RequestBody} {accepted returned : Bytes} (data : Bytes)
    (ring : RingHolds body accepted returned) :
    (ckHttpRequestBodyWrite body data).1 = .ok ↔ data = [] ∨ ((body.eof || body.error) = false ∧
      (accepted.drop returned.length).length + data.length ≤ bodyBufferBytes) := by
  have used := ring_used ring
  have bound := ring.bound
  have width : (accepted.drop returned.length).length = accepted.length - returned.length :=
    List.length_drop
  simp only [ckHttpRequestBodyWrite, used]
  by_cases empty : data = []
  · simp [empty]
  · have some : data.length ≠ 0 := fun none => empty (List.length_eq_zero_iff.mp none)
    rw [if_neg some]
    cases shut : body.eof || body.error with
    | true => simp [empty]
    | false =>
      simp only [Bool.false_eq_true, ↓reduceIte, empty, false_or, true_and]
      rw [if_neg (by omega)]
      split
      · simp only [reduceCtorEq, false_iff]
        omega
      · simp only [true_iff]
        omega

def eofMark (s : DriveState σ) : Option Bool := s.reader.bodyQueue.map RequestBody.eof

theorem writeBodyQueue_eof (queue : RequestBody) (data : Bytes) :
    (writeBodyQueue queue data).2.eof = queue.eof := by
  simp only [writeBodyQueue, ckHttpRequestBodyWrite]
  repeat' split
  all_goals simp_all

theorem offerSpan_eof {sink : Option (BodySink σ)} {s t : DriveState σ} {data : Bytes} {answer : Int}
    (h : offerSpan sink s data = some (answer, t)) : eofMark t = eofMark s := by
  simp only [offerSpan] at h
  split at h
  · simp only [Option.some.injEq, Prod.mk.injEq] at h
    rw [← h.2]
    rfl
  · split at h
    · rename_i queue there
      simp only [Option.some.injEq, Prod.mk.injEq] at h
      rw [← h.2]
      simp [eofMark, DriveState.emit, there, writeBodyQueue_eof]
    · simp at h

theorem settleTurn_eof (s : DriveState σ) (consumed : Nat) (result : InputResult) :
    eofMark (settleTurn s consumed result).1 = eofMark s ∨
      (settleTurn s consumed result).2 = .stop .requestComplete := by
  simp only [settleTurn]
  split
  · exact .inr rfl
  · left
    repeat' split
    all_goals rfl

theorem processOne_eof (sink : Option (BodySink σ)) (s : DriveState σ) :
    eofMark (processOne sink s).1 = eofMark s ∨ (processOne sink s).2 = .stop .requestComplete := by
  rw [processOne_eq]
  split
  · exact .inl rfl
  · generalize ckHttpInputFeed s.reader.input s.reader.beginPos (slice s) = fed
    simp only [afterFeed]
    split
    · exact .inl rfl
    · split
      · simp only [acceptSpan]
        split
        · exact .inl rfl
        · rename_i answer t offered
          have fed_ : eofMark ((s.setInput fed.input).emit (.fed (slice s).length fed.result)) =
              eofMark s := rfl
          have kept := (offerSpan_eof offered).trans fed_
          split
          · exact .inl kept
          · split
            · exact .inl kept
            · split
              · exact .inl kept
              · rename_i input taken acked
                split
                · exact .inl kept
                · rw [← kept]
                  exact settleTurn_eof (t.setInput input) _ _
      · exact settleTurn_eof ((s.setInput fed.input).emit (.fed (slice s).length fed.result)) _ _

theorem receiveStep_eof (s : DriveState σ) : eofMark (receiveStep s).1 = eofMark s := by
  rw [eofMark, (receiveStep_queue s).2]
  split
  · rw [Option.map_map]
    rfl
  · rfl

theorem turn_completes {sink : Option (BodySink σ)} {s t : DriveState σ}
    (outcome : TurnOutcome sink s (t, .stop .requestComplete)) :
    t.reader.input.messageComplete = true := by
  cases outcome with
  | again _ done moved =>
    rw [moved.input]
    exact done
  | refused _ y z n result held within moved unwilling kind => simp at kind
  | acked _ z n data turn held moved goes =>
    cases goes with
    | complete done => exact done
  | ran _ read rest out y turn ready cut run idle next vain moved goes =>
    cases goes with
    | complete done => exact done
  | complete _ read rest n e y ready cut wide within run ends idle header done moved =>
    rw [moved.input]
    exact done
  | rejected _ fed result ready feeds kind told within next moved =>
    rcases kind with bad | large
    · simp [bad, mapInputResult] at told
    · simp [large, mapInputResult] at told

theorem driveStep_eof {sink : Option (BodySink σ)} {s t : DriveState σ} {answer : Option ReadResult}
    (sound : DriveSound s) (step : driveStep sink s = (t, answer)) :
    eofMark t = eofMark s ∨ (answer ≠ none ∧ t.reader.input.messageComplete = true) := by
  have turns := processOne_eof sink s
  rcases driveStep_inv step with ⟨-, ⟨turned, rfl⟩ | ⟨result, turned, rfl⟩⟩ | ⟨-, u, turned, received⟩ |
    ⟨-, received⟩
  · rw [turned] at turns
    exact .inl (turns.resolve_right (by simp))
  · rw [turned] at turns
    rcases turns with same | complete
    · exact .inl same
    · rw [Turn.stop.injEq] at complete
      subst complete
      exact .inr ⟨by simp, turn_completes (turn_outcome sound turned)⟩
  · have kept := receiveStep_eof u
    rw [turned] at turns
    rw [received] at kept
    exact .inl (kept.trans (turns.resolve_right (by simp)))
  · have kept := receiveStep_eof s
    rw [received] at kept
    exact .inl kept

theorem visits_eof {sink : Option (BodySink σ)} {s t : DriveState σ} (sound : DriveSound s)
    (visits : Visits sink s t) : eofMark t = eofMark s := by
  induction visits with
  | refl => rfl
  | step first rest ih =>
    exact (ih ((driveStep_sound sound first).2 rfl)).trans
      ((driveStep_eof sound first).resolve_right (by simp))

theorem visits_queue {sink : Option (BodySink σ)} {s t : DriveState σ} {read out got : Bytes}
    {body : RequestBody} {accepted returned : Bytes} (sound : DriveSound s) (visits : Visits sink s t)
    (progress : Progress s t read out got) (attached : s.reader.bodyQueue = some body)
    (ring : RingHolds body accepted returned) :
    ∃ after, t.reader.bodyQueue = some after ∧ after.eof = body.eof ∧ after.error = body.error ∧
      RingHolds after (accepted ++ forQueue sink out) returned := by
  obtain ⟨new, ends⟩ := visits_ends sound visits
  have delivered := ends.delivered
  rw [progress.delivered, List.append_cancel_left_eq] at delivered
  obtain ⟨after, there, flag, held⟩ := ends.ring body accepted returned attached ring
  have mark := visits_eof sound visits
  rw [eofMark, eofMark, there, attached, Option.map_some, Option.map_some, Option.some.injEq] at mark
  exact ⟨after, there, mark, by simpa using flag, delivered ▸ held⟩

end CkartaReaderQueue
