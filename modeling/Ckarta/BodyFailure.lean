import Ckarta.FeedVerdict
import Ckarta.BufferLimit
import Ckarta.ReaderQueue

/-!
A body that breaks off, seen by the consumer of the queue. Of the exits a drive takes with the
body unfinished only the end of the stream marks the queue; after a refused feed, a full
buffer or a failed recv the consumer is left waiting. Which exit a drive takes is read off the
stream before it: the buffered bytes and those the socket gives at once.
-/
namespace CkartaBodyFailure
open MachineWord PrefixMachine CkartaHttpParser CkartaHttpInput CkartaInputMachine CkartaInputStream
  CkartaRequestBody CkartaReaderSteps CkartaReaderTurns CkartaReaderRuns CkartaReaderProgress
  CkartaReaderRejection CkartaReaderQueue CkartaFeedVerdict CkartaReaderExits CkartaCompletedDrive
open CkartaConnectionReader hiding ReadResult
open CkartaRequestBodyQueue (RingHolds)

/-- A reader with its queue as the sink, and what the queue has taken and given back for the
    current request. -/
inductive BodyRun (buffer : Nat → UInt8) : ConnectionReader → Bytes → Bytes → Prop where
  | start : BodyRun buffer (ckHttpConnectionReaderAttachBodyQueue ckHttpConnectionReaderInit
      (some (ckHttpRequestBodyInit buffer))) [] []
  | drive {reader : ConnectionReader} {accepted returned : Bytes} (socket : Socket)
      (before : BodyRun buffer reader accepted returned) :
      BodyRun buffer (ckHttpConnectionReaderDrive reader socket (none : Option (BodySink Unit)) ()).1.reader
        (accepted ++ deliveredBytes
          (ckHttpConnectionReaderDrive reader socket (none : Option (BodySink Unit)) ()).1.trace) returned
  | read {reader : ConnectionReader} {body : RequestBody} {accepted returned : Bytes} (capacity : Nat)
      (before : BodyRun buffer reader accepted returned) (attached : reader.bodyQueue = some body) :
      BodyRun buffer { reader with bodyQueue := some (ckHttpRequestBodyRead body capacity).2.1 }
        accepted (returned ++ (ckHttpRequestBodyRead body capacity).2.2)
  | next {reader next : ConnectionReader} {accepted returned : Bytes}
      (before : BodyRun buffer reader accepted returned)
      (recycles : ckHttpConnectionReaderNextRequest reader = some next) : BodyRun buffer next [] []

def BodyOpen (input : HttpInput) : Prop := input.headerComplete = true ∧ input.messageComplete = false

def Failed (result : CkartaConnectionReader.ReadResult) : Prop :=
  result = .badRequest ∨ result = .tooLarge ∨ result = .eofIncomplete ∨ result = .ioError

/-- What a consumer gets that reads with these capacities. -/
def readOn : RequestBody → List Nat → List (ReadResult × Bytes)
  | _, [] => []
  | body, capacity :: capacities =>
    ((ckHttpRequestBodyRead body capacity).1, (ckHttpRequestBodyRead body capacity).2.2) ::
      readOn (ckHttpRequestBodyRead body capacity).2.1 capacities

def failedReads : Bytes → List Nat → List (ReadResult × Bytes)
  | _, [] => []
  | [], _ :: capacities => (.error, []) :: failedReads [] capacities
  | b :: queued, capacity :: capacities =>
    (.data, (b :: queued).take capacity) :: failedReads ((b :: queued).drop capacity) capacities

/-- A drive that fails with the body open leaves the error flag set, and a consumer hears of it
    behind the queued bytes. -/
def FailsConsumer (driven : DriveState Unit × CkartaConnectionReader.ReadResult) (queued : Bytes) : Prop :=
  Failed driven.2 → BodyOpen driven.1.reader.input →
    ∃ body, driven.1.reader.bodyQueue = some body ∧ body.error = true ∧
      ∀ capacities, (∀ capacity ∈ capacities, 0 < capacity) →
        readOn body capacities = failedReads queued capacities

/-- Reading what it sees of the stream the input comes to f, within the body, and the queue takes
    the body bytes on the way. -/
structure ReadsTo (x : HttpInput) (sees : Bytes) (takes : Bytes → Prop) (read rest : Bytes)
    (f : HttpInput) : Prop where
  cut : sees = read ++ rest
  run : ∃ out, Steps inputMachine (settled x) read out f ∧ takes out
  unfinished : BodyOpen f

/-- The stream breaks the body off without a word to the queue: the framing is refused, or the
    input waits while the buffer fills up, or while recv fails. -/
inductive BreaksOff (x : HttpInput) (stream : Bytes) (socket : Socket) (reads budget : Nat)
    (takes : Bytes → Prop) : Prop where
  | framing (read rest : Bytes) (f : HttpInput) (n : Nat) (verdict : Verdict)
      (comes : ReadsTo x (stream.take budget) takes read rest f)
      (refuses : inputAct f rest = .halt n verdict) (kind : verdict.1 ≠ .complete) :
      BreaksOff x stream socket reads budget takes
  | full (read rest : Bytes) (f : HttpInput) (comes : ReadsTo x (stream.take budget) takes read rest f)
      (waits : inputAct f rest = .wait) (more : rest ≠ [])
      (fills : readBufferBytes + read.length ≤ stream.length) :
      BreaksOff x stream socket reads budget takes
  | socket (read rest : Bytes) (f : HttpInput) (comes : ReadsTo x (stream.take budget) takes read rest f)
      (waits : inputAct f rest = .wait) (paid : rest ≠ [] ∨ stream.length ≤ budget)
      (early : (incoming socket).length < reads) (fails : firstAnswer socket = .error) :
      BreaksOff x stream socket reads budget takes

def heldBytes (reader : ConnectionReader) : Bytes :=
  spanBytes reader.buffer reader.input.pendingBodyData reader.input.pendingBodyLength

/-- What a drive of this reader reads on this socket breaks the body off. -/
def SocketBreaksOff (reader : ConnectionReader) (body : RequestBody) (socket : Socket) : Prop :=
  BreaksOff (CkartaBufferLimit.resume reader.input).1
    (arrives ((unparsed reader).drop (CkartaBufferLimit.resume reader.input).2) socket readBudgetBytes)
    socket readBudgetBytes (processBudgetBytes - (CkartaBufferLimit.resume reader.input).2)
    fun out => (ckHttpRequestBodyWrite body (heldBytes reader ++ out)).1 = .ok

/-- The decoder's count of body bytes does not reach its end in this drive. -/
def CountsOn (reader : ConnectionReader) : Prop :=
  (CkartaBufferLimit.resume reader.input).1.chunked.totalDecoded + processBudgetBytes ≤ uint64Max

/-- The queue has its error flag already, or nothing of what the drive reads breaks the body off. -/
def Unbroken (reader : ConnectionReader) (socket : Socket) : Prop :=
  ∃ body, reader.bodyQueue = some body ∧
    (body.error = true ∨ (CountsOn reader ∧ ¬ SocketBreaksOff reader body socket))

structure BodyHolds (reader : ConnectionReader) (accepted returned : Bytes) : Prop where
  reachable : Reachable reader
  queue : ∃ body, reader.bodyQueue = some body ∧ RingHolds body accepted returned ∧
    (body.eof = true → reader.input.messageComplete = true)

theorem drive_eof {reader : ConnectionReader} (sound : ReaderSound reader) (socket : Socket)
    {body after : RequestBody} (attached : reader.bodyQueue = some body)
    (marked : body.eof = true → reader.input.messageComplete = true)
    (there : (ckHttpConnectionReaderDrive reader socket (none : Option (BodySink Unit)) ()).1.reader.bodyQueue =
      some after) (eof : after.eof = true) :
    (ckHttpConnectionReaderDrive reader socket (none : Option (BodySink Unit))
      ()).1.reader.input.messageComplete = true := by
  have start := startDrive_sound sound socket ()
  obtain ⟨last, visits, stops⟩ := drive_returns reader socket (none : Option (BodySink Unit)) ()
  have kept := visits_eof start visits
  rcases driveStep_eof (visits_sound start visits) stops with same | ⟨-, done⟩
  · rw [kept, eofMark, eofMark, there, startDrive, attached, Option.map_some, Option.map_some,
      Option.some.injEq] at same
    have done := marked (same.symm.trans eof)
    rw [(drive_done sound done socket (none : Option (BodySink Unit)) ()).1]
    exact done
  · exact done

theorem bodyRun_holds {buffer : Nat → UInt8} {reader : ConnectionReader} {accepted returned : Bytes}
    (run : BodyRun buffer reader accepted returned) : BodyHolds reader accepted returned := by
  induction run with
  | start => exact ⟨.attach _ .init, _, rfl, init_holds buffer, by simp [ckHttpRequestBodyInit]⟩
  | drive socket before ih =>
    obtain ⟨reachable, body, attached, ring, marked⟩ := ih
    have sound := reachable_sound reachable
    obtain ⟨after, there, -, held⟩ := drive_ring sound socket (none : Option (BodySink Unit)) ()
      attached ring
    exact ⟨.drive socket none () reachable, after, there, held,
      drive_eof sound socket attached marked there⟩
  | read capacity before attached ih =>
    obtain ⟨reachable, body, there, ring, marked⟩ := ih
    rw [attached, Option.some.injEq] at there
    subst there
    obtain ⟨ring', eof, -⟩ := read_holds capacity ring
    exact ⟨.attach _ reachable, _, rfl, ring', by rw [eof]; exact marked⟩
  | next before recycles ih =>
    obtain ⟨reachable, body, attached, ring, marked⟩ := ih
    refine ⟨.next reachable recycles, ckHttpRequestBodyInit body.buffer, ?_, init_holds body.buffer,
      by simp [ckHttpRequestBodyInit]⟩
    rw [nextRequest_eq recycles, attached]
    rfl

theorem readOn_failed {body : RequestBody} {accepted returned : Bytes} {capacities : List Nat}
    (ring : RingHolds body accepted returned) (error : body.error = true)
    (positive : ∀ capacity ∈ capacities, 0 < capacity) :
    readOn body capacities = failedReads (accepted.drop returned.length) capacities := by
  induction capacities generalizing body returned with
  | nil => rfl
  | cons capacity capacities ih =>
    have some : capacity ≠ 0 := Nat.pos_iff_ne_zero.mp (positive capacity (by simp))
    obtain ⟨ring', -, flag, bytes, answer⟩ := read_holds capacity ring
    have rest := ih ring' (flag.trans error) fun c inside => positive c (by simp [inside])
    have left : accepted.drop (returned ++ (ckHttpRequestBodyRead body capacity).2.2).length =
        (accepted.drop returned.length).drop capacity := by
      rw [bytes, List.length_append, ← List.drop_drop, List.length_take, List.drop_eq_drop_iff]
      simp
    rw [left] at rest
    rw [readOn, rest, answer, bytes]
    cases queued : accepted.drop returned.length with
    | nil => simp [failedReads, error]
    | cons b more => simp [failedReads, some]

def Silent (result : CkartaConnectionReader.ReadResult) : Prop :=
  result = .badRequest ∨ result = .tooLarge ∨ result = .ioError

theorem write_taken {body : RequestBody} {accepted returned data : Bytes}
    (ring : RingHolds body accepted returned) (takes : (ckHttpRequestBodyWrite body data).1 = .ok) :
    (writeBodyQueue body data).1 = 0 := by
  have wrote := write_holds data ring
  obtain ⟨result, after, written, answer⟩ : ∃ result after written,
      ckHttpRequestBodyWrite body data = (result, after, written) := ⟨_, _, _, rfl⟩
  simp only [writeBodyQueue, answer] at wrote takes ⊢
  rcases wrote with ⟨rfl, rfl, -⟩ | ⟨kind, -⟩
  · simp
  · simp [takes] at kind

theorem taken_turn {s : DriveState Unit} {body : RequestBody} {accepted returned : Bytes} {fed : InputFeed}
    {z : HttpInput} {n : Nat} (kind : fed.result = .body) (more : fed.bodyLength ≠ 0)
    (held : Held fed.input z n) (within : fed.consumed + n ≤ (slice s).length)
    (attached : s.reader.bodyQueue = some body) (ring : RingHolds body accepted returned)
    (takes : (ckHttpRequestBodyWrite body (spanOf s fed)).1 = .ok) :
    Goes (afterFeed none s fed).1 (fed.consumed + n) (afterFeed none s fed).2 := by
  have consumed : ¬ fed.consumed > (slice s).length := by omega
  have begun := fed_moved s fed.input (slice s).length fed.result
  simp only [afterFeed, consumed, ↓reduceIte, ne_eq, more, not_false_eq_true]
  have queue : ((s.setInput fed.input).emit (.fed (slice s).length fed.result)).reader.bodyQueue =
      some body := attached
  generalize (s.setInput fed.input).emit (.fed (slice s).length fed.result) = t at begun queue
  have data : spanOf t fed = spanOf s fed := by rw [spanOf, begun.buffer, spanOf]
  have plain : (0 : Int) ≠ bodySinkWouldBlock := by decide
  have fits : ¬ n > (slice s).length - fed.consumed := by omega
  rw [acceptSpan_eq, data]
  simp only [offerSpan, queue, write_taken ring takes, plain, ↓reduceIte, ne_eq, not_true_eq_false]
  have input := begun.input
  simp only [DriveState.emit, input, held.ack, fits, ↓reduceIte, kind]
  exact settleTurn_goes _ _ (.inl rfl)

theorem settleTurn_stops {s t : DriveState Unit} {consumed : Nat} {result : InputResult}
    {stop : CkartaConnectionReader.ReadResult} (h : settleTurn s consumed result = (t, .stop stop)) :
    stop ≠ .bodyBackpressure ∧ stop ≠ .sinkError := by
  have mapped : ∀ result, mapInputResult result ≠ .bodyBackpressure ∧ mapInputResult result ≠ .sinkError := by
    intro result
    cases result <;> simp [mapInputResult]
  simp only [settleTurn] at h
  repeat' split at h
  all_goals simp only [Prod.mk.injEq, Turn.stop.injEq, reduceCtorEq, and_false] at h
  · rw [← h.2]
    simp
  · rw [← h.2]
    exact mapped _
  · rw [← h.2]
    exact mapped _

theorem refused_span {s t : DriveState Unit} {body : RequestBody} {accepted returned : Bytes}
    {result : CkartaConnectionReader.ReadResult} (ready : Ready s.reader.input)
    (attached : s.reader.bodyQueue = some body) (ring : RingHolds body accepted returned)
    (turned : processOne none s = (t, .stop result))
    (kind : result = .bodyBackpressure ∨ result = .sinkError) :
    ∃ front data rest z, slice s = front ++ rest ∧ Steps inputMachine (settled s.reader.input) front data z ∧
      (ckHttpRequestBodyWrite body data).1 ≠ .ok := by
  have unspent : s.processBudget ≠ 0 := by
    refine processOne_paid turned fun same => ?_
    rw [Turn.stop.injEq] at same
    simp [same] at kind
  have plain : ∀ fed : InputFeed, fed.consumed ≤ (slice s).length → fed.bodyLength = 0 →
      afterFeed none s fed ≠ (t, .stop result) := by
    intro fed within none stops
    rw [afterFeed_plain _ fed within none] at stops
    have other := settleTurn_stops stops
    rcases kind with rfl | rfl
    · exact other.1 rfl
    · exact other.2 rfl
  rw [processOne_eq, if_neg unspent] at turned
  have outcome := ckHttpInputFeed_outcome (a := s.reader.beginPos) (s := slice s) ready
  generalize ckHttpInputFeed s.reader.input s.reader.beginPos (slice s) = fed at outcome turned
  cases outcome with
  | span head data rest read y z cut nonempty run within lead held size live ack header next =>
    have nonzero : 0 < data.length := List.length_pos_iff.mpr nonempty
    have width : (slice s).length = head.length + data.length + rest.length := by
      rw [cut, List.length_append, List.length_append]
    have bytes : spanOf s ⟨.body, y, read, some (s.reader.beginPos + head.length), data.length⟩ =
        data := spanBytes_cut cut
    refine ⟨head ++ data, data, rest, z, cut, run, fun takes => ?_⟩
    have goes := @taken_turn s body accepted returned
      ⟨.body, y, read, some (s.reader.beginPos + head.length), data.length⟩ z _ rfl
      (by dsimp only; omega) ⟨ack, by omega, live, header, next⟩ (by dsimp only; omega) attached ring
      (by rw [bytes]; exact takes)
    rw [turned] at goes
    dsimp only at goes
    cases goes with
    | complete done => simp at kind
  | quiet read rest y pointer cut run waits next =>
    exact absurd turned (plain _ (by rw [cut, List.length_append]; dsimp only; omega) rfl)
  | complete read rest n e y cut run ends wide within idle header done =>
    exact absurd turned (plain _ (by rw [cut, List.length_append]; dsimp only; omega) rfl)
  | refuse answer read rest n consumed e y cut run ends kind' within reported next =>
    exact absurd turned (plain _ within rfl)
  | overflow read rest consumed y cut run reported full next =>
    exact absurd turned (plain _ (by rw [cut, List.length_append]; dsimp only; omega) rfl)

theorem refused_live {f : HttpInput} {rest : Bytes} {n : Nat} {verdict : Verdict}
    (ends : inputAct f rest = .halt n verdict) (kind : verdict.1 ≠ .complete) :
    f.messageComplete = false := by
  cases done : f.messageComplete with
  | false => rfl
  | true =>
    cases rest with
    | nil => simp [inputAct] at ends
    | cons b rest =>
      simp only [inputAct, done, ↓reduceIte, Action.halt.injEq] at ends
      rw [← ends.2] at kind
      exact absurd rfl kind

theorem refusal_silent {x : HttpInput} {a : Nat} {s : Bytes} (ready : Ready x)
    (kind : (ckHttpInputFeed x a s).result = .badRequest ∨ (ckHttpInputFeed x a s).result = .tooLarge)
    (counts : x.chunked.totalDecoded + s.length ≤ uint64Max) :
    ∃ read rest f n verdict, s = read ++ rest ∧ Steps inputMachine (settled x) read [] f ∧
      inputAct f rest = .halt n verdict ∧ verdict.1 ≠ .complete ∧
      f.headerComplete = (ckHttpInputFeed x a s).input.headerComplete := by
  obtain ⟨f, ⟨read, rest, out, n, verdict, cut, run, ends, partly⟩, header⟩ := feed_refuses ready kind
  refine ⟨read, rest, f, n, verdict, cut, ?_, ends, partly, header⟩
  have outcome := ckHttpInputFeed_outcome (a := a) (s := s) ready
  generalize ckHttpInputFeed x a s = fed at outcome kind
  cases outcome with
  | span head data rest read y z cut nonempty run within lead held size live ack header next =>
    simp at kind
  | quiet read rest y pointer cut run waits next => simp at kind
  | complete read rest n e y cut run ends wide within idle header done => simp at kind
  | refuse result read' rest' n' consumed e y cut' run' ends' kind' within reported next =>
    obtain ⟨-, nothing, -, -⟩ := stop_unique run (stopped_of_halt ends) run' (stopped_of_halt ends')
      (cut.symm.trans cut')
    rwa [nothing] at run
  | overflow read' rest' consumed y cut' run' reported full next => omega

theorem taken_ok {body after : RequestBody} {accepted returned out : Bytes}
    (ring : RingHolds body accepted returned) (opened : (body.eof || body.error) = false)
    (held : RingHolds after (accepted ++ out) returned) : (ckHttpRequestBodyWrite body out).1 = .ok := by
  have shorter := ring.order.length_le
  have bound := held.bound
  rw [List.length_append] at bound
  refine (write_ok_iff out ring).mpr (.inr ⟨opened, ?_⟩)
  rw [List.length_drop]
  omega

theorem eof_not_silent (x : HttpInput) : ¬ Silent (mapInputResult (ckHttpInputEof x)) := by
  simp only [ckHttpInputEof]
  repeat' split
  all_goals simp [Silent, mapInputResult]

section
variable {s t : DriveState Unit} {body : RequestBody} {accepted returned : Bytes}
  {result : CkartaConnectionReader.ReadResult}

theorem receives_queue {last u : DriveState Unit} {read out got : Bytes} (receives : Receives none last u)
    (progress : Progress last u read out got) (attached : last.reader.bodyQueue = some body)
    (ring : RingHolds body accepted returned) :
    ∃ after, RingHolds after (accepted ++ out) returned := by
  rcases receives with ⟨-, rfl⟩ | ⟨-, turned⟩
  · have none := progress.delivered
    rw [List.self_eq_append_right] at none
    exact ⟨body, by rw [none, List.append_nil]; exact ring⟩
  · obtain ⟨new, queues⟩ := processOne_queues none last
    rw [turned] at queues
    have same := queues.delivered
    rw [progress.delivered, List.append_cancel_left_eq] at same
    obtain ⟨after, -, -, held⟩ := queues.ring body accepted returned attached ring
    exact ⟨after, same ▸ held⟩

theorem turn_silent_breaks {last : DriveState Unit} {read out got : Bytes} (reached : Reached s last read out got)
    (arrived : Arrived s last got) (takes : (ckHttpRequestBodyWrite body out).1 = .ok)
    (counts : s.reader.input.chunked.totalDecoded + s.processBudget ≤ uint64Max)
    (more : last.reader.beginPos < last.reader.endPos) (turned : processOne none last = (t, .stop result))
    (silent : Silent result) (unfinished : BodyOpen t.reader.input) :
    BreaksOff s.reader.input (ahead s) s.socket s.readBudget s.processBudget
      fun out => (ckHttpRequestBodyWrite body out).1 = .ok := by
  have outcome := turn_outcome reached.sound turned
  cases outcome with
  | spent empty => simp [Silent] at silent
  | again _ done moved => simp [Silent] at silent
  | refused _ y z n _ held within moved unwilling kind =>
    rcases kind with rfl | rfl <;> simp [Silent] at silent
  | acked _ z n data _ held moved goes =>
    cases goes with
    | complete done => simp [Silent] at silent
  | ran _ read rest out y _ ready cut run idle next vain moved goes =>
    cases goes with
    | complete done => simp [Silent] at silent
  | complete _ read rest n e y ready cut wide within run ends idle header done moved =>
    simp [Silent] at silent
  | rejected _ fed _ ready' feeds kind told within next moved =>
    have total := steps_total reached.run
    have paid := reached.progress.paid
    have short := (slice_within last).2
    subst feeds
    obtain ⟨read', rest, f, n, verdict, cut, run, ends, partly, header⟩ :=
      refusal_silent ready' kind (by simp only [settled] at total; omega)
    obtain ⟨tail, whole⟩ := slice_visible last
    rw [moved.input] at unfinished
    refine .framing (read ++ read') (rest ++ tail) f n verdict ⟨?_, ⟨out ++ [], steps_trans reached.run run, ?_⟩,
      header.trans unfinished.1, refused_live ends partly⟩ ?_ partly
    · rw [← visible, reached.visible_eq arrived, ← whole, cut]
      simp
    · rw [List.append_nil]
      exact takes
    · rw [inputAct_stable (by simp [ends]), ends]

theorem receiving_silent_breaks {u : DriveState Unit} {read out got : Bytes} (exit : Exits s u read out got result)
    (takes : (ckHttpRequestBodyWrite body out).1 = .ok) (silent : Silent result)
    (unfinished : BodyOpen u.reader.input) :
    BreaksOff s.reader.input (ahead s) s.socket s.readBudget s.processBudget
      fun out => (ckHttpRequestBodyWrite body out).1 = .ok := by
  obtain ⟨whole, arrived, waits, exits⟩ := exit
  have comes : ReadsTo s.reader.input ((ahead s).take s.processBudget)
      (fun out => (ckHttpRequestBodyWrite body out).1 = .ok) read (slice u) (settled u.reader.input) := by
    refine ⟨?_, ⟨out, whole.run, takes⟩, unfinished⟩
    rw [← exits.visible_eq whole.sound]
    exact whole.visible_eq arrived
  have stream := congrArg List.length (whole.ahead_eq arrived)
  rw [List.length_append] at stream
  have paid := whole.progress.paid
  have reads := whole.progress.readLeft
  have came := congrArg List.length arrived.came
  rw [List.length_append] at came
  have shown : unparsed u.reader ≠ [] → slice u ≠ [] := by
    intro some none
    have budget := waits.paid some
    rw [slice_eq, List.take_eq_nil_iff] at none
    exact none.elim budget some
  cases exits with
  | starved spent spare => simp [Silent] at silent
  | again reads nothing answer spare => simp [Silent] at silent
  | eof reads nothing answer spare => exact absurd silent (eof_not_silent u.reader.input)
  | full full front =>
    have width : (unparsed u.reader).length = readBufferBytes := by
      rw [unparsed, front, List.drop_zero]
      exact full
    refine .full _ _ _ comes waits.quiet (shown fun none => ?_) ?_
    · rw [none] at width
      exact absurd width (by decide)
    · rw [stream, ahead, arrives, @List.length_append _ (unparsed u.reader), width]
      omega
  | error reads' nothing answer spare =>
    rw [nothing, List.length_nil] at came
    refine .socket _ _ _ comes waits.quiet ?_ (by omega) (arrived.answer.trans answer)
    by_cases empty : unparsed u.reader = []
    · right
      rw [stream, ahead, arrives, empty, nothing, List.take_nil, List.append_nil, List.length_nil]
      omega
    · exact .inl (shown empty)

theorem silent_breaks (sound : DriveSound s) (ready : Ready s.reader.input)
    (attached : s.reader.bodyQueue = some body) (ring : RingHolds body accepted returned)
    (opened : (body.eof || body.error) = false)
    (counts : s.reader.input.chunked.totalDecoded + s.processBudget ≤ uint64Max)
    (returns : Returns none s t result) (silent : Silent result) (unfinished : BodyOpen t.reader.input) :
    BreaksOff s.reader.input (ahead s) s.socket s.readBudget s.processBudget
      fun out => (ckHttpRequestBodyWrite body out).1 = .ok := by
  obtain ⟨last, visits, exits⟩ := returns_exits sound returns
  obtain ⟨read, out, got, reached⟩ := visits_reached sound ready visits
  have arrived := visits_arrived sound visits reached.progress
  obtain ⟨after, there, -, -, held⟩ := visits_queue sound visits reached.progress attached ring
  rcases exits with ⟨more, turned⟩ | ⟨u, receives, received⟩
  · exact turn_silent_breaks reached arrived (taken_ok ring opened held) counts more turned silent unfinished
  · obtain ⟨read', out', progress, exit⟩ := receives_exit reached arrived receives received
    obtain ⟨after', held'⟩ := receives_queue receives progress there held
    have input := (receiveStep_quiet u).1
    rw [received] at input
    rw [input] at unfinished
    rw [List.append_assoc] at held'
    exact receiving_silent_breaks exit (taken_ok ring opened held') silent unfinished

/-- What ends the input's reading where the stream breaks the body off. -/
structure Breaks (s : DriveState Unit) (read rest : Bytes) (f : HttpInput) : Prop where
  paid : rest ≠ [] ∨ (ahead s).length ≤ s.processBudget
  ends : (∃ n verdict, inputAct f rest = .halt n verdict ∧ verdict.1 ≠ .complete) ∨
    (inputAct f rest = .wait ∧ (readBufferBytes + read.length ≤ (ahead s).length ∨
      ((incoming s.socket).length < s.readBudget ∧ firstAnswer s.socket = .error)))

theorem BreaksOff.breaks {takes : Bytes → Prop} (breaks : BreaksOff s.reader.input (ahead s) s.socket
      s.readBudget s.processBudget takes) :
    ∃ read rest f, ReadsTo s.reader.input (visible s) takes read rest f ∧ Breaks s read rest f := by
  cases breaks with
  | framing read rest f n verdict comes refuses kind =>
    refine ⟨read, rest, f, comes, .inl ?_, .inl ⟨n, verdict, refuses, kind⟩⟩
    rintro rfl
    simp [inputAct] at refuses
  | full read rest f comes waits more fills => exact ⟨read, rest, f, comes, .inl more, .inr ⟨waits, .inl fills⟩⟩
  | socket read rest f comes waits paid early fails =>
    exact ⟨read, rest, f, comes, paid, .inr ⟨waits, .inr ⟨early, fails⟩⟩⟩

theorem Breaks.stopped {read rest : Bytes} {f : HttpInput} (breaks : Breaks s read rest f) :
    Stopped inputMachine f rest := by
  rcases breaks.ends with ⟨n, verdict, refuses, -⟩ | ⟨waits, -⟩
  · exact stopped_of_halt refuses
  · exact stopped_of_wait waits

/-- What is ahead of a drive that is on its way to the break. -/
structure Onward (last : DriveState Unit) (after : RequestBody) (rest : Bytes) (f : HttpInput) : Prop where
  attached : last.reader.bodyQueue = some after
  ring : ∃ accepted returned, RingHolds after accepted returned
  run : ∃ more extra, visible last = more ++ rest ∧
    Steps inputMachine (settled last.reader.input) more extra f ∧
    (ckHttpRequestBodyWrite after extra).1 = .ok

theorem write_ok_first {accepted returned data more : Bytes} (ring : RingHolds body accepted returned)
    (takes : (ckHttpRequestBodyWrite body (data ++ more)).1 = .ok) :
    (ckHttpRequestBodyWrite body data).1 = .ok := by
  rw [write_ok_iff _ ring] at takes ⊢
  rcases takes with none | ⟨opened, fits⟩
  · exact .inl (List.append_eq_nil_iff.mp none).1
  · rw [List.length_append] at fits
    exact .inr ⟨opened, by omega⟩

theorem turn_breaks {last : DriveState Unit} {after : RequestBody} {read rest : Bytes} {f : HttpInput}
    (sound : DriveSound last) (ready : Ready last.reader.input) (onward : Onward last after rest f)
    (breaks : Breaks s read rest f) (unfinished : BodyOpen f) (paid : last.processBudget ≠ 0)
    (turned : processOne none last = (t, .stop result)) : Silent result ∧ BodyOpen t.reader.input := by
  obtain ⟨attached, ⟨accepted, returned, ring⟩, more, extra, split, run, takes⟩ := onward
  have stopped := breaks.stopped
  obtain ⟨tail, whole⟩ := slice_visible last
  have live := unfinished.2
  have outcome := turn_outcome sound turned
  cases outcome with
  | spent empty => exact absurd empty paid
  | again _ done moved => simp [ready.live] at done
  | refused _ y z n _ held within moved unwilling kind =>
    obtain ⟨front, data, left, z, cut, span, refusal⟩ := refused_span ready attached ring turned kind
    rw [cut, List.append_assoc, split] at whole
    obtain ⟨r, q, -, rfl, -⟩ := steps_before_stop span run stopped whole
    exact absurd (write_ok_first ring takes) refusal
  | acked _ z n data _ held moved goes => exact absurd ready.no_span held.span
  | ran _ read' left out y _ _ cut run' idle next vain moved goes =>
    cases goes with
    | complete done =>
      rw [moved.input] at done
      rw [cut, List.append_assoc, split] at whole
      obtain ⟨r, q, -, -, -, beyond⟩ := steps_before_stop run' run stopped whole
      have ended : Stopped inputMachine (settled y) r := stopped_of_done done
      obtain ⟨-, -, rfl⟩ := stopped_no_steps ended beyond (List.prefix_refl r)
      exact absurd (show y.messageComplete = false from live) (by simp [done])
  | complete _ read' left n e y _ cut wide within run' halts idle header done moved =>
    have halts' := halt_extends halts (List.prefix_append left tail)
    rw [cut, List.append_assoc, split] at whole
    obtain ⟨-, -, rfl, rfl⟩ := stop_unique run' (stopped_of_halt halts') run stopped whole
    rcases breaks.ends with ⟨k, verdict, refuses, kind⟩ | ⟨waits, -⟩
    · rw [halts', Action.halt.injEq] at refuses
      exact absurd (by rw [← refuses.2]) kind
    · simp [halts'] at waits
  | rejected _ fed _ _ feeds kind told within next moved =>
    subst feeds
    obtain ⟨e, ⟨read', left, out, n, verdict, cut, run', halts, -⟩, header⟩ := feed_refuses ready kind
    have halts' := halt_extends halts (List.prefix_append left tail)
    rw [cut, List.append_assoc, split] at whole
    obtain ⟨-, -, rfl, -⟩ := stop_unique run' (stopped_of_halt halts') run stopped whole
    rw [moved.input]
    refine ⟨?_, header.symm.trans unfinished.1, next.live⟩
    rcases kind with bad | large
    · exact .inl (by simp [told, bad, mapInputResult])
    · exact .inr (.inl (by simp [told, large, mapInputResult]))

theorem full_front {u : DriveState Unit} (sound : DriveSound u)
    (fills : readBufferBytes ≤ (unparsed u.reader).length) :
    u.reader.endPos = readBufferBytes ∧ u.reader.beginPos = 0 := by
  have fits : u.reader.endPos ≤ readBufferBytes := sound.reader.fits
  have width : (unparsed u.reader).length = u.reader.endPos - u.reader.beginPos := List.length_drop
  have positive : 0 < readBufferBytes := by decide
  omega

theorem exit_breaks {u : DriveState Unit} {read out got rest : Bytes} {f : HttpInput}
    (reached : Reached s u read out got) (arrived : Arrived s u got) (exits : ReceiveExit u result)
    (breaks : Breaks s read rest f) (waits : inputAct f rest = .wait) : Silent result := by
  have stream := congrArg List.length (reached.ahead_eq arrived)
  have reads := reached.progress.readLeft
  have came := congrArg List.length arrived.came
  rw [List.length_append] at stream came
  have dry : (incoming u.socket).take u.readBudget = [] →
      ¬ (u.reader.endPos = readBufferBytes ∧ u.reader.beginPos = 0) →
      (incoming s.socket).length < s.readBudget ∧ firstAnswer s.socket = .error := by
    intro nothing spare
    rcases breaks.ends with ⟨n, verdict, refuses, -⟩ | ⟨-, fills | fails⟩
    · simp [waits] at refuses
    · rw [show ahead u = unparsed u.reader by rw [ahead, arrives, nothing, List.append_nil]] at stream
      exact absurd (full_front reached.sound (by omega)) spare
    · exact fails
  cases exits with
  | full full front => exact .inr (.inl rfl)
  | error reads nothing answer spare => exact .inr (.inr rfl)
  | starved spent spare =>
    obtain ⟨early, -⟩ := dry (by rw [spent, List.take_zero]) spare
    omega
  | again _ nothing answer spare =>
    obtain ⟨-, fails⟩ := dry (by rw [nothing, List.take_nil]) spare
    rw [arrived.answer, answer] at fails
    cases fails
  | eof _ nothing answer spare =>
    obtain ⟨-, fails⟩ := dry (by rw [nothing, List.take_nil]) spare
    rw [arrived.answer, answer] at fails
    cases fails

theorem breaks_silent (sound : DriveSound s) (ready : Ready s.reader.input)
    (attached : s.reader.bodyQueue = some body) (ring : RingHolds body accepted returned)
    (breaks : BreaksOff s.reader.input (ahead s) s.socket s.readBudget s.processBudget
      fun out => (ckHttpRequestBodyWrite body out).1 = .ok) (returns : Returns none s t result) :
    Silent result ∧ BodyOpen t.reader.input := by
  obtain ⟨read, rest, f, ⟨cut, ⟨out, run, takes⟩, unfinished⟩, breaks⟩ := breaks.breaks
  have stopped := breaks.stopped
  obtain ⟨last, visits, exits⟩ := returns_exits sound returns
  obtain ⟨read', out', got, reached⟩ := visits_reached sound ready visits
  have arrived := visits_arrived sound visits reached.progress
  obtain ⟨after, there, eof, error, held⟩ := visits_queue sound visits reached.progress attached ring
  rcases exits with ⟨more, turned⟩ | ⟨u, receives, received⟩
  · obtain ⟨r, q, rfl, rfl, split, onward⟩ := reached.before_stop arrived cut run stopped
    refine turn_breaks reached.sound reached.ready ⟨there, ⟨_, _, held⟩, r, q, split, onward, ?_⟩ breaks unfinished
      ?_ turned
    · have shorter := ring.order.length_le
      rw [write_ok_iff _ ring] at takes
      rw [write_ok_iff _ held, eof, error]
      refine takes.imp (fun none => (List.append_eq_nil_iff.mp none).2) fun fits => ⟨fits.1, ?_⟩
      have room := fits.2
      simp only [forQueue, List.length_drop, List.length_append] at room ⊢
      omega
    · intro spent
      have paid := reached.progress.paid
      have stream := congrArg List.length (reached.ahead_eq arrived)
      rw [visible, spent, List.take_zero] at split
      obtain ⟨-, rfl⟩ := List.append_eq_nil_iff.mp split.symm
      have short := breaks.paid.resolve_left (by simp)
      have width : (unparsed last.reader).length = last.reader.endPos - last.reader.beginPos :=
        List.length_drop
      have buffered : (unparsed last.reader).length ≤ (ahead last).length := by
        rw [ahead, arrives, List.length_append]
        omega
      rw [List.length_append] at stream
      omega
  · obtain ⟨more, extra, -, whole, arrived', waits, exits⟩ :=
      receives_exit reached arrived receives received
    obtain ⟨rfl, -, rfl, rfl⟩ := whole.exit_stop arrived' exits waits cut run stopped
    have input := (receiveStep_quiet u).1
    rw [received] at input
    refine ⟨exit_breaks whole arrived' exits breaks waits.quiet, ?_⟩
    rw [input]
    exact unfinished
def FailsSilently (s : DriveState Unit) : Prop :=
  ∃ t result, Returns none s t result ∧ Silent result ∧ BodyOpen t.reader.input

theorem ready_fails_iff (sound : DriveSound s) (ready : Ready s.reader.input)
    (attached : s.reader.bodyQueue = some body) (ring : RingHolds body accepted returned)
    (opened : (body.eof || body.error) = false)
    (counts : s.reader.input.chunked.totalDecoded + s.processBudget ≤ uint64Max) :
    FailsSilently s ↔ BreaksOff s.reader.input (ahead s) s.socket s.readBudget s.processBudget
      fun out => (ckHttpRequestBodyWrite body out).1 = .ok := by
  constructor
  · rintro ⟨t, result, returns, silent, unfinished⟩
    exact silent_breaks sound ready attached ring opened counts returns silent unfinished
  · intro breaks
    have returns := @driveLoop_returns Unit none s _ (Nat.lt_succ_self _)
    exact ⟨_, _, returns, breaks_silent sound ready attached ring breaks returns⟩

theorem write_behind {after : RequestBody} {data : Bytes} (ring : RingHolds body accepted returned)
    (opened : (body.eof || body.error) = false) (held : RingHolds after (accepted ++ data) returned)
    (eof : after.eof = body.eof) (error : after.error = body.error) (out : Bytes) :
    (ckHttpRequestBodyWrite after out).1 = .ok ↔ (ckHttpRequestBodyWrite body (data ++ out)).1 = .ok := by
  have shorter := ring.order.length_le
  have bound := held.bound
  rw [write_ok_iff _ held, write_ok_iff _ ring, eof, error, opened]
  simp only [List.append_eq_nil_iff, List.length_drop, List.length_append] at bound ⊢
  constructor
  · rintro (rfl | ⟨-, fits⟩)
    · exact .inr ⟨trivial, by simp; omega⟩
    · exact .inr ⟨trivial, by omega⟩
  · rintro (⟨-, none⟩ | ⟨-, fits⟩)
    · exact .inl none
    · exact .inr ⟨trivial, by omega⟩

theorem BreaksOff.comes {x : HttpInput} {stream : Bytes} {socket : Socket} {reads budget : Nat}
    {takes : Bytes → Prop} (breaks : BreaksOff x stream socket reads budget takes) :
    ∃ read rest f, ReadsTo x (stream.take budget) takes read rest f := by
  cases breaks with
  | framing read rest f n verdict comes refuses kind => exact ⟨read, rest, f, comes⟩
  | full read rest f comes waits more fills => exact ⟨read, rest, f, comes⟩
  | socket read rest f comes waits paid early fails => exact ⟨read, rest, f, comes⟩

theorem done_unbroken {x : HttpInput} {stream : Bytes} {socket : Socket} {reads budget : Nat}
    {takes : Bytes → Prop} (done : x.messageComplete = true) :
    ¬ BreaksOff x stream socket reads budget takes := by
  intro breaks
  obtain ⟨read, rest, f, cut, ⟨out, run, -⟩, unfinished⟩ := breaks.comes
  have ended : Stopped inputMachine (settled x) read := stopped_of_done done
  obtain ⟨-, -, rfl⟩ := stopped_no_steps ended run (List.prefix_refl read)
  have live : x.messageComplete = false := unfinished.2
  simp [live] at done

end

section
variable {reader : ConnectionReader} {body : RequestBody} {accepted returned : Bytes}

theorem held_fails_iff {z : HttpInput} {n : Nat} (sound : ReaderSound reader) (held : Held reader.input z n)
    (socket : Socket) (attached : reader.bodyQueue = some body) (ring : RingHolds body accepted returned)
    (opened : (body.eof || body.error) = false) (counts : CountsOn reader) :
    FailsSilently (startDrive reader socket ()) ↔ SocketBreaksOff reader body socket := by
  have start := startDrive_sound sound socket ()
  obtain ⟨fits, spans⟩ := processOne_held (none : Option (BodySink Unit)) start held
  have more := held_buffered (s := startDrive reader socket ()) held fits
  have bytes : spanOf (startDrive reader socket ()) (heldFeed reader.input) = heldBytes reader := rfl
  rw [CountsOn, CkartaBufferLimit.resume_held held] at counts
  rw [SocketBreaksOff, CkartaBufferLimit.resume_held held]
  cases turned : processOne none (startDrive reader socket ()) with
  | mk t turn =>
    rw [turned] at spans
    change SpanOutcome _ _ _ z n (heldBytes reader) _ at spans
    cases spans with
    | refused _ result moved unwilling kind =>
      have returns : Returns none (startDrive reader socket ()) t result :=
        ⟨_, .refl _, by simp [driveStep, more, turned]⟩
      constructor
      · rintro ⟨u, other, returns', silent, -⟩
        obtain ⟨-, rfl⟩ := returns_unique returns returns'
        rcases kind with rfl | rfl <;> simp [Silent] at silent
      · intro breaks
        obtain ⟨read, rest, f, -, ⟨out, -, takes⟩, -⟩ := breaks.comes
        have paid : (startDrive reader socket ()).processBudget ≠ 0 := Nat.succ_ne_zero _
        have goes := @taken_turn (startDrive reader socket ()) body accepted returned
          (heldFeed reader.input) z n rfl held.span held (by simpa [heldFeed] using fits) attached ring
          (by rw [bytes]; exact write_ok_first ring takes)
        rw [processOne_eq, if_neg paid, show (startDrive reader socket ()).reader.input = reader.input from rfl,
          feed_held held.span] at turned
        rw [turned] at goes
        cases goes with
        | complete done => simp at kind
    | accepted _ _ moved goes =>
      simp only [heldFeed, Nat.zero_add] at moved goes
      have resumed := accepted_resumes start held turned fits moved goes
      rcases resumed.returns with ⟨done, complete⟩ | ⟨ready, same⟩
      · refine iff_of_false ?_ (done_unbroken done)
        rintro ⟨u, other, returns, silent, -⟩
        obtain ⟨-, rfl⟩ := returns_unique complete returns
        simp [Silent] at silent
      · obtain ⟨new, queues⟩ := processOne_queues none (startDrive reader socket ())
        have marks := processOne_eof none (startDrive reader socket ())
        rw [turned] at queues marks
        have delivered := queues.delivered
        rw [moved.delivered, List.append_cancel_left_eq] at delivered
        obtain ⟨after, there, error, held'⟩ := queues.ring body accepted returned attached ring
        rw [← delivered] at held'
        have eof : after.eof = body.eof := by
          rcases marks with kept | stops
          · have here : t.reader.bodyQueue = some after := there
            simpa [eofMark, here, startDrive, attached] using kept
          · subst stops
            cases goes with
            | complete done =>
              rw [moved.input] at done
              simp [ready.live] at done
        have whole := ready_fails_iff resumed.sound (by rw [resumed.input]; exact ready) there held'
          (by rw [eof, error]; exact opened) (by
            rw [resumed.input, resumed.process]
            dsimp only [startDrive] at counts ⊢
            omega)
        have takes : (fun out => (ckHttpRequestBodyWrite after out).1 = .ok) =
            fun out => (ckHttpRequestBodyWrite body (heldBytes reader ++ out)).1 = .ok :=
          funext fun out => propext (write_behind ring opened held' eof error out)
        rw [ahead, resumed.buffered, resumed.socket, resumed.readLeft, resumed.process, resumed.input,
          takes] at whole
        simp only [FailsSilently, same]
        exact whole
/-- When the drive of a reader fails the body in silence, read off the reader and the socket. -/
theorem fails_iff (sound : ReaderSound reader) (socket : Socket) (attached : reader.bodyQueue = some body)
    (ring : RingHolds body accepted returned) (error : body.error = false)
    (marked : body.eof = true → reader.input.messageComplete = true) (counts : CountsOn reader) :
    FailsSilently (startDrive reader socket ()) ↔ SocketBreaksOff reader body socket := by
  have open_ : reader.input.messageComplete = false → (body.eof || body.error) = false := by
    intro live
    rw [error, Bool.or_false]
    exact eq_false_of_ne_true fun eof => by simp [marked eof] at live
  cases sound.input with
  | done done idle header =>
    rw [SocketBreaksOff, CkartaBufferLimit.resume_idle idle]
    refine iff_of_false ?_ (done_unbroken done)
    rintro ⟨t, result, returns, -, unfinished⟩
    obtain ⟨rfl, -⟩ := returns_unique (drive_returns reader socket none ()) returns
    have ended : (ckHttpConnectionReaderDrive reader socket (none : Option (BodySink Unit))
        ()).1.reader.input.messageComplete = false := unfinished.2
    rw [(drive_done sound done socket (none : Option (BodySink Unit)) ()).1, done] at ended
    cases ended
  | held z n held within paid => exact held_fails_iff sound held socket attached ring (open_ held.live) counts
  | ready ready =>
    rw [CountsOn, CkartaBufferLimit.resume_idle ready.no_span] at counts
    have none : heldBytes reader = [] := by
      simp only [heldBytes, ready.no_span, spanBytes, List.take_zero]
      split <;> rfl
    rw [SocketBreaksOff, CkartaBufferLimit.resume_idle ready.no_span, List.drop_zero, Nat.sub_zero, none]
    exact ready_fails_iff (startDrive_sound sound socket ()) ready attached ring (open_ ready.live) counts

/-- In every run with the queue as the sink a drive fails the consumer of a failed body, unless it
    reads a stream that breaks the body off in silence; and as long as the decoder's count of 64
    bits does not end in the drive, such a stream does it. -/
theorem failed_body_fails_consumer_iff {buffer : Nat → UInt8} (run : BodyRun buffer reader accepted returned)
    (socket : Socket) :
    let driven := ckHttpConnectionReaderDrive reader socket (none : Option (BodySink Unit)) ()
    let fails := FailsConsumer driven ((accepted ++ deliveredBytes driven.1.trace).drop returned.length)
    (Unbroken reader socket → fails) ∧ (CountsOn reader → fails → Unbroken reader socket) := by
  obtain ⟨reachable, body, attached, ring, marked⟩ := bodyRun_holds run
  have sound := reachable_sound reachable
  obtain ⟨after, there, flag, held⟩ := drive_ring sound socket (none : Option (BodySink Unit)) ()
    attached ring
  have returns := drive_returns reader socket (none : Option (BodySink Unit)) ()
  have silently := fails_iff sound socket attached ring
  generalize ckHttpConnectionReaderDrive reader socket (none : Option (BodySink Unit)) () = driven at *
  constructor
  · rintro ⟨queue, here, unbroken⟩ failed unfinished
    rw [attached, Option.some.injEq] at here
    subst here
    have set : after.error = true := by
      cases error : body.error with
      | true => simp [flag, error]
      | false =>
        obtain ⟨counts, whole⟩ := unbroken.resolve_left (by simp [error])
        have quiet := mt (silently error marked counts).mp whole
        rcases failed with bad | large | eof | io
        · exact absurd ⟨_, _, returns, .inl bad, unfinished⟩ quiet
        · exact absurd ⟨_, _, returns, .inr (.inl large), unfinished⟩ quiet
        · simp [flag, eof]
        · exact absurd ⟨_, _, returns, .inr (.inr io), unfinished⟩ quiet
    exact ⟨after, there, set, fun capacities positive => readOn_failed held set positive⟩
  · intro counts fails
    refine ⟨body, attached, ?_⟩
    cases error : body.error with
    | true => exact .inl rfl
    | false =>
      refine .inr ⟨counts, fun breaks => ?_⟩
      obtain ⟨t, result, returns', silent, unfinished⟩ := (silently error marked counts).mpr breaks
      obtain ⟨rfl, rfl⟩ := returns_unique returns returns'
      have failed : Failed driven.2 ∧ driven.2 ≠ .eofIncomplete := by
        rcases silent with bad | large | io
        · simp [Failed, bad]
        · simp [Failed, large]
        · simp [Failed, io]
      obtain ⟨queue, here, set, -⟩ := fails failed.1 unfinished
      rw [there, Option.some.injEq] at here
      rw [← here, flag, error] at set
      simp [failed.2] at set
end

def queuedReader : ConnectionReader :=
  ckHttpConnectionReaderAttachBodyQueue ckHttpConnectionReaderInit
    (some (ckHttpRequestBodyInit fun _ => 0))

def driveQueue (reader : ConnectionReader) (socket : Socket) :
    DriveState Unit × CkartaConnectionReader.ReadResult :=
  ckHttpConnectionReaderDrive reader socket none ()

/-- The peer closes in the middle of the second chunk. -/
def halfBody : Socket := chunkedPost "2\r\nab\r\n3\r\nc" ++ [.eof]

theorem half_unbroken : Unbroken queuedReader halfBody := by
  have idle : CkartaBufferLimit.resume queuedReader.input = (ckHttpInputInit, 0) :=
    CkartaBufferLimit.resume_idle rfl
  have counts : CountsOn queuedReader := by
    rw [CountsOn, idle]
    decide
  have short : (incoming halfBody).length ≤ processBudgetBytes := by decide +kernel
  have stream : arrives (unparsed queuedReader) halfBody readBudgetBytes = incoming halfBody :=
    List.take_of_length_le short
  refine ⟨_, rfl, .inr ⟨counts, fun breaks => ?_⟩⟩
  rw [SocketBreaksOff, idle, List.drop_zero, Nat.sub_zero, stream] at breaks
  obtain ⟨outcome, whole, open_⟩ : ∃ outcome, presentWhole (incoming halfBody) = some outcome ∧
      outcome.result = .incomplete :=
    Option.map_eq_some_iff.mp (show (presentWhole (incoming halfBody)).map Outcome.result =
      some .incomplete by decide +kernel)
  have window := List.take_of_length_le short
  cases breaks with
  | framing read rest f n verdict comes refuses kind =>
    obtain ⟨read', rest', out', e, cut, run', waits⟩ :=
      presentWhole_waits (Nat.le_trans short (by decide)) whole open_
    obtain ⟨out, run, -⟩ := comes.run
    have same := comes.cut
    rw [window, cut] at same
    obtain ⟨-, -, rfl, rfl⟩ := stop_unique run' (stopped_of_wait waits) run (stopped_of_halt refuses) same
    simp [waits] at refuses
  | full read rest f comes waits more fills =>
    simp only [readBufferBytes, processBudgetBytes] at fills short
    omega
  | socket read rest f comes waits paid early fails => exact absurd fails (by decide +kernel)

theorem failed_body_fails_consumer_half :
    let driven := driveQueue queuedReader halfBody
    driven.2 = .eofIncomplete ∧ BodyOpen driven.1.reader.input ∧
      driven.1.reader.bodyQueue.map (readOn · [2, 8, 8]) =
        some [(.data, ascii "ab"), (.data, ascii "c"), (.error, [])] ∧
      FailsConsumer driven (deliveredBytes driven.1.trace) := by
  have told : let driven := driveQueue queuedReader halfBody
      driven.2 = .eofIncomplete ∧
        (driven.1.reader.input.headerComplete = true ∧ driven.1.reader.input.messageComplete = false) ∧
        driven.1.reader.bodyQueue.map (readOn · [2, 8, 8]) =
          some [(.data, ascii "ab"), (.data, ascii "c"), (.error, [])] := by
    decide +kernel
  have run : BodyRun (fun _ => 0) queuedReader [] [] := .start
  have fails := (failed_body_fails_consumer_iff run halfBody).1 half_unbroken
  rw [List.nil_append, List.length_nil, List.drop_zero] at fails
  refine ⟨told.1, told.2.1, told.2.2, ?_⟩
  simp only [driveQueue]
  exact fails

/-- A chunked body whose second size line is no number. -/
def badChunk : Socket := chunkedPost "2\r\nab\r\nX\r\n"

/-- The drive answers BAD_REQUEST, and the consumer reads the first chunk and then blocks. -/
theorem refused_body_blocks_consumer :
    let driven := driveQueue queuedReader badChunk
    driven.2 = .badRequest ∧ BodyOpen driven.1.reader.input ∧
      driven.1.reader.bodyQueue.map (readOn · [8, 8]) =
        some [(.data, ascii "ab"), (.wouldBlock, [])] ∧
      ¬ FailsConsumer driven (([] ++ deliveredBytes driven.1.trace).drop 0) := by
  have told : let driven := driveQueue queuedReader badChunk
      driven.2 = .badRequest ∧
        (driven.1.reader.input.headerComplete = true ∧ driven.1.reader.input.messageComplete = false) ∧
        driven.1.reader.bodyQueue.map (readOn · [8, 8]) =
          some [(.data, ascii "ab"), (.wouldBlock, [])] ∧
        driven.1.reader.bodyQueue.map RequestBody.error = some false := by
    decide +kernel
  obtain ⟨result, unfinished, reads, unmarked⟩ := told
  refine ⟨result, unfinished, reads, fun fails => ?_⟩
  obtain ⟨body, attached, set, -⟩ := fails (.inl result) unfinished
  rw [attached] at unmarked
  simp [set] at unmarked

end CkartaBodyFailure
