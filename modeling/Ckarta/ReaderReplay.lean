import Ckarta.ReaderProgress

/-!
A connection served by drive after drive, against input states that are given the
consumed bytes afresh, one for each request. Compaction, the two budgets and pipelined
bytes must not show in what was completed and delivered.
-/
namespace CkartaReaderReplay
open MachineWord PrefixMachine CkartaHttpParser CkartaHttpInput CkartaInputMachine CkartaInputStream
  CkartaConnectionReader CkartaReaderSteps CkartaReaderTurns CkartaReaderRuns CkartaReaderProgress
variable {σ : Type}

/-- The machine completes a message with exactly the bytes m. -/
def Completes (x : HttpInput) (m out : Bytes) (request : HttpRequest) : Prop :=
  ∃ read rest e, m = read ++ rest ∧ Steps inputMachine x read out e ∧
    ((e.messageComplete = true ∧ rest = [] ∧ request = e.request) ∨
      inputAct e rest = .halt rest.length (.complete, request))

/-- What a drive of a ready reader can return, with a sink that takes every span. -/
inductive DriveOutcome (s t : DriveState σ) : ReadResult → Prop where
  | open_ (read out got : Bytes) (result : ReadResult) (progress : Progress s t read out got)
      (run : Steps inputMachine (settled s.reader.input) read out (settled t.reader.input))
      (ready : Ready t.reader.input) (unfinished : result ≠ .requestComplete) :
      DriveOutcome s t result
  | complete (read out got : Bytes) (progress : Progress s t read out got)
      (run : Completes (settled s.reader.input) read out t.reader.input.request)
      (done : t.reader.input.messageComplete = true) (header : t.reader.input.headerComplete = true) :
      DriveOutcome s t .requestComplete
  | rejected (result : ReadResult) (kind : result = .badRequest ∨ result = .tooLarge) :
      DriveOutcome s t result

theorem completes_after {x y : HttpInput} {read out m extra : Bytes} {request : HttpRequest}
    (run : Steps inputMachine x read out y) (completes : Completes y m extra request) :
    Completes x (read ++ m) (out ++ extra) request := by
  obtain ⟨read', rest, e, rfl, run', ends⟩ := completes
  exact ⟨read ++ read', rest, e, by rw [List.append_assoc], steps_trans run run', ends⟩

theorem turn_returns {sink : Option (BodySink σ)} {s t : DriveState σ} {result : ReadResult}
    (sound : DriveSound s) (accepting : Accepting sink) (ready : Ready s.reader.input)
    (outcome : TurnOutcome sink s (t, .stop result)) : DriveOutcome s t result := by
  generalize same : Turn.stop result = turn at outcome
  cases outcome with
  | spent empty =>
    simp only [Turn.stop.injEq] at same
    exact .open_ [] [] [] result (.refl s) (Steps.refl _) ready (by simp [same])
  | again _ done moved => simp [ready.live] at done
  | refused _ y z n result held within moved unwilling kind => exact absurd accepting unwilling
  | acked _ z n data turn held moved goes => exact absurd ready.no_span held.span
  | ran _ read rest out y turn ready cut run idle next vain moved goes =>
    subst same
    cases goes with
    | complete done =>
      rw [moved.input] at done
      have header : y.headerComplete = true := by
        rcases next with ⟨-, header⟩ | ready
        · exact header
        · simp [ready.live] at done
      refine .complete read out [] (moved_progress sound.reader moved cut) ?_
        (by rw [moved.input]; exact done) (by rw [moved.input]; exact header)
      rw [moved.input]
      exact ⟨read, [], settled y, by simp, run, .inl ⟨done, rfl, rfl⟩⟩
  | complete _ read rest n e y ready cut wide within run ends idle header done moved =>
    simp only [Turn.stop.injEq] at same
    subst same
    have halts := inputAct_halt_local ends wide
    have width : (rest.take n).length = n := by
      rw [List.length_take]
      omega
    have split : slice s = read ++ rest.take n ++ rest.drop n := by
      rw [cut, List.append_assoc, List.take_append_drop]
    refine .complete (read ++ rest.take n) [] [] (moved_progress sound.reader moved split) ?_
      (by rw [moved.input]; exact done) (by rw [moved.input]; exact header)
    rw [moved.input]
    exact ⟨read, rest.take n, e, rfl, run, .inr (by rw [width]; exact halts)⟩
  | rejected _ fed result' ready feeds kind told within next moved =>
    simp only [Turn.stop.injEq] at same
    subst same
    refine .rejected _ ?_
    rcases kind with bad | large
    · exact .inl (by rw [told, bad]; rfl)
    · exact .inr (by rw [told, large]; rfl)

theorem receive_returns {s t : DriveState σ} {result : ReadResult} (ready : Ready s.reader.input)
    (outcome : ReceiveOutcome s (t, some result)) : DriveOutcome s t result := by
  have stays : Received s t [] → result ≠ .requestComplete → DriveOutcome s t result :=
    fun kept unfinished => .open_ [] [] [] result (received_progress kept)
      (by rw [kept.input]; exact Steps.refl _) (by rw [kept.input]; exact ready) unfinished
  cases outcome with
  | idle _ kept => exact stays kept (by simp)
  | full _ kept full front => exact stays kept (by simp)
  | eof _ _ kept told =>
    refine stays kept ?_
    rw [told]
    simp [ckHttpInputEof, ready.live, mapInputResult]
  | error _ kept => exact stays kept (by simp)

theorem DriveOutcome.after {s t u : DriveState σ} {read out got : Bytes} {result : ReadResult}
    (progress : Progress s t read out got)
    (run : Steps inputMachine (settled s.reader.input) read out (settled t.reader.input))
    (outcome : DriveOutcome t u result) : DriveOutcome s u result := by
  cases outcome with
  | open_ read' out' got' _ progress' run' ready unfinished =>
    exact .open_ _ _ _ result (progress.trans progress') (steps_trans run run') ready unfinished
  | complete read' out' got' progress' run' done header =>
    exact .complete _ _ _ (progress.trans progress') (completes_after run run') done header
  | rejected _ kind => exact .rejected _ kind

theorem ready_returns {sink : Option (BodySink σ)} {s t : DriveState σ} {result : ReadResult}
    (sound : DriveSound s) (accepting : Accepting sink) (ready : Ready s.reader.input)
    (returns : Returns sink s t result) : DriveOutcome s t result := by
  obtain ⟨last, visits, ends⟩ := returns
  obtain ⟨read, out, got, progress, run, still⟩ := visits_progress sound ready visits
  have sound' := visits_sound sound visits
  refine DriveOutcome.after progress run ?_
  rcases driveStep_cases sound' ends with ⟨turn, outcome, more, kind⟩ |
    ⟨u, outcome, more, next, received⟩ | ⟨reached, received⟩
  · obtain ⟨same, rfl, told⟩ : ∃ same, turn = .stop same ∧ some result = some same := by
      simpa using kind
    rw [Option.some.injEq] at told
    subst told
    exact turn_returns sound' accepting still outcome
  · obtain ⟨read', out', progress', run', still', -⟩ :=
      turn_progress sound' still outcome (by simp)
    exact DriveOutcome.after progress' run' (receive_returns still' received)
  · exact receive_returns still received

/-- A connection and what has been seen of it: every byte received and consumed so far, the
    requests completed with their bodies, and the body of the request in progress. -/
structure Session (σ : Type) where
  reader : ConnectionReader
  socket : Socket
  context : σ
  received : Bytes
  consumed : Bytes
  completed : List (HttpRequest × Bytes)
  body : Bytes

def Session.start (socket : Socket) (context : σ) : Session σ :=
  ⟨ckHttpConnectionReaderInit, socket, context, [], [], [], []⟩

/-- The request the reader shows goes on record with the bytes delivered for it. -/
def Session.record (s : Session σ) : Session σ :=
  match ckHttpConnectionReaderRequest s.reader with
  | some request => { s with completed := s.completed ++ [(request, s.body)], body := [] }
  | none => s

def Session.observe (s : Session σ) (driven : DriveState σ) : Session σ :=
  { reader := driven.reader, socket := driven.socket, context := driven.context
    received := s.received ++ receivedBytes driven.trace
    consumed := s.consumed ++ consumedBytes driven.trace
    completed := s.completed
    body := s.body ++ deliveredBytes driven.trace }

def Session.drive (callback : BodySink σ) (s : Session σ) : Session σ × ReadResult :=
  let driven := ckHttpConnectionReaderDrive s.reader s.socket (some callback) s.context
  if driven.2 = .requestComplete then ((s.observe driven.1).record, driven.2)
  else (s.observe driven.1, driven.2)

def Session.next (s : Session σ) : Session σ :=
  match ckHttpConnectionReaderNextRequest s.reader with
  | some reader => { s with reader := reader }
  | none => s

/-- Drive after drive on one socket, with next_request after each completed request. Other
    results are followed by a drive as far as goOn admits. -/
inductive Runs (callback : BodySink σ) (socket : Socket) (context : σ) (goOn : ReadResult → Prop) :
    Session σ → Prop where
  | start : Runs callback socket context goOn (.start socket context)
  | drive {s : Session σ} (before : Runs callback socket context goOn s)
      (unfinished : (s.drive callback).2 ≠ .requestComplete) (admitted : goOn (s.drive callback).2) :
      Runs callback socket context goOn (s.drive callback).1
  | next {s : Session σ} (before : Runs callback socket context goOn s)
      (complete : (s.drive callback).2 = .requestComplete) :
      Runs callback socket context goOn (s.drive callback).1.next

/-- Fresh input states, one after the other, on the bytes: the requests that complete, each
    with its body, and the body bytes of the last one. -/
inductive Replays : Bytes → List (HttpRequest × Bytes) → Bytes → Prop where
  | last {bytes : Bytes} (outcome : Outcome) (settles : Settles ckHttpInputInit bytes 0 [] outcome)
      (open_ : outcome.result = .incomplete) : Replays bytes [] outcome.body
  | message {m rest body last : Bytes} {request : HttpRequest} {more : List (HttpRequest × Bytes)}
      (settles : Settles ckHttpInputInit m 0 [] ⟨.complete, request, body, some m.length⟩)
      (after : Replays rest more last) : Replays (m ++ rest) ((request, body) :: more) last

/-- The same, computed, where the bytes fit one memory. -/
def replay : Nat → Bytes → Option (List (HttpRequest × Bytes) × Bytes)
  | 0, _ => none
  | fuel + 1, bytes =>
    match presentWhole bytes with
    | some ⟨.complete, request, body, some n⟩ =>
      (replay fuel (bytes.drop n)).map fun (more, last) => ((request, body) :: more, last)
    | some outcome => some ([], outcome.body)
    | none => none

theorem settles_of_completes {m out : Bytes} {request : HttpRequest}
    (completes : Completes (settled ckHttpInputInit) m out request) :
    Settles ckHttpInputInit m 0 [] ⟨.complete, request, out, some m.length⟩ := by
  obtain ⟨read, rest, e, rfl, run, ends⟩ := completes
  rcases ends with ⟨done, rfl, rfl⟩ | halts
  · refine ⟨read, [], out, e, rfl, run, stopped_of_done done, ?_⟩
    simp [closing, done]
  · refine ⟨read, rest, out, e, rfl, run, stopped_of_halt halts, ?_⟩
    simp [closing_of_halt halts]

theorem settles_of_steps {m out : Bytes} {y : HttpInput} (ready : Ready y)
    (run : Steps inputMachine (settled ckHttpInputInit) m out (settled y)) :
    Settles ckHttpInputInit m 0 [] ⟨.incomplete, y.request, out, none⟩ := by
  have live : (settled y).messageComplete = false := ready.live
  refine ⟨m, [], out, settled y, by simp, run, stopped_of_wait rfl, ?_⟩
  simp only [closing, live, Bool.false_eq_true, ↓reduceIte, inputAct, List.nil_append]
  rfl

theorem settles_extend {x : HttpInput} {m t b body : Bytes} {position : Nat} {request : HttpRequest}
    {consumed : Option Nat} (settles : Settles x m position b ⟨.complete, request, body, consumed⟩) :
    Settles x (m ++ t) position b ⟨.complete, request, body, consumed⟩ := by
  obtain ⟨read, rest, out, e, rfl, run, stop, same⟩ := settles
  refine ⟨read, rest ++ t, out, e, by simp, run, ?_⟩
  cases done : e.messageComplete with
  | true =>
    refine ⟨stopped_of_done done, ?_⟩
    rw [same]
    simp [closing, done]
  | false =>
    cases act : inputAct e rest with
    | wait => simp [closing, done, act] at same
    | move n out' y => exact absurd act (stop n out' y)
    | halt n verdict =>
      have whole := halt_extends act (List.prefix_append rest t)
      refine ⟨stopped_of_halt whole, ?_⟩
      rw [same, closing_of_halt act, closing_of_halt whole]

theorem settles_nonempty {request : HttpRequest} {body : Bytes} {consumed : Option Nat} :
    ¬ Settles ckHttpInputInit [] 0 [] ⟨.complete, request, body, consumed⟩ := by
  intro settles
  have open_ := settles_unique settles (settles_of_steps init_ready (Steps.refl _))
  simp at open_

inductive Recorded : Bytes → List (HttpRequest × Bytes) → Prop where
  | nil : Recorded [] []
  | snoc {bytes m body : Bytes} {request : HttpRequest} {done : List (HttpRequest × Bytes)}
      (before : Recorded bytes done)
      (settles : Settles ckHttpInputInit m 0 [] ⟨.complete, request, body, some m.length⟩) :
      Recorded (bytes ++ m) (done ++ [(request, body)])

theorem recorded_replays {bytes rest last : Bytes} {done more : List (HttpRequest × Bytes)}
    (recorded : Recorded bytes done) (after : Replays rest more last) :
    Replays (bytes ++ rest) (done ++ more) last := by
  induction recorded generalizing rest more with
  | nil => exact after
  | snoc before settles ih =>
    rw [List.append_assoc, List.append_assoc]
    exact ih (.message settles after)

theorem replays_replay {bytes last : Bytes} {done : List (HttpRequest × Bytes)} (fuel : Nat)
    (replays : Replays bytes done last) (fits : bytes.length ≤ uint64Max)
    (enough : bytes.length < fuel) : replay fuel bytes = some (done, last) := by
  induction replays generalizing fuel with
  | @last bytes outcome settles open_ =>
    obtain ⟨fuel, rfl⟩ : ∃ n, fuel = n + 1 := ⟨fuel - 1, by omega⟩
    have whole := presentWhole_settles fits settles
    obtain ⟨result, request, body, consumed⟩ := outcome
    simp only at open_
    subst open_
    simp only [replay, whole]
  | @message m rest body last request more settles after ih =>
    obtain ⟨fuel, rfl⟩ : ∃ n, fuel = n + 1 := ⟨fuel - 1, by omega⟩
    have whole := presentWhole_settles fits (settles_extend (t := rest) settles)
    have some : 0 < m.length := by
      apply List.length_pos_iff.mpr
      rintro rfl
      exact settles_nonempty settles
    rw [List.length_append] at fits enough
    simp only [replay, whole, List.drop_left, ih fuel (by omega) (by omega), Option.map_some]

structure Serving (socket : Socket) (s : Session σ) : Prop where
  sound : ReaderSound s.reader
  ready : Ready s.reader.input
  stream : unread socket = s.received ++ unread s.socket
  whole : s.received = s.consumed ++ unparsed s.reader
  progress : ∃ bytes part, s.consumed = bytes ++ part ∧ Recorded bytes s.completed ∧
    Steps inputMachine (settled ckHttpInputInit) part s.body (settled s.reader.input)

structure Served (socket : Socket) (s : Session σ) : Prop where
  sound : ReaderSound s.reader
  done : s.reader.input.messageComplete = true
  stream : unread socket = s.received ++ unread s.socket
  whole : s.received = s.consumed ++ unparsed s.reader
  recorded : Recorded s.consumed s.completed
  fresh : s.body = []

theorem start_serving (socket : Socket) (context : σ) : Serving socket (.start socket context) :=
  ⟨⟨Nat.le_refl _, Nat.zero_le _, .ready init_ready⟩, init_ready, rfl, rfl,
    [], [], rfl, .nil, Steps.refl _⟩

theorem next_serving {socket : Socket} {s : Session σ} (served : Served socket s) :
    Serving socket s.next := by
  have next : ckHttpConnectionReaderNextRequest s.reader = some
      ⟨ckHttpInputInit, s.reader.bodyQueue.map fun queue =>
        CkartaRequestBody.ckHttpRequestBodyInit queue.buffer, unparsed s.reader, 0⟩ := by
    simp [ckHttpConnectionReaderNextRequest, ckHttpInputComplete, served.done, ckHttpInputNextRequest,
      unparsed]
  have fits := served.sound.fits
  simp only [Session.next, next]
  refine ⟨⟨Nat.zero_le _, ?_, .ready init_ready⟩, init_ready, served.stream, ?_, s.consumed, [],
    by simp, served.recorded, ?_⟩
  · simp only [unparsed, List.length_drop]
    omega
  · simpa [unparsed] using served.whole
  · rw [served.fresh]
    exact Steps.refl _

/-- What a drive adds to the record is a run of its reader's machine. -/
theorem observe_stream {socket : Socket} {s : Session σ} {t : DriveState σ} {read out got : Bytes}
    (serving : Serving socket s) (progress : Progress (startDrive s.reader s.socket s.context) t read out got) :
    unread socket = (s.observe t).received ++ unread (s.observe t).socket ∧
      (s.observe t).received = (s.observe t).consumed ++ unparsed (s.observe t).reader ∧
      (s.observe t).consumed = s.consumed ++ read ∧ (s.observe t).body = s.body ++ out := by
  have stream : unparsed s.reader ++ got = read ++ unparsed t.reader := progress.stream
  have left : unread s.socket = got ++ unread t.socket := progress.unread_eq
  have received : receivedBytes t.trace = got := progress.received
  have consumed : consumedBytes t.trace = read := progress.consumed
  have delivered : deliveredBytes t.trace = out := progress.delivered
  simp only [Session.observe, received, consumed, delivered, and_true]
  constructor
  · rw [serving.stream, left, List.append_assoc]
  · rw [serving.whole, List.append_assoc, stream, List.append_assoc]

theorem drive_serving {socket : Socket} {s : Session σ} {callback : BodySink σ}
    (takes : ∀ context data, (callback context data).1 = 0) (serving : Serving socket s)
    (accepted : (s.drive callback).2 ≠ .badRequest ∧ (s.drive callback).2 ≠ .tooLarge) :
    ((s.drive callback).2 ≠ .requestComplete → Serving socket (s.drive callback).1) ∧
      ((s.drive callback).2 = .requestComplete → Served socket (s.drive callback).1) := by
  have answer : (s.drive callback).2 =
      (ckHttpConnectionReaderDrive s.reader s.socket (some callback) s.context).2 := by
    simp only [Session.drive]
    split <;> rfl
  rw [answer] at accepted ⊢
  have sound := drive_sound serving.sound s.socket (some callback) s.context
  have outcome := ready_returns (startDrive_sound serving.sound s.socket s.context)
    ⟨callback, rfl, takes⟩ serving.ready (drive_returns s.reader s.socket (some callback) s.context)
  simp only [Session.drive]
  generalize ckHttpConnectionReaderDrive s.reader s.socket (some callback) s.context = driven at *
  obtain ⟨t, result⟩ := driven
  simp only at accepted sound outcome ⊢
  obtain ⟨bytes, part, cut, recorded, run⟩ := serving.progress
  cases outcome with
  | open_ read out got _ progress run' ready unfinished =>
    obtain ⟨stream, whole, consumed, body⟩ := observe_stream serving progress
    refine ⟨fun _ => ?_, fun done => absurd done unfinished⟩
    rw [if_neg unfinished]
    refine ⟨sound, ready, stream, whole, bytes, part ++ read, ?_, recorded, ?_⟩
    · rw [consumed, cut, List.append_assoc]
    · rw [body]
      exact steps_trans run run'
  | complete read out got progress run' done header =>
    obtain ⟨stream, whole, consumed, body⟩ := observe_stream serving progress
    refine ⟨fun unfinished => absurd rfl unfinished, fun _ => ?_⟩
    have shown : ckHttpConnectionReaderRequest (s.observe t).reader = some t.reader.input.request := by
      simp [ckHttpConnectionReaderRequest, ckHttpInputRequest, Session.observe, header]
    have settles := settles_of_completes (completes_after run run')
    rw [if_pos rfl, Session.record, shown]
    refine ⟨sound, done, stream, whole, ?_, rfl⟩
    simp only [consumed, body, cut, List.append_assoc]
    exact .snoc recorded settles
  | rejected _ kind => rcases kind with rfl | rfl <;> simp at accepted

/-- The results after which the connection is still in step with its stream. -/
def InStep (result : ReadResult) : Prop := result ≠ .badRequest ∧ result ≠ .tooLarge

theorem runs_serving {callback : BodySink σ} {socket : Socket} {context : σ} {s : Session σ}
    (takes : ∀ context data, (callback context data).1 = 0)
    (runs : Runs callback socket context InStep s) : Serving socket s := by
  induction runs with
  | start => exact start_serving socket context
  | drive before unfinished admitted ih => exact (drive_serving takes ih admitted).1 unfinished
  | next before complete ih =>
    exact next_serving ((drive_serving takes ih (by simp [complete])).2 complete)

/-- The reader refines the input state: as long as no drive follows a rejection, at every
    return nothing received is lost or duplicated, and what was completed and delivered
    is what fresh input states make of the consumed bytes. -/
theorem session_replays {callback : BodySink σ} {socket : Socket} {context : σ} {s : Session σ}
    (takes : ∀ context data, (callback context data).1 = 0)
    (runs : Runs callback socket context InStep s)
    (returned : (s.drive callback).2 = .incomplete ∨ (s.drive callback).2 = .requestComplete) :
    let after := (s.drive callback).1
    unread socket = after.received ++ unread after.socket ∧
      after.received = after.consumed ++ unparsed after.reader ∧
      Replays after.consumed after.completed after.body ∧
      (after.consumed.length ≤ uint64Max →
        replay (after.consumed.length + 1) after.consumed = some (after.completed, after.body)) := by
  have serving := runs_serving takes runs
  have steps := drive_serving takes serving (by rcases returned with h | h <;> simp [h])
  intro after
  have kept : unread socket = after.received ++ unread after.socket ∧
      after.received = after.consumed ++ unparsed after.reader ∧
      Replays after.consumed after.completed after.body := by
    rcases returned with open_ | complete
    · have still := steps.1 (by simp [open_])
      obtain ⟨bytes, part, cut, recorded, run⟩ := still.progress
      refine ⟨still.stream, still.whole, ?_⟩
      rw [cut]
      simpa using recorded_replays recorded (.last _ (settles_of_steps still.ready run) rfl)
    · have served := steps.2 complete
      refine ⟨served.stream, served.whole, ?_⟩
      rw [served.fresh]
      simpa using recorded_replays served.recorded
        (.last _ (settles_of_steps init_ready (Steps.refl _)) rfl)
  exact ⟨kept.1, kept.2.1, kept.2.2, fun fits => replays_replay _ kept.2.2 fits (Nat.lt_succ_self _)⟩

def pipelined : Socket :=
  [.data 71 (ascii "ET /a HTTP/1.1\r\n\r\nGET /b HTTP/1.1\r\n\r\n")]

theorem session_replays_pipelined :
    let s := ((Session.start pipelined ()).drive takeAll).1.next
    Runs takeAll pipelined () InStep s ∧ (s.drive takeAll).2 = .requestComplete ∧
      (s.drive takeAll).1.completed.length = 2 ∧
      Replays (s.drive takeAll).1.consumed (s.drive takeAll).1.completed (s.drive takeAll).1.body := by
  intro s
  have runs : Runs takeAll pipelined () InStep s := .next .start (by decide +kernel)
  have complete : (s.drive takeAll).2 = .requestComplete := by decide +kernel
  have kept := session_replays (fun _ _ => rfl) runs (.inr complete)
  exact ⟨runs, complete, by decide +kernel, kept.2.2.1⟩

def brokenTrailers : Socket :=
  [.data 80 (ascii "OST / HTTP/1.1\r\nTransfer-Encoding: chunked\r\n\r\n2\r\nab\r\n0\r\n\rX")]

/-- A drive after the rejection completes a request that the consumed bytes do not complete:
    they end with the CRLF of the data, which was read a second time as the end of the body. -/
theorem replay_lost_after_rejection :
    ∃ s : Session Unit, Runs takeAll brokenTrailers () (fun _ => True) s ∧
      (s.drive takeAll).2 = .requestComplete ∧ (s.drive takeAll).1.completed.length = 1 ∧
      (replay 100 (s.drive takeAll).1.consumed).map (fun replayed => replayed.1.length) = some 0 ∧
      ¬ Replays (s.drive takeAll).1.consumed (s.drive takeAll).1.completed (s.drive takeAll).1.body := by
  refine ⟨((Session.start brokenTrailers ()).drive takeAll).1,
    .drive .start (by decide +kernel) trivial, by decide +kernel, by decide +kernel, by decide +kernel, ?_⟩
  intro replays
  have replayed := replays_replay 100 replays (by decide +kernel) (by decide +kernel)
  revert replayed
  decide +kernel

end CkartaReaderReplay
