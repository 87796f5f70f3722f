import Ckarta.Connection
import Ckarta.OutputWriter
import Ckarta.ReaderQueue

/-!
A connection with its reader, body queue, writer and response, c/connection/ck_connection.c,
and how it is recycled for the next request. http_request_body is the queue attached to the
reader, so it is kept there. Any order of calls on the parts may precede a recycle; what
it finds at the gate says that no byte is lost.
-/
namespace CkartaConnectionRecycle
open CkartaHttpParser CkartaHttpInput CkartaConnectionReader CkartaReaderTurns CkartaReaderRuns
  CkartaHttpResponse CkartaOutputWriter CkartaReaderQueue StepHistory
open CkartaConnection hiding ckConnectionInit
open CkartaRequestBody hiding ReadResult
open CkartaRequestBodyQueue (RingHolds)

structure HttpConnection where
  connection : Connection
  socketFd : Int
  httpReader : ConnectionReader
  httpWriter : OutputWriter
  httpResponse : HttpResponse

def HttpConnection.httpRequestBody (c : HttpConnection) : Option RequestBody := c.httpReader.bodyQueue

/-- The four objects of the connection were allocated; buffer is what the queue's memory held. -/
def ckConnectionInit (connectionId requestId ownerToken lifetimeToken : Nat) (buffer : Nat → UInt8) :
    Option HttpConnection :=
  (CkartaConnection.ckConnectionInit connectionId requestId ownerToken lifetimeToken).map
    fun connection => ⟨connection, -1,
      ckHttpConnectionReaderAttachBodyQueue ckHttpConnectionReaderInit (some (ckHttpRequestBodyInit buffer)),
      ckHttpOutputWriterInit, ckHttpResponseInit⟩

def ckConnectionAttachSocket (c : HttpConnection) (socketFd : Int) : Int × HttpConnection :=
  if socketFd < 0 then (-1, c)
  else if unpackState c.connection.lifecycle ≠ ConnectionState.opened.code then (1, c)
  else if c.socketFd ≥ 0 then (1, c)
  else
    match ckHttpOutputWriterAttachSocket c.httpWriter socketFd with
    | (code, writer) =>
      if code ≠ 0 then (-1, { c with socketFd := -1, httpWriter := writer })
      else (0, { c with socketFd := socketFd, httpWriter := writer })

/-- ck_http_request_body_is_finished, for a queue that may be NULL. -/
def bodyFinished (queue : Option RequestBody) : Bool := queue.any ckHttpRequestBodyIsFinished

def ckConnectionHttpRecycle (c : HttpConnection) : Int × HttpConnection :=
  if unpackState c.connection.lifecycle ≠ ConnectionState.opened.code then (1, c)
  else
    match ckHttpConnectionReaderRequest c.httpReader with
    | none => (2, c)
    | some request =>
      if ckHttpInputComplete c.httpReader.input = false then (2, c)
      else if request.connectionCloseRequired ≠ 0 ∨ c.httpResponse.state ≠ .finished ∨
          ckHttpOutputWriterBufferedBytes c.httpWriter ≠ 0 ∨ bodyFinished c.httpRequestBody = false ∨
          c.httpResponse.connectionClose ≠ 0 then (3, c)
      else
        match ckHttpConnectionReaderNextRequest c.httpReader with
        | none => (-1, c)
        | some reader => (0, { c with httpReader := reader, httpResponse := ckHttpResponseInit })

structure Passes (c : HttpConnection) : Prop where
  request : ∃ request, ckHttpConnectionReaderRequest c.httpReader = some request ∧
    ckHttpInputComplete c.httpReader.input = true ∧ request.connectionCloseRequired = 0
  finished : c.httpResponse.state = .finished
  drained : ckHttpOutputWriterBufferedBytes c.httpWriter = 0
  consumed : bodyFinished c.httpRequestBody = true
  response : c.httpResponse.connectionClose = 0

theorem recycle_cases (c : HttpConnection) :
    ((ckConnectionHttpRecycle c).1 ≠ 0 ∧ (ckConnectionHttpRecycle c).2 = c) ∨
    (Passes c ∧ ∃ reader, ckHttpConnectionReaderNextRequest c.httpReader = some reader ∧
      ckConnectionHttpRecycle c = (0, { c with httpReader := reader, httpResponse := ckHttpResponseInit })) := by
  unfold ckConnectionHttpRecycle
  split
  · exact .inl ⟨by simp, rfl⟩
  · split
    · exact .inl ⟨by simp, rfl⟩
    · rename_i request found
      split
      · exact .inl ⟨by simp, rfl⟩
      · rename_i complete
        split
        · exact .inl ⟨by simp, rfl⟩
        · rename_i gate
          simp only [not_or, not_not, Bool.not_eq_false] at gate complete
          obtain ⟨keeps, finished, drained, consumed, response⟩ := gate
          split
          · exact .inl ⟨by simp, rfl⟩
          · rename_i reader next
            exact .inr ⟨⟨⟨request, found, complete, keeps⟩, finished, drained, consumed, response⟩,
              reader, next, rfl⟩

section
variable {σ : Type}

/-- The calls on a connection and its parts. The lifecycle word may be changed by others in between. -/
inductive Move (σ : Type) where
  | attachSocket (socketFd : Int)
  | drive (socket : Socket) (sink : Option (BodySink σ)) (context : σ)
  | read (capacity : Nat)
  | respond (call : Call)
  | queue (region : Region)
  | send (answers : List SendAnswer)
  | startAsyncCycle (cycleId : Nat)
  | tryTerminal (event : Int)
  | recycle

inductive Event where
  | returned (code : Int)
  | driven (result : ReadResult) (trace : List DriveEvent)
  | read (result : CkartaRequestBody.ReadResult) (bytes : Bytes)
  | sent (result : OutputWriteResult) (bytes : Bytes)

def readBody (c : HttpConnection) (capacity : Nat) : HttpConnection × Event :=
  match c.httpRequestBody with
  | none => (c, .read .invalid [])
  | some body =>
    match ckHttpRequestBodyRead body capacity with
    | (result, after, bytes) =>
      ({ c with httpReader := { c.httpReader with bodyQueue := some after } }, .read result bytes)

def perform (c : HttpConnection) : Move σ → HttpConnection × Event
  | .attachSocket socketFd =>
    ((ckConnectionAttachSocket c socketFd).2, .returned (ckConnectionAttachSocket c socketFd).1)
  | .drive socket sink context =>
    match ckHttpConnectionReaderDrive c.httpReader socket sink context with
    | (last, result) => ({ c with httpReader := last.reader }, .driven result last.trace)
  | .read capacity => readBody c capacity
  | .respond call =>
    ({ c with httpResponse := (respond c.httpResponse call).2 }, .returned (respond c.httpResponse call).1)
  | .queue region =>
    ({ c with httpWriter := (ckHttpOutputWriterQueue c.httpWriter region).2 },
      .returned (ckHttpOutputWriterQueue c.httpWriter region).1)
  | .send answers =>
    match ckHttpOutputWriterDrive c.httpWriter answers with
    | (result, writer, bytes) => ({ c with httpWriter := writer }, .sent result bytes)
  | .startAsyncCycle cycleId =>
    ({ c with connection := (ckConnectionStartAsyncCycle c.connection cycleId).2 },
      .returned (ckConnectionStartAsyncCycle c.connection cycleId).1)
  | .tryTerminal event =>
    ({ c with connection := (ckConnectionTryTerminal c.connection event).2 },
      .returned (ckConnectionTryTerminal c.connection event).1)
  | .recycle => ((ckConnectionHttpRecycle c).2, .returned (ckConnectionHttpRecycle c).1)

def connectionStep (c : HttpConnection) (move : Move σ) : Option (HttpConnection × Event) :=
  some (perform c move)

def queuedBytes (history : List (Move σ × Event)) : Bytes :=
  history.flatMap fun
    | (.queue region, .returned code) => if code = 0 then region.data else []
    | _ => []

def sentBytes (history : List (Move σ × Event)) : Bytes :=
  history.flatMap fun
    | (_, .sent _ bytes) => bytes
    | _ => []

def writtenBytes (history : List (Move σ × Event)) : Bytes :=
  history.flatMap fun
    | (.drive _ sink _, .driven _ trace) => forQueue sink (deliveredBytes trace)
    | _ => []

def returnedBytes (history : List (Move σ × Event)) : Bytes :=
  history.flatMap fun
    | (_, .read _ bytes) => bytes
    | _ => []

def recycles : Move σ × Event → Bool
  | (.recycle, .returned code) => code == 0
  | _ => false

/-- The part of a history that belongs to the current request: what follows the last recycle. -/
def currentRequest (history : List (Move σ × Event)) : List (Move σ × Event) :=
  (history.reverse.takeWhile fun entry => !recycles entry).reverse

/-- What holds of a connection c that was recycled to after. -/
structure Recycled (history : List (Move σ × Event)) (c after : HttpConnection) : Prop where
  sent : sentBytes history = queuedBytes history
  returned : returnedBytes (currentRequest history) = writtenBytes (currentRequest history)
  finished : c.httpResponse.state = .finished
  request : ∃ request, ckHttpConnectionReaderRequest c.httpReader = some request ∧
    ckHttpInputComplete c.httpReader.input = true ∧ request.connectionCloseRequired = 0
  response : c.httpResponse.connectionClose = 0
  pipelined : unparsed after.httpReader = unparsed c.httpReader
  new : after.httpResponse = ckHttpResponseInit ∧ after.httpResponse.state = .new
  queue : ∃ queue, after.httpRequestBody = some queue ∧ ckHttpRequestBodyAvailable queue = 0 ∧
    ckHttpRequestBodyIsFinished queue = false
  input : after.httpReader.input = ckHttpInputInit
  kept : after.connection = c.connection ∧ after.socketFd = c.socketFd ∧ after.httpWriter = c.httpWriter

theorem currentRequest_snoc (history : List (Move σ × Event)) (entry : Move σ × Event) :
    currentRequest (history ++ [entry]) =
      if recycles entry = true then [] else currentRequest history ++ [entry] := by
  cases ends : recycles entry <;> simp [currentRequest, ends]

/-- The ring holds what was written to it for the current request and not yet read. -/
structure BodyAccount (history : List (Move σ × Event)) (reader : ConnectionReader) : Prop where
  sound : ReaderSound reader
  ring : ∃ body, reader.bodyQueue = some body ∧
    RingHolds body (writtenBytes (currentRequest history)) (returnedBytes (currentRequest history))

theorem BodyAccount.extend {history : List (Move σ × Event)} {reader : ConnectionReader}
    {entry : Move σ × Event} {body : RequestBody} (sound : ReaderSound reader)
    (same : recycles entry = false) (attached : reader.bodyQueue = some body)
    (ring : RingHolds body (writtenBytes (currentRequest history) ++ writtenBytes [entry])
      (returnedBytes (currentRequest history) ++ returnedBytes [entry])) :
    BodyAccount (history ++ [entry]) reader := by
  refine ⟨sound, body, attached, ?_⟩
  rw [currentRequest_snoc, same, if_neg (by decide)]
  simpa only [writtenBytes, returnedBytes, ← List.flatMap_append] using ring

theorem BodyAccount.quiet {history : List (Move σ × Event)} {reader : ConnectionReader}
    {entry : Move σ × Event} (account : BodyAccount history reader) (same : recycles entry = false)
    (written : writtenBytes [entry] = []) (returned : returnedBytes [entry] = []) :
    BodyAccount (history ++ [entry]) reader := by
  obtain ⟨sound, body, attached, ring⟩ := account
  apply BodyAccount.extend sound same attached
  rwa [written, returned, List.append_nil, List.append_nil]

theorem attachSocket_reader (c : HttpConnection) (socketFd : Int) :
    (ckConnectionAttachSocket c socketFd).2.httpReader = c.httpReader := by
  simp only [ckConnectionAttachSocket]
  repeat' split
  all_goals rfl

theorem attachSocket_writer {c : HttpConnection} {queued sent : Bytes} (socketFd : Int)
    (carries : Carries c.httpWriter queued sent) :
    Carries (ckConnectionAttachSocket c socketFd).2.httpWriter queued sent := by
  simp only [ckConnectionAttachSocket]
  repeat' split
  all_goals first | exact carries | exact attachSocket_carries socketFd carries

theorem drive_account {history : List (Move σ × Event)} {reader : ConnectionReader}
    (account : BodyAccount history reader) (socket : Socket) (sink : Option (BodySink σ)) (context : σ) :
    let driven := ckHttpConnectionReaderDrive reader socket sink context
    BodyAccount (history ++ [(.drive socket sink context, .driven driven.2 driven.1.trace)])
      driven.1.reader := by
  obtain ⟨sound, body, attached, ring⟩ := account
  obtain ⟨after, there, -, held⟩ := drive_ring sound socket sink context attached ring
  apply BodyAccount.extend (drive_sound sound socket sink context) rfl there
  simpa [writtenBytes, returnedBytes] using held

theorem readBody_account {history : List (Move σ × Event)} {c : HttpConnection}
    (account : BodyAccount history c.httpReader) (capacity : Nat) :
    BodyAccount (history ++ [(.read capacity, (readBody c capacity).2)]) (readBody c capacity).1.httpReader := by
  obtain ⟨sound, body, attached, ring⟩ := account
  have held := (read_holds capacity ring).1
  have kept : ReaderSound { c.httpReader with bodyQueue := some (ckHttpRequestBodyRead body capacity).2.1 } :=
    ⟨sound.begins, sound.fits, sound.input⟩
  simp only [readBody, HttpConnection.httpRequestBody, attached]
  apply BodyAccount.extend kept rfl rfl
  simpa [writtenBytes, returnedBytes] using held

theorem recycle_account {history : List (Move σ × Event)} {c : HttpConnection}
    (account : BodyAccount history c.httpReader) :
    BodyAccount (history ++ [(.recycle, .returned (ckConnectionHttpRecycle c).1)])
      (ckConnectionHttpRecycle c).2.httpReader := by
  rcases recycle_cases c with ⟨refused, same⟩ | ⟨passes, reader, next, answer⟩
  · rw [same]
    exact account.quiet (by simpa [recycles] using refused) rfl rfl
  · obtain ⟨sound, body, attached, ring⟩ := account
    rw [answer]
    refine ⟨nextRequest_sound sound next, ckHttpRequestBodyInit body.buffer, ?_, ?_⟩
    · simp [nextRequest_eq next, attached]
    · rw [currentRequest_snoc]
      exact init_holds body.buffer

theorem perform_account {history : List (Move σ × Event)} {c : HttpConnection} (move : Move σ)
    (account : BodyAccount history c.httpReader) :
    BodyAccount (history ++ [(move, (perform c move).2)]) (perform c move).1.httpReader := by
  cases move with
  | attachSocket socketFd =>
    simp only [perform, attachSocket_reader]
    exact account.quiet rfl rfl rfl
  | drive socket sink context => exact drive_account account socket sink context
  | read capacity => exact readBody_account account capacity
  | respond call => exact account.quiet rfl rfl rfl
  | queue region => exact account.quiet rfl rfl rfl
  | send answers => exact account.quiet rfl rfl rfl
  | startAsyncCycle cycleId => exact account.quiet rfl rfl rfl
  | tryTerminal event => exact account.quiet rfl rfl rfl
  | recycle => exact recycle_account account

theorem perform_carries {history : List (Move σ × Event)} {c : HttpConnection} (move : Move σ)
    (carries : Carries c.httpWriter (queuedBytes history) (sentBytes history)) :
    Carries (perform c move).1.httpWriter (queuedBytes (history ++ [(move, (perform c move).2)]))
      (sentBytes (history ++ [(move, (perform c move).2)])) := by
  simp only [queuedBytes, sentBytes, List.flatMap_append] at carries ⊢
  cases move with
  | attachSocket socketFd => simpa [perform] using attachSocket_writer socketFd carries
  | read capacity =>
    simp only [perform, readBody]
    split
    · simpa using carries
    · simpa using carries
  | queue region => simpa [perform] using queue_carries region carries
  | send answers => simpa [perform] using drive_carries answers carries
  | recycle =>
    rcases recycle_cases c with ⟨-, same⟩ | ⟨-, reader, -, answer⟩
    · simpa [perform, same] using carries
    · simpa [perform, answer] using carries
  | drive | respond | startAsyncCycle | tryTerminal => simpa [perform] using carries

theorem runs_accounts {connectionId requestId ownerToken lifetimeToken : Nat} {buffer : Nat → UInt8}
    {start c : HttpConnection} {history : List (Move σ × Event)}
    (created : ckConnectionInit connectionId requestId ownerToken lifetimeToken buffer = some start)
    (runs : Runs connectionStep start history c) :
    Carries c.httpWriter (queuedBytes history) (sentBytes history) ∧ BodyAccount history c.httpReader := by
  apply runs.invariant fun history c =>
    Carries c.httpWriter (queuedBytes history) (sentBytes history) ∧ BodyAccount history c.httpReader
  · simp only [ckConnectionInit, Option.map_eq_some_iff] at created
    obtain ⟨connection, -, rfl⟩ := created
    exact ⟨init_carries, reachable_sound (.attach _ .init), _, rfl, init_holds buffer⟩
  · intro history c after move answer before accounts next
    simp only [connectionStep, Option.some.injEq] at next
    have moved : perform c move = (after, answer) := next
    have carries := perform_carries move accounts.1
    have account := perform_account move accounts.2
    rw [moved] at carries account
    exact ⟨carries, account⟩

theorem finished_returned {body : RequestBody} {written returned : Bytes}
    (ring : RingHolds body written returned) (finished : ckHttpRequestBodyIsFinished body = true) :
    returned = written := by
  have used := ring_used ring
  have bound := ring.bound
  simp only [ckHttpRequestBodyIsFinished, ckHttpRequestBodyAvailable, Bool.and_eq_true, beq_iff_eq] at finished
  rw [List.length_drop] at used
  rw [if_neg (by omega)] at finished
  exact ring.order.eq_of_length_le (by omega)

/-- Whatever calls were made before: a recycle that returns 0 loses no byte in either direction,
    and any other changes nothing. -/
theorem recycle_loses_nothing {connectionId requestId ownerToken lifetimeToken : Nat}
    {buffer : Nat → UInt8} {start c : HttpConnection} {history : List (Move σ × Event)}
    (created : ckConnectionInit connectionId requestId ownerToken lifetimeToken buffer = some start)
    (runs : Runs connectionStep start history c) :
    ((ckConnectionHttpRecycle c).1 = 0 → Recycled history c (ckConnectionHttpRecycle c).2) ∧
      ((ckConnectionHttpRecycle c).1 ≠ 0 → (ckConnectionHttpRecycle c).2 = c) := by
  obtain ⟨carries, -, body, attached, ring⟩ := runs_accounts created runs
  rcases recycle_cases c with ⟨refused, same⟩ | ⟨passes, reader, next, answer⟩
  · exact ⟨fun zero => absurd zero refused, fun _ => same⟩
  · rw [answer]
    refine ⟨fun _ => ?_, fun refused => absurd rfl refused⟩
    have fresh := nextRequest_eq next
    have consumed := passes.consumed
    rw [HttpConnection.httpRequestBody, attached] at consumed
    exact {
      sent := (carries.sent_all passes.drained).symm
      returned := finished_returned ring consumed
      finished := passes.finished
      request := passes.request
      response := passes.response
      pipelined := by simp [fresh, unparsed]
      new := ⟨rfl, rfl⟩
      queue := ⟨ckHttpRequestBodyInit body.buffer, by simp [HttpConnection.httpRequestBody, fresh, attached],
        rfl, rfl⟩
      input := by simp [fresh]
      kept := ⟨rfl, rfl, rfl⟩ }

end

/-- A POST with a request pipelined behind it, answered in two sends; the recycle between
    them comes too early. -/
def keepaliveMoves : List (Move Unit) :=
  [.attachSocket 5,
    .drive [.data 80 (ascii "OST / HTTP/1.1\r\nHost: x\r\nContent-Length: 2\r\n\r\nhiGET /two")] none (),
    .read 16, .respond (.setStatus 200), .respond (.writeBody (.bytes (ascii "ok"))), .respond .finish,
    .queue (.bytes (headerText 200 2 0 ++ ascii "ok")), .send [.accepts 4, .again], .recycle,
    .send [.intr, .accepts 100]]

theorem recycle_loses_nothing_keepalive : ∃ start history c,
    ckConnectionInit 3 31 32 33 (fun _ => 0) = some start ∧
    execute connectionStep start keepaliveMoves = some (history, c) ∧
    Recycled history c (ckConnectionHttpRecycle c).2 ∧ sentBytes history = headerText 200 2 0 ++ ascii "ok" ∧
    returnedBytes (currentRequest history) = ascii "hi" ∧
    unparsed (ckConnectionHttpRecycle c).2.httpReader = ascii "GET /two" := by
  obtain ⟨start, created⟩ : ∃ start, ckConnectionInit 3 31 32 33 (fun _ => 0) = some start := ⟨_, rfl⟩
  have computed : ((ckConnectionInit 3 31 32 33 (fun _ => 0)).bind fun start =>
      (execute connectionStep start keepaliveMoves).map fun (history, c) =>
        ((ckConnectionHttpRecycle c).1, sentBytes history, returnedBytes (currentRequest history),
          unparsed (ckConnectionHttpRecycle c).2.httpReader)) =
      some (0, headerText 200 2 0 ++ ascii "ok", ascii "hi", ascii "GET /two") := by
    decide +kernel
  rw [created, Option.bind_some, Option.map_eq_some_iff] at computed
  obtain ⟨⟨history, c⟩, executed, found⟩ := computed
  simp only [Prod.mk.injEq] at found
  obtain ⟨zero, sent, returned, ahead⟩ := found
  exact ⟨start, history, c, created, executed,
    (recycle_loses_nothing created (execute_runs executed)).1 zero, sent, returned, ahead⟩

end CkartaConnectionRecycle
