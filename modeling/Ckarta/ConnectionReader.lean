import Ckarta.HttpInput
import Ckarta.RequestBody

/-!
The connection reader, c/http/ck_http_connection_reader.[ch]: a receive buffer in front
of the input state, driven once per readiness. The buffer list holds the bytes before
end, so end is its length. A drive is also given a trace of what it did, for the
statements about it.
-/
namespace CkartaConnectionReader
open MachineWord CkartaHttpParser CkartaHttpInput CkartaRequestBody

def readBufferBytes : Nat := 65536
def readBudgetBytes : Nat := 32768
def processBudgetBytes : Nat := 32768
def bodySinkWouldBlock : Int := 2

inductive ReadResult where
  | incomplete
  | requestComplete
  | badRequest
  | tooLarge
  | eofIncomplete
  | ioError
  | sinkError
  | bodyBackpressure
  deriving DecidableEq, Repr

structure ConnectionReader where
  input : HttpInput
  bodyQueue : Option RequestBody
  buffer : Bytes
  beginPos : Nat

def mapInputResult : InputResult → ReadResult
  | .incomplete => .incomplete
  | .body => .incomplete
  | .complete => .requestComplete
  | .tooLarge => .tooLarge
  | .eofIncomplete => .eofIncomplete
  | .badRequest => .badRequest

/-- What a nonblocking socket has in store: segments in order of arrival, and the
    answers without data. A segment is never empty. -/
inductive SocketEvent where
  | data (first : UInt8) (rest : Bytes)
  | again
  | intr
  | eof
  | error
  deriving DecidableEq, Repr

abbrev Socket := List SocketEvent

inductive RecvOutcome where
  | data (bytes : Bytes)
  | zero
  | again
  | intr
  | error
  deriving DecidableEq, Repr

/-- ck_socket_recv_nonblocking: at most length bytes of the next segment. An empty socket
    would block, and the end of the stream stays where it is. -/
def recv (socket : Socket) (length : Nat) : RecvOutcome × Socket :=
  match socket with
  | [] => (.again, [])
  | .data first rest :: events =>
    if length = 0 then (.zero, socket)
    else (.data ((first :: rest).take length), match (first :: rest).drop length with
      | [] => events
      | b :: left => .data b left :: events)
  | .again :: events => (.again, events)
  | .intr :: events => (.intr, events)
  | .eof :: events => (.zero, .eof :: events)
  | .error :: events => (.error, events)

def unread : Socket → Bytes
  | [] => []
  | .data first rest :: events => first :: rest ++ unread events
  | _ :: events => unread events

abbrev BodySink (σ : Type) := σ → Bytes → Int × σ

inductive DriveEvent where
  | fed (length : Nat) (result : InputResult)
  | offered (bytes : Bytes) (answer : Int)
  | consumed (bytes : Bytes)
  | received (requested : Nat) (bytes : Bytes)
  deriving DecidableEq, Repr

structure DriveState (σ : Type) where
  reader : ConnectionReader
  socket : Socket
  context : σ
  readBudget : Nat
  processBudget : Nat
  trace : List DriveEvent

variable {σ : Type}

def ConnectionReader.endPos (reader : ConnectionReader) : Nat := reader.buffer.length

def ConnectionReader.available (reader : ConnectionReader) : Nat := reader.endPos - reader.beginPos

def DriveState.emit (s : DriveState σ) (event : DriveEvent) : DriveState σ :=
  { s with trace := s.trace ++ [event] }

def DriveState.setInput (s : DriveState σ) (input : HttpInput) : DriveState σ :=
  { s with reader := { s.reader with input := input } }

def writeBodyQueue (queue : RequestBody) (data : Bytes) : Int × RequestBody :=
  match ckHttpRequestBodyWrite queue data with
  | (result, queue, written) =>
    if result = .wouldBlock ∨ (result = .ok ∧ written ≠ data.length) then (bodySinkWouldBlock, queue)
    else if result = .ok then (0, queue)
    else (1, queue)

def offerSpan (sink : Option (BodySink σ)) (s : DriveState σ) (data : Bytes) :
    Option (Int × DriveState σ) :=
  match sink with
  | some callback =>
    let (answer, context) := callback s.context data
    some (answer, ({ s with context := context } : DriveState σ).emit (.offered data answer))
  | none => match s.reader.bodyQueue with
    | some queue =>
      let (answer, queue) := writeBodyQueue queue data
      some (answer, ({ s with reader := { s.reader with bodyQueue := some queue } }
        : DriveState σ).emit (.offered data answer))
    | none => none

/-- How one turn of the feed loop ends. -/
inductive Turn where
  | next
  | leave
  | stop (result : ReadResult)
  deriving DecidableEq, Repr

def settleTurn (s : DriveState σ) (consumed : Nat) (result : InputResult) : DriveState σ × Turn :=
  let s := ({ s with
    reader := { s.reader with beginPos := s.reader.beginPos + consumed }
    processBudget := subU64 s.processBudget consumed }
    : DriveState σ).emit (.consumed ((s.reader.buffer.drop s.reader.beginPos).take consumed))
  if ckHttpInputComplete s.reader.input then
    ({ s with reader := { s.reader with
        bodyQueue := s.reader.bodyQueue.map ckHttpRequestBodyMarkEof } }, .stop .requestComplete)
  else
    let readResult := mapInputResult result
    if readResult = .requestComplete ∨ readResult = .badRequest ∨ readResult = .tooLarge then
      (s, .stop readResult)
    else if result = .eofIncomplete then (s, .stop readResult)
    else if s.reader.beginPos = s.reader.endPos then (s, .leave)
    else if consumed = 0 then (s, .leave)
    else (s, .next)

/-- A span came back from the feed: offer it, acknowledge it, move on. -/
def acceptSpan (sink : Option (BodySink σ)) (s : DriveState σ) (feedLength : Nat) (fed : InputFeed) :
    DriveState σ × Turn :=
  let data := match fed.bodyData with
    | none => []
    | some address => (s.reader.buffer.drop address).take fed.bodyLength
  match offerSpan sink s data with
  | none => (s, .stop .sinkError)
  | some (answer, s) =>
    if answer = bodySinkWouldBlock then (s, .stop .bodyBackpressure)
    else if answer ≠ 0 then (s, .stop .sinkError)
    else match ckHttpInputAckBody s.reader.input with
      | none => (s, .stop .ioError)
      | some (input, bodyConsumed) =>
        if bodyConsumed > feedLength - fed.consumed then (s.setInput input, .stop .ioError)
        else settleTurn (s.setInput input) (fed.consumed + bodyConsumed) fed.result

/-- One turn of the inner loop, entered with begin < end. -/
def processOne (sink : Option (BodySink σ)) (s : DriveState σ) : DriveState σ × Turn :=
  if s.processBudget = 0 then (s, .stop .incomplete)
  else
    let available := s.reader.available
    let feedLength := if available < s.processBudget then available else s.processBudget
    let fed := ckHttpInputFeed s.reader.input s.reader.beginPos
      ((s.reader.buffer.drop s.reader.beginPos).take feedLength)
    let s := (s.setInput fed.input).emit (.fed feedLength fed.result)
    if fed.consumed > feedLength then (s, .stop .ioError)
    else if fed.bodyLength ≠ 0 then acceptSpan sink s feedLength fed
    else settleTurn s fed.consumed fed.result

/-- The inner loop. A turn that goes on has consumed a byte, so as many turns as there
    are buffered bytes are enough. -/
def processLoop (sink : Option (BodySink σ)) : Nat → DriveState σ → DriveState σ × Option ReadResult
  | 0, s => (s, none)
  | fuel + 1, s =>
    if s.reader.beginPos < s.reader.endPos then
      match processOne sink s with
      | (s, .next) => processLoop sink fuel s
      | (s, .leave) => (s, none)
      | (s, .stop result) => (s, some result)
    else (s, none)

def ConnectionReader.compact (reader : ConnectionReader) : ConnectionReader :=
  { reader with buffer := reader.buffer.drop reader.beginPos, beginPos := 0 }

def makeRoom (s : DriveState σ) : DriveState σ × Option ReadResult :=
  if s.reader.beginPos < s.reader.endPos ∧ s.processBudget = 0 then (s, some .incomplete)
  else if s.reader.endPos = readBufferBytes ∧ s.reader.beginPos = 0 then (s, some .tooLarge)
  else
    let s := if s.reader.endPos = readBufferBytes then { s with reader := s.reader.compact } else s
    if s.readBudget = 0 then (s, some .incomplete) else (s, none)

def receiveOne (s : DriveState σ) : DriveState σ × Option ReadResult :=
  let available := readBufferBytes - s.reader.endPos
  let receiveLength := if available < s.readBudget then available else s.readBudget
  match recv s.socket receiveLength with
  | (.data bytes, socket) =>
    (({ s with
      socket := socket
      reader := { s.reader with buffer := s.reader.buffer ++ bytes }
      readBudget := subU64 s.readBudget bytes.length } : DriveState σ).emit
        (.received receiveLength bytes), none)
  | (.zero, socket) =>
    let eofResult := ckHttpInputEof s.reader.input
    ({ s with
      socket := socket
      reader := if eofResult = .eofIncomplete
        then { s.reader with bodyQueue := s.reader.bodyQueue.map ckHttpRequestBodyMarkError }
        else s.reader }, some (mapInputResult eofResult))
  | (.again, socket) => ({ s with socket := socket }, some .incomplete)
  | (.intr, socket) => ({ s with socket := socket }, none)
  | (.error, socket) => ({ s with socket := socket }, some .ioError)

/-- One round of the outer loop: feed what is buffered, make room, receive. -/
def driveRound (sink : Option (BodySink σ)) (s : DriveState σ) : DriveState σ × Option ReadResult :=
  match processLoop sink s.reader.available s with
  | (s, some result) => (s, some result)
  | (s, none) => match makeRoom s with
    | (s, some result) => (s, some result)
    | (s, none) => receiveOne s

/-- An upper bound for the rounds a socket can keep going: each takes an event or a byte. -/
def socketWeight : Socket → Nat
  | [] => 0
  | .data _ rest :: events => rest.length + 1 + socketWeight events
  | _ :: events => 1 + socketWeight events

def driveLoop (sink : Option (BodySink σ)) : Nat → DriveState σ → DriveState σ × ReadResult
  | 0, s => (s, .ioError)
  | fuel + 1, s =>
    match driveRound sink s with
    | (s, some result) => (s, result)
    | (s, none) => driveLoop sink fuel s

def startDrive (reader : ConnectionReader) (socket : Socket) (context : σ) : DriveState σ :=
  ⟨reader, socket, context, readBudgetBytes, processBudgetBytes, []⟩

def ckHttpConnectionReaderDrive (reader : ConnectionReader) (socket : Socket)
    (sink : Option (BodySink σ)) (context : σ) : DriveState σ × ReadResult :=
  driveLoop sink (socketWeight socket + 1) (startDrive reader socket context)

def ckHttpConnectionReaderInit : ConnectionReader := ⟨ckHttpInputInit, none, [], 0⟩

def ckHttpConnectionReaderAttachBodyQueue (reader : ConnectionReader) (queue : Option RequestBody) :
    ConnectionReader := { reader with bodyQueue := queue }

/-- none is the return value -1, with which nothing is changed. -/
def ckHttpConnectionReaderNextRequest (reader : ConnectionReader) : Option ConnectionReader :=
  if !ckHttpInputComplete reader.input then none
  else some ⟨ckHttpInputNextRequest reader.input,
    reader.bodyQueue.map fun queue => ckHttpRequestBodyInit queue.buffer,
    reader.buffer.drop reader.beginPos, 0⟩

def ckHttpConnectionReaderRequest (reader : ConnectionReader) : Option HttpRequest :=
  ckHttpInputRequest reader.input

def ckHttpConnectionReaderBufferedBytes (reader : ConnectionReader) : Nat :=
  if reader.endPos < reader.beginPos then 0 else reader.endPos - reader.beginPos

end CkartaConnectionReader
