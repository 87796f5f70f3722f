import Ckarta.HttpChunked

/-!
The per-request input state, c/http/ck_http_input.[ch]: header parser, length
counter and chunked decoder behind one feed. Addresses are offsets in the
caller's memory, so a pending span is where it lies and how long it is.
-/
namespace CkartaHttpInput
open MachineWord CkartaHttpParser CkartaHttpChunked

inductive InputResult where
  | incomplete
  | body
  | complete
  | badRequest
  | tooLarge
  | eofIncomplete
  deriving DecidableEq, Repr

structure HttpInput where
  parser : HttpParser
  chunked : ChunkedDecoder
  request : HttpRequest
  contentLengthRemaining : Nat
  headerComplete : Bool
  messageComplete : Bool
  pendingBodyData : Option Nat
  pendingBodyLength : Nat
  pendingInputConsumed : Nat
  pendingMessageComplete : Bool
  deriving DecidableEq, Repr

def ckHttpInputInit : HttpInput :=
  { parser := ckHttpParserInit, chunked := ckHttpChunkedInit, request := .zero
    contentLengthRemaining := 0, headerComplete := false, messageComplete := false
    pendingBodyData := none, pendingBodyLength := 0, pendingInputConsumed := 0
    pendingMessageComplete := false }

def mapChunkedResult : ChunkedResult → InputResult
  | .incomplete => .incomplete
  | .data => .body
  | .complete => .complete
  | .tooLarge => .tooLarge
  | .badRequest => .badRequest

structure InputFeed where
  result : InputResult
  input : HttpInput
  consumed : Nat
  bodyData : Option Nat
  bodyLength : Nat
  deriving DecidableEq, Repr

/-- The body part of a feed: source is the slice after the consumed header bytes and
    address is where that rest begins. -/
def feedBody (input : HttpInput) (address consumed : Nat) (source : Bytes) : InputFeed :=
  match input.request.bodyMode with
  | .contentLength =>
    let take := if input.contentLengthRemaining < source.length
      then input.contentLengthRemaining else source.length
    let formed := { input with
      pendingBodyData := some address, pendingBodyLength := take, pendingInputConsumed := take
      pendingMessageComplete := input.contentLengthRemaining = take
      contentLengthRemaining := subU64 input.contentLengthRemaining take }
    ⟨if take ≠ 0 then .body else .incomplete, formed, consumed, some address, take⟩
  | .chunked =>
    let fed := ckHttpChunkedFeed input.chunked source
    let decoded := { input with chunked := fed.decoder }
    if fed.bodyLength ≠ 0 then
      let bodyData := fed.bodyData.map (address + ·)
      ⟨.body, { decoded with
          pendingBodyData := bodyData, pendingBodyLength := fed.bodyLength
          pendingInputConsumed := fed.consumed
          pendingMessageComplete := fed.result = .complete },
        consumed, bodyData, fed.bodyLength⟩
    else
      ⟨mapChunkedResult fed.result,
        if fed.result = .complete then { decoded with messageComplete := true } else decoded,
        consumed + fed.consumed, fed.bodyData.map (address + ·), 0⟩
  | .none => ⟨.badRequest, input, consumed, none, 0⟩

def completeHeader (input : HttpInput) (parser : HttpParser) (request : HttpRequest) : HttpInput :=
  { input with
    parser := parser, request := request, headerComplete := true
    contentLengthRemaining := request.contentLength
    chunked := if request.bodyMode = .chunked then ckHttpChunkedInit else input.chunked }

def bodyless (input : HttpInput) : Bool :=
  input.request.bodyMode = .none ||
    (input.request.bodyMode = .contentLength && input.contentLengthRemaining == 0)

def feedHeader (input : HttpInput) (data : Nat) (source : Bytes) (fed : ParserFeed) : InputFeed :=
  let parsed := { input with parser := fed.parser, request := fed.request }
  match fed.result with
  | .incomplete => ⟨.incomplete, parsed, fed.consumed, none, 0⟩
  | .headerTooLarge => ⟨.tooLarge, parsed, fed.consumed, none, 0⟩
  | .badRequest => ⟨.badRequest, parsed, fed.consumed, none, 0⟩
  | .complete =>
    let ready := completeHeader input fed.parser fed.request
    if bodyless ready then
      ⟨.complete, { ready with messageComplete := true }, fed.consumed, none, 0⟩
    else feedBody ready (data + fed.consumed) fed.consumed (source.drop fed.consumed)

def ckHttpInputFeed (input : HttpInput) (data : Nat) (source : Bytes) : InputFeed :=
  if input.pendingBodyLength ≠ 0 then
    ⟨.body, input, 0, input.pendingBodyData, input.pendingBodyLength⟩
  else if input.messageComplete then ⟨.complete, input, 0, none, 0⟩
  else if !input.headerComplete then
    feedHeader input data source (ckHttpParserFeed input.parser source input.request)
  else feedBody input data 0 source

/-- none is the return value -1, with which nothing is changed. -/
def ckHttpInputAckBody (input : HttpInput) : Option (HttpInput × Nat) :=
  if input.pendingBodyLength = 0 then none
  else some ({ input with
      messageComplete := input.messageComplete || input.pendingMessageComplete
      pendingBodyData := none, pendingBodyLength := 0, pendingInputConsumed := 0
      pendingMessageComplete := false }, input.pendingInputConsumed)

def ckHttpInputEof (input : HttpInput) : InputResult :=
  if input.messageComplete then .complete
  else if !input.headerComplete then .eofIncomplete
  else .eofIncomplete

def ckHttpInputRequest (input : HttpInput) : Option HttpRequest :=
  if !input.headerComplete then none else some input.request

def ckHttpInputComplete (input : HttpInput) : Bool := input.messageComplete

def ckHttpInputNextRequest (_ : HttpInput) : HttpInput := ckHttpInputInit

end CkartaHttpInput
