import Ckarta.HttpParser

/-!
The chunked decoder, c/http/ck_http_chunked.[ch]. The line array is the list of
its first line_length bytes. body_data is the offset of the span in the slice the
caller passed, none where the C code leaves the pointer NULL.
-/
namespace CkartaHttpChunked
open MachineWord CkartaHttpParser

def chunkedMaxLine : Nat := 8192
def chunkedMaxTrailers : Nat := 64
def chunkedMaxTrailerBytes : Nat := 16384
def chunkedMaxBody : Nat := uint64Max

def semicolon : UInt8 := 59

inductive ChunkedResult where
  | incomplete
  | data
  | complete
  | badRequest
  | tooLarge
  deriving DecidableEq, Repr

inductive ChunkedState where
  | size
  | dataState
  | dataCrlf
  | trailers
  | done
  deriving DecidableEq, Repr

structure ChunkedDecoder where
  state : ChunkedState
  chunkRemaining : Nat
  totalDecoded : Nat
  line : Bytes
  trailerBytes : Nat
  trailerCount : Nat
  deriving DecidableEq, Repr

def hexValue (value : UInt8) : Option Nat :=
  if 48 ≤ value ∧ value ≤ 57 then some (value.toNat - 48)
  else if 65 ≤ value ∧ value ≤ 70 then some (value.toNat - 65 + 10)
  else if 97 ≤ value ∧ value ≤ 102 then some (value.toNat - 97 + 10)
  else none

def appendLineByte (decoder : ChunkedDecoder) (value : UInt8) : Option ChunkedDecoder :=
  if decoder.line.length ≥ chunkedMaxLine - 1 then none
  else some { decoder with line := decoder.line ++ [value] }

/-- The digits before the first semicolon: their value, whether there was one, and
    the rest of the line from the semicolon on. -/
def parseChunkDigits (value : Nat) (digits : Bool) : Bytes → Option (Nat × Bool × Bytes)
  | [] => some (value, digits, [])
  | b :: rest =>
    if b = semicolon then some (value, digits, b :: rest)
    else match hexValue b with
      | none => none
      | some digit =>
        if value > (uint64Max - digit) / 16 then none
        else parseChunkDigits (u64 (value * 16 + digit)) true rest

def forbiddenExtensionByte (b : UInt8) : Bool := b == 127 || (b < 32 && b != 9)

def parseChunkSize (line : Bytes) : Option Nat :=
  match parseChunkDigits 0 false line with
  | none => none
  | some (value, digits, rest) =>
    if !digits then none
    else if rest.tail.any forbiddenExtensionByte then none
    else some value

def forbiddenTrailerByte (b : UInt8) : Bool := b == 127 || (b < 32 && b != 32 && b != 9)

def validTrailerField (line : Bytes) : Bool :=
  let name := line.takeWhile fun b => b != colon
  if name.length = 0 ∨ name.length = line.length then false
  else if ¬ name.all isTchar then false
  else !(line.drop (name.length + 1)).any forbiddenTrailerByte

def ckHttpChunkedInit : ChunkedDecoder := ⟨.size, 0, 0, [], 0, 0⟩

structure ChunkedFeed where
  result : ChunkedResult
  decoder : ChunkedDecoder
  consumed : Nat
  bodyData : Option Nat
  bodyLength : Nat
  deriving DecidableEq, Repr

/-- An exit before the final assignment leaves consumed at 0. -/
def ChunkedFeed.refuse (result : ChunkedResult) (decoder : ChunkedDecoder) : ChunkedFeed :=
  ⟨result, decoder, 0, none, 0⟩

def ChunkedFeed.stop (decoder : ChunkedDecoder) (position : Nat) : ChunkedFeed :=
  ⟨.incomplete, decoder, position, none, 0⟩

def finishSizeLine (decoder : ChunkedDecoder) : Option ChunkedDecoder :=
  (parseChunkSize decoder.line).map fun size =>
    { decoder with
      chunkRemaining := size, line := []
      state := if size = 0 then .trailers else .dataState }

/-- The data state: one span as long as the slice and the chunk allow. -/
def takeChunkData (decoder : ChunkedDecoder) (position available : Nat) : ChunkedFeed :=
  let take := if decoder.chunkRemaining < available then decoder.chunkRemaining else available
  if decoder.totalDecoded > chunkedMaxBody ∨ take > chunkedMaxBody - decoder.totalDecoded then
    .refuse .tooLarge decoder
  else
    let remaining := subU64 decoder.chunkRemaining take
    ⟨.data, { decoder with
        chunkRemaining := remaining, totalDecoded := addU64 decoder.totalDecoded take
        state := if remaining = 0 then .dataCrlf else .dataState },
      position + take, some position, take⟩

def chunkedFeedLoop (decoder : ChunkedDecoder) (position : Nat) : Bytes → ChunkedFeed
  | [] => .stop decoder position
  | value :: rest =>
    match decoder.state with
    | .size =>
      if value = cr then
        match rest with
        | [] => .stop decoder position
        | next :: rest =>
          if next ≠ lf then .refuse .badRequest decoder
          else match finishSizeLine decoder with
            | none => .refuse .badRequest decoder
            | some decoder => chunkedFeedLoop decoder (position + 2) rest
      else if value = lf then .refuse .badRequest decoder
      else match appendLineByte decoder value with
        | none => .refuse .tooLarge decoder
        | some decoder => chunkedFeedLoop decoder (position + 1) rest
    | .dataState => takeChunkData decoder position (rest.length + 1)
    | .dataCrlf =>
      match rest with
      | [] => .stop decoder position
      | next :: rest =>
        if value ≠ cr ∨ next ≠ lf then .refuse .badRequest decoder
        else chunkedFeedLoop { decoder with state := .size } (position + 2) rest
    | .trailers =>
      if decoder.trailerBytes ≥ chunkedMaxTrailerBytes then .refuse .tooLarge decoder
      else
        let counted := { decoder with trailerBytes := decoder.trailerBytes + 1 }
        if value = cr then
          match rest with
          | [] => .stop decoder position
          | next :: rest =>
            if next ≠ lf then .refuse .badRequest counted
            else
              let ended := { counted with trailerBytes := counted.trailerBytes + 1 }
              if ended.line.length = 0 then
                ⟨.complete, { ended with state := .done }, position + 2, none, 0⟩
              else if ended.trailerCount ≥ chunkedMaxTrailers ∨ ¬ validTrailerField ended.line then
                .refuse .badRequest ended
              else chunkedFeedLoop
                { ended with trailerCount := ended.trailerCount + 1, line := [] }
                (position + 2) rest
        else if value = lf then .refuse .badRequest counted
        else match appendLineByte counted value with
          | none => .refuse .tooLarge counted
          | some decoder => chunkedFeedLoop decoder (position + 1) rest
    | .done => .refuse .badRequest decoder

def ckHttpChunkedFeed (decoder : ChunkedDecoder) (data : Bytes) : ChunkedFeed :=
  if decoder.state = .done then .refuse .complete decoder
  else chunkedFeedLoop decoder 0 data

end CkartaHttpChunked
