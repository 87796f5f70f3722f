import Mathlib.Data.List.Basic
import Mathlib.Data.List.DropRight
import Ckarta.MachineWord

/-!
The header parser, c/http/ck_http_parser.[ch]. A span is the list of the bytes
it points at; the parser buffer holds the bytes received so far, so its length
field is the length of the list. Scanning loops over an index are written on the
suffix of the buffer that starts at that index.
-/
namespace CkartaHttpParser
open MachineWord

abbrev Bytes := List UInt8

/-- The bytes of a C string literal without its terminator. -/
def ascii (s : String) : Bytes := s.toList.map fun c => c.toNat.toUInt8

def cr : UInt8 := 13
def lf : UInt8 := 10
def comma : UInt8 := 44
def colon : UInt8 := 58

def maxHeaders : Nat := 128
def maxHeaderBytes : Nat := 32768
def maxMethodBytes : Nat := 32
def maxTargetBytes : Nat := 8192
def maxVersionBytes : Nat := 16
def maxHeaderNameBytes : Nat := 256
def maxHeaderValueBytes : Nat := 16384

inductive ParseResult where
  | incomplete
  | complete
  | badRequest
  | headerTooLarge
  deriving DecidableEq, Repr

inductive BodyMode where
  | none
  | contentLength
  | chunked
  deriving DecidableEq, Repr

structure HttpHeader where
  name : Bytes
  value : Bytes
  deriving DecidableEq, Repr

/-- header_count is the length of headers; the two C flags that are int stay Int. -/
structure HttpRequest where
  method : Bytes
  target : Bytes
  version : Bytes
  headers : List HttpHeader
  bodyMode : BodyMode
  contentLength : Nat
  connectionCloseRequired : Int
  deriving DecidableEq, Repr

def HttpRequest.zero : HttpRequest := ⟨[], [], [], [], .none, 0, 0⟩

structure HttpParser where
  buffer : Bytes
  complete : Bool
  deriving DecidableEq, Repr

/-- strchr finds the terminator too, so the search set of a literal includes NUL. -/
def strchr (literal : String) (value : UInt8) : Bool := (ascii literal ++ [0]).contains value

def isTchar (value : UInt8) : Bool :=
  (48 ≤ value && value ≤ 57) || (65 ≤ value && value ≤ 90) || (97 ≤ value && value ≤ 122) ||
    strchr "!#$%&'*+-.^_`|~" value

def tolower (value : UInt8) : UInt8 := if 65 ≤ value ∧ value ≤ 90 then value + 32 else value

def spanEqualCi (span : Bytes) (literal : String) : Bool :=
  span.map tolower == (ascii literal).map tolower

def isOws (value : UInt8) : Bool := value == 32 || value == 9

def trimOws (span : Bytes) : Bytes := (span.dropWhile isOws).rdropWhile isOws

def parseUint64Loop (result : Nat) : Bytes → Option Nat
  | [] => some result
  | digit :: rest =>
    if digit < 48 ∨ 57 < digit then none
    else if result > (uint64Max - (digit.toNat - 48)) / 10 then none
    else parseUint64Loop (u64 (result * 10 + (digit.toNat - 48))) rest

def parseUint64 (span : Bytes) : Option Nat :=
  if span.length = 0 then none else parseUint64Loop 0 span

/-- The line up to the first CRLF and the bytes after that CRLF. -/
def findCrlf : Bytes → Option (Bytes × Bytes)
  | [] => none
  | b :: rest =>
    if b = cr ∧ rest.head? = some lf then some ([], rest.tail)
    else (findCrlf rest).map fun found => (b :: found.1, found.2)

def parseRequestLine (line : Bytes) : Option (Bytes × Bytes × Bytes) :=
  let method := line.takeWhile fun b => !isOws b
  if method.length = 0 ∨ method.length > maxMethodBytes ∨ method.length = line.length then none
  else if ¬ method.all isTchar then none
  else
    let afterMethod := (line.drop method.length).dropWhile isOws
    let target := afterMethod.takeWhile fun b => !isOws b
    if target.length = 0 ∨ target.length > maxTargetBytes then none
    else if target.any fun b => b ≤ 32 || b == 127 then none
    else
      let version := (afterMethod.drop target.length).dropWhile isOws
      if version ≠ ascii "HTTP/1.1" then none else some (method, target, version)

/-- The loop shared by the three list-valued fields: skip OWS, cut the element at the
    next comma, hand it to step. It stops at the end of the value, so nothing is
    handed over after a final comma or for an empty value. -/
def scanElements {σ : Type} (step : σ → Bytes → Option σ) : Nat → σ → Bytes → Option σ
  | _, acc, [] => some acc
  | 0, _, _ => none
  | fuel + 1, acc, source =>
    let suffix := source.dropWhile isOws
    let item := suffix.takeWhile fun b => b != comma
    (step acc item).bind fun acc => scanElements step fuel acc (suffix.drop (item.length + 1))

/-- One pass over the header fields: enter marks the field line, step sees its elements. -/
def scanHeaders {σ : Type} (name : String) (enter : σ → σ) (step : σ → Bytes → Option σ) :
    σ → List HttpHeader → Option σ
  | acc, [] => some acc
  | acc, header :: rest =>
    if spanEqualCi header.name name then
      (scanElements step header.value.length (enter acc) header.value).bind fun acc =>
        scanHeaders name enter step acc rest
    else scanHeaders name enter step acc rest

def contentLengthItem (acc : Nat × Bool) (item : Bytes) : Option (Nat × Bool) :=
  match parseUint64 (trimOws item) with
  | none => none
  | some parsed =>
    if !acc.2 then some (parsed, true)
    else if acc.1 ≠ parsed then none
    else some acc

/-- The canonical value and whether one was found. -/
def parseContentLengthHeaders (headers : List HttpHeader) : Option (Nat × Bool) :=
  scanHeaders "Content-Length" id contentLengthItem (0, false) headers

def connectionItem (close : Bool) (item : Bytes) : Option Bool :=
  if item.length = 0 then none else some (close || spanEqualCi (trimOws item) "close")

def parseConnectionHeaders (headers : List HttpHeader) : Option Bool :=
  scanHeaders "Connection" id connectionItem false headers

def transferEncodingItem (acc : Bool × Bool) (item : Bytes) : Option (Bool × Bool) :=
  if item.length = 0 then none
  else if ¬ spanEqualCi (trimOws item) "chunked" then none
  else some (acc.1, true)

/-- Whether a field line was present and whether chunked was listed. -/
def parseTransferEncodingHeaders (headers : List HttpHeader) : Option (Bool × Bool) :=
  scanHeaders "Transfer-Encoding" (fun acc => (true, acc.2)) transferEncodingItem
    (false, false) headers

/-- The loop over the field lines; complete means it ran to the empty line. -/
def parseFieldLines : Nat → Bytes → HttpRequest → ParseResult × HttpRequest
  | 0, _, request => (.complete, request)
  | fuel + 1, rest, request =>
    if rest.length ≤ 2 then (.complete, request)
    else match findCrlf rest with
      | none => (.badRequest, request)
      | some (line, rest) =>
        if line.length = 0 then (.complete, request)
        else if request.headers.length ≥ maxHeaders then (.headerTooLarge, request)
        else
          let name := line.takeWhile fun b => b != colon
          if name.length = 0 ∨ name.length ≥ line.length ∨ name.length > maxHeaderNameBytes then
            (.badRequest, request)
          else if ¬ name.all isTchar then (.badRequest, request)
          else
            let value := trimOws (line.drop (name.length + 1))
            if value.length > maxHeaderValueBytes then (.headerTooLarge, request)
            else parseFieldLines fuel rest
              { request with headers := request.headers ++ [⟨name, value⟩] }

def applyFraming (request : HttpRequest) (contentLength : Nat × Bool)
    (transferEncoding : Bool × Bool) (close : Bool) : ParseResult × HttpRequest :=
  if transferEncoding.1 then
    if !transferEncoding.2 then (.badRequest, request)
    else (.complete, { request with
      bodyMode := .chunked, contentLength := 0, connectionCloseRequired := 1 })
  else if contentLength.2 then
    (.complete, { request with
      bodyMode := .contentLength, contentLength := contentLength.1
      connectionCloseRequired := if close then 1 else 0 })
  else
    (.complete, { request with
      bodyMode := .none, contentLength := 0
      connectionCloseRequired := if close then 1 else 0 })

def parseFraming (request : HttpRequest) : ParseResult × HttpRequest :=
  match parseContentLengthHeaders request.headers with
  | none => (.badRequest, request)
  | some contentLength =>
    match parseTransferEncodingHeaders request.headers with
    | none => (.badRequest, request)
    | some transferEncoding =>
      match parseConnectionHeaders request.headers with
      | none => (.badRequest, request)
      | some close => applyFraming request contentLength transferEncoding close

def parseHeaderBlock (block : Bytes) : ParseResult × HttpRequest :=
  match findCrlf block with
  | none => (.badRequest, .zero)
  | some (line, rest) =>
    match parseRequestLine line with
    | none => (.badRequest, .zero)
    | some (method, target, version) =>
      match parseFieldLines rest.length rest { HttpRequest.zero with method, target, version } with
      | (.complete, request) => parseFraming request
      | refused => refused

def ckHttpParserInit : HttpParser := ⟨[], false⟩

structure ParserFeed where
  result : ParseResult
  parser : HttpParser
  consumed : Nat
  request : HttpRequest
  deriving DecidableEq, Repr

def crlfCrlf : Bytes := [cr, lf, cr, lf]

def endsHeader (buffer : Bytes) : Bool :=
  decide (4 ≤ buffer.length) && buffer.drop (buffer.length - 4) == crlfCrlf

def HttpParser.push (parser : HttpParser) (b : UInt8) : HttpParser :=
  { parser with buffer := parser.buffer ++ [b] }

/-- The exits once the buffer ends in the empty line; position bytes were read by then. -/
def finishHeader (parser : HttpParser) (position : Nat) : ParserFeed :=
  match parseHeaderBlock parser.buffer with
  | (.complete, request) => ⟨.complete, { parser with complete := true }, position, request⟩
  | (result, request) => ⟨result, parser, position, request⟩

/-- consumed is only written at the exits below the size check, so it is 0 there. -/
def parserFeedLoop (request : HttpRequest) : HttpParser → Nat → Bytes → ParserFeed
  | parser, position, [] => ⟨.incomplete, parser, position, request⟩
  | parser, position, b :: rest =>
    if parser.buffer.length ≥ maxHeaderBytes then ⟨.headerTooLarge, parser, 0, request⟩
    else
      let parser := parser.push b
      if endsHeader parser.buffer then finishHeader parser (position + 1)
      else parserFeedLoop request parser (position + 1) rest

def ckHttpParserFeed (parser : HttpParser) (data : Bytes) (request : HttpRequest) : ParserFeed :=
  if parser.complete then ⟨.complete, parser, 0, request⟩
  else parserFeedLoop request parser 0 data

end CkartaHttpParser
