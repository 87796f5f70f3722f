import Ckarta.FieldLists
import Ckarta.HeaderBlock
import Ckarta.StepHistory

/-!
The response transaction, c/output/ck_http_response.[ch]: a status, an optional declared
length, a close flag and a staged body. The body list holds the bytes before body_length,
so the length field is its length. Along any sequence of calls a finished response is
framed by its own header block.
-/
namespace CkartaHttpResponse
open MachineWord CkartaHttpParser CkartaFieldLists CkartaHeaderBlock StepHistory

def responseBodyBytes : Nat := 65536
def sizeMax : Nat := uint64Max

inductive ResponseState where
  | new
  | committed
  | finished
  | failed
  deriving DecidableEq, Repr

structure HttpResponse where
  state : ResponseState
  status : Nat
  contentLength : Nat
  contentLengthSet : Bool
  connectionClose : Int
  body : Bytes
  deriving DecidableEq, Repr

/-- A data pointer and a length: NULL, or the bytes found there. -/
inductive Region where
  | null (length : Nat)
  | bytes (data : Bytes)
  deriving DecidableEq, Repr

def Region.length : Region → Nat
  | .null length => length
  | .bytes data => data.length

def Region.data : Region → Bytes
  | .null _ => []
  | .bytes data => data

/-- data == NULL && length != 0 -/
def Region.invalid : Region → Bool
  | .null length => length != 0
  | .bytes _ => false

def validStatus (status : Nat) : Bool := decide (200 ≤ status) && decide (status ≤ 599)

def fail (response : HttpResponse) : HttpResponse := { response with state := .failed }

def ckHttpResponseInit : HttpResponse := ⟨.new, 500, 0, false, 0, []⟩

def ckHttpResponseSetStatus (response : HttpResponse) (status : Nat) : Int × HttpResponse :=
  if ¬ validStatus status ∨ response.state ≠ .new then (-1, response)
  else (0, { response with status := status })

def ckHttpResponseSetContentLength (response : HttpResponse) (contentLength : Nat) :
    Int × HttpResponse :=
  if response.state ≠ .new ∨ contentLength > sizeMax then (-1, response)
  else (0, { response with contentLength := contentLength, contentLengthSet := true })

def ckHttpResponseSetConnectionClose (response : HttpResponse) (enabled : Int) : Int × HttpResponse :=
  if response.state ≠ .new ∨ (enabled ≠ 0 ∧ enabled ≠ 1) then (-1, response)
  else (0, { response with connectionClose := enabled })

def ckHttpResponseReset (response : HttpResponse) : Int × HttpResponse :=
  if response.state ≠ .new then (-1, response)
  else (0, { response with
    status := 500, contentLength := 0, contentLengthSet := false, connectionClose := 0, body := [] })

def ckHttpResponseCommit (response : HttpResponse) : Int × HttpResponse :=
  if response.state ≠ .new ∨ ¬ validStatus response.status then (-1, response)
  else (0, { response with state := .committed })

def appendBody (response : HttpResponse) (region : Region) : Int × HttpResponse :=
  if region.length > subU64 responseBodyBytes response.body.length then (-2, fail response)
  else (0, { response with body := response.body ++ region.data })

def ckHttpResponseWriteBody (response : HttpResponse) (region : Region) : Int × HttpResponse :=
  if region.invalid ∨ (response.state ≠ .new ∧ response.state ≠ .committed) then (-1, response)
  else if response.state = .new then
    match ckHttpResponseCommit response with
    | (code, response) => if code ≠ 0 then (-1, response) else appendBody response region
  else appendBody response region

def ckHttpResponseFinish (response : HttpResponse) : Int × HttpResponse :=
  if response.state ≠ .committed then (-1, response)
  else if response.contentLengthSet ∧ response.body.length ≠ response.contentLength then
    (-2, fail response)
  else (0, { response with state := .finished })

/-- The %u conversion. -/
def decimalBytes (n : Nat) : Bytes := (Nat.toDigits 10 n).map fun c => c.toNat.toUInt8

/-- The %03u conversion. -/
def paddedBytes (n : Nat) : Bytes := List.leftpad 3 48 (decimalBytes n)

def headerText (status contentLength : Nat) (connectionClose : Int) : Bytes :=
  ascii "HTTP/1.1 " ++ paddedBytes status ++ ascii " \r\nContent-Length: " ++
    decimalBytes contentLength ++ ascii "\r\n" ++
    (if connectionClose ≠ 0 then ascii "Connection: close\r\n" else []) ++ ascii "\r\n"

/-- The code and, when output_length is set, the bytes it counts. -/
def ckHttpResponseSerializeHeaders (response : HttpResponse) (capacity : Nat) : Int × Option Bytes :=
  if capacity = 0 ∨ response.state ≠ .finished then (-1, none)
  else
    let contentLength :=
      if response.contentLengthSet then response.contentLength else response.body.length
    if contentLength > sizeMax then (-1, none)
    else
      let text := headerText response.status contentLength response.connectionClose
      if text.length ≥ capacity then (-2, none) else (0, some text)

inductive Call where
  | setStatus (status : Nat)
  | setContentLength (contentLength : Nat)
  | setConnectionClose (enabled : Int)
  | reset
  | writeBody (region : Region)
  | commit
  | finish
  deriving DecidableEq, Repr

def respond (response : HttpResponse) : Call → Int × HttpResponse
  | .setStatus status => ckHttpResponseSetStatus response status
  | .setContentLength contentLength => ckHttpResponseSetContentLength response contentLength
  | .setConnectionClose enabled => ckHttpResponseSetConnectionClose response enabled
  | .reset => ckHttpResponseReset response
  | .writeBody region => ckHttpResponseWriteBody response region
  | .commit => ckHttpResponseCommit response
  | .finish => ckHttpResponseFinish response

/-- A call and the code it returned, as a step of a history. -/
def responseStep (response : HttpResponse) (call : Call) : Option (HttpResponse × Int) :=
  some ((respond response call).2, (respond response call).1)

inductive Outcome (response : HttpResponse) : Call → Int → HttpResponse → Prop where
  | refused {call : Call} : Outcome response call (-1) response
  | setStatus {status : Nat} (fresh : response.state = .new) (valid : validStatus status = true) :
      Outcome response (.setStatus status) 0 { response with status := status }
  | setContentLength {contentLength : Nat} (fresh : response.state = .new) :
      Outcome response (.setContentLength contentLength) 0
        { response with contentLength := contentLength, contentLengthSet := true }
  | setConnectionClose {enabled : Int} (fresh : response.state = .new) :
      Outcome response (.setConnectionClose enabled) 0 { response with connectionClose := enabled }
  | reset (fresh : response.state = .new) :
      Outcome response .reset 0 { response with
        status := 500, contentLength := 0, contentLengthSet := false, connectionClose := 0, body := [] }
  | commit (fresh : response.state = .new) :
      Outcome response .commit 0 { response with state := .committed }
  | wrote {region : Region} (opened : response.state = .new ∨ response.state = .committed)
      (fits : region.data.length ≤ subU64 responseBodyBytes response.body.length) :
      Outcome response (.writeBody region) 0
        { response with state := .committed, body := response.body ++ region.data }
  | overflow {region : Region} (opened : response.state = .new ∨ response.state = .committed) :
      Outcome response (.writeBody region) (-2) { response with state := .failed }
  | finish (committed : response.state = .committed)
      (agrees : response.contentLengthSet = true → response.contentLength = response.body.length) :
      Outcome response .finish 0 { response with state := .finished }
  | mismatch (committed : response.state = .committed) :
      Outcome response .finish (-2) { response with state := .failed }

theorem appendBody_outcome {response : HttpResponse} {region : Region} (valid : ¬ region.invalid = true)
    (opened : response.state = .new ∨ response.state = .committed) :
    Outcome response (.writeBody region)
      (appendBody { response with state := .committed } region).1
      (appendBody { response with state := .committed } region).2 := by
  have length : region.data.length = region.length := by
    cases region with
    | null length =>
      simp only [Region.invalid, bne_iff_ne, not_not] at valid
      exact valid.symm
    | bytes data => rfl
  unfold appendBody
  split
  · exact .overflow opened
  · rename_i fits
    apply Outcome.wrote opened
    dsimp only at fits
    omega

theorem writeBody_outcome (response : HttpResponse) (region : Region) :
    Outcome response (.writeBody region) (ckHttpResponseWriteBody response region).1
      (ckHttpResponseWriteBody response region).2 := by
  unfold ckHttpResponseWriteBody
  split
  · exact .refused
  · rename_i usable
    simp only [not_or, not_and, not_not] at usable
    obtain ⟨valid, opened⟩ := usable
    split
    · rename_i fresh
      by_cases refused : response.state ≠ .new ∨ ¬ validStatus response.status = true
      · rw [ckHttpResponseCommit, if_pos refused]
        exact .refused
      · rw [ckHttpResponseCommit, if_neg refused]
        exact appendBody_outcome valid (.inl fresh)
    · rename_i stale
      have committed := opened stale
      have same : { response with state := .committed } = response := by
        rw [← committed]
      have outcome := appendBody_outcome valid (.inr committed)
      rw [same] at outcome
      exact outcome

theorem respond_outcome (response : HttpResponse) (call : Call) :
    Outcome response call (respond response call).1 (respond response call).2 := by
  cases call with
  | setStatus status =>
    simp only [respond, ckHttpResponseSetStatus]
    split
    · exact .refused
    · rename_i allowed
      simp only [not_or, not_not] at allowed
      exact .setStatus allowed.2 allowed.1
  | setContentLength contentLength =>
    simp only [respond, ckHttpResponseSetContentLength]
    split
    · exact .refused
    · rename_i allowed
      simp only [not_or, not_not] at allowed
      exact .setContentLength allowed.1
  | setConnectionClose enabled =>
    simp only [respond, ckHttpResponseSetConnectionClose]
    split
    · exact .refused
    · rename_i allowed
      simp only [not_or, not_not] at allowed
      exact .setConnectionClose allowed.1
  | reset =>
    simp only [respond, ckHttpResponseReset]
    split
    · exact .refused
    · rename_i fresh
      exact .reset (not_not.mp fresh)
  | writeBody region => exact writeBody_outcome response region
  | commit =>
    simp only [respond, ckHttpResponseCommit]
    split
    · exact .refused
    · rename_i allowed
      simp only [not_or, not_not] at allowed
      exact .commit allowed.1
  | finish =>
    simp only [respond, ckHttpResponseFinish]
    split
    · exact .refused
    · rename_i committed
      rw [not_not] at committed
      split
      · exact .mismatch committed
      · rename_i agrees
        simp only [not_and, not_not] at agrees
        exact .finish committed fun declared => (agrees declared).symm

theorem responseStep_outcome {response after : HttpResponse} {call : Call} {code : Int}
    (next : responseStep response call = some (after, code)) : Outcome response call code after := by
  simp only [responseStep, Option.some.injEq, Prod.mk.injEq] at next
  obtain ⟨rfl, rfl⟩ := next
  exact respond_outcome response call

def accepted : Call × Int → Option Bytes
  | (.writeBody region, code) => if code = 0 then some region.data else none
  | _ => none

def written (history : List (Call × Int)) : Bytes := (history.filterMap accepted).flatten

inductive Setting where
  | status (status : Nat)
  | contentLength (contentLength : Nat)
  | close (enabled : Int)
  | reset
  deriving DecidableEq, Repr

def setting : Call × Int → Option Setting
  | (.setStatus status, code) => if code = 0 then some (.status status) else none
  | (.setContentLength contentLength, code) => if code = 0 then some (.contentLength contentLength) else none
  | (.setConnectionClose enabled, code) => if code = 0 then some (.close enabled) else none
  | (.reset, code) => if code = 0 then some .reset else none
  | _ => none

def settings (history : List (Call × Int)) : List Setting := history.filterMap setting

/-- A reset sets 500 and no close, as init does. -/
def Setting.onStatus (status : Nat) : Setting → Nat
  | .status value => value
  | .reset => 500
  | _ => status

def Setting.onClose (close : Int) : Setting → Int
  | .close enabled => enabled
  | .reset => 0
  | _ => close

def lastStatus (settings : List Setting) : Nat := settings.foldl Setting.onStatus 500

def lastClose (settings : List Setting) : Int := settings.foldl Setting.onClose 0

theorem written_snoc (history : List (Call × Int)) (entry : Call × Int) :
    written (history ++ [entry]) = written history ++ (accepted entry).getD [] := by
  rw [written, filterMap_snoc, List.flatten_append]
  cases accepted entry <;> simp [written]

theorem settings_snoc (history : List (Call × Int)) (entry : Call × Int) :
    settings (history ++ [entry]) = settings history ++ (setting entry).toList :=
  filterMap_snoc _ _ _

structure Consistent (history : List (Call × Int)) (response : HttpResponse) : Prop where
  body : response.body = written history
  bounded : response.body.length ≤ responseBodyBytes
  unwritten : response.state = .new → response.body = []
  valid : validStatus response.status = true
  status : response.status = lastStatus (settings history)
  close : response.connectionClose = lastClose (settings history)
  declared : response.state = .finished → response.contentLengthSet = true →
    response.contentLength = response.body.length

theorem init_consistent : Consistent [] ckHttpResponseInit where
  body := rfl
  bounded := Nat.zero_le _
  unwritten := fun _ => rfl
  valid := rfl
  status := rfl
  close := rfl
  declared := fun finished => by cases finished

theorem outcome_body {response after : HttpResponse} {call : Call} {code : Int}
    (unwritten : response.state = .new → response.body = [])
    (outcome : Outcome response call code after) :
    after.body = response.body ++ (accepted (call, code)).getD [] := by
  cases outcome with
  | refused => cases call <;> simp [accepted]
  | reset fresh => simp [accepted, unwritten fresh]
  | _ => simp [accepted]

theorem outcome_status {response after : HttpResponse} {call : Call} {code : Int}
    (outcome : Outcome response call code after) :
    after.status = (setting (call, code)).toList.foldl Setting.onStatus response.status := by
  cases outcome with
  | refused => cases call <;> simp [setting]
  | _ => simp [setting, Setting.onStatus]

theorem outcome_close {response after : HttpResponse} {call : Call} {code : Int}
    (outcome : Outcome response call code after) :
    after.connectionClose = (setting (call, code)).toList.foldl Setting.onClose response.connectionClose := by
  cases outcome with
  | refused => cases call <;> simp [setting]
  | _ => simp [setting, Setting.onClose]

theorem outcome_consistent {history : List (Call × Int)} {response after : HttpResponse} {call : Call}
    {code : Int} (before : Consistent history response) (outcome : Outcome response call code after) :
    Consistent (history ++ [(call, code)]) after where
  body := by rw [outcome_body before.unwritten outcome, written_snoc, before.body]
  bounded := by
    cases outcome with
    | wrote opened fits =>
      rw [subU64_of_le before.bounded (by decide)] at fits
      have bounded := before.bounded
      rw [List.length_append]
      omega
    | reset fresh => exact Nat.zero_le _
    | _ => exact before.bounded
  unwritten := by
    cases outcome with
    | wrote | overflow | commit | finish | mismatch => intro fresh; cases fresh
    | reset => intro _; rfl
    | _ => exact before.unwritten
  valid := by
    cases outcome with
    | setStatus fresh valid => exact valid
    | reset fresh => rfl
    | _ => exact before.valid
  status := by
    rw [outcome_status outcome, settings_snoc, lastStatus, List.foldl_append, before.status, lastStatus]
  close := by
    rw [outcome_close outcome, settings_snoc, lastClose, List.foldl_append, before.close, lastClose]
  declared := by
    cases outcome with
    | finish committed agrees => exact fun _ => agrees
    | refused => exact before.declared
    | wrote | overflow | commit | mismatch => intro finished; cases finished
    | setStatus fresh | setContentLength fresh | setConnectionClose fresh | reset fresh =>
      intro finished
      simp only [fresh, reduceCtorEq] at finished

theorem runs_consistent {history : List (Call × Int)} {response : HttpResponse}
    (runs : Runs responseStep ckHttpResponseInit history response) : Consistent history response := by
  apply runs.invariant Consistent init_consistent
  intro history response after call code _ before next
  exact outcome_consistent before (responseStep_outcome next)

/-- What a response keeps once it is committed: the header properties, and its state when
    that is a final one. -/
structure Sealed (response later : HttpResponse) : Prop where
  committed : later.state ≠ .new
  status : later.status = response.status
  contentLength : later.contentLength = response.contentLength
  contentLengthSet : later.contentLengthSet = response.contentLengthSet
  connectionClose : later.connectionClose = response.connectionClose
  final : response.state = .finished ∨ response.state = .failed → later.state = response.state

theorem outcome_sealed {start response after : HttpResponse} {call : Call} {code : Int}
    (before : Sealed start response) (outcome : Outcome response call code after) :
    Sealed start after ∧ setting (call, code) = none := by
  obtain ⟨committed, status, contentLength, contentLengthSet, connectionClose, final⟩ := before
  cases outcome with
  | refused =>
    have unset : setting (call, -1) = none := by cases call <;> rfl
    exact ⟨⟨committed, status, contentLength, contentLengthSet, connectionClose, final⟩, unset⟩
  | setStatus fresh | setContentLength fresh | setConnectionClose fresh | reset fresh | commit fresh =>
    exact absurd fresh committed
  | wrote opened fits | overflow opened | finish opened agrees | mismatch opened =>
    have moving : ¬ (start.state = .finished ∨ start.state = .failed) := by
      intro ended
      have same := final ended
      rcases ended with ended | ended <;> simp_all
    exact ⟨⟨nofun, status, contentLength, contentLengthSet, connectionClose,
      fun ended => absurd ended moving⟩, rfl⟩

theorem runs_sealed {start response : HttpResponse} {more : List (Call × Int)}
    (committed : start.state ≠ .new) (runs : Runs responseStep start more response) :
    Sealed start response ∧ settings more = [] := by
  apply runs.invariant (fun more response => Sealed start response ∧ settings more = [])
  · exact ⟨⟨committed, rfl, rfl, rfl, rfl, fun _ => rfl⟩, rfl⟩
  · intro more response after call code _ before next
    obtain ⟨kept, unset⟩ := outcome_sealed before.1 (responseStep_outcome next)
    exact ⟨kept, by rw [settings_snoc, before.2, unset]; rfl⟩

theorem decimalBytes_digits (n : Nat) : (decimalBytes n).all isDigit = true := by
  rw [List.all_eq_true]
  intro b member
  obtain ⟨c, found, rfl⟩ := List.mem_map.mp member
  have digit := Nat.isDigit_of_mem_toDigits (by decide) (by decide) found
  simp only [Char.isDigit, ge_iff_le, Bool.and_eq_true, decide_eq_true_eq] at digit
  have low : 48 ≤ c.toNat := digit.1
  have high : c.toNat ≤ 57 := digit.2
  simp only [isDigit, Bool.and_eq_true, decide_eq_true_eq, UInt8.le_iff_toNat_le]
  simp only [Nat.toUInt8, UInt8.toNat_ofNat', UInt8.toNat_ofNat]
  omega

theorem decimalValue_map {chars : List Char} (digits : ∀ c ∈ chars, c.isDigit = true) (start : Nat) :
    decimalValue start (chars.map fun c => c.toNat.toUInt8) = Nat.ofDigitChars 10 chars start := by
  induction chars generalizing start with
  | nil => rfl
  | cons c chars ih =>
    have digit := digits c (by simp)
    simp only [Char.isDigit, ge_iff_le, Bool.and_eq_true, decide_eq_true_eq] at digit
    have high : c.toNat ≤ 57 := digit.2
    have small : (c.toNat.toUInt8).toNat = c.toNat := by
      simp only [Nat.toUInt8, UInt8.toNat_ofNat']
      omega
    rw [Nat.ofDigitChars_cons, ← ih (fun c member => digits c (by simp [member])), List.map_cons,
      decimalValue, List.foldl_cons, small, Nat.mul_comm start 10]
    rfl

theorem decimalBytes_value (n : Nat) : decimalValue 0 (decimalBytes n) = n := by
  rw [decimalBytes, decimalValue_map fun c member =>
    Nat.isDigit_of_mem_toDigits (by decide) (by decide) member]
  exact Nat.ofDigitChars_ten_toDigits

theorem decimalBytes_numeral {n : Nat} (bound : n ≤ uint64Max) : Numeral (decimalBytes n) n := by
  refine ⟨?_, decimalBytes_digits n, decimalBytes_value n, bound⟩
  intro empty
  exact Nat.toDigits_ne_nil (List.map_eq_nil_iff.mp empty)

theorem decimalValue_zeros (count : Nat) (s : Bytes) :
    decimalValue 0 (List.replicate count 48 ++ s) = decimalValue 0 s := by
  induction count with
  | zero => rfl
  | succ count ih => exact ih

theorem paddedBytes_status {status : Nat} (valid : validStatus status = true) :
    (paddedBytes status).length = 3 ∧ (paddedBytes status).all isDigit = true ∧
      decimalValue 0 (paddedBytes status) = status := by
  simp only [validStatus, Bool.and_eq_true, decide_eq_true_eq] at valid
  have short : (decimalBytes status).length ≤ 3 := by
    rw [decimalBytes, List.length_map]
    exact (Nat.length_toDigits_le_iff (by decide) (by decide)).mpr (by omega)
  refine ⟨?_, ?_, ?_⟩
  · simp only [paddedBytes, List.length_leftpad]
    omega
  · have zeros : (List.replicate (3 - (decimalBytes status).length) (48 : UInt8)).all isDigit = true := by
      simp [isDigit]
    rw [paddedBytes, List.leftpad, List.all_append, zeros, decimalBytes_digits]
    rfl
  · rw [paddedBytes, List.leftpad, decimalValue_zeros, decimalBytes_value]

theorem digits_clean {s : Bytes} (digits : s.all isDigit = true) {b : UInt8} (other : isDigit b = false) :
    b ∉ s := by
  intro inside
  rw [List.all_eq_true.mp digits b inside] at other
  cases other

theorem trimOws_digits {s : Bytes} (digits : s.all isDigit = true) : trimOws (32 :: s) = s := by
  have solid : ∀ b ∈ s, isOws b = false := by
    intro b inside
    have digit := List.all_eq_true.mp digits b inside
    simp only [isDigit, Bool.and_eq_true, decide_eq_true_eq, UInt8.le_iff_toNat_le] at digit
    simp only [isOws, Bool.or_eq_false_iff, beq_eq_false_iff_ne]
    constructor <;> (intro same; subst same; simp at digit)
  have front : (32 :: s).dropWhile isOws = s := by
    rw [List.dropWhile_cons, if_pos (by rfl)]
    cases s with
    | nil => rfl
    | cons b s => rw [List.dropWhile_cons, if_neg (by simp [solid b])]
  rw [trimOws, front, List.rdropWhile_eq_self_iff]
  intro nonempty
  simp [solid _ (List.getLast_mem nonempty)]

def closeLine (connectionClose : Int) : List Bytes :=
  if connectionClose ≠ 0 then [ascii "Connection: close"] else []

theorem headerText_lines (status contentLength : Nat) (connectionClose : Int)
    (digits : (paddedBytes status).all isDigit = true) :
    crlfLines (headerText status contentLength connectionClose) =
      (ascii "HTTP/1.1 " ++ paddedBytes status ++ ascii " ") ::
      (ascii "Content-Length: " ++ decimalBytes contentLength) ::
      closeLine connectionClose ++ [[], []] := by
  have first : cr ∉ ascii "HTTP/1.1 " ++ paddedBytes status ++ ascii " " := by
    simp only [List.mem_append, not_or]
    exact ⟨⟨by decide, digits_clean digits rfl⟩, by decide⟩
  have second : cr ∉ ascii "Content-Length: " ++ decimalBytes contentLength := by
    simp only [List.mem_append, not_or]
    exact ⟨by decide, digits_clean (decimalBytes_digits _) rfl⟩
  have tail : crlfLines ((if connectionClose ≠ 0 then ascii "Connection: close\r\n" else []) ++
      ascii "\r\n") = closeLine connectionClose ++ [[], []] := by
    unfold closeLine
    split
    · decide +kernel
    · decide +kernel
  have shape : headerText status contentLength connectionClose =
      (ascii "HTTP/1.1 " ++ paddedBytes status ++ ascii " ") ++ cr :: lf ::
      ((ascii "Content-Length: " ++ decimalBytes contentLength) ++ cr :: lf ::
      ((if connectionClose ≠ 0 then ascii "Connection: close\r\n" else []) ++ ascii "\r\n")) := by
    have cut : ascii " \r\nContent-Length: " = ascii " " ++ cr :: lf :: ascii "Content-Length: " := by decide
    have eol : ascii "\r\n" = [cr, lf] := by decide
    simp only [headerText, cut, eol, List.append_assoc, List.cons_append, List.nil_append]
  rw [shape, crlfLines_cut, crlfLines_cut, crlfLines_single first, crlfLines_single second, tail]
  rfl

/-- The header block of a response, read line by line: a status line with its status, one
    Content-Length with the length of its body, and a close field when the flag is set. -/
structure Framing (response : HttpResponse) (text : Bytes) : Prop where
  statusLine : ∃ digits, requestLine text = ascii "HTTP/1.1 " ++ digits ++ ascii " " ∧
    digits.length = 3 ∧ digits.all isDigit = true ∧ decimalValue 0 digits = response.status
  fieldSection : ∃ digits, fields text = ⟨ascii "Content-Length", digits⟩ ::
      (if response.connectionClose ≠ 0 then [⟨ascii "Connection", ascii "close"⟩] else []) ∧
    Numeral digits response.body.length
  whole : crlfLines text = requestLine text :: fieldLines text ++ [[], []]

theorem headerText_framing {response : HttpResponse} (valid : validStatus response.status = true)
    (bounded : response.body.length ≤ responseBodyBytes) :
    Framing response (headerText response.status response.body.length response.connectionClose) := by
  obtain ⟨three, digits, value⟩ := paddedBytes_status valid
  have lines := headerText_lines response.status response.body.length response.connectionClose digits
  have section_lines : fieldLines (headerText response.status response.body.length response.connectionClose) =
      (ascii "Content-Length: " ++ decimalBytes response.body.length) ::
        closeLine response.connectionClose := by
    rw [fieldLines, lines, closeLine]
    split <;> rfl
  have numeral : Numeral (decimalBytes response.body.length) response.body.length := by
    apply decimalBytes_numeral
    simp only [responseBodyBytes, uint64Max] at *
    omega
  have contentField : lineField (ascii "Content-Length: " ++ decimalBytes response.body.length) =
      ⟨ascii "Content-Length", decimalBytes response.body.length⟩ := by
    have name : lineName (ascii "Content-Length: " ++ decimalBytes response.body.length) =
        ascii "Content-Length" := rfl
    rw [lineField, name]
    exact congrArg _ (trimOws_digits (decimalBytes_digits _))
  constructor
  · exact ⟨paddedBytes response.status, by rw [requestLine, lines]; rfl, three, digits, value⟩
  · refine ⟨decimalBytes response.body.length, ?_, numeral⟩
    rw [fields, section_lines, List.map_cons, contentField, closeLine]
    split
    · rfl
    · rfl
  · rw [section_lines, requestLine, lines]
    rfl

theorem serialize_finished {response : HttpResponse} (finished : response.state = .finished)
    (bounded : response.body.length ≤ responseBodyBytes)
    (declared : response.contentLengthSet = true → response.contentLength = response.body.length)
    {capacity : Nat} (enough : (headerText response.status response.body.length
      response.connectionClose).length < capacity) :
    ckHttpResponseSerializeHeaders response capacity =
      (0, some (headerText response.status response.body.length response.connectionClose)) := by
  have announced : (if response.contentLengthSet = true then response.contentLength
      else response.body.length) = response.body.length := by
    split
    · rename_i set
      exact declared set
    · rfl
  have small : ¬ response.body.length > sizeMax := by
    simp only [responseBodyBytes, sizeMax, uint64Max] at *
    omega
  have ready : ¬ (capacity = 0 ∨ response.state ≠ .finished) := by
    simp only [finished, ne_eq, not_true_eq_false, or_false]
    omega
  simp only [ckHttpResponseSerializeHeaders, if_neg ready, announced, if_neg small,
    if_neg (Nat.not_le.mpr enough)]

/-- Every sequence of calls on a fresh response: once FINISHED, the body is what write_body
    accepted, status and close are the last ones set, and the serialized header frames this
    body. From commit on no setting is accepted, no header property changes, and FINISHED
    and FAILED stay. -/
theorem finished_response_framed {history : List (Call × Int)} {response : HttpResponse}
    (runs : Runs responseStep ckHttpResponseInit history response) :
    (response.state = .finished →
      response.body = written history ∧ response.body.length ≤ responseBodyBytes ∧
      response.status = lastStatus (settings history) ∧
      response.connectionClose = lastClose (settings history) ∧
      ∃ text, Framing response text ∧ ∀ capacity, text.length < capacity →
        ckHttpResponseSerializeHeaders response capacity = (0, some text)) ∧
    (response.state ≠ .new → ∀ more later, Runs responseStep response more later →
      Sealed response later ∧ settings more = []) := by
  have consistent := runs_consistent runs
  constructor
  · intro finished
    refine ⟨consistent.body, consistent.bounded, consistent.status, consistent.close, _,
      headerText_framing consistent.valid consistent.bounded, ?_⟩
    intro capacity enough
    exact serialize_finished finished consistent.bounded (consistent.declared finished) enough
  · intro committed more later continued
    exact runs_sealed committed continued

/-- The calls of a small response that asks for its connection to be closed. -/
def helloCalls : List Call :=
  [.setStatus 201, .setContentLength 5, .setConnectionClose 1, .writeBody (.bytes (ascii "hel")),
    .setStatus 404, .writeBody (.bytes (ascii "lo")), .finish]

theorem finished_response_framed_hello : ∃ history response,
    execute responseStep ckHttpResponseInit helloCalls = some (history, response) ∧
    response.state = .finished ∧ response.body = ascii "hello" ∧ lastStatus (settings history) = 201 ∧
    lastClose (settings history) = 1 ∧
    ∃ text, Framing response text ∧ ⟨ascii "Connection", ascii "close"⟩ ∈ fields text := by
  obtain ⟨history, response, executed, finished, body, status, close⟩ : ∃ history response,
      execute responseStep ckHttpResponseInit helloCalls = some (history, response) ∧
      response.state = .finished ∧ response.body = ascii "hello" ∧
      lastStatus (settings history) = 201 ∧ lastClose (settings history) = 1 :=
    ⟨_, _, rfl, rfl, by decide +kernel, by decide +kernel, by decide +kernel⟩
  obtain ⟨-, -, -, closes, text, framing, -⟩ :=
    (finished_response_framed (execute_runs executed)).1 finished
  refine ⟨history, response, executed, finished, body, status, close, text, framing, ?_⟩
  obtain ⟨digits, listed, -⟩ := framing.fieldSection
  rw [listed, closes, close]
  simp

end CkartaHttpResponse
