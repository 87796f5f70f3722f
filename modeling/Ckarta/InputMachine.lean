import Ckarta.ChunkedMachine
import Ckarta.HttpInput
import Ckarta.FieldLists

/-!
The input state of one request as a prefix machine. Header bytes and counted body
bytes are read one at a time, chunked bytes as the decoder's machine reads them.
Whatever slice ck_http_input_feed is given, it makes a run of these actions.
-/
namespace CkartaInputMachine
open MachineWord PrefixMachine CkartaHttpParser CkartaHttpChunked CkartaHttpInput CkartaChunkedMachine
  CkartaFieldLists

/-- The result class of a stopped message and the request parsed by then. -/
abbrev Verdict := InputResult × HttpRequest

/-- A span pointer is not observable while its length is zero. -/
def settled (input : HttpInput) : HttpInput := { input with pendingBodyData := none }

def takeBodyByte (input : HttpInput) : HttpInput :=
  { settled input with
    contentLengthRemaining := subU64 input.contentLengthRemaining 1
    messageComplete := input.contentLengthRemaining == 1 }

def headerAct (input : HttpInput) (b : UInt8) : Action HttpInput UInt8 Verdict :=
  if input.parser.buffer.length ≥ maxHeaderBytes then .halt 0 (.tooLarge, input.request)
  else
    let parser := input.parser.push b
    if endsHeader parser.buffer then
      match parseHeaderBlock parser.buffer with
      | (.complete, request) =>
        let ready := completeHeader (settled input) { parser with complete := true } request
        if bodyless ready then .halt 1 (.complete, request) else .move 1 [] ready
      | (.headerTooLarge, request) => .halt 1 (.tooLarge, request)
      | (_, request) => .halt 1 (.badRequest, request)
    else .move 1 [] { settled input with parser := parser }

def inputAct (input : HttpInput) : Bytes → Action HttpInput UInt8 Verdict
  | [] => .wait
  | b :: rest =>
    if input.messageComplete then .halt 0 (.complete, input.request)
    else if !input.headerComplete then headerAct input b
    else match input.request.bodyMode with
      | .contentLength => .move 1 [b] (takeBodyByte input)
      | .chunked =>
        match chunkAct input.chunked (b :: rest) with
        | .wait => .wait
        | .move n out decoder => .move n out { settled input with chunked := decoder }
        | .halt n (result, _) => .halt n (mapChunkedResult result, input.request)
      | .none => .halt 0 (.badRequest, input.request)

theorem headerAct_width {x y : HttpInput} {b : UInt8} {n : Nat} {out : Bytes}
    (h : headerAct x b = .move n out y) : n = 1 ∧ out = [] := by
  simp only [headerAct] at h
  grind

theorem inputAct_move {x y : HttpInput} {s out : Bytes} {n : Nat}
    (h : inputAct x s = .move n out y) :
    0 < n ∧ n ≤ s.length ∧ inputAct x (s.take n) = .move n out y := by
  cases s with
  | nil => simp [inputAct] at h
  | cons b rest =>
    simp only [inputAct] at h
    by_cases done : x.messageComplete
    · simp [done] at h
    · by_cases header : x.headerComplete
      · cases mode : x.request.bodyMode with
        | none => simp [done, header, mode] at h
        | contentLength =>
          simp only [done, header, mode, Bool.false_eq_true, ↓reduceIte, Bool.not_true,
            Action.move.injEq] at h
          obtain ⟨rfl, rfl, rfl⟩ := h
          exact ⟨by simp, by simp, by simp [inputAct, done, header, mode]⟩
        | chunked =>
          simp only [done, header, mode, Bool.false_eq_true, ↓reduceIte, Bool.not_true] at h
          split at h
          · simp at h
          · rename_i k o d act
            simp only [Action.move.injEq] at h
            obtain ⟨rfl, rfl, rfl⟩ := h
            obtain ⟨positive, within, prefixed⟩ := chunkAct_move act
            refine ⟨positive, within, ?_⟩
            obtain ⟨j, rfl⟩ : ∃ j, k = j + 1 := ⟨k - 1, by omega⟩
            simp only [List.take_succ_cons] at prefixed ⊢
            simp [inputAct, done, header, mode, prefixed]
          · simp at h
      · simp only [done, header, Bool.false_eq_true, ↓reduceIte, Bool.not_false] at h
        obtain ⟨rfl, rfl⟩ := headerAct_width h
        exact ⟨by simp, by simp, by simpa [inputAct, done, header] using h⟩

theorem inputAct_stable {x : HttpInput} {s : Bytes} (h : inputAct x s ≠ .wait) (t : Bytes) :
    inputAct x (s ++ t) = inputAct x s := by
  cases s with
  | nil => simp [inputAct] at h
  | cons b rest =>
    simp only [inputAct, List.cons_append] at h ⊢
    by_cases done : x.messageComplete
    · simp [done]
    · by_cases header : x.headerComplete
      · cases mode : x.request.bodyMode with
        | none => simp [done, header]
        | contentLength => simp [done, header]
        | chunked =>
          simp only [done, header, mode, Bool.false_eq_true, ↓reduceIte, Bool.not_true] at h ⊢
          have decided : chunkAct x.chunked (b :: rest) ≠ .wait := by
            intro waits
            simp [waits] at h
          have same := chunkAct_stable decided t
          rw [List.cons_append] at same
          rw [same]
      · simp [done, header]

def inputMachine : Machine HttpInput UInt8 UInt8 Verdict where
  act := inputAct
  move_bounds h := ⟨(inputAct_move h).1, (inputAct_move h).2.1⟩
  move_local h := (inputAct_move h).2.2
  stable h t := inputAct_stable h t

structure Ready (input : HttpInput) : Prop where
  live : input.messageComplete = false
  no_span : input.pendingBodyLength = 0
  no_bytes : input.pendingInputConsumed = 0
  no_end : input.pendingMessageComplete = false
  parser_open : input.headerComplete = false → input.parser.complete = false
  has_body : input.headerComplete = true → input.request.bodyMode ≠ .none
  length_open : input.headerComplete = true → input.request.bodyMode = .contentLength →
    0 < input.contentLengthRemaining
  length_le : input.contentLengthRemaining ≤ uint64Max
  decoder_sound : Sound input.chunked
  decoder_live : input.chunked.state ≠ .done

theorem init_ready : Ready ckHttpInputInit := by
  refine ⟨rfl, rfl, rfl, rfl, fun _ => rfl, ?_, ?_, Nat.zero_le _, init_sound, ?_⟩ <;>
    simp [ckHttpInputInit, ckHttpChunkedInit]

theorem settled_ready {x : HttpInput} (ready : Ready x) : Ready (settled x) := by
  obtain ⟨a, b, c, d, e, f, g, h, i, j⟩ := ready
  exact ⟨a, b, c, d, e, f, g, h, i, j⟩

theorem ready_decoder {x : HttpInput} {decoder : ChunkedDecoder} (ready : Ready x)
    (sound : Sound decoder) (live : decoder.state ≠ .done) :
    Ready { x with chunked := decoder } := by
  obtain ⟨a, b, c, d, e, f, g, h, i, j⟩ := ready
  exact ⟨a, b, c, d, e, f, g, h, sound, live⟩

theorem ready_reading {x : HttpInput} {parser : HttpParser} {request : HttpRequest} (ready : Ready x)
    (header : x.headerComplete = false) (opened : parser.complete = x.parser.complete) :
    Ready { x with parser := parser, request := request } := by
  obtain ⟨a, b, c, d, e, f, g, h, i, j⟩ := ready
  exact ⟨a, b, c, d, fun o => opened.trans (e o), by simp [header], by simp [header], h, i, j⟩

theorem parseFraming_length_le {fields request : HttpRequest}
    (h : parseFraming fields = (.complete, request)) : request.contentLength ≤ uint64Max := by
  simp only [parseFraming] at h
  split at h
  · simp at h
  · rename_i lengths read
    have bound := parseContentLengthHeaders_le read
    repeat' split at h
    all_goals try simp at h
    simp only [applyFraming] at h
    repeat' split at h
    all_goals simp only [Prod.mk.injEq, true_and, reduceCtorEq, false_and] at h
    all_goals subst h
    all_goals first | exact bound | exact Nat.zero_le _

theorem parseHeaderBlock_length_le {block : Bytes} {request : HttpRequest}
    (h : parseHeaderBlock block = (.complete, request)) : request.contentLength ≤ uint64Max := by
  simp only [parseHeaderBlock] at h
  split at h
  · simp at h
  · split at h
    · simp at h
    · split at h
      · exact parseFraming_length_le h
      · rename_i refused
        exact absurd h (refused request)

theorem complete_ready {x : HttpInput} {parser : HttpParser} {request : HttpRequest}
    (ready : Ready x) (bound : request.contentLength ≤ uint64Max)
    (body : bodyless (completeHeader x parser request) = false) :
    Ready (completeHeader x parser request) := by
  have modes : request.bodyMode ≠ .none ∧
      (request.bodyMode = .contentLength → request.contentLength ≠ 0) := by
    cases mode : request.bodyMode <;> simp_all [bodyless, completeHeader]
  refine ⟨ready.live, ready.no_span, ready.no_bytes, ready.no_end, by simp [completeHeader],
    fun _ => modes.1, fun _ mode => Nat.pos_of_ne_zero (modes.2 mode), bound, ?_, ?_⟩
  · simp only [completeHeader]
    split
    · exact init_sound
    · exact ready.decoder_sound
  · simp only [completeHeader]
    split
    · simp [ckHttpChunkedInit]
    · exact ready.decoder_live

inductive HeaderOutcome (x : HttpInput) (s : Bytes) (position : Nat) : ParserFeed → Prop where
  | more (p : HttpParser) (opened : p.complete = x.parser.complete)
      (run : Steps inputMachine (settled x) s [] (settled { x with parser := p })) :
      HeaderOutcome x s position ⟨.incomplete, p, position + s.length, x.request⟩
  | full (read rest : Bytes) (p : HttpParser) (opened : p.complete = x.parser.complete)
      (cut : s = read ++ rest) (unread : rest ≠ [])
      (run : Steps inputMachine (settled x) read [] (settled { x with parser := p }))
      (full : p.buffer.length ≥ maxHeaderBytes) :
      HeaderOutcome x s position ⟨.headerTooLarge, p, 0, x.request⟩
  | block (read rest : Bytes) (b : UInt8) (p : HttpParser) (opened : p.complete = x.parser.complete)
      (cut : s = read ++ b :: rest)
      (run : Steps inputMachine (settled x) read [] (settled { x with parser := p }))
      (room : ¬ p.buffer.length ≥ maxHeaderBytes) (ends : endsHeader (p.push b).buffer = true) :
      HeaderOutcome x s position (finishHeader (p.push b) (position + read.length + 1))

theorem parserFeedLoop_outcome {x : HttpInput} {s : Bytes} (position : Nat)
    (live : x.messageComplete = false) (header : x.headerComplete = false) :
    HeaderOutcome x s position (parserFeedLoop x.request x.parser position s) := by
  induction s generalizing x position with
  | nil => exact .more x.parser rfl (Steps.refl _)
  | cons b rest ih =>
    simp only [parserFeedLoop]
    split
    · rename_i full
      exact .full [] (b :: rest) x.parser rfl rfl (by simp) (Steps.refl _) full
    · rename_i room
      split
      · rename_i ends
        exact .block [] rest b x.parser rfl rfl (Steps.refl _) room ends
      · rename_i open_
        have act : inputMachine.act (settled x) [b] =
            .move 1 [] (settled { x with parser := x.parser.push b }) := by
          simp [inputMachine, inputAct, settled, live, header, headerAct, room, open_]
        have tail := ih (x := { x with parser := x.parser.push b }) (position + 1) live header
        generalize parserFeedLoop x.request (x.parser.push b) (position + 1) rest = fed at tail
        cases tail with
        | more p opened run =>
          have out : HeaderOutcome x (b :: rest) position _ := .more p
            opened (Steps.move act run)
          simpa [Nat.add_assoc, Nat.add_comm 1] using out
        | full read unread p opened cut some run full =>
          exact .full (b :: read) unread p opened (by simp [cut]) some (Steps.move act run) full
        | block read unread last p opened cut run room ends =>
          have out : HeaderOutcome x (b :: rest) position _ := .block
            (b :: read) unread last p opened (by simp [cut]) (Steps.move act run) room ends
          simpa [Nat.add_assoc, Nat.add_comm 1] using out

theorem inputAct_chunked {x : HttpInput} (live : x.messageComplete = false)
    (header : x.headerComplete = true) (mode : x.request.bodyMode = .chunked)
    (d : ChunkedDecoder) (s : Bytes) :
    inputAct (settled { x with chunked := d }) s = match chunkAct d s with
      | .wait => .wait
      | .move n out e => .move n out (settled { x with chunked := e })
      | .halt n (result, _) => .halt n (mapChunkedResult result, x.request) := by
  cases s with
  | nil => simp [inputAct, chunkAct]
  | cons b rest =>
    simp only [inputAct, settled, live, header, mode, Bool.false_eq_true, ↓reduceIte, Bool.not_true]

theorem steps_chunked {x : HttpInput} (live : x.messageComplete = false)
    (header : x.headerComplete = true) (mode : x.request.bodyMode = .chunked)
    {d e : ChunkedDecoder} {s out : Bytes} (run : Steps chunkMachine d s out e) :
    Steps inputMachine (settled { x with chunked := d }) s out
      (settled { x with chunked := e }) := by
  induction run with
  | refl d => exact Steps.refl _
  | move act tail ih =>
    refine Steps.move ?_ ih
    have lifted := inputAct_chunked live header mode _ _ |>.trans (by rw [show chunkAct _ _ = _ from act])
    exact lifted

def takeBody (input : HttpInput) (count : Nat) : HttpInput :=
  { settled input with
    contentLengthRemaining := input.contentLengthRemaining - count
    messageComplete := input.contentLengthRemaining == count }

theorem steps_body {x : HttpInput} (data : Bytes) (ready : Ready x)
    (header : x.headerComplete = true) (mode : x.request.bodyMode = .contentLength)
    (nonempty : data ≠ []) (fits : data.length ≤ x.contentLengthRemaining) :
    Steps inputMachine (settled x) data data (takeBody x data.length) := by
  induction data generalizing x with
  | nil => contradiction
  | cons b data ih =>
    simp only [List.length_cons] at fits
    have left := subU64_of_le (show 1 ≤ x.contentLengthRemaining by omega) ready.length_le
    have act : inputMachine.act (settled x) [b] = .move 1 [b] (takeBody x 1) := by
      simp [inputMachine, inputAct, settled, ready.live, header, mode, takeBodyByte, takeBody, left]
    by_cases last : data = []
    · subst last
      exact steps_one act
    · have more : 0 < data.length := List.length_pos_iff.mpr last
      have unfinished : (x.contentLengthRemaining == 1) = false := by
        rw [beq_eq_false_iff_ne]
        omega
      have next : Ready (takeBody x 1) := by
        obtain ⟨a, b, c, d, e, f, g, h, i, j⟩ := ready
        refine ⟨unfinished, b, c, d, e, f, fun _ _ => ?_, ?_, i, j⟩
        · simp only [takeBody]
          omega
        · simp only [takeBody]
          omega
      have tail := ih next header mode last (by simp only [takeBody]; omega)
      have joined : takeBody (takeBody x 1) data.length = takeBody x (b :: data).length := by
        have rest : x.contentLengthRemaining - 1 - data.length =
            x.contentLengthRemaining - (data.length + 1) := by omega
        have ends : (x.contentLengthRemaining - 1 == data.length) =
            (x.contentLengthRemaining == data.length + 1) := by
          rw [Bool.eq_iff_iff, beq_iff_eq, beq_iff_eq]
          omega
        simp only [takeBody, settled, List.length_cons, rest, ends]
      rw [joined] at tail
      exact Steps.move act tail

/-- What one feed of the slice s at address a can answer, as a run of the machine. A
    span may leave bytes consumed by the feed itself: those of a header that ended in s. -/
inductive InputOutcome (x : HttpInput) (a : Nat) (s : Bytes) : InputFeed → Prop where
  | span (head data rest : Bytes) (read : Nat) (y z : HttpInput) (cut : s = head ++ data ++ rest)
      (nonempty : data ≠ []) (run : Steps inputMachine (settled x) (head ++ data) data z)
      (within : read ≤ head.length) (lead : read = 0 ↔ x.headerComplete = true)
      (held : y.pendingBodyData = some (a + head.length)) (size : y.pendingBodyLength = data.length)
      (live : y.messageComplete = false)
      (ack : ckHttpInputAckBody y = some (z, head.length + data.length - read))
      (header : z.headerComplete = true) (next : z.messageComplete = true ∨ Ready z) :
      InputOutcome x a s ⟨.body, y, read, some (a + head.length), data.length⟩
  | quiet (read rest : Bytes) (y : HttpInput) (pointer : Option Nat) (cut : s = read ++ rest)
      (run : Steps inputMachine (settled x) read [] (settled y))
      (waits : inputAct (settled y) rest = .wait) (ready : Ready y) :
      InputOutcome x a s ⟨.incomplete, y, read.length, pointer, 0⟩
  | complete (read rest : Bytes) (n : Nat) (e y : HttpInput) (cut : s = read ++ rest)
      (run : Steps inputMachine (settled x) read [] e)
      (ends : inputAct e rest = .halt n (.complete, y.request)) (wide : 0 < n)
      (within : n ≤ rest.length)
      (idle : y.pendingBodyLength = 0) (header : y.headerComplete = true)
      (done : y.messageComplete = true) :
      InputOutcome x a s ⟨.complete, y, read.length + n, none, 0⟩
  | refuse (result : InputResult) (read rest : Bytes) (n consumed : Nat) (e y : HttpInput)
      (cut : s = read ++ rest) (run : Steps inputMachine (settled x) read [] e)
      (ends : inputAct e rest = .halt n (result, y.request))
      (kind : result = .badRequest ∨ result = .tooLarge) (within : consumed ≤ s.length)
      (reported : consumed ≤ read.length + n) (ready : Ready y) :
      InputOutcome x a s ⟨result, y, consumed, none, 0⟩
  | overflow (read rest : Bytes) (consumed : Nat) (y : HttpInput) (cut : s = read ++ rest)
      (run : Steps inputMachine (settled x) read [] (settled y)) (reported : consumed ≤ read.length)
      (full : uint64Max < x.chunked.totalDecoded + s.length) (ready : Ready y) :
      InputOutcome x a s ⟨.tooLarge, y, consumed, none, 0⟩

theorem feedBody_counted {x y : HttpInput} {a : Nat} {h s : Bytes} (ready : Ready y)
    (header : y.headerComplete = true) (mode : y.request.bodyMode = .contentLength)
    (run : Steps inputMachine (settled x) h [] (settled y))
    (lead : h.length = 0 ↔ x.headerComplete = true) :
    InputOutcome x a (h ++ s) (feedBody y (a + h.length) h.length s) := by
  have opened := ready.length_open header mode
  generalize count : (if y.contentLengthRemaining < s.length
    then y.contentLengthRemaining else s.length) = take
  simp only [feedBody, mode, count]
  by_cases empty : s = []
  · subst empty
    have none : take = 0 := by
      simp only [List.length_nil, Nat.not_lt_zero, ↓reduceIte] at count
      omega
    subst none
    have left := subU64_of_le (Nat.zero_le y.contentLengthRemaining) ready.length_le
    have unfinished : y.contentLengthRemaining ≠ 0 := by omega
    simp only [left, Nat.sub_zero, ne_eq, not_true_eq_false, ↓reduceIte, unfinished, decide_false]
    have out := InputOutcome.quiet (x := x) (a := a) (s := h ++ []) h []
      { y with
        pendingBodyData := some (a + h.length), pendingBodyLength := 0, pendingInputConsumed := 0
        pendingMessageComplete := false } (some (a + h.length)) rfl
      (by simpa [settled, ready.no_span, ready.no_bytes, ready.no_end] using run)
      (by simp [inputAct]) (by
        obtain ⟨a, b, c, d, e, f, g, h, i, j⟩ := ready
        exact ⟨a, rfl, rfl, rfl, e, f, g, h, i, j⟩)
    simpa using out
  · have some : 0 < s.length := List.length_pos_iff.mpr empty
    have small : take ≤ y.contentLengthRemaining ∧ take ≤ s.length ∧ 0 < take := by
      split at count <;> omega
    have len : (s.take take).length = take := by
      rw [List.length_take]
      omega
    have nonempty : s.take take ≠ [] := by
      intro none
      rw [none] at len
      simp only [List.length_nil] at len
      omega
    have left := subU64_of_le small.1 ready.length_le
    have taken := steps_body (s.take take) ready header mode nonempty (by omega)
    rw [len] at taken
    have positive : take ≠ 0 := by omega
    simp only [left, ne_eq, positive, not_false_eq_true, ↓reduceIte]
    rw [← len]
    refine InputOutcome.span (x := x) (a := a) (s := h ++ s) h (s.take take) (s.drop take) h.length _
      (takeBody y take) (by simp) nonempty ?_ (Nat.le_refl _) lead rfl rfl ready.live ?_ header ?_
    · simpa using steps_trans run taken
    · simp [ckHttpInputAckBody, len, positive, takeBody, settled, ready.live, ready.no_span,
        ready.no_bytes, ready.no_end, beq_eq_decide]
    · by_cases last : y.contentLengthRemaining = take
      · exact .inl (by simp [takeBody, last])
      · refine .inr ?_
        obtain ⟨a, b, c, d, e, f, g, h, i, j⟩ := ready
        refine ⟨by simpa [takeBody] using last, b, c, d, e, f, fun _ _ => ?_, ?_, i, j⟩
        · simp only [takeBody]
          omega
        · simp only [takeBody]
          omega

theorem feedBody_chunked {x y : HttpInput} {a : Nat} {h s : Bytes} (ready : Ready y)
    (header : y.headerComplete = true) (mode : y.request.bodyMode = .chunked)
    (run : Steps inputMachine (settled x) h [] (settled y))
    (lead : h.length = 0 ↔ x.headerComplete = true)
    (counted : y.chunked.totalDecoded ≤ x.chunked.totalDecoded) :
    InputOutcome x a (h ++ s) (feedBody y (a + h.length) h.length s) := by
  have live := ready.live
  have fed : FeedOutcome y.chunked s 0 (ckHttpChunkedFeed y.chunked s) := by
    simpa [ckHttpChunkedFeed, ready.decoder_live] using
      chunkedFeedLoop_outcome 0 ready.decoder_sound ready.decoder_live
  simp only [feedBody, mode]
  generalize ckHttpChunkedFeed y.chunked s = answer at fed
  cases fed with
  | span head data rest e cut nonempty steps =>
    have some : data.length ≠ 0 := by simpa using nonempty
    simp only [ne_eq, some, not_false_eq_true, ↓reduceIte, reduceCtorEq, decide_false,
      Option.map_some, Nat.zero_add]
    have lifted := steps_chunked live header mode steps
    have out := InputOutcome.span (x := x) (a := a) (s := h ++ s) (h ++ head) data rest h.length
      { y with
        chunked := e, pendingBodyData := Option.some (a + h.length + head.length)
        pendingBodyLength := data.length, pendingInputConsumed := head.length + data.length
        pendingMessageComplete := false }
      (settled { y with chunked := e }) (by simp [cut]) nonempty
      (by simpa using steps_trans run lifted) (by simp) lead (by simp [Nat.add_assoc]) rfl live
      (by
        simp [ckHttpInputAckBody, some, settled, ready.live, ready.no_span, ready.no_bytes,
          ready.no_end]
        omega)
      header (.inr (settled_ready (ready_decoder ready (steps_sound ready.decoder_sound steps)
        (steps_live ready.decoder_live steps))))
    simpa [Nat.add_assoc] using out
  | quiet read rest e cut steps waits =>
    simp only [ChunkedFeed.stop, ne_eq, not_true_eq_false, ↓reduceIte, reduceCtorEq,
      mapChunkedResult, Option.map_none, Nat.zero_add]
    have lifted := steps_chunked live header mode steps
    have still := inputAct_chunked live header mode e rest
    rw [waits] at still
    have out := InputOutcome.quiet (x := x) (a := a) (s := h ++ s) (h ++ read) rest
      { y with chunked := e } none (by simp [cut]) (by simpa using steps_trans run lifted) still
      (ready_decoder ready (steps_sound ready.decoder_sound steps)
        (steps_live ready.decoder_live steps))
    simpa using out
  | complete read rest e last cut steps ends =>
    simp only [ne_eq, not_true_eq_false, ↓reduceIte, mapChunkedResult, Option.map_none,
      Nat.zero_add]
    have lifted := steps_chunked live header mode steps
    have stop := inputAct_chunked live header mode e rest
    rw [ends] at stop
    have out := InputOutcome.complete (x := x) (a := a) (s := h ++ s) (h ++ read) rest 2
      (settled { y with chunked := e }) { y with chunked := last, messageComplete := true }
      (by simp [cut]) (by simpa using steps_trans run lifted) stop (by omega)
      (chunkAct_halt_within ends) ready.no_span header rfl
    simpa [Nat.add_assoc] using out
  | refuse read rest e last result cut steps kind ends =>
    have refused : result ≠ .complete := by
      rcases kind with rfl | rfl <;> simp
    simp only [ChunkedFeed.refuse, ne_eq, not_true_eq_false, ↓reduceIte, refused, Option.map_none,
      Nat.add_zero]
    have lifted := steps_chunked live header mode steps
    have stop := inputAct_chunked live header mode e rest
    rw [ends] at stop
    exact .refuse (mapChunkedResult result) (h ++ read) rest 0 h.length
      (settled { y with chunked := e }) { y with chunked := last } (by simp [cut])
      (by simpa using steps_trans run lifted) stop
      (by rcases kind with rfl | rfl <;> simp [mapChunkedResult]) (by simp)
      (by simp only [List.length_append]; omega) (by
        have kept := chunkAct_refuse_sound (steps_sound ready.decoder_sound steps)
          (steps_live ready.decoder_live steps) ends
        exact ready_decoder ready kept.1 kept.2)
  | overflow read rest last cut steps full =>
    simp only [ChunkedFeed.refuse, ne_eq, not_true_eq_false, ↓reduceIte, reduceCtorEq,
      mapChunkedResult, Option.map_none, Nat.add_zero]
    have lifted := steps_chunked live header mode steps
    exact .overflow (h ++ read) rest h.length { y with chunked := last } (by simp [cut])
      (by simpa using steps_trans run lifted) (by simp) (by simp only [List.length_append]; omega)
      (ready_decoder ready (steps_sound ready.decoder_sound steps)
        (steps_live ready.decoder_live steps))

theorem feedBody_outcome {x y : HttpInput} {a : Nat} {h s : Bytes} (ready : Ready y)
    (header : y.headerComplete = true) (run : Steps inputMachine (settled x) h [] (settled y))
    (lead : h.length = 0 ↔ x.headerComplete = true)
    (counted : y.chunked.totalDecoded ≤ x.chunked.totalDecoded) :
    InputOutcome x a (h ++ s) (feedBody y (a + h.length) h.length s) := by
  cases mode : y.request.bodyMode with
  | none => exact absurd mode (ready.has_body header)
  | contentLength => exact feedBody_counted ready header mode run lead
  | chunked => exact feedBody_chunked ready header mode run lead counted

theorem parseFieldLines_decides {fuel : Nat} {rest : Bytes} {start request : HttpRequest}
    (h : parseFieldLines fuel rest start = (.incomplete, request)) : False := by
  induction fuel generalizing rest start with
  | zero => simp [parseFieldLines] at h
  | succ fuel ih =>
    simp only [parseFieldLines] at h
    repeat' split at h
    all_goals try simp at h
    exact ih h

theorem parseFraming_decides {fields request : HttpRequest}
    (h : parseFraming fields = (.incomplete, request)) : False := by
  simp only [parseFraming, applyFraming] at h
  repeat' split at h
  all_goals simp at h

theorem parseHeaderBlock_decides {block : Bytes} {request : HttpRequest}
    (h : parseHeaderBlock block = (.incomplete, request)) : False := by
  simp only [parseHeaderBlock] at h
  split at h
  · simp at h
  · split at h
    · simp at h
    · split at h
      · exact parseFraming_decides h
      · exact parseFieldLines_decides h

theorem complete_total {x : HttpInput} {parser : HttpParser} {request : HttpRequest} :
    (completeHeader x parser request).chunked.totalDecoded ≤ x.chunked.totalDecoded := by
  simp only [completeHeader]
  split
  · exact Nat.zero_le _
  · exact Nat.le_refl _

section
variable {x : HttpInput} {p : HttpParser} {b : UInt8} {request : HttpRequest}

theorem inputAct_refuses {result : ParseResult} {verdict : InputResult} (ready : Ready x)
    (header : x.headerComplete = false) (room : ¬ p.buffer.length ≥ maxHeaderBytes)
    (ends : endsHeader (p.push b).buffer = true)
    (block : parseHeaderBlock (p.push b).buffer = (result, request))
    (kind : result = .badRequest ∧ verdict = .badRequest ∨ result = .headerTooLarge ∧ verdict = .tooLarge)
    (s : Bytes) : inputAct (settled { x with parser := p }) (b :: s) = .halt 1 (verdict, request) := by
  rcases kind with ⟨rfl, rfl⟩ | ⟨rfl, rfl⟩
  · simp [inputAct, settled, ready.live, header, headerAct, room, ends, block]
  · simp [inputAct, settled, ready.live, header, headerAct, room, ends, block]

theorem inputAct_accepts (ready : Ready x) (header : x.headerComplete = false)
    (room : ¬ p.buffer.length ≥ maxHeaderBytes) (ends : endsHeader (p.push b).buffer = true)
    (block : parseHeaderBlock (p.push b).buffer = (.complete, request)) (s : Bytes) :
    inputAct (settled { x with parser := p }) (b :: s) =
      if bodyless (completeHeader x { p.push b with complete := true } request) then
        .halt 1 (.complete, request)
      else .move 1 [] (settled (completeHeader x { p.push b with complete := true } request)) := by
  have act : inputAct (settled { x with parser := p }) (b :: s) =
      headerAct (settled { x with parser := p }) b := by
    simp [inputAct, settled, ready.live, header]
  rw [act]
  simp only [headerAct, settled, room, ends, block, ↓reduceIte]
  rfl

theorem steps_header {read : Bytes} (ready : Ready x) (header : x.headerComplete = false)
    (run : Steps inputMachine (settled x) read [] (settled { x with parser := p }))
    (room : ¬ p.buffer.length ≥ maxHeaderBytes) (ends : endsHeader (p.push b).buffer = true)
    (block : parseHeaderBlock (p.push b).buffer = (.complete, request))
    (body : ¬ bodyless (completeHeader x { p.push b with complete := true } request) = true) :
    Steps inputMachine (settled x) (read ++ [b]) []
        (settled (completeHeader x { p.push b with complete := true } request)) ∧
      Ready (completeHeader x { p.push b with complete := true } request) := by
  have step : inputMachine.act (settled { x with parser := p }) [b] =
      .move 1 [] (settled (completeHeader x { p.push b with complete := true } request)) := by
    rw [show inputMachine.act = inputAct from rfl, inputAct_accepts ready header room ends block, if_neg body]
  exact ⟨by simpa using steps_trans run (steps_one step),
    complete_ready ready (parseHeaderBlock_length_le block) (by simpa using body)⟩

end

theorem finishHeader_outcome {x : HttpInput} {a : Nat} {read rest : Bytes} {b : UInt8}
    {p : HttpParser} (ready : Ready x) (header : x.headerComplete = false)
    (opened : p.complete = x.parser.complete)
    (run : Steps inputMachine (settled x) read [] (settled { x with parser := p }))
    (room : ¬ p.buffer.length ≥ maxHeaderBytes) (ends : endsHeader (p.push b).buffer = true) :
    InputOutcome x a (read ++ b :: rest)
      (feedHeader x a (read ++ b :: rest) (finishHeader (p.push b) (read.length + 1))) := by
  have within : read.length + 1 ≤ (read ++ b :: rest).length := by
    simp only [List.length_append, List.length_cons]
    omega
  cases block : parseHeaderBlock (p.push b).buffer with
  | mk result request =>
    cases result with
    | incomplete => exact absurd block fun h => parseHeaderBlock_decides h
    | badRequest =>
      simp only [finishHeader, block, feedHeader]
      exact .refuse .badRequest read (b :: rest) 1 (read.length + 1) _
        { x with parser := p.push b, request := request } rfl run
        (inputAct_refuses ready header room ends block (.inl ⟨rfl, rfl⟩) rest) (.inl rfl) within
        (Nat.le_refl _) (ready_reading ready header opened)
    | headerTooLarge =>
      simp only [finishHeader, block, feedHeader]
      exact .refuse .tooLarge read (b :: rest) 1 (read.length + 1) _
        { x with parser := p.push b, request := request } rfl run
        (inputAct_refuses ready header room ends block (.inr ⟨rfl, rfl⟩) rest) (.inr rfl) within
        (Nat.le_refl _) (ready_reading ready header opened)
    | complete =>
      simp only [finishHeader, block, feedHeader]
      split
      · rename_i empty
        refine .complete read (b :: rest) 1 _ { completeHeader x { p.push b with complete := true } request
          with messageComplete := true } rfl run ?_ Nat.one_pos (by simp) ready.no_span rfl rfl
        rw [inputAct_accepts ready header room ends block, if_pos empty]
        rfl
      · rename_i body
        obtain ⟨steps, next⟩ := steps_header ready header run room ends block body
        have out := feedBody_outcome (x := x) (a := a) (s := rest) next rfl steps (by simp [header])
          complete_total
        simpa using out

/-- Every feed from a ready state is a run of the machine over its slice. -/
theorem ckHttpInputFeed_outcome {x : HttpInput} {a : Nat} {s : Bytes} (ready : Ready x) :
    InputOutcome x a s (ckHttpInputFeed x a s) := by
  by_cases header : x.headerComplete = true
  · simp only [ckHttpInputFeed, ready.no_span, ne_eq, not_true_eq_false, ↓reduceIte, ready.live,
      Bool.false_eq_true, header, Bool.not_true]
    simpa using feedBody_outcome (x := x) (a := a) (h := []) (s := s) ready header (Steps.refl _)
      (by simp [header]) (Nat.le_refl _)
  · have opened : x.headerComplete = false := by simpa using header
    simp only [ckHttpInputFeed, ready.no_span, ne_eq, not_true_eq_false, ↓reduceIte, ready.live,
      Bool.false_eq_true, opened, Bool.not_false]
    have fed := parserFeedLoop_outcome (s := s) 0 ready.live opened
    simp only [ckHttpParserFeed, ready.parser_open opened, Bool.false_eq_true, ↓reduceIte]
    generalize parserFeedLoop x.request x.parser 0 s = answer at fed
    cases fed with
    | more p same run =>
      simp only [feedHeader, Nat.zero_add]
      refine .quiet s [] { x with parser := p } none (by simp) run (by simp [inputAct]) ?_
      exact ready_reading ready opened same
    | full read rest p same cut unread run full =>
      simp only [feedHeader]
      refine .refuse .tooLarge read rest 0 0 _ { x with parser := p } cut run ?_ (.inr rfl)
        (Nat.zero_le _) (Nat.zero_le _) (ready_reading ready opened same)
      obtain ⟨b, rest, rfl⟩ := List.exists_cons_of_ne_nil unread
      simp [inputAct, settled, ready.live, opened, headerAct, full]
    | block read rest b p same cut run room ends =>
      subst cut
      rw [Nat.zero_add]
      exact finishHeader_outcome ready opened same run room ends

theorem inputAct_halt_local {x : HttpInput} {s : Bytes} {k : Nat} {verdict : Verdict}
    (h : inputAct x s = .halt k verdict) (wide : 0 < k) : inputAct x (s.take k) = .halt k verdict := by
  cases s with
  | nil => simp [inputAct] at h
  | cons b rest =>
    obtain ⟨j, rfl⟩ : ∃ j, k = j + 1 := ⟨k - 1, by omega⟩
    simp only [List.take_succ_cons]
    simp only [inputAct] at h ⊢
    split at h
    · rename_i done
      simp only [done, ↓reduceIte]
      exact h
    · rename_i live
      simp only [live]
      split at h
      · rename_i header
        simp only [header, ↓reduceIte]
        exact h
      · rename_i header
        simp only [header]
        cases mode : x.request.bodyMode with
        | none =>
          simp only [mode] at h
          exact h
        | contentLength => simp [mode] at h
        | chunked =>
          simp only [mode] at h
          split at h
          · simp at h
          · simp at h
          · rename_i n result last act
            simp only [Action.halt.injEq] at h
            obtain ⟨rfl, rfl⟩ := h
            have decided := chunkAct_halt_local act wide
            simp only [List.take_succ_cons] at decided
            simp [decided]

theorem headerAct_total {x y : HttpInput} {b : UInt8} {n : Nat} {out : Bytes}
    (h : headerAct x b = .move n out y) : y.chunked.totalDecoded ≤ x.chunked.totalDecoded := by
  simp only [headerAct] at h
  split at h
  · simp at h
  · split at h
    · split at h
      · split at h
        · simp at h
        · simp only [Action.move.injEq] at h
          rw [← h.2.2]
          exact complete_total
      · simp at h
      · simp at h
    · simp only [Action.move.injEq] at h
      rw [← h.2.2]
      exact Nat.le_refl _

/-- The decoder's counter never runs ahead of the bytes read. -/
theorem inputAct_total {x y : HttpInput} {s out : Bytes} {n : Nat}
    (h : inputAct x s = .move n out y) :
    y.chunked.totalDecoded ≤ x.chunked.totalDecoded + n := by
  cases s with
  | nil => simp [inputAct] at h
  | cons b rest =>
    simp only [inputAct] at h
    split at h
    · simp at h
    · split at h
      · exact Nat.le_trans (headerAct_total h) (Nat.le_add_right _ _)
      · split at h
        · simp only [Action.move.injEq] at h
          rw [← h.2.2]
          exact Nat.le_add_right _ _
        · split at h
          · simp at h
          · rename_i act
            simp only [Action.move.injEq] at h
            rw [← h.2.2, ← h.1]
            exact (chunkAct_open act).2
          · simp at h
        · simp at h

theorem steps_total {x y : HttpInput} {s out : Bytes} (run : Steps inputMachine x s out y) :
    y.chunked.totalDecoded ≤ x.chunked.totalDecoded + s.length := by
  induction run with
  | refl => exact Nat.le_add_right _ _
  | move act tail ih =>
    have first := inputAct_total act
    simp only [List.length_append]
    omega

end CkartaInputMachine
