import Ckarta.ReaderSteps

/-!
What a step of a drive can do, from any state that can be reached. A turn of the feed
loop is a run of the input machine over the bytes it consumes; receiving only adds
bytes behind the ones still to be parsed.
-/
namespace CkartaReaderTurns
open MachineWord PrefixMachine CkartaHttpParser CkartaHttpInput CkartaInputMachine CkartaInputStream
  CkartaConnectionReader CkartaReaderSteps
variable {σ : Type}

def consumedBytes (trace : List DriveEvent) : Bytes :=
  trace.flatMap fun
    | .consumed bytes => bytes
    | _ => []

def deliveredBytes (trace : List DriveEvent) : Bytes :=
  trace.flatMap fun
    | .offered bytes answer => if answer = 0 then bytes else []
    | _ => []

def receivedBytes (trace : List DriveEvent) : Bytes :=
  trace.flatMap fun
    | .received _ bytes => bytes
    | _ => []

/-- buffer[begin..end) -/
def unparsed (reader : ConnectionReader) : Bytes := reader.buffer.drop reader.beginPos

theorem slice_eq (s : DriveState σ) : slice s = (unparsed s.reader).take s.processBudget := by
  have whole : (unparsed s.reader).length = s.reader.available := List.length_drop
  rw [slice]
  split
  · rw [show s.reader.buffer.drop s.reader.beginPos = unparsed s.reader from rfl,
      List.take_of_length_le (by omega), List.take_of_length_le (by omega)]
  · rfl

/-- From s to t the feed loop consumed read, the sink accepted out, and y is the input. -/
structure Moved (s t : DriveState σ) (y : HttpInput) (read out : Bytes) : Prop where
  input : t.reader.input = y
  buffer : t.reader.buffer = s.reader.buffer
  beginPos : t.reader.beginPos = s.reader.beginPos + read.length
  process : t.processBudget = s.processBudget - read.length
  readLeft : t.readBudget = s.readBudget
  socket : t.socket = s.socket
  consumed : consumedBytes t.trace = consumedBytes s.trace ++ read
  delivered : deliveredBytes t.trace = deliveredBytes s.trace ++ out
  received : receivedBytes t.trace = receivedBytes s.trace

theorem Moved.trans {s t u : DriveState σ} {x y : HttpInput} {read out more extra : Bytes}
    (first : Moved s t x read out) (second : Moved t u y more extra) :
    Moved s u y (read ++ more) (out ++ extra) where
  input := second.input
  buffer := second.buffer.trans first.buffer
  beginPos := by rw [second.beginPos, first.beginPos, List.length_append, Nat.add_assoc]
  process := by rw [second.process, first.process, List.length_append, Nat.sub_sub]
  readLeft := second.readLeft.trans first.readLeft
  socket := second.socket.trans first.socket
  consumed := by rw [second.consumed, first.consumed, List.append_assoc]
  delivered := by rw [second.delivered, first.delivered, List.append_assoc]
  received := second.received.trans first.received

theorem setInput_moved (s : DriveState σ) (y : HttpInput) : Moved s (s.setInput y) y [] [] :=
  ⟨rfl, rfl, rfl, rfl, rfl, rfl, by simp [DriveState.setInput], by simp [DriveState.setInput], rfl⟩

theorem fed_moved (s : DriveState σ) (y : HttpInput) (length : Nat) (result : InputResult) :
    Moved s ((s.setInput y).emit (.fed length result)) y [] [] :=
  ⟨rfl, rfl, rfl, rfl, rfl, rfl, by simp [DriveState.setInput, DriveState.emit, consumedBytes],
    by simp [DriveState.setInput, DriveState.emit, deliveredBytes],
    by simp [DriveState.setInput, DriveState.emit, receivedBytes]⟩

theorem offerSpan_moved {sink : Option (BodySink σ)} {s t : DriveState σ} {data : Bytes} {answer : Int}
    (h : offerSpan sink s data = some (answer, t)) :
    Moved s t s.reader.input [] (if answer = 0 then data else []) := by
  simp only [offerSpan] at h
  split at h
  · simp only [Option.some.injEq, Prod.mk.injEq] at h
    obtain ⟨rfl, rfl⟩ := h
    exact ⟨rfl, rfl, rfl, rfl, rfl, rfl, by simp [DriveState.emit, consumedBytes],
      by simp [DriveState.emit, deliveredBytes], by simp [DriveState.emit, receivedBytes]⟩
  · split at h
    · simp only [Option.some.injEq, Prod.mk.injEq] at h
      obtain ⟨rfl, rfl⟩ := h
      exact ⟨rfl, rfl, rfl, rfl, rfl, rfl, by simp [DriveState.emit, consumedBytes],
        by simp [DriveState.emit, deliveredBytes], by simp [DriveState.emit, receivedBytes]⟩
    · simp at h

/-- A sink that takes every span. -/
def Accepting (sink : Option (BodySink σ)) : Prop :=
  ∃ callback, sink = some callback ∧ ∀ context data, (callback context data).1 = 0

def takeAll : BodySink Unit := fun _ _ => (0, ())

theorem takeAll_accepting : Accepting (some takeAll) := ⟨takeAll, rfl, fun _ _ => rfl⟩

theorem offerSpan_accepting {sink : Option (BodySink σ)} (accepting : Accepting sink)
    (s : DriveState σ) (data : Bytes) : ∃ t, offerSpan sink s data = some (0, t) := by
  obtain ⟨callback, rfl, takes⟩ := accepting
  exact ⟨({ s with context := (callback s.context data).2 } : DriveState σ).emit (.offered data 0),
    by simp [offerSpan, takes]⟩

theorem settleTurn_moved (s : DriveState σ) (consumed : Nat) (result : InputResult)
    (within : consumed ≤ (unparsed s.reader).length) (paid : consumed ≤ s.processBudget)
    (bound : s.processBudget ≤ uint64Max) :
    Moved s (settleTurn s consumed result).1 s.reader.input
      ((unparsed s.reader).take consumed) [] := by
  have width : ((unparsed s.reader).take consumed).length = consumed := by
    rw [List.length_take]
    omega
  have left := subU64_of_le paid bound
  simp only [settleTurn]
  repeat' split
  all_goals
    exact ⟨rfl, rfl, by rw [width]; rfl, by rw [width]; exact left, rfl, rfl,
      by simp [DriveState.emit, consumedBytes, unparsed],
      by simp [DriveState.emit, deliveredBytes], by simp [DriveState.emit, receivedBytes]⟩

inductive Goes (t : DriveState σ) (consumed : Nat) : Turn → Prop where
  | complete (done : t.reader.input.messageComplete = true) : Goes t consumed (.stop .requestComplete)
  | drained (live : t.reader.input.messageComplete = false)
      (reached : t.reader.beginPos = t.reader.endPos) : Goes t consumed .leave
  | vain (live : t.reader.input.messageComplete = false)
      (more : t.reader.beginPos ≠ t.reader.endPos) (none : consumed = 0) : Goes t consumed .leave
  | next (live : t.reader.input.messageComplete = false)
      (more : t.reader.beginPos ≠ t.reader.endPos) (some : consumed ≠ 0) : Goes t consumed .next

theorem settleTurn_goes (s : DriveState σ) (consumed : Nat) {result : InputResult}
    (kind : result = .body ∨ result = .incomplete) :
    Goes (settleTurn s consumed result).1 consumed (settleTurn s consumed result).2 := by
  have mapped : mapInputResult result = .incomplete := by
    rcases kind with rfl | rfl <;> rfl
  have open_ : result ≠ .eofIncomplete := by
    rcases kind with rfl | rfl <;> simp
  simp only [settleTurn, mapped, reduceCtorEq, or_self, open_, ↓reduceIte]
  split
  · rename_i done
    exact .complete done
  · rename_i live
    have live : s.reader.input.messageComplete = false := eq_false_of_ne_true live
    split
    · rename_i reached
      exact .drained live reached
    · rename_i more
      split
      · rename_i none
        exact .vain live more none
      · rename_i some
        exact .next live more some

theorem settleTurn_complete (s : DriveState σ) (consumed : Nat) (result : InputResult)
    (done : s.reader.input.messageComplete = true) :
    (settleTurn s consumed result).2 = .stop .requestComplete := by
  simp [settleTurn, ckHttpInputComplete, DriveState.emit, done]

theorem settleTurn_refuse (s : DriveState σ) (consumed : Nat) {result : InputResult}
    (live : s.reader.input.messageComplete = false)
    (kind : result = .badRequest ∨ result = .tooLarge) :
    (settleTurn s consumed result).2 = .stop (mapInputResult result) := by
  rcases kind with rfl | rfl <;>
    simp [settleTurn, ckHttpInputComplete, DriveState.emit, live, mapInputResult]

/-- An input with a span that waits for its acknowledgement, and where that leads. -/
structure Held (x z : HttpInput) (n : Nat) : Prop where
  ack : ckHttpInputAckBody x = some (z, n)
  some : 0 < n
  live : x.messageComplete = false
  header : z.headerComplete = true
  next : z.messageComplete = true ∨ Ready z

theorem Held.span {x z : HttpInput} {n : Nat} (held : Held x z n) : x.pendingBodyLength ≠ 0 := by
  intro none
  have ack := held.ack
  simp [ckHttpInputAckBody, none] at ack

/-- The input of a reachable reader with room bytes buffered. -/
inductive InputSound (x : HttpInput) (room : Nat) : Prop where
  | ready (ready : Ready x) : InputSound x room
  | done (done : x.messageComplete = true) (idle : x.pendingBodyLength = 0)
      (header : x.headerComplete = true) : InputSound x room
  | held (z : HttpInput) (n : Nat) (held : Held x z n) (within : n ≤ room)
      (paid : n ≤ processBudgetBytes) : InputSound x room

structure ReaderSound (reader : ConnectionReader) : Prop where
  begins : reader.beginPos ≤ reader.buffer.length
  fits : reader.buffer.length ≤ readBufferBytes
  input : InputSound reader.input (unparsed reader).length

/-- At every step of a drive; a span is only held over from the drive before. -/
structure DriveSound (s : DriveState σ) : Prop where
  reader : ReaderSound s.reader
  reads : s.readBudget ≤ readBudgetBytes
  processes : s.processBudget ≤ processBudgetBytes
  fresh : s.reader.input.pendingBodyLength ≠ 0 → s.processBudget = processBudgetBytes

/-- What a turn can do. The machine's run is over the bytes the turn consumed, which
    are the first bytes of the slice it was given. -/
inductive TurnOutcome (sink : Option (BodySink σ)) (s : DriveState σ) : DriveState σ × Turn → Prop where
  | spent (empty : s.processBudget = 0) : TurnOutcome sink s (s, .stop .incomplete)
  | again (t : DriveState σ) (done : s.reader.input.messageComplete = true)
      (moved : Moved s t s.reader.input [] []) : TurnOutcome sink s (t, .stop .requestComplete)
  | refused (t : DriveState σ) (y z : HttpInput) (n : Nat) (result : ReadResult) (held : Held y z n)
      (within : n ≤ (slice s).length) (moved : Moved s t y [] []) (unwilling : ¬ Accepting sink)
      (kind : result = .bodyBackpressure ∨ result = .sinkError) :
      TurnOutcome sink s (t, .stop result)
  | acked (t : DriveState σ) (z : HttpInput) (n : Nat) (data : Bytes) (turn : Turn)
      (held : Held s.reader.input z n) (moved : Moved s t z ((slice s).take n) data)
      (goes : Goes t n turn) : TurnOutcome sink s (t, turn)
  | ran (t : DriveState σ) (read rest out : Bytes) (y : HttpInput) (turn : Turn)
      (ready : Ready s.reader.input) (cut : slice s = read ++ rest)
      (run : Steps inputMachine (settled s.reader.input) read out (settled y))
      (idle : y.pendingBodyLength = 0)
      (next : (y.messageComplete = true ∧ y.headerComplete = true) ∨ Ready y)
      (vain : read = [] → inputAct (settled y) rest = .wait)
      (moved : Moved s t y read out) (goes : Goes t read.length turn) :
      TurnOutcome sink s (t, turn)
  | complete (t : DriveState σ) (read rest : Bytes) (n : Nat) (e y : HttpInput)
      (ready : Ready s.reader.input) (cut : slice s = read ++ rest) (wide : 0 < n) (within : n ≤ rest.length)
      (run : Steps inputMachine (settled s.reader.input) read [] e)
      (ends : inputAct e rest = .halt n (.complete, y.request))
      (idle : y.pendingBodyLength = 0) (header : y.headerComplete = true)
      (done : y.messageComplete = true) (moved : Moved s t y (read ++ rest.take n) []) :
      TurnOutcome sink s (t, .stop .requestComplete)
  | rejected (t : DriveState σ) (fed : InputFeed) (result : ReadResult) (ready : Ready s.reader.input)
      (feeds : ckHttpInputFeed s.reader.input s.reader.beginPos (slice s) = fed)
      (kind : fed.result = .badRequest ∨ fed.result = .tooLarge)
      (told : result = mapInputResult fed.result)
      (within : fed.consumed ≤ (slice s).length) (next : Ready fed.input)
      (moved : Moved s t fed.input ((slice s).take fed.consumed) []) :
      TurnOutcome sink s (t, .stop result)

theorem slice_within (s : DriveState σ) :
    slice s <+: unparsed s.reader ∧ (slice s).length ≤ s.processBudget := by
  refine ⟨List.take_prefix _ _, ?_⟩
  rw [slice_length]
  split <;> omega

theorem settleTurn_slice {s t : DriveState σ} {y : HttpInput} {out : Bytes} {consumed : Nat}
    (result : InputResult) (sound : DriveSound s) (moved : Moved s t y [] out)
    (within : consumed ≤ (slice s).length) :
    Moved s (settleTurn t consumed result).1 y ((slice s).take consumed) out := by
  obtain ⟨prefixed, paid⟩ := slice_within s
  have same : unparsed t.reader = unparsed s.reader := by
    have begins := moved.beginPos
    simp only [List.length_nil, Nat.add_zero] at begins
    rw [unparsed, unparsed, moved.buffer, begins]
  have budget := moved.process
  have bound := sound.processes
  simp only [List.length_nil, Nat.sub_zero] at budget
  have settled := settleTurn_moved t consumed result
    (by rw [same]; exact Nat.le_trans within prefixed.length_le) (by omega)
    (by rw [budget]; exact Nat.le_trans bound (by decide))
  have taken : (unparsed t.reader).take consumed = (slice s).take consumed := by
    obtain ⟨rest, split⟩ := prefixed
    rw [same, ← split, List.take_append_of_le_length within]
  rw [taken] at settled
  simpa [moved.input] using moved.trans settled

inductive SpanOutcome (sink : Option (BodySink σ)) (s : DriveState σ) (fed : InputFeed) (z : HttpInput)
    (n : Nat) (data : Bytes) : DriveState σ × Turn → Prop where
  | refused (t : DriveState σ) (result : ReadResult) (moved : Moved s t fed.input [] [])
      (unwilling : ¬ Accepting sink) (kind : result = .bodyBackpressure ∨ result = .sinkError) :
      SpanOutcome sink s fed z n data (t, .stop result)
  | accepted (t : DriveState σ) (turn : Turn)
      (moved : Moved s t z ((slice s).take (fed.consumed + n)) data)
      (goes : Goes t (fed.consumed + n) turn) : SpanOutcome sink s fed z n data (t, turn)

def spanOf (s : DriveState σ) (fed : InputFeed) : Bytes :=
  spanBytes s.reader.buffer fed.bodyData fed.bodyLength

theorem acceptSpan_eq (sink : Option (BodySink σ)) (s : DriveState σ) (feedLength : Nat)
    (fed : InputFeed) : acceptSpan sink s feedLength fed =
      match offerSpan sink s (spanOf s fed) with
      | none => (s, .stop .sinkError)
      | some (answer, s) =>
        if answer = bodySinkWouldBlock then (s, .stop .bodyBackpressure)
        else if answer ≠ 0 then (s, .stop .sinkError)
        else match ckHttpInputAckBody s.reader.input with
          | none => (s, .stop .ioError)
          | some (input, bodyConsumed) =>
            if bodyConsumed > feedLength - fed.consumed then (s.setInput input, .stop .ioError)
            else settleTurn (s.setInput input) (fed.consumed + bodyConsumed) fed.result := by
  unfold acceptSpan spanOf spanBytes
  cases fed.bodyData with
  | none => rfl
  | some address => rfl

theorem afterFeed_span (sink : Option (BodySink σ)) {s : DriveState σ} (fed : InputFeed)
    {z : HttpInput} {n : Nat} (sound : DriveSound s) (kind : fed.result = .body)
    (some : fed.bodyLength ≠ 0) (held : Held fed.input z n)
    (within : fed.consumed + n ≤ (slice s).length) :
    SpanOutcome sink s fed z n (spanOf s fed) (afterFeed sink s fed) := by
  have consumed : ¬ fed.consumed > (slice s).length := by omega
  have begun := fed_moved s fed.input (slice s).length fed.result
  simp only [afterFeed, consumed, ↓reduceIte, ne_eq, some, not_false_eq_true]
  generalize (s.setInput fed.input).emit (.fed (slice s).length fed.result) = t at begun
  have data : spanOf t fed = spanOf s fed := by rw [spanOf, begun.buffer, spanOf]
  rw [acceptSpan_eq, data]
  cases offer : offerSpan sink t (spanOf s fed) with
  | none =>
    refine .refused t .sinkError begun ?_ (.inr rfl)
    intro accepting
    obtain ⟨u, takes⟩ := offerSpan_accepting accepting t (spanOf s fed)
    simp [offer] at takes
  | some offered =>
    obtain ⟨answer, u⟩ := offered
    have told := begun.trans (offerSpan_moved offer)
    rw [begun.input] at told
    have unwilling : answer ≠ 0 → ¬ Accepting sink := by
      intro refusal accepting
      obtain ⟨v, takes⟩ := offerSpan_accepting accepting t (spanOf s fed)
      simp only [offer, Option.some.injEq, Prod.mk.injEq] at takes
      exact refusal takes.1
    simp only
    by_cases block : answer = bodySinkWouldBlock
    · have refusal : answer ≠ 0 := by
        rw [block]
        decide
      simp only [block, ↓reduceIte]
      exact .refused u .bodyBackpressure (by simpa [refusal] using told) (unwilling refusal) (.inl rfl)
    · by_cases refusal : answer = 0
      · simp only [refusal, ↓reduceIte, ne_eq, not_true_eq_false]
        have fits : ¬ n > (slice s).length - fed.consumed := by omega
        have plain : (0 : Int) ≠ bodySinkWouldBlock := by decide
        simp only [plain, ↓reduceIte, told.input, held.ack, fits, kind]
        have acked := told.trans (setInput_moved u z)
        simp only [refusal, ↓reduceIte, List.append_nil, List.nil_append] at acked
        exact .accepted _ _ (settleTurn_slice .body sound acked within)
          (settleTurn_goes _ _ (.inl rfl))
      · simp only [block, ↓reduceIte, ne_eq, refusal, not_false_eq_true]
        exact .refused u .sinkError (by simpa [refusal] using told) (unwilling refusal) (.inr rfl)

theorem afterFeed_plain (sink : Option (BodySink σ)) {s : DriveState σ} (fed : InputFeed)
    (within : fed.consumed ≤ (slice s).length) (none : fed.bodyLength = 0) :
    afterFeed sink s fed = settleTurn
      ((s.setInput fed.input).emit (.fed (slice s).length fed.result)) fed.consumed fed.result := by
  have consumed : ¬ fed.consumed > (slice s).length := by omega
  simp only [afterFeed, consumed, ↓reduceIte, none, ne_eq, not_true_eq_false]

theorem afterFeed_moved (sink : Option (BodySink σ)) {s : DriveState σ} (fed : InputFeed)
    (sound : DriveSound s) (within : fed.consumed ≤ (slice s).length) (none : fed.bodyLength = 0) :
    Moved s (afterFeed sink s fed).1 fed.input ((slice s).take fed.consumed) [] := by
  rw [afterFeed_plain sink fed within none]
  exact settleTurn_slice fed.result sound (fed_moved s fed.input (slice s).length fed.result) within

theorem afterFeed_rejected {sink : Option (BodySink σ)} {s : DriveState σ} {fed : InputFeed}
    (sound : DriveSound s) (ready : Ready s.reader.input)
    (feeds : ckHttpInputFeed s.reader.input s.reader.beginPos (slice s) = fed)
    (kind : fed.result = .badRequest ∨ fed.result = .tooLarge)
    (within : fed.consumed ≤ (slice s).length) (none : fed.bodyLength = 0)
    (next : Ready fed.input) : TurnOutcome sink s (afterFeed sink s fed) := by
  have moved := afterFeed_moved sink fed sound within none
  rw [afterFeed_plain sink fed within none] at moved ⊢
  have stops := settleTurn_refuse
    ((s.setInput fed.input).emit (.fed (slice s).length fed.result)) fed.consumed next.live kind
  rw [← Prod.mk.eta (p := settleTurn _ _ _), stops]
  exact .rejected _ fed _ ready feeds kind rfl within next moved

/-- A feed from a ready input, by what it answered. -/
theorem afterFeed_ready {sink : Option (BodySink σ)} {s : DriveState σ} {fed : InputFeed}
    (sound : DriveSound s) (ready : Ready s.reader.input)
    (feeds : ckHttpInputFeed s.reader.input s.reader.beginPos (slice s) = fed) :
    TurnOutcome sink s (afterFeed sink s fed) := by
  have outcome := ckHttpInputFeed_outcome (a := s.reader.beginPos) (s := slice s) ready
  rw [feeds] at outcome
  cases outcome with
  | span head data rest read y z cut nonempty run within lead held size live ack header next =>
    have nonzero : 0 < data.length := List.length_pos_iff.mpr nonempty
    have width : (slice s).length = head.length + data.length + rest.length := by
      rw [cut, List.length_append, List.length_append]
    have all : read + (head.length + data.length - read) = (head ++ data).length := by
      rw [List.length_append]
      omega
    have kept : Held y z (head.length + data.length - read) := ⟨ack, by omega, live, header, next⟩
    have spans := afterFeed_span sink
      ⟨.body, y, read, some (s.reader.beginPos + head.length), data.length⟩ sound rfl
      (by simp only; omega) kept (by simp only; omega)
    have bytes : spanOf s ⟨.body, y, read, some (s.reader.beginPos + head.length), data.length⟩ =
        data := spanBytes_cut cut
    have taken : (slice s).take (head ++ data).length = head ++ data := by
      rw [cut, List.take_left]
    rw [bytes] at spans
    generalize afterFeed sink s
      ⟨.body, y, read, some (s.reader.beginPos + head.length), data.length⟩ = answer at spans
    cases spans with
    | refused t result moved unwilling kind =>
      exact .refused t y z _ result kept (by omega) moved unwilling kind
    | accepted t turn moved goes =>
      simp only [all, taken] at moved goes
      rw [← (ack_settles ack).1] at run
      refine .ran t (head ++ data) rest data z turn ready cut run (ack_settles ack).2 ?_ ?_ moved goes
      · exact next.imp (fun done => ⟨done, header⟩) id
      · intro empty
        exact absurd (List.append_eq_nil_iff.mp empty).2 nonempty
  | quiet read rest y pointer cut run waits next =>
    have taken : (slice s).take read.length = read := by
      rw [cut, List.take_left]
    have within : read.length ≤ (slice s).length := by
      rw [cut, List.length_append]
      omega
    have moved := afterFeed_moved sink ⟨.incomplete, y, read.length, pointer, 0⟩
      sound within rfl
    have plain := afterFeed_plain sink ⟨.incomplete, y, read.length, pointer, 0⟩
      within rfl
    simp only [taken] at moved
    rw [plain] at moved ⊢
    exact .ran _ read rest [] y _ ready cut run next.no_span (.inr next) (fun _ => waits) moved
      (settleTurn_goes _ _ (.inr rfl))
  | complete read rest n e y cut run ends wide within idle header done =>
    have taken : (slice s).take (read.length + n) = read ++ rest.take n := by
      rw [cut, List.take_append, List.take_of_length_le (by omega), Nat.add_sub_cancel_left]
    have fits : read.length + n ≤ (slice s).length := by
      rw [cut, List.length_append]
      omega
    have moved := afterFeed_moved sink ⟨.complete, y, read.length + n, none, 0⟩
      sound fits rfl
    have plain := afterFeed_plain sink ⟨.complete, y, read.length + n, none, 0⟩
      fits rfl
    simp only [taken] at moved
    rw [plain] at moved ⊢
    have stops := settleTurn_complete ((s.setInput y).emit (.fed (slice s).length .complete))
      (read.length + n) .complete done
    rw [← Prod.mk.eta (p := settleTurn _ _ _), stops]
    exact .complete _ read rest n e y ready cut wide within run ends idle header done moved
  | refuse result read rest n consumed e y cut run ends kind within reported next =>
    exact afterFeed_rejected sound ready feeds kind within rfl next
  | overflow read rest consumed y cut run reported full next =>
    have within : consumed ≤ (slice s).length := by
      rw [cut, List.length_append]
      omega
    exact afterFeed_rejected sound ready feeds (.inr rfl) within rfl next

def heldFeed (x : HttpInput) : InputFeed := ⟨.body, x, 0, x.pendingBodyData, x.pendingBodyLength⟩

theorem feed_held {x : HttpInput} (span : x.pendingBodyLength ≠ 0) (a : Nat) (s : Bytes) :
    ckHttpInputFeed x a s = heldFeed x := by
  simp [ckHttpInputFeed, span, heldFeed]

theorem feed_done {x : HttpInput} (done : x.messageComplete = true) (idle : x.pendingBodyLength = 0)
    (a : Nat) (s : Bytes) : ckHttpInputFeed x a s = ⟨.complete, x, 0, none, 0⟩ := by
  simp [ckHttpInputFeed, idle, done]

theorem processOne_held (sink : Option (BodySink σ)) {s : DriveState σ} {z : HttpInput} {n : Nat}
    (sound : DriveSound s) (held : Held s.reader.input z n) :
    n ≤ (slice s).length ∧ SpanOutcome sink s (heldFeed s.reader.input) z n
      (spanOf s (heldFeed s.reader.input)) (processOne sink s) := by
  have span := held.span
  have budget := sound.fresh span
  have room : n ≤ (unparsed s.reader).length ∧ n ≤ processBudgetBytes := by
    cases sound.reader.input with
    | ready ready => exact absurd ready.no_span span
    | done done idle header => exact absurd idle span
    | held z' n' held' within paid =>
      have same := held'.ack
      rw [held.ack, Option.some.injEq, Prod.mk.injEq] at same
      omega
  have fits : n ≤ (slice s).length := by
    have whole : (unparsed s.reader).length = s.reader.available := List.length_drop
    rw [slice_length]
    split <;> omega
  have some : s.processBudget ≠ 0 := by
    rw [budget]
    decide
  refine ⟨fits, ?_⟩
  rw [processOne_eq, if_neg some, feed_held span]
  exact afterFeed_span _ _ sound rfl span held (by simp only [heldFeed]; omega)

theorem processOne_outcome (sink : Option (BodySink σ)) {s : DriveState σ} (sound : DriveSound s) :
    TurnOutcome sink s (processOne sink s) := by
  rw [processOne_eq]
  by_cases empty : s.processBudget = 0
  · rw [if_pos empty]
    exact .spent empty
  · rw [if_neg empty]
    cases sound.reader.input with
    | ready ready => exact afterFeed_ready sound ready rfl
    | done done idle header =>
      rw [feed_done done idle]
      have moved := afterFeed_moved sink ⟨.complete, s.reader.input, 0, none, 0⟩
        sound (Nat.zero_le _) rfl
      have plain := afterFeed_plain sink ⟨.complete, s.reader.input, 0, none, 0⟩
        (Nat.zero_le (slice s).length) rfl
      rw [plain] at moved ⊢
      have stops := settleTurn_complete
        ((s.setInput s.reader.input).emit (.fed (slice s).length .complete)) 0 .complete done
      rw [← Prod.mk.eta (p := settleTurn _ _ _), stops]
      exact .again _ done (by simpa using moved)
    | held z n held within paid =>
      obtain ⟨fits, spans⟩ := processOne_held sink sound held
      rw [processOne_eq, if_neg empty] at spans
      generalize afterFeed sink s
        (ckHttpInputFeed s.reader.input s.reader.beginPos (slice s)) = answer at spans
      cases spans with
      | refused t result moved unwilling kind =>
        exact .refused t s.reader.input z n result held fits moved unwilling kind
      | accepted t turn moved goes =>
        simp only [heldFeed, Nat.zero_add] at moved goes
        exact .acked t z n _ turn held moved goes

theorem turn_outcome {sink : Option (BodySink σ)} {s t : DriveState σ} {turn : Turn} (sound : DriveSound s)
    (turned : processOne sink s = (t, turn)) : TurnOutcome sink s (t, turn) := by
  rw [← turned]
  exact processOne_outcome sink sound

end CkartaReaderTurns
