import Ckarta.ReaderRetry
import Ckarta.ReaderProgress

/-!
The reader's counters and the span it may be holding, in every state of every drive: the
positions stay in the buffer, the two budgets count down by exactly what was received and
consumed, and a span lies between begin and end until it is acknowledged.
-/
namespace CkartaReaderRange
open MachineWord PrefixMachine CkartaHttpParser CkartaHttpInput CkartaInputMachine CkartaInputStream
  CkartaConnectionReader CkartaReaderSteps CkartaReaderTurns CkartaReaderRuns
  CkartaReaderRetry CkartaReaderProgress
variable {σ : Type}

/-- A span that waits for its acknowledgement lies in buffer[begin..end) and was formed within
    one processing budget. -/
def SpanInside (reader : ConnectionReader) : Prop :=
  reader.input.pendingBodyLength ≠ 0 → ∃ address, reader.input.pendingBodyData = some address ∧
    reader.beginPos ≤ address ∧ address + reader.input.pendingBodyLength ≤ reader.endPos ∧
    reader.input.pendingBodyLength ≤ processBudgetBytes

/-- The bookkeeping of a drive: every counter is what the trace says it must be. -/
structure InRange (s : DriveState σ) : Prop where
  begins : s.reader.beginPos ≤ s.reader.endPos
  fits : s.reader.endPos ≤ readBufferBytes
  reads : s.readBudget + (receivedBytes s.trace).length = readBudgetBytes
  processes : s.processBudget + (consumedBytes s.trace).length = processBudgetBytes
  span : SpanInside s.reader

def receiveLength (t : DriveState σ) : Nat :=
  if readBufferBytes - t.reader.endPos < t.readBudget then readBufferBytes - t.reader.endPos
  else t.readBudget

inductive ComesToRecv (sink : Option (BodySink σ)) (s t : DriveState σ) : Prop where
  | drained (empty : ¬ s.reader.beginPos < s.reader.endPos) (room : makeRoom s = (t, none))
  | left (u : DriveState σ) (more : s.reader.beginPos < s.reader.endPos)
      (turned : processOne sink s = (u, .leave)) (room : makeRoom u = (t, none))

/-- The two checks of a turn that the code makes on itself. -/
structure ChecksPass (s : DriveState σ) : Prop where
  consumed : (ckHttpInputFeed s.reader.input s.reader.beginPos (slice s)).consumed ≤ (slice s).length
  acknowledged : (ckHttpInputFeed s.reader.input s.reader.beginPos (slice s)).bodyLength ≠ 0 →
    ∃ z n, ckHttpInputAckBody (ckHttpInputFeed s.reader.input s.reader.beginPos (slice s)).input = some (z, n) ∧
      n ≤ (slice s).length - (ckHttpInputFeed s.reader.input s.reader.beginPos (slice s)).consumed

/-- What a turn does with a span that was waiting: it leaves everything where it was, or the
    sink has taken exactly the bytes of the span. -/
def SpanStays (sink : Option (BodySink σ)) (s : DriveState σ) : Prop :=
  s.reader.input.pendingBodyLength ≠ 0 →
    SamePlace (processOne sink s).1.reader s.reader ∨
      (deliveredBytes (processOne sink s).1.trace = deliveredBytes s.trace ++
          spanBytes s.reader.buffer s.reader.input.pendingBodyData s.reader.input.pendingBodyLength ∧
        (processOne sink s).1.reader.input.pendingBodyLength = 0)

theorem feed_span_inside {x : HttpInput} {a : Nat} {s : Bytes} (ready : Ready x)
    (span : (ckHttpInputFeed x a s).input.pendingBodyLength ≠ 0) :
    ∃ address, (ckHttpInputFeed x a s).input.pendingBodyData = some address ∧ a ≤ address ∧
      address + (ckHttpInputFeed x a s).input.pendingBodyLength ≤ a + s.length := by
  have outcome := ckHttpInputFeed_outcome (a := a) (s := s) ready
  generalize ckHttpInputFeed x a s = fed at outcome span
  cases outcome with
  | span head data rest read y z cut nonempty run within lead held size live ack header next =>
    refine ⟨a + head.length, held, by omega, ?_⟩
    dsimp only
    rw [size, cut, List.length_append, List.length_append]
    omega
  | quiet read rest y pointer cut run waits next => exact absurd next.no_span span
  | complete read rest n e y cut run ends wide within idle header done => exact absurd idle span
  | refuse result read rest n consumed e y cut run ends kind within reported next =>
    exact absurd next.no_span span
  | overflow read rest consumed y cut run reported full next => exact absurd next.no_span span

theorem samePlace_inside {left right : ConnectionReader} (same : SamePlace left right)
    (inside : SpanInside right) : SpanInside left := by
  obtain ⟨input, buffer, begins⟩ := same
  unfold SpanInside ConnectionReader.endPos at inside ⊢
  rw [input, buffer, begins]
  exact inside

theorem turn_clears {sink : Option (BodySink σ)} {s t : DriveState σ} {turn : Turn}
    (outcome : TurnOutcome sink s (t, turn)) :
    t.reader.input.pendingBodyLength = 0 ∨ Refused turn ∨ SamePlace t.reader s.reader := by
  cases outcome with
  | spent empty => exact .inr (.inr ⟨rfl, rfl, rfl⟩)
  | again _ done moved =>
    exact .inr (.inr ⟨moved.input, moved.buffer, by simpa using moved.beginPos⟩)
  | refused _ y z n result held within moved unwilling kind =>
    refine .inr (.inl ?_)
    rcases kind with rfl | rfl
    · exact .inl rfl
    · exact .inr rfl
  | acked _ z n data turn held moved goes =>
    rw [moved.input]
    exact .inl (ack_settles held.ack).2
  | ran _ read rest out y turn ready cut run idle next vain moved goes =>
    rw [moved.input]
    exact .inl idle
  | complete _ read rest n e y ready cut wide within run ends idle header done moved =>
    rw [moved.input]
    exact .inl idle
  | rejected _ fed result ready feeds kind told within next moved =>
    rw [moved.input]
    exact .inl next.no_span

theorem refused_place {sink : Option (BodySink σ)} {s : DriveState σ} (sound : DriveSound s)
    (refused : Refused (processOne sink s).2) :
    SamePlace (processOne sink s).1.reader { s.reader with
      input := (ckHttpInputFeed s.reader.input s.reader.beginPos (slice s)).input } := by
  cases sound.reader.input with
  | ready ready =>
    obtain ⟨fed, z, n, budget, feeds, kind, some, kept, within, lead⟩ := refused_span ready refused
    have spans : SpanOutcome sink s fed z n (spanOf s fed) (processOne sink s) := by
      rw [processOne_eq, if_neg budget, feeds]
      exact afterFeed_span _ _ sound kind some kept within
    rw [feeds]
    exact (span_turn within spans).1 refused
  | done done idle header => exact absurd refused (done_takes done idle)
  | held z n held within paid =>
    obtain ⟨fits, outcome⟩ := processOne_held sink sound held
    rw [feed_held held.span]
    exact (span_turn (by simpa [heldFeed] using fits) outcome).1 refused

theorem turn_inside {sink : Option (BodySink σ)} {s t : DriveState σ} {turn : Turn} (sound : DriveSound s)
    (inside : SpanInside s.reader) (turned : processOne sink s = (t, turn)) : SpanInside t.reader := by
  rcases turn_clears (turn_outcome sound turned) with clear | refused | same
  · intro span
    exact absurd clear span
  · have refusing : Refused (processOne sink s).2 := by rw [turned]; exact refused
    have place := refused_place sound refusing
    rw [turned] at place
    apply samePlace_inside place
    by_cases held : s.reader.input.pendingBodyLength = 0
    · intro span
      have ready : Ready s.reader.input := by
        cases sound.reader.input with
        | ready ready => exact ready
        | done done idle header => exact absurd refusing (done_takes done idle)
        | held z n kept within paid => exact absurd held kept.span
      obtain ⟨address, pointer, low, high⟩ := feed_span_inside ready span
      have short := (slice_within s).1.length_le
      have budget := (slice_within s).2
      have begins := sound.reader.begins
      have processes := sound.processes
      simp only [unparsed, List.length_drop] at short
      refine ⟨address, pointer, low, ?_, ?_⟩
      · simp only [ConnectionReader.endPos] at high ⊢
        omega
      · dsimp only
        omega
    · rw [feed_held held]
      exact inside
  · exact samePlace_inside same inside

theorem leave_clears {sink : Option (BodySink σ)} {s u : DriveState σ} (outcome : TurnOutcome sink s (u, .leave)) :
    u.reader.input.pendingBodyLength = 0 := by
  cases outcome with
  | acked _ z n data turn held moved goes =>
    rw [moved.input]
    exact (ack_settles held.ack).2
  | ran _ read rest out y turn ready cut run idle next vain moved goes =>
    rw [moved.input]
    exact idle

theorem drained_clears {s : DriveState σ} (sound : DriveSound s)
    (empty : ¬ s.reader.beginPos < s.reader.endPos) : s.reader.input.pendingBodyLength = 0 := by
  cases sound.reader.input with
  | ready ready => exact ready.no_span
  | done done idle header => exact idle
  | held z n held within paid =>
    have some := held.some
    simp only [unparsed, List.length_drop] at within
    simp only [ConnectionReader.endPos] at empty
    omega

theorem turn_moves {sink : Option (BodySink σ)} {s t : DriveState σ} {turn : Turn} (sound : DriveSound s)
    (outcome : TurnOutcome sink s (t, turn)) : ∃ read out, Progress s t read out [] := by
  cases outcome with
  | spent empty => exact ⟨[], [], .refl s⟩
  | again _ done moved =>
    exact ⟨[], [], moved_progress sound.reader moved (List.nil_append (slice s)).symm⟩
  | refused _ y z n result held within moved unwilling kind =>
    exact ⟨[], [], moved_progress sound.reader moved (List.nil_append (slice s)).symm⟩
  | acked _ z n data turn held moved goes =>
    exact ⟨_, _, moved_progress sound.reader moved (take_slice s n)⟩
  | ran _ read rest out y turn ready cut run idle next vain moved goes =>
    exact ⟨_, _, moved_progress sound.reader moved cut⟩
  | complete _ read rest n e y ready cut wide within run ends idle header done moved =>
    have split : slice s = read ++ rest.take n ++ rest.drop n := by
      rw [cut, List.append_assoc, List.take_append_drop]
    exact ⟨_, _, moved_progress sound.reader moved split⟩
  | rejected _ fed result ready feeds kind told within next moved =>
    exact ⟨_, _, moved_progress sound.reader moved (take_slice s fed.consumed)⟩

theorem step_moves {sink : Option (BodySink σ)} {s t : DriveState σ} {answer : Option ReadResult}
    (sound : DriveSound s) (step : driveStep sink s = (t, answer)) :
    ∃ read out got, Progress s t read out got := by
  rcases driveStep_cases sound step with ⟨turn, outcome, more, kind⟩ | ⟨u, outcome, more, next, received⟩ |
    ⟨drained, received⟩
  · obtain ⟨read, out, progress⟩ := turn_moves sound outcome
    exact ⟨read, out, [], progress⟩
  · obtain ⟨read, out, progress⟩ := turn_moves sound outcome
    obtain ⟨got, kept⟩ := receive_kept received
    exact ⟨_, _, _, progress.trans (received_progress kept)⟩
  · obtain ⟨got, kept⟩ := receive_kept received
    exact ⟨_, _, _, received_progress kept⟩

theorem step_inside {sink : Option (BodySink σ)} {s t : DriveState σ} {answer : Option ReadResult}
    (sound : DriveSound s) (inside : SpanInside s.reader) (step : driveStep sink s = (t, answer)) :
    SpanInside t.reader := by
  rcases driveStep_inv step with ⟨more, ⟨turned, goes⟩ | ⟨result, turned, told⟩⟩ |
    ⟨more, u, turned, received⟩ | ⟨drained, received⟩
  · exact turn_inside sound inside turned
  · exact turn_inside sound inside turned
  · have outcome := turn_outcome sound turned
    have next := (turn_sound sound outcome).2 (by simp)
    have receives := receiveStep_outcome next.reader.begins next.reader.fits next.reads
    rw [received] at receives
    obtain ⟨got, kept⟩ := receive_kept receives
    intro span
    rw [kept.input] at span
    exact absurd (leave_clears outcome) span
  · have receives := receiveStep_outcome sound.reader.begins sound.reader.fits sound.reads
    rw [received] at receives
    obtain ⟨got, kept⟩ := receive_kept receives
    intro span
    rw [kept.input] at span
    exact absurd (drained_clears sound drained) span

theorem step_inRange {sink : Option (BodySink σ)} {s t : DriveState σ} {answer : Option ReadResult}
    (sound : DriveSound s) (range : InRange s) (step : driveStep sink s = (t, answer)) : InRange t := by
  have reader := (driveStep_sound sound step).1
  obtain ⟨read, out, got, progress⟩ := step_moves sound step
  refine ⟨reader.begins, reader.fits, ?_, ?_, step_inside sound range.span step⟩
  · have reads := range.reads
    have left := progress.readLeft
    rw [progress.received, List.length_append]
    omega
  · have processes := range.processes
    have paid := progress.paid
    rw [progress.consumed, List.length_append]
    omega

theorem visits_inRange {sink : Option (BodySink σ)} {s t : DriveState σ} (sound : DriveSound s)
    (range : InRange s) (visits : Visits sink s t) : InRange t := by
  induction visits with
  | refl => exact range
  | step first rest ih => exact ih ((driveStep_sound sound first).2 rfl) (step_inRange sound range first)

theorem startDrive_inRange {reader : ConnectionReader} (sound : ReaderSound reader)
    (inside : SpanInside reader) (socket : Socket) (context : σ) :
    InRange (startDrive reader socket context) :=
  ⟨sound.begins, sound.fits, rfl, rfl, inside⟩

theorem drive_inRange {reader : ConnectionReader} (sound : ReaderSound reader) (inside : SpanInside reader)
    (socket : Socket) (sink : Option (BodySink σ)) (context : σ) :
    InRange (ckHttpConnectionReaderDrive reader socket sink context).1 := by
  obtain ⟨last, visits, stops⟩ := drive_returns reader socket sink context
  have start := startDrive_sound sound socket context
  exact step_inRange (visits_sound start visits)
    (visits_inRange start (startDrive_inRange sound inside socket context) visits) stops

theorem reachable_inside {reader : ConnectionReader} (reachable : Reachable reader) : SpanInside reader := by
  induction reachable with
  | init => exact fun span => absurd rfl span
  | attach queue before ih => exact ih
  | drive socket sink context before ih =>
    exact (drive_inRange (reachable_sound before) ih socket sink context).span
  | next before recycles ih =>
    rw [nextRequest_eq recycles]
    exact fun span => absurd rfl span

theorem recv_inRange {sink : Option (BodySink σ)} {s t : DriveState σ} (sound : DriveSound s)
    (comes : ComesToRecv sink s t) :
    driveStep sink s = receiveOne t ∧ receiveLength t ≠ 0 ∧
      t.reader.endPos + receiveLength t ≤ readBufferBytes ∧ receiveLength t ≤ t.readBudget ∧
      t.reader.input.pendingBodyLength = 0 := by
  have made : ∀ u : DriveState σ, DriveSound u → u.reader.input.pendingBodyLength = 0 →
      makeRoom u = (t, none) → receiveLength t ≠ 0 ∧
        t.reader.endPos + receiveLength t ≤ readBufferBytes ∧ receiveLength t ≤ t.readBudget ∧
        t.reader.input.pendingBodyLength = 0 := by
    intro u sound clear made
    have room := makeRoom_cases u
    rw [made] at room
    cases room with
    | ready t room reads left spare =>
      have begins := sound.reader.begins
      have fits := sound.reader.fits
      have space : t.reader.endPos < readBufferBytes := by
        rw [room.reader]
        split
        · rename_i full
          simp only [ConnectionReader.compact, ConnectionReader.endPos, List.length_drop] at full spare ⊢
          omega
        · rename_i free
          simp only [ConnectionReader.endPos] at free ⊢
          omega
      have budget := room.read
      refine ⟨?_, ?_, ?_, by rw [room.input.1]; exact clear⟩
      all_goals
        unfold receiveLength
        split <;> omega
  cases comes with
  | drained empty room =>
    refine ⟨by simp [driveStep, empty, receiveStep, room], made s sound (drained_clears sound empty) room⟩
  | left u more turned room =>
    have outcome := turn_outcome sound turned
    have next := (turn_sound sound outcome).2 (by simp)
    exact ⟨by simp [driveStep, more, turned, receiveStep, room], made u next (leave_clears outcome) room⟩

theorem feed_checked {x : HttpInput} {a : Nat} {s : Bytes} (ready : Ready x) :
    (ckHttpInputFeed x a s).consumed + (ckHttpInputFeed x a s).bodyLength ≤ s.length ∧
      ((ckHttpInputFeed x a s).bodyLength ≠ 0 → ∃ z n, ckHttpInputAckBody (ckHttpInputFeed x a s).input = some (z, n) ∧
        n ≤ s.length - (ckHttpInputFeed x a s).consumed) := by
  have outcome := ckHttpInputFeed_outcome (a := a) (s := s) ready
  generalize ckHttpInputFeed x a s = fed at outcome ⊢
  cases outcome with
  | span head data rest read y z cut nonempty run within lead held size live ack header next =>
    rw [cut, List.length_append, List.length_append]
    dsimp only
    refine ⟨by omega, fun _ => ⟨z, _, ack, by omega⟩⟩
  | quiet read rest y pointer cut run waits next =>
    rw [cut, List.length_append]
    exact ⟨Nat.le_add_right _ _, fun some => absurd rfl some⟩
  | complete read rest n e y cut run ends wide within idle header done =>
    rw [cut, List.length_append]
    exact ⟨Nat.add_le_add_left within _, fun some => absurd rfl some⟩
  | refuse result read rest n consumed e y cut run ends kind within reported next =>
    exact ⟨within, fun some => absurd rfl some⟩
  | overflow read rest consumed y cut run reported full next =>
    rw [cut, List.length_append]
    exact ⟨Nat.le_trans reported (Nat.le_add_right _ _), fun some => absurd rfl some⟩

/-- Neither check of a turn can fail. -/
theorem checks_pass {s : DriveState σ} (sound : DriveSound s) : ChecksPass s := by
  cases sound.reader.input with
  | ready ready =>
    obtain ⟨within, acknowledged⟩ := feed_checked (a := s.reader.beginPos) (s := slice s) ready
    exact ⟨Nat.le_trans (Nat.le_add_right _ _) within, acknowledged⟩
  | done done idle header =>
    constructor
    · rw [feed_done done idle]
      exact Nat.zero_le _
    · rw [feed_done done idle]
      exact fun some => absurd rfl some
  | held z n held within paid =>
    have fits : n ≤ (slice s).length := by
      have budget := sound.fresh held.span
      have whole : (unparsed s.reader).length = s.reader.available := List.length_drop
      rw [slice_length]
      split <;> omega
    constructor
    · rw [feed_held held.span]
      exact Nat.zero_le _
    · rw [feed_held held.span]
      exact fun _ => ⟨z, n, held.ack, fits⟩

theorem turn_checked {sink : Option (BodySink σ)} {s t : DriveState σ} (sound : DriveSound s) :
    processOne sink s ≠ (t, .stop .ioError) := by
  intro turned
  have outcome := turn_outcome sound turned
  cases outcome with
  | refused _ y z n result held within moved unwilling kind => simp at kind
  | acked _ z n data turn held moved goes => cases goes
  | ran _ read rest out y turn ready cut run idle next vain moved goes => cases goes
  | rejected _ fed result ready feeds kind told within next moved =>
    rcases kind with kind | kind <;> simp [kind, mapInputResult] at told

theorem span_stays {sink : Option (BodySink σ)} {s : DriveState σ} (sound : DriveSound s) :
    SpanStays sink s := by
  intro span
  cases sound.reader.input with
  | ready ready => exact absurd ready.no_span span
  | done done idle header => exact absurd idle span
  | held z n held within paid =>
    obtain ⟨fits, outcome⟩ := processOne_held sink sound held
    generalize processOne sink s = turned at outcome ⊢
    cases outcome with
    | refused t result moved unwilling kind =>
      exact .inl ⟨moved.input, moved.buffer, by simpa using moved.beginPos⟩
    | accepted t turn moved goes =>
      refine .inr ⟨moved.delivered, ?_⟩
      rw [moved.input]
      exact (ack_settles held.ack).2

theorem span_blocks_next {reader : ConnectionReader} (sound : ReaderSound reader)
    (span : reader.input.pendingBodyLength ≠ 0) : ckHttpConnectionReaderNextRequest reader = none := by
  cases sound.input with
  | ready ready => exact absurd ready.no_span span
  | done done idle header => exact absurd idle span
  | held z n held within paid => simp [ckHttpConnectionReaderNextRequest, ckHttpInputComplete, held.live]

/-- Every state of every drive of a reachable reader is in range, the state it returns in
    too, and a span that waits stays where it is until the sink has taken it. -/
theorem reader_in_range {reader : ConnectionReader} (reachable : Reachable reader) (socket : Socket)
    (sink : Option (BodySink σ)) (context : σ) :
    (∀ s, Visits sink (startDrive reader socket context) s → InRange s ∧ ChecksPass s ∧
      (∀ t, processOne sink s ≠ (t, .stop .ioError)) ∧ SpanStays sink s ∧
      ∀ t, ComesToRecv sink s t → driveStep sink s = receiveOne t ∧ receiveLength t ≠ 0 ∧
        t.reader.endPos + receiveLength t ≤ readBufferBytes ∧ receiveLength t ≤ t.readBudget ∧
        t.reader.input.pendingBodyLength = 0) ∧
    InRange (ckHttpConnectionReaderDrive reader socket sink context).1 ∧
    (reader.input.pendingBodyLength ≠ 0 → ckHttpConnectionReaderNextRequest reader = none) := by
  have sound := reachable_sound reachable
  have inside := reachable_inside reachable
  have start := startDrive_sound sound socket context
  refine ⟨?_, drive_inRange sound inside socket sink context, span_blocks_next sound⟩
  intro s visits
  have here := visits_sound start visits
  refine ⟨visits_inRange start (startDrive_inRange sound inside socket context) visits, checks_pass here,
    fun t => turn_checked here, span_stays here, fun t comes => recv_inRange here comes⟩

/-- A body of two bytes that comes behind its header, with a sink that takes nothing yet. -/
def waitingReader : ConnectionReader :=
  (ckHttpConnectionReaderDrive ckHttpConnectionReaderInit (postHead ++ [.data 97 [98]]) (some refuseAll) ()).1.reader

theorem waitingReader_reachable : Reachable waitingReader := .drive _ _ _ .init

theorem waitingReader_waits : waitingReader.input.pendingBodyLength = 2 := by decide +kernel

theorem reader_in_range_waiting :
    waitingReader.input.pendingBodyLength = 2 ∧ SpanInside waitingReader ∧
      ckHttpConnectionReaderNextRequest waitingReader = none ∧
      InRange (ckHttpConnectionReaderDrive waitingReader [] (some takeAll) ()).1 := by
  obtain ⟨states, last, blocked⟩ := reader_in_range waitingReader_reachable [] (some takeAll) ()
  exact ⟨waitingReader_waits, (states _ (.refl _)).1.span, blocked (by rw [waitingReader_waits]; decide), last⟩

def OffersOnly (span : Bytes) (before after : List DriveEvent) : Prop :=
  ∃ more, after = before ++ more ∧ ∀ bytes answer, .offered bytes answer ∈ more → bytes = span

theorem OffersOnly.refl (span : Bytes) (before : List DriveEvent) : OffersOnly span before before :=
  ⟨[], by simp, by simp⟩

theorem OffersOnly.trans {span : Bytes} {before middle after : List DriveEvent}
    (first : OffersOnly span before middle) (second : OffersOnly span middle after) :
    OffersOnly span before after := by
  obtain ⟨more, rfl, left⟩ := first
  obtain ⟨extra, rfl, right⟩ := second
  refine ⟨more ++ extra, by simp, ?_⟩
  intro bytes answer member
  rcases List.mem_append.mp member with inside | inside
  · exact left bytes answer inside
  · exact right bytes answer inside

theorem settleTurn_trace (s : DriveState σ) (consumed : Nat) (result : InputResult) :
    ∃ bytes, (settleTurn s consumed result).1.trace = s.trace ++ [.consumed bytes] := by
  refine ⟨(s.reader.buffer.drop s.reader.beginPos).take consumed, ?_⟩
  simp only [settleTurn]
  repeat' split
  all_goals rfl

theorem offerSpan_trace {sink : Option (BodySink σ)} {s t : DriveState σ} {data : Bytes} {answer : Int}
    (offered : offerSpan sink s data = some (answer, t)) : t.trace = s.trace ++ [.offered data answer] := by
  simp only [offerSpan] at offered
  split at offered
  · simp only [Option.some.injEq, Prod.mk.injEq] at offered
    obtain ⟨rfl, rfl⟩ := offered
    rfl
  · split at offered
    · simp only [Option.some.injEq, Prod.mk.injEq] at offered
      obtain ⟨rfl, rfl⟩ := offered
      rfl
    · cases offered

theorem settleTurn_offers (span : Bytes) (s : DriveState σ) (consumed : Nat) (result : InputResult) :
    OffersOnly span s.trace (settleTurn s consumed result).1.trace := by
  obtain ⟨bytes, trace⟩ := settleTurn_trace s consumed result
  exact ⟨[.consumed bytes], trace, by simp⟩

theorem processOne_offers (sink : Option (BodySink σ)) (s : DriveState σ) :
    OffersOnly (spanOf s (ckHttpInputFeed s.reader.input s.reader.beginPos (slice s))) s.trace
      (processOne sink s).1.trace := by
  rw [processOne_eq]
  split
  · exact .refl _ _
  · generalize ckHttpInputFeed s.reader.input s.reader.beginPos (slice s) = fed
    have begun : OffersOnly (spanOf s fed) s.trace
        ((s.setInput fed.input).emit (.fed (slice s).length fed.result)).trace :=
      ⟨[.fed (slice s).length fed.result], rfl, by simp⟩
    simp only [afterFeed]
    split
    · exact begun
    · split
      · rw [acceptSpan_eq]
        split
        · exact begun
        · rename_i answer t offered
          have held : OffersOnly (spanOf s fed) s.trace t.trace :=
            begun.trans ⟨[.offered (spanOf s fed) answer], offerSpan_trace offered, by simp⟩
          split
          · exact held
          · split
            · exact held
            · split
              · exact held
              · split
                · exact held
                · exact held.trans (settleTurn_offers _ _ _ _)
      · exact begun.trans (settleTurn_offers _ _ _ _)

theorem receiveStep_offers (span : Bytes) (s : DriveState σ) :
    OffersOnly span s.trace (receiveStep s).1.trace := by
  have receives (t : DriveState σ) : OffersOnly span t.trace (receiveOne t).1.trace := by
    simp only [receiveOne]
    split
    · rename_i bytes left received
      exact ⟨[.received _ bytes], rfl, by simp⟩
    · exact .refl _ _
    · exact .refl _ _
    · exact .refl _ _
    · exact .refl _ _
  rcases receiveStep_cases s with ⟨t, result, ends, room⟩ | ⟨t, received, room⟩
  · rw [ends]
    cases room with
    | spent more empty => exact .refl _ _
    | full left full front => exact .refl _ _
    | starved t room empty spare =>
      rw [← room.trace]
      exact .refl _ _
  · rw [received]
    cases room with
    | ready t room reads left spare =>
      rw [← room.trace]
      exact receives t

theorem step_offers {sink : Option (BodySink σ)} {s t : DriveState σ} {answer : Option ReadResult}
    (step : driveStep sink s = (t, answer)) :
    OffersOnly (spanOf s (ckHttpInputFeed s.reader.input s.reader.beginPos (slice s))) s.trace t.trace := by
  have turn := processOne_offers sink s
  rcases driveStep_inv step with ⟨more, ⟨turned, goes⟩ | ⟨result, turned, told⟩⟩ |
    ⟨more, u, turned, received⟩ | ⟨drained, received⟩
  · rw [turned] at turn
    exact turn
  · rw [turned] at turn
    exact turn
  · rw [turned] at turn
    have later := receiveStep_offers (spanOf s (ckHttpInputFeed s.reader.input s.reader.beginPos (slice s))) u
    rw [received] at later
    exact turn.trans later
  · have later := receiveStep_offers (spanOf s (ckHttpInputFeed s.reader.input s.reader.beginPos (slice s))) s
    rw [received] at later
    exact later

theorem fed_span_fits {s : DriveState σ} (sound : DriveSound s) (inside : SpanInside s.reader) :
    (ckHttpInputFeed s.reader.input s.reader.beginPos (slice s)).bodyLength ≤ processBudgetBytes := by
  have budget := (slice_within s).2
  have processes := sound.processes
  cases sound.reader.input with
  | ready ready =>
    have within := (feed_checked (a := s.reader.beginPos) (s := slice s) ready).1
    omega
  | done done idle header =>
    rw [feed_done done idle]
    exact Nat.zero_le _
  | held z n held within paid =>
    obtain ⟨address, pointer, low, high, short⟩ := inside held.span
    rw [feed_held held.span]
    exact short

theorem spanBytes_length_le (memory : Bytes) (pointer : Option Nat) (length : Nat) :
    (spanBytes memory pointer length).length ≤ length := by
  cases pointer with
  | none => exact Nat.zero_le _
  | some address => exact List.length_take_le _ _

/-- No span that a drive has offered is longer than the budget. -/
def OffersFit (trace : List DriveEvent) : Prop :=
  ∀ bytes answer, .offered bytes answer ∈ trace → bytes.length ≤ processBudgetBytes

theorem step_fits {sink : Option (BodySink σ)} {s t : DriveState σ} {answer : Option ReadResult}
    (sound : DriveSound s) (inside : SpanInside s.reader) (fit : OffersFit s.trace)
    (step : driveStep sink s = (t, answer)) : OffersFit t.trace := by
  obtain ⟨more, trace, offers⟩ := step_offers step
  intro bytes told member
  rw [trace] at member
  rcases List.mem_append.mp member with before | new
  · exact fit bytes told before
  · rw [offers bytes told new]
    exact Nat.le_trans (spanBytes_length_le _ _ _) (fed_span_fits sound inside)

theorem visits_fits {sink : Option (BodySink σ)} {s t : DriveState σ} (sound : DriveSound s)
    (range : InRange s) (fit : OffersFit s.trace) (visits : Visits sink s t) : OffersFit t.trace := by
  induction visits with
  | refl => exact fit
  | step first rest ih =>
    exact ih ((driveStep_sound sound first).2 rfl) (step_inRange sound range first)
      (step_fits sound range.span fit first)

theorem drive_fits {reader : ConnectionReader} (reachable : Reachable reader) (socket : Socket)
    (sink : Option (BodySink σ)) (context : σ) :
    OffersFit (ckHttpConnectionReaderDrive reader socket sink context).1.trace := by
  have sound := reachable_sound reachable
  have inside := reachable_inside reachable
  have start := startDrive_sound sound socket context
  obtain ⟨last, visits, stops⟩ := drive_returns reader socket sink context
  have range := startDrive_inRange sound inside socket context
  have empty : OffersFit (startDrive reader socket context).trace := by
    intro bytes answer member
    cases member
  exact step_fits (visits_sound start visits) (visits_inRange start range visits).span
    (visits_fits start range empty visits) stops

theorem visits_extends {sink : Option (BodySink σ)} {s t : DriveState σ} (visits : Visits sink s t) :
    s.trace <+: t.trace := by
  induction visits with
  | refl => exact List.prefix_rfl
  | step first rest ih =>
    obtain ⟨more, trace, -⟩ := step_offers first
    exact List.IsPrefix.trans ⟨more, trace.symm⟩ ih

theorem queue_takes {queue : CkartaRequestBody.RequestBody} {data : Bytes} (opened : queue.eof = false)
    (sane : queue.error = false)
    (drained : CkartaRequestBody.bodyUsed queue.head queue.tail ≤ 32768)
    (short : data.length ≤ processBudgetBytes) : (writeBodyQueue queue data).1 = 0 := by
  have room : ¬ CkartaRequestBody.bodyBufferBytes - CkartaRequestBody.bodyUsed queue.head queue.tail <
      data.length := by
    simp only [CkartaRequestBody.bodyBufferBytes, processBudgetBytes] at short ⊢
    omega
  have used : ¬ CkartaRequestBody.bodyUsed queue.head queue.tail > CkartaRequestBody.bodyBufferBytes := by
    simp only [CkartaRequestBody.bodyBufferBytes]
    omega
  unfold writeBodyQueue CkartaRequestBody.ckHttpRequestBodyWrite
  by_cases empty : data.length = 0
  · simp [empty]
  · simp [empty, opened, sane, used, room]

def waitingSpan (reader : ConnectionReader) : Bytes :=
  spanBytes reader.buffer reader.input.pendingBodyData reader.input.pendingBodyLength

def offering (s : DriveState σ) : DriveState σ :=
  (s.setInput s.reader.input).emit (.fed (slice s).length .body)

theorem taken_turn {sink : Option (BodySink σ)} {s u : DriveState σ} {z : HttpInput} {n : Nat}
    (sound : DriveSound s) (held : Held s.reader.input z n)
    (offered : offerSpan sink (offering s) (waitingSpan s.reader) = some (0, u)) :
    processOne sink s = settleTurn (u.setInput z) n .body := by
  have span := held.span
  have budget : s.processBudget ≠ 0 := by
    rw [sound.fresh span]
    decide
  have fits := (processOne_held sink sound held).1
  have input : u.reader.input = s.reader.input := (offerSpan_moved offered).input
  have ack := held.ack
  rw [← input] at ack
  have whole : ¬ n > (slice s).length := by omega
  have accepts : acceptSpan sink (offering s) (slice s).length (heldFeed s.reader.input) =
      settleTurn (u.setInput z) n .body := by
    rw [acceptSpan_eq, show spanOf (offering s) _ = waitingSpan s.reader from rfl, offered]
    simp [ack, whole, heldFeed, bodySinkWouldBlock]
  rw [processOne_eq, if_neg budget, feed_held span]
  simp only [afterFeed, heldFeed, Nat.not_lt_zero, gt_iff_lt, ↓reduceIte, ne_eq, span, not_false_eq_true]
  exact accepts

theorem queue_turn {queue : CkartaRequestBody.RequestBody} {s : DriveState σ} (sound : DriveSound s)
    (inside : SpanInside s.reader) (attached : s.reader.bodyQueue = some queue)
    (opened : queue.eof = false) (sane : queue.error = false)
    (drained : CkartaRequestBody.bodyUsed queue.head queue.tail ≤ 32768)
    (span : s.reader.input.pendingBodyLength ≠ 0) :
    ¬ Refused (processOne none s).2 ∧
      s.trace ++ [.fed (slice s).length .body, .offered (waitingSpan s.reader) 0] <+:
        (processOne none s).1.trace := by
  cases sound.reader.input with
  | ready ready => exact absurd ready.no_span span
  | done done idle header => exact absurd idle span
  | held z n held within paid =>
    have taken : (writeBodyQueue queue (waitingSpan s.reader)).1 = 0 := by
      obtain ⟨address, pointer, low, high, short⟩ := inside span
      exact queue_takes opened sane drained (Nat.le_trans (spanBytes_length_le _ _ _) short)
    obtain ⟨u, offered⟩ : ∃ u, offerSpan none (offering s) (waitingSpan s.reader) = some (0, u) := by
      have there : (offering s).reader.bodyQueue = some queue := attached
      simp [offerSpan, there, taken]
    obtain ⟨bytes, trace⟩ := settleTurn_trace (u.setInput z) n .body
    rw [taken_turn sound held offered]
    refine ⟨settleTurn_takes _ _ _, ?_⟩
    have before : u.trace = (offering s).trace ++ [.offered (waitingSpan s.reader) 0] :=
      offerSpan_trace offered
    rw [trace, show (u.setInput z).trace = u.trace from rfl, before,
      show (offering s).trace = s.trace ++ [.fed (slice s).length .body] from rfl]
    exact ⟨[.consumed bytes], by simp⟩

/-- The trace of a drive goes on from the trace of its first turn. -/
theorem drive_extends {reader : ConnectionReader} {socket : Socket} {sink : Option (BodySink σ)} {context : σ}
    (more : reader.beginPos < reader.endPos) :
    (processOne sink (startDrive reader socket context)).1.trace <+:
      (ckHttpConnectionReaderDrive reader socket sink context).1.trace := by
  obtain ⟨last, visits, stops⟩ := drive_returns reader socket sink context
  generalize turn : startDrive reader socket context = s at visits ⊢
  have inside : s.reader.beginPos < s.reader.endPos := by
    rw [← turn]
    exact more
  have first : ∀ {t : DriveState σ} {answer : Option ReadResult}, driveStep sink s = (t, answer) →
      (processOne sink s).1.trace <+: t.trace := by
    intro t answer step
    rcases driveStep_inv step with ⟨more, ⟨turned, goes⟩ | ⟨result, turned, told⟩⟩ |
      ⟨more, u, turned, received⟩ | ⟨drained, received⟩
    · exact turned ▸ List.prefix_rfl
    · exact turned ▸ List.prefix_rfl
    · obtain ⟨extra, trace, -⟩ := receiveStep_offers [] u
      rw [received] at trace
      rw [turned]
      exact ⟨extra, trace.symm⟩
    · exact absurd inside drained
  cases visits with
  | refl => exact first stops
  | step next rest =>
    obtain ⟨extra, trace, -⟩ := step_offers stops
    exact (first next).trans ((visits_extends rest).trans ⟨extra, trace.symm⟩)

/-- Backpressure ends with a consumer that drains: no span is longer than half the queue, and
    once the queue holds no more than the other half the next drive hands the span over. -/
theorem backpressure_ends {reader : ConnectionReader} (reachable : Reachable reader) (socket : Socket)
    (context : σ) :
    reader.input.pendingBodyLength ≤ 32768 ∧
    (∀ (sink : Option (BodySink σ)) bytes answer,
      .offered bytes answer ∈ (ckHttpConnectionReaderDrive reader socket sink context).1.trace →
        bytes.length ≤ 32768) ∧
    (∀ queue, reader.bodyQueue = some queue → queue.eof = false → queue.error = false →
      CkartaRequestBody.bodyUsed queue.head queue.tail ≤ 32768 → reader.input.pendingBodyLength ≠ 0 →
      ¬ Refused (processOne none (startDrive reader socket context)).2 ∧
        ∃ length rest, (ckHttpConnectionReaderDrive reader socket none context).1.trace =
          .fed length .body :: .offered (waitingSpan reader) 0 :: rest) := by
  have sound := reachable_sound reachable
  have inside := reachable_inside reachable
  refine ⟨?_, fun sink => drive_fits reachable socket sink context, ?_⟩
  · by_cases none : reader.input.pendingBodyLength = 0
    · rw [none]
      exact Nat.zero_le _
    · obtain ⟨address, pointer, low, high, short⟩ := inside none
      exact short
  · intro queue attached opened sane drained span
    obtain ⟨takes, trace⟩ := queue_turn (startDrive_sound sound socket context) inside attached opened sane
      drained span
    have more : reader.beginPos < reader.endPos := by
      obtain ⟨address, pointer, low, high, short⟩ := inside span
      omega
    obtain ⟨rest, whole⟩ := trace.trans (drive_extends more)
    exact ⟨takes, _, rest, whole.symm⟩

/-- The queue of the reader in the example above, empty: the two bytes that wait are taken. -/
theorem backpressure_ends_waiting :
    ∃ length rest, (ckHttpConnectionReaderDrive (ckHttpConnectionReaderAttachBodyQueue waitingReader
        (some (CkartaRequestBody.ckHttpRequestBodyInit fun _ => 0))) [] none ()).1.trace =
      .fed length .body :: .offered (ascii "ab") 0 :: rest := by
  have span : waitingSpan waitingReader = ascii "ab" := by decide +kernel
  rw [← span]
  exact ((backpressure_ends (.attach _ waitingReader_reachable) [] ()).2.2 _ rfl rfl rfl (by decide)
    (by rw [ckHttpConnectionReaderAttachBodyQueue, waitingReader_waits]; decide)).2

end CkartaReaderRange
