import Ckarta.ReaderRuns
import Ckarta.RejectedSlice
import Ckarta.HeaderRejection

/-!
A reader after it has refused a request. Nothing records the refusal: the next drive feeds
the unparsed bytes to whatever state the refused feed left behind. This state refuses
them again and again, unless they begin with a line break that a chunked decoder likes.
-/
namespace CkartaReaderRejection
open MachineWord PrefixMachine CkartaHttpParser CkartaHttpChunked CkartaHttpInput CkartaChunkedMachine
  CkartaInputMachine CkartaInputStream CkartaConnectionReader CkartaReaderSteps CkartaReaderTurns
  CkartaReaderRuns CkartaChunkedRejection CkartaRejectedSlice CkartaHeaderRejection
variable {σ : Type}

def offeredBytes (trace : List DriveEvent) : Bytes :=
  trace.flatMap fun
    | .offered bytes _ => bytes
    | _ => []

/-- An input whose header block can no longer be accepted. -/
structure HeaderLost (x : HttpInput) : Prop where
  live : x.messageComplete = false
  idle : x.pendingBodyLength = 0
  header : x.headerComplete = false
  parser_open : x.parser.complete = false
  doomed : Doomed x.parser.buffer

/-- A decoder that is stuck on the first bytes of what is left to parse. -/
structure BodyLost (x : HttpInput) (left : Bytes) : Prop where
  live : x.messageComplete = false
  idle : x.pendingBodyLength = 0
  header : x.headerComplete = true
  mode : x.request.bodyMode = .chunked
  stuck : ∃ s, s <+: left ∧ s.length ≤ processBudgetBytes ∧ Stuck x.chunked s

theorem stuck_live {d : ChunkedDecoder} {s : Bytes} (stuck : Stuck d s) : d.state ≠ .done ∧ s ≠ [] := by
  cases stuck with
  | crlf state a b rest cut other => exact ⟨by simp [state], by simp [cut]⟩
  | data state nonempty full => exact ⟨by simp [state], nonempty⟩
  | lineFull state full b rest cut notCr notLf =>
    exact ⟨by rcases state with state | state <;> simp [state], by simp [cut]⟩
  | spent state spent nonempty => exact ⟨by simp [state], nonempty⟩
  | broken state w z cut ordinary broken =>
    refine ⟨by rcases state with state | state <;> simp [state], ?_⟩
    rcases broken with ⟨r, rfl⟩ | ⟨b, r, rfl, -⟩ <;> simp [cut]
  | sizeBad state w t cut ordinary bad => exact ⟨by simp [state], by simp [cut]⟩
  | sizeZero state w t cut ordinary zero after => exact ⟨by simp [state], by simp [cut]⟩
  | trailerBad state w t cut ordinary line bad => exact ⟨by simp [state], by simp [cut]⟩
  | trailerNext state w t cut ordinary line after => exact ⟨by simp [state], by simp [cut]⟩

theorem chunkedFeed_refused {d last : ChunkedDecoder} {s : Bytes} (sound : Sound d)
    (live : d.state ≠ .done) (refused : refusal d s = some last) :
    ∃ result, (result = .badRequest ∨ result = .tooLarge) ∧
      ckHttpChunkedFeed d s = .refuse result last := by
  have outcome := chunkedFeedLoop_outcome (s := s) 0 sound live
  simp only [ckHttpChunkedFeed, live, ↓reduceIte]
  rw [refusal] at refused
  generalize chunkedFeedLoop d 0 s = fed at outcome refused
  cases outcome with
  | span head data rest e cut nonempty run => simp [refusalOf] at refused
  | quiet read rest e cut run waits => simp [refusalOf, ChunkedFeed.stop] at refused
  | complete read rest e last' cut run ends => simp [refusalOf] at refused
  | refuse read rest e last' result cut run kind ends =>
    have told : (ChunkedFeed.refuse result last').result = result := rfl
    rw [refusalOf, told, if_pos kind, Option.some.injEq] at refused
    exact ⟨result, kind, by rw [← refused]; rfl⟩
  | overflow read rest last' cut run full =>
    simp only [refusalOf, ChunkedFeed.refuse, or_true, ↓reduceIte, Option.some.injEq] at refused
    exact ⟨.tooLarge, .inr rfl, by rw [refused]⟩

theorem chunkedFeed_refusal {d : ChunkedDecoder} {s : Bytes} (live : d.state ≠ .done)
    (kind : (ckHttpChunkedFeed d s).result = .badRequest ∨ (ckHttpChunkedFeed d s).result = .tooLarge) :
    refusal d s = some (ckHttpChunkedFeed d s).decoder := by
  simp only [ckHttpChunkedFeed, live, ↓reduceIte] at kind ⊢
  rw [refusal, refusalOf, if_pos kind]

theorem sound_ready {x : HttpInput} {room : Nat} (sound : InputSound x room)
    (live : x.messageComplete = false) (idle : x.pendingBodyLength = 0) : Ready x := by
  cases sound with
  | ready ready => exact ready
  | done done idle header => simp [live] at done
  | held z n held within paid => exact absurd idle held.span

theorem settleTurn_quiet (s : DriveState σ) (consumed : Nat) (result : InputResult) :
    (settleTurn s consumed result).1.reader.input = s.reader.input ∧
      offeredBytes (settleTurn s consumed result).1.trace = offeredBytes s.trace ∧
      (s.reader.input.messageComplete = false → result ≠ .complete →
        (settleTurn s consumed result).2 ≠ .stop .requestComplete) := by
  simp only [settleTurn]
  repeat' split
  all_goals refine ⟨rfl, by simp [DriveState.emit, offeredBytes], ?_⟩
  all_goals intro live other
  · rename_i done
    simp [ckHttpInputComplete, DriveState.emit, live] at done
  all_goals cases result <;> simp_all [mapInputResult]

theorem processOne_quiet (sink : Option (BodySink σ)) {s : DriveState σ} {fed : InputFeed}
    (feeds : ckHttpInputFeed s.reader.input s.reader.beginPos (slice s) = fed)
    (within : fed.consumed ≤ (slice s).length) (none : fed.bodyLength = 0)
    (live : fed.input.messageComplete = false) (other : fed.result ≠ .complete) :
    ((processOne sink s).1.reader.input = fed.input ∨
      ((processOne sink s).1 = s ∧ (processOne sink s).2 = .stop .incomplete)) ∧
      offeredBytes (processOne sink s).1.trace = offeredBytes s.trace ∧
      (processOne sink s).2 ≠ .stop .requestComplete := by
  rw [processOne_eq]
  split
  · exact ⟨.inr ⟨rfl, rfl⟩, rfl, by simp⟩
  · rw [feeds, afterFeed_plain _ _ within none]
    obtain ⟨input, offered, answer⟩ := settleTurn_quiet
      ((s.setInput fed.input).emit (.fed (slice s).length fed.result)) fed.consumed fed.result
    refine ⟨.inl input, ?_, answer live other⟩
    rw [offered]
    simp [DriveState.emit, DriveState.setInput, offeredBytes]

theorem receiveOne_quiet (s : DriveState σ) :
    (receiveOne s).1.reader.input = s.reader.input ∧
      offeredBytes (receiveOne s).1.trace = offeredBytes s.trace ∧
      (s.reader.input.messageComplete = false → (receiveOne s).2 ≠ some .requestComplete) := by
  simp only [receiveOne]
  split
  · exact ⟨rfl, by simp [DriveState.emit, offeredBytes], by simp⟩
  · refine ⟨by split <;> rfl, rfl, ?_⟩
    intro live
    simp [ckHttpInputEof, live, mapInputResult]
  · exact ⟨rfl, rfl, by simp⟩
  · exact ⟨rfl, rfl, by simp⟩
  · exact ⟨rfl, rfl, by simp⟩

theorem receiveStep_quiet (s : DriveState σ) :
    (receiveStep s).1.reader.input = s.reader.input ∧
      offeredBytes (receiveStep s).1.trace = offeredBytes s.trace ∧
      (s.reader.input.messageComplete = false → (receiveStep s).2 ≠ some .requestComplete) := by
  rcases receiveStep_cases s with ⟨t, result, ends, room⟩ | ⟨t, received, room⟩
  · rw [ends]
    cases room with
    | spent more empty => exact ⟨rfl, rfl, by simp⟩
    | full left full front => exact ⟨rfl, rfl, by simp⟩
    | starved t room empty spare => exact ⟨room.input.1, by rw [room.trace], by simp⟩
  · rw [received]
    cases room with
    | ready t room reads left spare =>
      have quiet := receiveOne_quiet t
      rwa [room.input.1, room.trace] at quiet

theorem feed_header_lost {x : HttpInput} {a : Nat} {s : Bytes} (lost : HeaderLost x) :
    HeaderLost (ckHttpInputFeed x a s).input ∧ (ckHttpInputFeed x a s).consumed ≤ s.length ∧
      (ckHttpInputFeed x a s).bodyLength = 0 ∧ (ckHttpInputFeed x a s).result ≠ .complete := by
  have fed := parserFeedLoop_doomed x.request 0 s lost.doomed
  simp only [ckHttpInputFeed, lost.idle, ne_eq, not_true_eq_false, ↓reduceIte, lost.live,
    Bool.false_eq_true, lost.header, Bool.not_false, ckHttpParserFeed, lost.parser_open]
  generalize parserFeedLoop x.request x.parser 0 s = answer at fed
  obtain ⟨result, parser, consumed, request⟩ := answer
  have short : consumed ≤ s.length := by simpa using fed.within
  have kept : HeaderLost { x with parser := parser, request := request } :=
    ⟨lost.live, lost.idle, lost.header, fed.complete.trans lost.parser_open, fed.doomed⟩
  cases result with
  | complete => exact absurd rfl fed.result
  | incomplete | badRequest | headerTooLarge =>
    simp only [feedHeader]
    exact ⟨kept, short, trivial, by simp⟩

theorem step_header_lost (sink : Option (BodySink σ)) {s : DriveState σ}
    (lost : HeaderLost s.reader.input) :
    HeaderLost (driveStep sink s).1.reader.input ∧
      offeredBytes (driveStep sink s).1.trace = offeredBytes s.trace ∧
      (driveStep sink s).2 ≠ some .requestComplete := by
  have received : ∀ t : DriveState σ, HeaderLost t.reader.input →
      HeaderLost (receiveStep t).1.reader.input ∧
        offeredBytes (receiveStep t).1.trace = offeredBytes t.trace ∧
        (receiveStep t).2 ≠ some .requestComplete := by
    intro t lost
    obtain ⟨input, offered, answer⟩ := receiveStep_quiet t
    exact ⟨by rw [input]; exact lost, offered, answer lost.live⟩
  obtain ⟨kept, within, none, other⟩ :=
    feed_header_lost (a := s.reader.beginPos) (s := slice s) lost
  obtain ⟨input, offered, answer⟩ := processOne_quiet sink rfl within none kept.live other
  have next : HeaderLost (processOne sink s).1.reader.input := by
    rcases input with same | ⟨same, -⟩
    · rw [same]
      exact kept
    · rw [same]
      exact lost
  simp only [driveStep]
  split
  · generalize processOne sink s = turned at next offered answer
    obtain ⟨t, turn⟩ := turned
    cases turn with
    | next => exact ⟨next, offered, by simp⟩
    | leave =>
      obtain ⟨also, silent, open_⟩ := received t next
      exact ⟨also, silent.trans offered, open_⟩
    | stop result =>
      refine ⟨next, offered, ?_⟩
      intro done
      exact answer (by rw [Option.some.inj done])
  · exact received s lost

theorem visits_header_lost {sink : Option (BodySink σ)} {s t : DriveState σ}
    (lost : HeaderLost s.reader.input) (visits : Visits sink s t) :
    HeaderLost t.reader.input ∧ offeredBytes t.trace = offeredBytes s.trace := by
  induction visits with
  | refl => exact ⟨lost, rfl⟩
  | step step rest ih =>
    obtain ⟨kept, offered, -⟩ := step_header_lost sink lost
    rw [step] at kept offered
    obtain ⟨also, silent⟩ := ih kept
    exact ⟨also, silent.trans offered⟩

/-- A reader that has refused its request for good. -/
inductive Lost (reader : ConnectionReader) : Prop where
  | header (lost : HeaderLost reader.input) : Lost reader
  | body (lost : BodyLost reader.input (unparsed reader)) : Lost reader

theorem feed_body_refused {x : HttpInput} {a : Nat} {s : Bytes} {last : ChunkedDecoder} (ready : Ready x)
    (header : x.headerComplete = true) (mode : x.request.bodyMode = .chunked)
    (refused : refusal x.chunked s = some last) :
    ∃ result, (result = .badRequest ∨ result = .tooLarge) ∧
      ckHttpInputFeed x a s = ⟨result, { x with chunked := last }, 0, none, 0⟩ := by
  obtain ⟨result, kind, feeds⟩ := chunkedFeed_refused ready.decoder_sound ready.decoder_live refused
  refine ⟨mapChunkedResult result, by rcases kind with rfl | rfl <;> simp [mapChunkedResult], ?_⟩
  simp only [ckHttpInputFeed, ready.no_span, ne_eq, not_true_eq_false, ↓reduceIte, ready.live,
    Bool.false_eq_true, header, Bool.not_true, feedBody, mode, feeds, ChunkedFeed.refuse]
  rcases kind with rfl | rfl <;> simp

theorem slice_start {reader : ConnectionReader} (socket : Socket) (context : σ) {s : Bytes}
    (front : s <+: unparsed reader) (short : s.length ≤ processBudgetBytes) :
    ∃ more, slice (startDrive reader socket context) = s ++ more := by
  obtain ⟨rest, split⟩ := front
  have long : s.length ≤ reader.available := by
    have width := congrArg List.length split
    simp only [List.length_append, unparsed, List.length_drop] at width
    simp only [ConnectionReader.available, ConnectionReader.endPos]
    omega
  have window : slice (startDrive reader socket context) = (unparsed reader).take
      (if reader.available < processBudgetBytes then reader.available else processBudgetBytes) := rfl
  rw [window, ← split, List.take_append]
  refine ⟨_, congrArg (· ++ _) (List.take_of_length_le ?_)⟩
  split <;> omega

theorem turn_refused (sink : Option (BodySink σ)) {s : DriveState σ} {y : HttpInput}
    {result : InputResult} (sound : DriveSound s) (paid : s.processBudget ≠ 0)
    (feeds : ckHttpInputFeed s.reader.input s.reader.beginPos (slice s) = ⟨result, y, 0, none, 0⟩)
    (kind : result = .badRequest ∨ result = .tooLarge) (live : y.messageComplete = false) :
    ∃ t, processOne sink s = (t, .stop (mapInputResult result)) ∧ Moved s t y [] [] ∧
      offeredBytes t.trace = offeredBytes s.trace := by
  have turn : processOne sink s =
      settleTurn ((s.setInput y).emit (.fed (slice s).length result)) 0 result := by
    rw [processOne_eq, if_neg paid, feeds]
    exact afterFeed_plain _ _ (Nat.zero_le _) rfl
  have begun := fed_moved s y (slice s).length result
  have silent : offeredBytes ((s.setInput y).emit (.fed (slice s).length result)).trace =
      offeredBytes s.trace := by
    simp [DriveState.emit, DriveState.setInput, offeredBytes]
  generalize (s.setInput y).emit (.fed (slice s).length result) = fed at turn begun silent
  have stops := settleTurn_refuse fed 0 (by rw [begun.input]; exact live) kind
  obtain ⟨-, offered, -⟩ := settleTurn_quiet fed 0 result
  refine ⟨(settleTurn fed 0 result).1, by rw [turn]; exact Prod.ext rfl stops, ?_, offered.trans silent⟩
  simpa using settleTurn_slice result sound begun (Nat.zero_le _)

theorem drive_body_lost {reader : ConnectionReader} (sound : ReaderSound reader)
    (lost : BodyLost reader.input (unparsed reader)) (socket : Socket) (sink : Option (BodySink σ))
    (context : σ) :
    Lost (ckHttpConnectionReaderDrive reader socket sink context).1.reader ∧
      offeredBytes (ckHttpConnectionReaderDrive reader socket sink context).1.trace = [] ∧
      (ckHttpConnectionReaderDrive reader socket sink context).2 ≠ .requestComplete := by
  obtain ⟨s, front, short, stuck⟩ := lost.stuck
  obtain ⟨more, whole⟩ := slice_start socket context front short
  obtain ⟨last, refused, stays⟩ := stuck_refusal stuck
  obtain ⟨live, nonempty⟩ := stuck_live stuck
  obtain ⟨result, kind, feeds⟩ := feed_body_refused (a := reader.beginPos)
    (sound_ready sound.input lost.live lost.idle) lost.header lost.mode (refusal_append live refused more)
  rw [← whole] at feeds
  obtain ⟨t, turn, moved, offered⟩ := turn_refused sink
    (startDrive_sound sound socket context) (by simp [startDrive, processBudgetBytes]) feeds kind lost.live
  have begins : reader.beginPos < reader.endPos := by
    have long := front.length_le
    have some_ := List.length_pos_iff.mpr nonempty
    simp only [unparsed, List.length_drop] at long
    simp only [ConnectionReader.endPos]
    omega
  rw [drive_stop (.refl _) begins turn]
  refine ⟨.body ?_, offered, by rcases kind with rfl | rfl <;> simp [mapInputResult]⟩
  have same : unparsed t.reader = unparsed reader := by
    rw [unparsed, moved.buffer, moved.beginPos]
    rfl
  rw [same, moved.input]
  exact ⟨lost.live, lost.idle, lost.header, lost.mode, s, front, short, stays⟩

/-- No drive of a lost reader offers a byte or completes the request. -/
theorem drive_lost {reader : ConnectionReader} (sound : ReaderSound reader) (lost : Lost reader)
    (socket : Socket) (sink : Option (BodySink σ)) (context : σ) :
    Lost (ckHttpConnectionReaderDrive reader socket sink context).1.reader ∧
      offeredBytes (ckHttpConnectionReaderDrive reader socket sink context).1.trace = [] ∧
      (ckHttpConnectionReaderDrive reader socket sink context).2 ≠ .requestComplete := by
  cases lost with
  | body lost => exact drive_body_lost sound lost socket sink context
  | header lost =>
    obtain ⟨last, visits, stops⟩ := drive_returns reader socket sink context
    obtain ⟨kept, silent⟩ := visits_header_lost (s := startDrive reader socket context) lost visits
    obtain ⟨next, offered, answer⟩ := step_header_lost sink kept
    rw [stops] at next offered answer
    exact ⟨.header next, offered.trans silent, fun done => answer (congrArg some done)⟩

/-- The calls on a reader that do not initialise it again. -/
inductive Later (start : ConnectionReader) : ConnectionReader → Prop where
  | refl : Later start start
  | attach {reader : ConnectionReader} (queue : Option CkartaRequestBody.RequestBody)
      (before : Later start reader) : Later start (ckHttpConnectionReaderAttachBodyQueue reader queue)
  | drive {reader : ConnectionReader} {σ : Type} (socket : Socket) (sink : Option (BodySink σ))
      (context : σ) (before : Later start reader) :
      Later start (ckHttpConnectionReaderDrive reader socket sink context).1.reader
  | next {reader next : ConnectionReader} (before : Later start reader)
      (recycles : ckHttpConnectionReaderNextRequest reader = some next) : Later start next

theorem lost_live {reader : ConnectionReader} (lost : Lost reader) :
    reader.input.messageComplete = false := by
  cases lost with
  | header lost => exact lost.live
  | body lost => exact lost.live

theorem later_lost {start reader : ConnectionReader} (sound : ReaderSound start) (lost : Lost start)
    (later : Later start reader) : ReaderSound reader ∧ Lost reader := by
  induction later with
  | refl => exact ⟨sound, lost⟩
  | attach queue before ih =>
    refine ⟨⟨ih.1.begins, ih.1.fits, ih.1.input⟩, ?_⟩
    cases ih.2 with
    | header lost => exact .header lost
    | body lost => exact .body lost
  | drive socket sink context before ih =>
    exact ⟨drive_sound ih.1 socket sink context, (drive_lost ih.1 ih.2 socket sink context).1⟩
  | next before recycles ih =>
    simp [ckHttpConnectionReaderNextRequest, ckHttpInputComplete, lost_live ih.2] at recycles

theorem feedBody_refused {y : HttpInput} {a h : Nat} {s : Bytes} (mode : y.request.bodyMode ≠ .none)
    (sound : y.request.bodyMode = .chunked → Sound y.chunked ∧ y.chunked.state ≠ .done)
    (kind : (feedBody y a h s).result = .badRequest ∨ (feedBody y a h s).result = .tooLarge) :
    y.request.bodyMode = .chunked ∧ (feedBody y a h s).consumed = h ∧
      ∃ last, refusal y.chunked s = some last ∧ (feedBody y a h s).input = { y with chunked := last } := by
  cases framing : y.request.bodyMode with
  | none => exact absurd framing mode
  | contentLength =>
    simp only [feedBody, framing] at kind
    generalize (if y.contentLengthRemaining < s.length then _ else _) = take at kind
    split at kind <;> simp at kind
  | chunked =>
    obtain ⟨sound, live⟩ := sound framing
    have refused : (ckHttpChunkedFeed y.chunked s).result = .badRequest ∨
        (ckHttpChunkedFeed y.chunked s).result = .tooLarge := by
      simp only [feedBody, framing] at kind
      split at kind
      · simp at kind
      · cases answer : (ckHttpChunkedFeed y.chunked s).result <;> simp_all [mapChunkedResult]
    obtain ⟨last, refusal_⟩ : ∃ last, refusal y.chunked s = some last :=
      ⟨_, chunkedFeed_refusal live refused⟩
    obtain ⟨result, told, feeds⟩ := chunkedFeed_refused sound live refusal_
    refine ⟨rfl, ?_, _, refusal_, ?_⟩
    · simp [feedBody, framing, feeds, ChunkedFeed.refuse]
    · rcases told with rfl | rfl <;> simp [feedBody, framing, feeds, ChunkedFeed.refuse]

/-- The decoder refused the bytes behind the ones the feed consumed. -/
structure BodyRefused (fed : InputFeed) (s : Bytes) : Prop where
  live : fed.input.messageComplete = false
  idle : fed.input.pendingBodyLength = 0
  header : fed.input.headerComplete = true
  mode : fed.input.request.bodyMode = .chunked
  decoder : ∃ d, Sound d ∧ d.state ≠ .done ∧ refusal d (s.drop fed.consumed) = some fed.input.chunked

theorem body_refused {y : HttpInput} {a h : Nat} {s : Bytes} {fed : InputFeed}
    (live : y.messageComplete = false) (idle : y.pendingBodyLength = 0) (header : y.headerComplete = true)
    (mode : y.request.bodyMode ≠ .none)
    (sound : y.request.bodyMode = .chunked → Sound y.chunked ∧ y.chunked.state ≠ .done)
    (feeds : feedBody y a h (s.drop h) = fed) (kind : fed.result = .badRequest ∨ fed.result = .tooLarge) :
    BodyRefused fed s := by
  rw [← feeds] at kind
  obtain ⟨chunked, consumed, last, refused, input⟩ := feedBody_refused mode sound kind
  obtain ⟨sound, open_⟩ := sound chunked
  rw [feeds] at consumed input
  exact ⟨by rw [input]; exact live, by rw [input]; exact idle, by rw [input]; exact header,
    by rw [input]; exact chunked, y.chunked, sound, open_, by rw [consumed, input]; exact refused⟩

theorem feed_refused {x : HttpInput} {a : Nat} {s : Bytes} {fed : InputFeed} (ready : Ready x)
    (feeds : ckHttpInputFeed x a s = fed) (kind : fed.result = .badRequest ∨ fed.result = .tooLarge) :
    HeaderLost fed.input ∨ BodyRefused fed s := by
  by_cases header : x.headerComplete = true
  · simp only [ckHttpInputFeed, ready.no_span, ne_eq, not_true_eq_false, ↓reduceIte, ready.live,
      Bool.false_eq_true, header, Bool.not_true] at feeds
    exact .inr (body_refused (h := 0) ready.live ready.no_span header (ready.has_body header)
      (fun _ => ⟨ready.decoder_sound, ready.decoder_live⟩) feeds kind)
  · have opened : x.headerComplete = false := eq_false_of_ne_true header
    simp only [ckHttpInputFeed, ready.no_span, ne_eq, not_true_eq_false, ↓reduceIte, ready.live,
      Bool.false_eq_true, opened, Bool.not_false, ckHttpParserFeed, ready.parser_open opened] at feeds
    have refuses := parserFeedLoop_refuses x.request x.parser 0 s
    generalize parserFeedLoop x.request x.parser 0 s = answer at feeds refuses
    obtain ⟨result, parser, consumed, request⟩ := answer
    have lost : (result = .badRequest ∨ result = .headerTooLarge) →
        HeaderLost { x with parser := parser, request := request } := by
      intro bad
      obtain ⟨doomed, same⟩ := refuses bad
      exact ⟨ready.live, ready.no_span, opened, same.trans (ready.parser_open opened), doomed⟩
    cases result with
    | incomplete =>
      simp only [feedHeader] at feeds
      simp [← feeds] at kind
    | badRequest =>
      simp only [feedHeader] at feeds
      exact .inl (by rw [← feeds]; exact lost (.inl rfl))
    | headerTooLarge =>
      simp only [feedHeader] at feeds
      exact .inl (by rw [← feeds]; exact lost (.inr rfl))
    | complete =>
      simp only [feedHeader] at feeds
      split at feeds
      · simp [← feeds] at kind
      · rename_i body
        refine .inr (body_refused (y := completeHeader x parser request) ready.live ready.no_span rfl
          ?_ ?_ feeds kind)
        · intro none
          simp [bodyless, none] at body
        · intro chunked
          have fresh : (completeHeader x parser request).chunked = ckHttpChunkedInit :=
            if_pos chunked
          rw [fresh]
          exact ⟨init_sound, by simp [ckHttpChunkedInit]⟩

theorem revives_append {d : ChunkedDecoder} {s t : Bytes} (front : s <+: t) (revives : Revives d s) :
    Revives d t := by
  obtain ⟨rest, rfl⟩ := front
  obtain ⟨u, rfl, kind⟩ := revives
  exact ⟨u ++ rest, rfl, kind⟩

theorem turn_lost {sink : Option (BodySink σ)} {s t : DriveState σ} {result : ReadResult}
    (sound : DriveSound s) (turn : processOne sink s = (t, .stop result))
    (kind : result = .badRequest ∨ result = .tooLarge)
    (safe : ¬ Revives t.reader.input.chunked (unparsed t.reader)) : Lost t.reader := by
  have outcome := turn_outcome sound turn
  cases outcome with
  | spent empty => simp at kind
  | again _ done moved => simp at kind
  | refused _ y z n _ held within moved unwilling stops => rcases stops with rfl | rfl <;> simp at kind
  | acked _ z n data _ held moved goes => cases goes; simp at kind
  | ran _ read rest out y _ ready cut run idle next vain moved goes => cases goes; simp at kind
  | complete _ read rest n e y ready cut wide within run ends idle header done moved => simp at kind
  | rejected _ fed _ ready feeds refused told within next moved =>
    have short := slice_within s
    have processes := sound.processes
    obtain ⟨-, -, left⟩ := moved_reader sound.reader moved (take_slice s fed.consumed)
    have front : (slice s).drop fed.consumed <+: unparsed t.reader := by
      obtain ⟨more, split⟩ := short.1
      refine ⟨more, ?_⟩
      have whole := left
      rw [← split] at whole
      nth_rewrite 1 [take_slice s fed.consumed] at whole
      rw [List.append_assoc] at whole
      exact List.append_cancel_left whole
    rcases feed_refused ready feeds refused with lost | body
    · exact .header (by rw [moved.input]; exact lost)
    · obtain ⟨d, decoder, live, stops⟩ := body.decoder
      rw [moved.input] at safe
      have stuck := refusal_stuck decoder live stops (fun revives => safe (revives_append front revives))
      refine .body ?_
      rw [moved.input]
      refine ⟨body.live, body.idle, body.header, body.mode, _, front, ?_, stuck⟩
      rw [List.length_drop]
      omega

/-- The reader's own TOO_LARGE: the feed loop is left at a full buffer with nothing to
    compact. The request itself may be in order. -/
def FullExit (sink : Option (BodySink σ)) (start : DriveState σ) : Prop :=
  ∃ s t, Visits sink start s ∧ s.reader.beginPos < s.reader.endPos ∧ processOne sink s = (t, .leave) ∧
    t.reader.beginPos = 0 ∧ t.reader.endPos = readBufferBytes

theorem receive_refused {s t : DriveState σ} {result : ReadResult} (sound : DriveSound s)
    (received : receiveStep s = (t, some result)) (kind : result = .badRequest ∨ result = .tooLarge) :
    s.reader.beginPos = 0 ∧ s.reader.endPos = readBufferBytes := by
  have outcome := receiveStep_outcome sound.reader.begins sound.reader.fits sound.reads
  rw [received] at outcome
  cases outcome with
  | idle _ kept => simp at kind
  | full _ kept full front => exact ⟨front, full⟩
  | eof _ _ kept told =>
    simp only [ckHttpInputEof] at told
    split at told
    · simp [told, mapInputResult] at kind
    · simp [told, mapInputResult] at kind
  | error _ kept => simp at kind

theorem refused_by_feed {reader : ConnectionReader} {socket : Socket} {sink : Option (BodySink σ)}
    {context : σ} {t : DriveState σ} {result : ReadResult} (sound : ReaderSound reader)
    (answers : ckHttpConnectionReaderDrive reader socket sink context = (t, result))
    (kind : result = .badRequest ∨ result = .tooLarge)
    (room : ¬ FullExit sink (startDrive reader socket context)) :
    ∃ s, DriveSound s ∧ processOne sink s = (t, .stop result) := by
  obtain ⟨s, visits, stops⟩ := drive_returns reader socket sink context
  have before := visits_sound (startDrive_sound sound socket context) visits
  rw [answers] at stops
  simp only [driveStep] at stops
  split at stops
  · rename_i more
    cases turned : processOne sink s with
    | mk u turn =>
      rw [turned] at stops
      cases turn with
      | next => simp at stops
      | leave =>
        have outcome := turn_outcome before turned
        have next := (turn_sound before outcome).2 (by simp)
        obtain ⟨front, full⟩ := receive_refused next stops kind
        exact absurd ⟨s, u, visits, more, turned, front, full⟩ room
      | stop answer =>
        simp only [Prod.mk.injEq, Option.some.injEq] at stops
        exact ⟨s, before, by rw [turned, stops.1, stops.2]⟩
  · rename_i drained
    obtain ⟨front, full⟩ := receive_refused before stops kind
    rw [front, full] at drained
    exact absurd (by decide) drained

theorem badRequest_not_full {reader : ConnectionReader} {socket : Socket} {sink : Option (BodySink σ)}
    {context : σ}
    (answers : (ckHttpConnectionReaderDrive reader socket sink context).2 = .badRequest) :
    ¬ FullExit sink (startDrive reader socket context) := by
  rintro ⟨s, t, visits, more, turned, front, full⟩
  have stops : driveStep sink s = receiveStep t := by simp [driveStep, more, turned]
  have room : receiveStep t = (t, some .incomplete) ∨ receiveStep t = (t, some .tooLarge) := by
    simp only [receiveStep, makeRoom]
    by_cases left : t.reader.beginPos < t.reader.endPos ∧ t.processBudget = 0
    · exact .inl (by rw [if_pos left])
    · exact .inr (by rw [if_neg left, if_pos ⟨full, front⟩])
  rcases room with ends | ends
  all_goals
    have same := returns_unique (drive_returns reader socket sink context) ⟨s, visits, stops.trans ends⟩
    rw [answers] at same
    simp at same

/-- A request that a drive has refused stays refused, provided the drive did not just run out
    of buffer and the unparsed bytes do not revive the decoder. -/
theorem rejected_stays_rejected {reader later : ConnectionReader} {sink : Option (BodySink σ)}
    {socket : Socket} {context : σ} {t : DriveState σ} {result : ReadResult} (reachable : Reachable reader)
    (answers : ckHttpConnectionReaderDrive reader socket sink context = (t, result))
    (kind : result = .badRequest ∨ result = .tooLarge)
    (room : ¬ FullExit sink (startDrive reader socket context))
    (safe : ¬ Revives t.reader.input.chunked (unparsed t.reader)) (run : Later t.reader later)
    {τ : Type} (nextSocket : Socket) (nextSink : Option (BodySink τ)) (nextContext : τ) :
    offeredBytes (ckHttpConnectionReaderDrive later nextSocket nextSink nextContext).1.trace = [] ∧
      (ckHttpConnectionReaderDrive later nextSocket nextSink nextContext).2 ≠ .requestComplete := by
  have sound := reachable_sound reachable
  obtain ⟨s, before, refused⟩ := refused_by_feed sound answers kind room
  have lost := turn_lost before refused kind safe
  have next := drive_sound sound socket sink context
  rw [answers] at next
  obtain ⟨still, gone⟩ := later_lost next lost run
  exact (drive_lost still gone nextSocket nextSink nextContext).2

def chunkedPost (body : String) : Socket :=
  [.data 80 (ascii "OST / HTTP/1.1\r\nTransfer-Encoding: chunked\r\n\r\n" ++ ascii body)]

def driveOn (reader : ConnectionReader) (socket : Socket) : DriveState Unit × ReadResult :=
  ckHttpConnectionReaderDrive reader socket (some takeAll) ()

theorem refused_data_unparsed :
    unparsed (driveOn ckHttpConnectionReaderInit (chunkedPost "2\r\nabXY")).1.reader = ascii "XY" := by
  decide +kernel

theorem plain_not_revives (d : ChunkedDecoder) : ¬ Revives d (ascii "XY") := by
  rintro ⟨rest, cut, -⟩
  have head := congrArg List.head? cut
  rw [List.head?_cons] at head
  exact absurd head (by decide)

/-- Chunk data without its CRLF is refused for good. -/
theorem rejected_stays_rejected_data :
    (driveOn ckHttpConnectionReaderInit (chunkedPost "2\r\nabXY")).2 = .badRequest ∧
      let refused := (driveOn ckHttpConnectionReaderInit (chunkedPost "2\r\nabXY")).1.reader
      let next := driveOn refused [.data 48 (ascii "\r\n\r\n")]
      offeredBytes next.1.trace = [] ∧ next.2 ≠ .requestComplete := by
  have answers : (driveOn ckHttpConnectionReaderInit (chunkedPost "2\r\nabXY")).2 = .badRequest := by
    decide +kernel
  have room := badRequest_not_full answers
  have left := refused_data_unparsed
  generalize drive : driveOn ckHttpConnectionReaderInit (chunkedPost "2\r\nabXY") = refused at answers left ⊢
  refine ⟨answers, ?_⟩
  have safe := plain_not_revives refused.1.reader.input.chunked
  rw [← left] at safe
  exact rejected_stays_rejected .init drive (.inl answers) room safe .refl
    [.data 48 (ascii "\r\n\r\n")] (some takeAll) ()

/-- The refused bytes begin with the CRLF after the data, and the size line that came behind it
    is still in the decoder: the next drive takes this CRLF as the end of that line. -/
theorem refused_bytes_delivered :
    let refused := driveOn ckHttpConnectionReaderInit (chunkedPost "2\r\nab\r\n5\rX")
    let next := driveOn refused.1.reader []
    let ended := driveOn ckHttpConnectionReaderInit (chunkedPost "2\r\nab\r\n0\r\n\rX")
    refused.2 = .badRequest ∧ deliveredBytes next.1.trace = ascii "5\rX" ∧
      ended.2 = .badRequest ∧ (driveOn ended.1.reader []).2 = .requestComplete := by
  decide +kernel

end CkartaReaderRejection
