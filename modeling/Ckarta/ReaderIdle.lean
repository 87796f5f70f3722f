import Ckarta.FeedVerdict
import Ckarta.BufferLimit
import Ckarta.ReaderRejection

/-!
What a drive leaves behind when the socket is empty. A drive that returns INCOMPLETE has come as
far as its process budget shows the input machine bytes; what is left of them is work for the
next drive, unless the machine needs more bytes there or refuses those it has.
-/
namespace CkartaReaderIdle
open PrefixMachine CkartaHttpParser CkartaHttpInput
  CkartaInputMachine CkartaInputStream CkartaConnectionReader CkartaReaderSteps CkartaReaderTurns
  CkartaReaderRuns CkartaReaderProgress CkartaReaderExits CkartaFeedVerdict
open CkartaReaderRejection (chunkedPost driveOn)
open CkartaBufferLimit (resume resume_held resume_idle)
variable {σ τ : Type}

/-- A feed of these bytes is refused and takes none of them. -/
def RefusedUnread (x : HttpInput) (s : Bytes) : Prop :=
  ((ckHttpInputFeed x 0 s).result = .badRequest ∨ (ckHttpInputFeed x 0 s).result = .tooLarge) ∧
    (ckHttpInputFeed x 0 s).consumed = 0

/-- A drive can do nothing with what is left in the buffer. -/
def Still (x : HttpInput) (left : Bytes) : Prop :=
  inputAct x left = .wait ∨ RefusedUnread x (left.take processBudgetBytes)

/-- With the budget the input reads the stream as far as f, where left is not read. -/
def ReadsOff (x : HttpInput) (stream : Bytes) (budget : Nat) (f : HttpInput) (left : Bytes) : Prop :=
  ∃ read out, stream = read ++ left ∧ read.length ≤ budget ∧
    Steps inputMachine (settled x) read out f ∧ inputAct f (left.take (budget - read.length)) = .wait

theorem ReadsOff.unique {x f e : HttpInput} {stream left rest : Bytes} {budget : Nat}
    (first : ReadsOff x stream budget f left) (second : ReadsOff x stream budget e rest) :
    f = e ∧ left = rest := by
  obtain ⟨read, out, cut, paid, run, waits⟩ := first
  obtain ⟨read', out', cut', paid', run', waits'⟩ := second
  have shown : ∀ {read left : Bytes}, stream = read ++ left → read.length ≤ budget →
      stream.take budget = read ++ left.take (budget - read.length) := by
    intro read left cut paid
    rw [cut, List.take_append, List.take_of_length_le paid]
  obtain ⟨rfl, -, rfl, -⟩ := stop_unique run (stopped_of_wait waits) run' (stopped_of_wait waits')
    ((shown cut paid).symm.trans (shown cut' paid'))
  exact ⟨rfl, List.append_cancel_left (cut.symm.trans cut')⟩

theorem feedBody_answer (x : HttpInput) (pointer : Option Nat) (a b consumed : Nat) (s : Bytes) :
    (feedBody { x with pendingBodyData := pointer } a consumed s).result = (feedBody x b consumed s).result ∧
      (feedBody { x with pendingBodyData := pointer } a consumed s).consumed =
        (feedBody x b consumed s).consumed := by
  simp only [feedBody]
  cases x.request.bodyMode with
  | none => exact ⟨rfl, rfl⟩
  | contentLength => exact ⟨rfl, rfl⟩
  | chunked =>
    dsimp only
    split <;> exact ⟨rfl, rfl⟩

theorem feed_ready {x : HttpInput} (ready : Ready x) (a : Nat) (s : Bytes) :
    ckHttpInputFeed x a s = if !x.headerComplete
      then feedHeader x a s (ckHttpParserFeed x.parser s x.request) else feedBody x a 0 s := by
  rw [ckHttpInputFeed, if_neg (by simp [ready.no_span]), if_neg (by simp [ready.live])]

theorem feed_answer {x : HttpInput} (ready : Ready x) (a : Nat) (s : Bytes) :
    (ckHttpInputFeed (settled x) 0 s).result = (ckHttpInputFeed x a s).result ∧
      (ckHttpInputFeed (settled x) 0 s).consumed = (ckHttpInputFeed x a s).consumed := by
  rw [feed_ready (settled_ready ready), feed_ready ready,
    show (settled x).headerComplete = x.headerComplete from rfl]
  split
  · simp only [feedHeader, show (settled x).parser = x.parser from rfl,
      show (settled x).request = x.request from rfl]
    generalize ckHttpParserFeed x.parser s x.request = parsed
    cases parsed.result with
    | incomplete => exact ⟨rfl, rfl⟩
    | headerTooLarge => exact ⟨rfl, rfl⟩
    | badRequest => exact ⟨rfl, rfl⟩
    | complete =>
      have same : bodyless (completeHeader (settled x) parsed.parser parsed.request) =
          bodyless (completeHeader x parsed.parser parsed.request) := rfl
      simp only [same]
      split
      · exact ⟨rfl, rfl⟩
      · exact feedBody_answer (completeHeader x parsed.parser parsed.request) none _ _ _ _
  · exact feedBody_answer x none _ _ _ _

theorem refused_turn {sink : Option (BodySink σ)} {s t : DriveState σ} {turn : Turn} {fed : InputFeed}
    (sound : DriveSound s) (ready : Ready s.reader.input) (budget : s.processBudget ≠ 0)
    (feeds : ckHttpInputFeed s.reader.input s.reader.beginPos (slice s) = fed)
    (kind : fed.result = .badRequest ∨ fed.result = .tooLarge) (turned : processOne sink s = (t, turn)) :
    turn = .stop (mapInputResult fed.result) ∧ fed.consumed ≤ (slice s).length ∧
      Moved s t fed.input ((slice s).take fed.consumed) [] := by
  rw [processOne_eq, if_neg budget, feeds] at turned
  have outcome := ckHttpInputFeed_outcome (a := s.reader.beginPos) (s := slice s) ready
  rw [feeds] at outcome
  have plain : fed.consumed ≤ (slice s).length ∧ fed.bodyLength = 0 ∧ Ready fed.input := by
    cases outcome with
    | span head data rest read y z cut nonempty run within lead held size live ack header next =>
      simp at kind
    | quiet read rest y pointer cut run waits next => simp at kind
    | complete read rest n e y cut run ends wide within idle header done => simp at kind
    | refuse result read rest n consumed e y cut run ends kind within reported next =>
      exact ⟨within, rfl, next⟩
    | overflow read rest consumed y cut run reported full next =>
      refine ⟨?_, rfl, next⟩
      rw [cut, List.length_append]
      exact Nat.le_add_right_of_le reported
  obtain ⟨within, none, next⟩ := plain
  have moved := afterFeed_moved sink fed sound within none
  have stops := settleTurn_refuse
    ((s.setInput fed.input).emit (.fed (slice s).length fed.result)) fed.consumed next.live kind
  rw [← afterFeed_plain sink fed within none, turned] at stops
  rw [turned] at moved
  exact ⟨stops, within, moved⟩

inductive FirstTurn (s t : DriveState σ) (turn : Turn) : Prop where
  | still (still : Still (settled s.reader.input) (unparsed s.reader))
      (consumed : consumedBytes t.trace = consumedBytes s.trace)
      (delivered : deliveredBytes t.trace = deliveredBytes s.trace) (socket : t.socket = s.socket)
      (ends : turn = .leave ∨ ∃ result, turn = .stop result ∧ result ≠ .requestComplete) :
      FirstTurn s t turn
  | works (busy : ¬ Still (settled s.reader.input) (unparsed s.reader))
      (does : turn = .stop .requestComplete ∨ consumedBytes t.trace ≠ consumedBytes s.trace) :
      FirstTurn s t turn

theorem still_iff {s : DriveState σ} (ready : Ready s.reader.input)
    (fresh : s.processBudget = processBudgetBytes) :
    Still (settled s.reader.input) (unparsed s.reader) ↔
      inputAct (settled s.reader.input) (slice s) = .wait ∨
        (((ckHttpInputFeed s.reader.input s.reader.beginPos (slice s)).result = .badRequest ∨
          (ckHttpInputFeed s.reader.input s.reader.beginPos (slice s)).result = .tooLarge) ∧
          (ckHttpInputFeed s.reader.input s.reader.beginPos (slice s)).consumed = 0) := by
  obtain ⟨result, consumed⟩ := feed_answer ready s.reader.beginPos (slice s)
  have whole : ∀ {left : Bytes}, left.length ≤ 1 → left.take processBudgetBytes = left := fun short =>
    List.take_of_length_le (Nat.le_trans short (by decide))
  rw [Still, RefusedUnread, ← fresh, ← slice_eq, result, consumed]
  refine or_congr_left ⟨fun waits => ?_, fun waits => ?_⟩
  · rw [slice_eq, fresh, whole (inputAct_wait waits)]
    exact waits
  · have short := inputAct_wait waits
    rw [slice_eq, fresh, List.length_take] at short
    rw [slice_eq, fresh, List.take_of_length_le] at waits
    · exact waits
    · simp only [processBudgetBytes] at short ⊢
      omega

theorem first_turn {sink : Option (BodySink σ)} {s t : DriveState σ} {turn : Turn}
    (accepting : Accepting sink) (sound : DriveSound s) (ready : Ready s.reader.input)
    (fresh : s.processBudget = processBudgetBytes) (more : unparsed s.reader ≠ [])
    (turned : processOne sink s = (t, turn)) : FirstTurn s t turn := by
  have budget : s.processBudget ≠ 0 := by
    rw [fresh]
    decide
  have some : slice s ≠ [] := by
    rw [slice_eq, fresh]
    simpa [processBudgetBytes] using more
  have still := still_iff ready fresh
  by_cases kind : (ckHttpInputFeed s.reader.input s.reader.beginPos (slice s)).result = .badRequest ∨
      (ckHttpInputFeed s.reader.input s.reader.beginPos (slice s)).result = .tooLarge
  · obtain ⟨stops, within, moved⟩ := refused_turn sound ready budget rfl kind turned
    have other : turn ≠ .stop .requestComplete := by
      rw [stops]
      rcases kind with bad | large
      · simp [bad, mapInputResult]
      · simp [large, mapInputResult]
    by_cases none : (ckHttpInputFeed s.reader.input s.reader.beginPos (slice s)).consumed = 0
    · rw [none, List.take_zero] at moved
      exact .still (still.mpr (.inr ⟨kind, none⟩)) (by simpa using moved.consumed)
        (by simpa using moved.delivered) moved.socket (.inr ⟨_, stops, fun same => other (by rw [stops, same])⟩)
    · refine .works (fun quiet => ?_) (.inr ?_)
      · rcases still.mp quiet with waits | ⟨-, unread⟩
        · exact Halts.not_waits (@List.nil_append _ (slice s) ▸ feed_halts ready kind) (.refl _) waits
        · exact none unread
      · rw [moved.consumed]
        intro same
        rw [List.append_right_eq_self, List.take_eq_nil_iff] at same
        exact same.elim none some
  · have stopped : inputAct (settled s.reader.input) (slice s) = .wait ∨
        ¬ Still (settled s.reader.input) (unparsed s.reader) := by
      rw [still]
      tauto
    have outcome := turn_outcome sound turned
    cases outcome with
    | spent empty => exact absurd empty budget
    | again _ done moved => simp [ready.live] at done
    | refused _ y z n result held within moved unwilling kind => exact absurd accepting unwilling
    | acked _ z n data turn held moved goes => exact absurd ready.no_span held.span
    | rejected _ fed result ready feeds refused told within next moved =>
      rw [← feeds] at refused
      exact absurd refused kind
    | complete _ read rest n e y ready cut wide within run ends idle header done moved =>
      refine .works (fun quiet => ?_) (.inl rfl)
      have waits := stopped.resolve_right (not_not.mpr quiet)
      obtain ⟨rfl, -, rfl⟩ := stopped_no_steps (stopped_of_wait waits) run (cut ▸ List.prefix_append _ _)
      rw [cut] at waits
      simp [ends] at waits
    | ran _ read rest out y turn ready cut run idle next vain moved goes =>
      by_cases none : read = []
      · subst none
        have waits := vain rfl
        obtain ⟨rfl, same⟩ := steps_nil run
        rw [same, ← show slice s = rest from cut] at waits
        refine .still (still.mpr (.inl waits)) (by simpa using moved.consumed) (by simpa using moved.delivered)
          moved.socket ?_
        cases goes with
        | complete done =>
          have kept := congrArg HttpInput.messageComplete same
          rw [moved.input] at done
          exact absurd (done.symm.trans (kept.trans ready.live)) (by simp)
        | drained live reached => exact .inl rfl
        | vain live more none => exact .inl rfl
        | next live more some => simp at some
      · refine .works (fun quiet => ?_) (.inr ?_)
        · have waits := stopped.resolve_right (not_not.mpr quiet)
          exact none (stopped_no_steps (stopped_of_wait waits) run (cut ▸ List.prefix_append _ _)).1
        · rw [moved.consumed]
          intro same
          exact none (List.append_right_eq_self.mp same)

theorem driveStep_grows {sink : Option (BodySink σ)} {s t : DriveState σ} {answer : Option ReadResult}
    (sound : DriveSound s) (step : driveStep sink s = (t, answer)) :
    consumedBytes s.trace <+: consumedBytes t.trace := by
  have turns : ∀ {u : DriveState σ} {turn : Turn}, TurnOutcome sink s (u, turn) →
      consumedBytes s.trace <+: consumedBytes u.trace := by
    intro u turn outcome
    obtain ⟨y, read, out, moved⟩ := turn_moved outcome
    rw [moved.consumed]
    exact List.prefix_append _ _
  rcases driveStep_cases sound step with ⟨turn, outcome, more, kind⟩ |
    ⟨u, outcome, more, next, received⟩ | ⟨reached, received⟩
  · exact turns outcome
  · obtain ⟨got, kept⟩ := receive_kept received
    rw [kept.consumed]
    exact turns outcome
  · obtain ⟨got, kept⟩ := receive_kept received
    exact kept.consumed ▸ List.prefix_rfl

theorem visits_grows {sink : Option (BodySink σ)} {s t : DriveState σ} (sound : DriveSound s)
    (visits : Visits sink s t) : consumedBytes s.trace <+: consumedBytes t.trace := by
  induction visits with
  | refl => exact List.prefix_rfl
  | step first rest ih =>
    exact (driveStep_grows sound first).trans (ih ((driveStep_sound sound first).2 rfl))

theorem returns_grows {sink : Option (BodySink σ)} {s t u : DriveState σ} {answer : Option ReadResult}
    {result : ReadResult} (sound : DriveSound s) (step : driveStep sink s = (u, answer))
    (returns : Returns sink s t result) : consumedBytes u.trace <+: consumedBytes t.trace := by
  obtain ⟨last, visits, ends⟩ := returns
  cases visits with
  | refl =>
    rw [step, Prod.mk.injEq] at ends
    exact ends.1 ▸ List.prefix_rfl
  | step first rest =>
    rw [step, Prod.mk.injEq] at first
    obtain ⟨rfl, rfl⟩ := first
    have next := (driveStep_sound sound step).2 rfl
    exact (visits_grows next rest).trans (driveStep_grows (visits_sound next rest) ends)

theorem receiveStep_empty {s : DriveState σ} (empty : s.socket = []) :
    (receiveStep s).1.trace = s.trace ∧
      ((receiveStep s).2 = some .incomplete ∨ (receiveStep s).2 = some .tooLarge) := by
  rcases receiveStep_cases s with ⟨t, result, ends, room⟩ | ⟨t, received, room⟩
  · rw [ends]
    cases room with
    | spent more empty => exact ⟨rfl, .inl rfl⟩
    | full left full front => exact ⟨rfl, .inr rfl⟩
    | starved t room empty spare => exact ⟨room.trace, .inl rfl⟩
  · rw [received]
    cases room with
    | ready t room reads left spare =>
      have nothing : t.socket = [] := room.socket.trans empty
      simp [receiveOne, nothing, recv, room.trace]

/-- A drive that consumes no buffered byte, delivers no body byte and completes no request. -/
def DoesNothing (driven : DriveState σ × ReadResult) : Prop :=
  consumedBytes driven.1.trace = [] ∧ deliveredBytes driven.1.trace = [] ∧ driven.2 ≠ .requestComplete

theorem blocked_nothing {sink : Option (BodySink σ)} {s u t : DriveState σ} {result : ReadResult}
    (step : driveStep sink s = receiveStep u) (empty : u.socket = []) (consumed : consumedBytes u.trace = [])
    (delivered : deliveredBytes u.trace = []) (returns : Returns sink s t result) :
    DoesNothing (t, result) := by
  obtain ⟨same, kind⟩ := receiveStep_empty empty
  have ends : driveStep sink s = ((receiveStep u).1, some .incomplete) ∨
      driveStep sink s = ((receiveStep u).1, some .tooLarge) := by
    rw [step]
    exact kind.imp (fun kind => Prod.ext rfl kind) fun kind => Prod.ext rfl kind
  rcases ends with ends | ends
  · obtain ⟨rfl, rfl⟩ := returns_unique returns ⟨s, .refl s, ends⟩
    exact ⟨by rw [same]; exact consumed, by rw [same]; exact delivered, by simp⟩
  · obtain ⟨rfl, rfl⟩ := returns_unique returns ⟨s, .refl s, ends⟩
    exact ⟨by rw [same]; exact consumed, by rw [same]; exact delivered, by simp⟩

/-- On an empty socket a drive does nothing exactly when it can do nothing with its buffer. -/
theorem empty_drive_iff {reader : ConnectionReader} (sound : ReaderSound reader)
    (input : unparsed reader = [] ∨ Ready reader.input) {sink : Option (BodySink σ)}
    (accepting : Accepting sink) (context : σ) :
    DoesNothing (ckHttpConnectionReaderDrive reader [] sink context) ↔
      Still (settled reader.input) (unparsed reader) := by
  have start := startDrive_sound sound [] context
  have returns := drive_returns reader [] sink context
  by_cases more : unparsed reader = []
  · have drained : (startDrive reader [] context).reader.beginPos =
        (startDrive reader [] context).reader.endPos := by
      have begins := sound.begins
      have width := congrArg List.length more
      simp only [unparsed, List.length_drop, List.length_nil] at width
      simp only [startDrive, ConnectionReader.endPos]
      omega
    refine iff_of_true ?_ (.inl (by rw [more]; rfl))
    exact blocked_nothing (receives_step (.inl ⟨drained, rfl⟩)) rfl rfl rfl returns
  · have ready := input.resolve_left more
    have some : (startDrive reader [] context).reader.beginPos <
        (startDrive reader [] context).reader.endPos := by
      have width := List.length_pos_iff.mpr more
      simp only [unparsed, List.length_drop] at width
      simp only [startDrive, ConnectionReader.endPos]
      omega
    cases turned : processOne sink (startDrive reader [] context) with
    | mk t turn =>
      cases first_turn accepting start ready rfl more turned with
      | still still consumed delivered socket ends =>
        refine iff_of_true ?_ still
        rcases ends with rfl | ⟨result, rfl, other⟩
        · exact blocked_nothing (receives_step (.inr ⟨some, turned⟩)) socket consumed delivered returns
        · have step : driveStep sink (startDrive reader [] context) = (t, .some result) := by
            simp [driveStep, some, turned]
          obtain ⟨state, answer⟩ := returns_unique returns ⟨_, .refl _, step⟩
          rw [DoesNothing, state, answer]
          exact ⟨consumed, delivered, other⟩
      | works busy does =>
        refine iff_of_false ?_ busy
        rintro ⟨consumed, -, other⟩
        rcases does with rfl | moved
        · have step : driveStep sink (startDrive reader [] context) = (t, .some .requestComplete) := by
            simp [driveStep, some, turned]
          exact other (returns_unique returns ⟨_, .refl _, step⟩).2
        · obtain ⟨u, answer, step, grows⟩ : ∃ u answer, driveStep sink (startDrive reader [] context) =
              (u, answer) ∧ consumedBytes t.trace = consumedBytes u.trace := by
            cases turn with
            | next => exact ⟨t, none, by simp [driveStep, some, turned], rfl⟩
            | stop result => exact ⟨t, .some result, by simp [driveStep, some, turned], rfl⟩
            | leave =>
              have next := (turn_sound start (turn_outcome start turned)).2 (by simp)
              obtain ⟨got, kept⟩ := receive_kept
                (receiveStep_outcome next.reader.begins next.reader.fits next.reads)
              exact ⟨_, _, receives_step (.inr ⟨some, turned⟩), kept.consumed.symm⟩
          have within := returns_grows start step returns
          rw [consumed, ← grows] at within
          exact moved (List.prefix_nil.mp within)

theorem received_incomplete {s t : DriveState σ} (outcome : ReceiveOutcome s (t, some .incomplete)) :
    Received s t [] := by
  cases outcome with
  | idle _ kept => exact kept
  | eof _ result kept told => exact kept

theorem incomplete_turn {sink : Option (BodySink σ)} {s t : DriveState σ}
    (outcome : TurnOutcome sink s (t, .stop .incomplete)) : s.processBudget = 0 ∧ s = t := by
  cases outcome with
  | spent empty => exact ⟨empty, rfl⟩
  | refused _ y z n result held within moved unwilling kind => simp at kind
  | acked _ z n data turn held moved goes => cases goes
  | ran _ read rest out y turn ready cut run idle next vain moved goes => cases goes
  | rejected _ fed result ready feeds kind told within next moved =>
    rcases kind with bad | large
    · simp [bad, mapInputResult] at told
    · simp [large, mapInputResult] at told

theorem ready_reads_off {sink : Option (BodySink σ)} {s t : DriveState σ} (sound : DriveSound s)
    (ready : Ready s.reader.input) (returns : Returns sink s t .incomplete) (drained : unread t.socket = []) :
    Ready t.reader.input ∧ ReadsOff s.reader.input (unparsed s.reader ++ unread s.socket) s.processBudget
      (settled t.reader.input) (unparsed t.reader) := by
  have behind : ∀ {u : DriveState σ} {read out got : Bytes}, Progress s u read out got →
      unparsed s.reader ++ unread s.socket = read ++ (unparsed u.reader ++ unread u.socket) := by
    intro u read out got progress
    rw [progress.unread_eq, ← List.append_assoc, progress.stream, List.append_assoc]
  obtain ⟨last, visits, exits⟩ := returns_exits sound returns
  obtain ⟨read, out, got, reached⟩ := visits_reached sound ready visits
  rcases exits with ⟨more, turned⟩ | ⟨u, receives, received⟩
  · obtain ⟨empty, rfl⟩ := incomplete_turn (turn_outcome reached.sound turned)
    have cut := behind reached.progress
    have paid := reached.progress.paid
    rw [drained, List.append_nil] at cut
    refine ⟨reached.ready, read, out, cut, by omega, reached.run, ?_⟩
    rw [show s.processBudget - read.length = 0 by omega, List.take_zero]
    rfl
  · obtain ⟨read', out', reached', waits⟩ := receives_reached reached.sound reached.ready receives
    have whole := reached.trans reached'
    have next := whole.sound
    have outcome := receiveStep_outcome next.reader.begins next.reader.fits next.reads
    rw [received] at outcome
    have kept := received_incomplete outcome
    have cut := behind whole.progress
    have paid := whole.progress.paid
    have quiet := waits.quiet
    rw [kept.unread_eq, drained, List.append_nil, List.append_nil] at cut
    rw [slice_eq, show u.processBudget = s.processBudget - (read ++ read').length by omega] at quiet
    rw [kept.input, kept.unparsed_eq, List.append_nil]
    exact ⟨whole.ready, _, _, cut, by omega, whole.run, quiet⟩

theorem held_reads_off {sink : Option (BodySink σ)} {s t : DriveState σ} {z : HttpInput} {n : Nat}
    (sound : DriveSound s) (held : Held s.reader.input z n) (returns : Returns sink s t .incomplete)
    (drained : unread t.socket = []) :
    Ready t.reader.input ∧ ReadsOff z ((unparsed s.reader ++ unread s.socket).drop n) (s.processBudget - n)
      (settled t.reader.input) (unparsed t.reader) := by
  obtain ⟨fits, spans⟩ := processOne_held sink sound held
  cases turned : processOne sink s with
  | mk u turn =>
    rw [turned] at spans
    generalize spanOf s (heldFeed s.reader.input) = data at spans
    cases spans with
    | refused _ result moved unwilling kind =>
      have stops : driveStep sink s = (u, some result) := by
        simp [driveStep, held_buffered held fits, turned]
      obtain ⟨-, rfl⟩ := returns_unique returns ⟨s, .refl s, stops⟩
      simp at kind
    | accepted _ _ moved goes =>
      simp only [heldFeed, Nat.zero_add] at moved goes
      have resumed := accepted_resumes sound held turned fits moved goes
      rcases resumed.returns with ⟨done, complete⟩ | ⟨ready, same⟩
      · exact absurd (returns_unique returns complete).2 (by simp)
      · have off := ready_reads_off resumed.sound (by rw [resumed.input]; exact ready)
          ((same t .incomplete).mp returns) drained
        rw [resumed.input, resumed.buffered, resumed.socket, resumed.process] at off
        rwa [List.drop_append_of_le_length resumed.within]

theorem done_reads_off {sink : Option (BodySink σ)} {s t : DriveState σ} (sound : DriveSound s)
    (done : s.reader.input.messageComplete = true) (budget : s.processBudget ≠ 0)
    (returns : Returns sink s t .incomplete) (drained : unread t.socket = []) :
    unparsed s.reader = [] ∧ unread s.socket = [] ∧ unparsed t.reader = [] ∧
      t.reader.input = s.reader.input := by
  have stopped : ∀ {s t : DriveState σ} {turn : Turn}, s.reader.input.messageComplete = true →
      s.processBudget ≠ 0 → TurnOutcome sink s (t, turn) → turn = .stop .requestComplete ∨
        turn = .stop .bodyBackpressure ∨ turn = .stop .sinkError := by
    intro s t turn done budget outcome
    cases outcome with
    | spent empty => exact absurd empty budget
    | again _ done moved => simp
    | refused _ y z n result held within moved unwilling kind =>
      rcases kind with rfl | rfl <;> simp
    | acked _ z n data turn held moved goes => simp [held.live] at done
    | ran _ read rest out y turn ready cut run idle next vain moved goes => simp [ready.live] at done
    | complete _ read rest n e y ready cut wide within run ends idle header done' moved =>
      simp [ready.live] at done
    | rejected _ fed result ready feeds kind told within next moved => simp [ready.live] at done
  obtain ⟨last, visits, ends⟩ := returns
  induction visits with
  | refl =>
    rcases driveStep_cases sound ends with ⟨turn, outcome, more, kind⟩ |
      ⟨u, outcome, more, next, received⟩ | ⟨reached, received⟩
    · rcases stopped done budget outcome with rfl | rfl | rfl <;> simp at kind
    · rcases stopped done budget outcome with wrong | wrong | wrong <;> simp at wrong
    · have kept := received_incomplete received
      have none := unparsed_drained reached
      exact ⟨none, kept.unread_eq.trans drained, by rw [kept.unparsed_eq, none]; rfl, kept.input⟩
  | step first rest ih =>
    have next := (driveStep_sound sound first).2 rfl
    rcases driveStep_cases sound first with ⟨turn, outcome, more, kind⟩ |
      ⟨u, outcome, more, nextu, received⟩ | ⟨reached, received⟩
    · rcases stopped done budget outcome with rfl | rfl | rfl <;> simp at kind
    · rcases stopped done budget outcome with wrong | wrong | wrong <;> simp at wrong
    · obtain ⟨got, kept⟩ := receive_kept received
      obtain ⟨buffered, socket, later, input⟩ := ih next (by rw [kept.input]; exact done)
        (by rw [kept.process]; exact budget) ends
      have none := unparsed_drained reached
      rw [kept.unparsed_eq, none, List.nil_append] at buffered
      exact ⟨none, by rw [kept.unread_eq, buffered, socket]; rfl, later, input.trans kept.input⟩

/-- The point to which the process budget takes the input, reading what is buffered and what the
    socket has behind a span held before, is one where nothing can be done. -/
def EndsStill (reader : ConnectionReader) (socket : Socket) : Prop :=
  ∃ f left, ReadsOff (resume reader.input).1 ((unparsed reader ++ unread socket).drop (resume reader.input).2)
    (processBudgetBytes - (resume reader.input).2) f left ∧ Still f left

/-- A drive that returns INCOMPLETE leaves no work behind an empty socket exactly when its
    process budget ends where there is nothing to do. -/
theorem drained_drive_idle_iff {reader : ConnectionReader} (reachable : Reachable reader) (socket : Socket)
    (sink : Option (BodySink σ)) (context : σ)
    (incomplete : (ckHttpConnectionReaderDrive reader socket sink context).2 = .incomplete)
    (drained : unread (ckHttpConnectionReaderDrive reader socket sink context).1.socket = [])
    {later : Option (BodySink τ)} (willing : Accepting later) (context' : τ) :
    DoesNothing (ckHttpConnectionReaderDrive
      (ckHttpConnectionReaderDrive reader socket sink context).1.reader [] later context') ↔
      EndsStill reader socket := by
  have sound := reachable_sound reachable
  have start := startDrive_sound sound socket context
  have returns := drive_returns reader socket sink context
  have after := reachable_sound (.drive socket sink context reachable)
  rw [incomplete] at returns
  have off : (unparsed (ckHttpConnectionReaderDrive reader socket sink context).1.reader = [] ∨
        Ready (ckHttpConnectionReaderDrive reader socket sink context).1.reader.input) ∧
      ReadsOff (resume reader.input).1 ((unparsed reader ++ unread socket).drop (resume reader.input).2)
        (processBudgetBytes - (resume reader.input).2)
        (settled (ckHttpConnectionReaderDrive reader socket sink context).1.reader.input)
        (unparsed (ckHttpConnectionReaderDrive reader socket sink context).1.reader) := by
    cases sound.input with
    | ready ready =>
      rw [resume_idle ready.no_span, List.drop_zero]
      exact (ready_reads_off start ready returns drained).imp_left .inr
    | done done idle header =>
      obtain ⟨buffered, socketEmpty, left, same⟩ := done_reads_off start done (Nat.succ_ne_zero _) returns drained
      have buffered : unparsed reader = [] := buffered
      have socketEmpty : unread socket = [] := socketEmpty
      rw [resume_idle idle, buffered, socketEmpty, left, same]
      exact ⟨.inl rfl, [], [], rfl, Nat.zero_le _, .refl _, rfl⟩
    | held z n held within paid =>
      rw [resume_held held]
      exact (held_reads_off start held returns drained).imp_left .inr
  obtain ⟨input, off⟩ := off
  rw [empty_drive_iff after input willing context']
  constructor
  · exact fun still => ⟨_, _, off, still⟩
  · rintro ⟨f, left, there, still⟩
    obtain ⟨rfl, rfl⟩ := there.unique off
    exact still

/-- The first part of a body, up to the CR behind its first chunk. -/
def cutChunk : Socket := chunkedPost "2\r\nab\r"

theorem cutChunk_still : EndsStill ckHttpConnectionReaderInit cutChunk := by
  have stream : unread cutChunk = incoming cutChunk := by decide +kernel
  have short : (incoming cutChunk).length ≤ processBudgetBytes := by decide +kernel
  obtain ⟨outcome, whole, open_⟩ : ∃ outcome, presentWhole (incoming cutChunk) = some outcome ∧
      outcome.result = .incomplete :=
    Option.map_eq_some_iff.mp (show (presentWhole (incoming cutChunk)).map Outcome.result =
      some .incomplete by decide +kernel)
  obtain ⟨read, rest, out, f, cut, run, waits⟩ :=
    presentWhole_waits (Nat.le_trans short (by decide)) whole open_
  have fits := short
  rw [cut, List.length_append] at fits
  rw [EndsStill, resume_idle rfl, List.drop_zero, Nat.sub_zero, stream]
  refine ⟨f, rest, ⟨read, out, cut, by omega, run, ?_⟩, .inl waits⟩
  rw [List.take_of_length_le (by omega)]
  exact waits

/-- The CR stays in the buffer, and the next drive leaves it there. -/
theorem drained_drive_idle_cut :
    let first := driveOn ckHttpConnectionReaderInit cutChunk
    first.2 = .incomplete ∧ deliveredBytes first.1.trace = ascii "ab" ∧ unparsed first.1.reader = [cr] ∧
      DoesNothing (driveOn first.1.reader []) := by
  have told : let first := driveOn ckHttpConnectionReaderInit cutChunk
      (first.2 = .incomplete ∧ unread first.1.socket = []) ∧ deliveredBytes first.1.trace = ascii "ab" ∧
        unparsed first.1.reader = [cr] := by
    decide +kernel
  obtain ⟨⟨incomplete, drained⟩, delivered, left⟩ := told
  exact ⟨incomplete, delivered, left, (drained_drive_idle_iff .init cutChunk (some takeAll) () incomplete drained
    takeAll_accepting ()).mpr cutChunk_still⟩

/-- A reader with the header of a second request left in its buffer. -/
def pipelinedPost : Option ConnectionReader :=
  ckHttpConnectionReaderNextRequest (ckHttpConnectionReaderDrive ckHttpConnectionReaderInit
    [.data 71 (ascii ("ET / HTTP/1.1\r\n\r\n" ++
      "POST / HTTP/1.1\r\nContent-Length: 40000\r\n\r\n"))] (some takeAll) ()).1.reader

/-- The 42 header bytes count against the process budget but not against the read budget, so
    42 body bytes are left when the socket is empty. The next drive delivers them. -/
theorem spent_budget_hides_body :
    ∃ reader, Reachable reader ∧
      let first := ckHttpConnectionReaderDrive reader [.data 0 (List.replicate 32767 0)]
        (some takeAll) ()
      let after := ckHttpConnectionReaderDrive first.1.reader [] (some takeAll) ()
      (first.2, unread first.1.socket, deliveredBytes after.1.trace) =
        (.incomplete, [], List.replicate 42 0) := by
  have run : pipelinedPost.map (fun reader =>
      let first := ckHttpConnectionReaderDrive reader [.data 0 (List.replicate 32767 0)]
        (some takeAll) ()
      let after := ckHttpConnectionReaderDrive first.1.reader [] (some takeAll) ()
      (first.2, unread first.1.socket, deliveredBytes after.1.trace)) =
        some (.incomplete, [], List.replicate 42 0) := by decide +kernel
  cases left : pipelinedPost with
  | none =>
    rw [left, Option.map_none] at run
    cases run
  | some reader =>
    rw [left, Option.map_some, Option.some.injEq] at run
    exact ⟨reader, .next (.drive _ _ _ .init) left, run⟩

end CkartaReaderIdle
