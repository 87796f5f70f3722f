import Ckarta.FeedVerdict
import Ckarta.CompletedDrive
import Ckarta.ReaderExits

/-!
The reader's own TOO_LARGE. A full buffer that cannot be compacted ends a drive, whatever the
message says. For that the process budget must end on the first byte of a line break, behind
which the input stops, while recv goes on filling the buffer.
-/
namespace CkartaBufferLimit
open MachineWord PrefixMachine CkartaHttpParser CkartaHttpChunked CkartaHttpInput CkartaChunkedMachine
  CkartaInputMachine CkartaInputStream CkartaConnectionReader CkartaReaderSteps CkartaReaderTurns
  CkartaReaderRuns CkartaReaderProgress CkartaReaderRejection CkartaCompletedDrive CkartaFeedVerdict
  CkartaReaderExits
variable {σ : Type}

def feedResults (trace : List DriveEvent) : List InputResult :=
  trace.filterMap fun
    | .fed _ result => some result
    | _ => none

def LargeByFeed (driven : DriveState σ × ReadResult) : Prop :=
  driven.2 = .tooLarge → InputResult.tooLarge ∈ feedResults driven.1.trace

/-- The bytes recv gives before it answers anything but data or an interruption. -/
def promptBytes : Socket → Nat
  | .data _ rest :: events => rest.length + 1 + promptBytes events
  | .intr :: events => promptBytes events
  | _ => 0

/-- The input once a held span is acknowledged, and the bytes that are consumed with it. -/
def resume (input : HttpInput) : HttpInput × Nat :=
  match ckHttpInputAckBody input with
  | some answer => answer
  | none => (input, 0)

/-- After all but the last byte of the budget the machine is at y and waits on that byte. -/
def StopsShort (x : HttpInput) (s : Bytes) (budget : Nat) : Prop :=
  0 < budget ∧ ∃ out y, Steps inputMachine (settled x) (s.take (budget - 1)) out y ∧
    inputAct y ((s.drop (budget - 1)).take 1) = .wait

/-- The process budget of a drive ends on a byte the input does not take alone. -/
def CutAtBreak (reader : ConnectionReader) : Prop :=
  StopsShort (resume reader.input).1 ((unparsed reader).drop (resume reader.input).2)
    (processBudgetBytes - (resume reader.input).2)

/-- Behind the bytes the budget pays for, what is buffered and what comes in within the read
    budget fill the buffer. -/
def BufferFills (reader : ConnectionReader) (socket : Socket) : Prop :=
  readBufferBytes + (processBudgetBytes - 1) ≤
    (unparsed reader).length + min readBudgetBytes (promptBytes socket)

theorem feedResults_emit (s : DriveState σ) (event : DriveEvent) :
    feedResults (s.emit event).trace = feedResults s.trace ++ feedResults [event] := by
  simp [DriveState.emit, feedResults]

theorem offerSpan_feeds {sink : Option (BodySink σ)} {s t : DriveState σ} {data : Bytes} {answer : Int}
    (h : offerSpan sink s data = some (answer, t)) : feedResults t.trace = feedResults s.trace := by
  simp only [offerSpan] at h
  split at h
  · simp only [Option.some.injEq, Prod.mk.injEq] at h
    rw [← h.2, feedResults_emit]
    simp [feedResults]
  · split at h
    · simp only [Option.some.injEq, Prod.mk.injEq] at h
      rw [← h.2, feedResults_emit]
      simp [feedResults]
    · simp at h

theorem settleTurn_feeds (s : DriveState σ) (consumed : Nat) (result : InputResult) :
    feedResults (settleTurn s consumed result).1.trace = feedResults s.trace := by
  simp only [settleTurn]
  repeat' split
  all_goals simp [DriveState.emit, feedResults]

theorem processOne_feeds (sink : Option (BodySink σ)) {s : DriveState σ} (paid : s.processBudget ≠ 0) :
    feedResults (processOne sink s).1.trace = feedResults s.trace ++
      [(ckHttpInputFeed s.reader.input s.reader.beginPos (slice s)).result] := by
  rw [processOne_eq, if_neg paid]
  generalize ckHttpInputFeed s.reader.input s.reader.beginPos (slice s) = fed
  have begun : feedResults ((s.setInput fed.input).emit (.fed (slice s).length fed.result)).trace =
      feedResults s.trace ++ [fed.result] := feedResults_emit _ _
  simp only [afterFeed]
  split
  · exact begun
  · split
    · simp only [acceptSpan]
      split
      · exact begun
      · rename_i answer t offered
        have told := (offerSpan_feeds offered).trans begun
        split
        · exact told
        · split
          · exact told
          · split
            · exact told
            · rename_i input taken acked
              split
              · exact told
              · exact (settleTurn_feeds _ _ _).trans told
    · exact (settleTurn_feeds _ _ _).trans begun

theorem receiveOne_feeds (s : DriveState σ) :
    feedResults (receiveOne s).1.trace = feedResults s.trace := by
  simp only [receiveOne]
  split
  · simp [DriveState.emit, feedResults]
  all_goals rfl

theorem receiveStep_feeds (s : DriveState σ) :
    feedResults (receiveStep s).1.trace = feedResults s.trace := by
  rcases receiveStep_cases s with ⟨t, result, ends, room⟩ | ⟨t, received, room⟩
  · rw [ends]
    cases room with
    | spent more empty => rfl
    | full left full front => rfl
    | starved t room empty spare => rw [room.trace]
  · rw [received]
    cases room with
    | ready t room reads left spare => rw [receiveOne_feeds, room.trace]

theorem promptBytes_eq (socket : Socket) : promptBytes socket = (incoming socket).length := by
  induction socket with
  | nil => rfl
  | cons event events ih =>
    cases event with
    | data first rest =>
      simp only [promptBytes, incoming, ih, List.length_append, List.length_cons]
    | intr => exact ih
    | again | eof | error => rfl

theorem receiveStep_prompt {s t : DriveState σ} (step : receiveStep s = (t, none)) :
    promptBytes s.socket + (receivedBytes s.trace).length =
      promptBytes t.socket + (receivedBytes t.trace).length := by
  obtain ⟨got, trace, came, -⟩ := receiveStep_incoming step
  rw [promptBytes_eq, promptBytes_eq, trace, came, List.length_append, List.length_append]
  omega

theorem visits_prompt {sink : Option (BodySink σ)} {s t : DriveState σ} (sound : DriveSound s)
    (visits : Visits sink s t) :
    promptBytes s.socket + (receivedBytes s.trace).length =
      promptBytes t.socket + (receivedBytes t.trace).length := by
  obtain ⟨got, trace, came, -⟩ := visits_incoming sound visits
  rw [promptBytes_eq, promptBytes_eq, trace, came, List.length_append, List.length_append]
  omega

theorem stream_cut {u got read left : Bytes} (stream : u ++ got = read ++ left)
    (long : read.length < u.length) :
    u.take read.length = read ∧ (u.drop read.length).take 1 = left.take 1 := by
  have front : (u ++ got).take read.length = u.take read.length :=
    List.take_append_of_le_length (Nat.le_of_lt long)
  have back : (u ++ got).drop read.length = u.drop read.length ++ got :=
    List.drop_append_of_le_length (Nat.le_of_lt long)
  rw [stream, List.take_left] at front
  rw [stream, List.drop_left] at back
  refine ⟨front.symm, ?_⟩
  rw [back, List.take_append_of_le_length]
  rw [List.length_drop]
  omega

theorem large_turn {sink : Option (BodySink σ)} {s t : DriveState σ} (sound : DriveSound s)
    (turned : processOne sink s = (t, .stop .tooLarge)) : InputResult.tooLarge ∈ feedResults t.trace := by
  have outcome := turn_outcome sound turned
  have fed := processOne_feeds sink (processOne_paid turned (by simp))
  rw [turned] at fed
  rw [fed]
  cases outcome with
  | refused _ y z n result held within moved unwilling kind => simp at kind
  | acked _ z n data turn held moved goes => cases goes
  | ran _ read rest out y turn ready cut run idle next vain moved goes => cases goes
  | rejected _ answer result ready feeds kind told within next moved =>
    rw [feeds]
    rcases kind with bad | large
    · simp [bad, mapInputResult] at told
    · simp [large]

theorem full_stops_short {sink : Option (BodySink σ)} {s t : DriveState σ} (sound : DriveSound s)
    (ready : Ready s.reader.input) (returns : Returns sink s t .tooLarge)
    (fresh : InputResult.tooLarge ∉ feedResults t.trace) :
    StopsShort s.reader.input (unparsed s.reader) s.processBudget ∧
      readBufferBytes + (s.processBudget - 1) ≤
        (unparsed s.reader).length + min s.readBudget (promptBytes s.socket) := by
  obtain ⟨last, visits, stops⟩ := returns
  obtain ⟨read, out, got, progress, run, still⟩ := visits_progress sound ready visits
  have sound' := visits_sound sound visits
  rcases driveStep_inv stops with ⟨more, ⟨-, goes⟩ | ⟨result, turned, same⟩⟩ |
    ⟨more, u, turned, received⟩ | ⟨drained, received⟩
  · simp at goes
  · rw [Option.some.injEq] at same
    subst same
    exact absurd (large_turn sound' turned) fresh
  · have outcome := turn_outcome sound' turned
    have next := (turn_sound sound' outcome).2 (by simp)
    obtain ⟨front, full⟩ := receive_refused next received (.inr rfl)
    obtain ⟨read', out', progress', run', still', leaves⟩ := turn_progress sound' still outcome (by simp)
    have width : (unparsed u.reader).length = readBufferBytes := by
      rw [unparsed, front, List.drop_zero]
      exact full
    have positive : 0 < readBufferBytes := by decide
    rcases leaves rfl with none | ⟨rfl, waits⟩
    · rw [none, List.length_nil] at width
      omega
    · have same := progress'.stream
      rw [List.nil_append, List.append_nil] at same
      have paid := processOne_paid turned (by simp)
      have window := slice_eq last
      have short := inputAct_wait waits
      rw [window, List.length_take, same, width] at short
      have one : last.processBudget = 1 := by
        have bound := sound'.processes
        simp only [processBudgetBytes] at bound
        simp only [readBufferBytes] at short
        omega
      have spent := progress.paid
      have reads := progress.readLeft
      have budget := sound.reads
      have stream := progress.stream
      have lengths := congrArg List.length stream
      rw [List.length_append, List.length_append, same, width] at lengths
      have prompt := visits_prompt sound visits
      rw [progress.received, List.length_append] at prompt
      simp only [readBufferBytes, readBudgetBytes] at lengths budget ⊢
      obtain ⟨head, next⟩ := stream_cut stream (by omega)
      have count : s.processBudget - 1 = read.length := by omega
      refine ⟨⟨by omega, out, settled last.reader.input, ?_, ?_⟩, by omega⟩
      · rw [count, head]
        exact run
      · rw [count, next, ← one, ← window, ← (steps_nil run').2]
        exact waits
  · obtain ⟨front, full⟩ := receive_refused sound' received (.inr rfl)
    rw [front, full] at drained
    exact absurd (by decide) drained

structure AtLastByte (s : DriveState σ) : Prop where
  sound : DriveSound s
  ready : Ready s.reader.input
  last : s.processBudget = 1
  more : unparsed s.reader ≠ []
  waits : inputAct (settled s.reader.input) ((unparsed s.reader).take 1) = .wait
  fresh : InputResult.tooLarge ∉ feedResults s.trace

theorem waiting_feed {s : DriveState σ} {read rest out : Bytes} {y : HttpInput}
    (ready : Ready s.reader.input) (cut : slice s = read ++ rest)
    (run : Steps inputMachine (settled s.reader.input) read out y) (waits : inputAct y rest = .wait) :
    (ckHttpInputFeed s.reader.input s.reader.beginPos (slice s)).result ≠ .badRequest ∧
      (ckHttpInputFeed s.reader.input s.reader.beginPos (slice s)).result ≠ .tooLarge := by
  have lives : ¬ ((ckHttpInputFeed s.reader.input s.reader.beginPos (slice s)).result = .badRequest ∨
      (ckHttpInputFeed s.reader.input s.reader.beginPos (slice s)).result = .tooLarge) := by
    intro refuses
    have halts := feed_halts ready refuses
    rw [cut] at halts
    exact halts.not_waits run waits
  exact not_or.mp lives

theorem waiting_turn {sink : Option (BodySink σ)} {s t : DriveState σ} {turn : Turn}
    {read rest out : Bytes} {y : HttpInput} (accepting : Accepting sink)
    (ready : Ready s.reader.input) (paid : s.processBudget ≠ 0) (cut : slice s = read ++ rest)
    (run : Steps inputMachine (settled s.reader.input) read out y) (waits : inputAct y rest = .wait)
    (some : rest ≠ []) (outcome : TurnOutcome sink s (t, turn)) :
    ∃ taken more out', read = taken ++ more ∧ Moved s t t.reader.input taken out' ∧
      (∃ out'', Steps inputMachine (settled t.reader.input) more out'' y) ∧ Ready t.reader.input ∧
      Goes t taken.length turn ∧ t.reader.input.messageComplete = false ∧
      (taken = [] → inputAct (settled t.reader.input) (slice s) = .wait) := by
  have stopped : Stopped inputMachine y rest := stopped_of_wait waits
  cases outcome with
  | spent empty => exact absurd empty paid
  | again _ done moved => simp [ready.live] at done
  | refused _ x z n result held within moved unwilling kind => exact absurd accepting unwilling
  | acked _ z n data _ held moved goes => exact absurd ready.no_span held.span
  | complete _ read' rest' n e x ready cut' wide within run' ends idle header done moved =>
    have halts : Halts (settled s.reader.input) (slice s) :=
      ⟨read', rest', [], e, n, _, cut', run', ends⟩
    rw [cut] at halts
    exact absurd waits (halts.not_waits run)
  | rejected _ fed result ready feeds kind told within next moved =>
    obtain ⟨bad, large⟩ := waiting_feed ready cut run waits
    rw [feeds] at bad large
    rcases kind with kind | kind
    · exact absurd kind bad
    · exact absurd kind large
  | ran _ taken left out' x _ ready cut' run' idle next vain moved goes =>
    have front : taken <+: slice s := cut' ▸ List.prefix_append taken left
    have front' : read <+: slice s := cut ▸ List.prefix_append read rest
    have short : taken.length ≤ read.length := by
      by_contra long
      obtain ⟨r, q, rfl, -, beyond⟩ := steps_linear run run' front' front (by omega)
      rw [cut, List.append_assoc, List.append_cancel_left_eq] at cut'
      obtain ⟨rfl, -, -⟩ := stopped_no_steps stopped beyond (cut' ▸ List.prefix_append r left)
      simp at long
    obtain ⟨more, out'', rfl, -, beyond⟩ := steps_linear run' run front front' short
    have live : x.messageComplete = false := by
      by_contra done
      have done : (settled x).messageComplete = true := eq_true_of_ne_false done
      have end_ : Stopped inputMachine (settled x) (more ++ rest) := stopped_of_done done
      obtain ⟨rfl, -, rfl⟩ := stopped_no_steps end_ beyond (List.prefix_append more rest)
      obtain ⟨b, tail, rfl⟩ := List.exists_cons_of_ne_nil some
      simp [inputAct, done] at waits
    have still : Ready x := by
      rcases next with ⟨done, -⟩ | ready
      · simp [live] at done
      · exact ready
    rw [moved.input]
    refine ⟨taken, more, out', rfl, moved, ⟨out'', beyond⟩, still, goes, live, ?_⟩
    intro none
    have all := vain none
    rw [none, List.nil_append] at cut'
    rw [cut']
    exact all

structure StopsAhead (s : DriveState σ) : Prop where
  sound : DriveSound s
  ready : Ready s.reader.input
  fresh : InputResult.tooLarge ∉ feedResults s.trace
  long : s.processBudget ≤ (unparsed s.reader).length
  short : StopsShort s.reader.input (unparsed s.reader) s.processBudget

theorem StopsAhead.left {s : DriveState σ} (ahead : StopsAhead s) :
    (unparsed s.reader).drop (s.processBudget - 1) ≠ [] := by
  have positive := ahead.short.1
  have long := ahead.long
  rw [ne_eq, List.drop_eq_nil_iff]
  omega

theorem stops_short_turn {sink : Option (BodySink σ)} {s : DriveState σ} (accepting : Accepting sink)
    (ahead : StopsAhead s) (several : s.processBudget ≠ 1) :
    ∃ t, driveStep sink s = (t, none) ∧ StopsAhead t ∧ t.processBudget < s.processBudget ∧
      t.readBudget = s.readBudget ∧ t.socket = s.socket ∧
      (unparsed t.reader).length + s.processBudget = (unparsed s.reader).length + t.processBudget := by
  have some := ahead.left
  obtain ⟨sound, ready, fresh, long, positive, out, y, run, waits⟩ := ahead
  have cut : slice s = (unparsed s.reader).take (s.processBudget - 1) ++
      ((unparsed s.reader).drop (s.processBudget - 1)).take 1 := by
    rw [slice_eq, ← List.take_add, Nat.sub_add_cancel positive]
  have one : ((unparsed s.reader).drop (s.processBudget - 1)).take 1 ≠ [] := by
    simpa using some
  have width : (slice s).length = s.processBudget := by
    rw [slice_eq, List.length_take]
    omega
  have more : s.reader.beginPos < s.reader.endPos := by
    have room : (unparsed s.reader).length = s.reader.endPos - s.reader.beginPos := List.length_drop
    omega
  have fed := processOne_feeds sink (s := s) (by omega)
  have plain := waiting_feed ready cut run waits
  cases turned : processOne sink s with
  | mk t turn =>
    have outcome := turn_outcome sound turned
    rw [turned] at fed
    obtain ⟨taken, left, out', split, moved, ⟨out'', rest⟩, still, goes, live, vain⟩ :=
      waiting_turn accepting ready (by omega) cut run waits one outcome
    have size : 0 < taken.length := by
      rw [List.length_pos_iff]
      intro none
      have small := inputAct_wait (vain none)
      omega
    have within := congrArg List.length split
    rw [List.length_take, List.length_append] at within
    have paid := moved.process
    obtain ⟨-, -, tail⟩ := moved_reader sound.reader moved
      (by rw [cut, split, List.append_assoc] : slice s = taken ++ _)
    have lengths := congrArg List.length tail
    rw [List.length_append] at lengths
    have next : turn = .next := by
      cases goes with
      | complete done => simp [live] at done
      | drained _ reached =>
        have none : unparsed t.reader = [] := by
          rw [unparsed, reached]
          exact List.drop_length
        rw [none, List.length_nil] at lengths
        omega
      | vain _ _ none => omega
      | next => rfl
    subst next
    have fresh' : InputResult.tooLarge ∉ feedResults t.trace := by
      rw [fed, List.mem_append, List.mem_singleton]
      exact not_or.mpr ⟨fresh, plain.2.symm⟩
    have onward : StopsShort t.reader.input (unparsed t.reader) t.processBudget := by
      have place : s.processBudget - 1 = taken.length + (t.processBudget - 1) := by omega
      rw [place, tail, List.drop_length_add_append] at waits
      rw [place, tail, List.take_length_add_append, List.append_cancel_left_eq] at split
      exact ⟨by omega, out'', y, by rw [split]; exact rest, waits⟩
    exact ⟨t, by simp [driveStep, more, turned],
      ⟨(turn_sound sound outcome).2 (by simp), still, fresh', by omega, onward⟩, by omega,
      moved.readLeft, moved.socket, by omega⟩

theorem stops_short_visits {sink : Option (BodySink σ)} {s : DriveState σ} (accepting : Accepting sink)
    (ahead : StopsAhead s) :
    ∃ last, Visits sink s last ∧ AtLastByte last ∧ last.readBudget = s.readBudget ∧
      last.socket = s.socket ∧
      (unparsed last.reader).length + (s.processBudget - 1) = (unparsed s.reader).length := by
  induction budget : s.processBudget using Nat.strongRecOn generalizing s with
  | ind k ih =>
    subst budget
    by_cases last : s.processBudget = 1
    · have some := ahead.left
      obtain ⟨sound, ready, fresh, long, positive, out, y, run, waits⟩ := ahead
      rw [last] at run waits some ⊢
      rw [Nat.sub_self, List.take_zero] at run
      rw [Nat.sub_self, List.drop_zero] at waits some
      rw [(steps_nil run).2] at waits
      exact ⟨s, .refl s, ⟨sound, ready, last, some, waits, fresh⟩, rfl, rfl, rfl⟩
    · obtain ⟨t, step, onward, less, reads, socket, count⟩ := stops_short_turn accepting ahead last
      obtain ⟨last, visits, reached, reads', socket', count'⟩ := ih t.processBudget less onward rfl
      have positive := onward.short.1
      exact ⟨last, .step step visits, reached, reads'.trans reads, socket'.trans socket, by omega⟩

theorem take_one_append {s t : Bytes} (some : s ≠ []) : (s ++ t).take 1 = s.take 1 := by
  rw [List.take_append_of_le_length]
  exact List.length_pos_iff.mpr some

/-- The turn at the last byte is in vain: the loop is left with everything as it was. -/
theorem atLastByte_leaves {sink : Option (BodySink σ)} {s : DriveState σ} (accepting : Accepting sink)
    (at_ : AtLastByte s) :
    ∃ u y out, processOne sink s = (u, .leave) ∧ Moved s u y [] out ∧ AtLastByte u := by
  obtain ⟨sound, ready, last, more, waits, fresh⟩ := at_
  have cut : slice s = [] ++ (unparsed s.reader).take 1 := by
    rw [slice_eq, last, List.nil_append]
  have paid : s.processBudget ≠ 0 := by omega
  have run : Steps inputMachine (settled s.reader.input) [] [] (settled s.reader.input) := Steps.refl _
  have fed := processOne_feeds sink paid
  have plain := waiting_feed ready cut run waits
  cases turned : processOne sink s with
  | mk u turn =>
    have outcome := turn_outcome sound turned
    rw [turned] at fed
    obtain ⟨taken, left, out, split, moved, -, still, goes, live, vain⟩ :=
      waiting_turn accepting ready paid cut run waits (by simpa using more) outcome
    obtain ⟨rfl, -⟩ := List.append_eq_nil_iff.mp split.symm
    have same : unparsed u.reader = unparsed s.reader := by
      have begins := moved.beginPos
      rw [List.length_nil, Nat.add_zero] at begins
      rw [unparsed, unparsed, moved.buffer, begins]
    have quiet := vain rfl
    rw [cut, List.nil_append, ← same] at quiet
    have leaves : turn = .leave := by
      cases goes with
      | complete done => simp [live] at done
      | drained => rfl
      | vain => rfl
      | next _ _ some => simp at some
    subst leaves
    refine ⟨u, _, out, rfl, moved, (turn_sound sound outcome).2 (by simp), still, ?_, ?_, quiet, ?_⟩
    · rw [moved.process, last]
      rfl
    · rw [same]
      exact more
    · rw [fed, List.mem_append, List.mem_singleton]
      exact not_or.mpr ⟨fresh, plain.2.symm⟩

theorem receiveOne_prompt {s : DriveState σ} (room : s.reader.endPos < readBufferBytes)
    (reads : s.readBudget ≠ 0) (prompt : promptBytes s.socket ≠ 0) : (receiveOne s).2 = none := by
  cases ahead : s.socket with
  | nil => simp [ahead, promptBytes] at prompt
  | cons event events =>
    cases event with
    | data first rest =>
      obtain ⟨length, positive, received⟩ := receiveOne_data ahead room reads
      rw [received]
    | intr => simp [receiveOne, ahead, recv]
    | again | eof | error => simp [ahead, promptBytes] at prompt

theorem AtLastByte.received {s t : DriveState σ} {got : Bytes} (at_ : AtLastByte s)
    (kept : Received s t got) (feeds : feedResults t.trace = feedResults s.trace) : AtLastByte t := by
  refine ⟨received_sound at_.sound kept, by rw [kept.input]; exact at_.ready,
    kept.process.trans at_.last, ?_, ?_, by rw [feeds]; exact at_.fresh⟩
  · rw [kept.unparsed_eq]
    simp [at_.more]
  · rw [kept.input, kept.unparsed_eq, take_one_append at_.more]
    exact at_.waits

theorem fills_too_large {sink : Option (BodySink σ)} {s : DriveState σ} (accepting : Accepting sink)
    (at_ : AtLastByte s) (fills : readBufferBytes ≤
      (unparsed s.reader).length + min s.readBudget (promptBytes s.socket)) :
    ∃ t, Returns sink s t .tooLarge ∧ InputResult.tooLarge ∉ feedResults t.trace := by
  -- every recv takes something off the socket, so its weight is the measure
  induction weight : socketWeight s.socket using Nat.strongRecOn generalizing s with
  | ind k ih =>
    obtain ⟨u, y, out, turned, moved, next⟩ := atLastByte_leaves accepting at_
    have more : s.reader.beginPos < s.reader.endPos := by
      have some := List.length_pos_iff.mpr at_.more
      rw [unparsed, List.length_drop] at some
      simp only [ConnectionReader.endPos]
      omega
    have step : driveStep sink s = receiveStep u := by simp [driveStep, more, turned]
    have begins := moved.beginPos
    rw [List.length_nil, Nat.add_zero] at begins
    have same : unparsed u.reader = unparsed s.reader := by
      rw [unparsed, unparsed, moved.buffer, begins]
    rw [← same, ← moved.readLeft, ← moved.socket] at fills
    rw [← moved.socket] at weight
    have width : (unparsed u.reader).length = u.reader.endPos - u.reader.beginPos := List.length_drop
    have fits : u.reader.endPos ≤ readBufferBytes := next.sound.reader.fits
    have positive : 0 < readBufferBytes := by decide
    have paid : u.processBudget ≠ 0 := by rw [next.last]; decide
    rcases receiveStep_cases u with ⟨v, result, ends, room⟩ | ⟨v, received, room⟩
    · cases room with
      | spent _ empty => exact absurd empty paid
      | full left full front =>
        exact ⟨u, ⟨s, .refl s, step.trans ends⟩, next.fresh⟩
      | starved _ room empty spare => omega
    · cases room with
      | ready _ room reads left spare =>
        have space := compacts_room next.sound.reader room spare
        have goes : (receiveOne v).2 = none := receiveOne_prompt space (by rw [room.read]; exact reads)
          (by rw [room.socket]; omega)
        have onward : receiveStep u = ((receiveOne v).1, none) := received.trans (Prod.ext rfl goes)
        have outcome := receiveStep_outcome next.sound.reader.begins next.sound.reader.fits next.sound.reads
        have prompt := receiveStep_prompt onward
        have feeds := receiveStep_feeds u
        have less := receiveOne_weight (Prod.ext rfl goes : receiveOne v = ((receiveOne v).1, none))
        rw [room.socket] at less
        rw [onward] at outcome feeds
        generalize (receiveOne v).1 = w at *
        cases outcome with
        | more _ got kept =>
          have count := congrArg List.length kept.received
          rw [List.length_append] at count
          have paid := kept.paid
          have left := kept.readLeft
          have lengths := congrArg List.length kept.unparsed_eq
          rw [List.length_append] at lengths
          obtain ⟨t, ⟨last, visits, stops⟩, fresh⟩ := ih (socketWeight w.socket) (by omega)
            (next.received kept feeds) (by omega) rfl
          exact ⟨t, ⟨last, .step (step.trans onward) visits, stops⟩, fresh⟩

/-- From a ready input, exactly when a drive invents a size error. -/
theorem ready_invents_iff {sink : Option (BodySink σ)} {s : DriveState σ} (accepting : Accepting sink)
    (sound : DriveSound s) (ready : Ready s.reader.input)
    (fresh : InputResult.tooLarge ∉ feedResults s.trace) :
    (∃ t, Returns sink s t .tooLarge ∧ InputResult.tooLarge ∉ feedResults t.trace) ↔
      StopsShort s.reader.input (unparsed s.reader) s.processBudget ∧
      readBufferBytes + (s.processBudget - 1) ≤
        (unparsed s.reader).length + min s.readBudget (promptBytes s.socket) := by
  constructor
  · rintro ⟨t, returns, clean⟩
    exact full_stops_short sound ready returns clean
  · rintro ⟨short, fills⟩
    have reads := sound.reads
    have positive := short.1
    have long : s.processBudget ≤ (unparsed s.reader).length := by
      simp only [readBufferBytes, readBudgetBytes] at fills reads
      omega
    obtain ⟨last, visits, reached, budget, socket, count⟩ :=
      stops_short_visits accepting ⟨sound, ready, fresh, long, short⟩
    rw [← budget, ← socket] at fills
    obtain ⟨t, ⟨final, more, stops⟩, clean⟩ := fills_too_large accepting reached (by omega)
    exact ⟨t, ⟨final, visits.trans more, stops⟩, clean⟩

theorem held_resumes {sink : Option (BodySink σ)} {s : DriveState σ} {z : HttpInput} {n : Nat}
    (accepting : Accepting sink) (sound : DriveSound s) (held : Held s.reader.input z n)
    (fresh : InputResult.tooLarge ∉ feedResults s.trace) :
    ∃ t, Resumed sink s t z n ∧ InputResult.tooLarge ∉ feedResults t.trace := by
  obtain ⟨fits, spans⟩ := processOne_held sink sound held
  have paid : s.processBudget ≠ 0 := by
    rw [sound.fresh held.span]
    decide
  have fed := processOne_feeds sink paid
  have told : (ckHttpInputFeed s.reader.input s.reader.beginPos (slice s)).result = .body := by
    simp [ckHttpInputFeed, held.span]
  cases turned : processOne sink s with
  | mk t turn =>
    rw [turned] at spans fed
    have clean : InputResult.tooLarge ∉ feedResults t.trace := by
      rw [fed, told]
      simpa using fresh
    generalize spanned : spanOf s (heldFeed s.reader.input) = data at spans
    cases spans with
    | refused _ result moved unwilling kind => exact absurd accepting unwilling
    | accepted _ _ moved goes =>
      simp only [heldFeed, Nat.zero_add] at moved goes
      exact ⟨t, accepted_resumes sound held turned fits moved goes, clean⟩

theorem resume_held {x z : HttpInput} {n : Nat} (held : Held x z n) : resume x = (z, n) := by
  rw [resume, held.ack]

theorem resume_idle {x : HttpInput} (idle : x.pendingBodyLength = 0) : resume x = (x, 0) := by
  simp [resume, ckHttpInputAckBody, idle]

/-- The drive as a run from its start: an invented size error is one that some return has. -/
theorem largeByFeed_iff (reader : ConnectionReader) (socket : Socket) (sink : Option (BodySink σ))
    (context : σ) : LargeByFeed (ckHttpConnectionReaderDrive reader socket sink context) ↔
      ¬ ∃ t, Returns sink (startDrive reader socket context) t .tooLarge ∧
        InputResult.tooLarge ∉ feedResults t.trace := by
  have returns := drive_returns reader socket sink context
  generalize ckHttpConnectionReaderDrive reader socket sink context = driven at returns
  constructor
  · rintro told ⟨t, large, clean⟩
    obtain ⟨rfl, result⟩ := returns_unique returns large
    exact clean (told result)
  · intro honest large
    by_contra clean
    rw [large] at returns
    exact honest ⟨_, returns, clean⟩

theorem done_not_short {x : HttpInput} {s : Bytes} {budget : Nat} (done : x.messageComplete = true)
    (long : budget ≤ s.length) : ¬ StopsShort x s budget := by
  rintro ⟨positive, out, y, run, waits⟩
  have ended : (settled x).messageComplete = true := done
  obtain ⟨-, -, rfl⟩ := stopped_no_steps (stopped_of_done ended) run (List.prefix_refl _)
  cases tail : s.drop (budget - 1) with
  | nil =>
    rw [List.drop_eq_nil_iff] at tail
    omega
  | cons b rest =>
    rw [tail] at waits
    simp [inputAct, ended] at waits

theorem BufferFills.long {reader : ConnectionReader} {socket : Socket} (fills : BufferFills reader socket) :
    processBudgetBytes ≤ (unparsed reader).length := by
  simp only [BufferFills, readBufferBytes, readBudgetBytes, processBudgetBytes] at fills ⊢
  omega

/-- From a held span, exactly when a drive invents a size error. -/
theorem held_invents_iff {reader : ConnectionReader} {sink : Option (BodySink σ)} {z : HttpInput} {n : Nat}
    (sound : ReaderSound reader) (accepting : Accepting sink) (socket : Socket) (context : σ)
    (held : Held reader.input z n) :
    (∃ t, Returns sink (startDrive reader socket context) t .tooLarge ∧
      InputResult.tooLarge ∉ feedResults t.trace) ↔ CutAtBreak reader ∧ BufferFills reader socket := by
  have start := startDrive_sound sound socket context
  obtain ⟨t, resumed, clean⟩ := held_resumes accepting start held (by simp [startDrive, feedResults])
  have within : n ≤ (unparsed reader).length := resumed.within
  have behind : unparsed t.reader = (unparsed reader).drop n := resumed.buffered
  have budget : t.processBudget = processBudgetBytes - n := resumed.process
  have reads : t.readBudget = readBudgetBytes := resumed.readLeft
  have ahead : t.socket = socket := resumed.socket
  rw [CutAtBreak, resume_held held]
  rcases resumed.returns with ⟨done, complete⟩ | ⟨ready, same⟩
  · constructor
    · rintro ⟨last, large, -⟩
      exact absurd (returns_unique complete large).2 (by simp)
    · rintro ⟨short, fills⟩
      refine absurd short (done_not_short done ?_)
      have enough := fills.long
      rw [List.length_drop]
      dsimp only
      omega
  · have whole := ready_invents_iff accepting resumed.sound (by rw [resumed.input]; exact ready) clean
    rw [resumed.input, behind, budget, reads, ahead, List.length_drop] at whole
    simp only [same]
    rw [whole]
    constructor
    · rintro ⟨short, fills⟩
      have positive := short.1
      refine ⟨short, ?_⟩
      rw [BufferFills]
      omega
    · rintro ⟨short, fills⟩
      have positive := short.1
      have enough := fills.long
      rw [BufferFills] at fills
      exact ⟨short, by omega⟩

/-- With a sink that takes every span, TOO_LARGE is the answer of a feed unless the process
    budget ends on a byte the input does not take alone and the buffer fills up behind it. -/
theorem buffer_invents_no_size_iff {reader : ConnectionReader} {sink : Option (BodySink σ)}
    (sound : ReaderSound reader) (accepting : Accepting sink) (socket : Socket) (context : σ) :
    LargeByFeed (ckHttpConnectionReaderDrive reader socket sink context) ↔
      ¬ (CutAtBreak reader ∧ BufferFills reader socket) := by
  rw [largeByFeed_iff, not_iff_not]
  cases sound.input with
  | ready ready =>
    have whole := ready_invents_iff accepting (startDrive_sound sound socket context) ready
      (by simp [startDrive, feedResults])
    rw [CutAtBreak, BufferFills, resume_idle ready.no_span, List.drop_zero, Nat.sub_zero]
    exact whole
  | done done idle header =>
    rw [CutAtBreak, resume_idle idle, List.drop_zero, Nat.sub_zero]
    constructor
    · rintro ⟨t, large, -⟩
      obtain ⟨-, result⟩ := returns_unique (drive_returns reader socket sink context) large
      exact absurd result (drive_done sound done socket sink context).2.2.1
    · rintro ⟨short, fills⟩
      exact absurd short (done_not_short done fills.long)
  | held z n held within paid => exact held_invents_iff sound accepting socket context held

theorem drive_invents {reader : ConnectionReader} {sink : Option (BodySink σ)} {socket : Socket}
    (sound : ReaderSound reader) (accepting : Accepting sink) (context : σ) (ready : Ready reader.input)
    (short : StopsShort reader.input (unparsed reader) processBudgetBytes)
    (fills : BufferFills reader socket) :
    (ckHttpConnectionReaderDrive reader socket sink context).2 = .tooLarge ∧
      ¬ LargeByFeed (ckHttpConnectionReaderDrive reader socket sink context) := by
  have invents := (ready_invents_iff accepting (startDrive_sound sound socket context) ready
    (by simp [startDrive, feedResults])).mpr ⟨short, fills⟩
  refine ⟨?_, fun honest => (largeByFeed_iff reader socket sink context).mp honest invents⟩
  obtain ⟨t, large, -⟩ := invents
  exact (returns_unique (drive_returns reader socket sink context) large).2

theorem chunk_stops_short {x : HttpInput} (data rest : Bytes) (ready : Ready x)
    (header : x.headerComplete = true) (mode : x.request.bodyMode = .chunked)
    (opened : x.chunked.state = .dataState) (some : 0 < data.length)
    (size : data.length = x.chunked.chunkRemaining)
    (room : x.chunked.totalDecoded + data.length ≤ uint64Max) :
    StopsShort x (data ++ cr :: rest) (data.length + 1) := by
  have steps := steps_data data ready.decoder_sound opened (List.length_pos_iff.mp some)
    (Nat.le_of_eq size) room
  have state : (takeData x.chunked data.length).state = .dataCrlf := by
    simp [takeData, size]
  refine ⟨Nat.succ_pos _, data, settled { x with chunked := takeData x.chunked data.length }, ?_, ?_⟩
  · rw [Nat.add_sub_cancel, List.take_left]
    exact steps_chunked ready.live header mode steps
  · rw [Nat.add_sub_cancel, List.drop_left, inputAct_chunked ready.live header mode]
    simp [chunkAct, state]

/-- The input behind a header and the line of a chunk of 32767 bytes. -/
def cutInput : HttpInput :=
  (ckHttpInputFeed ckHttpInputInit 0
    (ascii "POST / HTTP/1.1\r\nTransfer-Encoding: chunked\r\n\r\n7fff\r\n")).input

def run (count : Nat) (b : UInt8) : Bytes := List.replicate count b

theorem run_length (count : Nat) (b : UInt8) : (run count b).length = count := List.length_replicate

/-- A full buffer: the chunk, its line break, and the beginning of a longer one. -/
def cutReader : ConnectionReader :=
  ⟨cutInput, none, run 32767 97 ++ (ascii "\r\nffff\r\n" ++ run 32761 98), 0⟩

theorem cutInput_ready : Ready cutInput := by
  have told : (ckHttpInputFeed ckHttpInputInit 0
      (ascii "POST / HTTP/1.1\r\nTransfer-Encoding: chunked\r\n\r\n7fff\r\n")).result = .incomplete := by
    decide +kernel
  have outcome := ckHttpInputFeed_outcome (a := 0)
    (s := ascii "POST / HTTP/1.1\r\nTransfer-Encoding: chunked\r\n\r\n7fff\r\n") init_ready
  unfold cutInput
  generalize ckHttpInputFeed ckHttpInputInit 0
    (ascii "POST / HTTP/1.1\r\nTransfer-Encoding: chunked\r\n\r\n7fff\r\n") = fed at told outcome
  cases outcome with
  | quiet read rest y pointer cut run waits next => exact next
  | span => simp at told
  | complete => simp at told
  | refuse result read rest n consumed e y cut run ends kind within reported next =>
    dsimp only at told
    simp [told] at kind
  | overflow => simp at told

theorem cutReader_length : cutReader.buffer.length = readBufferBytes := by
  have middle : (ascii "\r\nffff\r\n").length = 8 := by decide
  simp only [cutReader, List.length_append, run_length, middle, readBufferBytes]

theorem cutReader_begin : cutReader.beginPos = 0 := rfl

theorem cutReader_input : cutReader.input = cutInput := by simp only [cutReader]

theorem cutReader_unparsed : (unparsed cutReader).length = readBufferBytes := by
  rw [unparsed, cutReader_begin, List.drop_zero, cutReader_length]

theorem cutReader_sound : ReaderSound cutReader := by
  refine ⟨?_, Nat.le_of_eq cutReader_length, .ready ?_⟩
  · rw [cutReader_begin]
    exact Nat.zero_le _
  · rw [cutReader_input]
    exact cutInput_ready

/-- On a quiet socket the reader waits for more. -/
theorem buffer_invents_no_size_quiet :
    LargeByFeed (ckHttpConnectionReaderDrive cutReader [] (some takeAll) ()) := by
  refine (buffer_invents_no_size_iff cutReader_sound takeAll_accepting [] ()).mpr ?_
  rintro ⟨-, fills⟩
  rw [BufferFills, cutReader_unparsed] at fills
  simp [promptBytes, readBufferBytes, processBudgetBytes] at fills

theorem cutReader_stops_short : StopsShort cutInput (unparsed cutReader) processBudgetBytes := by
  have facts : cutInput.headerComplete = true ∧ cutInput.request.bodyMode = .chunked ∧
      cutInput.chunked.state = .dataState ∧ cutInput.chunked.chunkRemaining = 32767 ∧
      cutInput.chunked.totalDecoded = 0 := by
    decide +kernel
  obtain ⟨header, mode, opened, remaining, total⟩ := facts
  have break_ : ascii "\r\nffff\r\n" = cr :: ascii "\nffff\r\n" := by decide
  have whole : unparsed cutReader =
      run 32767 97 ++ cr :: (ascii "\nffff\r\n" ++ run 32761 98) := by
    rw [unparsed, cutReader_begin, List.drop_zero, ← List.cons_append, ← break_]
    simp only [cutReader]
  have short := chunk_stops_short (run 32767 97) (ascii "\nffff\r\n" ++ run 32761 98) cutInput_ready header mode opened
    (by rw [run_length]; decide) (by rw [run_length, remaining])
    (by rw [run_length, total]; decide)
  rw [run_length] at short
  rw [whole]
  exact short

/-- Two chunks and nothing wrong with them: the reader answers TOO_LARGE, no feed did. -/
theorem full_buffer_rejects :
    let driven := ckHttpConnectionReaderDrive cutReader [.data 98 (run 32766 98)]
      (some takeAll) ()
    cutReader.beginPos = 0 ∧ cutReader.endPos = readBufferBytes ∧ driven.2 = .tooLarge ∧
      ¬ LargeByFeed driven := by
  have ready : Ready cutReader.input := by
    rw [cutReader_input]
    exact cutInput_ready
  have short : StopsShort cutReader.input (unparsed cutReader) processBudgetBytes := by
    rw [cutReader_input]
    exact cutReader_stops_short
  have fills : BufferFills cutReader [.data 98 (run 32766 98)] := by
    rw [BufferFills, cutReader_unparsed]
    simp only [promptBytes, run_length]
    decide
  exact ⟨cutReader_begin, cutReader_length, drive_invents cutReader_sound takeAll_accepting () ready
    short fills⟩

end CkartaBufferLimit
