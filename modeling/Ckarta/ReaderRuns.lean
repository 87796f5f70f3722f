import Ckarta.ReaderTurns

/-!
The other half of a step, making room and receiving, and what holds in every state of
every drive of a reader that started from its initial state.
-/
namespace CkartaReaderRuns
open MachineWord PrefixMachine CkartaHttpParser CkartaHttpInput CkartaInputMachine CkartaInputStream
  CkartaConnectionReader CkartaReaderSteps CkartaReaderTurns
variable {σ : Type}

structure Received (s t : DriveState σ) (got : Bytes) : Prop where
  input : t.reader.input = s.reader.input
  begins : t.reader.beginPos ≤ t.reader.buffer.length
  fits : t.reader.buffer.length ≤ readBufferBytes
  unparsed_eq : unparsed t.reader = unparsed s.reader ++ got
  unread_eq : unread s.socket = got ++ unread t.socket
  process : t.processBudget = s.processBudget
  paid : got.length ≤ s.readBudget
  readLeft : t.readBudget = s.readBudget - got.length
  consumed : consumedBytes t.trace = consumedBytes s.trace
  delivered : deliveredBytes t.trace = deliveredBytes s.trace
  received : receivedBytes t.trace = receivedBytes s.trace ++ got

inductive ReceiveOutcome (s : DriveState σ) : DriveState σ × Option ReadResult → Prop where
  | idle (t : DriveState σ) (kept : Received s t []) : ReceiveOutcome s (t, some .incomplete)
  | full (t : DriveState σ) (kept : Received s t []) (full : s.reader.endPos = readBufferBytes)
      (front : s.reader.beginPos = 0) : ReceiveOutcome s (t, some .tooLarge)
  | more (t : DriveState σ) (got : Bytes) (kept : Received s t got) : ReceiveOutcome s (t, none)
  | eof (t : DriveState σ) (result : ReadResult) (kept : Received s t [])
      (told : result = mapInputResult (ckHttpInputEof s.reader.input)) :
      ReceiveOutcome s (t, some result)
  | error (t : DriveState σ) (kept : Received s t []) : ReceiveOutcome s (t, some .ioError)

theorem recv_data {socket left : Socket} {length : Nat} {bytes : Bytes}
    (h : recv socket length = (.data bytes, left)) :
    unread socket = bytes ++ unread left ∧ bytes.length ≤ length := by
  have does := recv_does socket length
  rw [h] at does
  cases does with
  | @data first rest events some =>
    have whole := List.take_append_drop length (first :: rest)
    refine ⟨?_, List.length_take_le _ _⟩
    generalize (first :: rest).drop length = tail at whole
    cases tail with
    | nil =>
      rw [List.append_nil] at whole
      rw [whole]
      rfl
    | cons b tail =>
      show first :: rest ++ unread events = _ ++ (b :: tail ++ unread events)
      rw [← List.append_assoc, whole]

theorem recv_quiet {socket left : Socket} {length : Nat} {outcome : RecvOutcome}
    (h : recv socket length = (outcome, left)) (quiet : ∀ bytes, outcome ≠ .data bytes) :
    unread socket = unread left := by
  have does := recv_does socket length
  rw [h] at does
  cases does with
  | data some => exact absurd rfl (quiet _)
  | dry | none | again | intr | eof | error => rfl

theorem Received.refl {s : DriveState σ} (begins : s.reader.beginPos ≤ s.reader.buffer.length)
    (fits : s.reader.buffer.length ≤ readBufferBytes) : Received s s [] :=
  ⟨rfl, begins, fits, by simp, rfl, rfl, Nat.zero_le _, rfl, rfl, rfl, by simp⟩

theorem Received.trans {s t u : DriveState σ} {got more : Bytes} (first : Received s t got)
    (second : Received t u more) : Received s u (got ++ more) where
  input := second.input.trans first.input
  begins := second.begins
  fits := second.fits
  unparsed_eq := by rw [second.unparsed_eq, first.unparsed_eq, List.append_assoc]
  unread_eq := by rw [first.unread_eq, second.unread_eq, List.append_assoc]
  process := second.process.trans first.process
  paid := by
    have left := first.readLeft
    have paid := first.paid
    have more := second.paid
    rw [List.length_append]
    omega
  readLeft := by rw [second.readLeft, first.readLeft, List.length_append, Nat.sub_sub]
  consumed := second.consumed.trans first.consumed
  delivered := second.delivered.trans first.delivered
  received := by rw [second.received, first.received, List.append_assoc]

theorem compacts_received {s t : DriveState σ} (begins : s.reader.beginPos ≤ s.reader.buffer.length)
    (fits : s.reader.buffer.length ≤ readBufferBytes) (room : Compacts s t) : Received s t [] := by
  refine ⟨room.input.1, ?_, ?_, ?_, by rw [room.socket]; rfl, room.process, Nat.zero_le _, room.read,
    by rw [room.trace], by rw [room.trace], by simp [room.trace]⟩
  all_goals
    rw [room.reader]
    split
  · exact Nat.zero_le _
  · exact begins
  · exact Nat.le_trans (by simp [ConnectionReader.compact]) fits
  · exact fits
  · simp [unparsed, ConnectionReader.compact]
  · simp

theorem receiveOne_outcome {s t : DriveState σ} (room : Received s t [])
    (reads : t.readBudget ≤ readBudgetBytes) : ReceiveOutcome s (receiveOne t) := by
  simp only [receiveOne]
  generalize window : (if readBufferBytes - t.reader.endPos < t.readBudget
    then readBufferBytes - t.reader.endPos else t.readBudget) = length
  have small : length ≤ readBufferBytes - t.reader.endPos ∧ length ≤ t.readBudget := by
    split at window <;> omega
  have fits := room.fits
  have still : ∀ left : Socket, unread t.socket = unread left →
      Received t { t with socket := left } [] := fun left same =>
    ⟨rfl, room.begins, fits, by simp, same, rfl, Nat.zero_le _, rfl, rfl, rfl, by simp⟩
  split
  · rename_i bytes left received
    obtain ⟨whole, short⟩ := recv_data received
    have bound : t.readBudget ≤ uint64Max := Nat.le_trans reads (by decide)
    have begins := room.begins
    refine .more _ bytes (room.trans ⟨rfl, ?_, ?_, ?_, whole, rfl, by omega, ?_, ?_, ?_, ?_⟩)
    · simp only [DriveState.emit, List.length_append]
      omega
    · simp only [DriveState.emit, List.length_append, ConnectionReader.endPos] at small ⊢
      omega
    · exact List.drop_append_of_le_length begins
    · exact subU64_of_le (by omega) bound
    · simp [DriveState.emit, consumedBytes]
    · simp [DriveState.emit, deliveredBytes]
    · simp [DriveState.emit, receivedBytes]
  · rename_i left received
    have same : mapInputResult (ckHttpInputEof t.reader.input) =
        mapInputResult (ckHttpInputEof s.reader.input) := by rw [room.input]
    refine .eof _ _ (room.trans ((still left (recv_quiet received (by simp))).trans ?_)) same
    split
    · exact ⟨rfl, room.begins, fits, by simp [unparsed], rfl, rfl, Nat.zero_le _, rfl, rfl, rfl, by simp⟩
    · exact .refl room.begins fits
  · rename_i left received
    exact .idle _ (room.trans (still left (recv_quiet received (by simp))))
  · rename_i left received
    exact .more _ [] (room.trans (still left (recv_quiet received (by simp))))
  · rename_i left received
    exact .error _ (room.trans (still left (recv_quiet received (by simp))))

theorem receiveStep_outcome {s : DriveState σ} (begins : s.reader.beginPos ≤ s.reader.buffer.length)
    (fits : s.reader.buffer.length ≤ readBufferBytes) (reads : s.readBudget ≤ readBudgetBytes) :
    ReceiveOutcome s (receiveStep s) := by
  have same := Received.refl begins fits
  rcases receiveStep_cases s with ⟨t, result, ends, room⟩ | ⟨t, received, room⟩
  · rw [ends]
    cases room with
    | spent more empty => exact .idle s same
    | full left full front => exact .full s same full front
    | starved t room empty spare => exact .idle t (compacts_received begins fits room)
  · rw [received]
    cases room with
    | ready t room reads' left spare =>
      exact receiveOne_outcome (compacts_received begins fits room) (by rw [room.read]; exact reads)

theorem moved_reader {s t : DriveState σ} {y : HttpInput} {read rest out : Bytes}
    (sound : ReaderSound s.reader) (moved : Moved s t y read out) (cut : slice s = read ++ rest) :
    t.reader.beginPos ≤ t.reader.buffer.length ∧ t.reader.buffer.length ≤ readBufferBytes ∧
      unparsed s.reader = read ++ unparsed t.reader := by
  obtain ⟨more, split⟩ := (slice_within s).1
  have begins := sound.begins
  have fits := sound.fits
  have moves := moved.beginPos
  rw [cut, List.append_assoc] at split
  have width := congrArg List.length split
  simp only [List.length_append, unparsed, List.length_drop] at width
  rw [moved.buffer]
  refine ⟨by omega, fits, ?_⟩
  have dropped : unparsed t.reader = (unparsed s.reader).drop read.length := by
    rw [unparsed, unparsed, moved.buffer, moved.beginPos, List.drop_drop]
  rw [dropped, ← split, List.drop_left]

theorem take_slice (s : DriveState σ) (n : Nat) :
    slice s = (slice s).take n ++ (slice s).drop n := (List.take_append_drop n (slice s)).symm

theorem turn_sound {sink : Option (BodySink σ)} {s t : DriveState σ} {turn : Turn}
    (sound : DriveSound s) (outcome : TurnOutcome sink s (t, turn)) :
    ReaderSound t.reader ∧ ((∀ result, turn ≠ .stop result) → DriveSound t) := by
  have open_ : ∀ {y : HttpInput} {read rest out : Bytes}, slice s = read ++ rest →
      y.pendingBodyLength = 0 → (y.messageComplete = true ∧ y.headerComplete = true) ∨ Ready y →
      Moved s t y read out → DriveSound t := by
    intro y read rest out cut idle next moved
    obtain ⟨begins, fits, -⟩ := moved_reader sound.reader moved cut
    have reads := sound.reads
    have processes := sound.processes
    refine ⟨⟨begins, fits, ?_⟩, by rw [moved.readLeft]; exact reads, by rw [moved.process]; omega, ?_⟩
    · rw [moved.input]
      rcases next with done | ready
      · exact .done done.1 idle done.2
      · exact .ready ready
    · rw [moved.input, idle]
      simp
  cases outcome with
  | spent empty => exact ⟨sound.reader, fun go => absurd rfl (go _)⟩
  | again _ done moved =>
    refine ⟨?_, fun go => absurd rfl (go _)⟩
    obtain ⟨begins, fits, same⟩ := moved_reader sound.reader moved (List.nil_append (slice s)).symm
    refine ⟨begins, fits, ?_⟩
    rw [moved.input]
    cases sound.reader.input with
    | ready ready => exact .ready ready
    | done done idle header => exact .done done idle header
    | held z n held within paid =>
      have live := held.live
      simp [done] at live
  | refused _ y z n result held within moved unwilling kind =>
    refine ⟨?_, fun go => absurd rfl (go _)⟩
    obtain ⟨begins, fits, same⟩ := moved_reader sound.reader moved (List.nil_append (slice s)).symm
    have short := slice_within s
    have processes := sound.processes
    have long := short.1.length_le
    rw [List.nil_append] at same
    refine ⟨begins, fits, ?_⟩
    rw [moved.input]
    exact .held z n held (by rw [← same]; omega) (by omega)
  | acked _ z n data turn held moved goes =>
    have next := open_ (take_slice s n) (ack_settles held.ack).2
      (held.next.imp (fun done => ⟨done, held.header⟩) id) moved
    exact ⟨next.reader, fun _ => next⟩
  | ran _ read rest out y turn ready cut run idle next vain moved goes =>
    have next := open_ cut idle next moved
    exact ⟨next.reader, fun _ => next⟩
  | complete _ read rest n e y ready cut wide within run ends idle header done moved =>
    have split : slice s = read ++ rest.take n ++ rest.drop n := by
      rw [cut, List.append_assoc, List.take_append_drop]
    have next := open_ split
      idle (.inl ⟨done, header⟩) moved
    exact ⟨next.reader, fun _ => next⟩
  | rejected _ fed result ready feeds kind told within next moved =>
    have next := open_ (take_slice s fed.consumed) next.no_span (.inr next) moved
    exact ⟨next.reader, fun _ => next⟩

theorem received_sound {s t : DriveState σ} {got : Bytes} (sound : DriveSound s)
    (kept : Received s t got) : DriveSound t := by
  have reads := sound.reads
  have left := kept.readLeft
  refine ⟨⟨kept.begins, kept.fits, ?_⟩, by omega, by rw [kept.process]; exact sound.processes, ?_⟩
  · rw [kept.input, kept.unparsed_eq, List.length_append]
    cases sound.reader.input with
    | ready ready => exact .ready ready
    | done done idle header => exact .done done idle header
    | held z n held within paid => exact .held z n held (by omega) paid
  · rw [kept.input, kept.process]
    exact sound.fresh

theorem driveStep_cases {sink : Option (BodySink σ)} {s t : DriveState σ} {answer : Option ReadResult}
    (sound : DriveSound s) (h : driveStep sink s = (t, answer)) :
    (∃ turn, TurnOutcome sink s (t, turn) ∧ s.reader.beginPos < s.reader.endPos ∧
      ((turn = .next ∧ answer = none) ∨ ∃ result, turn = .stop result ∧ answer = some result)) ∨
    (∃ u, TurnOutcome sink s (u, .leave) ∧ s.reader.beginPos < s.reader.endPos ∧ DriveSound u ∧
      ReceiveOutcome u (t, answer)) ∨
    (s.reader.beginPos = s.reader.endPos ∧ ReceiveOutcome s (t, answer)) := by
  rcases driveStep_inv h with ⟨more, ⟨turned, goes⟩ | ⟨result, turned, told⟩⟩ | ⟨more, u, turned, received⟩ |
    ⟨drained, received⟩
  · exact .inl ⟨.next, turn_outcome sound turned, more, .inl ⟨rfl, goes⟩⟩
  · exact .inl ⟨.stop result, turn_outcome sound turned, more, .inr ⟨result, rfl, told⟩⟩
  · have outcome := turn_outcome sound turned
    have next := (turn_sound sound outcome).2 (by simp)
    refine .inr (.inl ⟨u, outcome, more, next, ?_⟩)
    rw [← received]
    exact receiveStep_outcome next.reader.begins next.reader.fits next.reads
  · have begins := sound.reader.begins
    refine .inr (.inr ⟨?_, ?_⟩)
    · simp only [ConnectionReader.endPos] at drained ⊢
      omega
    · rw [← received]
      exact receiveStep_outcome begins sound.reader.fits sound.reads

theorem receive_kept {s t : DriveState σ} {answer : Option ReadResult}
    (outcome : ReceiveOutcome s (t, answer)) : ∃ got, Received s t got := by
  cases outcome with
  | idle _ kept => exact ⟨[], kept⟩
  | full _ kept full front => exact ⟨[], kept⟩
  | more _ got kept => exact ⟨got, kept⟩
  | eof _ result kept told => exact ⟨[], kept⟩
  | error _ kept => exact ⟨[], kept⟩

theorem driveStep_sound {sink : Option (BodySink σ)} {s t : DriveState σ} {answer : Option ReadResult}
    (sound : DriveSound s) (h : driveStep sink s = (t, answer)) :
    ReaderSound t.reader ∧ (answer = none → DriveSound t) := by
  rcases driveStep_cases sound h with ⟨turn, outcome, more, kind⟩ | ⟨u, outcome, more, next, received⟩ |
    ⟨drained, received⟩
  · obtain ⟨reader, go⟩ := turn_sound sound outcome
    refine ⟨reader, ?_⟩
    rintro rfl
    apply go
    rintro result rfl
    simp at kind
  · obtain ⟨got, kept⟩ := receive_kept received
    have next := received_sound next kept
    exact ⟨next.reader, fun _ => next⟩
  · obtain ⟨got, kept⟩ := receive_kept received
    have next := received_sound sound kept
    exact ⟨next.reader, fun _ => next⟩

theorem visits_sound {sink : Option (BodySink σ)} {s t : DriveState σ} (sound : DriveSound s)
    (visits : Visits sink s t) : DriveSound t := by
  induction visits with
  | refl => exact sound
  | step step rest ih => exact ih ((driveStep_sound sound step).2 rfl)

theorem startDrive_sound {reader : ConnectionReader} (sound : ReaderSound reader) (socket : Socket)
    (context : σ) : DriveSound (startDrive reader socket context) :=
  ⟨sound, Nat.le_refl _, Nat.le_refl _, fun _ => rfl⟩

theorem drive_sound {reader : ConnectionReader} (sound : ReaderSound reader) (socket : Socket)
    (sink : Option (BodySink σ)) (context : σ) :
    ReaderSound (ckHttpConnectionReaderDrive reader socket sink context).1.reader := by
  obtain ⟨last, visits, stops⟩ := drive_returns reader socket sink context
  exact (driveStep_sound (visits_sound (startDrive_sound sound socket context) visits) stops).1

theorem nextRequest_eq {reader next : ConnectionReader}
    (recycles : ckHttpConnectionReaderNextRequest reader = some next) :
    next = ⟨ckHttpInputInit,
      reader.bodyQueue.map fun queue => CkartaRequestBody.ckHttpRequestBodyInit queue.buffer,
      unparsed reader, 0⟩ := by
  unfold ckHttpConnectionReaderNextRequest at recycles
  split at recycles
  · cases recycles
  · cases recycles
    rfl

theorem nextRequest_sound {reader next : ConnectionReader} (sound : ReaderSound reader)
    (recycles : ckHttpConnectionReaderNextRequest reader = some next) : ReaderSound next := by
  have fits := sound.fits
  rw [nextRequest_eq recycles]
  refine ⟨Nat.zero_le _, ?_, .ready init_ready⟩
  simp only [unparsed, List.length_drop]
  omega

/-- The readers a program can come to hold: the calls of the interface in any order, each
    drive on any socket with any sink, and a queue that others write to and read from. -/
inductive Reachable : ConnectionReader → Prop where
  | init : Reachable ckHttpConnectionReaderInit
  | attach {reader : ConnectionReader} (queue : Option CkartaRequestBody.RequestBody)
      (before : Reachable reader) : Reachable (ckHttpConnectionReaderAttachBodyQueue reader queue)
  | drive {reader : ConnectionReader} {σ : Type} (socket : Socket) (sink : Option (BodySink σ))
      (context : σ) (before : Reachable reader) :
      Reachable (ckHttpConnectionReaderDrive reader socket sink context).1.reader
  | next {reader next : ConnectionReader} (before : Reachable reader)
      (recycles : ckHttpConnectionReaderNextRequest reader = some next) : Reachable next

theorem reachable_sound {reader : ConnectionReader} (reachable : Reachable reader) :
    ReaderSound reader := by
  induction reachable with
  | init => exact ⟨Nat.le_refl _, Nat.zero_le _, .ready init_ready⟩
  | attach queue before ih => exact ⟨ih.begins, ih.fits, ih.input⟩
  | drive socket sink context before ih => exact drive_sound ih socket sink context
  | next before recycles ih => exact nextRequest_sound ih recycles

end CkartaReaderRuns
