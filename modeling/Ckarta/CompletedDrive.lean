import Ckarta.ReaderRejection

/-!
Drives of a reader whose current request is complete. Completion is looked at only where
buffered bytes are fed; with an empty buffer a drive goes straight to recv, and a socket
that would block makes it answer INCOMPLETE.
-/
namespace CkartaCompletedDrive
open MachineWord CkartaHttpParser CkartaHttpInput CkartaConnectionReader CkartaReaderSteps
  CkartaReaderTurns CkartaReaderRuns CkartaReaderRejection
variable {σ : Type}

def wouldBlock : Socket → Bool
  | [] => true
  | .again :: _ => true
  | .intr :: events => wouldBlock events
  | .data _ _ :: _ => false
  | .eof :: _ => false
  | .error :: _ => false

inductive Redriven (start : ConnectionReader) : ConnectionReader → Bytes → Prop where
  | none : Redriven start start []
  | drive {reader : ConnectionReader} {offered : Bytes} {τ : Type} (socket : Socket)
      (sink : Option (BodySink τ)) (context : τ) (before : Redriven start reader offered) :
      Redriven start (ckHttpConnectionReaderDrive reader socket sink context).1.reader
        (offered ++ offeredBytes (ckHttpConnectionReaderDrive reader socket sink context).1.trace)

/-- INCOMPLETE is told of an incomplete request only. -/
def TellsTruth (driven : DriveState σ × ReadResult) : Prop :=
  driven.2 = .incomplete → ckHttpInputComplete driven.1.reader.input = false

/-- However often it is driven, a complete request stays as it is and delivers nothing. -/
def StaysComplete (reader : ConnectionReader) : Prop :=
  ckHttpInputComplete reader.input = true → ∀ later offered, Redriven reader later offered →
    later.input = reader.input ∧ offered = []

theorem receiveStep_drained {s : DriveState σ} (drained : s.reader.beginPos = s.reader.endPos)
    (fits : s.reader.endPos ≤ readBufferBytes) (reads : s.readBudget ≠ 0) :
    ∃ t, receiveStep s = receiveOne t ∧ Compacts s t ∧ t.reader.beginPos = t.reader.endPos ∧
      t.reader.endPos < readBufferBytes := by
  have positive : 0 < readBufferBytes := by decide
  rcases receiveStep_cases s with ⟨t, result, ends, room⟩ | ⟨t, received, room⟩
  · cases room with
    | spent more empty => omega
    | full left full front => omega
    | starved t room empty spare => exact absurd empty reads
  · cases room with
    | ready t room reads left spare =>
      refine ⟨t, received, room, ?_⟩
      have empty : s.reader.buffer.drop s.reader.beginPos = [] := by
        rw [drained]
        exact List.drop_length
      rw [room.reader]
      by_cases full : s.reader.endPos = readBufferBytes
      · rw [if_pos full]
        simpa [ConnectionReader.compact, ConnectionReader.endPos, empty] using positive
      · rw [if_neg full]
        exact ⟨drained, by omega⟩

theorem receiveOne_data {s : DriveState σ} {first : UInt8} {rest : Bytes} {events : Socket}
    (ahead : s.socket = .data first rest :: events) (room : s.reader.endPos < readBufferBytes)
    (reads : s.readBudget ≠ 0) :
    ∃ length, length ≠ 0 ∧ receiveOne s = (({ s with
      socket := (recv s.socket length).2
      reader := { s.reader with buffer := s.reader.buffer ++ (first :: rest).take length }
      readBudget := subU64 s.readBudget ((first :: rest).take length).length } : DriveState σ).emit
        (.received length ((first :: rest).take length)), none) := by
  simp only [receiveOne]
  generalize window : (if readBufferBytes - s.reader.endPos < s.readBudget
    then readBufferBytes - s.reader.endPos else s.readBudget) = length
  have positive : length ≠ 0 := by
    split at window <;> omega
  have taken : recv s.socket length = (.data ((first :: rest).take length), (recv s.socket length).2) := by
    simp only [ahead, recv, positive, ↓reduceIte]
  refine ⟨length, positive, ?_⟩
  rw [taken]

theorem driveStep_done (sink : Option (BodySink σ)) {s : DriveState σ}
    (done : s.reader.input.messageComplete = true) (idle : s.reader.input.pendingBodyLength = 0)
    (more : s.reader.beginPos < s.reader.endPos) (paid : s.processBudget ≠ 0) :
    ∃ t, driveStep sink s = (t, some .requestComplete) ∧ t.reader.input = s.reader.input ∧
      offeredBytes t.trace = offeredBytes s.trace := by
  have turn : processOne sink s = settleTurn
      ((s.setInput s.reader.input).emit (.fed (slice s).length .complete)) 0 .complete := by
    rw [processOne_eq, if_neg paid, feed_done done idle]
    exact afterFeed_plain sink ⟨.complete, s.reader.input, 0, none, 0⟩ (Nat.zero_le _) rfl
  have stops := settleTurn_complete
    ((s.setInput s.reader.input).emit (.fed (slice s).length .complete)) 0 .complete done
  obtain ⟨input, offered, -⟩ := settleTurn_quiet
    ((s.setInput s.reader.input).emit (.fed (slice s).length .complete)) 0 .complete
  generalize settleTurn ((s.setInput s.reader.input).emit (.fed (slice s).length .complete)) 0
    .complete = settled at turn stops input offered
  obtain ⟨t, kind⟩ := settled
  subst stops
  refine ⟨t, by simp [driveStep, more, turn], input, ?_⟩
  rw [offered]
  simp [DriveState.emit, DriveState.setInput, offeredBytes]

structure Drained (sink : Option (BodySink σ)) (s t : DriveState σ) : Prop where
  step : driveStep sink s = receiveOne t
  room : Compacts s t
  drained : t.reader.beginPos = t.reader.endPos
  space : t.reader.endPos < readBufferBytes

theorem driveStep_drained (sink : Option (BodySink σ)) {s : DriveState σ}
    (drained : s.reader.beginPos = s.reader.endPos) (fits : s.reader.endPos ≤ readBufferBytes)
    (reads : s.readBudget ≠ 0) : ∃ t, Drained sink s t := by
  obtain ⟨t, received, room, empty, space⟩ := receiveStep_drained drained fits reads
  exact ⟨t, by simp [driveStep, drained, received], room, empty, space⟩

theorem drained_stops {sink : Option (BodySink σ)} {s t : DriveState σ} (result : ReadResult)
    (roomy : Drained sink s t) (ends : (receiveOne t).2 = some result) :
    ∃ u, Returns sink s u result ∧ u.reader.input = s.reader.input ∧
      offeredBytes u.trace = offeredBytes s.trace := by
  obtain ⟨input, offered, -⟩ := receiveOne_quiet t
  rw [roomy.room.input.1] at input
  rw [roomy.room.trace] at offered
  exact ⟨(receiveOne t).1, ⟨s, .refl s, roomy.step.trans (Prod.ext rfl ends)⟩, input, offered⟩

theorem drained_returns (sink : Option (BodySink σ)) {s : DriveState σ}
    (done : s.reader.input.messageComplete = true) (idle : s.reader.input.pendingBodyLength = 0)
    (drained : s.reader.beginPos = s.reader.endPos) (fits : s.reader.endPos ≤ readBufferBytes)
    (reads : s.readBudget ≠ 0) (paid : s.processBudget ≠ 0) :
    ∃ t result, Returns sink s t result ∧ t.reader.input = s.reader.input ∧
      offeredBytes t.trace = offeredBytes s.trace ∧ result ≠ .tooLarge ∧
      (result = .incomplete ↔ wouldBlock s.socket = true) := by
  -- the induction is on the interrupted calls in front of the first real answer
  generalize ahead : s.socket = socket
  induction socket generalizing s with
  | nil =>
    obtain ⟨t, roomy⟩ := driveStep_drained sink drained fits reads
    have empty : t.socket = [] := roomy.room.socket.trans ahead
    obtain ⟨u, returns, input, offered⟩ := drained_stops .incomplete roomy
      (by simp only [receiveOne, empty, recv])
    exact ⟨u, .incomplete, returns, input, offered, by simp, by simp [wouldBlock]⟩
  | cons event events ih =>
    obtain ⟨t, roomy⟩ := driveStep_drained sink drained fits reads
    have front : t.socket = event :: events := roomy.room.socket.trans ahead
    have quiet := receiveOne_quiet t
    rw [roomy.room.input.1, roomy.room.trace] at quiet
    cases event with
    | data first rest =>
      obtain ⟨length, positive, received⟩ := receiveOne_data front roomy.space
        (by rw [roomy.room.read]; exact reads)
      have short : 0 < ((first :: rest).take length).length := by
        rw [List.length_take, List.length_cons]
        omega
      have begins := roomy.drained
      have goes : (receiveOne t).2 = none ∧
          (receiveOne t).1.reader.beginPos < (receiveOne t).1.reader.endPos ∧
          (receiveOne t).1.processBudget ≠ 0 := by
        rw [received]
        refine ⟨rfl, ?_, by rw [← roomy.room.process] at paid; exact paid⟩
        simp only [DriveState.emit, ConnectionReader.endPos, List.length_append] at begins ⊢
        omega
      rw [← roomy.step] at goes quiet
      obtain ⟨u, stops, input, offered⟩ := driveStep_done sink
        (by rw [quiet.1]; exact done) (by rw [quiet.1]; exact idle) goes.2.1 goes.2.2
      exact ⟨u, .requestComplete, ⟨_, visits_step goes.1, stops⟩, input.trans quiet.1,
        offered.trans quiet.2.1, by simp, by simp [wouldBlock]⟩
    | again =>
      obtain ⟨u, returns, input, offered⟩ := drained_stops .incomplete roomy
        (by simp only [receiveOne, front, recv])
      exact ⟨u, .incomplete, returns, input, offered, by simp, by simp [wouldBlock]⟩
    | intr =>
      have next : driveStep sink s = ({ t with socket := events }, none) := by
        rw [roomy.step]
        simp only [receiveOne, front, recv]
      obtain ⟨u, result, returns, input, offered, small, told⟩ := ih (s := { t with socket := events })
        (by simpa [roomy.room.input.1] using done) (by simpa [roomy.room.input.1] using idle) roomy.drained
        (Nat.le_of_lt roomy.space) (by simpa [roomy.room.read] using reads)
        (by simpa [roomy.room.process] using paid) rfl
      obtain ⟨last, visits, stops⟩ := returns
      exact ⟨u, result, ⟨last, .step next visits, stops⟩, input.trans roomy.room.input.1,
        offered.trans (congrArg offeredBytes roomy.room.trace), small, told⟩
    | eof =>
      obtain ⟨u, returns, input, offered⟩ := drained_stops .requestComplete roomy
        (by simp [receiveOne, front, recv, ckHttpInputEof, roomy.room.input.1, done, mapInputResult])
      exact ⟨u, .requestComplete, returns, input, offered, by simp, by simp [wouldBlock]⟩
    | error =>
      obtain ⟨u, returns, input, offered⟩ := drained_stops .ioError roomy
        (by simp only [receiveOne, front, recv])
      exact ⟨u, .ioError, returns, input, offered, by simp, by simp [wouldBlock]⟩

theorem drive_done {reader : ConnectionReader} (sound : ReaderSound reader)
    (done : reader.input.messageComplete = true) (socket : Socket) (sink : Option (BodySink σ))
    (context : σ) :
    (ckHttpConnectionReaderDrive reader socket sink context).1.reader.input = reader.input ∧
      offeredBytes (ckHttpConnectionReaderDrive reader socket sink context).1.trace = [] ∧
      (ckHttpConnectionReaderDrive reader socket sink context).2 ≠ .tooLarge ∧
      ((ckHttpConnectionReaderDrive reader socket sink context).2 = .incomplete ↔
        ckHttpConnectionReaderBufferedBytes reader = 0 ∧ wouldBlock socket = true) := by
  have idle : reader.input.pendingBodyLength = 0 := by
    cases sound.input with
    | ready ready => exact ready.no_span
    | done done idle header => exact idle
    | held z n held within paid =>
      have live := held.live
      simp [done] at live
  have begins := sound.begins
  have whole := drive_returns reader socket sink context
  by_cases drained : reader.beginPos = reader.endPos
  · obtain ⟨t, result, returns, input, offered, small, told⟩ := drained_returns sink
      (s := startDrive reader socket context) done idle drained sound.fits
      (Nat.succ_ne_zero _) (Nat.succ_ne_zero _)
    obtain ⟨state, answer⟩ := returns_unique whole returns
    have empty : ckHttpConnectionReaderBufferedBytes reader = 0 := by
      simp [ckHttpConnectionReaderBufferedBytes, drained]
    rw [state, answer]
    refine ⟨input, offered, small, ?_⟩
    rw [told]
    simp [empty, startDrive]
  · have more : reader.beginPos < reader.endPos := by
      simp only [ConnectionReader.endPos] at drained ⊢
      omega
    obtain ⟨t, stops, input, offered⟩ := driveStep_done sink
      (s := startDrive reader socket context) done idle more (Nat.succ_ne_zero _)
    obtain ⟨state, answer⟩ := returns_unique whole ⟨_, .refl _, stops⟩
    have left : ckHttpConnectionReaderBufferedBytes reader ≠ 0 := by
      simp only [ckHttpConnectionReaderBufferedBytes]
      split <;> omega
    rw [state, answer]
    exact ⟨input, offered, by simp, by simp [left]⟩

theorem redriven_stays {reader later : ConnectionReader} {offered : Bytes} (sound : ReaderSound reader)
    (done : reader.input.messageComplete = true) (drives : Redriven reader later offered) :
    ReaderSound later ∧ later.input = reader.input ∧ offered = [] := by
  induction drives with
  | none => exact ⟨sound, rfl, rfl⟩
  | drive socket sink context before ih =>
    obtain ⟨still, input, nothing⟩ := ih
    obtain ⟨kept, more, -⟩ := drive_done still (by rw [input]; exact done) socket sink context
    exact ⟨drive_sound still socket sink context, kept.trans input, by rw [nothing, more]; rfl⟩

theorem turn_open {sink : Option (BodySink σ)} {s t : DriveState σ} {turn : Turn}
    (live : s.reader.input.messageComplete = false) (outcome : TurnOutcome sink s (t, turn))
    (quiet : turn ≠ .stop .requestComplete) : t.reader.input.messageComplete = false := by
  have stays : ∀ {n : Nat}, Goes t n turn → t.reader.input.messageComplete = false := by
    intro n goes
    cases goes with
    | complete done => exact absurd rfl quiet
    | drained live reached => exact live
    | vain live more none => exact live
    | next live more some => exact live
  cases outcome with
  | spent empty => exact live
  | again _ done moved => exact absurd rfl quiet
  | refused _ y z n result held within moved unwilling kind =>
    rw [moved.input]
    exact held.live
  | acked _ z n data _ held moved goes => exact stays goes
  | ran _ read rest out y _ ready cut run idle next vain moved goes => exact stays goes
  | complete _ read rest n e y ready cut wide within run ends idle header done moved =>
    exact absurd rfl quiet
  | rejected _ fed result ready feeds kind told within next moved =>
    rw [moved.input]
    exact next.live

theorem driveStep_open {sink : Option (BodySink σ)} {s t : DriveState σ} {answer : Option ReadResult}
    (sound : DriveSound s) (live : s.reader.input.messageComplete = false)
    (step : driveStep sink s = (t, answer)) (quiet : answer = none ∨ answer = some .incomplete) :
    t.reader.input.messageComplete = false := by
  rcases driveStep_cases sound step with ⟨turn, outcome, more, kind⟩ | ⟨u, outcome, more, next, received⟩ |
    ⟨drained, received⟩
  · exact turn_open live outcome (by rcases quiet with rfl | rfl <;> simp_all)
  · obtain ⟨got, kept⟩ := receive_kept received
    rw [kept.input]
    exact turn_open live outcome (by simp)
  · obtain ⟨got, kept⟩ := receive_kept received
    rw [kept.input]
    exact live

theorem visits_open {sink : Option (BodySink σ)} {s t : DriveState σ} (sound : DriveSound s)
    (live : s.reader.input.messageComplete = false) (visits : Visits sink s t) :
    t.reader.input.messageComplete = false := by
  induction visits with
  | refl => exact live
  | step first rest ih =>
    exact ih ((driveStep_sound sound first).2 rfl) (driveStep_open sound live first (.inl rfl))

theorem drive_open {reader : ConnectionReader} (sound : ReaderSound reader)
    (live : reader.input.messageComplete = false) (socket : Socket) (sink : Option (BodySink σ))
    (context : σ) : TellsTruth (ckHttpConnectionReaderDrive reader socket sink context) := by
  intro told
  obtain ⟨last, visits, stops⟩ := drive_returns reader socket sink context
  rw [told] at stops
  have start := startDrive_sound sound socket context
  exact driveStep_open (visits_sound start visits) (visits_open start live visits) stops (.inr rfl)

/-- INCOMPLETE means incomplete, unless the request was complete, nothing is buffered behind
    it and recv would block. -/
theorem incomplete_means_incomplete_iff {reader : ConnectionReader} (reachable : Reachable reader)
    (socket : Socket) (sink : Option (BodySink σ)) (context : σ) :
    (TellsTruth (ckHttpConnectionReaderDrive reader socket sink context) ∧ StaysComplete reader) ↔
      ¬ (ckHttpInputComplete reader.input = true ∧ ckHttpConnectionReaderBufferedBytes reader = 0 ∧
        wouldBlock socket = true) := by
  have sound := reachable_sound reachable
  have stays : StaysComplete reader := fun done later offered drives =>
    (redriven_stays sound done drives).2
  rw [and_iff_left stays]
  cases done : reader.input.messageComplete with
  | false =>
    have truth := drive_open sound done socket sink context
    simp [truth, ckHttpInputComplete, done]
  | true =>
    obtain ⟨input, -, -, told⟩ := drive_done sound done socket sink context
    simp only [TellsTruth, ckHttpInputComplete, input, done, told, Bool.true_eq_false, true_and]

def getSocket : Socket := [.data 71 (ascii "ET / HTTP/1.1\r\nHost: a\r\n\r\n")]

theorem incomplete_means_incomplete_get :
    let driven := ckHttpConnectionReaderDrive ckHttpConnectionReaderInit getSocket (some takeAll) ()
    TellsTruth (ckHttpConnectionReaderDrive driven.1.reader [.eof] (some takeAll) ()) ∧
      StaysComplete driven.1.reader :=
  (incomplete_means_incomplete_iff (.drive getSocket (some takeAll) () .init) [.eof] (some takeAll)
    ()).mpr (by decide +kernel)

/-- A GET that was answered REQUEST_COMPLETE, driven once more on a socket without bytes. -/
theorem complete_told_incomplete :
    let driven := ckHttpConnectionReaderDrive ckHttpConnectionReaderInit getSocket (some takeAll) ()
    let again := ckHttpConnectionReaderDrive driven.1.reader [] (some takeAll) ()
    driven.2 = .requestComplete ∧ again.2 = .incomplete ∧
      ckHttpInputComplete again.1.reader.input = true ∧ ¬ TellsTruth again := by
  have told : let driven :=
      ckHttpConnectionReaderDrive ckHttpConnectionReaderInit getSocket (some takeAll) ()
    let again := ckHttpConnectionReaderDrive driven.1.reader [] (some takeAll) ()
    driven.2 = .requestComplete ∧ again.2 = .incomplete ∧
      ckHttpInputComplete again.1.reader.input = true := by
    decide +kernel
  obtain ⟨first, second, done⟩ := told
  refine ⟨first, second, done, fun truth => ?_⟩
  have live := truth second
  rw [done] at live
  exact absurd live (by decide)

end CkartaCompletedDrive
