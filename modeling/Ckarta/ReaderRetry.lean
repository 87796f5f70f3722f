import Ckarta.ReaderRuns

/-!
A body span that the sink refuses and takes later. The span itself is kept by the input
state, but what the feed that formed it consumed before the span is only known to the
turn that was left.
-/
namespace CkartaReaderRetry
open MachineWord PrefixMachine CkartaHttpParser CkartaHttpInput CkartaInputMachine CkartaInputStream
  CkartaConnectionReader CkartaReaderSteps CkartaReaderTurns CkartaReaderRuns
variable {σ τ : Type}

/-- The two exits behind a sink that did not take its span. -/
def Refused (turn : Turn) : Prop := turn = .stop .bodyBackpressure ∨ turn = .stop .sinkError

instance (turn : Turn) : Decidable (Refused turn) := inferInstanceAs (Decidable (_ ∨ _))

def SamePlace (left right : ConnectionReader) : Prop :=
  left.input = right.input ∧ left.buffer = right.buffer ∧ left.beginPos = right.beginPos

instance (left right : ConnectionReader) : Decidable (SamePlace left right) :=
  inferInstanceAs (Decidable (_ ∧ _ ∧ _))

/-- Drives that go on offering the span without luck; the queue may be replaced. -/
inductive Retries (reader : ConnectionReader) : ConnectionReader → Prop where
  | refl : Retries reader reader
  | drive {held : ConnectionReader} {σ : Type} (socket : Socket) (sink : Option (BodySink σ))
      (context : σ) (before : Retries reader held)
      (refused : Refused (processOne sink (startDrive held socket context)).2) :
      Retries reader (ckHttpConnectionReaderDrive held socket sink context).1.reader
  | attach {held : ConnectionReader} (queue : Option CkartaRequestBody.RequestBody)
      (before : Retries reader held) :
      Retries reader (ckHttpConnectionReaderAttachBodyQueue held queue)

theorem settleTurn_takes (s : DriveState σ) (consumed : Nat) (result : InputResult) :
    ¬ Refused (settleTurn s consumed result).2 := by
  simp only [settleTurn, Refused]
  repeat' split
  all_goals cases result <;> simp [mapInputResult] at *

theorem goes_takes {t : DriveState σ} {consumed : Nat} {turn : Turn} (goes : Goes t consumed turn) :
    ¬ Refused turn := by
  cases goes <;> simp [Refused]

theorem done_takes {sink : Option (BodySink σ)} {s : DriveState σ}
    (done : s.reader.input.messageComplete = true) (idle : s.reader.input.pendingBodyLength = 0) :
    ¬ Refused (processOne sink s).2 := by
  rw [processOne_eq]
  split
  · simp [Refused]
  · rw [feed_done done idle, afterFeed_plain _ _ (Nat.zero_le _) rfl]
    exact settleTurn_takes _ _ _

theorem refused_span {sink : Option (BodySink σ)} {s : DriveState σ} (ready : Ready s.reader.input)
    (refused : Refused (processOne sink s).2) :
    ∃ fed z n, s.processBudget ≠ 0 ∧
      ckHttpInputFeed s.reader.input s.reader.beginPos (slice s) = fed ∧ fed.result = .body ∧
      fed.bodyLength ≠ 0 ∧ Held fed.input z n ∧ fed.consumed + n ≤ (slice s).length ∧
      (fed.consumed = 0 ↔ s.reader.input.headerComplete = true) := by
  rw [processOne_eq] at refused
  split at refused
  · simp [Refused] at refused
  · rename_i budget
    have outcome := ckHttpInputFeed_outcome (a := s.reader.beginPos) (s := slice s) ready
    generalize feeds : ckHttpInputFeed s.reader.input s.reader.beginPos (slice s) = fed at *
    have plain : fed.consumed ≤ (slice s).length → fed.bodyLength = 0 → False := by
      intro within none
      rw [afterFeed_plain _ _ within none] at refused
      exact settleTurn_takes _ _ _ refused
    cases outcome with
    | span head data rest read y z cut nonempty run within lead held size live ack header next =>
      have nonzero : 0 < data.length := List.length_pos_iff.mpr nonempty
      have width : (slice s).length = head.length + data.length + rest.length := by
        rw [cut, List.length_append, List.length_append]
      exact ⟨_, z, head.length + data.length - read, budget, rfl, rfl, by simp only; omega,
        ⟨ack, by omega, live, header, next⟩, by simp only; omega, lead⟩
    | quiet read rest y pointer cut run waits next =>
      exact absurd rfl (plain (by rw [cut, List.length_append]; simp only; omega))
    | complete read rest n e y cut run ends wide within idle header done =>
      exact absurd rfl (plain (by rw [cut, List.length_append]; simp only; omega))
    | refuse result read rest n consumed e y cut run ends kind within reported next =>
      exact absurd rfl (plain within)
    | overflow read rest consumed y cut run reported full next =>
      exact absurd rfl (plain (by rw [cut, List.length_append]; simp only; omega))

theorem span_turn {sink : Option (BodySink σ)} {s : DriveState σ} {fed : InputFeed} {z : HttpInput}
    {n : Nat} {data : Bytes} {answer : DriveState σ × Turn}
    (within : fed.consumed + n ≤ (slice s).length)
    (outcome : SpanOutcome sink s fed z n data answer) :
    (Refused answer.2 → SamePlace answer.1.reader { s.reader with input := fed.input }) ∧
      (¬ Refused answer.2 → SamePlace answer.1.reader
        { s.reader with input := z, beginPos := s.reader.beginPos + (fed.consumed + n) }) := by
  cases outcome with
  | refused t result moved unwilling kind =>
    have refused : Refused (.stop result) := by
      rcases kind with rfl | rfl <;> simp [Refused]
    exact ⟨fun _ => ⟨moved.input, moved.buffer, by simpa using moved.beginPos⟩,
      fun takes => absurd refused takes⟩
  | accepted t turn moved goes =>
    have width : ((slice s).take (fed.consumed + n)).length = fed.consumed + n := by
      rw [List.length_take]
      omega
    exact ⟨fun refused => absurd refused (goes_takes goes),
      fun _ => ⟨moved.input, moved.buffer, by rw [moved.beginPos, width]⟩⟩

theorem drive_refused {reader : ConnectionReader} {socket : Socket} {sink : Option (BodySink σ)}
    {context : σ} {s : DriveState σ} (visits : Visits sink (startDrive reader socket context) s)
    (more : s.reader.beginPos < s.reader.endPos) (refused : Refused (processOne sink s).2) :
    (ckHttpConnectionReaderDrive reader socket sink context).1 = (processOne sink s).1 := by
  cases turn : processOne sink s with
  | mk t kind =>
    rw [turn] at refused
    rcases refused with rfl | rfl
    · rw [drive_stop visits more turn]
    · rw [drive_stop visits more turn]

structure Waiting (reader : ConnectionReader) (z : HttpInput) (n : Nat) : Prop where
  sound : ReaderSound reader
  held : Held reader.input z n

theorem Waiting.more {reader : ConnectionReader} {z : HttpInput} {n : Nat}
    (waiting : Waiting reader z n) : reader.beginPos < reader.endPos := by
  obtain ⟨sound, held⟩ := waiting
  cases sound.input with
  | ready ready => exact absurd ready.no_span held.span
  | done done idle header => exact absurd idle held.span
  | held z' n' held' within paid =>
    have some := held'.some
    simp only [unparsed, List.length_drop] at within
    simp only [ConnectionReader.endPos]
    omega

theorem retries_waiting {reader held : ConnectionReader} {z : HttpInput} {n : Nat}
    (waiting : Waiting reader z n) (retries : Retries reader held) :
    Waiting held z n ∧ SamePlace held reader := by
  induction retries with
  | refl => exact ⟨waiting, rfl, rfl, rfl⟩
  | @drive held σ socket sink context before refused ih =>
    obtain ⟨still, same⟩ := ih
    have sound := startDrive_sound still.sound socket context
    obtain ⟨within, outcome⟩ := processOne_held sink sound still.held
    have stays := (span_turn (by simpa [heldFeed] using within) outcome).1 refused
    rw [drive_refused (.refl _) still.more refused]
    have place : SamePlace (processOne sink (startDrive held socket context)).1.reader held := stays
    refine ⟨⟨(turn_sound sound (processOne_outcome _ sound)).1, ?_⟩, ?_⟩
    · rw [place.1]
      exact still.held
    · exact ⟨place.1.trans same.1, place.2.1.trans same.2.1, place.2.2.trans same.2.2⟩
  | attach queue before ih => exact ⟨⟨⟨ih.1.sound.begins, ih.1.sound.fits, ih.1.sound.input⟩, ih.1.held⟩, ih.2⟩

/-- A span that was refused at s and is taken by a later drive: the reader is then where it
    would be had the sink taken the span at once, exactly when the header had ended
    before the feed that formed the span. -/
theorem retried_same_place_iff {ρ : Type} {reader held : ConnectionReader} (reachable : Reachable reader)
    {socket socket' : Socket} {sink other : Option (BodySink σ)} {sink' : Option (BodySink ρ)}
    {context : σ} {context' : ρ} {s : DriveState σ}
    (visits : Visits sink (startDrive reader socket context) s)
    (fresh : s.reader.input.pendingBodyLength = 0) (refused : Refused (processOne sink s).2)
    (retries : Retries (ckHttpConnectionReaderDrive reader socket sink context).1.reader held)
    (taken : ¬ Refused (processOne sink' (startDrive held socket' context')).2)
    (first : ¬ Refused (processOne other s).2) :
    SamePlace (processOne sink' (startDrive held socket' context')).1.reader
        (processOne other s).1.reader ↔ s.reader.input.headerComplete = true := by
  have sound := visits_sound (startDrive_sound (reachable_sound reachable) socket context) visits
  have ready : Ready s.reader.input := by
    cases sound.reader.input with
    | ready ready => exact ready
    | done done idle header =>
      exact absurd refused (done_takes done idle)
    | held z n held within paid => exact absurd fresh held.span
  obtain ⟨fed, z, n, budget, feeds, kind, some, kept, within, lead⟩ := refused_span ready refused
  have spans : ∀ any : Option (BodySink σ),
      SpanOutcome any s fed z n (spanOf s fed) (processOne any s) := by
    intro any
    rw [processOne_eq, if_neg budget, feeds]
    exact afterFeed_span _ _ sound kind some kept within
  have place := (span_turn within (spans sink)).1 refused
  have once := (span_turn within (spans other)).2 first
  have waiting : Waiting (processOne sink s).1.reader z n :=
    ⟨(turn_sound sound (processOne_outcome _ sound)).1, by rw [place.1]; exact kept⟩
  have more : s.reader.beginPos < s.reader.endPos := by
    have some := kept.some
    have short := (slice_within s).1.length_le
    simp only [unparsed, List.length_drop] at short
    simp only [ConnectionReader.endPos]
    omega
  rw [drive_refused visits more refused] at retries
  obtain ⟨still, same⟩ := retries_waiting waiting retries
  obtain ⟨within', outcome'⟩ := processOne_held sink'
    (startDrive_sound still.sound socket' context') still.held
  have late := (span_turn (by simpa [heldFeed] using within') outcome').2 taken
  have begin_late : (processOne sink' (startDrive held socket' context')).1.reader.beginPos =
      s.reader.beginPos + n := by
    rw [late.2.2]
    simp only [startDrive, heldFeed, Nat.zero_add, same.2.2, place.2.2]
  have begin_once : (processOne other s).1.reader.beginPos =
      s.reader.beginPos + (fed.consumed + n) := once.2.2
  rw [← lead]
  constructor
  · rintro ⟨-, -, begins⟩
    rw [begin_late, begin_once] at begins
    omega
  · intro none
    refine ⟨late.1.trans once.1.symm, ?_, ?_⟩
    · exact late.2.1.trans (same.2.1.trans (place.2.1.trans once.2.1.symm))
    · rw [begin_late, begin_once, none, Nat.zero_add]

def refuseAll : BodySink Unit := fun _ _ => (bodySinkWouldBlock, ())

def postHead : Socket := [.data 80 (ascii "OST / HTTP/1.1\r\nContent-Length: 2\r\n\r\n")]

/-- The step of a drive of postHead and then ab at which the sink is offered ab. -/
def bodyTurn : DriveState Unit :=
  (driveStep (some refuseAll) (driveStep (some refuseAll)
    (startDrive ckHttpConnectionReaderInit (postHead ++ [.data 97 [98]]) ())).1).1

/-- With the header in a segment of its own a refused body span is retried in place. -/
theorem retried_same_place_iff_split :
    SamePlace (processOne (some takeAll) (startDrive (ckHttpConnectionReaderDrive
        ckHttpConnectionReaderInit (postHead ++ [.data 97 [98]]) (some refuseAll) ()).1.reader [] ())).1.reader
      (processOne (some takeAll) bodyTurn).1.reader ∧
      bodyTurn.reader.input.headerComplete = true :=
  have header : bodyTurn.reader.input.headerComplete = true := by decide +kernel
  ⟨(retried_same_place_iff Reachable.init
    ((visits_step (by decide +kernel)).trans (visits_step (by decide +kernel)))
    (show bodyTurn.reader.input.pendingBodyLength = 0 by decide +kernel) (by decide +kernel) .refl
    (by decide +kernel) (by decide +kernel)).mpr header, header⟩

/-- With the header and the first body bytes in one feed the header bytes stay unread: the
    reader that was refused once ends 38 bytes short of the one that was not. -/
theorem refused_span_loses_header :
    let socket : Socket := [.data 80 (ascii "OST / HTTP/1.1\r\nContent-Length: 2\r\n\r\nab")]
    let refused := ckHttpConnectionReaderDrive ckHttpConnectionReaderInit socket (some refuseAll) ()
    let retried := ckHttpConnectionReaderDrive refused.1.reader [] (some takeAll) ()
    let once := ckHttpConnectionReaderDrive ckHttpConnectionReaderInit socket (some takeAll) ()
    refused.2 = .bodyBackpressure ∧ retried.2 = .requestComplete ∧ once.2 = .requestComplete ∧
      deliveredBytes retried.1.trace = ascii "ab" ∧ retried.1.reader.beginPos = 2 ∧
      once.1.reader.beginPos = 40 ∧ ¬ SamePlace retried.1.reader once.1.reader := by
  decide +kernel

end CkartaReaderRetry
