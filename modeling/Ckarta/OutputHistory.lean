import Ckarta.OutputWriter

/-!
Every history of queue and drive calls on an attached output writer. The bytes that send has
taken and the pending ones are together what was queued, whatever the sends answer. Where the
pending bytes lie decides whether more of them fit: only a tail at the end of the buffer is
moved to the front.
-/
namespace CkartaOutputHistory
open CkartaHttpParser CkartaHttpResponse CkartaOutputWriter StepHistory

inductive WriterCall where
  | queue (region : Region)
  | drive (answers : List SendAnswer)
  deriving DecidableEq, Repr

inductive WriterAnswer where
  | queued (code : Int)
  | driven (result : OutputWriteResult) (bytes : Bytes)
  deriving DecidableEq, Repr

def perform (writer : OutputWriter) : WriterCall → OutputWriter × WriterAnswer
  | .queue region =>
    ((ckHttpOutputWriterQueue writer region).2, .queued (ckHttpOutputWriterQueue writer region).1)
  | .drive answers =>
    match ckHttpOutputWriterDrive writer answers with
    | (result, after, bytes) => (after, .driven result bytes)

def writerStep (writer : OutputWriter) (call : WriterCall) : Option (OutputWriter × WriterAnswer) :=
  some (perform writer call)

def queuedBytes (history : List (WriterCall × WriterAnswer)) : Bytes :=
  history.flatMap fun
    | (.queue region, .queued code) => if code = 0 then region.data else []
    | _ => []

def sentBytes (history : List (WriterCall × WriterAnswer)) : Bytes :=
  history.flatMap fun
    | (_, .driven _ bytes) => bytes
    | _ => []

def makeRoom (writer : OutputWriter) : OutputWriter :=
  if writer.beginPos > 0 ∧ writer.endPos = outputBufferBytes then writer.compact else writer

theorem makeRoom_pending (writer : OutputWriter) : (makeRoom writer).pending = writer.pending := by
  unfold makeRoom
  split
  · exact List.drop_zero
  · rfl

theorem makeRoom_socket (writer : OutputWriter) : (makeRoom writer).socketFd = writer.socketFd := by
  unfold makeRoom
  split
  · rfl
  · rfl

theorem queue_cases (writer : OutputWriter) (region : Region) :
    ((writer.socketFd < 0 ∨ region.invalid = true) ∧ ckHttpOutputWriterQueue writer region = (-1, writer)) ∨
    (outputBufferBytes - (makeRoom writer).endPos < region.length ∧
      ckHttpOutputWriterQueue writer region = (-2, makeRoom writer)) ∨
    (region.length ≤ outputBufferBytes - (makeRoom writer).endPos ∧
      ckHttpOutputWriterQueue writer region =
        (0, { makeRoom writer with buffer := (makeRoom writer).buffer ++ region.data })) := by
  by_cases unusable : writer.socketFd < 0 ∨ region.invalid = true
  · exact .inl ⟨unusable, if_pos unusable⟩
  · have opened : ckHttpOutputWriterQueue writer region =
        if region.length > outputBufferBytes - (makeRoom writer).endPos then (-2, makeRoom writer)
        else (0, { makeRoom writer with buffer := (makeRoom writer).buffer ++ region.data }) :=
      if_neg unusable
    rw [opened]
    by_cases large : region.length > outputBufferBytes - (makeRoom writer).endPos
    · exact .inr (.inl ⟨large, if_pos large⟩)
    · exact .inr (.inr ⟨Nat.le_of_not_lt large, if_neg large⟩)

theorem queue_failed_pending {writer : OutputWriter} {region : Region}
    (failed : (ckHttpOutputWriterQueue writer region).1 ≠ 0) :
    (ckHttpOutputWriterQueue writer region).2.pending = writer.pending := by
  rcases queue_cases writer region with ⟨-, answer⟩ | ⟨-, answer⟩ | ⟨-, answer⟩
  · rw [answer]
  · rw [answer]
    exact makeRoom_pending writer
  · rw [answer] at failed
    exact absurd rfl failed

theorem queue_socket (writer : OutputWriter) (region : Region) :
    (ckHttpOutputWriterQueue writer region).2.socketFd = writer.socketFd := by
  rcases queue_cases writer region with ⟨-, answer⟩ | ⟨-, answer⟩ | ⟨-, answer⟩
  · rw [answer]
  · rw [answer]
    exact makeRoom_socket writer
  · rw [answer]
    exact makeRoom_socket writer

theorem endDrive_socket (writer : OutputWriter) : (endDrive writer).2.1.socketFd = writer.socketFd := by
  unfold endDrive
  split
  · rfl
  · rfl

/-- What a loop over the pending bytes leaves: no more than the budget was sent, and the answer
    is DRAINED exactly when nothing is left. -/
structure Sends (writer : OutputWriter) (budget : Nat)
    (outcome : OutputWriteResult × OutputWriter × Bytes) : Prop where
  socket : outcome.2.1.socketFd = writer.socketFd
  paid : outcome.2.2.length ≤ budget
  drained : outcome.1 = .drained ↔ outcome.2.1.pending = []

theorem pending_eq_nil {writer : OutputWriter} (begins : writer.beginPos ≤ writer.endPos) :
    writer.pending = [] ↔ writer.beginPos = writer.endPos := by
  rw [OutputWriter.pending, List.drop_eq_nil_iff]
  simp only [OutputWriter.endPos] at begins ⊢
  omega

theorem endDrive_sends {writer : OutputWriter} (begins : writer.beginPos ≤ writer.endPos) (budget : Nat) :
    Sends writer budget (endDrive writer) := by
  refine ⟨endDrive_socket writer, ?_, ?_⟩
  · unfold endDrive
    split
    · exact Nat.zero_le _
    · exact Nat.zero_le _
  · unfold endDrive
    split
    · simp [OutputWriter.pending]
    · rename_i left
      simp [pending_eq_nil begins, left]

theorem stopped_sends {writer : OutputWriter} (more : writer.beginPos < writer.endPos) (budget : Nat)
    {result : OutputWriteResult} (stops : result ≠ .drained) : Sends writer budget (result, writer, []) := by
  refine ⟨rfl, Nat.zero_le _, ?_⟩
  have left : ¬ writer.beginPos = writer.endPos := by omega
  simp [pending_eq_nil (Nat.le_of_lt more), left, stops]

theorem sendLoop_sends {writer : OutputWriter} (begins : writer.beginPos ≤ writer.endPos)
    (answers : List SendAnswer) (budget : Nat) : Sends writer budget (sendLoop answers writer budget) := by
  induction answers generalizing writer budget with
  | nil =>
    unfold sendLoop
    split
    · rename_i more
      exact stopped_sends more.1 budget (by simp)
    · exact endDrive_sends begins budget
  | cons answer answers ih =>
    by_cases more : writer.beginPos < writer.endPos ∧ budget ≠ 0
    · cases answer with
      | accepts count =>
        obtain ⟨n, short, within, sends⟩ := sendLoop_accepts count answers more
        rw [sends]
        by_cases some : n > 0
        · rw [if_pos some]
          have rest := @ih { writer with beginPos := writer.beginPos + n }
            (by simp only [OutputWriter.endPos] at short more ⊢; omega) (budget - n)
          generalize sendLoop answers { writer with beginPos := writer.beginPos + n } (budget - n) = outcome
            at rest
          obtain ⟨result, after, bytes⟩ := outcome
          refine ⟨rest.socket, ?_, rest.drained⟩
          have paid : bytes.length ≤ budget - n := rest.paid
          have front := List.length_take_le n writer.pending
          simp only [List.length_append]
          omega
        · rw [if_neg some]
          exact stopped_sends more.1 budget (by simp)
      | intr =>
        simp only [sendLoop, if_pos more]
        exact ih begins budget
      | again | peerGone | error =>
        simp only [sendLoop, if_pos more]
        exact stopped_sends more.1 budget (by simp)
    · simp only [sendLoop, if_neg more]
      exact endDrive_sends begins budget

/-- A whole drive of an attached writer. -/
theorem drive_sends {writer : OutputWriter} (attached : 0 ≤ writer.socketFd)
    (begins : writer.beginPos ≤ writer.endPos) (answers : List SendAnswer) :
    Sends writer outputBudgetBytes (ckHttpOutputWriterDrive writer answers) := by
  unfold ckHttpOutputWriterDrive
  rw [if_neg (by omega)]
  exact sendLoop_sends begins answers outputBudgetBytes

/-- A writer that was attached once: it still is, and it carries what the history says. -/
structure Attached (history : List (WriterCall × WriterAnswer)) (writer : OutputWriter) : Prop where
  socket : 0 ≤ writer.socketFd
  carries : Carries writer (queuedBytes history) (sentBytes history)

theorem perform_attached {history : List (WriterCall × WriterAnswer)} {writer : OutputWriter}
    (call : WriterCall) (before : Attached history writer) :
    Attached (history ++ [(call, (perform writer call).2)]) (perform writer call).1 := by
  obtain ⟨socket, carries⟩ := before
  cases call with
  | queue region =>
    refine ⟨?_, ?_⟩
    · simpa [perform, queue_socket] using socket
    · simp only [queuedBytes, sentBytes, List.flatMap_append] at carries ⊢
      simpa [perform] using queue_carries region carries
  | drive answers =>
    have sends := drive_sends socket carries.begins answers
    refine ⟨?_, ?_⟩
    · simpa [perform, sends.socket] using socket
    · simp only [queuedBytes, sentBytes, List.flatMap_append] at carries ⊢
      simpa [perform] using drive_carries answers carries

section
variable {socketFd : Int} {start writer : OutputWriter} {history : List (WriterCall × WriterAnswer)}

theorem runs_attached (attached : ckHttpOutputWriterAttachSocket ckHttpOutputWriterInit socketFd = (0, start))
    (runs : Runs writerStep start history writer) : Attached history writer := by
  apply runs.invariant Attached
  · unfold ckHttpOutputWriterAttachSocket at attached
    split at attached
    · cases attached
    · rename_i usable
      cases attached
      refine ⟨?_, init_carries.begins, init_carries.fits, init_carries.stream⟩
      dsimp only
      omega
  · intro history writer after call answer _ before next
    simp only [writerStep, Option.some.injEq] at next
    have performed : perform writer call = (after, answer) := next
    have moved := perform_attached call before
    rwa [performed] at moved

/-- The bytes that send took and the pending ones are what was queued, in order; a drive sends
    within its budget and is DRAINED exactly when nothing is pending. -/
theorem writer_transmits_queued
    (attached : ckHttpOutputWriterAttachSocket ckHttpOutputWriterInit socketFd = (0, start))
    (runs : Runs writerStep start history writer) :
    sentBytes history ++ writer.pending = queuedBytes history ∧
    writer.beginPos ≤ writer.endPos ∧ writer.endPos ≤ outputBufferBytes ∧
    (∀ region, (ckHttpOutputWriterQueue writer region).1 ≠ 0 →
      sentBytes history ++ (ckHttpOutputWriterQueue writer region).2.pending = queuedBytes history) ∧
    ∀ answers, (ckHttpOutputWriterDrive writer answers).2.2.length ≤ outputBudgetBytes ∧
      ((ckHttpOutputWriterDrive writer answers).1 = .drained ↔
        (ckHttpOutputWriterDrive writer answers).2.1.pending = []) := by
  obtain ⟨socket, carries⟩ := runs_attached attached runs
  refine ⟨carries.stream.symm, carries.begins, carries.fits, ?_, ?_⟩
  · intro region failed
    rw [queue_failed_pending failed]
    exact carries.stream.symm
  · intro answers
    have sends := drive_sends socket carries.begins answers
    exact ⟨sends.paid, sends.drained⟩

theorem bufferedBytes_eq {writer : OutputWriter} (begins : writer.beginPos ≤ writer.endPos) :
    ckHttpOutputWriterBufferedBytes writer = writer.endPos - writer.beginPos := by
  unfold ckHttpOutputWriterBufferedBytes
  rw [if_neg (by omega)]

theorem makeRoom_end {writer : OutputWriter} (begins : writer.beginPos ≤ writer.endPos) :
    (makeRoom writer).endPos =
      if 0 < writer.beginPos ∧ writer.endPos = outputBufferBytes then ckHttpOutputWriterBufferedBytes writer
      else writer.endPos := by
  unfold makeRoom
  split
  · rw [bufferedBytes_eq begins]
    exact List.length_drop
  · rfl

/-- A queue call is accepted when the data fits behind the tail, or behind the pending bytes if
    the tail has reached the end of the buffer. -/
theorem queue_accepts_iff
    (attached : ckHttpOutputWriterAttachSocket ckHttpOutputWriterInit socketFd = (0, start))
    (runs : Runs writerStep start history writer) (region : Region) (valid : region.invalid = false) :
    ((ckHttpOutputWriterQueue writer region).1 = 0 ↔
      writer.endPos + region.length ≤ outputBufferBytes ∨
        (0 < writer.beginPos ∧ writer.endPos = outputBufferBytes ∧
          ckHttpOutputWriterBufferedBytes writer + region.length ≤ outputBufferBytes)) ∧
    ((ckHttpOutputWriterQueue writer region).1 = 0 →
      ckHttpOutputWriterBufferedBytes writer + region.length ≤ outputBufferBytes) ∧
    (writer.beginPos = 0 ∨ writer.endPos = outputBufferBytes →
      ((ckHttpOutputWriterQueue writer region).1 = 0 ↔
        ckHttpOutputWriterBufferedBytes writer + region.length ≤ outputBufferBytes)) := by
  obtain ⟨socket, carries⟩ := runs_attached attached runs
  have begins := carries.begins
  have fits := carries.fits
  have tail := makeRoom_end begins
  have buffered := bufferedBytes_eq begins
  have accepted : (ckHttpOutputWriterQueue writer region).1 = 0 ↔
      region.length ≤ outputBufferBytes - (makeRoom writer).endPos := by
    rcases queue_cases writer region with ⟨unusable, answer⟩ | ⟨large, answer⟩ | ⟨small, answer⟩
    · rcases unusable with detached | invalid
      · omega
      · simp [valid] at invalid
    · rw [answer]
      have refused : ¬ region.length ≤ outputBufferBytes - (makeRoom writer).endPos := Nat.not_le_of_lt large
      simp [refused]
    · rw [answer]
      simpa using small
  rw [accepted, tail]
  split
  · omega
  · omega

end

def helloCalls : List WriterCall :=
  [.queue (.bytes (ascii "hello")), .drive [.accepts 2, .intr, .again]]

theorem writer_transmits_queued_hello : ∃ start history writer,
    ckHttpOutputWriterAttachSocket ckHttpOutputWriterInit 3 = (0, start) ∧
    execute writerStep start helloCalls = some (history, writer) ∧
    sentBytes history = ascii "he" ∧ writer.pending = ascii "llo" ∧
    sentBytes history ++ writer.pending = queuedBytes history := by
  obtain ⟨start, history, writer, attached, executed, sent, pending⟩ : ∃ start history writer,
      ckHttpOutputWriterAttachSocket ckHttpOutputWriterInit 3 = (0, start) ∧
      execute writerStep start helloCalls = some (history, writer) ∧
      sentBytes history = ascii "he" ∧ writer.pending = ascii "llo" :=
    ⟨_, _, _, rfl, rfl, by decide +kernel, by decide +kernel⟩
  exact ⟨start, history, writer, attached, executed, sent, pending,
    (writer_transmits_queued attached (execute_runs executed)).1⟩

theorem queue_accepts_hello : ∃ start history writer,
    ckHttpOutputWriterAttachSocket ckHttpOutputWriterInit 3 = (0, start) ∧
    execute writerStep start helloCalls = some (history, writer) ∧
    ((ckHttpOutputWriterQueue writer (.bytes (ascii "!"))).1 = 0 ↔
      writer.endPos + 1 ≤ outputBufferBytes ∨ (0 < writer.beginPos ∧ writer.endPos = outputBufferBytes ∧
        ckHttpOutputWriterBufferedBytes writer + 1 ≤ outputBufferBytes)) := by
  obtain ⟨start, history, writer, attached, executed⟩ : ∃ start history writer,
      ckHttpOutputWriterAttachSocket ckHttpOutputWriterInit 3 = (0, start) ∧
      execute writerStep start helloCalls = some (history, writer) := ⟨_, _, _, rfl, rfl⟩
  exact ⟨start, history, writer, attached, executed,
    (queue_accepts_iff attached (execute_runs executed) (.bytes (ascii "!")) rfl).1⟩

/-- Behind three pending bytes at the front of the buffer 65533 more would fit. -/
theorem pending_place_refuses : ∃ start history writer,
    ckHttpOutputWriterAttachSocket ckHttpOutputWriterInit 3 = (0, start) ∧
    Runs writerStep start history writer ∧
    ∃ region, region.invalid = false ∧
      ckHttpOutputWriterBufferedBytes writer + region.length ≤ outputBufferBytes ∧
      (ckHttpOutputWriterQueue writer region).1 = -2 := by
  obtain ⟨start, history, writer, attached, executed, socket, begins, ends⟩ : ∃ start history writer,
      ckHttpOutputWriterAttachSocket ckHttpOutputWriterInit 3 = (0, start) ∧
      execute writerStep start helloCalls = some (history, writer) ∧
      writer.socketFd = 3 ∧ writer.beginPos = 2 ∧ writer.endPos = 5 := ⟨_, _, _, rfl, rfl, rfl, rfl, rfl⟩
  obtain ⟨region, valid, width⟩ : ∃ region : Region, region.invalid = false ∧
      region.length = outputBufferBytes - 3 :=
    ⟨.bytes (List.replicate (outputBufferBytes - 3) 0), rfl, List.length_replicate⟩
  have capacity : outputBufferBytes = 65536 := rfl
  refine ⟨start, history, writer, attached, execute_runs executed, region, valid, ?_, ?_⟩
  · rw [bufferedBytes_eq (by omega), begins, ends, width]
    omega
  · have tail : (makeRoom writer).endPos = 5 := by
      rw [makeRoom_end (by omega), ends, if_neg (by omega)]
    rcases queue_cases writer region with ⟨unusable, -⟩ | ⟨-, answer⟩ | ⟨small, -⟩
    · rw [socket, valid] at unusable
      simp at unusable
    · rw [answer]
    · omega

end CkartaOutputHistory
