import Ckarta.HttpResponse

/-!
The output writer, c/output/ck_http_output_writer.[ch]: a buffer of 65536 bytes that queue
calls fill and that each drive sends from, at most 32768 bytes at a time. The buffer list
holds the bytes before end, so end is its length.
-/
namespace CkartaOutputWriter
open CkartaHttpParser CkartaHttpResponse

def outputBufferBytes : Nat := 65536
def outputBudgetBytes : Nat := 32768

inductive OutputWriteResult where
  | drained
  | needWrite
  | peerClosed
  | ioError
  deriving DecidableEq, Repr

structure OutputWriter where
  socketFd : Int
  buffer : Bytes
  beginPos : Nat
  deriving DecidableEq, Repr

def OutputWriter.endPos (writer : OutputWriter) : Nat := writer.buffer.length

/-- buffer[begin..end) -/
def OutputWriter.pending (writer : OutputWriter) : Bytes := writer.buffer.drop writer.beginPos

/-- What ck_socket_send_nonblocking can answer: room for so many bytes, or an errno. -/
inductive SendAnswer where
  | accepts (count : Nat)
  | intr
  | again
  | peerGone
  | error
  deriving DecidableEq, Repr

def ckHttpOutputWriterInit : OutputWriter := ⟨-1, [], 0⟩

def ckHttpOutputWriterAttachSocket (writer : OutputWriter) (socketFd : Int) : Int × OutputWriter :=
  if socketFd < 0 ∨ writer.socketFd ≥ 0 then (-1, writer)
  else (0, { writer with socketFd := socketFd })

def OutputWriter.compact (writer : OutputWriter) : OutputWriter :=
  { writer with buffer := writer.pending, beginPos := 0 }

def ckHttpOutputWriterQueue (writer : OutputWriter) (region : Region) : Int × OutputWriter :=
  if writer.socketFd < 0 ∨ region.invalid = true then (-1, writer)
  else
    let writer := if writer.beginPos > 0 ∧ writer.endPos = outputBufferBytes then writer.compact else writer
    if region.length > outputBufferBytes - writer.endPos then (-2, writer)
    else (0, { writer with buffer := writer.buffer ++ region.data })

/-- The end of a drive whose loop ran out: begin and end go back to 0 when all is sent. -/
def endDrive (writer : OutputWriter) : OutputWriteResult × OutputWriter × Bytes :=
  if writer.beginPos = writer.endPos then (.drained, { writer with buffer := [], beginPos := 0 }, [])
  else (.needWrite, writer, [])

/-- The send loop, with the bytes send has accepted. Each turn uses up one answer; a socket
    without further answers would block. -/
def sendLoop : List SendAnswer → OutputWriter → Nat → OutputWriteResult × OutputWriter × Bytes
  | [], writer, budget =>
    if writer.beginPos < writer.endPos ∧ budget ≠ 0 then (.needWrite, writer, []) else endDrive writer
  | answer :: answers, writer, budget =>
    if writer.beginPos < writer.endPos ∧ budget ≠ 0 then
      let pending := writer.endPos - writer.beginPos
      let attempt := if pending < budget then pending else budget
      match answer with
      | .accepts count =>
        let sent := if count < attempt then count else attempt
        if sent > 0 then
          match sendLoop answers { writer with beginPos := writer.beginPos + sent } (budget - sent) with
          | (result, after, bytes) => (result, after, writer.pending.take sent ++ bytes)
        else (.peerClosed, writer, [])
      | .intr => sendLoop answers writer budget
      | .again => (.needWrite, writer, [])
      | .peerGone => (.peerClosed, writer, [])
      | .error => (.ioError, writer, [])
    else endDrive writer

def ckHttpOutputWriterDrive (writer : OutputWriter) (answers : List SendAnswer) :
    OutputWriteResult × OutputWriter × Bytes :=
  if writer.socketFd < 0 then (.ioError, writer, [])
  else sendLoop answers writer outputBudgetBytes

def ckHttpOutputWriterBufferedBytes (writer : OutputWriter) : Nat :=
  if writer.endPos < writer.beginPos then 0 else writer.endPos - writer.beginPos

/-- What was queued is what send has taken and what is pending, in order. -/
structure Carries (writer : OutputWriter) (queued sent : Bytes) : Prop where
  begins : writer.beginPos ≤ writer.endPos
  fits : writer.endPos ≤ outputBufferBytes
  stream : queued = sent ++ writer.pending

theorem init_carries : Carries ckHttpOutputWriterInit [] [] :=
  ⟨Nat.le_refl _, Nat.zero_le _, rfl⟩

theorem attachSocket_carries {writer : OutputWriter} {queued sent : Bytes} (socketFd : Int)
    (carries : Carries writer queued sent) :
    Carries (ckHttpOutputWriterAttachSocket writer socketFd).2 queued sent := by
  simp only [ckHttpOutputWriterAttachSocket]
  split
  · exact carries
  · exact ⟨carries.begins, carries.fits, carries.stream⟩

theorem compact_carries {writer : OutputWriter} {queued sent : Bytes}
    (carries : Carries writer queued sent) : Carries writer.compact queued sent := by
  have fits := carries.fits
  refine ⟨Nat.zero_le _, ?_, carries.stream⟩
  simp only [OutputWriter.compact, OutputWriter.endPos, OutputWriter.pending, List.length_drop] at fits ⊢
  omega

theorem queue_carries {writer : OutputWriter} {queued sent : Bytes} (region : Region)
    (carries : Carries writer queued sent) :
    Carries (ckHttpOutputWriterQueue writer region).2
      (queued ++ if (ckHttpOutputWriterQueue writer region).1 = 0 then region.data else []) sent := by
  simp only [ckHttpOutputWriterQueue]
  by_cases unfit : writer.socketFd < 0 ∨ region.invalid = true
  · rw [if_pos unfit]
    simpa using carries
  · rw [if_neg unfit]
    generalize moved : (if writer.beginPos > 0 ∧ writer.endPos = outputBufferBytes then writer.compact
      else writer) = room
    have ready : Carries room queued sent := by
      rw [← moved]
      split
      · exact compact_carries carries
      · exact carries
    by_cases large : region.length > outputBufferBytes - room.endPos
    · rw [if_pos large]
      simpa using ready
    · rw [if_neg large]
      have width : region.data.length ≤ region.length := by
        cases region with
        | null length => exact Nat.zero_le _
        | bytes data => exact Nat.le_refl _
      obtain ⟨begins, fits, stream⟩ := ready
      simp only [OutputWriter.endPos] at begins fits large
      refine ⟨?_, ?_, ?_⟩
      · simp only [OutputWriter.endPos, List.length_append]
        omega
      · simp only [OutputWriter.endPos, List.length_append]
        omega
      · simp only [OutputWriter.pending, ↓reduceIte] at stream ⊢
        rw [stream, List.append_assoc, List.drop_append_of_le_length begins]

theorem endDrive_carries {writer : OutputWriter} {queued sent : Bytes}
    (carries : Carries writer queued sent) :
    Carries (endDrive writer).2.1 queued (sent ++ (endDrive writer).2.2) := by
  simp only [endDrive]
  split
  · rename_i reached
    have empty : writer.pending = [] := by
      rw [OutputWriter.pending, reached]
      exact List.drop_length
    refine ⟨Nat.le_refl _, Nat.zero_le _, ?_⟩
    have stream := carries.stream
    rw [empty] at stream
    simpa [OutputWriter.pending] using stream
  · simpa using carries

theorem sendLoop_accepts {writer : OutputWriter} {budget : Nat} (count : Nat) (answers : List SendAnswer)
    (more : writer.beginPos < writer.endPos ∧ budget ≠ 0) :
    ∃ n, n ≤ writer.endPos - writer.beginPos ∧ n ≤ budget ∧
      sendLoop (.accepts count :: answers) writer budget =
        if n > 0 then
          match sendLoop answers { writer with beginPos := writer.beginPos + n } (budget - n) with
          | (result, after, bytes) => (result, after, writer.pending.take n ++ bytes)
        else (.peerClosed, writer, []) := by
  simp only [sendLoop]
  rw [if_pos more]
  generalize window : (if writer.endPos - writer.beginPos < budget
    then writer.endPos - writer.beginPos else budget) = attempt
  generalize taken : (if count < attempt then count else attempt) = n
  refine ⟨n, ?_, ?_, rfl⟩
  · split at window <;> split at taken <;> omega
  · split at window <;> split at taken <;> omega

theorem sendLoop_carries {writer : OutputWriter} {queued sent : Bytes} {budget : Nat}
    (answers : List SendAnswer) (carries : Carries writer queued sent) :
    Carries (sendLoop answers writer budget).2.1 queued (sent ++ (sendLoop answers writer budget).2.2) := by
  induction answers generalizing writer sent budget with
  | nil =>
    simp only [sendLoop]
    split
    · simpa using carries
    · exact endDrive_carries carries
  | cons answer answers ih =>
    by_cases more : writer.beginPos < writer.endPos ∧ budget ≠ 0
    · cases answer with
      | accepts count =>
        obtain ⟨n, short, -, sends⟩ := sendLoop_accepts count answers more
        rw [sends]
        by_cases some : n > 0
        · rw [if_pos some]
          have moved : Carries { writer with beginPos := writer.beginPos + n } queued
              (sent ++ writer.pending.take n) := by
            refine ⟨?_, carries.fits, ?_⟩
            · simp only [OutputWriter.endPos] at short more ⊢
              omega
            · rw [carries.stream]
              simp only [OutputWriter.pending, ← List.drop_drop]
              rw [List.append_assoc, List.take_append_drop]
          have rest : Carries (sendLoop answers { writer with beginPos := writer.beginPos + n }
              (budget - n)).2.1 queued _ := ih moved
          rw [List.append_assoc] at rest
          exact rest
        · rw [if_neg some]
          simpa using carries
      | intr =>
        simp only [sendLoop, if_pos more]
        exact ih carries
      | again | peerGone | error =>
        simp only [sendLoop, if_pos more]
        simpa using carries
    · simp only [sendLoop, if_neg more]
      exact endDrive_carries carries

theorem drive_carries {writer : OutputWriter} {queued sent : Bytes} (answers : List SendAnswer)
    (carries : Carries writer queued sent) :
    Carries (ckHttpOutputWriterDrive writer answers).2.1 queued
      (sent ++ (ckHttpOutputWriterDrive writer answers).2.2) := by
  simp only [ckHttpOutputWriterDrive]
  split
  · simpa using carries
  · exact sendLoop_carries answers carries

theorem Carries.sent_all {writer : OutputWriter} {queued sent : Bytes}
    (carries : Carries writer queued sent) (empty : ckHttpOutputWriterBufferedBytes writer = 0) :
    queued = sent := by
  have begins := carries.begins
  have none : writer.pending = [] := by
    simp only [ckHttpOutputWriterBufferedBytes] at empty
    rw [if_neg (by omega)] at empty
    rw [OutputWriter.pending, List.drop_eq_nil_iff]
    exact Nat.sub_eq_zero_iff_le.mp empty
  rw [carries.stream, none, List.append_nil]

end CkartaOutputWriter
