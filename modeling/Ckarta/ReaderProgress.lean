import Ckarta.ReaderRuns

/-!
A drive with a sink that takes every span, seen from outside: it moves bytes from the
socket to the buffer and from the buffer to the input machine, in order.
-/
namespace CkartaReaderProgress
open MachineWord PrefixMachine CkartaHttpParser CkartaHttpInput CkartaInputMachine CkartaInputStream
  CkartaConnectionReader CkartaReaderSteps CkartaReaderTurns CkartaReaderRuns
variable {σ : Type}

structure Progress (s t : DriveState σ) (read out got : Bytes) : Prop where
  stream : unparsed s.reader ++ got = read ++ unparsed t.reader
  unread_eq : unread s.socket = got ++ unread t.socket
  paid : read.length + t.processBudget = s.processBudget
  readLeft : got.length + t.readBudget = s.readBudget
  consumed : consumedBytes t.trace = consumedBytes s.trace ++ read
  delivered : deliveredBytes t.trace = deliveredBytes s.trace ++ out
  received : receivedBytes t.trace = receivedBytes s.trace ++ got

theorem Progress.refl (s : DriveState σ) : Progress s s [] [] [] :=
  ⟨by simp, rfl, by simp, by simp, by simp, by simp, by simp⟩

theorem Progress.trans {s t u : DriveState σ} {read out got more extra fresh : Bytes}
    (first : Progress s t read out got) (second : Progress t u more extra fresh) :
    Progress s u (read ++ more) (out ++ extra) (got ++ fresh) where
  stream := by
    rw [← List.append_assoc, first.stream, List.append_assoc, second.stream, List.append_assoc]
  unread_eq := by rw [first.unread_eq, second.unread_eq, List.append_assoc]
  paid := by rw [← first.paid, ← second.paid, List.length_append, Nat.add_assoc]
  readLeft := by rw [← first.readLeft, ← second.readLeft, List.length_append, Nat.add_assoc]
  consumed := by rw [second.consumed, first.consumed, List.append_assoc]
  delivered := by rw [second.delivered, first.delivered, List.append_assoc]
  received := by rw [second.received, first.received, List.append_assoc]

theorem moved_progress {s t : DriveState σ} {y : HttpInput} {read rest out : Bytes}
    (sound : ReaderSound s.reader) (moved : Moved s t y read out) (cut : slice s = read ++ rest) :
    Progress s t read out [] := by
  have stream := (moved_reader sound moved cut).2.2
  have short := (slice_within s).2
  rw [cut, List.length_append] at short
  exact ⟨by simpa using stream, by rw [moved.socket]; rfl, by rw [moved.process]; omega,
    by rw [moved.readLeft, List.length_nil, Nat.zero_add], moved.consumed, moved.delivered,
    by rw [moved.received, List.append_nil]⟩

theorem received_progress {s t : DriveState σ} {got : Bytes} (kept : Received s t got) :
    Progress s t [] [] got := by
  have paid := kept.paid
  exact ⟨by rw [List.nil_append, kept.unparsed_eq], kept.unread_eq,
    by rw [kept.process, List.length_nil, Nat.zero_add], by rw [kept.readLeft]; omega,
    by rw [kept.consumed, List.append_nil], by rw [kept.delivered, List.append_nil], kept.received⟩

theorem turn_progress {sink : Option (BodySink σ)} {s t : DriveState σ} {turn : Turn}
    (sound : DriveSound s) (ready : Ready s.reader.input)
    (outcome : TurnOutcome sink s (t, turn)) (goes : ∀ result, turn ≠ .stop result) :
    ∃ read out, Progress s t read out [] ∧
      Steps inputMachine (settled s.reader.input) read out (settled t.reader.input) ∧
      Ready t.reader.input ∧
      (turn = .leave → unparsed t.reader = [] ∨
        (read = [] ∧ inputAct (settled t.reader.input) (slice s) = .wait)) := by
  cases outcome with
  | spent empty => exact absurd rfl (goes _)
  | again _ done moved => exact absurd rfl (goes _)
  | refused _ y z n result held within moved unwilling kind => exact absurd rfl (goes _)
  | acked _ z n data turn held moved way => exact absurd ready.no_span held.span
  | ran _ read rest out y turn ready cut run idle next vain moved way =>
    refine ⟨read, out, moved_progress sound.reader moved cut, by rw [moved.input]; exact run, ?_⟩
    have live : t.reader.input.messageComplete = false := by
      cases way with
      | complete done => exact absurd rfl (goes _)
      | drained live reached => exact live
      | vain live more none => exact live
      | next live more some => exact live
    rw [moved.input] at live ⊢
    have still : Ready y := by
      rcases next with done | ready
      · simp [live] at done
      · exact ready
    refine ⟨still, ?_⟩
    rintro rfl
    cases way with
    | drained _ reached =>
      exact .inl (by rw [unparsed, reached]; exact List.drop_length)
    | vain _ more none =>
      have empty : read = [] := List.length_eq_zero_iff.mp none
      subst empty
      exact .inr ⟨rfl, by rw [cut]; exact vain rfl⟩
  | complete _ read rest n e y ready cut wide within run ends idle header done moved =>
    exact absurd rfl (goes _)
  | rejected _ fed result ready feeds kind told within next moved => exact absurd rfl (goes _)

theorem step_progress {sink : Option (BodySink σ)} {s t : DriveState σ} (sound : DriveSound s)
    (ready : Ready s.reader.input) (step : driveStep sink s = (t, none)) :
    ∃ read out got, Progress s t read out got ∧
      Steps inputMachine (settled s.reader.input) read out (settled t.reader.input) ∧
      Ready t.reader.input := by
  rcases driveStep_cases sound step with ⟨turn, outcome, more, kind⟩ | ⟨u, outcome, more, next, received⟩ |
    ⟨drained, received⟩
  · obtain ⟨read, out, progress, run, still, -⟩ := turn_progress sound ready outcome (by
      rintro result rfl
      simp at kind)
    exact ⟨read, out, [], progress, run, still⟩
  · obtain ⟨read, out, progress, run, still, -⟩ := turn_progress sound ready outcome (by simp)
    obtain ⟨got, kept⟩ := receive_kept received
    have whole := progress.trans (received_progress kept)
    rw [List.append_nil, List.append_nil, List.nil_append] at whole
    exact ⟨read, out, got, whole, by rw [kept.input]; exact run, by rw [kept.input]; exact still⟩
  · obtain ⟨got, kept⟩ := receive_kept received
    exact ⟨[], [], got, received_progress kept, by rw [kept.input]; exact Steps.refl _,
      by rw [kept.input]; exact ready⟩

theorem visits_progress {sink : Option (BodySink σ)} {s t : DriveState σ} (sound : DriveSound s)
    (ready : Ready s.reader.input) (visits : Visits sink s t) :
    ∃ read out got, Progress s t read out got ∧
      Steps inputMachine (settled s.reader.input) read out (settled t.reader.input) ∧
      Ready t.reader.input := by
  induction visits with
  | refl s => exact ⟨[], [], [], .refl s, Steps.refl _, ready⟩
  | step step rest ih =>
    obtain ⟨read, out, got, progress, run, still⟩ := step_progress sound ready step
    obtain ⟨more, extra, fresh, progress', run', still'⟩ :=
      ih ((driveStep_sound sound step).2 rfl) still
    exact ⟨read ++ more, out ++ extra, got ++ fresh, progress.trans progress',
      steps_trans run run', still'⟩

end CkartaReaderProgress
