import Ckarta.ReaderProgress

/-!
Where a drive returns, seen from its start. Until then it has moved the input machine over
the first bytes of one stream, what is buffered and then what the socket gives at once; a
drive that makes room to receive has fed all it can show the machine.
-/
namespace CkartaReaderExits
open PrefixMachine CkartaHttpParser CkartaHttpInput CkartaInputMachine CkartaInputStream
  CkartaConnectionReader CkartaReaderSteps CkartaReaderTurns CkartaReaderRuns CkartaReaderProgress
variable {σ : Type}

/-- The bytes recv gives before it answers anything but data or an interruption. -/
def incoming : Socket → Bytes
  | .data first rest :: events => first :: rest ++ incoming events
  | .intr :: events => incoming events
  | _ => []

/-- And the answer it gives then. -/
def firstAnswer : Socket → RecvOutcome
  | .data _ _ :: events => firstAnswer events
  | .intr :: events => firstAnswer events
  | .eof :: _ => .zero
  | .error :: _ => .error
  | .again :: _ => .again
  | [] => .again

/-- Buffered bytes and those a drive can still receive behind them. -/
def arrives (buffered : Bytes) (socket : Socket) (reads : Nat) : Bytes :=
  buffered ++ (incoming socket).take reads

def ahead (s : DriveState σ) : Bytes := arrives (unparsed s.reader) s.socket s.readBudget

/-- What the process budget lets the input machine see of them. -/
def visible (s : DriveState σ) : Bytes := (ahead s).take s.processBudget

theorem slice_visible (s : DriveState σ) : slice s <+: visible s := by
  rw [slice_eq, visible, ahead, arrives, List.take_append]
  exact List.prefix_append _ _

/-- The drive at s is about to make room and receive, at u. -/
def Receives (sink : Option (BodySink σ)) (s u : DriveState σ) : Prop :=
  (s.reader.beginPos = s.reader.endPos ∧ u = s) ∨
    (s.reader.beginPos < s.reader.endPos ∧ processOne sink s = (u, .leave))

theorem receives_step {sink : Option (BodySink σ)} {s u : DriveState σ} (receives : Receives sink s u) :
    driveStep sink s = receiveStep u := by
  rcases receives with ⟨drained, rfl⟩ | ⟨more, turned⟩
  · simp [driveStep, drained]
  · simp [driveStep, more, turned]

/-- A drive from s has come to u: read of the stream is consumed, got of it received. -/
structure Reached (s u : DriveState σ) (read out got : Bytes) : Prop where
  progress : Progress s u read out got
  run : Steps inputMachine (settled s.reader.input) read out (settled u.reader.input)
  ready : Ready u.reader.input
  sound : DriveSound u

structure Waits (u : DriveState σ) : Prop where
  quiet : inputAct (settled u.reader.input) (slice u) = .wait
  paid : unparsed u.reader ≠ [] → u.processBudget ≠ 0

theorem unparsed_drained {reader : ConnectionReader} (drained : reader.beginPos = reader.endPos) :
    unparsed reader = [] := by
  rw [unparsed, drained]
  exact List.drop_length

theorem receives_reached {sink : Option (BodySink σ)} {s u : DriveState σ} (sound : DriveSound s)
    (ready : Ready s.reader.input) (receives : Receives sink s u) :
    ∃ read out, Reached s u read out [] ∧ Waits u := by
  rcases receives with ⟨drained, rfl⟩ | ⟨more, turned⟩
  · have empty := unparsed_drained drained
    refine ⟨[], [], ⟨.refl u, Steps.refl _, ready, sound⟩, ?_, fun some => absurd empty some⟩
    rw [slice_eq, empty, List.take_nil]
    rfl
  · have outcome := turn_outcome sound turned
    obtain ⟨read, out, progress, run, still, leaves⟩ := turn_progress sound ready outcome (by simp)
    refine ⟨read, out, ⟨progress, run, still, (turn_sound sound outcome).2 (by simp)⟩, ?_⟩
    rcases leaves rfl with empty | ⟨rfl, waits⟩
    · refine ⟨?_, fun some => absurd empty some⟩
      rw [slice_eq, empty, List.take_nil]
      rfl
    · have same := progress.stream
      have paid := progress.paid
      rw [List.append_nil, List.nil_append] at same
      rw [List.length_nil, Nat.zero_add] at paid
      refine ⟨?_, fun _ => ?_⟩
      · rw [slice_eq, ← same, paid, ← slice_eq]
        exact waits
      · rw [paid]
        exact processOne_paid turned (by simp)

theorem Reached.trans {s t u : DriveState σ} {read out got more extra fresh : Bytes}
    (first : Reached s t read out got) (second : Reached t u more extra fresh) :
    Reached s u (read ++ more) (out ++ extra) (got ++ fresh) :=
  ⟨first.progress.trans second.progress, steps_trans first.run second.run, second.ready, second.sound⟩

theorem visits_reached {sink : Option (BodySink σ)} {s t : DriveState σ} (sound : DriveSound s)
    (ready : Ready s.reader.input) (visits : Visits sink s t) :
    ∃ read out got, Reached s t read out got := by
  obtain ⟨read, out, got, progress, run, still⟩ := visits_progress sound ready visits
  exact ⟨read, out, got, progress, run, still, visits_sound sound visits⟩

theorem returns_exits {sink : Option (BodySink σ)} {s t : DriveState σ} {result : ReadResult}
    (sound : DriveSound s) (returns : Returns sink s t result) :
    ∃ last, Visits sink s last ∧
      ((last.reader.beginPos < last.reader.endPos ∧ processOne sink last = (t, .stop result)) ∨
        ∃ u, Receives sink last u ∧ receiveStep u = (t, some result)) := by
  obtain ⟨last, visits, stops⟩ := returns
  refine ⟨last, visits, ?_⟩
  rcases driveStep_inv stops with ⟨more, ⟨-, goes⟩ | ⟨answer, turned, same⟩⟩ | ⟨more, u, turned, received⟩ |
    ⟨drained, received⟩
  · simp at goes
  · rw [Option.some.injEq] at same
    exact .inl ⟨more, same ▸ turned⟩
  · exact .inr ⟨u, .inr ⟨more, turned⟩, received⟩
  · have begins := (visits_sound sound visits).reader.begins
    refine .inr ⟨last, .inl ⟨?_, rfl⟩, received⟩
    simp only [ConnectionReader.endPos] at drained ⊢
    omega

theorem recv_incoming {socket left : Socket} {length : Nat} {bytes : Bytes}
    (h : recv socket length = (.data bytes, left)) :
    incoming socket = bytes ++ incoming left ∧ firstAnswer socket = firstAnswer left := by
  have does := recv_does socket length
  rw [h] at does
  cases does with
  | @data first rest events some =>
    have whole := List.take_append_drop length (first :: rest)
    generalize (first :: rest).drop length = tail at whole
    cases tail with
    | nil =>
      rw [List.append_nil] at whole
      rw [whole]
      exact ⟨rfl, rfl⟩
    | cons b tail =>
      refine ⟨?_, rfl⟩
      show first :: rest ++ incoming events = _ ++ (b :: tail ++ incoming events)
      rw [← List.append_assoc, whole]

theorem recv_intr_incoming {socket left : Socket} {length : Nat} (h : recv socket length = (.intr, left)) :
    incoming socket = incoming left ∧ firstAnswer socket = firstAnswer left := by
  have does := recv_does socket length
  rw [h] at does
  cases does with
  | intr => exact ⟨rfl, rfl⟩

theorem recv_answer {socket left : Socket} {length : Nat} {outcome : RecvOutcome}
    (h : recv socket length = (outcome, left)) (positive : length ≠ 0)
    (quiet : ∀ bytes, outcome ≠ .data bytes) (decided : outcome ≠ .intr) :
    incoming socket = [] ∧ firstAnswer socket = outcome := by
  have does := recv_does socket length
  rw [h] at does
  cases does with
  | data some => exact absurd rfl (quiet _)
  | none empty => exact absurd empty positive
  | intr => exact absurd rfl decided
  | dry | again | eof | error => exact ⟨rfl, rfl⟩

theorem receiveStep_incoming {s t : DriveState σ} (step : receiveStep s = (t, none)) :
    ∃ got, receivedBytes t.trace = receivedBytes s.trace ++ got ∧
      incoming s.socket = got ++ incoming t.socket ∧ firstAnswer s.socket = firstAnswer t.socket := by
  rcases receiveStep_cases s with ⟨u, result, ends, room⟩ | ⟨u, received, room⟩
  · rw [step] at ends
    simp at ends
  · rw [step] at received
    cases room with
    | ready _ room reads left spare =>
      rw [← room.socket, ← room.trace]
      simp only [receiveOne] at received
      split at received
      · rename_i bytes after taken
        simp only [Prod.mk.injEq, and_true] at received
        subst received
        exact ⟨bytes, by simp [DriveState.emit, receivedBytes], recv_incoming taken⟩
      · simp at received
      · simp at received
      · rename_i after taken
        simp only [Prod.mk.injEq, and_true] at received
        subst received
        exact ⟨[], by simp, recv_intr_incoming taken⟩
      · simp at received

theorem turn_moved {sink : Option (BodySink σ)} {s t : DriveState σ} {turn : Turn}
    (outcome : TurnOutcome sink s (t, turn)) : ∃ y read out, Moved s t y read out := by
  cases outcome with
  | spent empty => exact ⟨_, [], [], rfl, rfl, rfl, rfl, rfl, rfl, by simp, by simp, rfl⟩
  | again _ done moved => exact ⟨_, _, _, moved⟩
  | refused _ y z n result held within moved unwilling kind => exact ⟨_, _, _, moved⟩
  | acked _ z n data turn held moved goes => exact ⟨_, _, _, moved⟩
  | ran _ read rest out y turn ready cut run idle next vain moved goes => exact ⟨_, _, _, moved⟩
  | complete _ read rest n e y ready cut wide within run ends idle header done moved =>
    exact ⟨_, _, _, moved⟩
  | rejected _ fed result ready feeds kind told within next moved => exact ⟨_, _, _, moved⟩

theorem turn_arrivals {sink : Option (BodySink σ)} {s t : DriveState σ} {turn : Turn}
    (sound : DriveSound s) (turned : processOne sink s = (t, turn)) :
    t.socket = s.socket ∧ receivedBytes t.trace = receivedBytes s.trace := by
  have outcome := turn_outcome sound turned
  obtain ⟨y, read, out, moved⟩ := turn_moved outcome
  exact ⟨moved.socket, moved.received⟩

theorem visits_incoming {sink : Option (BodySink σ)} {s t : DriveState σ} (sound : DriveSound s)
    (visits : Visits sink s t) :
    ∃ got, receivedBytes t.trace = receivedBytes s.trace ++ got ∧
      incoming s.socket = got ++ incoming t.socket ∧ firstAnswer s.socket = firstAnswer t.socket := by
  induction visits with
  | refl => exact ⟨[], by simp, rfl, rfl⟩
  | @step s t u first rest ih =>
    obtain ⟨more, trace, came, answer⟩ := ih ((driveStep_sound sound first).2 rfl)
    have one : ∃ got, receivedBytes t.trace = receivedBytes s.trace ++ got ∧
        incoming s.socket = got ++ incoming t.socket ∧ firstAnswer s.socket = firstAnswer t.socket := by
      rcases driveStep_inv first with ⟨-, ⟨turned, -⟩ | ⟨result, -, told⟩⟩ | ⟨-, v, turned, received⟩ |
        ⟨-, received⟩
      · obtain ⟨socket, bytes⟩ := turn_arrivals sound turned
        exact ⟨[], by simp [bytes], by rw [socket]; rfl, by rw [socket]⟩
      · simp at told
      · obtain ⟨socket, bytes⟩ := turn_arrivals sound turned
        have step := receiveStep_incoming received
        rwa [bytes, socket] at step
      · exact receiveStep_incoming received
    obtain ⟨got, trace', came', answer'⟩ := one
    exact ⟨got ++ more, by rw [trace, trace', List.append_assoc], by rw [came', came, List.append_assoc],
      answer'.trans answer⟩

structure Arrived (s u : DriveState σ) (got : Bytes) : Prop where
  came : incoming s.socket = got ++ incoming u.socket
  answer : firstAnswer s.socket = firstAnswer u.socket

theorem visits_arrived {sink : Option (BodySink σ)} {s t : DriveState σ} {read out got : Bytes}
    (sound : DriveSound s) (visits : Visits sink s t) (progress : Progress s t read out got) :
    Arrived s t got := by
  obtain ⟨same, trace, came, answer⟩ := visits_incoming sound visits
  rw [progress.received, List.append_cancel_left_eq] at trace
  exact ⟨trace ▸ came, answer⟩

theorem receives_socket {sink : Option (BodySink σ)} {s u : DriveState σ} (sound : DriveSound s)
    (receives : Receives sink s u) : u.socket = s.socket := by
  rcases receives with ⟨-, rfl⟩ | ⟨-, turned⟩
  · rfl
  · exact (turn_arrivals sound turned).1

theorem compacts_room {s t : DriveState σ} (sound : ReaderSound s.reader) (room : Compacts s t)
    (spare : ¬ (s.reader.endPos = readBufferBytes ∧ s.reader.beginPos = 0)) :
    t.reader.endPos < readBufferBytes := by
  have fits := sound.fits
  have positive : 0 < readBufferBytes := by decide
  rw [room.reader]
  by_cases full : s.reader.endPos = readBufferBytes
  · rw [if_pos full]
    simp only [ConnectionReader.endPos, ConnectionReader.compact, List.length_drop] at full spare ⊢
    omega
  · rw [if_neg full]
    simp only [ConnectionReader.endPos] at full ⊢
    omega

/-- How a drive returns that has come to receive: with a full buffer, without budget for
    more, or with what recv answered first. -/
inductive ReceiveExit (u : DriveState σ) : ReadResult → Prop where
  | full (full : u.reader.endPos = readBufferBytes) (front : u.reader.beginPos = 0) :
      ReceiveExit u .tooLarge
  | starved (spent : u.readBudget = 0)
      (spare : ¬ (u.reader.endPos = readBufferBytes ∧ u.reader.beginPos = 0)) : ReceiveExit u .incomplete
  | again (reads : u.readBudget ≠ 0) (nothing : incoming u.socket = [])
      (answer : firstAnswer u.socket = .again)
      (spare : ¬ (u.reader.endPos = readBufferBytes ∧ u.reader.beginPos = 0)) : ReceiveExit u .incomplete
  | eof (reads : u.readBudget ≠ 0) (nothing : incoming u.socket = [])
      (answer : firstAnswer u.socket = .zero)
      (spare : ¬ (u.reader.endPos = readBufferBytes ∧ u.reader.beginPos = 0)) :
      ReceiveExit u (mapInputResult (ckHttpInputEof u.reader.input))
  | error (reads : u.readBudget ≠ 0) (nothing : incoming u.socket = [])
      (answer : firstAnswer u.socket = .error)
      (spare : ¬ (u.reader.endPos = readBufferBytes ∧ u.reader.beginPos = 0)) : ReceiveExit u .ioError

theorem receive_exits {u t : DriveState σ} {result : ReadResult} (sound : DriveSound u) (waits : Waits u)
    (received : receiveStep u = (t, some result)) : ReceiveExit u result := by
  rcases receiveStep_cases u with ⟨v, answer, ends, room⟩ | ⟨v, goes, room⟩
  · rw [received] at ends
    simp only [Prod.mk.injEq, Option.some.injEq] at ends
    obtain ⟨rfl, rfl⟩ := ends
    cases room with
    | spent more empty =>
      refine absurd empty (waits.paid fun none => ?_)
      have width := congrArg List.length none
      simp only [unparsed, List.length_drop, List.length_nil] at width
      simp only [ConnectionReader.endPos] at more
      omega
    | full left full front => exact .full full front
    | starved _ room empty spare => exact .starved empty spare
  · rw [received] at goes
    cases room with
    | ready _ room reads left spare =>
      have space := compacts_room sound.reader room spare
      have budget : v.readBudget ≠ 0 := by rw [room.read]; exact reads
      simp only [receiveOne] at goes
      generalize window : (if readBufferBytes - v.reader.endPos < v.readBudget
        then readBufferBytes - v.reader.endPos else v.readBudget) = length at goes
      have positive : length ≠ 0 := by
        split at window <;> omega
      rw [room.socket] at goes
      split at goes
      · simp at goes
      · rename_i left taken
        obtain ⟨nothing, answer⟩ := recv_answer taken positive (by simp) (by simp)
        simp only [Prod.mk.injEq, Option.some.injEq] at goes
        rw [goes.2, room.input.1]
        exact .eof reads nothing answer spare
      · rename_i left taken
        obtain ⟨nothing, answer⟩ := recv_answer taken positive (by simp) (by simp)
        simp only [Prod.mk.injEq, Option.some.injEq] at goes
        rw [goes.2]
        exact .again reads nothing answer spare
      · simp at goes
      · rename_i left taken
        obtain ⟨nothing, answer⟩ := recv_answer taken positive (by simp) (by simp)
        simp only [Prod.mk.injEq, Option.some.injEq] at goes
        rw [goes.2]
        exact .error reads nothing answer spare

theorem ReceiveExit.visible_eq {u : DriveState σ} {result : ReadResult} (exits : ReceiveExit u result)
    (sound : DriveSound u) : visible u = slice u := by
  have dry : (incoming u.socket).take u.readBudget = [] → visible u = slice u := by
    intro nothing
    rw [slice_eq, visible, ahead, arrives, nothing, List.append_nil]
  cases exits with
  | full full front =>
    have bound := sound.processes
    have width : (unparsed u.reader).length = readBufferBytes := by
      rw [unparsed, front, List.drop_zero]
      exact full
    rw [slice_eq, visible, ahead, arrives, List.take_append_of_le_length]
    rw [width]
    exact Nat.le_trans bound (by decide)
  | starved spent spare => exact dry (by rw [spent, List.take_zero])
  | again reads nothing answer spare => exact dry (by rw [nothing, List.take_nil])
  | eof reads nothing answer spare => exact dry (by rw [nothing, List.take_nil])
  | error reads nothing answer spare => exact dry (by rw [nothing, List.take_nil])

theorem Reached.ahead_eq {s u : DriveState σ} {read out got : Bytes} (reached : Reached s u read out got)
    (arrived : Arrived s u got) : ahead s = read ++ ahead u := by
  have reads := reached.progress.readLeft
  rw [ahead, ahead, arrives, arrives, arrived.came, ← reads, List.take_length_add_append,
    ← List.append_assoc, reached.progress.stream, List.append_assoc]

theorem Reached.visible_eq {s u : DriveState σ} {read out got : Bytes} (reached : Reached s u read out got)
    (arrived : Arrived s u got) : visible s = read ++ visible u := by
  have paid := reached.progress.paid
  rw [visible, visible, reached.ahead_eq arrived, ← paid, List.take_length_add_append]

/-- A drive is never beyond the point where the machine stops on what it can see. -/
theorem Reached.before_stop {s u : DriveState σ} {read out got front rest out' : Bytes} {f : HttpInput}
    (reached : Reached s u read out got) (arrived : Arrived s u got) (cut : visible s = front ++ rest)
    (run : Steps inputMachine (settled s.reader.input) front out' f) (stopped : Stopped inputMachine f rest) :
    ∃ more extra, front = read ++ more ∧ out' = out ++ extra ∧ visible u = more ++ rest ∧
      Steps inputMachine (settled u.reader.input) more extra f := by
  obtain ⟨more, extra, rfl, rfl, left, onward⟩ := steps_before_stop reached.run run stopped
    ((reached.visible_eq arrived).symm.trans cut)
  exact ⟨more, extra, rfl, rfl, left, onward⟩

theorem Reached.exit_stop {s u : DriveState σ} {read out got front rest out' : Bytes} {f : HttpInput}
    {result : ReadResult} (reached : Reached s u read out got) (arrived : Arrived s u got)
    (exits : ReceiveExit u result) (waits : Waits u) (cut : visible s = front ++ rest)
    (run : Steps inputMachine (settled s.reader.input) front out' f) (stopped : Stopped inputMachine f rest) :
    front = read ∧ out' = out ∧ f = settled u.reader.input ∧ rest = slice u := by
  obtain ⟨more, extra, rfl, rfl, split, onward⟩ := reached.before_stop arrived cut run stopped
  have same := exits.visible_eq reached.sound
  have still : Stopped inputMachine (settled u.reader.input) (visible u) := by
    rw [same]
    exact stopped_of_wait waits.quiet
  obtain ⟨rfl, rfl, rfl⟩ := stopped_no_steps still onward (split ▸ List.prefix_append more rest)
  rw [List.nil_append] at split
  exact ⟨by simp, by simp, rfl, split.symm.trans same⟩

/-- A drive at s that has delivered a span held over, of n bytes, is at t, and what it returns
    is what a drive from there returns. -/
structure Resumed (sink : Option (BodySink σ)) (s t : DriveState σ) (z : HttpInput) (n : Nat) : Prop where
  sound : DriveSound t
  input : t.reader.input = z
  within : n ≤ (unparsed s.reader).length
  buffered : unparsed t.reader = (unparsed s.reader).drop n
  socket : t.socket = s.socket
  readLeft : t.readBudget = s.readBudget
  process : t.processBudget = s.processBudget - n
  returns : (z.messageComplete = true ∧ Returns sink s t .requestComplete) ∨
    (Ready z ∧ ∀ last result, Returns sink s last result ↔ Returns sink t last result)

theorem held_buffered {s : DriveState σ} {z : HttpInput} {n : Nat} (held : Held s.reader.input z n)
    (fits : n ≤ (slice s).length) : s.reader.beginPos < s.reader.endPos := by
  have some := held.some
  have room : (unparsed s.reader).length = s.reader.endPos - s.reader.beginPos := List.length_drop
  have within := (slice_within s).1.length_le
  omega

theorem accepted_resumes {sink : Option (BodySink σ)} {s t : DriveState σ} {z : HttpInput} {n : Nat}
    {data : Bytes} {turn : Turn} (sound : DriveSound s) (held : Held s.reader.input z n)
    (turned : processOne sink s = (t, turn)) (fits : n ≤ (slice s).length)
    (moved : Moved s t z ((slice s).take n) data) (goes : Goes t n turn) : Resumed sink s t z n := by
  have some := held.some
  have more := held_buffered held fits
  have width : ((slice s).take n).length = n := by
    rw [List.length_take]
    exact Nat.min_eq_left fits
  obtain ⟨begins, short, cut⟩ := moved_reader sound.reader moved (take_slice s n)
  have idle := (ack_settles held.ack).2
  have bound := sound.processes
  have ready : z.messageComplete = false → Ready z := fun live => held.next.resolve_left (by simp [live])
  refine ⟨⟨⟨begins, short, ?_⟩, ?_, ?_, ?_⟩, moved.input, ?_, ?_, moved.socket, moved.readLeft, ?_, ?_⟩
  · rw [moved.input]
    rcases held.next with done | ready
    · exact .done done idle held.header
    · exact .ready ready
  · rw [moved.readLeft]
    exact sound.reads
  · rw [moved.process]
    omega
  · rw [moved.input, idle]
    simp
  · exact Nat.le_trans fits (slice_within s).1.length_le
  · rw [cut, List.drop_append_of_le_length (by omega), List.drop_of_length_le (by omega),
      List.nil_append]
  · rw [moved.process, width]
  · cases goes with
    | complete done =>
      rw [moved.input] at done
      exact .inl ⟨done, s, .refl s, by simp [driveStep, more, turned]⟩
    | drained live reached =>
      rw [moved.input] at live
      refine .inr ⟨ready live, fun last result => ?_⟩
      have same : driveStep sink s = driveStep sink t := by
        simp [driveStep, more, turned, reached]
      exact ⟨.of_step same, .of_step same.symm⟩
    | vain live left none => omega
    | next live left some =>
      rw [moved.input] at live
      exact .inr ⟨ready live, fun last result =>
        returns_step_iff (by simp [driveStep, more, turned])⟩

/-- A receiving half reached from s: all a drive has done until then, and how it returns. -/
structure Exits (s u : DriveState σ) (read out got : Bytes) (result : ReadResult) : Prop where
  reached : Reached s u read out got
  arrived : Arrived s u got
  waits : Waits u
  exits : ReceiveExit u result

theorem receives_exit {sink : Option (BodySink σ)} {s last u t : DriveState σ} {read out got : Bytes}
    {result : ReadResult} (reached : Reached s last read out got) (arrived : Arrived s last got)
    (receives : Receives sink last u) (received : receiveStep u = (t, some result)) :
    ∃ more extra, Progress last u more extra [] ∧
      Exits s u (read ++ more) (out ++ extra) got result := by
  obtain ⟨more, extra, reached', waits⟩ := receives_reached reached.sound reached.ready receives
  have whole := reached.trans reached'
  have socket := receives_socket reached.sound receives
  rw [List.append_nil] at whole
  exact ⟨more, extra, reached'.progress, whole,
    ⟨by rw [socket]; exact arrived.came, by rw [socket]; exact arrived.answer⟩, waits,
    receive_exits whole.sound waits received⟩

end CkartaReaderExits
