import Ckarta.ConnectionReader
import Ckarta.InputStream

/-!
One drive as a run of small steps: a step feeds once, and where that leaves the inner
loop it makes room and receives once. Invariants of a drive are proved on one step.
-/
namespace CkartaReaderSteps
open MachineWord PrefixMachine CkartaHttpParser CkartaHttpInput CkartaInputMachine CkartaInputStream
  CkartaConnectionReader
variable {σ : Type}

def receiveStep (s : DriveState σ) : DriveState σ × Option ReadResult :=
  match makeRoom s with
  | (s, some result) => (s, some result)
  | (s, none) => receiveOne s

/-- Room was made in s: the unread bytes were moved to the front if the buffer was full. -/
structure Compacts (s t : DriveState σ) : Prop where
  reader : t.reader = if s.reader.endPos = readBufferBytes then s.reader.compact else s.reader
  socket : t.socket = s.socket
  context : t.context = s.context
  read : t.readBudget = s.readBudget
  process : t.processBudget = s.processBudget
  trace : t.trace = s.trace

theorem Compacts.input {s t : DriveState σ} (room : Compacts s t) :
    t.reader.input = s.reader.input ∧ t.reader.bodyQueue = s.reader.bodyQueue := by
  rw [room.reader]
  split <;> exact ⟨rfl, rfl⟩

inductive Room (s : DriveState σ) : DriveState σ × Option ReadResult → Prop where
  | spent (more : s.reader.beginPos < s.reader.endPos) (empty : s.processBudget = 0) :
      Room s (s, some .incomplete)
  | full (left : ¬ (s.reader.beginPos < s.reader.endPos ∧ s.processBudget = 0))
      (full : s.reader.endPos = readBufferBytes) (front : s.reader.beginPos = 0) :
      Room s (s, some .tooLarge)
  | starved (t : DriveState σ) (room : Compacts s t) (empty : s.readBudget = 0)
      (spare : ¬ (s.reader.endPos = readBufferBytes ∧ s.reader.beginPos = 0)) :
      Room s (t, some .incomplete)
  | ready (t : DriveState σ) (room : Compacts s t) (reads : s.readBudget ≠ 0)
      (left : ¬ (s.reader.beginPos < s.reader.endPos ∧ s.processBudget = 0))
      (spare : ¬ (s.reader.endPos = readBufferBytes ∧ s.reader.beginPos = 0)) : Room s (t, none)

theorem makeRoom_cases (s : DriveState σ) : Room s (makeRoom s) := by
  simp only [makeRoom]
  by_cases left : s.reader.beginPos < s.reader.endPos ∧ s.processBudget = 0
  · rw [if_pos left]
    exact .spent left.1 left.2
  · by_cases full : s.reader.endPos = readBufferBytes ∧ s.reader.beginPos = 0
    · rw [if_neg left, if_pos full]
      exact .full left full.1 full.2
    · rw [if_neg left, if_neg full]
      generalize moved : (if s.reader.endPos = readBufferBytes
        then { s with reader := s.reader.compact } else s) = t
      have room : Compacts s t := by
        rw [← moved]
        by_cases reached : s.reader.endPos = readBufferBytes
        · rw [if_pos reached]
          exact ⟨(if_pos reached).symm, rfl, rfl, rfl, rfl, rfl⟩
        · rw [if_neg reached]
          exact ⟨(if_neg reached).symm, rfl, rfl, rfl, rfl, rfl⟩
      by_cases empty : t.readBudget = 0
      · rw [if_pos empty]
        exact .starved t room (room.read.symm.trans empty) full
      · rw [if_neg empty]
        exact .ready t room (by rw [← room.read]; exact empty) left full

theorem receiveStep_cases (s : DriveState σ) :
    (∃ t result, receiveStep s = (t, some result) ∧ Room s (t, some result)) ∨
      ∃ t, receiveStep s = receiveOne t ∧ Room s (t, none) := by
  have room := makeRoom_cases s
  simp only [receiveStep]
  generalize makeRoom s = made at room
  obtain ⟨t, answer⟩ := made
  cases answer with
  | some result => exact .inl ⟨t, result, rfl, room⟩
  | none => exact .inr ⟨t, rfl, room⟩

def driveStep (sink : Option (BodySink σ)) (s : DriveState σ) : DriveState σ × Option ReadResult :=
  if s.reader.beginPos < s.reader.endPos then
    match processOne sink s with
    | (s, .next) => (s, none)
    | (s, .leave) => receiveStep s
    | (s, .stop result) => (s, some result)
  else receiveStep s

theorem driveStep_inv {sink : Option (BodySink σ)} {s t : DriveState σ} {answer : Option ReadResult}
    (h : driveStep sink s = (t, answer)) :
    (s.reader.beginPos < s.reader.endPos ∧ ((processOne sink s = (t, .next) ∧ answer = none) ∨
      ∃ result, processOne sink s = (t, .stop result) ∧ answer = some result)) ∨
    (s.reader.beginPos < s.reader.endPos ∧ ∃ u, processOne sink s = (u, .leave) ∧
      receiveStep u = (t, answer)) ∨
    (¬ s.reader.beginPos < s.reader.endPos ∧ receiveStep s = (t, answer)) := by
  by_cases more : s.reader.beginPos < s.reader.endPos
  · cases turned : processOne sink s with
    | mk u turn =>
      simp only [driveStep, more, ↓reduceIte, turned] at h
      cases turn with
      | next =>
        simp only [Prod.mk.injEq] at h
        obtain ⟨rfl, rfl⟩ := h
        exact .inl ⟨more, .inl ⟨rfl, rfl⟩⟩
      | leave => exact .inr (.inl ⟨more, u, rfl, h⟩)
      | stop result =>
        simp only [Prod.mk.injEq] at h
        obtain ⟨rfl, rfl⟩ := h
        exact .inl ⟨more, .inr ⟨result, rfl, rfl⟩⟩
  · simp only [driveStep, more, ↓reduceIte] at h
    exact .inr (.inr ⟨more, h⟩)

/-- Visits sink s t: a drive that is at s comes to t without returning in between. -/
inductive Visits (sink : Option (BodySink σ)) : DriveState σ → DriveState σ → Prop where
  | refl (s : DriveState σ) : Visits sink s s
  | step {s t u : DriveState σ} (first : driveStep sink s = (t, none)) (rest : Visits sink t u) :
      Visits sink s u

theorem Visits.trans {sink : Option (BodySink σ)} {s t u : DriveState σ} (first : Visits sink s t)
    (second : Visits sink t u) : Visits sink s u := by
  induction first with
  | refl => exact second
  | step step rest ih => exact .step step (ih second)

/-- A drive that is at s returns result and leaves t. -/
def Returns (sink : Option (BodySink σ)) (s t : DriveState σ) (result : ReadResult) : Prop :=
  ∃ last, Visits sink s last ∧ driveStep sink last = (t, some result)

theorem returns_unique {sink : Option (BodySink σ)} {s t u : DriveState σ} {left right : ReadResult}
    (first : Returns sink s t left) (second : Returns sink s u right) : t = u ∧ left = right := by
  obtain ⟨last, visits, stops⟩ := first
  induction visits with
  | refl s =>
    obtain ⟨last', visits', stops'⟩ := second
    cases visits' with
    | refl =>
      rw [stops, Prod.mk.injEq, Option.some.injEq] at stops'
      exact stops'
    | step step rest => simp [stops] at step
  | step step rest ih =>
    obtain ⟨last', visits', stops'⟩ := second
    cases visits' with
    | refl => simp [step] at stops'
    | step step' rest' =>
      rw [step, Prod.mk.injEq] at step'
      rw [← step'.1] at rest'
      exact ih ⟨last', rest', stops'⟩ stops

theorem Returns.of_step {sink : Option (BodySink σ)} {s t last : DriveState σ} {result : ReadResult}
    (same : driveStep sink s = driveStep sink t) (returns : Returns sink s last result) :
    Returns sink t last result := by
  obtain ⟨final, visits, stops⟩ := returns
  cases visits with
  | refl => exact ⟨t, .refl t, same ▸ stops⟩
  | step first rest => exact ⟨final, .step (same ▸ first) rest, stops⟩

theorem returns_step_iff {sink : Option (BodySink σ)} {s t last : DriveState σ} {result : ReadResult}
    (step : driveStep sink s = (t, none)) : Returns sink s last result ↔ Returns sink t last result := by
  constructor
  · rintro ⟨final, visits, stops⟩
    cases visits with
    | refl => simp [step] at stops
    | step first rest =>
      rw [step, Prod.mk.injEq] at first
      rw [← first.1] at rest
      exact ⟨final, rest, stops⟩
  · rintro ⟨final, visits, stops⟩
    exact ⟨final, .step step visits, stops⟩

structure Kept (s t : DriveState σ) : Prop where
  buffer : t.reader.buffer = s.reader.buffer
  advances : s.reader.beginPos ≤ t.reader.beginPos
  socket : t.socket = s.socket
  readLeft : t.readBudget = s.readBudget

theorem Kept.trans {s t u : DriveState σ} (first : Kept s t) (second : Kept t u) : Kept s u :=
  ⟨second.buffer.trans first.buffer, Nat.le_trans first.advances second.advances,
    second.socket.trans first.socket, second.readLeft.trans first.readLeft⟩

theorem offerSpan_kept {sink : Option (BodySink σ)} {s t : DriveState σ} {data : Bytes} {answer : Int}
    (h : offerSpan sink s data = some (answer, t)) : Kept s t := by
  simp only [offerSpan] at h
  split at h
  · simp only [Option.some.injEq, Prod.mk.injEq] at h
    rw [← h.2]
    exact ⟨rfl, Nat.le_refl _, rfl, rfl⟩
  · split at h
    · simp only [Option.some.injEq, Prod.mk.injEq] at h
      rw [← h.2]
      exact ⟨rfl, Nat.le_refl _, rfl, rfl⟩
    · simp at h

theorem settleTurn_kept (s : DriveState σ) (consumed : Nat) (result : InputResult) :
    Kept s (settleTurn s consumed result).1 ∧
      ((settleTurn s consumed result).2 = .next →
        s.reader.beginPos < (settleTurn s consumed result).1.reader.beginPos) := by
  simp only [settleTurn]
  repeat' split
  all_goals refine ⟨⟨rfl, Nat.le_add_right _ _, rfl, rfl⟩, ?_⟩
  all_goals simp only [reduceCtorEq, false_implies, forall_const, DriveState.emit]
  omega

def slice (s : DriveState σ) : Bytes :=
  (s.reader.buffer.drop s.reader.beginPos).take
    (if s.reader.available < s.processBudget then s.reader.available else s.processBudget)

theorem slice_length (s : DriveState σ) :
    (slice s).length =
      if s.reader.available < s.processBudget then s.reader.available else s.processBudget := by
  have whole : (s.reader.buffer.drop s.reader.beginPos).length = s.reader.available :=
    List.length_drop
  rw [slice, List.length_take, whole]
  by_cases less : s.reader.available < s.processBudget
  · rw [if_pos less]
    omega
  · rw [if_neg less]
    omega

def afterFeed (sink : Option (BodySink σ)) (s : DriveState σ) (fed : InputFeed) : DriveState σ × Turn :=
  let t := (s.setInput fed.input).emit (.fed (slice s).length fed.result)
  if fed.consumed > (slice s).length then (t, .stop .ioError)
  else if fed.bodyLength ≠ 0 then acceptSpan sink t (slice s).length fed
  else settleTurn t fed.consumed fed.result

theorem processOne_eq (sink : Option (BodySink σ)) (s : DriveState σ) :
    processOne sink s = if s.processBudget = 0 then (s, .stop .incomplete)
      else afterFeed sink s (ckHttpInputFeed s.reader.input s.reader.beginPos (slice s)) := by
  simp only [afterFeed, slice_length]
  rfl

theorem processOne_paid {sink : Option (BodySink σ)} {s t : DriveState σ} {turn : Turn}
    (turned : processOne sink s = (t, turn)) (goes : turn ≠ .stop .incomplete) : s.processBudget ≠ 0 := by
  intro spent
  rw [processOne_eq, if_pos spent, Prod.mk.injEq] at turned
  exact goes turned.2.symm

theorem processOne_kept (sink : Option (BodySink σ)) (s : DriveState σ) :
    Kept s (processOne sink s).1 ∧ ((processOne sink s).2 = .next →
      s.reader.beginPos < (processOne sink s).1.reader.beginPos) := by
  rw [processOne_eq]
  split
  · exact ⟨⟨rfl, Nat.le_refl _, rfl, rfl⟩, by simp⟩
  · generalize ckHttpInputFeed s.reader.input s.reader.beginPos (slice s) = fed
    simp only [afterFeed]
    have fed_ : Kept s ((s.setInput fed.input).emit (.fed (slice s).length fed.result)) :=
      ⟨rfl, Nat.le_refl _, rfl, rfl⟩
    split
    · exact ⟨fed_, by simp⟩
    · split
      · simp only [acceptSpan]
        split
        · exact ⟨fed_, by simp⟩
        · rename_i answer t offered
          have held := fed_.trans (offerSpan_kept offered)
          split
          · exact ⟨held, by simp⟩
          · split
            · exact ⟨held, by simp⟩
            · split
              · exact ⟨held, by simp⟩
              · rename_i input taken acked
                have acked_ : Kept s (t.setInput input) :=
                  held.trans ⟨rfl, Nat.le_refl _, rfl, rfl⟩
                split
                · exact ⟨acked_, by simp⟩
                · have settled_ := settleTurn_kept (t.setInput input) (fed.consumed + taken) fed.result
                  exact ⟨acked_.trans settled_.1, fun next =>
                    Nat.lt_of_le_of_lt acked_.advances (settled_.2 next)⟩
      · have settled_ := settleTurn_kept
          ((s.setInput fed.input).emit (.fed (slice s).length fed.result)) fed.consumed fed.result
        exact ⟨fed_.trans settled_.1, settled_.2⟩

/-- The inner loop is a run of steps, and the buffered bytes are fuel enough for it. -/
theorem processLoop_visits (sink : Option (BodySink σ)) {s : DriveState σ} {fuel : Nat}
    (enough : s.reader.available ≤ fuel) :
    ∃ last, Visits sink s last ∧
      match processLoop sink fuel s with
      | (t, some result) => driveStep sink last = (t, some result)
      | (t, none) => driveStep sink last = receiveStep t := by
  induction fuel generalizing s with
  | zero =>
    refine ⟨s, .refl s, ?_⟩
    simp only [ConnectionReader.available] at enough
    have empty : ¬ s.reader.beginPos < s.reader.endPos := by omega
    simp [processLoop, driveStep, empty]
  | succ fuel ih =>
    simp only [processLoop]
    by_cases more : s.reader.beginPos < s.reader.endPos
    · simp only [more, ↓reduceIte]
      cases turn : processOne sink s with
      | mk t kind =>
        cases kind with
        | next =>
          have kept := processOne_kept sink s
          rw [turn] at kept
          have less : t.reader.available ≤ fuel := by
            have moved : s.reader.beginPos < t.reader.beginPos := kept.2 rfl
            have same : t.reader.buffer = s.reader.buffer := kept.1.buffer
            simp only [ConnectionReader.available, ConnectionReader.endPos] at enough more ⊢
            rw [same]
            omega
          obtain ⟨last, visits, stops⟩ := ih less
          exact ⟨last, .step (by simp [driveStep, more, turn]) visits, stops⟩
        | leave => exact ⟨s, .refl s, by simp [driveStep, more, turn]⟩
        | stop result => exact ⟨s, .refl s, by simp [driveStep, more, turn]⟩
    · simp only [more, ↓reduceIte]
      exact ⟨s, .refl s, by simp [driveStep, more]⟩

inductive Recv (length : Nat) : Socket → RecvOutcome × Socket → Prop where
  | dry : Recv length [] (.again, [])
  | data {first : UInt8} {rest : Bytes} {events : Socket} (some : length ≠ 0) :
      Recv length (.data first rest :: events) (.data ((first :: rest).take length),
        match (first :: rest).drop length with
        | [] => events
        | b :: left => .data b left :: events)
  | none {first : UInt8} {rest : Bytes} {events : Socket} (empty : length = 0) :
      Recv length (.data first rest :: events) (.zero, .data first rest :: events)
  | again {events : Socket} : Recv length (.again :: events) (.again, events)
  | intr {events : Socket} : Recv length (.intr :: events) (.intr, events)
  | eof {events : Socket} : Recv length (.eof :: events) (.zero, .eof :: events)
  | error {events : Socket} : Recv length (.error :: events) (.error, events)

theorem recv_does (socket : Socket) (length : Nat) : Recv length socket (recv socket length) := by
  cases socket with
  | nil => exact .dry
  | cons event events =>
    cases event with
    | data first rest =>
      unfold recv
      dsimp only
      split
      · rename_i empty
        exact .none empty
      · rename_i some
        exact .data some
    | again => exact .again
    | intr => exact .intr
    | eof => exact .eof
    | error => exact .error

theorem recv_weight {socket left : Socket} {length : Nat} {bytes : Bytes}
    (h : recv socket length = (.data bytes, left)) : socketWeight left < socketWeight socket := by
  have does := recv_does socket length
  rw [h] at does
  cases does with
  | @data first rest events some =>
    have shorter : ((first :: rest).drop length).length < rest.length + 1 := by
      simp only [List.length_drop, List.length_cons]
      omega
    generalize (first :: rest).drop length = tail at shorter
    cases tail with
    | nil =>
      simp only [socketWeight]
      omega
    | cons b left =>
      simp only [List.length_cons] at shorter
      simp only [socketWeight]
      omega

theorem recv_intr {socket left : Socket} {length : Nat} (h : recv socket length = (.intr, left)) :
    socketWeight left < socketWeight socket := by
  have does := recv_does socket length
  rw [h] at does
  cases does with
  | intr =>
    simp only [socketWeight]
    omega

theorem receiveOne_weight {s t : DriveState σ} (h : receiveOne s = (t, none)) :
    socketWeight t.socket < socketWeight s.socket := by
  simp only [receiveOne] at h
  split at h
  · rename_i bytes left received
    simp only [Prod.mk.injEq, and_true] at h
    rw [← h]
    exact recv_weight received
  · simp at h
  · simp at h
  · rename_i left received
    simp only [Prod.mk.injEq, and_true] at h
    rw [← h]
    exact recv_intr received
  · simp at h

theorem makeRoom_socket {s t : DriveState σ} {result : Option ReadResult}
    (h : makeRoom s = (t, result)) : t.socket = s.socket := by
  have room := makeRoom_cases s
  rw [h] at room
  cases room with
  | spent more empty => rfl
  | full left full front => rfl
  | starved t room empty spare => exact room.socket
  | ready t room reads left spare => exact room.socket

theorem processLoop_socket (sink : Option (BodySink σ)) (fuel : Nat) (s : DriveState σ) :
    (processLoop sink fuel s).1.socket = s.socket := by
  induction fuel generalizing s with
  | zero => rfl
  | succ fuel ih =>
    have kept := (processOne_kept sink s).1.socket
    simp only [processLoop]
    split
    · split
      · rename_i turn
        rw [turn] at kept
        exact (ih _).trans kept
      · rename_i turn
        rw [turn] at kept
        exact kept
      · rename_i turn
        rw [turn] at kept
        exact kept
    · rfl

theorem driveRound_returns (sink : Option (BodySink σ)) (s : DriveState σ) :
    match driveRound sink s with
    | (t, some result) => Returns sink s t result
    | (t, none) => Visits sink s t ∧ socketWeight t.socket < socketWeight s.socket := by
  obtain ⟨last, visits, stops⟩ := processLoop_visits sink (Nat.le_refl s.reader.available)
  have untouched := processLoop_socket sink s.reader.available s
  simp only [driveRound]
  generalize processLoop sink s.reader.available s = looped at stops untouched
  rcases looped with ⟨t, _ | result⟩
  · simp only [receiveStep] at stops
    simp only
    cases room : makeRoom t with
    | mk u answer =>
      rw [room] at stops
      cases answer with
      | some result => exact ⟨last, visits, stops⟩
      | none =>
        simp only at stops ⊢
        cases received : receiveOne u with
        | mk v answer =>
          rw [received] at stops
          cases answer with
          | some result => exact ⟨last, visits, stops⟩
          | none =>
            refine ⟨visits.trans (.step stops (.refl v)), ?_⟩
            have less := receiveOne_weight received
            rw [makeRoom_socket room, untouched] at less
            exact less
  · exact ⟨last, visits, stops⟩

theorem driveLoop_returns {sink : Option (BodySink σ)} {s : DriveState σ} {fuel : Nat}
    (enough : socketWeight s.socket < fuel) :
    Returns sink s (driveLoop sink fuel s).1 (driveLoop sink fuel s).2 := by
  induction fuel generalizing s with
  | zero => omega
  | succ fuel ih =>
    have round := driveRound_returns sink s
    simp only [driveLoop]
    generalize driveRound sink s = answer at round
    rcases answer with ⟨t, _ | result⟩
    · obtain ⟨visits, less⟩ := round
      obtain ⟨last, more, stops⟩ := ih (s := t) (by omega)
      exact ⟨last, visits.trans more, stops⟩
    · exact round

/-- Every drive returns: it is a run of steps from its start. -/
theorem drive_returns (reader : ConnectionReader) (socket : Socket) (sink : Option (BodySink σ))
    (context : σ) :
    Returns sink (startDrive reader socket context)
      (ckHttpConnectionReaderDrive reader socket sink context).1
      (ckHttpConnectionReaderDrive reader socket sink context).2 :=
  driveLoop_returns (Nat.lt_succ_self _)

theorem visits_step {sink : Option (BodySink σ)} {s : DriveState σ}
    (goes : (driveStep sink s).2 = none) : Visits sink s (driveStep sink s).1 :=
  .step (Prod.ext rfl goes) (.refl _)

theorem drive_stop {reader : ConnectionReader} {socket : Socket} {sink : Option (BodySink σ)}
    {context : σ} {s t : DriveState σ} {result : ReadResult}
    (visits : Visits sink (startDrive reader socket context) s)
    (more : s.reader.beginPos < s.reader.endPos) (turn : processOne sink s = (t, .stop result)) :
    ckHttpConnectionReaderDrive reader socket sink context = (t, result) := by
  have stops : driveStep sink s = (t, some result) := by
    simp only [driveStep, more, ↓reduceIte, turn]
  obtain ⟨state, answer⟩ := returns_unique (drive_returns reader socket sink context)
    ⟨s, visits, stops⟩
  exact Prod.ext state answer

end CkartaReaderSteps
