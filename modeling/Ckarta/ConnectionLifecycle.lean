import Ckarta.RegistryPins

/-!
How a connection ends. The life of one registered connection is the list of what was done
to it: a descriptor attached, an async cycle started, the end claimed with its event, and
the close. Life.next says which lives there can be; each connection of every run has one
of them, and the lifecycle word of the connection is the word of its life so far.
-/
namespace CkartaConnectionLifecycle
open MachineWord StepHistory CkartaConnection CkartaConnectionRegistry CkartaRegistryCalls
open CkartaConnectionSystem CkartaRegistryPins

inductive Phase where
  | opened
  | waiting (cycleId : Nat)
  | closing (event : Int) (cycleId : Nat)
  | closed (event : Int) (cycleId : Nat)
  deriving DecidableEq, Repr

def Phase.word : Phase → Nat
  | .opened => ckConnectionPack .opened (-1) 0
  | .waiting cycleId => ckConnectionPack .asyncWait (-1) cycleId
  | .closing event cycleId => ckConnectionPack .closing event cycleId
  | .closed event cycleId => ckConnectionPack .closed event cycleId

def Phase.state : Phase → ConnectionState
  | .opened => .opened
  | .waiting _ => .asyncWait
  | .closing _ _ => .closing
  | .closed _ _ => .closed

def Phase.claim : Phase → Option Int
  | .opened | .waiting _ => none
  | .closing event _ | .closed event _ => some event

def Phase.cycle : Phase → Nat
  | .opened => 0
  | .waiting cycleId | .closing _ cycleId | .closed _ cycleId => cycleId

inductive Mark where
  | attached (socketFd : Int)
  | started (cycleId : Nat)
  | claimed (event : Int)
  | ended (socketFd : Option Int)
  deriving DecidableEq, Repr

def markAt (move : Move) (answer : Answer) : Option Mark :=
  match move with
  | .call (.attachSocket _ socketFd) => if answer.result = some 0 then some (.attached socketFd) else none
  | .call (.startAsyncCycle _ cycleId) => if answer.result = some 0 then some (.started cycleId) else none
  | .call (.tryTerminal _ _ event) =>
    if answer.result = some terminalClaimed then some (.claimed event) else none
  | .exchange running _ =>
    if answer.result = some terminalClaimed then some (.claimed running.event) else none
  | .call (.close _ _) =>
    if answer.closed.isSome ∨ answer.result = some 0 then some (.ended answer.closed) else none
  | _ => none

def markOf (entry : Move × Answer) : Option (Instance × Mark) :=
  entry.2.acted.bind fun connection => (markAt entry.1 entry.2).map fun mark => (connection, mark)

structure Life where
  phase : Phase
  socket : Option Int
  deriving DecidableEq, Repr

def Life.born : Life := ⟨.opened, none⟩

def Life.next (life : Life) : Mark → Option Life
  | .attached socketFd =>
    if life.phase = .opened ∧ life.socket = none ∧ 0 ≤ socketFd then some ⟨.opened, some socketFd⟩ else none
  | .started cycleId =>
    if life.phase = .opened ∧ validCycleId cycleId then some ⟨.waiting cycleId, life.socket⟩ else none
  | .claimed event =>
    if life.phase.claim = none ∧ validEvent event then some ⟨.closing event life.phase.cycle, life.socket⟩
    else none
  | .ended socketFd =>
    match life.phase with
    | .closing event cycleId => if socketFd = life.socket then some ⟨.closed event cycleId, none⟩ else none
    | _ => none

def replay (marks : List Mark) : Option Life := marks.foldlM Life.next Life.born

theorem replay_snoc (marks : List Mark) (mark : Mark) :
    replay (marks ++ [mark]) = (replay marks).bind (·.next mark) := by
  simp [replay, List.foldlM_append]

inductive LifeStep : Life → Mark → Life → Prop where
  | attached {socketFd : Int} (usable : 0 ≤ socketFd) :
      LifeStep ⟨.opened, none⟩ (.attached socketFd) ⟨.opened, some socketFd⟩
  | started {cycleId : Nat} {socket : Option Int} (fits : validCycleId cycleId = true) :
      LifeStep ⟨.opened, socket⟩ (.started cycleId) ⟨.waiting cycleId, socket⟩
  | claimed {event : Int} {phase : Phase} {socket : Option Int} (unclaimed : phase.claim = none)
      (named : validEvent event = true) :
      LifeStep ⟨phase, socket⟩ (.claimed event) ⟨.closing event phase.cycle, socket⟩
  | ended {event : Int} {cycleId : Nat} {socket : Option Int} :
      LifeStep ⟨.closing event cycleId, socket⟩ (.ended socket) ⟨.closed event cycleId, none⟩

theorem Life.next_step {life after : Life} {mark : Mark} (goes : life.next mark = some after) :
    LifeStep life mark after := by
  obtain ⟨phase, socket⟩ := life
  cases mark with
  | attached socketFd =>
    simp only [Life.next, Option.ite_none_right_eq_some, Option.some.injEq] at goes
    obtain ⟨⟨rfl, rfl, usable⟩, rfl⟩ := goes
    exact .attached usable
  | started cycleId =>
    simp only [Life.next, Option.ite_none_right_eq_some, Option.some.injEq] at goes
    obtain ⟨⟨rfl, fits⟩, rfl⟩ := goes
    exact .started fits
  | claimed event =>
    simp only [Life.next, Option.ite_none_right_eq_some, Option.some.injEq] at goes
    obtain ⟨⟨unclaimed, named⟩, rfl⟩ := goes
    exact .claimed unclaimed named
  | ended socketFd =>
    cases phase with
    | opened => cases goes
    | waiting cycleId => cases goes
    | closed event cycleId => cases goes
    | closing event cycleId =>
      simp only [Life.next, Option.ite_none_right_eq_some, Option.some.injEq] at goes
      obtain ⟨rfl, rfl⟩ := goes
      exact .ended

theorem validCycleId_iff {cycleId : Nat} :
    validCycleId cycleId = true ↔ cycleId ≠ 0 ∧ cycleId < 281474976710656 := by
  have mask : cycleMask = 281474976710655 := rfl
  simp only [validCycleId, Bool.and_eq_true, bne_iff_ne, ne_eq, decide_eq_true_eq]
  omega

structure Life.Valid (life : Life) : Prop where
  cycle : life.phase.cycle < 281474976710656
  event : ∀ event, life.phase.claim = some event → validEvent event = true
  socket : ∀ socketFd, life.socket = some socketFd → 0 ≤ socketFd

theorem Life.Valid.next {life after : Life} {mark : Mark} (valid : life.Valid)
    (goes : life.next mark = some after) : after.Valid := by
  cases Life.next_step goes with
  | attached usable =>
    refine ⟨Nat.zero_lt_succ _, (fun _ absent => by cases absent), ?_⟩
    intro fd same
    obtain rfl := Option.some.inj same
    exact usable
  | started fits =>
    exact ⟨(validCycleId_iff.mp fits).2, (fun _ absent => by cases absent), valid.socket⟩
  | claimed unclaimed named =>
    refine ⟨valid.cycle, ?_, valid.socket⟩
    intro recorded same
    obtain rfl := Option.some.inj same
    exact named
  | ended => exact ⟨valid.cycle, valid.event, (fun _ absent => by cases absent)⟩

theorem valid_born : Life.born.Valid :=
  ⟨Nat.zero_lt_succ _, (fun _ absent => by cases absent), (fun _ absent => by cases absent)⟩

structure Fits (connection : OwnedConnection) (life : Life) : Prop where
  word : connection.lifecycle = life.phase.word
  socket : connection.socketFd = life.socket.getD (-1)

theorem word_state (phase : Phase) : unpackState phase.word = phase.state.code := by
  cases phase <;> exact unpackState_pack _ _ _

theorem word_cycle {phase : Phase} (small : phase.cycle < 281474976710656) :
    unpackCycle phase.word = phase.cycle := by
  cases phase <;> simp only [Phase.word, unpackCycle_pack, Phase.cycle] at small ⊢ <;>
    exact Nat.mod_eq_of_lt small

theorem word_event {phase : Phase} {event : Int} (claimed : phase.claim = some event)
    (valid : validEvent event = true) : unpackEvent phase.word = event := by
  cases phase with
  | opened => cases claimed
  | waiting cycleId => cases claimed
  | closing recorded cycleId =>
    obtain rfl := Option.some.inj claimed
    exact unpackEvent_pack valid
  | closed recorded cycleId =>
    obtain rfl := Option.some.inj claimed
    exact unpackEvent_pack valid

theorem Phase.unclaimed {phase : Phase} (unclaimed : phase.claim = none) :
    phase.state = .opened ∨ phase.state = .asyncWait := by
  cases phase with
  | opened => exact .inl rfl
  | waiting cycleId => exact .inr rfl
  | closing event cycleId => cases unclaimed
  | closed event cycleId => cases unclaimed

theorem Phase.claimed {phase : Phase} {event : Int} (claimed : phase.claim = some event) :
    phase.state = .closing ∨ phase.state = .closed := by
  cases phase with
  | opened => cases claimed
  | waiting cycleId => cases claimed
  | closing event cycleId => exact .inl rfl
  | closed event cycleId => exact .inr rfl

theorem Phase.of_opened {phase : Phase} (state : phase.state.code = ConnectionState.opened.code) :
    phase = .opened := by
  cases phase with
  | opened => rfl
  | waiting cycleId => cases state
  | closing event cycleId => cases state
  | closed event cycleId => cases state

section
variable {connection : OwnedConnection} {life : Life}

theorem attach_fits (fits : Fits connection life) (valid : life.Valid) {socketFd : Int}
    (positive : ¬ socketFd < 0) :
    ((ckConnectionAttachSocket connection socketFd).1 = 0 → ∃ after,
        life.next (.attached socketFd) = some after ∧
          Fits (ckConnectionAttachSocket connection socketFd).2 after) ∧
      ((ckConnectionAttachSocket connection socketFd).1 ≠ 0 →
        Fits (ckConnectionAttachSocket connection socketFd).2 life) := by
  unfold ckConnectionAttachSocket
  rw [if_neg positive, fits.word, word_state]
  by_cases opened : life.phase.state.code ≠ ConnectionState.opened.code
  · rw [if_pos opened]
    exact ⟨(fun zero => by cases zero), fun _ => fits⟩
  · have phase := Phase.of_opened (not_not.mp opened)
    rw [if_neg opened]
    by_cases attached : connection.socketFd ≥ 0
    · rw [if_pos attached]
      exact ⟨(fun zero => by cases zero), fun _ => fits⟩
    · have unattached : life.socket = none := by
        cases attachedTo : life.socket with
        | none => rfl
        | some fd =>
          have given := valid.socket fd attachedTo
          rw [fits.socket, attachedTo] at attached
          exact absurd given attached
      rw [if_neg attached]
      by_cases broken : connection.httpWriter = none ∨ connection.writerFd ≥ 0
      · rw [if_pos broken]
        refine ⟨(fun zero => by cases zero), fun _ => ⟨fits.word, ?_⟩⟩
        rw [unattached]
        rfl
      · rw [if_neg broken]
        refine ⟨fun _ => ⟨⟨.opened, some socketFd⟩, ?_, ?_⟩, fun wrong => absurd rfl wrong⟩
        · simp only [Life.next]
          rw [if_pos ⟨phase, unattached, not_lt.mp positive⟩]
        · refine ⟨?_, rfl⟩
          rw [← phase]
          exact fits.word

theorem start_fits (fits : Fits connection life) (cycleId : Nat) :
    ((ckConnectionStartAsyncCycle connection.toConnection cycleId).1 = 0 → ∃ after,
        life.next (.started cycleId) = some after ∧ Fits { connection with
          toConnection := (ckConnectionStartAsyncCycle connection.toConnection cycleId).2 } after) ∧
      ((ckConnectionStartAsyncCycle connection.toConnection cycleId).1 ≠ 0 → Fits { connection with
        toConnection := (ckConnectionStartAsyncCycle connection.toConnection cycleId).2 } life) := by
  unfold ckConnectionStartAsyncCycle
  by_cases invalid : (!validCycleId cycleId) = true
  · rw [if_pos invalid]
    exact ⟨(fun zero => by cases zero), fun _ => fits⟩
  · rw [if_neg invalid]
    by_cases opened : connection.lifecycle = ckConnectionPack .opened (-1) 0
    · rw [if_pos opened]
      refine ⟨fun _ => ⟨⟨.waiting cycleId, life.socket⟩, ?_, ⟨rfl, fits.socket⟩⟩, fun wrong => absurd rfl wrong⟩
      have phase : life.phase = .opened := by
        apply Phase.of_opened
        rw [← word_state, ← fits.word, opened]
        exact unpackState_pack _ _ _
      simp only [Life.next]
      rw [if_pos ⟨phase, by simpa using invalid⟩]
    · rw [if_neg opened]
      exact ⟨(fun zero => by cases zero), fun _ => fits⟩

theorem terminal_fits (fits : Fits connection life) (valid : life.Valid) {event : Int}
    (known : validEvent event = true) :
    (life.phase.claim = none ∧
      (ckConnectionTryTerminal connection.toConnection event).1 = terminalClaimed ∧
      ∃ after, life.next (.claimed event) = some after ∧ Fits { connection with
        toConnection := (ckConnectionTryTerminal connection.toConnection event).2 } after) ∨
    ∃ recorded, life.phase.claim = some recorded ∧
      (ckConnectionTryTerminal connection.toConnection event) =
        (if recorded = event then terminalAlreadySame else terminalAlreadyDifferent,
          connection.toConnection) := by
  unfold ckConnectionTryTerminal
  dsimp only
  rw [if_neg (by simp [known])]
  cases claim : life.phase.claim with
  | none =>
    refine .inl ⟨rfl, ?_⟩
    have open_ := Phase.unclaimed claim
    have notEnded : ¬ (unpackState connection.lifecycle = ConnectionState.closing.code ∨
        unpackState connection.lifecycle = ConnectionState.closed.code) := by
      rw [fits.word, word_state]
      rcases open_ with state | state <;> rw [state] <;> decide
    have notOther : ¬ (unpackState connection.lifecycle ≠ ConnectionState.opened.code ∧
        unpackState connection.lifecycle ≠ ConnectionState.asyncWait.code) := by
      rw [fits.word, word_state]
      rcases open_ with state | state <;> rw [state] <;> decide
    rw [if_neg notEnded, if_neg notOther]
    refine ⟨rfl, ⟨.closing event life.phase.cycle, life.socket⟩, ?_, ?_, fits.socket⟩
    · simp only [Life.next]
      rw [if_pos ⟨claim, known⟩]
    · dsimp only
      rw [fits.word, word_cycle valid.cycle]
      rfl
  | some recorded =>
    refine .inr ⟨recorded, rfl, ?_⟩
    have ended : unpackState connection.lifecycle = ConnectionState.closing.code ∨
        unpackState connection.lifecycle = ConnectionState.closed.code := by
      rw [fits.word, word_state]
      rcases Phase.claimed claim with state | state <;> rw [state] <;> decide
    have same : unpackEvent connection.lifecycle = recorded := by
      rw [fits.word]
      exact word_event claim (valid.event recorded claim)
    rw [if_pos ended, same]
    split <;> rfl

theorem close_fits (fits : Fits connection life) (valid : life.Valid) (closeAnswer : Int) :
    ((ckConnectionClose connection closeAnswer).1 = 1 ∧
      (ckConnectionClose connection closeAnswer).2 = (connection, none)) ∨
    (((ckConnectionClose connection closeAnswer).2.2.isSome ∨
        (ckConnectionClose connection closeAnswer).1 = 0) ∧ ∃ after,
      life.next (.ended (ckConnectionClose connection closeAnswer).2.2) = some after ∧
        Fits (ckConnectionClose connection closeAnswer).2.1 after) := by
  unfold ckConnectionClose
  by_cases closed : unpackState connection.lifecycle = ConnectionState.closed.code
  · rw [if_pos closed]
    exact .inl ⟨rfl, rfl⟩
  · rw [if_neg closed]
    by_cases early : unpackState connection.lifecycle ≠ ConnectionState.closing.code ∨
        unpackEvent connection.lifecycle < 0
    · rw [if_pos early]
      exact .inl ⟨rfl, rfl⟩
    · rw [if_neg early]
      right
      rw [not_or, not_not] at early
      obtain ⟨phase, socket⟩ := life
      obtain ⟨word, fd⟩ := fits
      dsimp only at word fd
      have state := early.1
      rw [word, word_state] at state
      cases phase with
      | opened => cases state
      | waiting cycleId => cases state
      | closed event cycleId => cases state
      | closing event cycleId =>
        have recorded : unpackEvent connection.lifecycle = event := by
          rw [word]
          exact word_event rfl (valid.event event rfl)
        have cycle : unpackCycle connection.lifecycle = cycleId := by
          rw [word]
          exact word_cycle valid.cycle
        rw [recorded, cycle]
        cases socket with
        | none =>
          have unattached : ¬ connection.socketFd ≥ 0 := by
            rw [fd]
            decide
          rw [if_neg unattached]
          refine ⟨.inr rfl, ⟨.closed event cycleId, none⟩, ?_, rfl, rfl⟩
          simp [Life.next]
        | some attached =>
          have given : connection.socketFd = attached := fd
          have positive : connection.socketFd ≥ 0 := by
            rw [given]
            exact valid.socket attached rfl
          dsimp only
          rw [if_pos positive]
          split
          · refine ⟨.inl rfl, ⟨.closed event cycleId, none⟩, ?_, rfl, rfl⟩
            simp [Life.next, given]
          · refine ⟨.inl rfl, ⟨.closed event cycleId, none⟩, ?_, rfl, rfl⟩
            simp [Life.next, given]

end

/-- The connection is where its life is after this mark, if there is one. -/
def Continues (connection : OwnedConnection) (life : Life) : Option Mark → Prop
  | none => Fits connection life
  | some mark => ∃ after, life.next mark = some after ∧ Fits connection after

theorem action_continues {op : Op} (fine : ¬ malformed op) (index : Nat) {entry : Entry} {life : Life}
    (fits : Fits entry.connection life) (valid : life.Valid) (acted : Option Instance) :
    Continues (action op index entry).2.connection life (markAt (.call op)
      ⟨some (action op index entry).1.result, acted, (action op index entry).1.closed⟩) := by
  cases op with
  | register connectionId requestId ownerToken lifetimeToken allocation => exact fits
  | retire caller =>
    simp only [action, markAt]
    split <;> exact fits
  | release kind pin =>
    simp only [action, markAt]
    split
    · exact fits
    · simpa [Continues] using fits
  | acquire kind caller pin =>
    simp only [action, markAt]
    split
    · exact fits
    · simpa [Continues] using fits
  | attachSocket caller socketFd =>
    obtain ⟨wins, loses⟩ := attach_fits fits valid fine
    simp only [action, answer, markAt, Option.some.injEq]
    split
    · rename_i zero
      exact wins zero
    · rename_i other
      exact loses other
  | startAsyncCycle caller cycleId =>
    obtain ⟨wins, loses⟩ := start_fits fits cycleId
    simp only [action, answer, markAt, Option.some.injEq]
    split
    · rename_i zero
      exact wins zero
    · rename_i other
      exact loses other
  | tryTerminal caller cycleId event =>
    simp only [action, answer, markAt, Option.some.injEq]
    by_cases known : validEvent event = true
    · rcases terminal_fits fits valid known with ⟨-, claims, after⟩ | ⟨recorded, -, told⟩
      · rw [if_pos claims]
        exact after
      · rw [told]
        have late : ¬ (if recorded = event then terminalAlreadySame else terminalAlreadyDifferent) =
            terminalClaimed := by
          split <;> decide
        rw [if_neg late]
        exact fits
    · have refused : ckConnectionTryTerminal entry.connection.toConnection event =
          (-1, entry.connection.toConnection) := if_pos (by simpa using known)
      rw [refused]
      exact fits
  | close caller closeAnswer =>
    by_cases held : entry.readerUsers ≠ 0 ∨ entry.outputUsers ≠ 0
    · have refused : action (.close caller closeAnswer) index entry = (answer 2, entry) := if_pos held
      rw [refused]
      exact fits
    · have closes : action (.close caller closeAnswer) index entry =
          (⟨(ckConnectionClose entry.connection closeAnswer).1, none, .zero,
              (ckConnectionClose entry.connection closeAnswer).2.2⟩,
            { entry with connection := (ckConnectionClose entry.connection closeAnswer).2.1 }) := if_neg held
      rw [closes]
      simp only [markAt, Option.some.injEq]
      rcases close_fits fits valid closeAnswer with ⟨result, same⟩ | ⟨moved, after⟩
      · rw [result, same]
        exact fits
      · rw [if_pos moved]
        exact after

theorem markAt_refused {op : Op} {result : Int} (refused : result ≠ 0) (acted : Option Instance) :
    markAt (.call op) ⟨some result, acted, none⟩ = none := by
  cases op <;> simp [markAt, refused, terminalClaimed]

theorem init_fits (old : OwnedConnection) (connectionId requestId ownerToken lifetimeToken : Nat)
    (allocation : Allocation) :
    ((ckConnectionInitOwned old connectionId requestId ownerToken lifetimeToken allocation).1 = false ∧
      ∀ life, Fits old life →
        Fits (ckConnectionInitOwned old connectionId requestId ownerToken lifetimeToken allocation).2 life) ∨
    ((ckConnectionInitOwned old connectionId requestId ownerToken lifetimeToken allocation).1 = true ∧
      Fits (ckConnectionInitOwned old connectionId requestId ownerToken lifetimeToken allocation).2
        Life.born) := by
  obtain ⟨reader, writer, body, response⟩ := allocation
  unfold ckConnectionInitOwned ckConnectionInit
  by_cases ids : connectionId = 0 ∨ requestId = 0
  · rw [if_pos ids]
    exact .inl ⟨rfl, fun _ fits => fits⟩
  · rw [if_neg ids]
    cases reader with
    | none => exact .inl ⟨rfl, fun _ fits => ⟨fits.word, fits.socket⟩⟩
    | some reader =>
      cases writer with
      | none => exact .inl ⟨rfl, fun _ fits => ⟨fits.word, fits.socket⟩⟩
      | some writer =>
        cases body with
        | false => exact .inl ⟨rfl, fun _ fits => ⟨fits.word, fits.socket⟩⟩
        | true =>
          cases response with
          | false => exact .inl ⟨rfl, fun _ fits => ⟨fits.word, fits.socket⟩⟩
          | true => exact .inr ⟨rfl, rfl, rfl⟩

theorem registration_fits {registry : ConnectionRegistry} {index : Nat} {op : Op} {life : Life}
    (fits : Fits (registry.entries index).connection life)
    (failed : (registration registry index op).1 = false) :
    Fits (registration registry index op).2 life := by
  cases op with
  | register connectionId requestId ownerToken lifetimeToken allocation =>
    rcases init_fits (registry.entries index).connection connectionId requestId ownerToken lifetimeToken
      allocation with ⟨-, kept⟩ | ⟨made, -⟩
    · exact kept life fits
    · exact absurd (failed.symm.trans made) (by decide)
  | _ => exact fits

theorem registration_born {registry : ConnectionRegistry} {index : Nat} {op : Op}
    (made : (registration registry index op).1 = true) :
    Fits (registration registry index op).2 Life.born := by
  cases op with
  | register connectionId requestId ownerToken lifetimeToken allocation =>
    rcases init_fits (registry.entries index).connection connectionId requestId ownerToken lifetimeToken
      allocation with ⟨failed, -⟩ | ⟨-, born⟩
    · exact absurd (failed.symm.trans made) (by decide)
    · exact born
  | _ => cases made

end CkartaConnectionLifecycle
