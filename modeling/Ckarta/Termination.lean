import Mathlib.Data.List.Induction
import Ckarta.ConnectionLifecycle

/-!
Termination over whole runs: every connection of a run has a possible life, so its end is
claimed once, its event and cycle stay, and its descriptor is given away once.
-/
namespace CkartaTermination
open MachineWord StepHistory CkartaConnection CkartaConnectionRegistry CkartaRegistryCalls
open CkartaConnectionSystem CkartaRegistryPins CkartaConnectionLifecycle

structure CallSound (s : System) (running : TerminalCall) : Prop where
  born : 0 < s.births running.slot
  event : validEvent running.event = true
  saw : ∀ word, running.current = some word → unpackState word = ConnectionState.opened.code ∨
    unpackState word = ConnectionState.asyncWait.code

structure Sound (s : System) : Prop where
  ready : s.registry.initialized = true
  active : ∀ slot, (s.registry.entries slot).active = true → 0 < s.births slot
  held : ∀ held ∈ s.held, ∀ slot, held.pin.connection = some slot → 0 < s.births slot
  calls : ∀ running ∈ s.calls, CallSound s running

/-- Every life in the history is a possible one, and the last one of each slot is where its
    connection is. -/
structure Lives (history : List (Move × Answer)) (s : System) : Prop where
  later : ∀ connection : Instance, s.births connection.1 < connection.2 → log markOf connection history = []
  possible : ∀ connection : Instance, ∃ life, replay (log markOf connection history) = some life
  now : ∀ slot, 0 < s.births slot → ∃ life, replay (log markOf (s.current slot) history) = some life ∧
    life.Valid ∧ Fits (s.registry.entries slot).connection life

theorem look_continues {running next : TerminalCall} {word : Nat} (looks : look running word = .inr next) :
    next = { running with current := some word } ∧ (unpackState word = ConnectionState.opened.code ∨
      unpackState word = ConnectionState.asyncWait.code) := by
  unfold look at looks
  dsimp only at looks
  split at looks
  · split at looks <;> cases looks
  · split at looks
    · cases looks
    · rename_i open_
      refine ⟨(Sum.inr.inj looks).symm, ?_⟩
      by_contra neither
      rw [not_or] at neither
      exact open_ neither

theorem look_returns {running : TerminalCall} {word : Nat} {result : Int}
    (looks : look running word = .inl result) : result ≠ terminalClaimed := by
  unfold look at looks
  dsimp only at looks
  split at looks
  · split at looks
    · obtain rfl := Sum.inl.inj looks
      decide
    · obtain rfl := Sum.inl.inj looks
      decide
  · split at looks
    · obtain rfl := Sum.inl.inj looks
      decide
    · cases looks

inductive ThreadStep (s : System) : Move → System → Answer → Prop where
  | refused {held : Held} {event : Int} :
      ThreadStep s (.begin held event) s ⟨some (-1), none, none⟩
  | begun {held : Held} {event : Int} {slot : Nat} (inside : held ∈ s.held)
      (pointer : held.pin.connection = some slot) (valid : validEvent event = true) :
      ThreadStep s (.begin held event) { s with calls := ⟨slot, event, none⟩ :: s.calls } ⟨none, none, none⟩
  | looked {move : Move} {running : TerminalCall} (which : move = .load running ∨
      ∃ spurious, move = .exchange running spurious) (inside : running ∈ s.calls) :
      ThreadStep s move (proceed s running).1 (proceed s running).2
  | won {running : TerminalCall} {spurious : Bool} (inside : running ∈ s.calls)
      (current : running.current = some (s.word running.slot)) :
      ThreadStep s (.exchange running spurious)
        { s with
          registry := setWord s.registry running.slot
            (ckConnectionPack .closing running.event (unpackCycle (s.word running.slot)))
          calls := s.calls.erase running }
        ⟨some terminalClaimed, some (s.current running.slot), none⟩

theorem thread_step {s t : System} {move : Move} {answer : Answer}
    (next : step s move = some (t, answer)) (thread : ∀ op, move ≠ .call op) : ThreadStep s move t answer := by
  cases move with
  | call op => exact absurd rfl (thread op)
  | begin held event =>
    simp only [step] at next
    cases pointer : held.pin.connection with
    | none =>
      rw [pointer] at next
      cases next
    | some slot =>
      rw [pointer] at next
      dsimp only at next
      by_cases inside : held ∈ s.held
      · rw [if_neg (not_not.mpr inside)] at next
        by_cases valid : validEvent event = true
        · simp only [valid, Bool.not_true, Bool.false_eq_true, ↓reduceIte, Option.some.injEq,
            Prod.mk.injEq] at next
          obtain ⟨rfl, rfl⟩ := next
          exact .begun inside pointer valid
        · simp only [valid, Bool.not_false, ↓reduceIte, Option.some.injEq, Prod.mk.injEq] at next
          obtain ⟨rfl, rfl⟩ := next
          exact .refused
      · rw [if_pos inside] at next
        cases next
  | load running =>
    simp only [step] at next
    by_cases refused : running ∉ s.calls ∨ running.current ≠ none
    · rw [if_pos refused] at next
      cases next
    · rw [if_neg refused] at next
      rw [not_or, not_not] at refused
      have both := Option.some.inj next
      have looked := ThreadStep.looked (s := s) (.inl rfl : Move.load running = .load running ∨ _) refused.1
      rw [both] at looked
      exact looked
  | exchange running spurious =>
    simp only [step] at next
    cases saw : running.current with
    | none =>
      rw [saw] at next
      cases next
    | some word =>
      rw [saw] at next
      dsimp only at next
      by_cases inside : running ∈ s.calls
      · rw [if_neg (not_not.mpr inside)] at next
        by_cases wins : (!spurious) = true ∧ s.word running.slot = word
        · rw [if_pos wins] at next
          simp only [Option.some.injEq, Prod.mk.injEq] at next
          obtain ⟨rfl, rfl⟩ := next
          rw [← wins.2]
          exact .won inside (by rw [saw, wins.2])
        · rw [if_neg wins] at next
          have both := Option.some.inj next
          have looked := ThreadStep.looked (s := s)
            (.inr ⟨spurious, rfl⟩ : Move.exchange running spurious = .load running ∨ _) inside
          rw [both] at looked
          exact looked
      · rw [if_pos inside] at next
        cases next

theorem told_eq (move : Move) (answer : Answer) (connection : Instance) :
    told markOf connection (move, answer) =
      if answer.acted = some connection then markAt move answer else none := by
  unfold told markOf
  cases acted : answer.acted with
  | none => simp
  | some other => cases markAt move answer <;> simp

theorem registers_births {s : System} {op : Op} {index : Nat} (registers : Registers s.registry op index) :
    birthsAfter s op (call s.registry op).1 = if (registration s.registry index op).1 then
      Function.update s.births index (s.births index + 1) else s.births := by
  simp only [birthsAfter, registers.tried, registers.replied]
  cases (registration s.registry index op).1 <;> rfl

theorem proceed_mark {s : System} {running : TerminalCall} {move : Move}
    (which : move = .load running ∨ ∃ spurious, move = .exchange running spurious) :
    markAt move (proceed s running).2 = none := by
  rcases which with rfl | ⟨spurious, rfl⟩
  · rfl
  · unfold proceed
    split
    · rename_i result looks
      simp [markAt, look_returns looks]
    · simp [markAt]

theorem won_continues {s : System} {running : TerminalCall} (callSound : CallSound s running) {life : Life}
    (current : running.current = some (s.word running.slot)) (valid : life.Valid)
    (fits : Fits (s.registry.entries running.slot).connection life) :
    ∃ after, life.next (.claimed running.event) = some after ∧
      Fits ((setWord s.registry running.slot (ckConnectionPack .closing running.event
        (unpackCycle (s.word running.slot)))).entries running.slot).connection after := by
  have word : s.word running.slot = life.phase.word := fits.word
  have unclaimed : life.phase.claim = none := by
    have open_ := callSound.saw _ current
    rw [word, word_state] at open_
    cases phase : life.phase with
    | opened => rfl
    | waiting cycleId => rfl
    | closing event cycleId => simp [phase, Phase.state, ConnectionState.code] at open_
    | closed event cycleId => simp [phase, Phase.state, ConnectionState.code] at open_
  refine ⟨⟨.closing running.event life.phase.cycle, life.socket⟩, ?_, ?_⟩
  · simp only [Life.next]
    rw [if_pos ⟨unclaimed, callSound.event⟩]
  · rw [setWord, set_same, word, word_cycle valid.cycle]
    exact ⟨rfl, fits.socket⟩

theorem step_continues {s t : System} {move : Move} {answer : Answer} (sound : Sound s)
    (next : step s move = some (t, answer)) {slot : Nat} (same : t.births slot = s.births slot)
    {life : Life} (valid : life.Valid) (fits : Fits (s.registry.entries slot).connection life) :
    Continues (t.registry.entries slot).connection life (told markOf (s.current slot) (move, answer)) := by
  rw [told_eq]
  by_cases isCall : ∃ op, move = .call op
  · obtain ⟨op, rfl⟩ := isCall
    simp only [step, Option.some.injEq, Prod.mk.injEq] at next
    obtain ⟨rfl, rfl⟩ := next
    rcases call_changes s.registry op with ⟨result, failed, refused, -⟩ | ⟨index, acts⟩ | ⟨index, registers⟩
    · simp only [refused, refusal_result, refusal_closed, markAt_refused failed, ite_self]
      exact fits
    · obtain ⟨handle, names, found⟩ := acts.found
      have acted : actedSlot s.registry op = some index := by simp [actedSlot, names, found]
      simp only [acts.result, acted, Option.map_some]
      by_cases here : slot = index
      · subst here
        rw [set_same, if_pos rfl]
        exact action_continues acts.fine slot fits valid _
      · have away : ¬ some (s.current index) = some (s.current slot) := by
          simp [System.current, Ne.symm here]
        rw [set_other _ _ here, if_neg away]
        exact fits
    · have unmarked : ∀ answer, markAt (.call op) answer = none := by
        intro answer
        have tried := registers.tried
        cases op <;> first | rfl | cases tried
      simp only [unmarked, ite_self, registers.changed]
      by_cases here : slot = index
      · subst here
        rw [set_same]
        dsimp only at same
        rw [registers_births registers] at same
        apply registration_fits fits
        by_contra made
        rw [Bool.not_eq_false] at made
        rw [if_pos made, Function.update_self] at same
        omega
      · rw [set_other _ _ here]
        exact fits
  · cases thread_step next fun op called => isCall ⟨op, called⟩ with
    | refused => exact fits
    | begun inside pointer known => exact fits
    | looked which inside =>
      rw [proceed_mark which, ite_self, (proceed_registry s _).1]
      exact fits
    | @won running spurious inside current =>
      by_cases here : slot = running.slot
      · subst here
        rw [if_pos rfl]
        exact won_continues (sound.calls running inside) current valid fits
      · have away : ¬ some (s.current running.slot) = some (s.current slot) := by
          simp [System.current, Ne.symm here]
        rw [if_neg away]
        dsimp only [setWord]
        rw [set_other _ _ here]
        exact fits

theorem births_step {s t : System} {move : Move} {answer : Answer}
    (next : step s move = some (t, answer)) (slot : Nat) :
    t.births slot = s.births slot ∨ (t.births slot = s.births slot + 1 ∧
      (∀ answer, markAt move answer = none) ∧ Fits (t.registry.entries slot).connection Life.born) := by
  by_cases isCall : ∃ op, move = .call op
  · obtain ⟨op, rfl⟩ := isCall
    simp only [step, Option.some.injEq, Prod.mk.injEq] at next
    obtain ⟨rfl, -⟩ := next
    rcases call_changes s.registry op with ⟨result, -, refused, untried⟩ | ⟨index, acts⟩ | ⟨index, registers⟩
    · exact .inl (by simp only [birthsAfter, untried])
    · exact .inl (by simp only [birthsAfter, acts.untried])
    · have births := registers_births registers
      by_cases here : slot = index
      · subst here
        cases made : (registration s.registry slot op).1 with
        | false =>
          rw [made] at births
          exact .inl (congrFun births slot)
        | true =>
          rw [made, if_pos rfl] at births
          refine .inr ⟨?_, ?_, ?_⟩
          · dsimp only
            rw [births, Function.update_self]
          · intro answer
            have tried := registers.tried
            cases op <;> first | rfl | cases tried
          · dsimp only
            rw [registers.changed, set_same]
            exact registration_born made
      · left
        dsimp only
        rw [births]
        split
        · rw [Function.update_of_ne here]
        · rfl
  · obtain ⟨births, -⟩ := step_thread next fun op called => isCall ⟨op, called⟩
    exact .inl (congrFun births slot)

theorem births_grow {s t : System} {move : Move} {answer : Answer}
    (next : step s move = some (t, answer)) (slot : Nat) : s.births slot ≤ t.births slot := by
  rcases births_step next slot with same | ⟨more, -⟩ <;> omega

theorem step_acted {s t : System} {move : Move} {answer : Answer} (sound : Sound s)
    (next : step s move = some (t, answer)) {connection : Instance}
    (acted : answer.acted = some connection) :
    connection = s.current connection.1 ∧ 0 < s.births connection.1 := by
  by_cases isCall : ∃ op, move = .call op
  · obtain ⟨op, rfl⟩ := isCall
    simp only [step, Option.some.injEq, Prod.mk.injEq] at next
    obtain ⟨-, rfl⟩ := next
    simp only [actedSlot, Option.map_eq_some_iff, Option.bind_eq_some_iff] at acted
    obtain ⟨slot, ⟨handle, -, found⟩, rfl⟩ := acted
    exact ⟨rfl, sound.active slot (CkartaRegistrySlots.find_decodes.mp found).1⟩
  · cases thread_step next fun op called => isCall ⟨op, called⟩ with
    | refused => cases acted
    | begun inside pointer known => cases acted
    | @looked _ running which inside =>
      have where_ : (proceed s running).2.acted = some (s.current running.slot) := by
        unfold proceed
        split <;> rfl
      rw [where_] at acted
      obtain rfl := Option.some.inj acted
      exact ⟨rfl, (sound.calls running inside).born⟩
    | @won running spurious inside current =>
      obtain rfl := Option.some.inj acted
      exact ⟨rfl, (sound.calls running inside).born⟩

theorem lives_step {history : List (Move × Answer)} {s t : System} {move : Move} {answer : Answer}
    (sound : Sound s) (lives : Lives history s) (next : step s move = some (t, answer)) :
    Lives (history ++ [(move, answer)]) t := by
  -- only the connection that is in its slot is told of
  have away : ∀ connection : Instance, connection.2 ≠ s.births connection.1 →
      told markOf connection (move, answer) = none := by
    intro connection other
    rw [told_eq]
    split
    · rename_i acted
      have current := (step_acted sound next acted).1
      exact absurd (congrArg Prod.snd current) other
    · rfl
  constructor
  · intro connection later
    have grown := births_grow next connection.1
    rw [log_snoc, lives.later connection (by omega), away connection (by omega)]
    rfl
  · intro connection
    rw [log_snoc]
    cases tells : told markOf connection (move, answer) with
    | none =>
      simp only [Option.toList_none, List.append_nil]
      exact lives.possible connection
    | some mark =>
      rw [told_eq] at tells
      split at tells
      · rename_i acted
        obtain ⟨current, born⟩ := step_acted sound next acted
        rcases births_step next connection.1 with same | ⟨-, unmarked, -⟩
        · obtain ⟨life, replayed, valid, fits⟩ := lives.now connection.1 born
          have continues := step_continues sound next same valid fits
          rw [← current] at replayed continues
          rw [told_eq, if_pos acted, tells] at continues
          obtain ⟨after, goes, -⟩ := continues
          exact ⟨after, by rw [Option.toList_some, replay_snoc, replayed]; exact goes⟩
        · rw [unmarked] at tells
          cases tells
      · cases tells
  · intro slot born
    rcases births_step next slot with same | ⟨more, -, fresh⟩
    · have current : t.current slot = s.current slot := by rw [System.current, System.current, same]
      rw [current, log_snoc]
      obtain ⟨life, replayed, valid, fits⟩ := lives.now slot (by omega)
      have continues := step_continues sound next same valid fits
      cases tells : told markOf (s.current slot) (move, answer) with
      | none =>
        rw [tells] at continues
        simp only [Option.toList_none, List.append_nil]
        exact ⟨life, replayed, valid, continues⟩
      | some mark =>
        rw [tells] at continues
        obtain ⟨after, goes, afterFits⟩ := continues
        exact ⟨after, by rw [Option.toList_some, replay_snoc, replayed]; exact goes, valid.next goes, afterFits⟩
    · have new : log markOf (t.current slot) (history ++ [(move, answer)]) = [] := by
        rw [log_snoc, lives.later (t.current slot) (by simp only [System.current]; omega),
          away (t.current slot) (by simp only [System.current]; omega)]
        rfl
      rw [new]
      exact ⟨Life.born, rfl, valid_born, fresh⟩

theorem CallSound.grow {s t : System} {running : TerminalCall} (callSound : CallSound s running)
    (grows : ∀ slot, s.births slot ≤ t.births slot) : CallSound t running :=
  ⟨lt_of_lt_of_le callSound.born (grows _), callSound.event, callSound.saw⟩

theorem call_sound {s t : System} {op : Op} {answer : Answer} (sound : Sound s)
    (next : step s (.call op) = some (t, answer)) : Sound t := by
  have grows := births_grow next
  simp only [step, Option.some.injEq, Prod.mk.injEq] at next
  obtain ⟨rfl, -⟩ := next
  refine ⟨(call_ready _ _).trans sound.ready, ?_, ?_, ?_⟩
  · intro slot active
    dsimp only at active ⊢
    rcases call_changes s.registry op with ⟨result, -, refused, untried⟩ | ⟨index, acts⟩ | ⟨index, registers⟩
    · rw [refused] at active
      exact lt_of_lt_of_le (sound.active slot active) (grows slot)
    · rw [acts.result] at active
      apply lt_of_lt_of_le (sound.active slot _) (grows slot)
      by_cases here : slot = index
      · subst here
        rw [set_same] at active
        exact CkartaRegistrySlots.action_active active
      · rwa [set_other _ _ here] at active
    · rw [registers.changed] at active
      by_cases here : slot = index
      · subst here
        rw [set_same] at active
        rw [registers_births registers, if_pos active, Function.update_self]
        omega
      · rw [set_other _ _ here] at active
        exact lt_of_lt_of_le (sound.active slot active) (grows slot)
  · intro held inside slot pointer
    apply lt_of_lt_of_le _ (grows slot)
    by_cases old : held ∈ s.held
    · exact sound.held held old slot pointer
    · dsimp only at inside
      cases op with
      | acquire kind caller pin =>
        rcases call_changes s.registry (.acquire kind caller pin) with
          ⟨result, failed, refused, -⟩ | ⟨index, acts⟩ | ⟨index, registers⟩
        · rw [refused, heldAfter_refused s _ (by rwa [refusal_result])] at inside
          exact absurd inside old
        · obtain ⟨handle, -, found⟩ := acts.found
          rw [acts.result] at inside
          simp only [action] at inside
          split at inside
          · rw [heldAfter_refused s _ (by simp [answerPin])] at inside
            exact absurd inside old
          · simp only [heldAfter, answerPin, ↓reduceIte, List.mem_cons, old, or_false] at inside
            rw [inside] at pointer
            obtain rfl := Option.some.inj pointer
            exact sound.active index (CkartaRegistrySlots.find_decodes.mp found).1
        · cases registers.tried
      | release kind pin =>
        simp only [heldAfter] at inside
        split at inside
        · exact absurd (List.mem_of_mem_eraseP inside) old
        · exact absurd inside old
      | _ => exact absurd inside old
  · intro running inside
    exact (sound.calls running inside).grow grows

theorem proceed_calls {s : System} {running other : TerminalCall} (callSound : CallSound s running)
    (inside : other ∈ (proceed s running).1.calls) : other ∈ s.calls ∨ CallSound s other := by
  unfold proceed at inside
  split at inside
  · exact .inl (List.mem_of_mem_erase inside)
  · rename_i next looks
    obtain ⟨rfl, open_⟩ := look_continues looks
    rcases List.mem_cons.mp inside with rfl | old
    · refine .inr ⟨callSound.born, callSound.event, ?_⟩
      intro word saw
      obtain rfl := Option.some.inj saw
      exact open_
    · exact .inl (List.mem_of_mem_erase old)

theorem sound_step {s t : System} {move : Move} {answer : Answer} (sound : Sound s)
    (next : step s move = some (t, answer)) : Sound t := by
  by_cases isCall : ∃ op, move = .call op
  · obtain ⟨op, rfl⟩ := isCall
    exact call_sound sound next
  · cases thread_step next fun op called => isCall ⟨op, called⟩ with
    | refused => exact sound
    | @begun held event slot inside pointer known =>
      refine ⟨sound.ready, sound.active, sound.held, ?_⟩
      intro running member
      rcases List.mem_cons.mp member with rfl | old
      · exact ⟨sound.held held inside slot pointer, known, fun _ saw => by cases saw⟩
      · exact (sound.calls running old).grow fun _ => le_refl _
    | @looked _ running which inside =>
      obtain ⟨registry, births, held⟩ := proceed_registry s running
      refine ⟨by rw [registry]; exact sound.ready, by rw [registry, births]; exact sound.active,
        by rw [held, births]; exact sound.held, ?_⟩
      intro other member
      have grows : ∀ slot, s.births slot ≤ (proceed s running).1.births slot := fun slot => by rw [births]
      rcases proceed_calls (sound.calls running inside) member with old | new
      · exact (sound.calls other old).grow grows
      · exact new.grow grows
    | @won running spurious inside current =>
      refine ⟨sound.ready, ?_, sound.held, ?_⟩
      · intro slot active
        dsimp only [setWord] at active
        by_cases here : slot = running.slot
        · subst here
          rw [set_same] at active
          exact sound.active running.slot active
        · rw [set_other _ _ here] at active
          exact sound.active slot active
      · intro other member
        exact (sound.calls other (List.mem_of_mem_erase member)).grow fun _ => le_refl _

theorem start_sound : Sound start :=
  ⟨rfl, (fun _ active => by cases active), (fun _ inside => by cases inside), (fun _ inside => by cases inside)⟩

theorem runs_lives {history : List (Move × Answer)} {s : System} (runs : Runs step start history s) :
    Sound s ∧ Lives history s := by
  apply runs.invariant (fun history s => Sound s ∧ Lives history s)
  · refine ⟨start_sound, fun _ _ => rfl, fun _ => ⟨Life.born, rfl⟩, ?_⟩
    intro slot born
    cases born
  · intro history s t move answer _ holds next
    exact ⟨sound_step holds.1 next, lives_step holds.1 holds.2 next⟩

def Mark.event : Mark → Option Int
  | .claimed event => some event
  | _ => none

def Mark.cycle : Mark → Option Nat
  | .started cycleId => some cycleId
  | _ => none

def Mark.given : Mark → Option Int
  | .attached socketFd => some socketFd
  | _ => none

def Mark.handed : Mark → Option Int
  | .ended socketFd => socketFd
  | _ => none

def claims (connection : Instance) (history : List (Move × Answer)) : List Int :=
  (log markOf connection history).filterMap Mark.event

def startedCycles (connection : Instance) (history : List (Move × Answer)) : List Nat :=
  (log markOf connection history).filterMap Mark.cycle

def attachedSockets (connection : Instance) (history : List (Move × Answer)) : List Int :=
  (log markOf connection history).filterMap Mark.given

def closedSockets (connection : Instance) (history : List (Move × Answer)) : List Int :=
  (log markOf connection history).filterMap Mark.handed

/-- What the marks of a life add up to. -/
structure Summary (marks : List Mark) (life : Life) : Prop where
  claims : marks.filterMap Mark.event = life.phase.claim.toList
  cycles : marks.filterMap Mark.cycle = if life.phase.cycle = 0 then [] else [life.phase.cycle]
  given : life.phase.state ≠ .closed →
    marks.filterMap Mark.given = life.socket.toList ∧ marks.filterMap Mark.handed = []
  handed : life.phase.state = .closed →
    marks.filterMap Mark.given = marks.filterMap Mark.handed ∧ (marks.filterMap Mark.handed).length ≤ 1

theorem summary_snoc {marks : List Mark} {life after : Life} {mark : Mark} (summary : Summary marks life)
    (goes : life.next mark = some after) : Summary (marks ++ [mark]) after := by
  obtain ⟨claims, cycles, given, handed⟩ := summary
  cases Life.next_step goes with
  | attached usable =>
    obtain ⟨givenBefore, handedBefore⟩ := given ConnectionState.noConfusion
    refine ⟨?_, ?_, fun _ => ⟨?_, ?_⟩, ConnectionState.noConfusion⟩
    · rw [filterMap_snoc, claims]
      rfl
    · rw [filterMap_snoc, cycles]
      rfl
    · rw [filterMap_snoc, givenBefore]
      rfl
    · rw [filterMap_snoc, handedBefore]
      rfl
  | started valid =>
    obtain ⟨givenBefore, handedBefore⟩ := given ConnectionState.noConfusion
    have nonzero := (validCycleId_iff.mp valid).1
    refine ⟨?_, ?_, fun _ => ⟨?_, ?_⟩, ConnectionState.noConfusion⟩
    · rw [filterMap_snoc, claims]
      rfl
    · rw [filterMap_snoc, cycles]
      simp [Mark.cycle, Phase.cycle, nonzero]
    · rw [filterMap_snoc, givenBefore]
      exact List.append_nil _
    · rw [filterMap_snoc, handedBefore]
      rfl
  | @claimed event phase socket unclaimed named =>
    have open_ : phase.state ≠ .closed := by
      rcases Phase.unclaimed unclaimed with state | state <;> rw [state] <;> decide
    obtain ⟨givenBefore, handedBefore⟩ := given open_
    refine ⟨?_, ?_, fun _ => ⟨?_, ?_⟩, ConnectionState.noConfusion⟩
    · rw [filterMap_snoc, claims, unclaimed]
      rfl
    · rw [filterMap_snoc, cycles]
      exact List.append_nil _
    · rw [filterMap_snoc, givenBefore]
      exact List.append_nil _
    · rw [filterMap_snoc, handedBefore]
      rfl
  | @ended event cycleId socket =>
    obtain ⟨givenBefore, handedBefore⟩ := given ConnectionState.noConfusion
    refine ⟨?_, ?_, fun other => absurd rfl other, fun _ => ?_⟩
    · rw [filterMap_snoc, claims]
      rfl
    · rw [filterMap_snoc, cycles]
      exact List.append_nil _
    · rw [filterMap_snoc, filterMap_snoc, givenBefore, handedBefore]
      cases socket <;> simp [Mark.given, Mark.handed]

theorem replay_summary {marks : List Mark} {life : Life} (replayed : replay marks = some life) :
    Summary marks life := by
  induction marks using List.reverseRecOn generalizing life with
  | nil =>
    obtain rfl := Option.some.inj replayed
    exact ⟨rfl, rfl, fun _ => ⟨rfl, rfl⟩, ConnectionState.noConfusion⟩
  | append_singleton marks mark ih =>
    rw [replay_snoc] at replayed
    obtain ⟨before, replayedBefore, goes⟩ := Option.bind_eq_some_iff.mp replayed
    exact summary_snoc (ih replayedBefore) goes

theorem Summary.once {marks : List Mark} {life : Life} (summary : Summary marks life) :
    (marks.filterMap Mark.event).length ≤ 1 ∧ (marks.filterMap Mark.handed).length ≤ 1 ∧
      ∀ socketFd ∈ marks.filterMap Mark.handed, marks.filterMap Mark.given = [socketFd] := by
  refine ⟨?_, ?_, ?_⟩
  · rw [summary.claims]
    cases life.phase.claim <;> simp
  · by_cases closed : life.phase.state = .closed
    · exact (summary.handed closed).2
    · rw [(summary.given closed).2]
      exact Nat.zero_le 1
  · intro socketFd inside
    by_cases closed : life.phase.state = .closed
    · obtain ⟨same, short⟩ := summary.handed closed
      rw [same]
      match all : marks.filterMap Mark.handed, short with
      | [], _ =>
        rw [all] at inside
        cases inside
      | [only], _ =>
        rw [all, List.mem_singleton] at inside
        rw [inside]
    · rw [(summary.given closed).2] at inside
      cases inside

/-- The moves of the state. -/
inductive Edge : ConnectionState → ConnectionState → Prop where
  | stays (state : ConnectionState) : Edge state state
  | starts : Edge .opened .asyncWait
  | ends : Edge .opened .closing
  | endsWaiting : Edge .asyncWait .closing
  | closes : Edge .closing .closed

theorem next_edge {life after : Life} {mark : Mark} (goes : life.next mark = some after) :
    Edge life.phase.state after.phase.state ∧
      (∀ event, life.phase.claim = some event → after.phase.claim = some event ∧
        after.phase.cycle = life.phase.cycle) := by
  cases Life.next_step goes with
  | attached usable => exact ⟨.stays _, fun event claimed => by cases claimed⟩
  | started fits => exact ⟨.starts, fun event claimed => by cases claimed⟩
  | claimed unclaimed named =>
    refine ⟨?_, fun other claimed => by rw [unclaimed] at claimed; cases claimed⟩
    rcases Phase.unclaimed unclaimed with state | state
    · rw [state]
      exact .ends
    · rw [state]
      exact .endsWaiting
  | ended => exact ⟨.closes, fun _ claimed => ⟨claimed, rfl⟩⟩

def WordEnded (word : Nat) : Prop :=
  unpackState word = ConnectionState.closing.code ∨ unpackState word = ConnectionState.closed.code

def terminalEvent : Move → Option Int
  | .call (.tryTerminal _ _ event) => some event
  | .load running | .exchange running _ => some running.event
  | _ => none

def Mismatched (caller : Caller) (cycleId : Nat) (connection : OwnedConnection) : Prop :=
  cycleId ≠ unpackCycle connection.lifecycle ∨ caller.requestId ≠ connection.requestId ∨
    caller.ownerToken ≠ connection.ownerToken ∨ caller.lifetimeToken ≠ connection.lifetimeToken

/-- What a step may do to the connections, after this history. -/
structure Decides (history : List (Move × Answer)) (s : System) (move : Move) (t : System)
    (answer : Answer) : Prop where
  moves : ∀ slot, 0 < s.births slot → t.births slot = s.births slot → ∃ old new : ConnectionState,
    unpackState (s.word slot) = old.code ∧ unpackState (t.word slot) = new.code ∧ Edge old new
  born : ∀ slot, t.births slot ≠ s.births slot → unpackState (t.word slot) = ConnectionState.opened.code
  keeps : ∀ slot, 0 < s.births slot → t.births slot = s.births slot → WordEnded (s.word slot) →
    unpackEvent (t.word slot) = unpackEvent (s.word slot) ∧
      unpackCycle (t.word slot) = unpackCycle (s.word slot)
  claim : ∀ slot event, told markOf (s.current slot) (move, answer) = some (.claimed event) →
    ¬ WordEnded (s.word slot) ∧ unpackCycle (t.word slot) = unpackCycle (s.word slot)
  told : ∀ event, terminalEvent move = some event → answer.result = some terminalClaimed →
    ∃ slot, 0 < s.births slot ∧ told markOf (s.current slot) (move, answer) = some (.claimed event)
  late : ∀ slot event result, terminalEvent move = some event → answer.acted = some (s.current slot) →
    answer.result = some result → result ≠ -3 → WordEnded (s.word slot) →
    (result = terminalAlreadySame ↔ event = unpackEvent (s.word slot))
  mismatch : ∀ caller cycleId event slot, move = .call (.tryTerminal caller cycleId event) →
    find s.registry caller.handle = some slot →
    Mismatched caller cycleId (s.registry.entries slot).connection → t.registry = s.registry
  closes : ∀ socketFd, answer.closed = some socketFd → ∃ slot caller closeAnswer,
    move = .call (.close caller closeAnswer) ∧ answer.acted = some (s.current slot) ∧
    unpackState (s.word slot) = ConnectionState.closing.code ∧
    unpackState (t.word slot) = ConnectionState.closed.code ∧
    attachedSockets (s.current slot) history = [socketFd] ∧ closedSockets (s.current slot) history = []

section
variable {history : List (Move × Answer)} {s t : System} {move : Move} {answer : Answer}

theorem step_life (sound : Sound s) (lives : Lives history s) (next : step s move = some (t, answer))
    {slot : Nat} (born : 0 < s.births slot) (same : t.births slot = s.births slot) :
    ∃ life after, replay (log markOf (s.current slot) history) = some life ∧ life.Valid ∧
      Fits (s.registry.entries slot).connection life ∧ after.Valid ∧
      Fits (t.registry.entries slot).connection after ∧
      (told markOf (s.current slot) (move, answer) = none ∧ after = life ∨
        ∃ mark, told markOf (s.current slot) (move, answer) = some mark ∧ life.next mark = some after) := by
  obtain ⟨life, replayed, valid, fits⟩ := lives.now slot born
  have continues := step_continues sound next same valid fits
  cases tells : told markOf (s.current slot) (move, answer) with
  | none =>
    rw [tells] at continues
    exact ⟨life, life, replayed, valid, fits, valid, continues, .inl ⟨rfl, rfl⟩⟩
  | some mark =>
    rw [tells] at continues
    obtain ⟨after, goes, afterFits⟩ := continues
    exact ⟨life, after, replayed, valid, fits, valid.next goes, afterFits, .inr ⟨mark, rfl, goes⟩⟩

theorem fits_state {slot : Nat} {life : Life} (fits : Fits (s.registry.entries slot).connection life) :
    unpackState (s.word slot) = life.phase.state.code := by
  rw [System.word, fits.word, word_state]

theorem fits_cycle {slot : Nat} {life : Life} (fits : Fits (s.registry.entries slot).connection life)
    (valid : life.Valid) : unpackCycle (s.word slot) = life.phase.cycle := by
  rw [System.word, fits.word, word_cycle valid.cycle]

theorem fits_ended {slot : Nat} {life : Life} (fits : Fits (s.registry.entries slot).connection life)
    (valid : life.Valid) : WordEnded (s.word slot) ↔
      ∃ event, life.phase.claim = some event ∧ unpackEvent (s.word slot) = event ∧
        validEvent event = true := by
  constructor
  · intro ended
    cases claimed : life.phase.claim with
    | none =>
      rw [WordEnded, fits_state fits] at ended
      rcases Phase.unclaimed claimed with state | state
      · rw [state] at ended
        exact absurd ended (by decide)
      · rw [state] at ended
        exact absurd ended (by decide)
    | some event =>
      refine ⟨event, rfl, ?_, valid.event event claimed⟩
      rw [System.word, fits.word]
      exact word_event claimed (valid.event event claimed)
  · rintro ⟨event, claimed, -⟩
    rw [WordEnded, fits_state fits]
    rcases Phase.claimed claimed with state | state
    · exact .inl (by rw [state])
    · exact .inr (by rw [state])

theorem registry_terminal (sound : Sound s) {caller : Caller} {cycleId : Nat} {event : Int} {slot : Nat}
    (found : find s.registry caller.handle = some slot) :
    call s.registry (.tryTerminal caller cycleId event) =
      if caller.validCycle cycleId (s.registry.entries slot).connection = true then
        ((action (.tryTerminal caller cycleId event) slot (s.registry.entries slot)).1,
          s.registry.set slot (action (.tryTerminal caller cycleId event) slot (s.registry.entries slot)).2)
      else (refusal (.tryTerminal caller cycleId event) (-3), s.registry) := by
  have called := @call_target s.registry (.tryTerminal caller cycleId event) caller.handle rfl id
  simp only [operate, sound.ready, Bool.not_true, Bool.false_eq_true, ↓reduceIte, found] at called
  by_cases valid : caller.validCycle cycleId (s.registry.entries slot).connection = true
  · rw [called, if_pos valid, if_neg (by simp [matching, valid])]
  · rw [called, if_neg valid, if_pos (by simp [matching, valid])]

theorem step_moves (sound : Sound s) (lives : Lives history s) (next : step s move = some (t, answer))
    {slot : Nat} (born : 0 < s.births slot) (same : t.births slot = s.births slot) :
    ∃ old new : ConnectionState, unpackState (s.word slot) = old.code ∧
      unpackState (t.word slot) = new.code ∧ Edge old new := by
  obtain ⟨life, after, -, -, fits, -, afterFits, continues⟩ := step_life sound lives next born same
  refine ⟨life.phase.state, after.phase.state, fits_state fits, fits_state afterFits, ?_⟩
  rcases continues with ⟨-, rfl⟩ | ⟨mark, -, goes⟩
  · exact .stays _
  · exact (next_edge goes).1

theorem step_keeps_end (sound : Sound s) (lives : Lives history s) (next : step s move = some (t, answer))
    {slot : Nat} (born : 0 < s.births slot) (same : t.births slot = s.births slot)
    (ended : WordEnded (s.word slot)) :
    unpackEvent (t.word slot) = unpackEvent (s.word slot) ∧
      unpackCycle (t.word slot) = unpackCycle (s.word slot) := by
  obtain ⟨life, after, -, valid, fits, afterValid, afterFits, continues⟩ :=
    step_life sound lives next born same
  obtain ⟨event, claimed, recorded, known⟩ := (fits_ended fits valid).mp ended
  rw [fits_cycle afterFits afterValid, fits_cycle fits valid, recorded]
  rcases continues with ⟨-, rfl⟩ | ⟨mark, -, goes⟩
  · refine ⟨?_, rfl⟩
    rw [System.word, afterFits.word, word_event claimed known]
  · obtain ⟨stays, cycle⟩ := (next_edge goes).2 event claimed
    refine ⟨?_, cycle⟩
    rw [System.word, afterFits.word, word_event stays known]

theorem told_born (sound : Sound s) (next : step s move = some (t, answer)) {slot : Nat} {mark : Mark}
    (tells : told markOf (s.current slot) (move, answer) = some mark) :
    0 < s.births slot ∧ t.births slot = s.births slot := by
  rw [told_eq] at tells
  split at tells
  · rename_i acted
    refine ⟨(step_acted sound next acted).2, ?_⟩
    rcases births_step next slot with same | ⟨-, unmarked, -⟩
    · exact same
    · rw [unmarked] at tells
      cases tells
  · cases tells

theorem step_claim (sound : Sound s) (lives : Lives history s) (next : step s move = some (t, answer))
    {slot : Nat} {event : Int}
    (tells : told markOf (s.current slot) (move, answer) = some (.claimed event)) :
    ¬ WordEnded (s.word slot) ∧ unpackCycle (t.word slot) = unpackCycle (s.word slot) := by
  obtain ⟨born, same⟩ := told_born sound next tells
  obtain ⟨life, after, -, valid, fits, afterValid, afterFits, continues⟩ :=
    step_life sound lives next born same
  rcases continues with ⟨silent, -⟩ | ⟨mark, marked, goes⟩
  · rw [tells] at silent
    cases silent
  · obtain rfl := Option.some.inj (tells.symm.trans marked)
    cases Life.next_step goes with
    | claimed unclaimed named =>
      refine ⟨?_, ?_⟩
      · intro ended
        obtain ⟨recorded, claimed, -⟩ := (fits_ended fits valid).mp ended
        rw [unclaimed] at claimed
        cases claimed
      · rw [fits_cycle afterFits afterValid, fits_cycle fits valid]
        rfl

theorem step_told (sound : Sound s) (next : step s move = some (t, answer)) {event : Int}
    (terminal : terminalEvent move = some event) (won : answer.result = some terminalClaimed) :
    ∃ slot, 0 < s.births slot ∧ told markOf (s.current slot) (move, answer) = some (.claimed event) := by
  by_cases isCall : ∃ op, move = .call op
  · obtain ⟨op, rfl⟩ := isCall
    cases op with
    | tryTerminal caller cycleId called =>
      obtain rfl := Option.some.inj terminal
      simp only [step, Option.some.injEq, Prod.mk.injEq] at next
      obtain ⟨-, rfl⟩ := next
      rcases call_changes s.registry (.tryTerminal caller cycleId called) with
        ⟨result, failed, refused, -⟩ | ⟨slot, acts⟩ | ⟨index, registers⟩
      · rw [refused] at won
        exact absurd (Option.some.inj won) failed
      · obtain ⟨handle, names, found⟩ := acts.found
        have acted : actedSlot s.registry (.tryTerminal caller cycleId called) = some slot := by
          simp [actedSlot, names, found]
        refine ⟨slot, sound.active slot (CkartaRegistrySlots.find_decodes.mp found).1, ?_⟩
        rw [told_eq, acted]
        dsimp only at won
        simp [markAt, won]
      · cases registers.tried
    | _ => cases terminal
  · cases thread_step next fun op called => isCall ⟨op, called⟩ with
    | refused => cases terminal
    | begun inside pointer known => cases terminal
    | @looked _ running which inside =>
      unfold proceed at won
      split at won
      · rename_i result looks
        exact absurd (Option.some.inj won) (look_returns looks)
      · cases won
    | @won running spurious inside current =>
      obtain rfl := Option.some.inj terminal
      refine ⟨running.slot, (sound.calls running inside).born, ?_⟩
      rw [told_eq]
      simp [markAt]

theorem look_late {running : TerminalCall} {word : Nat} (ended : WordEnded word) :
    look running word = .inl (if unpackEvent word = running.event then terminalAlreadySame
      else terminalAlreadyDifferent) := by
  unfold look
  dsimp only
  have ended : unpackState word = ConnectionState.closing.code ∨
    unpackState word = ConnectionState.closed.code := ended
  rw [if_pos ended]
  split <;> rfl

theorem late_answer {recorded event : Int} :
    ((if recorded = event then terminalAlreadySame else terminalAlreadyDifferent) = terminalAlreadySame) ↔
      event = recorded := by
  split
  · rename_i same
    simp [same]
  · rename_i other
    simp only [terminalAlreadyDifferent, terminalAlreadySame]
    constructor
    · intro wrong
      cases wrong
    · intro same
      exact absurd same.symm other

theorem step_late (sound : Sound s) (lives : Lives history s) (next : step s move = some (t, answer))
    {slot : Nat} {event result : Int} (terminal : terminalEvent move = some event)
    (acted : answer.acted = some (s.current slot)) (returned : answer.result = some result)
    (valued : result ≠ -3) (ended : WordEnded (s.word slot)) :
    result = terminalAlreadySame ↔ event = unpackEvent (s.word slot) := by
  obtain ⟨-, born⟩ := step_acted sound next acted
  obtain ⟨life, -, valid, fits⟩ := lives.now slot born
  obtain ⟨recorded, claimed, inWord, known⟩ := (fits_ended fits valid).mp ended
  by_cases isCall : ∃ op, move = .call op
  · obtain ⟨op, rfl⟩ := isCall
    cases op with
    | tryTerminal caller cycleId called =>
      obtain rfl := Option.some.inj terminal
      simp only [step, Option.some.injEq, Prod.mk.injEq] at next
      obtain ⟨-, rfl⟩ := next
      have found : find s.registry caller.handle = some slot := by
        simp only [actedSlot, target, Option.bind_some, Option.map_eq_some_iff] at acted
        obtain ⟨index, found, same⟩ := acted
        exact found.trans (congrArg (fun connection => some connection.1) same)
      simp only [registry_terminal sound found, Option.some.injEq] at returned
      split at returned
      · simp only [action, CkartaConnectionRegistry.answer] at returned
        rw [inWord, ← returned]
        by_cases possible : validEvent called = true
        · rcases terminal_fits fits valid possible with ⟨unclaimed, -⟩ | ⟨other, isOther, told⟩
          · rw [unclaimed] at claimed
            cases claimed
          · obtain rfl := Option.some.inj (claimed.symm.trans isOther)
            rw [told]
            exact late_answer
        · have refused : ckConnectionTryTerminal (s.registry.entries slot).connection.toConnection called =
              (-1, (s.registry.entries slot).connection.toConnection) := if_pos (by simpa using possible)
          rw [refused]
          constructor
          · intro wrong
            cases wrong
          · rintro rfl
            exact absurd known possible
      · exact absurd returned.symm valued
    | _ => cases terminal
  · cases thread_step next fun op called => isCall ⟨op, called⟩ with
    | refused => cases terminal
    | begun inside pointer known => cases terminal
    | @looked _ running which inside =>
      have same : running.event = event := by
        rcases which with rfl | ⟨spurious, rfl⟩ <;> exact Option.some.inj terminal
      have here : running.slot = slot := by
        unfold proceed at acted
        split at acted <;> exact congrArg Prod.fst (Option.some.inj acted)
      subst same here
      unfold proceed at returned
      rw [look_late ended] at returned
      rw [← Option.some.inj returned]
      exact late_answer
    | @won running spurious inside current =>
      have here : running.slot = slot := congrArg Prod.fst (Option.some.inj acted)
      subst here
      have open_ := (sound.calls running inside).saw _ current
      have ended : unpackState (s.word running.slot) = ConnectionState.closing.code ∨
        unpackState (s.word running.slot) = ConnectionState.closed.code := ended
      rcases open_ with state | state <;> rw [state] at ended <;> exact absurd ended (by decide)

theorem step_mismatch (sound : Sound s) {caller : Caller} {cycleId : Nat} {event : Int} {slot : Nat}
    (next : step s (.call (.tryTerminal caller cycleId event)) = some (t, answer))
    (found : find s.registry caller.handle = some slot)
    (other : Mismatched caller cycleId (s.registry.entries slot).connection) : t.registry = s.registry := by
  simp only [step, Option.some.injEq, Prod.mk.injEq] at next
  obtain ⟨rfl, -⟩ := next
  dsimp only
  rw [registry_terminal sound found, if_neg]
  intro matched
  simp only [Caller.validCycle, ckConnectionValidateCycle, sameOwner, Bool.and_eq_true, bne_iff_ne,
    beq_iff_eq] at matched
  obtain ⟨⟨⟨-, -⟩, ⟨request, owner⟩, lifetime⟩, cycle⟩ := matched
  rcases other with wrong | wrong | wrong | wrong
  · exact wrong cycle.symm
  · exact wrong request.symm
  · exact wrong owner.symm
  · exact wrong lifetime.symm

theorem action_closed {op : Op} {index : Nat} {entry : Entry} {socketFd : Int}
    (closed : (action op index entry).1.closed = some socketFd) :
    ∃ caller closeAnswer, op = .close caller closeAnswer := by
  cases op with
  | close caller closeAnswer => exact ⟨caller, closeAnswer, rfl⟩
  | register connectionId requestId ownerToken lifetimeToken allocation => cases closed
  | attachSocket caller socketFd => cases closed
  | startAsyncCycle caller cycleId => cases closed
  | tryTerminal caller cycleId event => cases closed
  | acquire kind caller pin =>
    simp only [action] at closed
    split at closed <;> cases closed
  | release kind pin =>
    simp only [action] at closed
    split at closed <;> cases closed
  | retire caller =>
    simp only [action] at closed
    split at closed <;> cases closed

theorem step_closes (sound : Sound s) (lives : Lives history s) (next : step s move = some (t, answer))
    {socketFd : Int} (closed : answer.closed = some socketFd) :
    ∃ slot caller closeAnswer, move = .call (.close caller closeAnswer) ∧
      answer.acted = some (s.current slot) ∧
      unpackState (s.word slot) = ConnectionState.closing.code ∧
      unpackState (t.word slot) = ConnectionState.closed.code ∧
      attachedSockets (s.current slot) history = [socketFd] ∧
      closedSockets (s.current slot) history = [] := by
  have isClose : ∃ slot caller closeAnswer, move = .call (.close caller closeAnswer) ∧
      answer.acted = some (s.current slot) := by
    by_cases isCall : ∃ op, move = .call op
    · obtain ⟨op, rfl⟩ := isCall
      simp only [step, Option.some.injEq, Prod.mk.injEq] at next
      obtain ⟨-, rfl⟩ := next
      rcases call_changes s.registry op with ⟨result, -, refused, -⟩ | ⟨slot, acts⟩ | ⟨index, registers⟩
      · dsimp only at closed
        rw [refused, refusal_closed] at closed
        cases closed
      · obtain ⟨handle, names, found⟩ := acts.found
        dsimp only at closed
        rw [acts.result] at closed
        obtain ⟨caller, closeAnswer, rfl⟩ := action_closed closed
        exact ⟨slot, caller, closeAnswer, rfl, by simp [actedSlot, names, found]⟩
      · dsimp only at closed
        rw [registers.replied] at closed
        cases made : (registration s.registry index op).1 <;> rw [made] at closed <;> cases closed
    · cases thread_step next fun op called => isCall ⟨op, called⟩ with
      | refused => cases closed
      | begun inside pointer known => cases closed
      | looked which inside =>
        unfold proceed at closed
        split at closed <;> cases closed
      | won inside current => cases closed
  obtain ⟨slot, caller, closeAnswer, rfl, acted⟩ := isClose
  have tells : told markOf (s.current slot) (.call (.close caller closeAnswer), answer) =
      some (.ended (some socketFd)) := by
    rw [told_eq, if_pos acted]
    simp [markAt, closed]
  obtain ⟨born, same⟩ := told_born sound next tells
  obtain ⟨life, after, replayed, -, fits, -, afterFits, continues⟩ := step_life sound lives next born same
  rcases continues with ⟨silent, -⟩ | ⟨mark, marked, goes⟩
  · rw [tells] at silent
    cases silent
  · obtain rfl := Option.some.inj (tells.symm.trans marked)
    have summary := replay_summary replayed
    have before := fits_state fits
    have later := fits_state afterFits
    cases Life.next_step goes with
    | ended =>
      obtain ⟨given, handed⟩ := summary.given ConnectionState.noConfusion
      exact ⟨slot, caller, closeAnswer, rfl, acted, before, later, given, handed⟩

end

/-- Termination is decided once: of every connection of every run the end is claimed at most
    once and its descriptor given to ck_socket_close at most once, the word keeps the event
    of the claim and the cycle, and every step keeps to the rules of Decides. -/
theorem termination_decided_once {history : List (Move × Answer)} {s : System}
    (runs : Runs step start history s) :
    (∀ connection : Instance, (claims connection history).length ≤ 1 ∧
        (closedSockets connection history).length ≤ 1 ∧
        ∀ socketFd ∈ closedSockets connection history, attachedSockets connection history = [socketFd]) ∧
      (∀ slot, 0 < s.births slot →
        (WordEnded (s.word slot) ↔ claims (s.current slot) history ≠ []) ∧
        (∀ event ∈ claims (s.current slot) history, unpackEvent (s.word slot) = event) ∧
        ∀ cycleId ∈ startedCycles (s.current slot) history, unpackCycle (s.word slot) = cycleId) ∧
      ∀ {move : Move} {t : System} {answer : Answer}, step s move = some (t, answer) →
        Decides history s move t answer := by
  obtain ⟨sound, lives⟩ := runs_lives runs
  refine ⟨?_, ?_, ?_⟩
  · intro connection
    obtain ⟨life, replayed⟩ := lives.possible connection
    exact (replay_summary replayed).once
  · intro slot born
    obtain ⟨life, replayed, valid, fits⟩ := lives.now slot born
    have summary := replay_summary replayed
    rw [fits_ended fits valid, fits_cycle fits valid]
    unfold claims startedCycles
    rw [summary.claims, summary.cycles]
    refine ⟨?_, ?_, ?_⟩
    · cases claimed : life.phase.claim with
      | none => simp
      | some event =>
        simp only [Option.some.injEq, Option.toList_some, ne_eq, List.cons_ne_self, not_false_eq_true, iff_true]
        refine ⟨event, rfl, ?_, valid.event event claimed⟩
        rw [System.word, fits.word, word_event claimed (valid.event event claimed)]
    · intro event inside
      rw [Option.mem_toList] at inside
      rw [System.word, fits.word, word_event inside (valid.event event inside)]
    · intro cycleId inside
      split at inside
      · cases inside
      · exact (List.mem_singleton.mp inside).symm
  · intro move t answer next
    exact {
      moves := fun _ born same => step_moves sound lives next born same
      born := by
        intro slot changed
        rcases births_step next slot with same | ⟨-, -, fits⟩
        · exact absurd same changed
        · exact fits_state fits
      keeps := fun _ born same ended => step_keeps_end sound lives next born same ended
      claim := fun _ _ tells => step_claim sound lives next tells
      told := fun _ terminal won => step_told sound next terminal won
      late := fun _ _ _ terminal acted returned valued ended =>
        step_late sound lives next terminal acted returned valued ended
      mismatch := by
        rintro caller cycleId event slot rfl found other
        exact step_mismatch sound next found other
      closes := fun _ closed => step_closes sound lives next closed }

def openWord : Nat := ckConnectionPack .opened (-1) 0

def waitingWord : Nat := ckConnectionPack .asyncWait (-1) 281474976710655

/-- A pin holder loads the word before the cycle starts, so its first exchange fails; then it
    wins against the registry call, and the close gives descriptor 11 away. -/
def sampleMoves : List Move :=
  [.call sampleRegister, .call (.attachSocket sampleCaller 11),
    .call (.acquire .reader sampleCaller .zero), .begin samplePin 1, .load ⟨0, 1, none⟩,
    .call (.startAsyncCycle sampleCaller 281474976710655), .exchange ⟨0, 1, some openWord⟩ false,
    .exchange ⟨0, 1, some waitingWord⟩ true, .exchange ⟨0, 1, some waitingWord⟩ false,
    .call (.tryTerminal sampleCaller 281474976710655 0), .call (.release .reader samplePin.pin),
    .call (.close sampleCaller 0)]

def sampleRun : List (Move × Answer) × System := (execute step start sampleMoves).getD ([], start)

theorem termination_decided_once_race :
    sampleRun.2.births 0 = 1 ∧ claims (0, 1) sampleRun.1 = [1] ∧ closedSockets (0, 1) sampleRun.1 = [11] ∧
      startedCycles (0, 1) sampleRun.1 = [281474976710655] ∧ unpackEvent (sampleRun.2.word 0) = 1 ∧
      unpackCycle (sampleRun.2.word 0) = 281474976710655 := by
  have executed : execute step start sampleMoves = some (sampleRun.1, sampleRun.2) := rfl
  have born : sampleRun.2.births 0 = 1 := by decide +kernel
  have current : sampleRun.2.current 0 = (0, 1) := by rw [System.current, born]
  have claimed : claims (0, 1) sampleRun.1 = [1] := by decide +kernel
  have started : startedCycles (0, 1) sampleRun.1 = [281474976710655] := by decide +kernel
  obtain ⟨-, event, cycle⟩ := (termination_decided_once (execute_runs executed)).2.1 0 (by omega)
  rw [current, claimed] at event
  rw [current, started] at cycle
  exact ⟨born, claimed, by decide +kernel, started, event 1 (List.mem_singleton.mpr rfl),
    cycle _ (List.mem_singleton.mpr rfl)⟩

end CkartaTermination
