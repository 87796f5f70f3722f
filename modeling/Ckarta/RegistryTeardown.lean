import Ckarta.ConnectionHeap

/-!
The end of a registry: ck_connection_registry_active_count and
ck_connection_registry_destroy of c/connection/ck_connection_registry.c, asked after any
run of ConnectionHeap. Destroy is one step here, with no other call of the registry between
its count and its pthread_mutex_destroy, where src holds no lock. A slot is filled by a
registration and freed by a retirement, which the registry grants only to a closed
connection; so a registry that can be destroyed has given everything back.
-/
namespace CkartaRegistryTeardown
open StepHistory BlockLedger CkartaConnection CkartaConnectionRegistry CkartaRegistryCalls
open CkartaRegistryPins CkartaConnectionLifecycle CkartaTermination
open CkartaConnectionSystem (System Move Answer Instance)

def activeSlots (registry : ConnectionRegistry) : Nat :=
  (List.range registryCapacity).countP fun slot => (registry.entries slot).active

def ckConnectionRegistryActiveCount (registry : ConnectionRegistry) : Int :=
  if !registry.initialized then -1 else activeSlots registry

/-- mutexAnswer is what pthread_mutex_destroy answers. -/
def ckConnectionRegistryDestroy (registry : ConnectionRegistry) (mutexAnswer : Int) :
    Int × ConnectionRegistry :=
  if !registry.initialized then (-1, registry)
  else if ckConnectionRegistryActiveCount registry ≠ 0 then (1, registry)
  else if mutexAnswer ≠ 0 then (-1, registry)
  else (0, { registry with initialized := false })

def isRegistration : Move × Answer → Bool
  | (.call (.register ..), answer) => answer.result == some 0
  | _ => false

def isRetirement : Move × Answer → Bool
  | (.call (.retire _), answer) => answer.result == some 0
  | _ => false

inductive Occupies (s t : System) (entry : Move × Answer) : Prop where
  | keeps (active : ∀ slot, (t.registry.entries slot).active = (s.registry.entries slot).active)
      (births : t.births = s.births) (unregistered : isRegistration entry = false)
      (unretired : isRetirement entry = false)
  | fills (slot : Nat) (below : slot < registryCapacity)
      (idle : (s.registry.entries slot).active = false)
      (taken : (t.registry.entries slot).active = true)
      (others : ∀ other, other ≠ slot →
        (t.registry.entries other).active = (s.registry.entries other).active)
      (births : t.births = Function.update s.births slot (s.births slot + 1))
      (registered : isRegistration entry = true) (unretired : isRetirement entry = false)
  | frees (slot : Nat) (below : slot < registryCapacity)
      (taken : (s.registry.entries slot).active = true)
      (idle : (t.registry.entries slot).active = false)
      (others : ∀ other, other ≠ slot →
        (t.registry.entries other).active = (s.registry.entries other).active)
      (births : t.births = s.births) (closed : unpackState (t.word slot) = ConnectionState.closed.code)
      (unregistered : isRegistration entry = false) (retired : isRetirement entry = true)

theorem action_active (op : Op) (index : Nat) (entry : Entry) :
    (action op index entry).2.active = entry.active ∨
      ∃ caller, op = .retire caller ∧ (action op index entry).1.result = 0 ∧
        (action op index entry).2 = { entry with active := false } ∧
        unpackState entry.connection.lifecycle = ConnectionState.closed.code := by
  cases op with
  | register connectionId requestId ownerToken lifetimeToken allocation => exact .inl rfl
  | attachSocket caller socketFd => exact .inl rfl
  | startAsyncCycle caller cycleId => exact .inl rfl
  | tryTerminal caller cycleId event => exact .inl rfl
  | acquire kind caller pin =>
    left
    simp only [action]
    split
    · rfl
    · exact setUsers_active _ _ _
  | release kind pin =>
    left
    simp only [action]
    split
    · rfl
    · exact setUsers_active _ _ _
  | close caller closeAnswer =>
    left
    simp only [action]
    split <;> rfl
  | retire caller =>
    simp only [action]
    split
    · exact .inl rfl
    · rename_i granted
      have closed : unpackState entry.connection.lifecycle = ConnectionState.closed.code := by
        by_contra unclosed
        exact granted (.inr (.inr (.inl unclosed)))
      exact .inr ⟨caller, rfl, rfl, rfl, closed⟩

theorem retire_kept {index : Nat} {entry : Entry} {caller : Caller}
    (active : entry.active = true)
    (kept : (action (.retire caller) index entry).2.active = entry.active) :
    (action (.retire caller) index entry).1.result ≠ 0 := by
  simp only [action] at kept ⊢
  split at kept
  · rename_i refused
    rw [if_pos refused]
    exact one_ne_zero
  · simp [active] at kept

theorem acts_occupies {s t : System} {op : Op} {answer : Answer} {index : Nat}
    (acts : Acts s.registry op index)
    (next : CkartaConnectionSystem.step s (.call op) = some (t, answer)) :
    Occupies s t (.call op, answer) := by
  obtain ⟨handle, names, found⟩ := acts.found
  obtain ⟨active, decoded⟩ := CkartaRegistrySlots.find_decodes.mp found
  have untried := attemptedSlot_target s.registry names
  simp only [CkartaConnectionSystem.step, CkartaConnectionSystem.birthsAfter, untried, acts.result,
    Option.some.injEq, Prod.mk.injEq] at next
  obtain ⟨rfl, rfl⟩ := next
  obtain kept | ⟨caller, rfl, result, freed, closed⟩ := action_active op index (s.registry.entries index)
  · apply Occupies.keeps
    · intro slot
      by_cases here : slot = index
      · subst here
        simpa using kept
      · simp only [set_other _ _ here]
    · rfl
    · cases op with
      | register connectionId requestId ownerToken lifetimeToken allocation => cases names
      | _ => rfl
    · cases op with
      | retire caller =>
        have refused := retire_kept active kept
        simpa [isRetirement] using refused
      | _ => rfl
  · apply Occupies.frees index (CkartaRegistrySlots.decodeHandle_iff.mp decoded).1 active
    · simp [freed]
    · intro other away
      simp only [set_other _ _ away]
    · rfl
    · simpa [CkartaConnectionSystem.System.word, freed] using closed
    · rfl
    · simp [isRetirement, result]

theorem registers_occupies {s t : System} {op : Op} {answer : Answer} {index : Nat}
    (registers : Registers s.registry op index)
    (next : CkartaConnectionSystem.step s (.call op) = some (t, answer)) :
    Occupies s t (.call op, answer) := by
  have births := registers_births registers
  simp only [CkartaConnectionSystem.step, registers.changed, births, Option.some.injEq,
    Prod.mk.injEq] at next
  obtain ⟨connectionId, requestId, ownerToken, lifetimeToken, allocation, rfl⟩ :=
    register_of_tried registers.tried
  obtain ⟨rfl, rfl⟩ := next
  cases made : (registration s.registry index
      (.register connectionId requestId ownerToken lifetimeToken allocation)).1 with
  | true =>
    apply Occupies.fills index registers.slot registers.idle
    · simp
    · intro other away
      simp only [set_other _ _ away]
    · simp
    · simp [isRegistration, registers.replied, made]
    · rfl
  | false =>
    apply Occupies.keeps
    · intro slot
      by_cases here : slot = index
      · subst here
        simp [registers.idle]
      · simp only [set_other _ _ here]
    · simp
    · simp [isRegistration, registers.replied, made, CkartaConnectionRegistry.answer]
    · rfl

theorem step_occupies {s t : System} {move : Move} {answer : Answer}
    (next : CkartaConnectionSystem.step s move = some (t, answer)) : Occupies s t (move, answer) := by
  by_cases isCall : ∃ op, move = .call op
  · obtain ⟨op, rfl⟩ := isCall
    obtain ⟨result, failed, refused, untried⟩ | ⟨index, acts⟩ | ⟨index, registers⟩ :=
      call_changes s.registry op
    · simp only [CkartaConnectionSystem.step, CkartaConnectionSystem.birthsAfter, untried, refused,
        Option.some.injEq, Prod.mk.injEq] at next
      obtain ⟨rfl, rfl⟩ := next
      apply Occupies.keeps
      · intro slot
        rfl
      · rfl
      · cases op <;> simp [isRegistration, failed]
      · cases op <;> simp [isRetirement, failed]
    · exact acts_occupies acts next
    · exact registers_occupies registers next
  · have thread : ∀ op, move ≠ .call op := fun op called => isCall ⟨op, called⟩
    obtain ⟨births, -, changed⟩ := step_thread next thread
    apply Occupies.keeps
    · intro slot
      obtain same | ⟨won, event, cycleId, same⟩ := changed
      · rw [same]
      · rw [same]
        exact (setWord_keeps s.registry won slot event cycleId).active
    · exact births
    · cases move with
      | call op => exact absurd rfl (thread op)
      | _ => rfl
    · cases move with
      | call op => exact absurd rfl (thread op)
      | _ => rfl

theorem countP_joined {count slot : Nat} {old new : Nat → Bool} (below : slot < count)
    (out : old slot = false) (joined : new slot = true)
    (others : ∀ other, other ≠ slot → new other = old other) :
    (List.range count).countP new = (List.range count).countP old + 1 := by
  induction count with
  | zero => cases below
  | succ count ih =>
    rw [List.range_succ, List.countP_append, List.countP_append]
    by_cases last : slot = count
    · subst last
      have same : (List.range slot).countP new = (List.range slot).countP old := by
        apply List.countP_congr
        intro other member
        have less := List.mem_range.mp member
        rw [others other (by omega)]
      simp [same, out, joined]
    · rw [ih (by omega), List.countP_singleton, List.countP_singleton,
        others count fun same => last same.symm]
      omega

def Closed (history : List (Move × Answer)) (connection : Instance) : Prop :=
  ∃ life, replay (log markOf connection history) = some life ∧ life.phase.state = .closed

/-- The slots in use are those that were filled and not freed, and what left its slot was
closed before. -/
structure Holds (history : List (Move × Answer)) (s : System) : Prop where
  count : activeSlots s.registry + history.countP isRetirement = history.countP isRegistration
  idle : ∀ slot, 0 < s.births slot → (s.registry.entries slot).active = false →
    unpackState (s.word slot) = ConnectionState.closed.code
  past : ∀ slot birth, 0 < birth → birth < s.births slot → Closed history (slot, birth)
  inside : ∀ slot, 0 < s.births slot → slot < registryCapacity

theorem Occupies.count {s t : System} {entry : Move × Answer} {history : List (Move × Answer)}
    (occupies : Occupies s t entry)
    (count : activeSlots s.registry + history.countP isRetirement = history.countP isRegistration) :
    activeSlots t.registry + (history ++ [entry]).countP isRetirement =
      (history ++ [entry]).countP isRegistration := by
  rw [List.countP_append, List.countP_append, List.countP_singleton, List.countP_singleton]
  cases occupies with
  | keeps active births unregistered unretired =>
    have same : activeSlots t.registry = activeSlots s.registry := by
      simp only [activeSlots, active]
    simp only [same, unregistered, unretired, Bool.false_eq_true, ↓reduceIte]
    omega
  | fills slot below idle taken others births registered unretired =>
    have more : activeSlots t.registry = activeSlots s.registry + 1 :=
      countP_joined below idle taken others
    simp only [more, registered, unretired, Bool.false_eq_true, ↓reduceIte]
    omega
  | frees slot below taken idle others births closed unregistered retired =>
    have fewer : activeSlots s.registry = activeSlots t.registry + 1 :=
      countP_joined below idle taken fun other away => (others other away).symm
    simp only [unregistered, retired, Bool.false_eq_true, ↓reduceIte]
    omega

theorem Occupies.inside {s t : System} {entry : Move × Answer} (occupies : Occupies s t entry)
    (inside : ∀ slot, 0 < s.births slot → slot < registryCapacity) (slot : Nat)
    (born : 0 < t.births slot) : slot < registryCapacity := by
  cases occupies with
  | keeps active births unregistered unretired => exact inside slot (births ▸ born)
  | frees freed below taken idle others births closed unregistered retired =>
    exact inside slot (births ▸ born)
  | fills filled below idle taken others births registered unretired =>
    by_cases here : slot = filled
    · rw [here]
      exact below
    · rw [births, Function.update_of_ne here] at born
      exact inside slot born

theorem closed_stays {history : List (Move × Answer)} {s t : System} {move : Move} {answer : Answer}
    (sound : Sound s) (lives : Lives history s)
    (next : CkartaConnectionSystem.step s move = some (t, answer)) {slot : Nat}
    (born : 0 < s.births slot) (same : t.births slot = s.births slot)
    (closed : unpackState (s.word slot) = ConnectionState.closed.code) :
    unpackState (t.word slot) = ConnectionState.closed.code := by
  obtain ⟨old, new, before, after, edge⟩ := step_moves sound lives next born same
  rw [closed] at before
  rw [after]
  cases edge with
  | stays => exact before.symm
  | starts => cases before
  | ends => cases before
  | endsWaiting => cases before
  | closes => rfl

theorem Occupies.idle {history : List (Move × Answer)} {s t : System} {move : Move} {answer : Answer}
    (occupies : Occupies s t (move, answer)) (sound : Sound s) (lives : Lives history s)
    (next : CkartaConnectionSystem.step s move = some (t, answer))
    (idle : ∀ slot, 0 < s.births slot → (s.registry.entries slot).active = false →
      unpackState (s.word slot) = ConnectionState.closed.code) (slot : Nat)
    (born : 0 < t.births slot) (inactive : (t.registry.entries slot).active = false) :
    unpackState (t.word slot) = ConnectionState.closed.code := by
  have stays : t.births slot = s.births slot →
      (t.registry.entries slot).active = (s.registry.entries slot).active →
      unpackState (t.word slot) = ConnectionState.closed.code := by
    intro same active
    rw [same] at born
    exact closed_stays sound lives next born same (idle slot born (active ▸ inactive))
  cases occupies with
  | keeps active births unregistered unretired => exact stays (by rw [births]) (active slot)
  | fills filled below before taken others births registered unretired =>
    have away : slot ≠ filled := by
      intro here
      subst here
      simp [taken] at inactive
    exact stays (by rw [births, Function.update_of_ne away]) (others slot away)
  | frees freed below taken after others births closed unregistered retired =>
    by_cases here : slot = freed
    · subst here
      exact closed
    · exact stays (by rw [births]) (others slot here)

theorem closed_past {history : List (Move × Answer)} {s t : System} {move : Move} {answer : Answer}
    (sound : Sound s) (next : CkartaConnectionSystem.step s move = some (t, answer))
    {connection : Instance} (gone : connection ≠ s.current connection.1)
    (closed : Closed history connection) : Closed (history ++ [(move, answer)]) connection := by
  have untold : told markOf connection (move, answer) = none := by
    rw [told_eq]
    split
    · rename_i acted
      exact absurd (step_acted sound next acted).1 gone
    · rfl
  unfold Closed
  rw [log_snoc, untold]
  simpa [Closed] using closed

theorem current_closed {history : List (Move × Answer)} {s : System} (lives : Lives history s)
    {slot : Nat} (born : 0 < s.births slot)
    (closed : unpackState (s.word slot) = ConnectionState.closed.code) :
    Closed history (s.current slot) := by
  obtain ⟨life, replayed, valid, fits⟩ := lives.now slot born
  refine ⟨life, replayed, ?_⟩
  have code := fits_state fits
  rw [closed] at code
  cases state : life.phase.state with
  | closed => rfl
  | _ =>
    rw [state] at code
    cases code

theorem Holds.step {history : List (Move × Answer)} {s t : System} {move : Move} {answer : Answer}
    (holds : Holds history s) (sound : Sound s) (lives : Lives history s)
    (next : CkartaConnectionSystem.step s move = some (t, answer)) :
    Holds (history ++ [(move, answer)]) t := by
  have occupies := step_occupies next
  refine ⟨occupies.count holds.count, occupies.idle sound lives next holds.idle, ?_,
    occupies.inside holds.inside⟩
  intro slot birth born before
  by_cases earlier : birth < s.births slot
  · refine closed_past sound next ?_ (holds.past slot birth born earlier)
    intro current
    have same : birth = s.births slot := congrArg Prod.snd current
    omega
  · -- the slot was filled again, so its connection was closed and retired before
    cases occupies with
    | keeps active births unregistered unretired =>
      rw [births] at before
      omega
    | frees freed below taken after others births closed unregistered retired =>
      rw [births] at before
      omega
    | fills filled below idle taken others births registered unretired =>
      by_cases here : slot = filled
      · subst here
        rw [births, Function.update_self] at before
        obtain rfl : birth = s.births slot := by omega
        have closed := current_closed lives born (holds.idle slot born idle)
        obtain ⟨life, replayed, state⟩ := closed
        have untold : told markOf (s.current slot) (move, answer) = none := by
          by_contra tells
          obtain ⟨mark, told⟩ := Option.ne_none_iff_exists'.mp tells
          obtain ⟨-, same⟩ := told_born sound next told
          rw [births, Function.update_self] at same
          omega
        refine ⟨life, ?_, state⟩
        rw [log_snoc]
        have current : (slot, s.births slot) = s.current slot := rfl
        rw [current, untold]
        simpa using replayed
      · rw [births, Function.update_of_ne here] at before
        omega

theorem runs_hold {history : List (Move × Answer)} {s : System}
    (runs : Runs CkartaConnectionSystem.step CkartaConnectionSystem.start history s) :
    Holds history s := by
  apply runs.invariant fun history s => Holds history s
  · refine ⟨?_, ?_, ?_, ?_⟩
    · simp [activeSlots, CkartaConnectionSystem.start, ckConnectionRegistryInit, zeroEntry]
    · intro slot born
      cases born
    · intro slot birth born before
      cases before
    · intro slot born
      cases born
  · intro history s t move answer before holds next
    obtain ⟨sound, lives⟩ := runs_lives before
    exact holds.step sound lives next

def innerHistory (history : List (CkartaConnectionHeap.Move × Answer)) : List (Move × Answer) :=
  history.map fun entry => (entry.1.inner, entry.2)

theorem runs_inner {history : List (CkartaConnectionHeap.Move × Answer)}
    {s : CkartaConnectionHeap.System}
    (runs : Runs CkartaConnectionHeap.step CkartaConnectionHeap.start history s) :
    Runs CkartaConnectionSystem.step CkartaConnectionSystem.start (innerHistory history) s.inner := by
  apply runs.invariant fun history s =>
    Runs CkartaConnectionSystem.step CkartaConnectionSystem.start (innerHistory history) s.inner
  · exact .start
  · intro history s t move answer before inner next
    rw [innerHistory, List.map_append]
    exact .step inner (CkartaConnectionHeap.step_inner next)

theorem no_active_slot {registry : ConnectionRegistry} (empty : activeSlots registry = 0) {slot : Nat}
    (below : slot < registryCapacity) : (registry.entries slot).active = false := by
  unfold activeSlots at empty
  rw [List.countP_eq_zero] at empty
  simpa using empty slot (List.mem_range.mpr below)

theorem destroyed_refuses {registry : ConnectionRegistry} (destroyed : registry.initialized = false)
    (op : Op) : call registry op = (refusal op (-1), registry) := by
  cases names : target op with
  | none =>
    obtain ⟨connectionId, requestId, ownerToken, lifetimeToken, allocation, rfl⟩ :=
      register_of_unnamed names
    simp [call, ckConnectionRegistryRegister, destroyed, refusal]
  | some handle =>
    by_cases bad : malformed op
    · exact call_malformed registry bad
    · rw [call_target registry names bad]
      simp [operate, destroyed]

/-- What a run that ends with a destroyed registry leaves: no memory but the bodies that
failed registrations lost, no descriptor that was not closed, and no call that works. -/
structure TornDown (history : List (CkartaConnectionHeap.Move × Answer))
    (s : CkartaConnectionHeap.System) (after : ConnectionRegistry) : Prop where
  memory : s.heap.live.Perm (CkartaConnectionHeap.leaks history)
  descriptors : ∀ connection : Instance, 0 < connection.2 →
    connection.2 ≤ s.inner.births connection.1 →
    attachedSockets connection (innerHistory history) = closedSockets connection (innerHistory history)
  refuses : ∀ op, call after op = (refusal op (-1), after)

/-- In every run the slots in use are the registrations that were not retired; the registry
can be destroyed exactly when there are none, and then everything was given back. -/
theorem registry_teardown {history : List (CkartaConnectionHeap.Move × Answer)}
    {s : CkartaConnectionHeap.System}
    (runs : Runs CkartaConnectionHeap.step CkartaConnectionHeap.start history s) :
    ckConnectionRegistryActiveCount s.inner.registry + (innerHistory history).countP isRetirement =
        (innerHistory history).countP isRegistration ∧
      ((ckConnectionRegistryDestroy s.inner.registry 0).1 = 0 ↔
        (innerHistory history).countP isRetirement = (innerHistory history).countP isRegistration) ∧
      ((ckConnectionRegistryDestroy s.inner.registry 0).1 = 0 →
        TornDown history s (ckConnectionRegistryDestroy s.inner.registry 0).2) := by
  have inner := runs_inner runs
  have holds := runs_hold inner
  obtain ⟨sound, lives⟩ := runs_lives inner
  have counted : ckConnectionRegistryActiveCount s.inner.registry = activeSlots s.inner.registry := by
    simp [ckConnectionRegistryActiveCount, sound.ready]
  have total := holds.count
  have destroys : (ckConnectionRegistryDestroy s.inner.registry 0).1 = 0 ↔
      activeSlots s.inner.registry = 0 := by
    by_cases empty : activeSlots s.inner.registry = 0
    · simp [ckConnectionRegistryDestroy, sound.ready, counted, empty]
    · simp [ckConnectionRegistryDestroy, sound.ready, counted, empty]
  refine ⟨?_, ?_, ?_⟩
  · rw [counted]
    omega
  · rw [destroys]
    omega
  · intro destroyed
    have empty := destroys.mp destroyed
    refine ⟨?_, ?_, ?_⟩
    · have released : holdings registryCapacity (CkartaConnectionHeap.owned s) = [] := by
        unfold holdings
        rw [List.flatMap_eq_nil_iff]
        intro slot member
        have inactive := no_active_slot empty (List.mem_range.mp member)
        simp [CkartaConnectionHeap.owned, CkartaConnectionHeap.isOpen, inactive]
      have live := (CkartaConnectionHeap.runs_accounted runs).holds.live
      rwa [released, List.nil_append] at live
    · intro connection born before
      have closed : Closed (innerHistory history) connection := by
        obtain ⟨slot, birth⟩ := connection
        by_cases earlier : birth < s.inner.births slot
        · exact holds.past slot birth born earlier
        · obtain rfl : birth = s.inner.births slot := by
            dsimp only at before
            omega
          have inactive := no_active_slot empty (holds.inside slot born)
          exact current_closed lives born (holds.idle slot born inactive)
      obtain ⟨life, replayed, state⟩ := closed
      exact ((replay_summary replayed).handed state).1
    · have after : (ckConnectionRegistryDestroy s.inner.registry 0).2.initialized = false := by
        simp [ckConnectionRegistryDestroy, sound.ready, counted, empty]
      exact destroyed_refuses after

/-- A connection is registered, given a descriptor, ended, closed and retired; the one after
it fails at its last malloc. -/
def sampleMoves : List CkartaConnectionHeap.Move :=
  [.register 3 7 5 9 ⟨some 10, some 11, some 12, some 13⟩,
    .other (.call (.attachSocket sampleCaller 6)), .other (.call (.startAsyncCycle sampleCaller 1)),
    .other (.call (.tryTerminal sampleCaller 1 0)), .other (.call (.close sampleCaller 0)),
    .other (.call (.retire sampleCaller)), .register 4 8 5 9 ⟨some 20, some 21, some 22, none⟩]

def sampleRun : List (CkartaConnectionHeap.Move × Answer) × CkartaConnectionHeap.System :=
  (execute CkartaConnectionHeap.step CkartaConnectionHeap.start sampleMoves).getD
    ([], CkartaConnectionHeap.start)

theorem registry_teardown_sample :
    sampleRun.2.heap.live.Perm [22] ∧ closedSockets (0, 1) (innerHistory sampleRun.1) = [6] := by
  have executed : execute CkartaConnectionHeap.step CkartaConnectionHeap.start sampleMoves =
      some (sampleRun.1, sampleRun.2) := rfl
  obtain ⟨-, destroys, torn⟩ := registry_teardown (execute_runs executed)
  have destroyed := destroys.mpr rfl
  have attached : attachedSockets (0, 1) (innerHistory sampleRun.1) = [6] := rfl
  exact ⟨(torn destroyed).memory,
    ((torn destroyed).descriptors (0, 1) Nat.one_pos (le_refl 1)).symm.trans attached⟩

end CkartaRegistryTeardown
