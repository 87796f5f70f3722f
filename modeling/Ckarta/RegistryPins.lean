import Ckarta.RegistrySlots
import Ckarta.ConnectionSystem

/-!
A pin keeps its connection alive. The counters of an entry are the numbers of pins that
are out on it, and close and retire look at them, so whatever a pin names stays until the
pin is released.
-/
namespace CkartaRegistryPins
open MachineWord StepHistory CkartaConnection CkartaConnectionRegistry CkartaRegistryCalls
open CkartaConnectionSystem

def isOn (kind : PinKind) (slot : Nat) (held : Held) : Bool :=
  held.kind == kind && held.pin.connection == some slot

def outstanding (held : List Held) (kind : PinKind) (slot : Nat) : Nat := held.countP (isOn kind slot)

/-- A pin is released only while it is out, and fewer than 2^32 are out at a time. A pin that
    was released is all zero and may be given to release again. -/
def careful (s : System) : Move → Bool
  | .call (.release kind pin) => s.held.any (isPin kind pin) || pin.connection == none
  | .call (.acquire kind caller _) =>
    match find s.registry caller.handle with
    | some slot => decide (outstanding s.held kind slot + 1 < 4294967296)
    | none => true
  | _ => true

def carefulStep (s : System) (move : Move) : Option (System × Answer) :=
  if careful s move then step s move else none

/-- The connection a pin is on is the one it was acquired on, with what the pin names. -/
structure Alive (s : System) (held : Held) (slot : Nat) : Prop where
  pointer : held.pin.connection = some slot
  handle : decodeHandle held.pin.handle.val = some (slot, (s.registry.entries slot).generation)
  active : (s.registry.entries slot).active = true
  unclosed : unpackState (s.word slot) ≠ ConnectionState.closed.code
  object : (s.registry.entries slot).connection.object held.kind = held.pin.object
  present : held.pin.object ≠ none
  same : s.births slot = held.birth

structure Pinned (s : System) : Prop where
  ready : s.registry.initialized = true
  users : ∀ kind slot, (s.registry.entries slot).users kind = outstanding s.held kind slot
  alive : ∀ held ∈ s.held, ∃ slot, Alive s held slot

structure Keeps (old new : Entry) : Prop where
  generation : new.generation = old.generation
  active : new.active = old.active
  objects : ∀ kind, new.connection.object kind = old.connection.object kind
  unclosed : unpackState old.connection.lifecycle ≠ ConnectionState.closed.code →
    unpackState new.connection.lifecycle ≠ ConnectionState.closed.code

theorem Keeps.refl (entry : Entry) : Keeps entry entry := ⟨rfl, rfl, fun _ => rfl, id⟩

theorem closing_unclosed (event : Int) (cycleId : Nat) :
    unpackState (ckConnectionPack .closing event cycleId) ≠ ConnectionState.closed.code := by
  rw [unpackState_pack]
  decide

theorem attach_keeps (entry : Entry) (socketFd : Int) :
    Keeps entry { entry with connection := (ckConnectionAttachSocket entry.connection socketFd).2 } := by
  have kept : (ckConnectionAttachSocket entry.connection socketFd).2.toConnection =
        entry.connection.toConnection ∧
      ∀ kind, (ckConnectionAttachSocket entry.connection socketFd).2.object kind =
        entry.connection.object kind := by
    unfold ckConnectionAttachSocket
    refine ⟨?_, fun kind => ?_⟩
    · repeat' split
      all_goals rfl
    · cases kind <;> repeat' split
      all_goals rfl
  refine ⟨rfl, rfl, kept.2, ?_⟩
  simp only [kept.1]
  exact id

theorem start_unclosed (connection : Connection) (cycleId : Nat)
    (unclosed : unpackState connection.lifecycle ≠ ConnectionState.closed.code) :
    unpackState (ckConnectionStartAsyncCycle connection cycleId).2.lifecycle ≠
      ConnectionState.closed.code := by
  unfold ckConnectionStartAsyncCycle
  split
  · exact unclosed
  · split
    · dsimp only
      rw [unpackState_pack]
      decide
    · exact unclosed

theorem terminal_unclosed (connection : Connection) (event : Int)
    (unclosed : unpackState connection.lifecycle ≠ ConnectionState.closed.code) :
    unpackState (ckConnectionTryTerminal connection event).2.lifecycle ≠ ConnectionState.closed.code := by
  unfold ckConnectionTryTerminal
  dsimp only
  split
  · exact unclosed
  · split
    · split
      · exact unclosed
      · exact unclosed
    · split
      · exact unclosed
      · exact closing_unclosed _ _

theorem action_keeps (op : Op) (index : Nat) {entry : Entry} {kind : PinKind}
    (used : entry.users kind ≠ 0) : Keeps entry (action op index entry).2 := by
  have inUse : entry.readerUsers ≠ 0 ∨ entry.outputUsers ≠ 0 := by
    cases kind with
    | reader => exact .inl used
    | output => exact .inr used
  cases op with
  | register connectionId requestId ownerToken lifetimeToken allocation => exact .refl entry
  | attachSocket caller socketFd => exact attach_keeps entry socketFd
  | startAsyncCycle caller cycleId =>
    exact ⟨rfl, rfl, fun kind => by cases kind <;> rfl, start_unclosed _ cycleId⟩
  | tryTerminal caller cycleId event =>
    exact ⟨rfl, rfl, fun kind => by cases kind <;> rfl, terminal_unclosed _ event⟩
  | acquire wanted caller pin =>
    simp only [action]
    split
    · exact .refl entry
    · constructor <;> simp
  | release wanted pin =>
    simp only [action]
    split
    · exact .refl entry
    · constructor <;> simp
  | close caller closeAnswer =>
    simp only [action, if_pos inUse]
    exact .refl entry
  | retire caller =>
    have held : entry.readerUsers ≠ 0 ∨ entry.outputUsers ≠ 0 ∨
        unpackState entry.connection.lifecycle ≠ ConnectionState.closed.code ∨
        entry.connection.socketFd ≥ 0 := inUse.elim .inl (fun output => .inr (.inl output))
    simp only [action, if_pos held]
    exact .refl entry

theorem setWord_keeps (registry : ConnectionRegistry) (at_ slot : Nat) (event : Int) (cycleId : Nat) :
    Keeps (registry.entries slot)
      ((setWord registry at_ (ckConnectionPack .closing event cycleId)).entries slot) := by
  unfold setWord
  by_cases here : slot = at_
  · subst here
    rw [set_same]
    exact ⟨rfl, rfl, fun kind => by cases kind <;> rfl, fun _ => closing_unclosed _ _⟩
  · rw [set_other _ _ here]
    exact .refl _

theorem proceed_registry (s : System) (running : TerminalCall) :
    (proceed s running).1.registry = s.registry ∧ (proceed s running).1.births = s.births ∧
      (proceed s running).1.held = s.held := by
  unfold proceed
  split <;> exact ⟨rfl, rfl, rfl⟩

theorem step_thread {s t : System} {move : Move} {answer : Answer}
    (next : step s move = some (t, answer)) (thread : ∀ op, move ≠ .call op) :
    t.births = s.births ∧ t.held = s.held ∧ (t.registry = s.registry ∨ ∃ slot event cycleId,
      t.registry = setWord s.registry slot (ckConnectionPack .closing event cycleId)) := by
  cases move with
  | call op => exact absurd rfl (thread op)
  | begin held event =>
    simp only [step] at next
    split at next
    · cases next
    · split at next
      · cases next
      · split at next
        · obtain ⟨rfl, -⟩ := Prod.mk.inj (Option.some.inj next)
          exact ⟨rfl, rfl, .inl rfl⟩
        · obtain ⟨rfl, -⟩ := Prod.mk.inj (Option.some.inj next)
          exact ⟨rfl, rfl, .inl rfl⟩
  | load running =>
    simp only [step] at next
    split at next
    · cases next
    · obtain ⟨registry, births, held⟩ := proceed_registry s running
      have state := congrArg Prod.fst (Option.some.inj next)
      dsimp only at state
      rw [state] at registry births held
      exact ⟨births, held, .inl registry⟩
  | exchange running spurious =>
    simp only [step] at next
    split at next
    · cases next
    · split at next
      · cases next
      · split at next
        · obtain ⟨rfl, -⟩ := Prod.mk.inj (Option.some.inj next)
          exact ⟨rfl, rfl, .inr ⟨_, _, _, rfl⟩⟩
        · obtain ⟨registry, births, held⟩ := proceed_registry s running
          have state := congrArg Prod.fst (Option.some.inj next)
          dsimp only at state
          rw [state] at registry births held
          exact ⟨births, held, .inl registry⟩

theorem step_keeps {s t : System} {move : Move} {answer : Answer}
    (next : step s move = some (t, answer)) {slot : Nat} {kind : PinKind}
    (active : (s.registry.entries slot).active = true) (used : (s.registry.entries slot).users kind ≠ 0) :
    Keeps (s.registry.entries slot) (t.registry.entries slot) ∧ t.births slot = s.births slot := by
  by_cases isCall : ∃ op, move = .call op
  · obtain ⟨op, rfl⟩ := isCall
    simp only [step, Option.some.injEq, Prod.mk.injEq] at next
    obtain ⟨rfl, -⟩ := next
    rcases call_changes s.registry op with ⟨result, -, refused, untried⟩ | ⟨index, acts⟩ | ⟨index, registers⟩
    · simp only [refused, birthsAfter, untried]
      exact ⟨.refl _, trivial⟩
    · simp only [acts.result, birthsAfter, acts.untried]
      refine ⟨?_, trivial⟩
      by_cases here : slot = index
      · subst here
        rw [set_same]
        exact action_keeps op slot used
      · rw [set_other _ _ here]
        exact .refl _
    · have other : slot ≠ index := by
        rintro rfl
        rw [registers.idle] at active
        cases active
      simp only [registers.changed, birthsAfter, registers.tried]
      rw [set_other _ _ other]
      refine ⟨.refl _, ?_⟩
      split
      · rw [Function.update_of_ne other]
      · rfl
  · obtain ⟨births, -, same | ⟨at_, event, cycleId, changed⟩⟩ :=
      step_thread next fun op called => isCall ⟨op, called⟩
    · rw [same, births]
      exact ⟨.refl _, rfl⟩
    · rw [changed, births]
      exact ⟨setWord_keeps _ _ _ _ _, rfl⟩

theorem Alive.kept {s t : System} {held : Held} {slot : Nat} (alive : Alive s held slot)
    (keeps : Keeps (s.registry.entries slot) (t.registry.entries slot))
    (births : t.births slot = s.births slot) : Alive t held slot where
  pointer := alive.pointer
  handle := by rw [keeps.generation]; exact alive.handle
  active := by rw [keeps.active]; exact alive.active
  unclosed := keeps.unclosed alive.unclosed
  object := by rw [keeps.objects]; exact alive.object
  present := alive.present
  same := by rw [births]; exact alive.same

theorem Alive.counted {s : System} {held : Held} {slot : Nat} (alive : Alive s held slot)
    (inside : held ∈ s.held) : 0 < outstanding s.held held.kind slot :=
  List.countP_pos_iff.mpr ⟨held, inside, by simp [isOn, alive.pointer]⟩

theorem alive_step {s t : System} {move : Move} {answer : Answer} (pinned : Pinned s)
    (next : step s move = some (t, answer)) {held : Held} (inside : held ∈ s.held) :
    ∃ slot, Alive t held slot := by
  obtain ⟨slot, alive⟩ := pinned.alive held inside
  have used : (s.registry.entries slot).users held.kind ≠ 0 := by
    rw [pinned.users]
    exact Nat.pos_iff_ne_zero.mp (alive.counted inside)
  obtain ⟨keeps, births⟩ := step_keeps next alive.active used
  exact ⟨slot, alive.kept keeps births⟩

theorem idle_unused {s : System} (pinned : Pinned s) {slot : Nat}
    (idle : (s.registry.entries slot).active = false) (kind : PinKind) :
    outstanding s.held kind slot = 0 := by
  apply List.countP_eq_zero.mpr
  intro held inside isHere
  obtain ⟨at_, alive⟩ := pinned.alive held inside
  simp only [isOn, Bool.and_eq_true, beq_iff_eq, alive.pointer, Option.some.injEq] at isHere
  obtain ⟨-, rfl⟩ := isHere
  rw [alive.active] at idle
  cases idle

@[simp] theorem setUsers_users (entry : Entry) (kind other : PinKind) (n : Nat) :
    (entry.setUsers kind n).users other = if other = kind then n else entry.users other := by
  cases kind <;> cases other <;> rfl

theorem action_users {op : Op} (index : Nat) (entry : Entry) (kind : PinKind)
    (noAcquire : ∀ wanted caller pin, op ≠ .acquire wanted caller pin)
    (noRelease : ∀ wanted pin, op ≠ .release wanted pin) :
    (action op index entry).2.users kind = entry.users kind := by
  cases op with
  | acquire wanted caller pin => exact absurd rfl (noAcquire wanted caller pin)
  | release wanted pin => exact absurd rfl (noRelease wanted pin)
  | register connectionId requestId ownerToken lifetimeToken allocation => rfl
  | attachSocket caller socketFd => cases kind <;> rfl
  | startAsyncCycle caller cycleId => cases kind <;> rfl
  | tryTerminal caller cycleId event => cases kind <;> rfl
  | close caller closeAnswer =>
    simp only [action]
    split <;> cases kind <;> rfl
  | retire caller =>
    simp only [action]
    split <;> cases kind <;> rfl

theorem outstanding_cons (held : Held) (rest : List Held) (kind : PinKind) (slot : Nat) :
    outstanding (held :: rest) kind slot = outstanding rest kind slot + if isOn kind slot held then 1 else 0 := by
  unfold outstanding
  rw [List.countP_cons]

theorem outstanding_erase {held : List Held} {kind : PinKind} {pin : Pin} {slot : Nat}
    (out : held.any (isPin kind pin) = true) (pointer : pin.connection = some slot) (other : PinKind)
    (at_ : Nat) :
    outstanding held other at_ = outstanding (held.eraseP (isPin kind pin)) other at_ +
      if other = kind ∧ at_ = slot then 1 else 0 := by
  obtain ⟨first, inside, isIt⟩ := List.any_eq_true.mp out
  obtain ⟨found, before, after, -, isFound, split, erased⟩ := List.exists_of_eraseP inside isIt
  simp only [isPin, Bool.and_eq_true, beq_iff_eq] at isFound
  rw [erased, split]
  unfold outstanding
  rw [List.countP_append, List.countP_append, List.countP_cons]
  have counts : (isOn other at_ found = true) ↔ (other = kind ∧ at_ = slot) := by
    simp only [isOn, isFound.1, isFound.2, pointer, Bool.and_eq_true, beq_iff_eq, Option.some.injEq]
    constructor
    · rintro ⟨rfl, rfl⟩
      exact ⟨rfl, rfl⟩
    · rintro ⟨rfl, rfl⟩
      exact ⟨rfl, rfl⟩
  simp only [counts]
  omega

theorem heldAfter_refused (s : System) (op : Op) {reply : Reply} (refused : reply.result ≠ 0) :
    heldAfter s op reply = s.held := by
  cases op <;> simp [heldAfter, refused]

theorem users_set {s : System} (pinned : Pinned s) {index : Nat} {entry : Entry} {held : List Held}
    (here : ∀ kind, entry.users kind = outstanding held kind index)
    (away : ∀ kind slot, slot ≠ index → outstanding held kind slot = outstanding s.held kind slot)
    (kind : PinKind) (slot : Nat) :
    ((s.registry.set index entry).entries slot).users kind = outstanding held kind slot := by
  by_cases same : slot = index
  · subst same
    rw [set_same]
    exact here kind
  · rw [set_other _ _ same, pinned.users, away kind slot same]

theorem users_acquire {s : System} (pinned : Pinned s) {wanted : PinKind} {caller : Caller} {pin : Pin}
    {index : Nat} (okay : careful s (.call (.acquire wanted caller pin)) = true)
    (acts : Acts s.registry (.acquire wanted caller pin) index) (kind : PinKind) (slot : Nat) :
    ((call s.registry (.acquire wanted caller pin)).2.entries slot).users kind =
      outstanding (heldAfter s (.acquire wanted caller pin) (call s.registry (.acquire wanted caller pin)).1)
        kind slot := by
  obtain ⟨handle, names, found⟩ := acts.found
  obtain rfl : caller.handle = handle := Option.some.inj names
  rw [acts.result]
  apply users_set pinned
  all_goals
    simp only [action]
    split
  · intro kind
    rw [heldAfter_refused s _ (by simp [answerPin])]
    exact pinned.users kind index
  · intro kind
    simp only [careful, found, decide_eq_true_eq] at okay
    simp only [heldAfter, answerPin, ↓reduceIte, Option.getD_some, setUsers_users, outstanding_cons]
    rw [pinned.users, pinned.users]
    by_cases same : kind = wanted
    · subst same
      simp only [↓reduceIte, isOn, beq_self_eq_true, Bool.and_self]
      exact Nat.mod_eq_of_lt okay
    · simp [same, isOn, Ne.symm same]
  · intro kind slot _
    rw [heldAfter_refused s _ (by simp [answerPin])]
  · intro kind slot other
    simp [heldAfter, answerPin, outstanding_cons, isOn, Ne.symm other]

theorem users_release {s : System} (pinned : Pinned s) {wanted : PinKind} {pin : Pin} {index : Nat}
    (okay : careful s (.call (.release wanted pin)) = true)
    (acts : Acts s.registry (.release wanted pin) index) (kind : PinKind) (slot : Nat) :
    ((call s.registry (.release wanted pin)).2.entries slot).users kind =
      outstanding (heldAfter s (.release wanted pin) (call s.registry (.release wanted pin)).1) kind slot := by
  rw [acts.result]
  by_cases refused : some index ≠ pin.connection ∨
      (s.registry.entries index).connection.object wanted ≠ pin.object ∨
      (s.registry.entries index).users wanted = 0
  · simp only [action, if_pos refused, set_unchanged]
    rw [heldAfter_refused s _ (by simp [answerPin])]
    exact pinned.users kind slot
  · have pointer : pin.connection = some index := by
      by_contra other
      exact refused (.inl (Ne.symm other))
    have out : s.held.any (isPin wanted pin) = true := by
      simpa [careful, pointer] using okay
    simp only [action, if_neg refused]
    have counts := outstanding_erase out pointer
    apply users_set pinned
    · intro kind
      have count := counts kind index
      simp only [setUsers_users, heldAfter, answerPin, ↓reduceIte]
      rw [pinned.users, pinned.users]
      by_cases same : kind = wanted
      · subst same
        simp only [and_self, ↓reduceIte] at count ⊢
        omega
      · simp only [same, false_and, ↓reduceIte] at count ⊢
        omega
    · intro kind slot other
      have count := counts kind slot
      simp only [other, and_false, ↓reduceIte] at count
      simp only [heldAfter, answerPin, ↓reduceIte]
      omega

theorem users_call {s : System} (pinned : Pinned s) {op : Op} (okay : careful s (.call op) = true)
    (kind : PinKind) (slot : Nat) :
    ((call s.registry op).2.entries slot).users kind =
      outstanding (heldAfter s op (call s.registry op).1) kind slot := by
  rcases call_changes s.registry op with ⟨result, failed, refused, -⟩ | ⟨index, acts⟩ | ⟨index, registers⟩
  · rw [refused, heldAfter_refused s op (by rwa [refusal_result])]
    exact pinned.users kind slot
  · by_cases isAcquire : ∃ wanted caller pin, op = .acquire wanted caller pin
    · obtain ⟨wanted, caller, pin, rfl⟩ := isAcquire
      exact users_acquire pinned okay acts kind slot
    · by_cases isRelease : ∃ wanted pin, op = .release wanted pin
      · obtain ⟨wanted, pin, rfl⟩ := isRelease
        exact users_release pinned okay acts kind slot
      · push Not at isAcquire isRelease
        have same : ∀ reply, heldAfter s op reply = s.held := by
          intro reply
          cases op with
          | acquire wanted caller pin => exact absurd rfl (isAcquire wanted caller pin)
          | release wanted pin => exact absurd rfl (isRelease wanted pin)
          | _ => rfl
        rw [acts.result, same]
        apply users_set pinned
        · intro kind
          rw [action_users index _ kind isAcquire isRelease]
          exact pinned.users kind index
        · intro kind slot _
          rfl
  · have same : ∀ reply, heldAfter s op reply = s.held := by
      intro reply
      have tried := registers.tried
      cases op <;> first | rfl | cases tried
    rw [registers.changed, same]
    apply users_set pinned
    · intro kind
      rw [idle_unused pinned registers.idle]
      cases kind <;> rfl
    · intro kind slot _
      rfl

theorem alive_call {s t : System} {op : Op} {answer : Answer} (pinned : Pinned s)
    (next : step s (.call op) = some (t, answer)) {held : Held} (inside : held ∈ t.held) :
    ∃ slot, Alive t held slot := by
  by_cases old : held ∈ s.held
  · exact alive_step pinned next old
  · simp only [step, Option.some.injEq, Prod.mk.injEq] at next
    obtain ⟨rfl, -⟩ := next
    dsimp only at inside
    cases op with
    | acquire kind caller pin =>
      rcases call_changes s.registry (.acquire kind caller pin) with
        ⟨result, failed, refused, -⟩ | ⟨index, acts⟩ | ⟨index, registers⟩
      · rw [refused, heldAfter_refused s _ (by rwa [refusal_result])] at inside
        exact absurd inside old
      · obtain ⟨handle, names, found⟩ := acts.found
        obtain rfl : caller.handle = handle := Option.some.inj names
        obtain ⟨active, decoded⟩ := CkartaRegistrySlots.find_decodes.mp found
        simp only [acts.result, birthsAfter, acts.untried] at inside ⊢
        by_cases refused : unpackState (s.registry.entries index).connection.lifecycle =
              ConnectionState.closed.code ∨
            (s.registry.entries index).connection.object kind = none
        · simp only [action, if_pos refused] at inside
          rw [heldAfter_refused s _ (by simp [answerPin])] at inside
          exact absurd inside old
        · simp only [action, if_neg refused, heldAfter, answerPin, ↓reduceIte, Option.getD_some,
            List.mem_cons, old, or_false] at inside ⊢
          subst inside
          rw [not_or] at refused
          refine ⟨index, rfl, ?_, ?_, ?_, ?_, refused.2, rfl⟩
          · simpa using decoded
          · simpa using active
          · simpa [System.word] using refused.1
          · simp
      · cases registers.tried
    | release kind pin =>
      simp only [heldAfter] at inside
      split at inside
      · exact absurd (List.mem_of_mem_eraseP inside) old
      · exact absurd inside old
    | _ => exact absurd inside old

theorem call_ready (registry : ConnectionRegistry) (op : Op) :
    (call registry op).2.initialized = registry.initialized := by
  rcases call_changes registry op with ⟨result, -, refused, -⟩ | ⟨index, acts⟩ | ⟨index, registers⟩
  · rw [refused]
  · rw [acts.result]
    rfl
  · rw [registers.changed]
    rfl

theorem pinned_step {s t : System} {move : Move} {answer : Answer} (pinned : Pinned s)
    (next : carefulStep s move = some (t, answer)) : Pinned t := by
  unfold carefulStep at next
  split at next
  · rename_i okay
    by_cases isCall : ∃ op, move = .call op
    · obtain ⟨op, rfl⟩ := isCall
      have alive : ∀ held ∈ t.held, ∃ slot, Alive t held slot :=
        fun _ inside => alive_call pinned next inside
      simp only [step, Option.some.injEq, Prod.mk.injEq] at next
      obtain ⟨rfl, -⟩ := next
      exact ⟨(call_ready _ _).trans pinned.ready, users_call pinned okay, alive⟩
    · obtain ⟨-, held, same⟩ := step_thread next fun op called => isCall ⟨op, called⟩
      refine ⟨?_, ?_, ?_⟩
      · rcases same with same | ⟨at_, event, cycleId, changed⟩
        · rw [same]
          exact pinned.ready
        · rw [changed]
          exact pinned.ready
      · intro kind slot
        rw [held, ← pinned.users]
        rcases same with same | ⟨at_, event, cycleId, changed⟩
        · rw [same]
        · rw [changed, setWord]
          by_cases here : slot = at_
          · subst here
            rw [set_same]
            cases kind <;> rfl
          · rw [set_other _ _ here]
      · intro held_ inside
        rw [held] at inside
        exact alive_step pinned next inside
  · cases next

theorem pinned_start : Pinned start := by
  refine ⟨rfl, ?_, ?_⟩
  · intro kind slot
    cases kind <;> rfl
  · intro held inside
    cases inside

/-- In a run in which pins are released at most once and fewer than 2^32 of a kind are out on
    an entry, the counters are the numbers of pins, what a pin names stays, and a release
    of a pin answers 0. -/
theorem pin_keeps_alive {history : List (Move × Answer)} {s : System}
    (runs : Runs carefulStep start history s) :
    (∀ slot, (s.registry.entries slot).readerUsers = outstanding s.held .reader slot ∧
        (s.registry.entries slot).outputUsers = outstanding s.held .output slot) ∧
      ∀ held ∈ s.held, (∃ slot, Alive s held slot) ∧
        (call s.registry (.release held.kind held.pin)).1 = answerPin 0 .zero := by
  have pinned : Pinned s := runs.invariant (fun _ s => Pinned s) pinned_start
    fun _ holds next => pinned_step holds next
  refine ⟨fun slot => ⟨pinned.users .reader slot, pinned.users .output slot⟩, ?_⟩
  intro held inside
  obtain ⟨slot, alive⟩ := pinned.alive held inside
  refine ⟨⟨slot, alive⟩, ?_⟩
  have used := alive.counted inside
  rw [← pinned.users] at used
  have fine : ¬ malformed (.release held.kind held.pin) := by
    simp only [malformed, Pin.zero, not_or]
    refine ⟨by simp [alive.pointer], alive.present, ?_, by simp [alive.handle]⟩
    intro zero
    have decoded := alive.handle
    rw [zero] at decoded
    cases decoded
  have found : find s.registry held.pin.handle = some slot :=
    CkartaRegistrySlots.find_decodes.mpr ⟨alive.active, alive.handle⟩
  have guard : ¬ (some slot ≠ held.pin.connection ∨
      (s.registry.entries slot).connection.object held.kind ≠ held.pin.object ∨
      (s.registry.entries slot).users held.kind = 0) := by
    simp only [alive.pointer, alive.object, ne_eq, not_true_eq_false, false_or]
    omega
  rw [call_target s.registry rfl fine]
  simp only [operate, pinned.ready, found, matching, action, if_neg guard, Bool.not_true,
    Bool.false_eq_true, ↓reduceIte]

/-- Two pins, of which one is released, and a close that is refused. -/
def sampleMoves : List Move :=
  [.call sampleRegister, .call (.acquire .reader sampleCaller .zero),
    .call (.acquire .output sampleCaller .zero), .begin samplePin 1, .load ⟨0, 1, none⟩,
    .exchange ⟨0, 1, some (ckConnectionPack .opened (-1) 0)⟩ false,
    .call (.release .output ⟨some 0, some 2, makeHandle 0 1⟩), .call (.close sampleCaller 0)]

def sampleRun : List (Move × Answer) × System :=
  (execute carefulStep start sampleMoves).getD ([], start)

theorem pin_keeps_alive_close :
    (sampleRun.2.registry.entries 0).readerUsers = 1 ∧
      unpackState (sampleRun.2.word 0) = ConnectionState.closing.code ∧
      samplePin ∈ sampleRun.2.held ∧
      (call sampleRun.2.registry (.release .reader samplePin.pin)).1 = answerPin 0 .zero := by
  have executed : execute carefulStep start sampleMoves = some (sampleRun.1, sampleRun.2) := rfl
  have inside : samplePin ∈ sampleRun.2.held := by decide +kernel
  exact ⟨by decide +kernel, by decide +kernel, inside,
    ((pin_keeps_alive (execute_runs executed)).2 samplePin inside).2⟩

end CkartaRegistryPins
