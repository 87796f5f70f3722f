import Ckarta.BlockLedger
import Ckarta.RegistrySlots
import Ckarta.Termination

/-!
The memory of the connections. ck_connection_init takes four blocks from malloc and
ck_connection_close gives them back; here they are followed over the threads of
ConnectionSystem, whatever malloc answers.
-/
namespace CkartaConnectionHeap
open MachineWord StepHistory BlockLedger CkartaConnection CkartaConnectionRegistry CkartaRegistryCalls
open CkartaRegistrySlots CkartaRegistryPins CkartaTermination
open CkartaConnectionSystem (Held TerminalCall Answer actedSlot birthsAfter heldAfter)

/-- The pointers of a connection to what it allocates; none is NULL. -/
structure Blocks where
  reader : Option Nat
  writer : Option Nat
  body : Option Nat
  response : Option Nat
  deriving DecidableEq, Repr

def Blocks.null : Blocks := ⟨none, none, none, none⟩

def Blocks.list (blocks : Blocks) : List Nat :=
  blocks.reader.toList ++ (blocks.writer.toList ++ (blocks.body.toList ++ blocks.response.toList))

/-- The answers of malloc as the registry takes them. -/
def Blocks.allocation (answers : Blocks) : Allocation :=
  ⟨answers.reader, answers.writer, answers.body.isSome, answers.response.isSome⟩

/-- malloc and free of ck_connection_init; answers is what malloc returns, in its order. -/
def ckConnectionInitBlocks (blocks answers : Blocks) (heap : Heap) : Bool × Blocks × Heap :=
  let blocks := { blocks with body := none, reader := answers.reader }
  let heap := heap.malloc answers.reader
  if blocks.reader = none then (false, blocks, heap)
  else
    let blocks := { blocks with writer := answers.writer }
    let heap := heap.malloc answers.writer
    if blocks.writer = none then (false, { blocks with reader := none }, heap.free blocks.reader)
    else
      let blocks := { blocks with body := answers.body }
      let heap := heap.malloc answers.body
      if blocks.body = none then
        (false, { blocks with writer := none, reader := none }, (heap.free blocks.writer).free blocks.reader)
      else
        let blocks := { blocks with response := answers.response }
        let heap := heap.malloc answers.response
        -- the body stays
        if blocks.response = none then
          (false, { blocks with writer := none, reader := none }, (heap.free blocks.writer).free blocks.reader)
        else (true, blocks, heap)

def ckConnectionCloseBlocks (blocks : Blocks) (heap : Heap) : Blocks × Heap :=
  (.null, (((heap.free blocks.reader).free blocks.writer).free blocks.body).free blocks.response)

/-- ck_connection_close moves this connection to CLOSED. -/
def closes (connection : OwnedConnection) : Bool :=
  unpackState connection.lifecycle == ConnectionState.closing.code && !decide (unpackEvent connection.lifecycle < 0)

def closedSlot (registry : ConnectionRegistry) : CkartaConnectionSystem.Move → Option Nat
  | .call (.close caller _) =>
    match find registry caller.handle with
    | none => none
    | some index =>
      let entry := registry.entries index
      if !caller.valid entry.connection ∨ entry.readerUsers ≠ 0 ∨ entry.outputUsers ≠ 0 then none
      else if closes entry.connection then some index
      else none
  | _ => none

structure System where
  inner : CkartaConnectionSystem.System
  blocks : Nat → Blocks
  heap : Heap

inductive Move where
  | register (connectionId requestId ownerToken lifetimeToken : Nat) (answers : Blocks)
  | other (move : CkartaConnectionSystem.Move)
  deriving DecidableEq, Repr

/-- malloc hands out blocks that are not in use. -/
def fresh (answers : Blocks) (heap : Heap) : Bool := decide (answers.list ++ heap.live).Nodup

def isRegister : CkartaConnectionSystem.Move → Bool
  | .call (.register ..) => true
  | _ => false

def Move.inner : Move → CkartaConnectionSystem.Move
  | .register connectionId requestId ownerToken lifetimeToken answers =>
    .call (.register connectionId requestId ownerToken lifetimeToken answers.allocation)
  | .other move => move

def step (s : System) (move : Move) : Option (System × Answer) :=
  match move with
  | .register connectionId requestId ownerToken lifetimeToken answers =>
    let op : Op := .register connectionId requestId ownerToken lifetimeToken answers.allocation
    if !fresh answers s.heap then none
    else (CkartaConnectionSystem.step s.inner (.call op)).map fun (inner, answer) =>
      match attemptedSlot s.inner.registry op with
      | none => ({ s with inner := inner }, answer)
      | some slot =>
        let (_, blocks, heap) := ckConnectionInitBlocks (s.blocks slot) answers s.heap
        (⟨inner, Function.update s.blocks slot blocks, heap⟩, answer)
  | .other move =>
    if isRegister move then none
    else (CkartaConnectionSystem.step s.inner move).map fun (inner, answer) =>
      match closedSlot s.inner.registry move with
      | none => ({ s with inner := inner }, answer)
      | some slot =>
        let (blocks, heap) := ckConnectionCloseBlocks (s.blocks slot) s.heap
        (⟨inner, Function.update s.blocks slot blocks, heap⟩, answer)

def start : System := ⟨CkartaConnectionSystem.start, fun _ => .null, .empty⟩

/-- The connection of the entry is registered and not closed. -/
def isOpen (entry : Entry) : Bool :=
  entry.active && unpackState entry.connection.lifecycle != ConnectionState.closed.code

def owned (s : System) (slot : Nat) : List Nat :=
  if isOpen (s.inner.registry.entries slot) then (s.blocks slot).list else []

/-- The body that a registration left behind when its last malloc failed. -/
def leakOf : Move × Answer → Option Nat
  | (.register connectionId requestId _ _ answers, answer) =>
    if connectionId ≠ 0 ∧ requestId ≠ 0 ∧ answer.result = some (-1) ∧ answers.reader ≠ none ∧
      answers.writer ≠ none then answers.body
    else none
  | _ => none

def leaks (history : List (Move × Answer)) : List Nat := history.filterMap leakOf

/-- A step that neither opens nor closes this connection. -/
structure Same (old new : Entry) : Prop where
  stays : isOpen new = isOpen old
  objects : isOpen old = true → ∀ kind, new.connection.object kind = old.connection.object kind

theorem Same.refl (entry : Entry) : Same entry entry := ⟨rfl, fun _ _ => rfl⟩

theorem same_of {old new : Entry} (active : new.active = old.active)
    (closed : unpackState new.connection.lifecycle = ConnectionState.closed.code ↔
      unpackState old.connection.lifecycle = ConnectionState.closed.code)
    (objects : ∀ kind, new.connection.object kind = old.connection.object kind) : Same old new := by
  refine ⟨?_, fun _ => objects⟩
  simp only [isOpen, active, bne, beq_eq_decide, closed]

theorem attach_same (entry : Entry) (socketFd : Int) :
    Same entry { entry with connection := (ckConnectionAttachSocket entry.connection socketFd).2 } := by
  have word : (ckConnectionAttachSocket entry.connection socketFd).2.lifecycle = entry.connection.lifecycle := by
    unfold ckConnectionAttachSocket
    split_ifs <;> rfl
  refine same_of rfl ?_ (attach_keeps entry socketFd).objects
  dsimp only
  rw [word]

theorem start_closed {connection : Connection} (cycleId : Nat)
    (closed : unpackState connection.lifecycle = ConnectionState.closed.code) :
    (ckConnectionStartAsyncCycle connection cycleId).2 = connection := by
  unfold ckConnectionStartAsyncCycle
  split
  · rfl
  · split
    · rename_i opened
      rw [opened, unpackState_pack] at closed
      cases closed
    · rfl

theorem terminal_closed {connection : Connection} (event : Int)
    (closed : unpackState connection.lifecycle = ConnectionState.closed.code) :
    (ckConnectionTryTerminal connection event).2 = connection := by
  unfold ckConnectionTryTerminal
  dsimp only
  split
  · rfl
  · rw [if_pos (.inr closed)]
    split <;> rfl

theorem word_same (entry : Entry) {connection : Connection}
    (stays : unpackState entry.connection.lifecycle = ConnectionState.closed.code →
      connection = entry.connection.toConnection)
    (unclosed : unpackState entry.connection.lifecycle ≠ ConnectionState.closed.code →
      unpackState connection.lifecycle ≠ ConnectionState.closed.code) :
    Same entry { entry with connection := { entry.connection with toConnection := connection } } := by
  refine same_of rfl ⟨?_, ?_⟩ fun kind => by cases kind <;> rfl
  · intro closed
    by_contra before
    exact unclosed before closed
  · intro closed
    rw [stays closed]
    exact closed

theorem close_unmoved {connection : OwnedConnection} (quiet : closes connection = false) (closeAnswer : Int) :
    (ckConnectionClose connection closeAnswer).2.1 = connection := by
  unfold ckConnectionClose
  split
  · rfl
  · rw [if_pos]
    simp only [closes, Bool.and_eq_false_iff, beq_eq_false_iff_ne, Bool.not_eq_eq_eq_not, Bool.not_false,
      decide_eq_true_eq] at quiet
    exact quiet

theorem action_same {registry : ConnectionRegistry} {op : Op} {index : Nat} (acts : Acts registry op index)
    (quiet : closedSlot registry (.call op) = none) :
    Same (registry.entries index) (action op index (registry.entries index)).2 := by
  cases op with
  | register connectionId requestId ownerToken lifetimeToken allocation => exact .refl _
  | attachSocket caller socketFd => exact attach_same _ _
  | startAsyncCycle caller cycleId =>
    exact word_same _ (start_closed cycleId) (start_unclosed _ cycleId)
  | tryTerminal caller cycleId event =>
    exact word_same _ (terminal_closed event) (terminal_unclosed _ event)
  | acquire kind caller pin =>
    simp only [action]
    split
    · exact .refl _
    · exact same_of (setUsers_active _ _ _) (by rw [setUsers_connection]) (by simp)
  | release kind pin =>
    simp only [action]
    split
    · exact .refl _
    · exact same_of (setUsers_active _ _ _) (by rw [setUsers_connection]) (by simp)
  | close caller closeAnswer =>
    by_cases held : (registry.entries index).readerUsers ≠ 0 ∨ (registry.entries index).outputUsers ≠ 0
    · simp only [action, if_pos held]
      exact .refl _
    · simp only [action, if_neg held]
      obtain ⟨handle, names, found⟩ := acts.found
      obtain rfl : caller.handle = handle := Option.some.inj names
      have valid : caller.valid (registry.entries index).connection = true := acts.same
      have unmoved : closes (registry.entries index).connection = false := by
        simpa [closedSlot, found, valid, held] using quiet
      rw [close_unmoved unmoved]
      exact .refl _
  | retire caller =>
    simp only [action]
    split
    · exact .refl _
    · rename_i idle
      have closed : unpackState (registry.entries index).connection.lifecycle = ConnectionState.closed.code := by
        by_contra unclosed
        exact idle (.inr (.inr (.inl unclosed)))
      exact ⟨by simp [isOpen, closed], fun opened => by simp [isOpen, closed] at opened⟩

theorem thread_same {s t : CkartaConnectionSystem.System} {move : CkartaConnectionSystem.Move} {answer : Answer}
    (sound : Sound s) (next : CkartaConnectionSystem.step s move = some (t, answer))
    (thread : ∀ op, move ≠ .call op) (slot : Nat) :
    Same (s.registry.entries slot) (t.registry.entries slot) := by
  cases thread_step next thread with
  | refused => exact .refl _
  | begun inside pointer known => exact .refl _
  | looked which inside =>
    rw [(proceed_registry s _).1]
    exact .refl _
  | @won running spurious inside current =>
    have keeps := setWord_keeps s.registry running.slot slot running.event (unpackCycle (s.word running.slot))
    by_cases here : slot = running.slot
    · subst here
      have unclosed : unpackState (s.word running.slot) ≠ ConnectionState.closed.code := by
        rcases (sound.calls running inside).saw _ current with state | state <;> rw [state] <;> decide
      exact same_of keeps.active ⟨fun closed => absurd closed (keeps.unclosed unclosed),
        fun closed => absurd closed unclosed⟩ keeps.objects
    · dsimp only [CkartaConnectionSystem.setWord]
      rw [set_other _ _ here]
      exact .refl _

theorem step_same {s t : CkartaConnectionSystem.System} {move : CkartaConnectionSystem.Move} {answer : Answer}
    (sound : Sound s) (next : CkartaConnectionSystem.step s move = some (t, answer))
    (tried : ∀ op, move = .call op → attemptedSlot s.registry op = none)
    (quiet : closedSlot s.registry move = none) (slot : Nat) :
    Same (s.registry.entries slot) (t.registry.entries slot) := by
  by_cases isCall : ∃ op, move = .call op
  · obtain ⟨op, rfl⟩ := isCall
    simp only [CkartaConnectionSystem.step, Option.some.injEq, Prod.mk.injEq] at next
    obtain ⟨rfl, -⟩ := next
    dsimp only
    rcases call_changes s.registry op with ⟨result, -, refused, -⟩ | ⟨index, acts⟩ | ⟨index, registers⟩
    · rw [refused]
      exact .refl _
    · rw [acts.result]
      by_cases here : slot = index
      · subst here
        rw [set_same]
        exact action_same acts quiet
      · rw [set_other _ _ here]
        exact .refl _
    · have untried := tried op rfl
      rw [registers.tried] at untried
      cases untried
  · exact thread_same sound next (fun op called => isCall ⟨op, called⟩) slot

theorem init_blocks (blocks answers : Blocks) {heap : Heap} {rest : List Nat} (holds : heap.Holds rest) :
    (answers.allocation.succeeds = true ∧ (ckConnectionInitBlocks blocks answers heap).2.1 = answers ∧
        (ckConnectionInitBlocks blocks answers heap).2.2.Holds (answers.list ++ rest)) ∨
      (answers.allocation.succeeds = false ∧ (ckConnectionInitBlocks blocks answers heap).2.2.Holds
        ((if answers.reader ≠ none ∧ answers.writer ≠ none then answers.body else none).toList ++ rest)) := by
  obtain ⟨reader, writer, body, response⟩ := answers
  cases reader with
  | none => exact .inr ⟨rfl, holds.malloc none⟩
  | some r =>
    have first := holds.malloc (some r)
    cases writer with
    | none => exact .inr ⟨rfl, (first.malloc none).free (some r)⟩
    | some w =>
      have second := first.malloc (some w)
      cases body with
      | none => exact .inr ⟨rfl, ((second.malloc none).free (some w)).free (some r)⟩
      | some b =>
        have third := second.malloc (some b)
        cases response with
        | none =>
          have order : ([b] ++ ([w] ++ ([r] ++ rest))).Perm ([w] ++ ([r] ++ ([b] ++ rest))) :=
            (List.perm_append_comm : ([b] ++ [w, r]).Perm _).append_right rest
          exact .inr ⟨rfl, (((third.malloc none).perm order).free (some w)).free (some r)⟩
        | some p =>
          exact .inl ⟨rfl, rfl, (third.malloc (some p)).perm ((List.reverse_perm [r, w, b, p]).append_right rest)⟩

theorem close_blocks {blocks : Blocks} {heap : Heap} {rest : List Nat} (holds : heap.Holds (blocks.list ++ rest)) :
    (ckConnectionCloseBlocks blocks heap).2.Holds rest := by
  unfold Blocks.list at holds
  simp only [List.append_assoc] at holds
  exact (((holds.free _).free _).free _).free _

structure Tied (blocks : Blocks) (connection : OwnedConnection) : Prop where
  reader : blocks.reader = connection.httpReader
  writer : blocks.writer = connection.httpWriter
  complete : blocks.allocation.succeeds = true

structure Accounted (history : List (Move × Answer)) (s : System) : Prop where
  sound : Sound s.inner
  holds : s.heap.Holds (holdings registryCapacity (owned s) ++ leaks history)
  distinct : s.heap.live.Nodup
  tied : ∀ slot, isOpen (s.inner.registry.entries slot) = true →
    Tied (s.blocks slot) (s.inner.registry.entries slot).connection

theorem leaks_snoc (history : List (Move × Answer)) (entry : Move × Answer) :
    leaks (history ++ [entry]) = leaks history ++ (leakOf entry).toList :=
  filterMap_snoc _ _ _

section
variable {history : List (Move × Answer)} {s : System} {inner : CkartaConnectionSystem.System} {move : Move}
  {answer : Answer} (accounted : Accounted history s)
include accounted

theorem Accounted.quiet (sound : Sound inner)
    (same : ∀ slot, Same (s.inner.registry.entries slot) (inner.registry.entries slot))
    (unleaked : leakOf (move, answer) = none) :
    Accounted (history ++ [(move, answer)]) { s with inner := inner } where
  sound := sound
  holds := by
    have kept : owned { s with inner := inner } = owned s := by
      funext slot
      simp only [owned, (same slot).stays]
    rw [leaks_snoc, unleaked, kept]
    simpa using accounted.holds
  distinct := accounted.distinct
  tied := by
    intro slot opened
    dsimp only at opened ⊢
    rw [(same slot).stays] at opened
    obtain ⟨reader, writer, complete⟩ := accounted.tied slot opened
    have objects := (same slot).objects opened
    exact ⟨reader.trans (objects .reader).symm, writer.trans (objects .output).symm, complete⟩

theorem Accounted.changes {index : Nat} {blocks : Blocks} {heap : Heap} (sound : Sound inner)
    (below : index < registryCapacity)
    (away : ∀ slot, slot ≠ index → inner.registry.entries slot = s.inner.registry.entries slot)
    (holds : ∀ rest, s.heap.Holds (owned s index ++ rest) →
      heap.Holds ((if isOpen (inner.registry.entries index) then blocks.list else []) ++
        ((leakOf (move, answer)).toList ++ rest)))
    (distinct : heap.live.Nodup)
    (tied : isOpen (inner.registry.entries index) = true → Tied blocks (inner.registry.entries index).connection) :
    Accounted (history ++ [(move, answer)]) ⟨inner, Function.update s.blocks index blocks, heap⟩ where
  sound := sound
  holds := by
    let after : System := ⟨inner, Function.update s.blocks index blocks, heap⟩
    have elsewhere : ∀ slot, slot ≠ index → owned after slot = owned s slot := by
      intro slot other
      simp only [owned, after, away slot other, Function.update_of_ne other]
    have here : owned after index = if isOpen (inner.registry.entries index) then blocks.list else [] := by
      simp only [owned, after, Function.update_self]
    -- what the other slots hold is the same before and after
    let others : Nat → List Nat := Function.update (owned s) index []
    have before : (holdings registryCapacity (owned s)).Perm (owned s index ++ holdings registryCapacity others) := by
      have moved := @holdings_change Nat registryCapacity index others (owned s) below
        (fun i other => (Function.update_of_ne other _ _).symm)
      simpa [others] using moved
    have afterwards : (owned after index ++ holdings registryCapacity others).Perm
        (holdings registryCapacity (owned after)) := by
      have moved := @holdings_change Nat registryCapacity index (owned after) others below
        (fun i other => by simp only [others, Function.update_of_ne other, elsewhere i other])
      simpa [others] using moved
    have start := accounted.holds.perm (before.append_right (leaks history))
    rw [List.append_assoc] at start
    have done := holds _ start
    rw [← here] at done
    refine done.perm ?_
    rw [leaks_snoc]
    have late : ((leakOf (move, answer)).toList ++ (holdings registryCapacity others ++ leaks history)).Perm
        (holdings registryCapacity others ++ (leaks history ++ (leakOf (move, answer)).toList)) := by
      rw [← List.append_assoc (holdings registryCapacity others)]
      exact List.perm_append_comm
    have first := late.append_left (owned after index)
    rw [← List.append_assoc (owned after index) (holdings registryCapacity others)] at first
    exact first.trans (afterwards.append_right _)
  distinct := distinct
  tied := by
    intro slot opened
    dsimp only at opened ⊢
    by_cases same : slot = index
    · subst same
      rw [Function.update_self]
      exact tied opened
    · rw [Function.update_of_ne same]
      rw [away slot same] at opened ⊢
      exact accounted.tied slot opened

end

section
variable {connectionId requestId ownerToken lifetimeToken index : Nat} {answers : Blocks} {op : Op}
  (named : op = .register connectionId requestId ownerToken lifetimeToken answers.allocation)
include named

theorem registration_made {registry : ConnectionRegistry} (tried : attemptedSlot registry op = some index) :
    (connectionId ≠ 0 ∧ requestId ≠ 0) ∧ (registration registry index op).1 = answers.allocation.succeeds ∧
      (answers.allocation.succeeds = true → (registration registry index op).2 =
        ⟨⟨connectionId, requestId, ownerToken, lifetimeToken, ckConnectionPack .opened (-1) 0⟩, -1,
          answers.reader, answers.writer, -1⟩) := by
  subst named
  simp only [attemptedSlot, Option.ite_none_left_eq_some, not_or] at tried
  obtain ⟨⟨-, connected, requested⟩, -⟩ := tried
  refine ⟨⟨connected, requested⟩, ?_⟩
  obtain ⟨reader, writer, body, response⟩ := answers
  cases reader <;> cases writer <;> cases body <;> cases response <;>
    simp [registration, ckConnectionInitOwned, ckConnectionInit, connected, requested, Blocks.allocation,
      Allocation.succeeds]

theorem registration_leak {registry : ConnectionRegistry} (tried : attemptedSlot registry op = some index)
    {answer : Answer} (told : answer.result = some (call registry op).1.result) :
    leakOf (.register connectionId requestId ownerToken lifetimeToken answers, answer) =
      if answers.allocation.succeeds then none
      else if answers.reader ≠ none ∧ answers.writer ≠ none then answers.body else none := by
  obtain ⟨ids, made, -⟩ := registration_made named tried
  rw [(register_registers tried).replied, made] at told
  cases succeeds : answers.allocation.succeeds with
  | true =>
    rw [succeeds] at told
    simp [leakOf, told]
  | false =>
    rw [succeeds] at told
    simp [leakOf, told, ids, CkartaConnectionRegistry.answer]

theorem untried_leak {registry : ConnectionRegistry} (ready : registry.initialized = true)
    (untried : attemptedSlot registry op = none) {answer : Answer}
    (told : answer.result = some (call registry op).1.result) :
    leakOf (.register connectionId requestId ownerToken lifetimeToken answers, answer) = none := by
  subst named
  by_cases refused : (!registry.initialized) = true ∨ connectionId = 0 ∨ requestId = 0
  · have ids : ¬ (connectionId ≠ 0 ∧ requestId ≠ 0) := by simpa [ready, or_iff_not_imp_left] using refused
    simp only [leakOf]
    rw [if_neg fun all => ids ⟨all.1, all.2.1⟩]
  · simp only [attemptedSlot, if_neg refused] at untried
    simp only [call, ckConnectionRegistryRegister, if_neg refused, untried] at told
    simp [leakOf, told, CkartaConnectionRegistry.answer, enospc]

end

theorem call_step {s t : CkartaConnectionSystem.System} {op : Op} {answer : Answer}
    (next : CkartaConnectionSystem.step s (.call op) = some (t, answer)) :
    t.registry = (call s.registry op).2 ∧ answer.result = some (call s.registry op).1.result := by
  simp only [CkartaConnectionSystem.step, Option.some.injEq, Prod.mk.injEq] at next
  obtain ⟨rfl, rfl⟩ := next
  exact ⟨rfl, rfl⟩

theorem distinct_after {heap after : Heap} {given rest : List Nat} {answers : Blocks}
    (new : fresh answers heap = true) (before : heap.Holds rest) (holds : after.Holds (given ++ rest))
    (among : given.Sublist answers.list) : after.live.Nodup := by
  have apart : (answers.list ++ heap.live).Nodup := of_decide_eq_true new
  have together : (given ++ heap.live).Nodup := apart.sublist (among.append_right heap.live)
  exact (holds.live.trans (before.live.symm.append_left given)).nodup_iff.mpr together

theorem body_sublist (answers : Blocks) :
    (if answers.reader ≠ none ∧ answers.writer ≠ none then answers.body else none).toList.Sublist answers.list := by
  split
  · exact ((List.sublist_append_left _ _).trans (List.sublist_append_right _ _)).trans
      (List.sublist_append_right _ _)
  · exact List.nil_sublist _

theorem Accounted.registers {history : List (Move × Answer)} {s : System}
    {inner : CkartaConnectionSystem.System} {answer : Answer}
    {connectionId requestId ownerToken lifetimeToken index : Nat} {answers : Blocks} {op : Op}
    (named : op = .register connectionId requestId ownerToken lifetimeToken answers.allocation)
    (accounted : Accounted history s) (new : fresh answers s.heap = true)
    (next : CkartaConnectionSystem.step s.inner (.call op) = some (inner, answer))
    (tried : attemptedSlot s.inner.registry op = some index) :
    Accounted (history ++ [(.register connectionId requestId ownerToken lifetimeToken answers, answer)])
      ⟨inner, Function.update s.blocks index (ckConnectionInitBlocks (s.blocks index) answers s.heap).2.1,
        (ckConnectionInitBlocks (s.blocks index) answers s.heap).2.2⟩ := by
  have registers := register_registers tried
  obtain ⟨-, made, connection⟩ := registration_made named tried
  obtain ⟨changed, told⟩ := call_step next
  have leaked := registration_leak named tried told
  have empty : owned s index = [] := by simp [owned, isOpen, registers.idle]
  have entry : inner.registry.entries index = ⟨(registration s.inner.registry index op).2,
      nextGeneration (s.inner.registry.entries index).generation, 0, 0, answers.allocation.succeeds⟩ := by
    rw [changed, registers.changed, set_same, made]
  have opened : isOpen (inner.registry.entries index) = answers.allocation.succeeds := by
    rw [entry]
    cases succeeds : answers.allocation.succeeds with
    | false => rfl
    | true =>
      rw [connection succeeds]
      simp only [isOpen, unpackState_pack]
      decide
  have away : ∀ slot, slot ≠ index → inner.registry.entries slot = s.inner.registry.entries slot := by
    intro slot other
    rw [changed, registers.changed, set_other _ _ other]
  have before := accounted.holds
  apply accounted.changes (sound_step accounted.sound next) registers.slot away
  · intro rest part
    rw [empty] at part
    rw [opened, leaked]
    rcases init_blocks (s.blocks index) answers part with ⟨succeeds, kept, holds⟩ | ⟨fails, holds⟩
    · rw [succeeds, kept]
      exact holds
    · rw [fails]
      exact holds
  · rcases init_blocks (s.blocks index) answers before with ⟨-, -, holds⟩ | ⟨-, holds⟩
    · exact distinct_after new before holds (List.Sublist.refl _)
    · exact distinct_after new before holds (body_sublist answers)
  · intro isOpened
    rw [opened] at isOpened
    rcases init_blocks (s.blocks index) answers before with ⟨-, kept, -⟩ | ⟨fails, -⟩
    · rw [kept, entry, connection isOpened]
      exact ⟨rfl, rfl, isOpened⟩
    · rw [fails] at isOpened
      cases isOpened

theorem closedSlot_cases {registry : ConnectionRegistry} {move : CkartaConnectionSystem.Move} {index : Nat}
    (closing : closedSlot registry move = some index) :
    ∃ caller closeAnswer, move = .call (.close caller closeAnswer) ∧ find registry caller.handle = some index ∧
      caller.valid (registry.entries index).connection = true ∧ (registry.entries index).readerUsers = 0 ∧
      (registry.entries index).outputUsers = 0 ∧ closes (registry.entries index).connection = true := by
  unfold closedSlot at closing
  split at closing
  · rename_i caller closeAnswer
    split at closing
    · cases closing
    · rename_i slot found
      simp only [Option.ite_none_left_eq_some, Option.ite_none_right_eq_some, Option.some.injEq] at closing
      obtain ⟨unheld, moves, rfl⟩ := closing
      simp only [Bool.not_eq_eq_eq_not, Bool.not_true, not_or, Bool.not_eq_false, not_not] at unheld
      exact ⟨caller, closeAnswer, rfl, found, unheld.1, unheld.2.1, unheld.2.2, moves⟩
  · cases closing

theorem close_moved {connection : OwnedConnection} (moves : closes connection = true) (closeAnswer : Int) :
    unpackState (ckConnectionClose connection closeAnswer).2.1.lifecycle = ConnectionState.closed.code := by
  simp only [closes, Bool.and_eq_true, beq_iff_eq, Bool.not_eq_eq_eq_not, Bool.not_true,
    decide_eq_false_iff_not] at moves
  obtain ⟨state, event⟩ := moves
  have notClosed : ¬ unpackState connection.lifecycle = ConnectionState.closed.code := by
    rw [state]
    decide
  unfold ckConnectionClose
  rw [if_neg notClosed, if_neg (by simp [state, event])]
  dsimp only
  split_ifs <;> exact unpackState_pack _ _ _

theorem Accounted.closed {history : List (Move × Answer)} {s : System} {inner : CkartaConnectionSystem.System}
    {move : CkartaConnectionSystem.Move} {answer : Answer} {index : Nat} (accounted : Accounted history s)
    (next : CkartaConnectionSystem.step s.inner move = some (inner, answer))
    (closing : closedSlot s.inner.registry move = some index) :
    Accounted (history ++ [(.other move, answer)])
      ⟨inner, Function.update s.blocks index (ckConnectionCloseBlocks (s.blocks index) s.heap).1,
        (ckConnectionCloseBlocks (s.blocks index) s.heap).2⟩ := by
  obtain ⟨caller, closeAnswer, rfl, found, valid, readers, outputs, moves⟩ := closedSlot_cases closing
  obtain ⟨active, decoded⟩ := find_decodes.mp found
  obtain ⟨changed, -⟩ := call_step next
  have called := @call_target s.inner.registry (.close caller closeAnswer) caller.handle rfl id
  have fit : matching (.close caller closeAnswer) (s.inner.registry.entries index).connection = true := valid
  simp only [operate, accounted.sound.ready, Bool.not_true, Bool.false_eq_true, ↓reduceIte, found, fit, action,
    readers, outputs, ne_eq, not_true_eq_false, or_self] at called
  have connection : (inner.registry.entries index).connection =
      (ckConnectionClose (s.inner.registry.entries index).connection closeAnswer).2.1 := by
    rw [changed, called, set_same]
  have wasOpen : isOpen (s.inner.registry.entries index) = true := by
    simp only [closes, Bool.and_eq_true, beq_iff_eq] at moves
    simp only [isOpen, active, moves.1]
    decide
  have shut : isOpen (inner.registry.entries index) = false := by
    simp [isOpen, connection, close_moved moves closeAnswer]
  have away : ∀ slot, slot ≠ index → inner.registry.entries slot = s.inner.registry.entries slot := by
    intro slot other
    rw [changed, called, set_other _ _ other]
  apply accounted.changes (sound_step accounted.sound next) (decodeHandle_iff.mp decoded).1 away
  · intro rest part
    rw [shut]
    simp only [owned, wasOpen, if_true] at part
    exact close_blocks part
  · have less : (ckConnectionCloseBlocks (s.blocks index) s.heap).2.live.Sublist s.heap.live :=
      ((free_sublist _ _).trans (free_sublist _ _)).trans ((free_sublist _ _).trans (free_sublist _ _))
    exact accounted.distinct.sublist less
  · intro opened
    rw [shut] at opened
    cases opened

theorem Accounted.step {history : List (Move × Answer)} {s t : System} {move : Move} {answer : Answer}
    (accounted : Accounted history s) (next : step s move = some (t, answer)) :
    Accounted (history ++ [(move, answer)]) t := by
  cases move with
  | register connectionId requestId ownerToken lifetimeToken answers =>
    simp only [CkartaConnectionHeap.step, Option.ite_none_left_eq_some, Bool.not_eq_eq_eq_not, Bool.not_true,
      Bool.not_eq_false, Option.map_eq_some_iff, Prod.exists] at next
    obtain ⟨new, inner, reply, moved, same⟩ := next
    split at same
    · rename_i untried
      obtain ⟨rfl, rfl⟩ := Prod.mk.inj same
      have sameEntries := step_same accounted.sound moved
        (fun op called => by cases called; exact untried) rfl
      exact accounted.quiet (sound_step accounted.sound moved) sameEntries
        (untried_leak rfl accounted.sound.ready untried (call_step moved).2)
    · rename_i slot tried
      obtain ⟨rfl, rfl⟩ := Prod.mk.inj same
      exact accounted.registers rfl new moved tried
  | other move =>
    simp only [CkartaConnectionHeap.step, Option.ite_none_left_eq_some, Option.map_eq_some_iff, Prod.exists] at next
    obtain ⟨notRegister, inner, reply, moved, same⟩ := next
    split at same
    · rename_i quiet
      obtain ⟨rfl, rfl⟩ := Prod.mk.inj same
      refine accounted.quiet (sound_step accounted.sound moved) (step_same accounted.sound moved ?_ quiet) rfl
      intro op called
      subst called
      cases op <;> first | rfl | exact absurd rfl notRegister
    · rename_i slot closing
      obtain ⟨rfl, rfl⟩ := Prod.mk.inj same
      exact accounted.closed moved closing

theorem accounted_start : Accounted [] start where
  sound := start_sound
  holds := by
    have none_ : holdings registryCapacity (owned start) = [] := by
      apply List.flatMap_eq_nil_iff.mpr
      intro slot _
      rfl
    rw [none_]
    exact empty_holds
  distinct := List.nodup_nil
  tied := by
    intro slot opened
    cases opened

theorem runs_accounted {history : List (Move × Answer)} {s : System} (runs : Runs step start history s) :
    Accounted history s := by
  apply runs.invariant fun history s => Accounted history s
  · exact accounted_start
  · intro history s t move answer before accounted next
    exact accounted.step next

def openCount (s : System) : Nat :=
  (List.range registryCapacity).countP fun slot => isOpen (s.inner.registry.entries slot)

theorem complete_length {blocks : Blocks} (complete : blocks.allocation.succeeds = true) :
    blocks.list.length = 4 := by
  obtain ⟨reader, writer, body, response⟩ := blocks
  cases reader <;> cases writer <;> cases body <;> cases response <;>
    first | rfl | cases complete

theorem Accounted.owned_length {history : List (Move × Answer)} {s : System} (accounted : Accounted history s)
    (slot : Nat) :
    (owned s slot).length = if isOpen (s.inner.registry.entries slot) then 4 else 0 := by
  unfold owned
  split
  · rename_i opened
    exact complete_length (accounted.tied slot opened).complete
  · rfl

/-- In every run and whatever malloc answers, no block is freed twice or before it was
    handed out, and the blocks in use are the four of every registered connection that is not
    closed and one body for each registration whose last malloc failed. -/
theorem heap_accounted {history : List (Move × Answer)} {s : System} (runs : Runs step start history s) :
    s.heap.wild = [] ∧ s.heap.live.Nodup ∧
      s.heap.live.Perm (holdings registryCapacity (owned s) ++ leaks history) ∧
      s.heap.live.length = 4 * openCount s + (leaks history).length := by
  have accounted := runs_accounted runs
  refine ⟨accounted.holds.wild, accounted.distinct, accounted.holds.live, ?_⟩
  rw [accounted.holds.live.length_eq, List.length_append, holdings_length accounted.owned_length]
  rfl

theorem step_inner {s t : System} {move : Move} {answer : Answer} (next : step s move = some (t, answer)) :
    CkartaConnectionSystem.step s.inner move.inner = some (t.inner, answer) := by
  cases move with
  | register connectionId requestId ownerToken lifetimeToken answers =>
    simp only [step, Option.ite_none_left_eq_some, Option.map_eq_some_iff, Prod.exists] at next
    obtain ⟨-, inner, reply, moved, same⟩ := next
    split at same <;> obtain ⟨rfl, rfl⟩ := Prod.mk.inj same <;> exact moved
  | other move =>
    simp only [step, Option.ite_none_left_eq_some, Option.map_eq_some_iff, Prod.exists] at next
    obtain ⟨-, inner, reply, moved, same⟩ := next
    split at same <;> obtain ⟨rfl, rfl⟩ := Prod.mk.inj same <;> exact moved

/-- The steps in which pins are released at most once and are fewer than 2^32. -/
def carefulHere (s : System) (move : Move) : Bool := careful s.inner move.inner

/-- Where pins are released at most once, what a pin points to is memory in use for as long
    as the pin is out, whoever closes, retires or registers meanwhile. -/
theorem pinned_objects_live {history : List (Move × Answer)} {s : System}
    (runs : Runs (guarded carefulHere step) start history s) :
    ∀ held ∈ s.inner.held, ∃ address, held.pin.object = some address ∧ address ∈ s.heap.live := by
  have pinned : Pinned s.inner := by
    apply runs.invariant fun _ s => Pinned s.inner
    · exact pinned_start
    · intro history s t move answer before pinned next
      obtain ⟨careful_, moved⟩ := guarded_cases next
      have stepped : carefulStep s.inner move.inner = some (t.inner, answer) :=
        (if_pos careful_).trans (step_inner moved)
      exact pinned_step pinned stepped
  have accounted := runs_accounted runs.unguarded
  intro held inside
  obtain ⟨slot, alive⟩ := pinned.alive held inside
  have opened : isOpen (s.inner.registry.entries slot) = true := by
    simp only [isOpen, alive.active, Bool.true_and, bne_iff_ne]
    exact alive.unclosed
  have tied := accounted.tied slot opened
  obtain ⟨address, object⟩ := Option.ne_none_iff_exists'.mp alive.present
  refine ⟨address, object, ?_⟩
  have pointed : address ∈ (s.blocks slot).list := by
    have named := alive.object
    rw [object] at named
    cases kind : held.kind with
    | reader =>
      rw [kind] at named
      have reader : (s.blocks slot).reader = some address := tied.reader.trans named
      simp [Blocks.list, reader]
    | output =>
      rw [kind] at named
      have writer : (s.blocks slot).writer = some address := tied.writer.trans named
      simp [Blocks.list, writer]
  have mine : address ∈ owned s slot := by
    unfold owned
    rw [if_pos opened]
    exact pointed
  apply accounted.holds.live.mem_iff.mpr
  exact List.mem_append_left _ (mem_holdings (decodeHandle_iff.mp alive.handle).1 mine)

/-- A connection, a registration whose last malloc fails, a pin and a close that is refused. -/
def sampleMoves : List Move :=
  [.register 3 7 5 9 ⟨some 10, some 11, some 12, some 13⟩, .register 4 8 5 9 ⟨some 20, some 21, some 22, none⟩,
    .other (.call (.acquire .reader sampleCaller .zero)), .other (.call (.close sampleCaller 0))]

def sampleRun : List (Move × Answer) × System :=
  (execute (guarded carefulHere step) start sampleMoves).getD ([], start)

theorem heap_accounted_sample :
    leaks sampleRun.1 = [22] ∧ sampleRun.2.heap.live.length = 5 ∧ openCount sampleRun.2 = 1 := by
  have executed : execute (guarded carefulHere step) start sampleMoves = some (sampleRun.1, sampleRun.2) := rfl
  have leaked : leaks sampleRun.1 = [22] := rfl
  have blocks : sampleRun.2.heap.live.length = 5 := rfl
  obtain ⟨-, -, -, length⟩ := heap_accounted (execute_runs executed).unguarded
  rw [leaked, blocks, List.length_singleton] at length
  exact ⟨leaked, blocks, by omega⟩

theorem pinned_objects_live_sample :
    ∃ address, some address = some 10 ∧ address ∈ sampleRun.2.heap.live := by
  have executed : execute (guarded carefulHere step) start sampleMoves = some (sampleRun.1, sampleRun.2) := rfl
  have out : sampleRun.2.inner.held = [⟨.reader, ⟨some 0, some 10, makeHandle 0 1⟩, 1⟩] := rfl
  obtain ⟨address, object, live⟩ := pinned_objects_live (execute_runs executed) _
    (by rw [out]; exact List.mem_singleton_self _)
  exact ⟨address, object.symm, live⟩

end CkartaConnectionHeap
