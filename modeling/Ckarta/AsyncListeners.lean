import Ckarta.AsyncContext
import Ckarta.StepHistory
import Ckarta.ThreadStacks

/-!
Listeners of an async context, java/org/ckarta/servlet/CkartaAsyncContext.java. Each atomic
access and each operation on the copy-on-write list is one step: the two state checks of
addListener, its append, the claim of the terminal state, the sink, the compare-and-set of
listenerFired, the iterator over the list, each callback, and the final state. A call made
inside a callback is a thread of its own, which the outer one does not overtake.
-/
namespace CkartaAsyncListeners
open StepHistory ThreadStacks
open CkartaAsyncContext (TerminalEvent State TerminalDecision terminalState Call)

/-- A listener is named by a number; the list may hold one more than once. -/
structure Context where
  state : State
  listenerFired : Bool
  listeners : List Nat
  deriving DecidableEq, Repr

/-- What a terminal call tells the sink and the listeners. -/
structure Terminal where
  event : TerminalEvent
  error : Option Nat
  deriving DecidableEq, Repr

inductive Instr where
  | checkActive (listener : Nat)
  | recheck (listener : Nat)
  | append (listener : Nat)
  | startCheck (terminal : Terminal)
  | gate (terminal : Terminal)
  | claim (terminal : Terminal)
  | sink (terminal : Terminal)
  | fire (terminal : Terminal)
  | iterate (terminal : Terminal)
  | notify (listener : Nat) (terminal : Terminal)
  | publish
  | recycle
  deriving DecidableEq, Repr

inductive Event where
  | quiet
  | added (listener : Nat)
  | refused (listener : Nat)
  | sank (terminal : Terminal)
  | iterated
  | heard (listener : Nat) (terminal : Terminal)
  deriving DecidableEq, Repr

/-- One step of a thread. The answer of the terminal gate is left open, none where the
    context has no gate; a sink or a listener that throws changes only what the caller of
    the terminal operation sees, since the finally block and the loop go on. -/
def exec (_ : Nat) (c : Context) : Instr → Option TerminalDecision → Option (Context × List Instr × Event)
  | .checkActive listener, _ =>
    if c.state ≠ .active then some (c, [], .refused listener) else some (c, [.recheck listener], .quiet)
  | .recheck listener, _ =>
    if c.state ≠ .active then some (c, [], .refused listener) else some (c, [.append listener], .quiet)
  | .append listener, _ => some ({ c with listeners := c.listeners ++ [listener] }, [], .added listener)
  | .startCheck terminal, _ =>
    if c.state ≠ .active then some (c, [], .quiet) else some (c, [.gate terminal], .quiet)
  | .gate terminal, answer =>
    if answer = some .error ∨ answer = some .lost then some (c, [], .quiet)
    else some (c, [.claim terminal], .quiet)
  | .claim terminal, _ =>
    if c.state = .active then
      some ({ c with state := terminalState terminal.event },
        [.sink terminal, .fire terminal, .publish], .quiet)
    else some (c, [], .quiet)
  | .sink terminal, _ => some (c, [], .sank terminal)
  | .fire terminal, _ =>
    if c.listenerFired then some (c, [], .quiet)
    else some ({ c with listenerFired := true }, [.iterate terminal], .quiet)
  | .iterate terminal, _ => some (c, c.listeners.map fun listener => .notify listener terminal, .iterated)
  | .notify listener terminal, _ => some (c, [], .heard listener terminal)
  | .publish, _ => some ({ c with state := .completed }, [], .quiet)
  | .recycle, _ =>
    if c.state = .completed then some ({ c with state := .recycled }, [], .quiet) else some (c, [], .quiet)

inductive Operation where
  | addListener (listener : Nat)
  | terminal (call : Call) (error : Nat)
  | recycle
  deriving DecidableEq, Repr

def Operation.entry : Operation → Instr
  | .addListener listener => .checkActive listener
  | .terminal .startRejected error => .startCheck ⟨.error, some error⟩
  | .terminal .startThrew error => .startCheck ⟨.error, some error⟩
  | .terminal .error error => .gate ⟨.error, some error⟩
  | .terminal call _ => .gate ⟨call.event, none⟩
  | .recycle => .recycle

inductive Move where
  | call (operation : Operation)
  | run (thread : Nat) (answer : Option TerminalDecision)
  deriving DecidableEq, Repr

def contextStep (s : System Context Instr) : Move → Option (System Context Instr × Event)
  | .call operation => some (⟨s.shared, s.threads ++ [[operation.entry]]⟩, .quiet)
  | .run thread answer => s.run exec thread answer

def opened : System Context Instr := ⟨⟨.active, false, []⟩, []⟩

/-- What a history says: who was added before and after the iterator over the list was
    created, what the sink was told, and who heard what. -/
structure Log where
  early : List Nat
  late : List Nat
  sunk : List Terminal
  iterated : Bool
  heard : List (Nat × Terminal)
  deriving DecidableEq, Repr

def Log.note (log : Log) : Event → Log
  | .added listener =>
    if log.iterated then { log with late := log.late ++ [listener] }
    else { log with early := log.early ++ [listener] }
  | .sank terminal => { log with sunk := log.sunk ++ [terminal] }
  | .iterated => { log with iterated := true }
  | .heard listener terminal => { log with heard := log.heard ++ [(listener, terminal)] }
  | .refused _ => log
  | .quiet => log

def contextLog (history : List (Move × Event)) : Log :=
  history.foldl (fun log entry => log.note entry.2) ⟨[], [], [], false, []⟩

theorem contextLog_snoc (history : List (Move × Event)) (entry : Move × Event) :
    contextLog (history ++ [entry]) = (contextLog history).note entry.2 := by
  rw [contextLog, List.foldl_append]
  rfl

/-- How far the one terminal call that won the claim has come. -/
inductive Phase where
  | before
  | sinking (terminal : Terminal)
  | firing (terminal : Terminal)
  | iterating (terminal : Terminal)
  | notifying (terminal : Terminal) (rest : List Nat)
  | ended (terminal : Terminal)

def Phase.code : Phase → Option (List Instr)
  | .before => none
  | .sinking terminal => some [.sink terminal, .fire terminal, .publish]
  | .firing terminal => some [.fire terminal, .publish]
  | .iterating terminal => some [.iterate terminal, .publish]
  | .notifying terminal rest => some (rest.map (fun listener => .notify listener terminal) ++ [.publish])
  | .ended _ => none

def winning : Instr → Bool
  | .sink _ | .fire _ | .iterate _ | .notify _ _ | .publish => true
  | _ => false

/-- The code of a call that has not won: one instruction at most. -/
def Plain (code : List Instr) : Prop := code = [] ∨ ∃ instr, code = [instr] ∧ winning instr = false

/-- One thread runs the winner's code and all others are plain. -/
def Placed (phase : Phase) (threads : List (List Instr)) : Prop :=
  match phase.code with
  | none => ∀ (i : Nat) code, threads[i]? = some code → Plain code
  | some winner => ∃ w, threads[w]? = some winner ∧
      ∀ (i : Nat) code, i ≠ w → threads[i]? = some code → Plain code

/-- The context and the log in each phase. -/
def Agrees (c : Context) (log : Log) : Phase → Prop
  | .before => c.state = .active ∧ c.listenerFired = false ∧ log.sunk = [] ∧ log.iterated = false ∧ log.heard = []
  | .sinking terminal => c.state = terminalState terminal.event ∧ c.listenerFired = false ∧ log.sunk = [] ∧
      log.iterated = false ∧ log.heard = []
  | .firing terminal => c.state = terminalState terminal.event ∧ c.listenerFired = false ∧ log.sunk = [terminal] ∧
      log.iterated = false ∧ log.heard = []
  | .iterating terminal => c.state = terminalState terminal.event ∧ log.sunk = [terminal] ∧
      log.iterated = false ∧ log.heard = []
  | .notifying terminal rest => c.state = terminalState terminal.event ∧ log.sunk = [terminal] ∧
      log.iterated = true ∧ ∃ told, log.early = told ++ rest ∧ log.heard = told.map (·, terminal)
  | .ended terminal => (c.state = .completed ∨ c.state = .recycled) ∧ log.sunk = [terminal] ∧
      log.iterated = true ∧ log.heard = log.early.map (·, terminal)

structure Tied (phase : Phase) (log : Log) (s : System Context Instr) : Prop where
  placed : Placed phase s.threads
  agrees : Agrees s.shared log phase
  listeners : s.shared.listeners = log.early ++ log.late
  late : log.iterated = false → log.late = []

theorem opened_tied : Tied .before (contextLog []) opened where
  placed := fun i code found => by cases found
  agrees := ⟨rfl, rfl, rfl, rfl, rfl⟩
  listeners := rfl
  late := fun _ => rfl

theorem terminalState_open (event : TerminalEvent) :
    terminalState event ≠ .active ∧ terminalState event ≠ .completed ∧ terminalState event ≠ .recycled := by
  cases event <;> simp [terminalState]

/-- All that a step outside the winner's code can do. -/
inductive PlainStep (c : Context) : Instr → Context → List Instr → Event → Prop where
  | checks {instr : Instr} {after : List Instr} {event : Event} (plain : Plain after)
      (silent : ∀ log : Log, log.note event = log) : PlainStep c instr c after event
  | append {listener : Nat} : PlainStep c (.append listener)
      { c with listeners := c.listeners ++ [listener] } [] (.added listener)
  | claim {terminal : Terminal} (active : c.state = .active) : PlainStep c (.claim terminal)
      { c with state := terminalState terminal.event } [.sink terminal, .fire terminal, .publish] .quiet
  | recycle (completed : c.state = .completed) :
      PlainStep c .recycle { c with state := .recycled } [] .quiet

theorem exec_plain {thread : Nat} {c c' : Context} {instr : Instr} {answer : Option TerminalDecision}
    {after : List Instr} {event : Event} (plain : winning instr = false)
    (executed : exec thread c instr answer = some (c', after, event)) : PlainStep c instr c' after event := by
  have idle : Plain [] := .inl rfl
  have quiet : ∀ log : Log, log.note .quiet = log := fun _ => rfl
  have refused : ∀ listener, ∀ log : Log, log.note (.refused listener) = log := fun _ _ => rfl
  cases instr with
  | checkActive listener =>
    simp only [exec] at executed
    split at executed <;> cases executed
    · exact .checks idle (refused listener)
    · exact .checks (.inr ⟨_, rfl, rfl⟩) quiet
  | recheck listener =>
    simp only [exec] at executed
    split at executed <;> cases executed
    · exact .checks idle (refused listener)
    · exact .checks (.inr ⟨_, rfl, rfl⟩) quiet
  | append listener =>
    cases executed
    exact .append
  | startCheck terminal =>
    simp only [exec] at executed
    split at executed <;> cases executed
    · exact .checks idle quiet
    · exact .checks (.inr ⟨_, rfl, rfl⟩) quiet
  | gate terminal =>
    simp only [exec] at executed
    split at executed <;> cases executed
    · exact .checks idle quiet
    · exact .checks (.inr ⟨_, rfl, rfl⟩) quiet
  | claim terminal =>
    simp only [exec] at executed
    split at executed <;> cases executed
    · rename_i active
      exact .claim active
    · exact .checks idle quiet
  | recycle =>
    simp only [exec] at executed
    split at executed <;> cases executed
    · rename_i completed
      exact .recycle completed
    · exact .checks idle quiet
  | sink | fire | iterate | notify | publish => cases plain

theorem plain_head {instr : Instr} {rest : List Instr} (plain : Plain (instr :: rest)) :
    winning instr = false ∧ rest = [] := by
  rcases plain with empty | ⟨other, same, losing⟩
  · cases empty
  · simp only [List.cons.injEq] at same
    exact ⟨same.1 ▸ losing, same.2⟩

theorem plain_set {threads : List (List Instr)} {thread : Nat} {code : List Instr} {keep : Nat → Prop}
    (all : ∀ (i : Nat) code, keep i → threads[i]? = some code → Plain code)
    (plain : keep thread → Plain code) :
    ∀ (i : Nat) other, keep i → (threads.set thread code)[i]? = some other → Plain other := by
  intro i other kept found
  rw [List.getElem?_set] at found
  split at found
  · rename_i same
    subst same
    split at found
    · cases found
      exact plain kept
    · cases found
  · exact all i other kept found

theorem placed_cases {phase : Phase} {threads : List (List Instr)} {thread : Nat} {instr : Instr}
    {rest : List Instr} (placed : Placed phase threads) (found : threads[thread]? = some (instr :: rest)) :
    (winning instr = false ∧ rest = [] ∧
      ∀ code, Plain code → Placed phase (threads.set thread code)) ∨
    (phase.code = some (instr :: rest) ∧
      ∀ (i : Nat) code, i ≠ thread → threads[i]? = some code → Plain code) := by
  unfold Placed at placed ⊢
  split at placed
  · rename_i none
    obtain ⟨losing, last⟩ := plain_head (placed thread _ found)
    refine .inl ⟨losing, last, ?_⟩
    intro code plain i other
    exact plain_set (fun i code (_ : True) => placed i code) (fun _ => plain) i other trivial
  · rename_i winner some
    obtain ⟨w, own, others⟩ := placed
    by_cases same : thread = w
    · subst same
      rw [own, Option.some.injEq] at found
      subst found
      exact .inr ⟨some, others⟩
    · obtain ⟨losing, last⟩ := plain_head (others thread _ same found)
      refine .inl ⟨losing, last, ?_⟩
      intro code plain
      refine ⟨w, ?_, plain_set others fun _ => plain⟩
      rw [List.getElem?_set_ne same]
      exact own

theorem placed_winner {phase : Phase} {threads : List (List Instr)} {thread : Nat} {old code : List Instr}
    (found : threads[thread]? = some old)
    (others : ∀ (i : Nat) code, i ≠ thread → threads[i]? = some code → Plain code)
    (next : phase.code = some code) : Placed phase (threads.set thread code) := by
  have within : thread < threads.length := (List.getElem?_eq_some_iff.mp found).1
  unfold Placed
  rw [next]
  exact ⟨thread, by simp [within], plain_set others fun own => absurd rfl own⟩

theorem placed_spawn {phase : Phase} {threads : List (List Instr)} (placed : Placed phase threads)
    (operation : Operation) : Placed phase (threads ++ [[operation.entry]]) := by
  have entry : Plain [operation.entry] := by
    refine .inr ⟨_, rfl, ?_⟩
    cases operation with
    | terminal call error => cases call <;> rfl
    | addListener | recycle => rfl
  have grown : ∀ {keep : Nat → Prop}, (∀ (i : Nat) code, keep i → threads[i]? = some code → Plain code) →
      ∀ (i : Nat) code, keep i → (threads ++ [[operation.entry]])[i]? = some code → Plain code := by
    intro keep all i code kept found
    rw [List.getElem?_append] at found
    split at found
    · exact all i code kept found
    · have member := List.mem_of_getElem? found
      rw [List.mem_singleton.mp member]
      exact entry
  unfold Placed at placed ⊢
  split at placed
  · rename_i none
    intro i code
    exact grown (fun i code (_ : True) => placed i code) i code trivial
  · obtain ⟨w, own, others⟩ := placed
    refine ⟨w, ?_, grown others⟩
    rw [List.getElem?_append_left (List.getElem?_eq_some_iff.mp own).1]
    exact own

theorem agrees_active {c : Context} {log : Log} {phase : Phase} (agrees : Agrees c log phase)
    (active : c.state = .active) : phase = .before := by
  cases phase with
  | before => rfl
  | sinking terminal | firing terminal | iterating terminal | notifying terminal rest =>
    exact absurd (agrees.1.symm.trans active) (terminalState_open terminal.event).1
  | ended terminal =>
    rcases agrees.1 with state | state <;> rw [active] at state <;> cases state

theorem agrees_completed {c : Context} {log : Log} {phase : Phase} (agrees : Agrees c log phase)
    (completed : c.state = .completed ∨ c.state = .recycled) : ∃ terminal, phase = .ended terminal := by
  cases phase with
  | ended terminal => exact ⟨terminal, rfl⟩
  | before => rcases completed with state | state <;> rw [agrees.1] at state <;> cases state
  | sinking terminal | firing terminal | iterating terminal | notifying terminal rest =>
    obtain ⟨-, notCompleted, notRecycled⟩ := terminalState_open terminal.event
    rcases completed with state | state
    · exact absurd (agrees.1.symm.trans state) notCompleted
    · exact absurd (agrees.1.symm.trans state) notRecycled

theorem agrees_added {c : Context} {log : Log} {phase : Phase} (listener : Nat)
    (agrees : Agrees c log phase) :
    Agrees { c with listeners := c.listeners ++ [listener] } (log.note (.added listener)) phase := by
  unfold Log.note
  cases phase with
  | before | sinking | firing | iterating => simp_all [Agrees]
  | notifying | ended => simp_all [Agrees]

theorem note_added (log : Log) (listener : Nat) (late : log.iterated = false → log.late = []) :
    (log.note (.added listener)).early ++ (log.note (.added listener)).late =
        log.early ++ log.late ++ [listener] ∧
      ((log.note (.added listener)).iterated = false → (log.note (.added listener)).late = []) := by
  unfold Log.note
  dsimp only
  split
  · rename_i iterated
    simp [iterated]
  · rename_i fresh
    have none := late (Bool.not_eq_true _ ▸ fresh)
    simp [none]

theorem tied_plain {phase : Phase} {log : Log} {s t : System Context Instr} {thread : Nat} {instr : Instr}
    {after : List Instr} {event : Event} (tied : Tied phase log s)
    (found : s.threads[thread]? = some [instr])
    (others : ∀ code, Plain code → Placed phase (s.threads.set thread code))
    (step : PlainStep s.shared instr t.shared after event)
    (threads : t.threads = s.threads.set thread after) : ∃ phase, Tied phase (log.note event) t := by
  obtain ⟨placed, agrees, listeners, late⟩ := tied
  obtain ⟨shared, code⟩ := t
  dsimp only at step threads
  subst threads
  cases step with
  | checks plain silent =>
    rw [silent]
    exact ⟨phase, others after plain, agrees, listeners, late⟩
  | @append listener =>
    obtain ⟨all, early⟩ := note_added log listener late
    exact ⟨phase, others [] (.inl rfl), agrees_added listener agrees, by rw [all, ← listeners], early⟩
  | @claim terminal active =>
    obtain rfl := agrees_active agrees active
    obtain ⟨-, unfired, unsunk, fresh, unheard⟩ := agrees
    refine ⟨.sinking terminal, ?_, ⟨rfl, unfired, unsunk, fresh, unheard⟩, listeners, late⟩
    exact placed_winner found (fun i code _ => placed i code) rfl
  | recycle completed =>
    obtain ⟨terminal, rfl⟩ := agrees_completed agrees (.inl completed)
    obtain ⟨-, sunk, iterated, heard⟩ := agrees
    exact ⟨.ended terminal, others [] (.inl rfl), ⟨.inr rfl, sunk, iterated, heard⟩, listeners, late⟩

theorem tied_winner {phase : Phase} {log : Log} {s t : System Context Instr} {thread : Nat} {instr : Instr}
    {answer : Option TerminalDecision} {rest after : List Instr} {event : Event} (tied : Tied phase log s)
    (found : s.threads[thread]? = some (instr :: rest)) (own : phase.code = some (instr :: rest))
    (others : ∀ (i : Nat) code, i ≠ thread → s.threads[i]? = some code → Plain code)
    (executed : exec thread s.shared instr answer = some (t.shared, after, event))
    (threads : t.threads = s.threads.set thread (after ++ rest)) : ∃ phase, Tied phase (log.note event) t := by
  obtain ⟨-, agrees, listeners, late⟩ := tied
  obtain ⟨shared, code⟩ := t
  dsimp only at executed threads
  subst threads
  cases phase with
  | before => cases own
  | ended terminal => cases own
  | sinking terminal =>
    cases own
    cases executed
    obtain ⟨state, unfired, unsunk, fresh, unheard⟩ := agrees
    refine ⟨.firing terminal, placed_winner found others rfl, ?_, listeners, late⟩
    exact ⟨state, unfired, by simp [Log.note, unsunk], fresh, unheard⟩
  | firing terminal =>
    cases own
    obtain ⟨state, unfired, sunk, fresh, unheard⟩ := agrees
    simp only [exec, unfired, Bool.false_eq_true, ↓reduceIte, Option.some.injEq, Prod.mk.injEq] at executed
    obtain ⟨rfl, rfl, rfl⟩ := executed
    exact ⟨.iterating terminal, placed_winner found others rfl, ⟨state, sunk, fresh, unheard⟩, listeners, late⟩
  | iterating terminal =>
    cases own
    cases executed
    obtain ⟨state, sunk, fresh, unheard⟩ := agrees
    have first : s.shared.listeners = log.early := by rw [listeners, late fresh, List.append_nil]
    refine ⟨.notifying terminal s.shared.listeners, placed_winner found others rfl, ?_, listeners, ?_⟩
    · exact ⟨state, sunk, rfl, [], first.symm, unheard⟩
    · intro fresh
      cases fresh
  | notifying terminal left =>
    obtain ⟨state, sunk, iterated, told, early, heard⟩ := agrees
    cases left with
    | nil =>
      cases own
      cases executed
      rw [List.append_nil] at early
      have all : Placed (.ended terminal) (s.threads.set thread ([] ++ [])) := by
        intro i code inside
        rw [List.getElem?_set] at inside
        split at inside
        · split at inside
          · cases inside
            exact .inl rfl
          · cases inside
        · rename_i other
          exact others i code (Ne.symm other) inside
      refine ⟨.ended terminal, all, ⟨.inl rfl, sunk, iterated, ?_⟩, listeners, late⟩
      rw [← early] at heard
      exact heard
    | cons listener left =>
      cases own
      cases executed
      refine ⟨.notifying terminal left, placed_winner found others rfl, ?_, listeners, late⟩
      refine ⟨state, sunk, iterated, told ++ [listener], by simpa [Log.note] using early, ?_⟩
      simp [Log.note, heard]

theorem contextStep_tied {phase : Phase} {log : Log} {s t : System Context Instr} {move : Move}
    {event : Event} (tied : Tied phase log s) (next : contextStep s move = some (t, event)) :
    ∃ phase, Tied phase (log.note event) t := by
  cases move with
  | call operation =>
    cases next
    exact ⟨phase, placed_spawn tied.placed operation, tied.agrees, tied.listeners, tied.late⟩
  | run thread answer =>
    obtain ⟨instr, rest, after, found, executed, threads⟩ := run_cases next
    rcases placed_cases tied.placed found with ⟨losing, rfl, others⟩ | ⟨own, others⟩
    · rw [List.append_nil] at threads
      exact tied_plain tied found others (exec_plain losing executed) threads
    · exact tied_winner tied found own others executed threads

theorem runs_tied {history : List (Move × Event)} {s : System Context Instr}
    (runs : Runs contextStep opened history s) : ∃ phase, Tied phase (contextLog history) s := by
  apply runs.invariant fun history s => ∃ phase, Tied phase (contextLog history) s
  · exact ⟨.before, opened_tied⟩
  · intro history s t move event _ ⟨phase, tied⟩ next
    rw [contextLog_snoc]
    exact contextStep_tied tied next

/-- Every listener heard the one event the sink was told, once for each addListener call for
    it that returned normally; a listener whose calls all threw heard nothing. -/
def EachHearsOnce (log : Log) : Prop :=
  ∃ terminal, log.sunk = [terminal] ∧ ∀ listener,
    log.heard.filter (fun entry => entry.1 == listener) =
      List.replicate ((log.early ++ log.late).count listener) (listener, terminal)

theorem heard_filter (told : List Nat) (terminal : Terminal) (listener : Nat) :
    (told.map (·, terminal)).filter (fun entry => entry.1 == listener) =
      List.replicate (told.count listener) (listener, terminal) := by
  induction told with
  | nil => rfl
  | cons first told ih =>
    rw [List.map_cons, List.filter_cons, List.count_cons, ih]
    by_cases same : first = listener
    · subst same
      simp [List.replicate_succ]
    · simp [same]

theorem each_hears_iff {log : Log} {terminal : Terminal} (sunk : log.sunk = [terminal])
    (heard : log.heard = log.early.map (·, terminal)) : EachHearsOnce log ↔ log.late = [] := by
  constructor
  · rintro ⟨other, -, each⟩
    rw [List.eq_nil_iff_forall_not_mem]
    intro listener member
    have counted := congrArg List.length (each listener)
    rw [heard, heard_filter, List.length_replicate, List.length_replicate, List.count_append] at counted
    have positive := List.count_pos_iff.mpr member
    omega
  · intro none
    refine ⟨terminal, sunk, ?_⟩
    intro listener
    rw [heard, heard_filter, none, List.append_nil]

/-- In a run that has reached COMPLETED every registered listener has heard the outcome exactly
    once if and only if no addListener appended after the notifying loop had created its
    iterator. The terminal call is then over its loop, so no later step adds to what was heard. -/
theorem listeners_hear_iff {history : List (Move × Event)} {s : System Context Instr}
    (runs : Runs contextStep opened history s)
    (reached : s.shared.state = .completed ∨ s.shared.state = .recycled) :
    EachHearsOnce (contextLog history) ↔ (contextLog history).late = [] := by
  obtain ⟨phase, tied⟩ := runs_tied runs
  obtain ⟨terminal, rfl⟩ := agrees_completed tied.agrees reached
  obtain ⟨-, sunk, -, heard⟩ := tied.agrees
  exact each_hears_iff sunk heard

def addThenComplete : List Move :=
  [.call (.addListener 7), .run 0 none, .run 0 none, .run 0 none,
    .call (.terminal .complete 0), .run 1 none, .run 1 none, .run 1 none, .run 1 none, .run 1 none,
    .run 1 none, .run 1 none]

theorem listeners_hear_added : ∃ history s, execute contextStep opened addThenComplete = some (history, s) ∧
    s.shared.state = .completed ∧ s.threads = [[], []] ∧
    (contextLog history).heard = [(7, ⟨.complete, none⟩)] ∧ EachHearsOnce (contextLog history) := by
  obtain ⟨history, s, executed, state, idle, heard, late⟩ : ∃ history s,
      execute contextStep opened addThenComplete = some (history, s) ∧ s.shared.state = .completed ∧
      s.threads = [[], []] ∧ (contextLog history).heard = [(7, ⟨.complete, none⟩)] ∧
      (contextLog history).late = [] := ⟨_, _, rfl, rfl, rfl, rfl, rfl⟩
  exact ⟨history, s, executed, state, idle, heard,
    (listeners_hear_iff (execute_runs executed) (.inl state)).mpr late⟩

/-- addListener passes both checks, complete() runs to its end, then the append happens. -/
def completeBetween : List Move :=
  [.call (.addListener 7), .run 0 none, .run 0 none,
    .call (.terminal .complete 0), .run 1 none, .run 1 none, .run 1 none, .run 1 none, .run 1 none,
    .run 1 none, .run 0 none]

theorem added_listener_unheard : ∃ history s, execute contextStep opened completeBetween = some (history, s) ∧
    s.shared.state = .completed ∧ s.threads = [[], []] ∧
    (contextLog history).late = [7] ∧ (contextLog history).sunk = [⟨.complete, none⟩] ∧
    (contextLog history).heard = [] ∧ ¬ EachHearsOnce (contextLog history) := by
  obtain ⟨history, s, executed, state, idle, late, sunk, heard⟩ : ∃ history s,
      execute contextStep opened completeBetween = some (history, s) ∧ s.shared.state = .completed ∧
      s.threads = [[], []] ∧ (contextLog history).late = [7] ∧
      (contextLog history).sunk = [⟨.complete, none⟩] ∧ (contextLog history).heard = [] :=
    ⟨_, _, rfl, rfl, rfl, rfl, rfl, rfl⟩
  refine ⟨history, s, executed, state, idle, late, sunk, heard, ?_⟩
  rintro ⟨terminal, -, each⟩
  have counted := congrArg List.length (each 7)
  rw [heard, late] at counted
  simp at counted

end CkartaAsyncListeners
