import Mathlib.Data.List.GetD
import Mathlib.Data.List.Induction
import Mathlib.Data.List.Nodup
import Ckarta.RequestOutcome

/-!
Each request gets at most one outcome. The fate of a request is what the marks of a history
add up to; a step either leaves every request where its fate is or is the one step that its
fate allows next.
-/
namespace CkartaRequestFates
open StepHistory CkartaRequestOutcome
open CkartaCompletionQueue (CompletionRecord)

inductive Fate where
  | undecided
  | cancelled
  | completed
  | failing (error : CkError)
  | failed (error : CkError)
  deriving DecidableEq, Repr

def Fate.next : Fate → Mark → Option Fate
  | .undecided, .won .cancelled => some .cancelled
  | .undecided, .won .completed => some .completed
  | .undecided, .won (.failed error) => some (.failing error)
  | .failing error, .published => some (.failed error)
  | _, _ => none

def fateOf (marks : List Mark) : Option Fate := marks.foldlM Fate.next .undecided

theorem fateOf_snoc (marks : List Mark) (mark : Mark) :
    fateOf (marks ++ [mark]) = (fateOf marks).bind (·.next mark) := by
  simp [fateOf, List.foldlM_append]

def markOf (entry : Move × Answer) : Option (Nat × Mark) := entry.2.mark

def Fits (request : Request) : Fate → Prop
  | .undecided => request.state.decided = false
  | .cancelled => request.state = .cancelling
  | .completed => request.state = .completed
  | .failing _ => request.state = .failing
  | .failed error => request.state = .failed ∧ request.error = error

def Answer.success (answer : Answer) : Option Nat :=
  match answer.attempt, answer.result with
  | some (index, false), some result => if result = 0 then some index else none
  | some (index, true), some result => if result = 1 ∨ result = -2 then some index else none
  | _, _ => none

/-- The thread is between winning a failure and publishing it. -/
def publishes (call : Option Call) (index : Nat) : Prop :=
  ∃ error polled, call = some (.failWrite index error polled) ∨ call = some (.failStore index error polled)

/-- The next access of the call cannot publish, and its exchange expects an open request. -/
structure Silent (call : Option Call) : Prop where
  publishes : ∀ index, ¬ publishes call index
  saw : ∀ index current, call = some (.cancelExchange index current) → current.decided = false

inductive Effect (s : System) (thread : Nat) : System → Answer → Prop where
  | quiet {t : System} {answer : Answer} {call : Option Call} (same : t.requests = s.requests)
      (free : ∀ index, ¬ publishes (s.threads thread) index) (silent : Silent call)
      (moves : t.threads = Function.update s.threads thread call) (mark : answer.mark = none)
      (fails : Answer.success answer = none) : Effect s thread t answer
  | begun {t : System} {answer : Answer} {index : Nat} (pending : (s.requests index).state = .pending)
      (changed : t.requests = Function.update s.requests index { s.requests index with state := .running })
      (moves : t.threads = Function.update s.threads thread none) (mark : answer.mark = none)
      (fails : Answer.success answer = none) : Effect s thread t answer
  | settled {t : System} {answer : Answer} {index : Nat} {state : RequestState} {outcome : Outcome}
      (which : state = .cancelling ∧ outcome = .cancelled ∨ state = .completed ∧ outcome = .completed)
      (undecided : (s.requests index).state.decided = false)
      (free : ∀ index, ¬ publishes (s.threads thread) index)
      (changed : t.requests = Function.update s.requests index { s.requests index with state := state })
      (moves : t.threads = Function.update s.threads thread none)
      (mark : answer.mark = some (index, .won outcome))
      (succeeds : Answer.success answer = some index) : Effect s thread t answer
  | failing {t : System} {answer : Answer} {index : Nat} {error : CkError} {polled : Bool}
      (undecided : (s.requests index).state.decided = false)
      (free : ∀ index, ¬ publishes (s.threads thread) index)
      (changed : t.requests = Function.update s.requests index { s.requests index with state := .failing })
      (moves : t.threads = Function.update s.threads thread (some (.failWrite index error polled)))
      (mark : answer.mark = some (index, .won (.failed error)))
      (fails : Answer.success answer = none) : Effect s thread t answer
  | wrote {t : System} {answer : Answer} {index : Nat} {error : CkError} {polled : Bool}
      (at_ : s.threads thread = some (.failWrite index error polled))
      (changed : t.requests = Function.update s.requests index { s.requests index with error := error })
      (moves : t.threads = Function.update s.threads thread (some (.failStore index error polled)))
      (mark : answer.mark = none) (fails : Answer.success answer = none) : Effect s thread t answer
  | published {t : System} {answer : Answer} {index : Nat} {error : CkError} {polled : Bool}
      (at_ : s.threads thread = some (.failStore index error polled))
      (changed : t.requests = Function.update s.requests index { s.requests index with state := .failed })
      (moves : t.threads = Function.update s.threads thread none)
      (mark : answer.mark = some (index, .published))
      (succeeds : Answer.success answer = some index) : Effect s thread t answer

theorem exchangeRunning_cases (request : Request) (desired : RequestState) :
    (request.state = .running ∧ exchangeRunning request desired = (0, { request with state := desired })) ∨
      (request.state.decided = true ∧ exchangeRunning request desired = (1, request)) ∨
      (request.state = .pending ∧ exchangeRunning request desired = (-1, request)) := by
  obtain ⟨identity, state, error⟩ := request
  cases state with
  | running => exact .inl ⟨rfl, rfl⟩
  | pending => exact .inr (.inr ⟨rfl, rfl⟩)
  | cancelling => exact .inr (.inl ⟨rfl, rfl⟩)
  | failing => exact .inr (.inl ⟨rfl, rfl⟩)
  | completed => exact .inr (.inl ⟨rfl, rfl⟩)
  | failed => exact .inr (.inl ⟨rfl, rfl⟩)

section
variable {s : System} {thread : Nat} (free : ∀ index, ¬ publishes (s.threads thread) index)

theorem idle_free (call : Option Call) (idle : call = none) (index : Nat) : ¬ publishes call index := by
  rintro ⟨error, polled, writes | stores⟩
  · rw [idle] at writes
    cases writes
  · rw [idle] at stores
    cases stores

theorem none_silent : Silent none := ⟨idle_free none rfl, fun _ _ wrong => by cases wrong⟩

theorem cancelLoad_silent (index : Nat) : Silent (some (.cancelLoad index)) := by
  refine ⟨?_, fun _ _ wrong => by cases wrong⟩
  rintro other ⟨error, polled, wrong | wrong⟩ <;> cases wrong

theorem route_silent (record : CompletionRecord) : Silent (some (.route record)) := by
  refine ⟨?_, fun _ _ wrong => by cases wrong⟩
  rintro other ⟨error, polled, wrong | wrong⟩ <;> cases wrong

theorem cancelExchange_silent (index : Nat) {current : RequestState} (open_ : current.decided = false) :
    Silent (some (.cancelExchange index current)) := by
  refine ⟨?_, ?_⟩
  · rintro other ⟨error, polled, wrong | wrong⟩ <;> cases wrong
  · intro other seen same
    cases same
    exact open_

include free

theorem finish_effect (index : Nat) (polled : Bool) :
    Effect s thread (finishExchange s thread index polled).1 (finishExchange s thread index polled).2 := by
  rcases exchangeRunning_cases (s.requests index) .completed with
    ⟨running, exchanged⟩ | ⟨decided, exchanged⟩ | ⟨pending, exchanged⟩
  · refine @Effect.settled s thread _ _ index .completed .completed (.inr ⟨rfl, rfl⟩) ?_ free ?_ ?_ ?_ ?_
    all_goals simp [finishExchange, ckRequestFinish, exchanged, System.setRequest, System.setThread,
      reported, Answer.success, running, RequestState.decided]
    cases polled <;> simp
  · apply Effect.quiet _ free none_silent
    all_goals simp [finishExchange, ckRequestFinish, exchanged, System.setRequest, System.setThread,
      reported, Answer.success]
    cases polled <;> simp
  · apply Effect.quiet _ free none_silent
    all_goals simp [finishExchange, ckRequestFinish, exchanged, System.setRequest, System.setThread,
      reported, Answer.success]
    cases polled <;> simp

theorem fail_effect (index : Nat) (error : CkError) (polled : Bool) :
    Effect s thread (failExchange s thread index error polled).1
      (failExchange s thread index error polled).2 := by
  rcases exchangeRunning_cases (s.requests index) .failing with
    ⟨running, exchanged⟩ | ⟨decided, exchanged⟩ | ⟨pending, exchanged⟩
  · refine @Effect.failing s thread _ _ index error polled ?_ free ?_ ?_ ?_ ?_
    all_goals simp [failExchange, exchanged, System.setRequest, System.setThread, Answer.success, running,
      RequestState.decided]
  · apply Effect.quiet _ free none_silent
    all_goals simp [failExchange, exchanged, System.setThread, reported, Answer.success]
    cases polled <;> simp
  · apply Effect.quiet _ free none_silent
    all_goals simp [failExchange, exchanged, System.setThread, reported, Answer.success]
    cases polled <;> simp

theorem quiet_effect {t : System} {answer : Answer} (call : Option Call) (same : t.requests = s.requests)
    (silent : Silent call)
    (moves : t.threads = Function.update s.threads thread call) (mark : answer.mark = none)
    (fails : Answer.success answer = none) : Effect s thread t answer :=
  .quiet same free silent moves mark fails

theorem cancelLook_effect (index : Nat) :
    Effect s thread (cancelLook s thread index).1 (cancelLook s thread index).2 := by
  unfold cancelLook
  split
  · refine quiet_effect free none rfl none_silent rfl rfl ?_
    simp [Answer.success]
  · rename_i open_
    refine quiet_effect free (some (.cancelExchange index (s.requests index).state)) rfl ?_ rfl rfl rfl
    exact cancelExchange_silent index (by simpa using open_)

theorem route_effect (record : CompletionRecord) :
    Effect s thread (route s thread record).1 (route s thread record).2 := by
  unfold route
  split
  · exact quiet_effect free none rfl none_silent rfl rfl rfl
  · split
    · exact finish_effect free _ true
    · dsimp only
      split
      · refine quiet_effect free none rfl none_silent rfl rfl ?_
        simp [Answer.success]
      · exact fail_effect free _ _ true

end

theorem continued_effect {s : System} {thread : Nat} {call : Call} (runs : s.threads thread = some call)
    (spurious : Bool)
    (saw : ∀ index current, call = .cancelExchange index current → current.decided = false) :
    Effect s thread (continued s thread spurious call).1 (continued s thread spurious call).2 := by
  have other : (∀ index error polled, call ≠ .failWrite index error polled ∧ call ≠ .failStore index error polled) →
      ∀ index, ¬ publishes (s.threads thread) index := by
    rintro neither index ⟨error, polled, writes | stores⟩
    · exact (neither index error polled).1 (Option.some.inj (runs.symm.trans writes))
    · exact (neither index error polled).2 (Option.some.inj (runs.symm.trans stores))
  cases call with
  | cancelLoad index => exact cancelLook_effect (other fun _ _ _ => ⟨Call.noConfusion, Call.noConfusion⟩) index
  | route record => exact route_effect (other fun _ _ _ => ⟨Call.noConfusion, Call.noConfusion⟩) record
  | cancelExchange index current =>
    have free := other fun _ _ _ => ⟨Call.noConfusion, Call.noConfusion⟩
    simp only [continued]
    split
    · rename_i wins
      refine @Effect.settled s thread _ _ index .cancelling .cancelled (.inl ⟨rfl, rfl⟩) ?_ free rfl rfl rfl ?_
      · rw [wins.2]
        exact saw index current rfl
      · simp [Answer.success]
    · exact quiet_effect free (some (.cancelLoad index)) rfl (cancelLoad_silent index) rfl rfl rfl
  | failWrite index error polled =>
    refine .wrote runs rfl rfl rfl ?_
    cases polled <;> rfl
  | failStore index error polled =>
    refine .published runs rfl rfl rfl ?_
    cases polled <;> simp [continued, reported, Answer.success]

theorem enter_effect {s t : System} {thread : Nat} {action : Action} {answer : Answer}
    (idle : s.threads thread = none) (next : enter s thread action = some (t, answer)) :
    Effect s thread t answer := by
  have free : ∀ index, ¬ publishes (s.threads thread) index := idle_free _ idle
  have unmoved : s.threads = Function.update s.threads thread none := by
    rw [← idle, Function.update_eq_self]
  cases action with
  | begin index =>
    simp only [enter] at next
    split at next
    · simp only [Option.some.injEq, Prod.mk.injEq] at next
      obtain ⟨rfl, rfl⟩ := next
      by_cases pending : (s.requests index).state = .pending
      · refine .begun pending ?_ unmoved rfl rfl
        simp [System.setRequest, ckRequestBegin, pending]
      · refine quiet_effect free none ?_ none_silent unmoved rfl rfl
        simp [System.setRequest, ckRequestBegin, pending]
    · cases next
  | cancel index =>
    simp only [enter] at next
    split at next
    · have effect := cancelLook_effect free index
      rw [Option.some.inj next] at effect
      exact effect
    · cases next
  | fail index error =>
    simp only [enter] at next
    split at next
    · split at next
      · obtain ⟨rfl, rfl⟩ := Prod.mk.inj (Option.some.inj next)
        refine quiet_effect free none rfl none_silent unmoved rfl ?_
        simp [Answer.success]
      · have effect := fail_effect free index error false
        rw [Option.some.inj next] at effect
        exact effect
    · cases next
  | finish index =>
    simp only [enter] at next
    split at next
    · have effect := finish_effect free index false
      rw [Option.some.inj next] at effect
      exact effect
    · cases next
  | poll =>
    simp only [enter] at next
    split at next
    · obtain ⟨rfl, rfl⟩ := Prod.mk.inj (Option.some.inj next)
      exact quiet_effect free (some (.route _)) rfl (route_silent _) rfl rfl rfl
    · obtain ⟨rfl, rfl⟩ := Prod.mk.inj (Option.some.inj next)
      exact quiet_effect free none rfl none_silent unmoved rfl rfl
  | deliver record fault =>
    simp only [enter, Option.some.injEq, Prod.mk.injEq] at next
    obtain ⟨rfl, rfl⟩ := next
    exact quiet_effect free none rfl none_silent unmoved rfl rfl
  | resume spurious => cases next

def Fate.returned : Fate → Nat
  | .undecided | .failing _ => 0
  | .cancelled | .completed | .failed _ => 1

def successes (index : Nat) (history : List (Move × Answer)) : List Nat :=
  history.filterMap fun entry => (Answer.success entry.2).filter (· == index)

structure Holds (identities : List Identity) (history : List (Move × Answer)) (s : System) : Prop where
  size : s.size = identities.length
  same : ∀ index, (s.requests index).identity = identities.getD index noIdentity
  fates : ∀ index, ∃ fate, fateOf (log markOf index history) = some fate ∧ Fits (s.requests index) fate ∧
    (successes index history).length = fate.returned
  saw : ∀ thread index current, s.threads thread = some (.cancelExchange index current) →
    current.decided = false
  writing : ∀ thread index error polled, s.threads thread = some (.failWrite index error polled) →
    fateOf (log markOf index history) = some (.failing error)
  storing : ∀ thread index error polled, s.threads thread = some (.failStore index error polled) →
    fateOf (log markOf index history) = some (.failing error) ∧ (s.requests index).error = error
  unique : ∀ first second index, publishes (s.threads first) index → publishes (s.threads second) index →
    first = second

theorem told_mark (move : Move) (answer : Answer) (index : Nat) :
    told markOf index (move, answer) =
      answer.mark.bind fun mark => if mark.1 = index then some mark.2 else none := rfl

theorem log_quiet {move : Move} {answer : Answer} (history : List (Move × Answer)) (index : Nat)
    (quiet : ∀ mark, answer.mark = some mark → mark.1 ≠ index) :
    log markOf index (history ++ [(move, answer)]) = log markOf index history := by
  rw [log_snoc, told_mark]
  cases marked : answer.mark with
  | none => simp
  | some mark => simp [quiet mark marked]

theorem log_marked {move : Move} {answer : Answer} (history : List (Move × Answer)) {index : Nat} {mark : Mark}
    (marked : answer.mark = some (index, mark)) :
    log markOf index (history ++ [(move, answer)]) = log markOf index history ++ [mark] := by
  rw [log_snoc, told_mark, marked]
  simp

theorem successes_quiet {move : Move} {answer : Answer} (history : List (Move × Answer)) (index : Nat)
    (fails : Answer.success answer ≠ some index) :
    successes index (history ++ [(move, answer)]) = successes index history := by
  unfold successes
  rw [filterMap_snoc]
  cases success : Answer.success answer with
  | none => simp
  | some other =>
    have away : other ≠ index := by
      rintro rfl
      exact fails success
    simp [away]

theorem successes_won {move : Move} {answer : Answer} (history : List (Move × Answer)) {index : Nat}
    (succeeds : Answer.success answer = some index) :
    (successes index (history ++ [(move, answer)])).length = (successes index history).length + 1 := by
  unfold successes
  rw [filterMap_snoc, succeeds]
  simp

theorem Holds.publisher {identities : List Identity} {history : List (Move × Answer)} {s : System}
    (holds : Holds identities history s) {thread index : Nat} (writes : publishes (s.threads thread) index) :
    ∃ error, fateOf (log markOf index history) = some (.failing error) ∧
      (s.requests index).state = .failing := by
  have failing : ∃ error, fateOf (log markOf index history) = some (.failing error) := by
    obtain ⟨error, polled, at_ | at_⟩ := writes
    · exact ⟨error, holds.writing thread index error polled at_⟩
    · exact ⟨error, (holds.storing thread index error polled at_).1⟩
  obtain ⟨error, fated⟩ := failing
  obtain ⟨fate, other, fits, -⟩ := holds.fates index
  obtain rfl := Option.some.inj (fated.symm.trans other)
  exact ⟨error, fated, fits⟩

theorem Holds.undecided {identities : List Identity} {history : List (Move × Answer)} {s : System}
    (holds : Holds identities history s) {index : Nat} (open_ : (s.requests index).state.decided = false) :
    fateOf (log markOf index history) = some .undecided ∧ (successes index history).length = 0 := by
  obtain ⟨fate, fated, fits, count⟩ := holds.fates index
  cases fate with
  | undecided => exact ⟨fated, count⟩
  | cancelled =>
    rw [show (s.requests index).state = .cancelling from fits] at open_
    cases open_
  | completed =>
    rw [show (s.requests index).state = .completed from fits] at open_
    cases open_
  | failing error =>
    rw [show (s.requests index).state = .failing from fits] at open_
    cases open_
  | failed error =>
    rw [fits.1] at open_
    cases open_

theorem step_effect {s t : System} {move : Move} {answer : Answer}
    (saw : ∀ thread index current, s.threads thread = some (.cancelExchange index current) →
      current.decided = false)
    (next : step s move = some (t, answer)) : Effect s move.thread t answer := by
  unfold step at next
  cases runs : s.threads move.thread with
  | none =>
    rw [runs] at next
    exact enter_effect runs next
  | some call =>
    rw [runs] at next
    dsimp only at next
    split at next
    · rename_i spurious resumed
      have effect := continued_effect runs spurious fun index current same =>
        saw move.thread index current (by rw [runs, same])
      rw [Option.some.inj next] at effect
      exact effect
    · cases next

theorem step_size {s t : System} {move : Move} {answer : Answer}
    (next : step s move = some (t, answer)) : t.size = s.size := by
  have route_size : ∀ record, (route s move.thread record).1.size = s.size := by
    intro record
    unfold route
    split
    · rfl
    · split
      · rfl
      · dsimp only
        split
        · rfl
        · unfold failExchange
          dsimp only
          split <;> rfl
  unfold step at next
  split at next
  · cases chosen : move.action with
    | begin index | cancel index | fail index error | finish index | poll | deliver record fault =>
      simp only [chosen, enter, cancelLook, failExchange, finishExchange] at next
      repeat' split at next
      all_goals simp only [Option.some.injEq, Prod.mk.injEq, reduceCtorEq] at next
      all_goals
        obtain ⟨rfl, -⟩ := next
        rfl
    | resume spurious =>
      rw [chosen] at next
      cases next
  · split at next
    · rename_i call _ _ spurious _
      cases call with
      | route record =>
        have same := route_size record
        have both := congrArg Prod.fst (Option.some.inj next)
        dsimp only [continued] at both
        rw [← both]
        exact same
      | cancelLoad index | cancelExchange index current | failWrite index error polled
      | failStore index error polled =>
        simp only [continued, cancelLook] at next
        repeat' split at next
        all_goals simp only [Option.some.injEq, Prod.mk.injEq] at next
        all_goals
          obtain ⟨rfl, -⟩ := next
          rfl
    · cases next

section
variable {identities : List Identity} {history : List (Move × Answer)} {s t : System} {move : Move}
  {answer : Answer}

theorem other_thread {thread other : Nat} {call : Option Call}
    (moves : t.threads = Function.update s.threads thread call) (away : other ≠ thread) :
    t.threads other = s.threads other := by
  rw [moves, Function.update_of_ne away]

theorem update_identity {index : Nat} {request : Request}
    (same : ∀ i, (s.requests i).identity = identities.getD i noIdentity)
    (changed : t.requests = Function.update s.requests index request)
    (kept : request.identity = (s.requests index).identity) (i : Nat) :
    (t.requests i).identity = identities.getD i noIdentity := by
  rw [changed]
  by_cases here : i = index
  · subst here
    rw [Function.update_self, kept]
    exact same i
  · rw [Function.update_of_ne here]
    exact same i

theorem fates_update (holds : Holds identities history s) {index : Nat} {request : Request}
    (changed : t.requests = Function.update s.requests index request)
    (marks : ∀ mark, answer.mark = some mark → mark.1 = index)
    (told : Answer.success answer = none ∨ Answer.success answer = some index)
    (here : ∃ fate, fateOf (log markOf index (history ++ [(move, answer)])) = some fate ∧ Fits request fate ∧
      (successes index (history ++ [(move, answer)])).length = fate.returned) (i : Nat) :
    ∃ fate, fateOf (log markOf i (history ++ [(move, answer)])) = some fate ∧ Fits (t.requests i) fate ∧
      (successes i (history ++ [(move, answer)])).length = fate.returned := by
  rw [changed]
  by_cases same : i = index
  · subst same
    rw [Function.update_self]
    exact here
  · have fails : Answer.success answer ≠ some i := by
      rcases told with none | other
      · rw [none]
        exact (Option.some_ne_none i).symm
      · rw [other]
        intro wrong
        exact same (Option.some.inj wrong).symm
    rw [Function.update_of_ne same, log_quiet history i (fun mark marked wrong => same (wrong.symm.trans (marks mark marked))),
      successes_quiet history i fails]
    exact holds.fates i

theorem publishers_update (holds : Holds identities history s) {thread index : Nat} {request : Request}
    {call : Option Call} (moves : t.threads = Function.update s.threads thread call)
    (changed : t.requests = Function.update s.requests index request)
    (marks : ∀ mark, answer.mark = some mark → mark.1 = index)
    (apart : ∀ other, other ≠ thread → ¬ publishes (s.threads other) index)
    {other i : Nat} (away : other ≠ thread) (error : CkError) (polled : Bool) :
    (t.threads other = some (.failWrite i error polled) →
      fateOf (log markOf i (history ++ [(move, answer)])) = some (.failing error)) ∧
    (t.threads other = some (.failStore i error polled) →
      fateOf (log markOf i (history ++ [(move, answer)])) = some (.failing error) ∧
        (t.requests i).error = error) := by
  rw [other_thread moves away]
  refine ⟨?_, ?_⟩
  · intro at_
    have elsewhere : i ≠ index := by
      rintro rfl
      exact apart other away ⟨error, polled, .inl at_⟩
    rw [log_quiet history i fun mark marked wrong => elsewhere (wrong.symm.trans (marks mark marked))]
    exact holds.writing other i error polled at_
  · intro at_
    have elsewhere : i ≠ index := by
      rintro rfl
      exact apart other away ⟨error, polled, .inr at_⟩
    rw [log_quiet history i fun mark marked wrong => elsewhere (wrong.symm.trans (marks mark marked)), changed,
      Function.update_of_ne elsewhere]
    exact holds.storing other i error polled at_

theorem Holds.unpublished (holds : Holds identities history s) {index : Nat}
    (open_ : (s.requests index).state.decided = false) (thread : Nat) :
    ¬ publishes (s.threads thread) index := by
  intro writes
  obtain ⟨error, -, failing⟩ := holds.publisher writes
  rw [failing] at open_
  cases open_

theorem unique_update (holds : Holds identities history s) {thread : Nat} {call : Option Call}
    (moves : t.threads = Function.update s.threads thread call)
    (mine : ∀ index, publishes call index → ∀ other, other ≠ thread → ¬ publishes (s.threads other) index)
    (first second index : Nat) (one : publishes (t.threads first) index)
    (two : publishes (t.threads second) index) : first = second := by
  by_cases isFirst : first = thread
  · by_cases isSecond : second = thread
    · rw [isFirst, isSecond]
    · rw [isFirst, moves, Function.update_self] at one
      rw [other_thread moves isSecond] at two
      exact absurd two (mine index one second isSecond)
  · rw [other_thread moves isFirst] at one
    by_cases isSecond : second = thread
    · rw [isSecond, moves, Function.update_self] at two
      exact absurd one (mine index two first isFirst)
    · rw [other_thread moves isSecond] at two
      exact holds.unique first second index one two

theorem saw_update (holds : Holds identities history s) {thread : Nat} {call : Option Call}
    (moves : t.threads = Function.update s.threads thread call)
    (mine : ∀ index current, call = some (.cancelExchange index current) → current.decided = false)
    (other index : Nat) (current : RequestState)
    (at_ : t.threads other = some (.cancelExchange index current)) : current.decided = false := by
  by_cases here : other = thread
  · rw [here, moves, Function.update_self] at at_
    exact mine index current at_
  · rw [other_thread moves here] at at_
    exact holds.saw other index current at_

theorem quiet_step (holds : Holds identities history s) {thread : Nat} {call : Option Call}
    (size : t.size = s.size) (same : t.requests = s.requests) (silent : Silent call)
    (moves : t.threads = Function.update s.threads thread call) (mark : answer.mark = none)
    (fails : Answer.success answer = none) : Holds identities (history ++ [(move, answer)]) t := by
  have logs : ∀ i, log markOf i (history ++ [(move, answer)]) = log markOf i history := by
    intro i
    exact log_quiet history i fun _ marked => by rw [mark] at marked; cases marked
  have counts : ∀ i, successes i (history ++ [(move, answer)]) = successes i history := by
    intro i
    exact successes_quiet history i (by rw [fails]; exact (Option.some_ne_none i).symm)
  have old : ∀ {other : Nat} {published : Call}, t.threads other = some published →
      (∃ index, publishes (some published) index) → s.threads other = some published := by
    rintro other published at_ ⟨index, writes⟩
    by_cases here : other = thread
    · rw [here, moves, Function.update_self] at at_
      rw [← at_] at writes
      exact absurd writes (silent.publishes index)
    · rwa [other_thread moves here] at at_
  constructor
  · exact size.trans holds.size
  · rw [same]
    exact holds.same
  · intro i
    rw [same, logs, counts]
    exact holds.fates i
  · exact saw_update holds moves silent.saw
  · intro other i error polled at_
    rw [logs]
    exact holds.writing other i error polled (old at_ ⟨i, error, polled, .inl rfl⟩)
  · intro other i error polled at_
    rw [logs, same]
    exact holds.storing other i error polled (old at_ ⟨i, error, polled, .inr rfl⟩)
  · exact unique_update holds moves fun index writes => absurd writes (silent.publishes index)

theorem open_step (holds : Holds identities history s) {thread index : Nat} {state : RequestState}
    {call : Option Call} {fate : Fate} (size : t.size = s.size)
    (open_ : (s.requests index).state.decided = false)
    (changed : t.requests = Function.update s.requests index { s.requests index with state := state })
    (moves : t.threads = Function.update s.threads thread call)
    (marks : ∀ mark, answer.mark = some mark → mark.1 = index)
    (told : Answer.success answer = none ∨ Answer.success answer = some index)
    (fated : fateOf (log markOf index (history ++ [(move, answer)])) = some fate)
    (fits : Fits { s.requests index with state := state } fate)
    (count : (successes index (history ++ [(move, answer)])).length = fate.returned)
    (saw : ∀ i current, call = some (.cancelExchange i current) → current.decided = false)
    (writes : ∀ i error polled, call = some (.failWrite i error polled) → i = index ∧ fate = .failing error)
    (stores : ∀ i error polled, call ≠ some (.failStore i error polled)) :
    Holds identities (history ++ [(move, answer)]) t := by
  have apart : ∀ other, other ≠ thread → ¬ publishes (s.threads other) index :=
    fun other _ => holds.unpublished open_ other
  constructor
  · exact size.trans holds.size
  · exact update_identity holds.same changed rfl
  · exact fates_update holds changed marks told ⟨fate, fated, fits, count⟩
  · exact saw_update holds moves saw
  · intro other i error polled at_
    by_cases here : other = thread
    · rw [here, moves, Function.update_self] at at_
      obtain ⟨rfl, rfl⟩ := writes i error polled at_
      exact fated
    · exact (publishers_update holds moves changed marks apart here error polled).1 at_
  · intro other i error polled at_
    by_cases here : other = thread
    · rw [here, moves, Function.update_self] at at_
      exact absurd at_ (stores i error polled)
    · exact (publishers_update holds moves changed marks apart here error polled).2 at_
  · apply unique_update holds moves
    rintro i ⟨error, polled, at_ | at_⟩
    · obtain ⟨rfl, -⟩ := writes i error polled at_
      exact apart
    · exact absurd at_ (stores i error polled)

theorem wrote_step (holds : Holds identities history s) {thread index : Nat} {error : CkError} {polled : Bool}
    (size : t.size = s.size) (at_ : s.threads thread = some (.failWrite index error polled))
    (changed : t.requests = Function.update s.requests index { s.requests index with error := error })
    (moves : t.threads = Function.update s.threads thread (some (.failStore index error polled)))
    (mark : answer.mark = none) (fails : Answer.success answer = none) :
    Holds identities (history ++ [(move, answer)]) t := by
  have mine : publishes (s.threads thread) index := ⟨error, polled, .inl at_⟩
  have apart : ∀ other, other ≠ thread → ¬ publishes (s.threads other) index :=
    fun other away writes => away (holds.unique other thread index writes mine)
  have marks : ∀ mark, answer.mark = some mark → mark.1 = index := by
    intro other marked
    rw [mark] at marked
    cases marked
  have fated := holds.writing thread index error polled at_
  have same : log markOf index (history ++ [(move, answer)]) = log markOf index history :=
    log_quiet history index fun _ marked => by rw [mark] at marked; cases marked
  obtain ⟨fate, isFate, fits, count⟩ := holds.fates index
  obtain rfl := Option.some.inj (fated.symm.trans isFate)
  constructor
  · exact size.trans holds.size
  · exact update_identity holds.same changed rfl
  · refine fates_update holds changed marks (.inl fails) ⟨.failing error, by rw [same, fated], fits, ?_⟩
    rw [successes_quiet history index (by rw [fails]; exact (Option.some_ne_none index).symm)]
    exact count
  · exact saw_update holds moves fun i current wrong => by cases wrong
  · intro other i given polls now
    by_cases here : other = thread
    · rw [here, moves, Function.update_self] at now
      cases now
    · exact (publishers_update holds moves changed marks apart here given polls).1 now
  · intro other i given polls now
    by_cases here : other = thread
    · rw [here, moves, Function.update_self] at now
      cases now
      rw [same, changed, Function.update_self]
      exact ⟨fated, rfl⟩
    · exact (publishers_update holds moves changed marks apart here given polls).2 now
  · apply unique_update holds moves
    rintro i ⟨given, polls, now | now⟩
    · cases now
    · cases now
      exact apart

theorem published_step (holds : Holds identities history s) {thread index : Nat} {error : CkError}
    {polled : Bool} (size : t.size = s.size)
    (at_ : s.threads thread = some (.failStore index error polled))
    (changed : t.requests = Function.update s.requests index { s.requests index with state := .failed })
    (moves : t.threads = Function.update s.threads thread none)
    (mark : answer.mark = some (index, .published)) (succeeds : Answer.success answer = some index) :
    Holds identities (history ++ [(move, answer)]) t := by
  have mine : publishes (s.threads thread) index := ⟨error, polled, .inr at_⟩
  have apart : ∀ other, other ≠ thread → ¬ publishes (s.threads other) index :=
    fun other away writes => away (holds.unique other thread index writes mine)
  have marks : ∀ mark, answer.mark = some mark → mark.1 = index := by
    intro other marked
    rw [mark] at marked
    obtain rfl := Option.some.inj marked
    rfl
  obtain ⟨fated, written⟩ := holds.storing thread index error polled at_
  obtain ⟨fate, isFate, fits, count⟩ := holds.fates index
  obtain rfl := Option.some.inj (fated.symm.trans isFate)
  constructor
  · exact size.trans holds.size
  · exact update_identity holds.same changed rfl
  · refine fates_update holds changed marks (.inr succeeds) ⟨.failed error, ?_, ⟨rfl, written⟩, ?_⟩
    · rw [log_marked history mark, fateOf_snoc, fated]
      rfl
    · rw [successes_won history succeeds, count]
      rfl
  · exact saw_update holds moves fun i current wrong => by cases wrong
  · intro other i given polls now
    by_cases here : other = thread
    · rw [here, moves, Function.update_self] at now
      cases now
    · exact (publishers_update holds moves changed marks apart here given polls).1 now
  · intro other i given polls now
    by_cases here : other = thread
    · rw [here, moves, Function.update_self] at now
      cases now
    · exact (publishers_update holds moves changed marks apart here given polls).2 now
  · apply unique_update holds moves
    rintro i ⟨given, polls, now | now⟩ <;> cases now

theorem holds_step (holds : Holds identities history s) (next : step s move = some (t, answer)) :
    Holds identities (history ++ [(move, answer)]) t := by
  have size := step_size next
  cases step_effect holds.saw next with
  | quiet same free silent moves mark fails => exact quiet_step holds size same silent moves mark fails
  | @begun index pending changed moves mark fails =>
    have open_ : (s.requests index).state.decided = false := by
      rw [pending]
      rfl
    obtain ⟨fated, count⟩ := holds.undecided open_
    have unmarked : ∀ mark, answer.mark = some mark → mark.1 = index := by
      intro other marked
      rw [mark] at marked
      cases marked
    have same : log markOf index (history ++ [(move, answer)]) = log markOf index history :=
      log_quiet history index fun _ marked => by rw [mark] at marked; cases marked
    have log : fateOf (log markOf index (history ++ [(move, answer)])) = some .undecided := by
      rw [same, fated]
    have still : (successes index (history ++ [(move, answer)])).length = 0 := by
      rw [successes_quiet history index (by rw [fails]; exact (Option.some_ne_none index).symm), count]
    exact open_step holds size open_ changed moves unmarked (.inl fails) log rfl still
      (fun _ _ wrong => by cases wrong) (fun _ _ _ wrong => by cases wrong) (fun _ _ _ wrong => by cases wrong)
  | @settled index state outcome which open_ free changed moves mark succeeds =>
    obtain ⟨fated, count⟩ := holds.undecided open_
    have marks : ∀ mark, answer.mark = some mark → mark.1 = index := by
      intro other marked
      rw [mark] at marked
      obtain rfl := Option.some.inj marked
      rfl
    have log : fateOf (log markOf index (history ++ [(move, answer)])) = Fate.undecided.next (.won outcome) := by
      rw [log_marked history mark, fateOf_snoc, fated]
      rfl
    have more : (successes index (history ++ [(move, answer)])).length = 1 := by
      rw [successes_won history succeeds, count]
    rcases which with ⟨rfl, rfl⟩ | ⟨rfl, rfl⟩
    · exact open_step holds size open_ changed moves marks (.inr succeeds) log rfl more
        (fun _ _ wrong => by cases wrong) (fun _ _ _ wrong => by cases wrong) (fun _ _ _ wrong => by cases wrong)
    · exact open_step holds size open_ changed moves marks (.inr succeeds) log rfl more
        (fun _ _ wrong => by cases wrong) (fun _ _ _ wrong => by cases wrong) (fun _ _ _ wrong => by cases wrong)
  | @failing index error polled open_ free changed moves mark fails =>
    obtain ⟨fated, count⟩ := holds.undecided open_
    have marks : ∀ mark, answer.mark = some mark → mark.1 = index := by
      intro other marked
      rw [mark] at marked
      obtain rfl := Option.some.inj marked
      rfl
    have log : fateOf (log markOf index (history ++ [(move, answer)])) = some (.failing error) := by
      rw [log_marked history mark, fateOf_snoc, fated]
      rfl
    have still : (successes index (history ++ [(move, answer)])).length = 0 := by
      rw [successes_quiet history index (by rw [fails]; exact (Option.some_ne_none index).symm), count]
    refine open_step holds size open_ changed moves marks (.inl fails) log rfl still
      (fun _ _ wrong => by cases wrong) ?_ (fun _ _ _ wrong => by cases wrong)
    intro i given polls same
    cases same
    exact ⟨rfl, rfl⟩
  | wrote at_ changed moves mark fails => exact wrote_step holds size at_ changed moves mark fails
  | published at_ changed moves mark succeeds => exact published_step holds size at_ changed moves mark succeeds

end

theorem start_holds (identities : List Identity) : Holds identities [] (start identities) where
  size := rfl
  same := fun _ => rfl
  fates := fun _ => ⟨.undecided, rfl, rfl, rfl⟩
  saw := fun _ _ _ at_ => by cases at_
  writing := fun _ _ _ _ at_ => by cases at_
  storing := fun _ _ _ _ at_ => by cases at_
  unique := fun _ _ _ one => absurd one (idle_free none rfl _)

def Mark.outcome : Mark → Option Outcome
  | .won outcome => some outcome
  | .published => none

def wins (index : Nat) (history : List (Move × Answer)) : List Outcome :=
  (log markOf index history).filterMap Mark.outcome

def Outcome.holds : Outcome → RequestState → Prop
  | .cancelled, state => state = .cancelling
  | .completed, state => state = .completed
  | .failed _, state => state = .failing ∨ state = .failed

def Fate.outcome : Fate → Option Outcome
  | .undecided => none
  | .cancelled => some .cancelled
  | .completed => some .completed
  | .failing error | .failed error => some (.failed error)

theorem fate_wins {marks : List Mark} {fate : Fate} (fated : fateOf marks = some fate) :
    marks.filterMap Mark.outcome = fate.outcome.toList ∧
      (Mark.published ∈ marks ↔ ∃ error, fate = .failed error) := by
  induction marks using List.reverseRecOn generalizing fate with
  | nil =>
    obtain rfl := Option.some.inj fated
    exact ⟨rfl, by simp⟩
  | append_singleton marks mark ih =>
    rw [fateOf_snoc] at fated
    obtain ⟨before, fatedBefore, goes⟩ := Option.bind_eq_some_iff.mp fated
    obtain ⟨won, out⟩ := ih fatedBefore
    rw [filterMap_snoc, won, List.mem_append, out]
    cases before with
    | undecided =>
      cases mark with
      | published => cases goes
      | won outcome =>
        cases outcome with
        | cancelled | completed | failed error =>
          obtain rfl := Option.some.inj goes
          exact ⟨rfl, by simp⟩
    | failing error =>
      cases mark with
      | won outcome => cases goes
      | published =>
        obtain rfl := Option.some.inj goes
        exact ⟨rfl, by simp⟩
    | cancelled | completed | failed error => cases goes

theorem fits_error {request : Request} {fate : Fate} (fits : Fits request fate) (error : CkError) :
    ckRequestError request = some error ↔ fate = .failed error := by
  unfold ckRequestError
  cases fate with
  | undecided =>
    have open_ : request.state.decided = false := fits
    have other : request.state ≠ .failed := by
      intro wrong
      rw [wrong] at open_
      cases open_
    simp [other]
  | cancelled => simp [show request.state = .cancelling from fits]
  | completed => simp [show request.state = .completed from fits]
  | failing given => simp [show request.state = .failing from fits]
  | failed given =>
    obtain ⟨state, same⟩ := fits
    simp [state, same]

theorem fits_outcome {request : Request} {fate : Fate} (fits : Fits request fate) :
    (fate.outcome = none ↔ request.state.decided = false) ∧
      ∀ outcome, fate.outcome = some outcome → Outcome.holds outcome request.state := by
  cases fate with
  | undecided => exact ⟨⟨fun _ => fits, fun _ => rfl⟩, fun _ wrong => by cases wrong⟩
  | cancelled =>
    have state : request.state = .cancelling := fits
    refine ⟨by simp [Fate.outcome, state, RequestState.decided], fun outcome same => ?_⟩
    obtain rfl := Option.some.inj same
    exact state
  | completed =>
    have state : request.state = .completed := fits
    refine ⟨by simp [Fate.outcome, state, RequestState.decided], fun outcome same => ?_⟩
    obtain rfl := Option.some.inj same
    exact state
  | failing error =>
    have state : request.state = .failing := fits
    refine ⟨by simp [Fate.outcome, state, RequestState.decided], fun outcome same => ?_⟩
    obtain rfl := Option.some.inj same
    exact .inl state
  | failed error =>
    have state : request.state = .failed := fits.1
    refine ⟨by simp [Fate.outcome, state, RequestState.decided], fun outcome same => ?_⟩
    obtain rfl := Option.some.inj same
    exact .inr state

theorem search_none {s : System} {record : CompletionRecord}
    (foreign : ∀ index < s.size, CompletionRecord.names record (s.requests index) = false) :
    search s record = none := by
  unfold search
  rw [List.find?_eq_none]
  intro index inside
  rw [foreign index (List.mem_range.mp inside)]
  exact Bool.false_ne_true

theorem names_same {record : CompletionRecord} {one two : Request}
    (first : CompletionRecord.names record one = true) (second : CompletionRecord.names record two = true) :
    one.identity = two.identity := by
  simp only [CompletionRecord.names, Bool.and_eq_true, beq_iff_eq] at first second
  obtain ⟨⟨⟨request, owner⟩, lifetime⟩, -⟩ := first
  obtain ⟨⟨⟨request', owner'⟩, lifetime'⟩, -⟩ := second
  have same : ∀ a b : Identity, a.requestId = b.requestId → a.ownerToken = b.ownerToken →
      a.lifetimeToken = b.lifetimeToken → a = b := by
    rintro ⟨-, -, -⟩ ⟨-, -, -⟩ rfl rfl rfl
    rfl
  exact same _ _ (request.symm.trans request') (owner.symm.trans owner') (lifetime.symm.trans lifetime')

theorem search_some {identities : List Identity} {history : List (Move × Answer)} {s : System}
    (holds : Holds identities history s) (distinct : identities.Nodup) {record : CompletionRecord}
    {index : Nat} (inside : index < s.size) (named : CompletionRecord.names record (s.requests index) = true) :
    search s record = some index := by
  cases found : search s record with
  | none =>
    unfold search at found
    rw [List.find?_eq_none] at found
    exact absurd named (found index (List.mem_range.mpr inside))
  | some other =>
    unfold search at found
    have matched := List.find?_some found
    have within := List.mem_range.mp (List.mem_of_find?_eq_some found)
    have same := names_same matched named
    rw [holds.same, holds.same] at same
    rw [holds.size] at inside within
    rw [List.getD_eq_getElem _ _ within, List.getD_eq_getElem _ _ inside] at same
    rw [(List.Nodup.getElem_inj_iff distinct).mp same]

theorem completionError_set (record : CompletionRecord) (request : Request) :
    (completionError record request).1 = 0 := by
  unfold completionError
  split
  · rfl
  · split <;> rfl

theorem route_late {s : System} {thread index : Nat} {record : CompletionRecord}
    (found : search s record = some index) (decided : (s.requests index).state.decided = true) :
    (route s thread record).2.result = some 2 ∧ (route s thread record).1.requests = s.requests := by
  have exchanged : ∀ desired, exchangeRunning (s.requests index) desired = (1, s.requests index) := by
    intro desired
    rcases exchangeRunning_cases (s.requests index) desired with ⟨state, -⟩ | ⟨-, exchanged⟩ | ⟨state, -⟩
    · rw [state] at decided
      cases decided
    · exact exchanged
    · rw [state] at decided
      cases decided
  unfold route
  rw [found]
  dsimp only
  split
  · simp [finishExchange, ckRequestFinish, exchanged, reported, System.setRequest, System.setThread]
  · rw [if_neg (by simp [completionError_set])]
    simp [failExchange, exchanged, reported, System.setThread]

/-- Each request gets at most one outcome: over every interleaving at most one attempt wins
    it and at most one caller is told so, its state stays with that outcome, its error is
    the winner's from its publication on, late records are answered 2 and foreign records
    change nothing. -/
theorem one_outcome {identities : List Identity} (distinct : identities.Nodup)
    {history : List (Move × Answer)} {s : System} (runs : Runs step (start identities) history s) :
    (∀ index, (wins index history).length ≤ 1 ∧ (successes index history).length ≤ 1 ∧
        (wins index history = [] ↔ (s.requests index).state.decided = false) ∧
        (∀ outcome ∈ wins index history, Outcome.holds outcome (s.requests index).state) ∧
        ∀ error, ckRequestError (s.requests index) = some error ↔
          wins index history = [.failed error] ∧ Mark.published ∈ log markOf index history) ∧
      ∀ {thread : Nat} {record : CompletionRecord} {spurious : Bool} {t : System} {answer : Answer},
        s.threads thread = some (.route record) →
        step s ⟨thread, .resume spurious⟩ = some (t, answer) →
        (∀ index < s.size, CompletionRecord.names record (s.requests index) = true →
          (s.requests index).state.decided = true → answer.result = some 2) ∧
        ((∀ index < s.size, CompletionRecord.names record (s.requests index) = false) →
          t.requests = s.requests) := by
  have holds : Holds identities history s := runs.invariant (fun history s => Holds identities history s)
    (start_holds identities) fun _ held next => holds_step held next
  refine ⟨?_, ?_⟩
  · intro index
    obtain ⟨fate, fated, fits, count⟩ := holds.fates index
    obtain ⟨won, out⟩ := fate_wins fated
    obtain ⟨open_, kept⟩ := fits_outcome fits
    unfold wins
    rw [won, out, count]
    refine ⟨?_, ?_, ?_, ?_, ?_⟩
    · cases fate.outcome <;> simp
    · cases fate <;> simp [Fate.returned]
    · rw [← open_]
      cases fate.outcome <;> simp
    · intro outcome inside
      exact kept outcome (Option.mem_toList.mp inside)
    · intro error
      rw [fits_error fits]
      constructor
      · rintro rfl
        exact ⟨rfl, error, rfl⟩
      · rintro ⟨same, given, rfl⟩
        simp only [Fate.outcome, Option.toList_some, List.cons.injEq, Outcome.failed.injEq, and_true] at same
        rw [same]
  · intro thread record spurious t answer at_ next
    have both : route s thread record = (t, answer) := by
      simpa [step, at_, continued] using next
    refine ⟨?_, ?_⟩
    · intro index inside named decided
      have late := (@route_late s thread index record (search_some holds distinct inside named) decided).1
      rw [both] at late
      exact late
    · intro foreign
      have unfound : route s thread record = (s.setThread thread none, ⟨some (-3), none, none⟩) := by
        unfold route
        rw [search_none foreign]
      rw [both] at unfound
      rw [(Prod.mk.inj unfound).1]
      rfl

def sampleIdentities : List Identity := [⟨101, 102, 103⟩, ⟨202, 203, 204⟩]

def sampleRecord : CompletionRecord := ⟨101, 102, 103, 1, 0, -1⟩

/-- A failed completion wins while a cancel looks on; a duplicate of it is then polled. -/
def sampleMoves : List Move :=
  [⟨0, .begin 0⟩, ⟨0, .deliver sampleRecord none⟩, ⟨0, .deliver sampleRecord none⟩, ⟨1, .poll⟩,
    ⟨1, .resume false⟩, ⟨2, .cancel 0⟩, ⟨1, .resume false⟩, ⟨1, .resume false⟩, ⟨2, .poll⟩]

def sampleRun : List (Move × Answer) × System :=
  (execute step (start sampleIdentities) sampleMoves).getD ([], start sampleIdentities)

theorem one_outcome_duplicate :
    sampleIdentities.Nodup ∧ ckRequestError (sampleRun.2.requests 0) = some ⟨1, 7, 7, 500, 2, 2, 101⟩ ∧
      wins 0 sampleRun.1 = [.failed ⟨1, 7, 7, 500, 2, 2, 101⟩] ∧
      ∀ {t : System} {answer : Answer}, step sampleRun.2 ⟨2, .resume false⟩ = some (t, answer) →
        answer.result = some 2 := by
  have distinct : sampleIdentities.Nodup := by decide
  have executed : execute step (start sampleIdentities) sampleMoves = some (sampleRun.1, sampleRun.2) := rfl
  have failed : ckRequestError (sampleRun.2.requests 0) = some ⟨1, 7, 7, 500, 2, 2, 101⟩ := by decide +kernel
  have routes : sampleRun.2.threads 2 = some (.route sampleRecord) := by decide +kernel
  obtain ⟨outcomes, late⟩ := one_outcome distinct (execute_runs executed)
  refine ⟨distinct, failed, (((outcomes 0).2.2.2.2 _).mp failed).1, ?_⟩
  intro t answer next
  exact (late routes next).1 0 (by decide +kernel) (by decide +kernel) (by decide +kernel)

end CkartaRequestFates
