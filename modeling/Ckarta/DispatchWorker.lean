import Ckarta.RequestFates
import Ckarta.RuntimeLifecycle

/-!
The worker thread of a dispatch, ck_worker_main and ck_call_dispatch_async of
c/jni/ck_jni_runtime.c, over the requests of RequestOutcome: the worker goes through its
batch one atomic access at a time while other threads begin, cancel, fail, finish and poll
the same requests.
-/
namespace CkartaDispatchWorker
open StepHistory CkartaRequestOutcome CkartaRequestFates
open CkartaRuntimeLifecycle (JniAnswers getStaticMethodId runtimeMethods jniOk)

structure Lengths where
  metadata : Nat
  body : Nat
  deriving DecidableEq, Repr

/-- ck_call_dispatch_async; the second component says whether dispatchAsync was called. The
    answers of NewDirectByteBuffer for the metadata and the body are buffers. -/
def ckCallDispatchAsync (lengths : Lengths) (answers : JniAnswers) (buffers : Bool × Bool) : Int × Bool :=
  if !answers.findClass then (-1, false)
  else if !getStaticMethodId answers "dispatchAsync" "(JJJLjava/nio/ByteBuffer;)V" then (-1, false)
  else if lengths.metadata ≠ 0 ∧ !buffers.1 then (-1, false)
  else if lengths.body ≠ 0 ∧ !buffers.2 then (-1, false)
  else if !answers.callReturned then (-1, true)
  else (0, true)

/-- Where the worker is: before AttachCurrentThread, at the begin of a request, at its
    dispatch, inside ck_request_fail, or done after so many turns of the loop. -/
inductive Point where
  | attaching
  | beginning (index : Nat)
  | dispatching (index : Nat)
  | failing (index : Nat)
  | ended (turns : Nat)
  deriving DecidableEq, Repr

/-- begun lists the requests whose begin the worker won; calls counts the calls of
    dispatchAsync. -/
structure System where
  inner : CkartaRequestOutcome.System
  lengths : Nat → Lengths
  point : Point
  result : Int
  begun : List Nat
  calls : Nat

def workerThread : Nat := 0

inductive Move where
  | attach (result : Int)
  | begin
  | dispatch (answers : JniAnswers) (buffers : Bool × Bool)
  | fail
  | detach (result : Int)
  | other (move : CkartaRequestOutcome.Move)
  deriving DecidableEq

def dispatchError (requestId : Nat) : Int × CkError :=
  ckErrorSet ckErrorInit .jni .jniFailure 500 flagClientVisible 1 requestId

/-- After an access of ck_request_fail: the next request once it has returned. -/
def failed (s : System) (index : Nat) (inner : CkartaRequestOutcome.System)
    (answer : CkartaRequestOutcome.Answer) : System :=
  match answer.result with
  | some _ => { s with inner := inner, result := -1, point := .beginning (index + 1) }
  | none => { s with inner := inner, point := .failing index }

def step (s : System) : Move → Option (System × Unit)
  | .attach result =>
    if s.point = .attaching then
      if s.inner.size = 0 then some ({ s with result := -1, point := .ended 0 }, ())
      else if result ≠ jniOk then some ({ s with result := result, point := .ended 0 }, ())
      else some ({ s with result := 0, point := .beginning 0 }, ())
    else none
  | .begin =>
    match s.point with
    | .beginning index =>
      if index < s.inner.size then
        (CkartaRequestOutcome.step s.inner ⟨workerThread, .begin index⟩).map fun (inner, answer) =>
          if answer.result = some 0 then
            ({ s with inner := inner, begun := index :: s.begun, point := .dispatching index }, ())
          else ({ s with inner := inner, result := -1, point := .beginning (index + 1) }, ())
      else none
    | _ => none
  | .dispatch answers buffers =>
    match s.point with
    | .dispatching index =>
      let (returned, called) := ckCallDispatchAsync (s.lengths index) answers buffers
      let after := { s with calls := s.calls + called.toNat }
      if returned = 0 then some ({ after with point := .beginning (index + 1) }, ())
      else
        let (invalid, error) := dispatchError (s.inner.requests index).identity.requestId
        if invalid ≠ 0 then some ({ after with result := -1, point := .beginning (index + 1) }, ())
        else
          (CkartaRequestOutcome.step s.inner ⟨workerThread, .fail index error⟩).map fun (inner, answer) =>
            (failed after index inner answer, ())
    | _ => none
  | .fail =>
    match s.point with
    | .failing index =>
      (CkartaRequestOutcome.step s.inner ⟨workerThread, .resume false⟩).map fun (inner, answer) =>
        (failed s index inner answer, ())
    | _ => none
  | .detach result =>
    match s.point with
    | .beginning index =>
      if index < s.inner.size then none
      else
        some ({ s with point := .ended index, result := if result ≠ jniOk ∧ s.result = 0 then -1 else s.result }, ())
    | _ => none
  | .other move =>
    if move.thread = workerThread then none
    else (CkartaRequestOutcome.step s.inner move).map fun (inner, _) => ({ s with inner := inner }, ())

def start (identities : List Identity) (lengths : Nat → Lengths) : System :=
  ⟨CkartaRequestOutcome.start identities, lengths, .attaching, 0, [], 0⟩

/-- CkartaRuntime has no method of this name and signature: dispatchAsync takes two buffers. -/
theorem dispatchAsync_missing (lengths : Lengths) (answers : JniAnswers) (buffers : Bool × Bool) :
    ckCallDispatchAsync lengths answers buffers = (-1, false) := by
  have missing : getStaticMethodId answers "dispatchAsync" "(JJJLjava/nio/ByteBuffer;)V" = false := by
    simp [getStaticMethodId, runtimeMethods]
  simp [ckCallDispatchAsync, missing]

def reached : Point → Nat
  | .attaching => 0
  | .beginning index | .ended index => index
  | .dispatching index | .failing index => index + 1

def callAt (threads : Nat → Option Call) : Point → Prop
  | .failing index => ∃ error, threads workerThread = some (.failWrite index error false) ∨
      threads workerThread = some (.failStore index error false)
  | _ => threads workerThread = none

structure Holds (count : Nat) (s : System) : Prop where
  size : s.inner.size = count
  saw : ∀ thread index current, s.inner.threads thread = some (.cancelExchange index current) →
    current.decided = false
  call : callAt s.inner.threads s.point
  begun : ∀ index ∈ s.begun, (s.inner.requests index).state.decided = true ∨ s.point = .dispatching index
  passed : ∀ index < reached s.point, (s.inner.requests index).state ≠ .pending
  result : ∀ index, s.point = .beginning index → 0 < index → s.result = -1
  ended : ∀ turns, s.point = .ended turns → 0 < turns → s.result = -1 ∧ count ≤ turns
  uncalled : s.calls = 0

structure Kept (before after : CkartaRequestOutcome.System) : Prop where
  decided : ∀ index, (before.requests index).state.decided = true → (after.requests index).state.decided = true
  passed : ∀ index, (before.requests index).state ≠ .pending → (after.requests index).state ≠ .pending

theorem kept_update {before after : CkartaRequestOutcome.System} {index : Nat} {request : Request}
    (changed : after.requests = Function.update before.requests index request)
    (decided : (before.requests index).state.decided = true → request.state.decided = true)
    (passed : (before.requests index).state ≠ .pending → request.state ≠ .pending) : Kept before after := by
  refine ⟨?_, ?_⟩ <;> intro other <;> rw [changed] <;> by_cases same : other = index
  · subst same
    simpa using decided
  · simp [Function.update_of_ne same]
  · subst same
    simpa using passed
  · simp [Function.update_of_ne same]

theorem Effect.kept {before after : CkartaRequestOutcome.System} {thread : Nat}
    {answer : CkartaRequestOutcome.Answer} (effect : Effect before thread after answer) : Kept before after := by
  cases effect with
  | quiet same free silent moves mark fails => exact ⟨fun _ => by rw [same]; exact id, fun _ => by rw [same]; exact id⟩
  | begun pending changed moves mark fails =>
    exact kept_update changed (by simp [pending, RequestState.decided]) (by simp)
  | settled which undecided free changed moves mark succeeds =>
    refine kept_update changed (by simp [undecided]) ?_
    rcases which with ⟨rfl, -⟩ | ⟨rfl, -⟩ <;> simp
  | failing undecided free changed moves mark fails =>
    exact kept_update changed (by simp [undecided]) (by simp)
  | wrote at_ changed moves mark fails => exact kept_update changed id id
  | published at_ changed moves mark succeeds =>
    exact kept_update changed (by simp [RequestState.decided]) (by simp)

theorem Effect.saw {before after : CkartaRequestOutcome.System} {thread : Nat}
    {answer : CkartaRequestOutcome.Answer} (effect : Effect before thread after answer)
    (saw : ∀ thread index current, before.threads thread = some (.cancelExchange index current) →
      current.decided = false) :
    ∀ thread index current, after.threads thread = some (.cancelExchange index current) →
      current.decided = false := by
  have update : ∀ {call : Option Call}, after.threads = Function.update before.threads thread call →
      (∀ index current, call = some (.cancelExchange index current) → current.decided = false) →
      ∀ other index current, after.threads other = some (.cancelExchange index current) →
        current.decided = false := by
    intro call moves mine other index current at_
    rw [moves] at at_
    by_cases same : other = thread
    · subst same
      rw [Function.update_self] at at_
      exact mine index current at_
    · rw [Function.update_of_ne same] at at_
      exact saw other index current at_
  cases effect with
  | quiet same free silent moves mark fails => exact update moves silent.saw
  | begun pending changed moves mark fails => exact update moves (by simp)
  | settled which undecided free changed moves mark succeeds => exact update moves (by simp)
  | failing undecided free changed moves mark fails => exact update moves (by simp)
  | wrote at_ changed moves mark fails => exact update moves (by simp)
  | published at_ changed moves mark succeeds => exact update moves (by simp)

theorem Effect.others {before after : CkartaRequestOutcome.System} {thread other : Nat}
    {answer : CkartaRequestOutcome.Answer} (effect : Effect before thread after answer) (apart : other ≠ thread) :
    after.threads other = before.threads other := by
  cases effect <;> rename_i moves _ _ <;> simp [moves, Function.update_of_ne apart]

section
variable {count : Nat} {s : System} {inner : CkartaRequestOutcome.System} {move : CkartaRequestOutcome.Move}
  {answer : CkartaRequestOutcome.Answer} (holds : Holds count s)
include holds

theorem Holds.onward (next : CkartaRequestOutcome.step s.inner move = some (inner, answer))
    {point : Point} {result : Int} {begun : List Nat} (call : callAt inner.threads point)
    (mine : ∀ index ∈ begun, index ∈ s.begun ∧ (s.point = .dispatching index →
      (inner.requests index).state.decided = true ∨ point = .dispatching index) ∨ point = .dispatching index)
    (further : ∀ index < reached point, index < reached s.point ∨ (inner.requests index).state ≠ .pending)
    (failed : ∀ index, point = .beginning index → 0 < index → result = -1)
    (atEnd : ∀ turns, point = .ended turns → 0 < turns → result = -1 ∧ count ≤ turns) :
    Holds count { s with inner := inner, point := point, result := result, begun := begun } where
  size := (step_size next).trans holds.size
  saw := Effect.saw (step_effect holds.saw next) holds.saw
  call := call
  begun := by
    intro index member
    rcases mine index member with ⟨before, moved⟩ | now
    · rcases holds.begun index before with decided | at_
      · exact .inl ((Effect.kept (step_effect holds.saw next)).decided index decided)
      · exact moved at_
    · exact .inr now
  passed := by
    intro index below
    rcases further index below with before | now
    · exact (Effect.kept (step_effect holds.saw next)).passed index (holds.passed index before)
    · exact now
  result := failed
  ended := atEnd
  uncalled := holds.uncalled

theorem Holds.other (next : CkartaRequestOutcome.step s.inner move = some (inner, answer))
    (apart : move.thread ≠ workerThread) : Holds count { s with inner := inner } := by
  have call := holds.call
  refine holds.onward next ?_ (fun index member => .inl ⟨member, .inr⟩) (fun index below => .inl below)
    holds.result holds.ended
  unfold callAt at call ⊢
  rw [Effect.others (step_effect holds.saw next) apart.symm]
  exact call

theorem Holds.rests {point : Point} {result : Int} {turns : Nat}
    (idle : s.inner.threads workerThread = none) (away : ∀ index, s.point ≠ .dispatching index)
    (ends : point = .ended turns ∨ point = .beginning turns) (same : reached s.point = turns)
    (failed : 0 < turns → result = -1 ∧ count ≤ turns) :
    Holds count { s with point := point, result := result } where
  size := holds.size
  saw := holds.saw
  call := by rcases ends with rfl | rfl <;> exact idle
  begun := by
    intro index member
    exact .inl ((holds.begun index member).resolve_right (away index))
  passed := by
    subst same
    rcases ends with rfl | rfl <;> exact holds.passed
  result := by
    intro index at_ positive
    rcases ends with rfl | rfl <;> cases at_
    exact (failed positive).1
  ended := by
    intro index at_ positive
    rcases ends with rfl | rfl <;> cases at_
    exact failed positive
  uncalled := holds.uncalled

end

theorem begin_cases {before after : CkartaRequestOutcome.System} {index : Nat}
    {answer : CkartaRequestOutcome.Answer} (idle : before.threads workerThread = none)
    (next : CkartaRequestOutcome.step before ⟨workerThread, .begin index⟩ = some (after, answer)) :
    after.threads = before.threads ∧ (after.requests index).state ≠ .pending := by
  simp only [CkartaRequestOutcome.step, idle, enter, Option.ite_none_right_eq_some, Option.some.injEq,
    Prod.mk.injEq] at next
  obtain ⟨-, rfl, -⟩ := next
  refine ⟨rfl, ?_⟩
  simp only [CkartaRequestOutcome.System.setRequest, Function.update_self, ckRequestBegin]
  split
  · simp
  · assumption

theorem fail_cases {before after : CkartaRequestOutcome.System} {index : Nat} {error : CkError}
    {answer : CkartaRequestOutcome.Answer} (idle : before.threads workerThread = none)
    (version : error.abiVersion = errorAbiVersion) (begun : (before.requests index).state ≠ .pending)
    (next : CkartaRequestOutcome.step before ⟨workerThread, .fail index error⟩ = some (after, answer)) :
    (after.requests index).state.decided = true ∧
      ((answer.result = none ∧ after.threads workerThread = some (.failWrite index error false)) ∨
        ((∃ code, answer.result = some code) ∧ after.threads workerThread = none)) := by
  simp only [CkartaRequestOutcome.step, idle, enter, version, Option.ite_none_right_eq_some] at next
  obtain ⟨-, next⟩ := next
  rw [if_neg (by simp)] at next
  have taken := Option.some.inj next
  rcases exchangeRunning_cases (before.requests index) .failing with
    ⟨-, wins⟩ | ⟨decided, loses⟩ | ⟨pending, -⟩
  · simp only [failExchange, wins, if_true] at taken
    obtain ⟨rfl, rfl⟩ := Prod.mk.inj taken
    exact ⟨by simp [CkartaRequestOutcome.System.setThread, CkartaRequestOutcome.System.setRequest,
      RequestState.decided], .inl ⟨rfl, by simp [CkartaRequestOutcome.System.setThread]⟩⟩
  · simp only [failExchange, loses] at taken
    obtain ⟨rfl, rfl⟩ := Prod.mk.inj taken
    exact ⟨decided, .inr ⟨⟨_, rfl⟩, by simp [CkartaRequestOutcome.System.setThread]⟩⟩
  · exact absurd pending begun

theorem resume_cases {before after : CkartaRequestOutcome.System} {index : Nat}
    {answer : CkartaRequestOutcome.Answer} (call : callAt before.threads (.failing index))
    (next : CkartaRequestOutcome.step before ⟨workerThread, .resume false⟩ = some (after, answer)) :
    (answer.result = none ∧ ∃ error, after.threads workerThread = some (.failStore index error false)) ∨
      ((∃ code, answer.result = some code) ∧ after.threads workerThread = none) := by
  obtain ⟨error, write | store⟩ := call
  · simp only [CkartaRequestOutcome.step, write, continued, Option.some.injEq, Prod.mk.injEq] at next
    obtain ⟨rfl, rfl⟩ := next
    exact .inl ⟨rfl, error, by simp [CkartaRequestOutcome.System.setThread]⟩
  · simp only [CkartaRequestOutcome.step, store, continued, Option.some.injEq, Prod.mk.injEq] at next
    obtain ⟨rfl, rfl⟩ := next
    exact .inr ⟨⟨_, rfl⟩, by simp [CkartaRequestOutcome.System.setThread]⟩

theorem dispatchError_valid (requestId : Nat) :
    (dispatchError requestId).1 = 0 ∧ (dispatchError requestId).2.abiVersion = errorAbiVersion := by
  have set : dispatchError requestId =
      (0, ⟨errorAbiVersion, ErrorCategory.jni.number, ErrorCode.jniFailure.number, 500, flagClientVisible, 1,
        requestId⟩) := by
    simp [dispatchError, ckErrorSet, ErrorCategory.number, ErrorCode.number, flagClientVisible, flagMask]
  rw [set]
  exact ⟨rfl, rfl⟩

theorem Holds.failed {count : Nat} {s : System} {inner : CkartaRequestOutcome.System} {index : Nat}
    {move : CkartaRequestOutcome.Move} {answer : CkartaRequestOutcome.Answer} (holds : Holds count s)
    (next : CkartaRequestOutcome.step s.inner move = some (inner, answer))
    (at_ : s.point = .dispatching index ∨ s.point = .failing index)
    (decided : s.point = .dispatching index → (inner.requests index).state.decided = true)
    (outcome : (answer.result = none ∧ callAt inner.threads (.failing index)) ∨
      ((∃ code, answer.result = some code) ∧ inner.threads workerThread = none)) :
    Holds count (failed s index inner answer) := by
  have here : reached s.point = index + 1 := by
    rcases at_ with at_ | at_ <;> rw [at_] <;> rfl
  have settled : ∀ {other : Nat} {point : Point}, s.point = .dispatching other →
      (inner.requests other).state.decided = true ∨ point = .dispatching other := by
    intro other point dispatches
    rcases at_ with at_ | at_
    · rw [at_] at dispatches
      obtain rfl := Point.dispatching.inj dispatches
      exact .inl (decided at_)
    · rw [at_] at dispatches
      cases dispatches
  unfold CkartaDispatchWorker.failed
  rcases outcome with ⟨running, call⟩ | ⟨⟨code, returned⟩, idle⟩
  · rw [running]
    exact holds.onward next call (fun other member => .inl ⟨member, settled⟩)
      (fun other below => .inl (by rw [here]; exact below)) (by simp) (by simp)
  · rw [returned]
    exact holds.onward next idle (fun other member => .inl ⟨member, settled⟩)
      (fun other below => .inl (by rw [here]; exact below)) (fun _ _ _ => rfl) (by simp)

theorem Holds.begins {count : Nat} {s : System} {inner : CkartaRequestOutcome.System} {index : Nat}
    {answer : CkartaRequestOutcome.Answer} (holds : Holds count s) (at_ : s.point = .beginning index)
    (next : CkartaRequestOutcome.step s.inner ⟨workerThread, .begin index⟩ = some (inner, answer))
    {point : Point} {result : Int} {begun : List Nat}
    (moved : point = .dispatching index ∧ begun = index :: s.begun ∨
      point = .beginning (index + 1) ∧ begun = s.begun ∧ result = -1) :
    Holds count { s with inner := inner, point := point, result := result, begun := begun } := by
  have idle : s.inner.threads workerThread = none := by
    have call := holds.call
    rw [at_] at call
    exact call
  obtain ⟨threads, gone⟩ := begin_cases idle next
  have elsewhere : ∀ other, s.point ≠ .dispatching other := by simp [at_]
  have here : ∀ other < index + 1, other < reached s.point ∨ (inner.requests other).state ≠ .pending := by
    intro other below
    rw [at_]
    rcases Nat.lt_succ_iff_lt_or_eq.mp below with less | rfl
    · exact .inl less
    · exact .inr gone
  have free : inner.threads workerThread = none := by rw [threads]; exact idle
  rcases moved with ⟨rfl, rfl⟩ | ⟨rfl, rfl, rfl⟩
  · refine holds.onward next free ?_ here (by simp) (by simp)
    intro other member
    rcases List.mem_cons.mp member with rfl | old
    · exact .inr rfl
    · exact .inl ⟨old, fun dispatches => absurd dispatches (elsewhere other)⟩
  · refine holds.onward next free ?_ here (fun _ _ _ => rfl) (by simp)
    intro other member
    exact .inl ⟨member, fun dispatches => absurd dispatches (elsewhere other)⟩

theorem Holds.step {count : Nat} {s t : System} {move : Move} {answer : Unit} (holds : Holds count s)
    (next : step s move = some (t, answer)) : Holds count t := by
  have call := holds.call
  cases move with
  | attach result =>
    simp only [CkartaDispatchWorker.step, Option.ite_none_right_eq_some] at next
    obtain ⟨attaching, next⟩ := next
    rw [attaching] at call
    have away : ∀ index, s.point ≠ .dispatching index := by simp [attaching]
    have first : reached s.point = 0 := by rw [attaching]; rfl
    split at next
    · cases next
      exact holds.rests call away (.inl rfl) first (absurd · (Nat.lt_irrefl 0))
    · split at next
      · cases next
        exact holds.rests call away (.inl rfl) first (absurd · (Nat.lt_irrefl 0))
      · cases next
        exact holds.rests call away (.inr rfl) first (absurd · (Nat.lt_irrefl 0))
  | begin =>
    simp only [CkartaDispatchWorker.step] at next
    split at next
    · rename_i index at_
      simp only [Option.ite_none_right_eq_some, Option.map_eq_some_iff] at next
      obtain ⟨-, ⟨inner, reply⟩, stepped, same⟩ := next
      split at same
      · cases same
        exact holds.begins at_ stepped (.inl ⟨rfl, rfl⟩)
      · cases same
        exact holds.begins at_ stepped (.inr ⟨rfl, rfl, rfl⟩)
    · cases next
  | dispatch answers buffers =>
    simp only [CkartaDispatchWorker.step] at next
    split at next
    · rename_i index at_
      rw [at_] at call
      obtain ⟨valid, version⟩ := dispatchError_valid (s.inner.requests index).identity.requestId
      have begun : (s.inner.requests index).state ≠ .pending :=
        holds.passed index (by rw [at_]; exact Nat.lt_succ_self index)
      simp only [dispatchAsync_missing, valid, ne_eq, not_true, if_false, Bool.toNat_false, Nat.add_zero] at next
      rw [if_neg (by decide)] at next
      obtain ⟨⟨inner, reply⟩, stepped, same⟩ := Option.map_eq_some_iff.mp next
      cases same
      obtain ⟨decided, outcome⟩ := fail_cases call version begun stepped
      refine holds.failed stepped (.inl at_) (fun _ => decided) ?_
      rcases outcome with ⟨running, write⟩ | returned
      · exact .inl ⟨running, _, .inl write⟩
      · exact .inr returned
    · cases next
  | fail =>
    simp only [CkartaDispatchWorker.step] at next
    split at next
    · rename_i index at_
      rw [at_] at call
      obtain ⟨⟨inner, reply⟩, stepped, same⟩ := Option.map_eq_some_iff.mp next
      cases same
      refine holds.failed stepped (.inr at_) (by simp [at_]) ?_
      rcases resume_cases call stepped with ⟨running, error, store⟩ | returned
      · exact .inl ⟨running, error, .inr store⟩
      · exact .inr returned
    · cases next
  | detach result =>
    simp only [CkartaDispatchWorker.step] at next
    split at next
    · rename_i index at_
      rw [at_] at call
      simp only [Option.ite_none_left_eq_some] at next
      obtain ⟨last, next⟩ := next
      cases next
      refine holds.rests call (by simp [at_]) (.inl rfl) (by rw [at_]; rfl) ?_
      intro positive
      have failed := holds.result index at_ positive
      rw [holds.size] at last
      exact ⟨by simp [failed], Nat.le_of_not_lt last⟩
    · cases next
  | other move =>
    simp only [CkartaDispatchWorker.step, Option.ite_none_left_eq_some, Option.map_eq_some_iff] at next
    obtain ⟨apart, ⟨inner, reply⟩, stepped, same⟩ := next
    obtain ⟨rfl, -⟩ := Prod.mk.inj same
    exact holds.other stepped apart

theorem holds_start (identities : List Identity) (lengths : Nat → Lengths) :
    Holds identities.length (start identities lengths) where
  size := rfl
  saw := by intro thread index current at_; cases at_
  call := rfl
  begun := by intro index member; cases member
  passed := by intro index below; cases below
  result := by intro index at_; cases at_
  ended := by intro turns at_; cases at_
  uncalled := rfl

/-- No order of accesses lets the worker hand a request to Java: dispatchAsync is never called,
    every request the worker begins is decided before it begins the next one, and a worker that
    attached ends with the result -1 after every request of its batch has been begun. -/
theorem dispatch_leaves_none_running {identities : List Identity} {lengths : Nat → Lengths}
    {history : List (Move × Unit)} {s : System} (runs : Runs step (start identities lengths) history s) :
    s.calls = 0 ∧
      (∀ index ∈ s.begun, (s.inner.requests index).state.decided = true ∨ s.point = .dispatching index) ∧
      ∀ turns, s.point = .ended turns → 0 < turns →
        s.result = -1 ∧ ∀ index < identities.length, (s.inner.requests index).state ≠ .pending := by
  have holds : Holds identities.length s := by
    apply runs.invariant fun _ s => Holds identities.length s
    · exact holds_start identities lengths
    · intro history s t move answer before holds next
      exact holds.step next
  refine ⟨holds.uncalled, holds.begun, ?_⟩
  intro turns ended positive
  obtain ⟨failed, through⟩ := holds.ended turns ended positive
  refine ⟨failed, fun index below => holds.passed index ?_⟩
  rw [ended]
  exact Nat.lt_of_lt_of_le below through

/-- The worker fails the first request; another thread cancels the second before its begin. -/
def sampleMoves : List Move :=
  let found : JniAnswers := ⟨true, jniOk, true, true⟩
  [.attach 0, .begin, .dispatch found (true, true), .fail, .other ⟨1, .cancel 1⟩, .fail,
    .other ⟨1, .resume false⟩, .begin, .detach 0]

def sampleStart : System := start [⟨7, 1, 1⟩, ⟨8, 2, 2⟩] fun _ => ⟨32, 4⟩

def sampleRun : List (Move × Unit) × System := (execute step sampleStart sampleMoves).getD ([], sampleStart)

theorem dispatch_leaves_none_running_sample :
    sampleRun.2.point = .ended 2 ∧ sampleRun.2.begun = [0] ∧ sampleRun.2.result = -1 ∧
      (sampleRun.2.inner.requests 0).state.decided = true ∧ (sampleRun.2.inner.requests 1).state ≠ .pending := by
  have executed : execute step sampleStart sampleMoves = some (sampleRun.1, sampleRun.2) := rfl
  have ended : sampleRun.2.point = .ended 2 := rfl
  have begun : sampleRun.2.begun = [0] := rfl
  obtain ⟨-, decided, last⟩ := dispatch_leaves_none_running (execute_runs executed)
  obtain ⟨failed, passed⟩ := last 2 ended (by decide)
  have first := decided 0 (by rw [begun]; exact List.mem_singleton_self 0)
  rw [ended] at first
  exact ⟨ended, begun, failed, first.resolve_right (by simp), passed 1 (by decide)⟩

end CkartaDispatchWorker
