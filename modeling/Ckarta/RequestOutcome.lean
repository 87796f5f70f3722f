import Ckarta.CompletionQueue

/-!
Requests and their outcome, c/jni/ck_request.[ch] and ck_runtime_poll_completion of
c/jni/ck_jni_runtime.c: any number of threads begin, cancel, fail and finish requests or
poll completion records, one step for each atomic access of a request.
-/
namespace CkartaRequestOutcome
open StepHistory CkartaCompletionQueue

inductive ErrorCategory where
  | none
  | input
  | policy
  | resource
  | timeout
  | cancellation
  | upstream
  | application
  | jni
  | internal
  | fatal
  deriving DecidableEq, Repr

def ErrorCategory.number : ErrorCategory → Nat
  | .none => 0
  | .input => 1
  | .policy => 2
  | .resource => 3
  | .timeout => 4
  | .cancellation => 5
  | .upstream => 6
  | .application => 7
  | .jni => 8
  | .internal => 9
  | .fatal => 10

inductive ErrorCode where
  | none
  | invalidInput
  | policyRejected
  | resourceExhausted
  | timeout
  | cancelled
  | upstreamFailure
  | applicationException
  | jniFailure
  | internalInvariant
  | fatalRuntime
  deriving DecidableEq, Repr

def ErrorCode.number : ErrorCode → Nat
  | .none => 0
  | .invalidInput => 1
  | .policyRejected => 2
  | .resourceExhausted => 3
  | .timeout => 4
  | .cancelled => 5
  | .upstreamFailure => 6
  | .applicationException => 7
  | .jniFailure => 8
  | .internalInvariant => 9
  | .fatalRuntime => 10

def errorAbiVersion : Nat := 1
def flagClientVisible : Nat := 2
def flagMask : Nat := 3

structure CkError where
  abiVersion : Nat
  category : Nat
  code : Nat
  httpStatus : Int
  flags : Nat
  phase : Nat
  requestId : Nat
  deriving DecidableEq, Repr

def ckErrorInit : CkError := ⟨errorAbiVersion, 0, 0, 0, 0, 0, 0⟩

def ckErrorSet (error : CkError) (category : ErrorCategory) (code : ErrorCode) (httpStatus : Int)
    (flags phase requestId : Nat) : Int × CkError :=
  if category.number > ErrorCategory.fatal.number ∨ code.number > ErrorCode.fatalRuntime.number then (-1, error)
  else if httpStatus ≠ 0 ∧ (httpStatus < 100 ∨ httpStatus > 599) then (-1, error)
  else if flags &&& (4294967295 - flagMask) ≠ 0 then (-1, error)
  else (0, ⟨errorAbiVersion, category.number, code.number, httpStatus, flags, phase, requestId⟩)

inductive RequestState where
  | pending
  | running
  | cancelling
  | failing
  | completed
  | failed
  deriving DecidableEq, Repr

/-- The states in which the outcome of a request is settled. -/
def RequestState.decided : RequestState → Bool
  | .cancelling | .failing | .completed | .failed => true
  | .pending | .running => false

structure Identity where
  requestId : Nat
  ownerToken : Nat
  lifetimeToken : Nat
  deriving DecidableEq, Repr

structure Request where
  identity : Identity
  state : RequestState
  error : CkError
  deriving DecidableEq, Repr

def ckRequestInit (identity : Identity) : Request := ⟨identity, .pending, ckErrorInit⟩

def ckRequestBegin (request : Request) : Int × Request :=
  if request.state = .pending then (0, { request with state := .running }) else (1, request)

/-- The compare-exchange that finish and fail share, RUNNING to their own state. -/
def exchangeRunning (request : Request) (desired : RequestState) : Int × Request :=
  if request.state = .running then (0, { request with state := desired })
  else if request.state.decided then (1, request)
  else (-1, request)

def ckRequestFinish (request : Request) : Int × Request := exchangeRunning request .completed

def ckRequestError (request : Request) : Option CkError :=
  if request.state = .failed then some request.error else none

def CompletionRecord.names (record : CompletionRecord) (request : Request) : Bool :=
  record.requestId == request.identity.requestId && record.ownerToken == request.identity.ownerToken &&
    record.lifetimeToken == request.identity.lifetimeToken && record.cycleId == 1

/-- The error poll_completion makes of a record whose status is not 0. -/
def completionError (record : CompletionRecord) (request : Request) : Int × CkError :=
  if record.status = -2 then
    ckErrorSet ckErrorInit .resource .resourceExhausted 503 flagClientVisible 2 request.identity.requestId
  else if record.status = -1 then
    ckErrorSet ckErrorInit .application .applicationException 500 flagClientVisible 2
      request.identity.requestId
  else
    ckErrorSet ckErrorInit .internal .internalInvariant 500 flagClientVisible 2 request.identity.requestId

/-- A call in progress: at the load or the exchange of cancel, at the write of the error or
    the store of FAILED, or past the pop of poll_completion. -/
inductive Call where
  | cancelLoad (index : Nat)
  | cancelExchange (index : Nat) (current : RequestState)
  | failWrite (index : Nat) (error : CkError) (polled : Bool)
  | failStore (index : Nat) (error : CkError) (polled : Bool)
  | route (record : CompletionRecord)
  deriving DecidableEq, Repr

inductive Action where
  | begin (index : Nat)
  | cancel (index : Nat)
  | fail (index : Nat) (error : CkError)
  | finish (index : Nat)
  | poll
  | deliver (record : CompletionRecord) (fault : Option Errno)
  | resume (spurious : Bool)
  deriving DecidableEq

structure Move where
  thread : Nat
  action : Action
  deriving DecidableEq

inductive Outcome where
  | cancelled
  | completed
  | failed (error : CkError)
  deriving DecidableEq, Repr

/-- What a step decided: an outcome won its request, or the error of a failure is out. -/
inductive Mark where
  | won (outcome : Outcome)
  | published
  deriving DecidableEq, Repr

/-- The result of a call that returned, the request it tried to settle and whether it did so
    from poll_completion, and what the step decided. -/
structure Answer where
  result : Option Int
  attempt : Option (Nat × Bool)
  mark : Option (Nat × Mark)
  deriving DecidableEq, Repr

structure System where
  requests : Nat → Request
  size : Nat
  queue : CompletionQueue
  threads : Nat → Option Call

def System.setRequest (s : System) (index : Nat) (request : Request) : System :=
  { s with requests := Function.update s.requests index request }

def System.setThread (s : System) (thread : Nat) (call : Option Call) : System :=
  { s with threads := Function.update s.threads thread call }

/-- What the caller of finish or fail is told; poll_completion has numbers of its own. -/
def reported (polled : Bool) (wins result : Int) : Int :=
  if polled then (if result = 0 then wins else if result = 1 then 2 else -1) else result

def finishExchange (s : System) (thread index : Nat) (polled : Bool) : System × Answer :=
  let (result, request) := ckRequestFinish (s.requests index)
  ((s.setRequest index request).setThread thread none,
    ⟨some (reported polled 1 result), some (index, polled),
      if result = 0 then some (index, .won .completed) else none⟩)

def failExchange (s : System) (thread index : Nat) (error : CkError) (polled : Bool) : System × Answer :=
  let (result, request) := exchangeRunning (s.requests index) .failing
  if result = 0 then
    ((s.setRequest index request).setThread thread (some (.failWrite index error polled)),
      ⟨none, some (index, polled), some (index, .won (.failed error))⟩)
  else (s.setThread thread none, ⟨some (reported polled (-2) result), some (index, polled), none⟩)

def cancelLook (s : System) (thread index : Nat) : System × Answer :=
  if (s.requests index).state.decided then (s.setThread thread none, ⟨some 1, some (index, false), none⟩)
  else (s.setThread thread (some (.cancelExchange index (s.requests index).state)),
    ⟨none, some (index, false), none⟩)

def search (s : System) (record : CompletionRecord) : Option Nat :=
  (List.range s.size).find? fun i => CompletionRecord.names record (s.requests i)

def route (s : System) (thread : Nat) (record : CompletionRecord) : System × Answer :=
  match search s record with
  | none => (s.setThread thread none, ⟨some (-3), none, none⟩)
  | some index =>
    if record.status = 0 then finishExchange s thread index true
    else
      let (result, error) := completionError record (s.requests index)
      if result ≠ 0 then (s.setThread thread none, ⟨some (-1), some (index, true), none⟩)
      else failExchange s thread index error true

def enter (s : System) (thread : Nat) : Action → Option (System × Answer)
  | .begin index =>
    if index < s.size then
      some (s.setRequest index (ckRequestBegin (s.requests index)).2,
        ⟨some (ckRequestBegin (s.requests index)).1, none, none⟩)
    else none
  | .cancel index => if index < s.size then some (cancelLook s thread index) else none
  | .fail index error =>
    if index < s.size then
      if error.abiVersion ≠ errorAbiVersion then some (s, ⟨some (-1), some (index, false), none⟩)
      else some (failExchange s thread index error false)
    else none
  | .finish index => if index < s.size then some (finishExchange s thread index false) else none
  | .poll =>
    match ckCompletionQueuePop s.queue with
    | (_, some record, queue) =>
      some ({ s with queue := queue }.setThread thread (some (.route record)), ⟨none, none, none⟩)
    | (result, none, _) => some (s, ⟨some result, none, none⟩)
  | .deliver record fault =>
    let (result, queue) := ckCompletionQueuePush s.queue record fault
    some ({ s with queue := queue }, ⟨some result, none, none⟩)
  | .resume _ => none

def continued (s : System) (thread : Nat) (spurious : Bool) : Call → System × Answer
  | .cancelLoad index => cancelLook s thread index
  | .cancelExchange index current =>
    if !spurious ∧ (s.requests index).state = current then
      ((s.setRequest index { s.requests index with state := .cancelling }).setThread thread none,
        ⟨some 0, some (index, false), some (index, .won .cancelled)⟩)
    else (s.setThread thread (some (.cancelLoad index)), ⟨none, some (index, false), none⟩)
  | .failWrite index error polled =>
    ((s.setRequest index { s.requests index with error := error }).setThread thread
      (some (.failStore index error polled)), ⟨none, some (index, polled), none⟩)
  | .failStore index _ polled =>
    ((s.setRequest index { s.requests index with state := .failed }).setThread thread none,
      ⟨some (reported polled (-2) 0), some (index, polled), some (index, .published)⟩)
  | .route record => route s thread record

def step (s : System) (move : Move) : Option (System × Answer) :=
  match s.threads move.thread with
  | none => enter s move.thread move.action
  | some call =>
    match move.action with
    | .resume spurious => some (continued s move.thread spurious call)
    | _ => none

def noIdentity : Identity := ⟨0, 0, 0⟩

def start (identities : List Identity) : System :=
  ⟨fun i => ckRequestInit (identities.getD i noIdentity), identities.length, ckCompletionQueueInit,
    fun _ => none⟩

end CkartaRequestOutcome
