import Ckarta.AsyncContext

/-!
java/org/ckarta/servlet/CkartaServletRequestAdapter.java: how a request enters asynchronous
mode, with the constructor of CkartaAsyncCycleBinding. The bridge to the native side is an
interface, so it is a parameter here: what startCycle answers and does to its world. So are
the Servlet API's wrapper classes and its objects. A call of the adapter is one step, and so
is the end of a cycle.
-/
namespace CkartaRequestAdapter
open CkartaAsyncContext

/-- What the Jakarta wrapper classes answer of an object: whether it is one of theirs, and if so
    whether it wraps another one. -/
structure WrapperClasses (ο : Type) where
  isRequestWrapper : ο → Bool
  requestIsWrapperFor : ο → ο → Bool
  isResponseWrapper : ο → Bool
  responseIsWrapperFor : ο → ο → Bool

/-- NativeTerminalBridge, as far as startAsync uses it. -/
structure NativeBridge (ω : Type) where
  startCycle : ω → Int → Int → Int → Int → Int × ω

structure Adapter (ω ο : Type) where
  self : ο
  request : ο
  originalResponse : ο
  nativeBridge : Option (NativeBridge ω)
  requestId : Int
  ownerToken : Int
  lifetimeToken : Int
  request_pos : 0 < requestId
  owner_nonneg : 0 ≤ ownerToken
  lifetime_nonneg : 0 ≤ lifetimeToken

structure ServletAsyncContext (ο : Type) where
  request : ο
  response : ο
  originalRequestAndResponse : Bool
  cycleId : Int
  deriving DecidableEq, Repr

/-- The atomic fields of the adapter, NEXT_CYCLE_ID and the world of the bridge. -/
structure AdapterState (ω ο : Type) where
  cycleBinding : Option Int
  asyncContext : Option (ServletAsyncContext ο)
  asyncStarted : Bool
  asyncCycleStarted : Bool
  nextCycleId : Int
  world : ω

inductive StartError where
  | nullRequest
  | nullResponse
  | notSupported
  | foreign
  | alreadyStarted
  | secondStart
  | cycleIdExhausted
  | registrationFailed
  deriving DecidableEq, Repr

def StartError.message : StartError → String
  | .nullRequest => "request"
  | .nullResponse => "response"
  | .notSupported => "asynchronous processing is not supported"
  | .foreign => "request or response is not from this dispatch"
  | .alreadyStarted => "request is already in asynchronous mode"
  | .secondStart => "request cannot start async processing again in this dispatch"
  | .cycleIdExhausted => "async cycle id exhausted"
  | .registrationFailed => "native async cycle registration failed"

variable {ω ο : Type}

def AdapterState.isAsyncStarted (s : AdapterState ω ο) : Bool := s.asyncStarted

/-- none is the IllegalStateException "request is not in asynchronous mode". -/
def AdapterState.getAsyncContext (s : AdapterState ω ο) : Option (ServletAsyncContext ο) :=
  if !s.asyncStarted then none else s.asyncContext

/-- The constructor of CkartaAsyncCycleBinding: a cycle id, then the native registration. -/
def newCycleBinding (adapter : Adapter ω ο) (s : AdapterState ω ο) : Except StartError Int × AdapterState ω ο :=
  if s.nextCycleId ≤ 0 ∨ s.nextCycleId > maxCycleId then (.error .cycleIdExhausted, s)
  else
    let cycleId := s.nextCycleId
    let s := { s with nextCycleId := s.nextCycleId + 1 }
    match adapter.nativeBridge with
    | none => (.ok cycleId, s)
    | some bridge =>
      let (code, world) := bridge.startCycle s.world adapter.requestId adapter.ownerToken
        adapter.lifetimeToken cycleId
      if code ≠ 0 then (.error .registrationFailed, { s with world := world })
      else (.ok cycleId, { s with world := world })

/-- No cycle id is left, or the native side refuses the cycle. -/
def RefusesBinding (adapter : Adapter ω ο) (s : AdapterState ω ο) : Prop :=
  s.nextCycleId ≤ 0 ∨ s.nextCycleId > maxCycleId ∨ ∃ bridge, adapter.nativeBridge = some bridge ∧
    (bridge.startCycle s.world adapter.requestId adapter.ownerToken adapter.lifetimeToken s.nextCycleId).1 ≠ 0

theorem newCycleBinding_cases (adapter : Adapter ω ο) (s : AdapterState ω ο) :
    ∃ next world, (newCycleBinding adapter s).2 = { s with nextCycleId := next, world := world } ∧
      ((∃ error, (newCycleBinding adapter s).1 = .error error) ↔ RefusesBinding adapter s) := by
  unfold newCycleBinding RefusesBinding
  by_cases exhausted : s.nextCycleId ≤ 0 ∨ s.nextCycleId > maxCycleId
  · rw [if_pos exhausted]
    refine ⟨s.nextCycleId, s.world, rfl, fun _ => ?_, fun _ => ⟨_, rfl⟩⟩
    exact exhausted.imp_right .inl
  · rw [if_neg exhausted]
    obtain ⟨positive, small⟩ := not_or.mp exhausted
    cases native : adapter.nativeBridge with
    | none =>
      refine ⟨s.nextCycleId + 1, s.world, rfl, ?_⟩
      simp [positive, small]
    | some bridge =>
      dsimp only
      by_cases code : (bridge.startCycle s.world adapter.requestId adapter.ownerToken adapter.lifetimeToken
          s.nextCycleId).1 = 0
      · refine ⟨_, _, by rw [if_neg (not_not.mpr code)], ?_⟩
        simp [positive, small, code]
      · refine ⟨_, _, by rw [if_pos code], ?_⟩
        simp [positive, small, code]

variable [DecidableEq ο] (classes : WrapperClasses ο)

/-- The object itself, or a wrapper that has it somewhere below. -/
def acceptsAsync (isWrapper : ο → Bool) (isWrapperFor : ο → ο → Bool) (original object : ο) : Bool :=
  if object == original then true else isWrapper object && isWrapperFor object original

def acceptsAsyncRequest (adapter : Adapter ω ο) (request : ο) : Bool :=
  acceptsAsync classes.isRequestWrapper classes.requestIsWrapperFor adapter.request request

def acceptsAsyncResponse (adapter : Adapter ω ο) (response : ο) : Bool :=
  acceptsAsync classes.isResponseWrapper classes.responseIsWrapperFor adapter.originalResponse response

/-- The private startAsync; supported is what the wrapped request answers. -/
def startAsyncWith (adapter : Adapter ω ο) (s : AdapterState ω ο) (supported : Bool)
    (request response : ο) (originalRequestAndResponse : Bool) :
    Except StartError (ServletAsyncContext ο) × AdapterState ω ο :=
  if !supported then (.error .notSupported, s)
  else if !acceptsAsyncRequest classes adapter request || !acceptsAsyncResponse classes adapter response then
    (.error .foreign, s)
  else if s.asyncStarted then (.error .alreadyStarted, s)
  else
    let s := { s with asyncStarted := true }
    if s.asyncCycleStarted then (.error .secondStart, { s with asyncStarted := false })
    else
      let s := { s with asyncCycleStarted := true }
      match newCycleBinding adapter s with
      | (.error error, s) => (.error error, s)
      | (.ok cycleId, s) =>
        let context : ServletAsyncContext ο := ⟨request, response, originalRequestAndResponse, cycleId⟩
        (.ok context, { s with cycleBinding := some cycleId, asyncContext := some context })

/-- The two public calls. An argument that is null is none. -/
inductive StartCall (ο : Type) where
  | plain (supported : Bool)
  | given (supported : Bool) (request response : Option ο)
  deriving DecidableEq, Repr

def startAsync (adapter : Adapter ω ο) (s : AdapterState ω ο) :
    StartCall ο → Except StartError (ServletAsyncContext ο) × AdapterState ω ο
  | .plain supported => startAsyncWith classes adapter s supported adapter.request adapter.originalResponse true
  | .given _ none _ => (.error .nullRequest, s)
  | .given _ (some _) none => (.error .nullResponse, s)
  | .given supported (some request) (some response) =>
    startAsyncWith classes adapter s supported request response
      (request == adapter.self && response == adapter.originalResponse)

/-- What can happen to an adapter: a call, the end of its cycle, or something elsewhere: another
    binding takes an id, or the world of the bridge changes. -/
inductive AdapterMove (ω ο : Type) where
  | start (call : StartCall ο)
  | terminal
  | otherBinding
  | outside (world : ω)

/-- The sink that ends a cycle exists once its context does. -/
def adapterStep (adapter : Adapter ω ο) (s : AdapterState ω ο) : AdapterMove ω ο → AdapterState ω ο
  | .start call => (startAsync classes adapter s call).2
  | .terminal => if s.asyncContext = none then s else { s with asyncStarted := false }
  | .otherBinding =>
    if s.nextCycleId ≤ 0 ∨ s.nextCycleId > maxCycleId then s else { s with nextCycleId := s.nextCycleId + 1 }
  | .outside world => { s with world := world }

/-- A new adapter; NEXT_CYCLE_ID starts at 1 and other bindings may come first. -/
def newAdapter (world : ω) : AdapterState ω ο := ⟨none, none, false, false, 1, world⟩

def adapterRun (adapter : Adapter ω ο) (world : ω) (moves : List (AdapterMove ω ο)) : AdapterState ω ο :=
  moves.foldl (adapterStep classes adapter) (newAdapter world)

def StartCall.objects (adapter : Adapter ω ο) : StartCall ο → Option (ο × ο)
  | .plain _ => some (adapter.request, adapter.originalResponse)
  | .given _ request response => request.bind fun r => response.map fun p => (r, p)

def StartCall.supported : StartCall ο → Bool
  | .plain supported => supported
  | .given supported _ _ => supported

/-- A first start that passes every check of the adapter and then gets no binding. -/
structure BindingRefused (adapter : Adapter ω ο) (s : AdapterState ω ο) (call : StartCall ο) : Prop where
  supported : call.supported = true
  accepted : ∃ request response, call.objects adapter = some (request, response) ∧
    acceptsAsyncRequest classes adapter request = true ∧ acceptsAsyncResponse classes adapter response = true
  first : s.asyncStarted = false ∧ s.asyncCycleStarted = false
  refused : RefusesBinding adapter s

/-- A start that throws changes neither answer of the adapter. -/
def LeavesMode (adapter : Adapter ω ο) (s : AdapterState ω ο) (call : StartCall ο) : Prop :=
  ∀ error, (startAsync classes adapter s call).1 = .error error →
    (startAsync classes adapter s call).2.isAsyncStarted = s.isAsyncStarted ∧
      (startAsync classes adapter s call).2.getAsyncContext = s.getAsyncContext

/-- What the private startAsync does: it throws and leaves the mode, it throws for want of a
    binding and leaves asyncStarted set, or it enters the mode. -/
inductive Started (adapter : Adapter ω ο) (s : AdapterState ω ο) (supported : Bool)
    (request response : ο) : Except StartError (ServletAsyncContext ο) × AdapterState ω ο → Prop where
  | thrown (error : StartError) (early : supported = false ∨
      ¬ (acceptsAsyncRequest classes adapter request = true ∧ acceptsAsyncResponse classes adapter response = true) ∨
      s.asyncStarted = true ∨ s.asyncCycleStarted = true) :
      Started adapter s supported request response (.error error, s)
  | refused (error : StartError) (next : Int) (world : ω) (willing : supported = true)
      (accepted : acceptsAsyncRequest classes adapter request = true ∧
        acceptsAsyncResponse classes adapter response = true)
      (first : s.asyncStarted = false ∧ s.asyncCycleStarted = false) (refused : RefusesBinding adapter s) :
      Started adapter s supported request response (.error error, { s with
        asyncStarted := true, asyncCycleStarted := true, nextCycleId := next, world := world })
  | entered (context : ServletAsyncContext ο) (next : Int) (world : ω)
      (first : s.asyncStarted = false ∧ s.asyncCycleStarted = false) (bound : ¬ RefusesBinding adapter s) :
      Started adapter s supported request response (.ok context, { s with
        cycleBinding := some context.cycleId, asyncContext := some context, asyncStarted := true
        asyncCycleStarted := true, nextCycleId := next, world := world })

theorem startAsyncWith_started (adapter : Adapter ω ο) (s : AdapterState ω ο) (supported : Bool)
    (request response : ο) (original : Bool) :
    Started classes adapter s supported request response
      (startAsyncWith classes adapter s supported request response original) := by
  obtain ⟨binding, context, started, cycle, next, world⟩ := s
  unfold startAsyncWith
  cases supported with
  | false => exact .thrown _ (.inl rfl)
  | true =>
    rw [if_neg (by decide)]
    by_cases accepted : acceptsAsyncRequest classes adapter request = true ∧
        acceptsAsyncResponse classes adapter response = true
    · rw [if_neg (by simp [accepted])]
      cases started with
      | true => exact .thrown _ (.inr (.inr (.inl rfl)))
      | false =>
        rw [if_neg Bool.false_ne_true]
        cases cycle with
        | true =>
          -- The second start is the one exit that takes its own flag back.
          exact .thrown _ (.inr (.inr (.inr rfl)))
        | false =>
          dsimp only
          rw [if_neg Bool.false_ne_true]
          obtain ⟨later, after, state, refuses⟩ := newCycleBinding_cases adapter
            ⟨binding, context, true, true, next, world⟩
          cases made : newCycleBinding adapter ⟨binding, context, true, true, next, world⟩ with
          | mk result left =>
            rw [made] at state refuses
            dsimp only at state refuses
            subst state
            cases result with
            | error error =>
              exact .refused error later after rfl accepted ⟨rfl, rfl⟩ (refuses.mp ⟨error, rfl⟩)
            | ok cycleId =>
              refine .entered ⟨request, response, original, cycleId⟩ later after ⟨rfl, rfl⟩ ?_
              intro refused
              obtain ⟨error, wrong⟩ := refuses.mpr refused
              cases wrong
    · rw [if_pos (by simpa [imp_iff_not_or] using accepted)]
      exact .thrown _ (.inr (.inl accepted))

theorem startAsync_cases (adapter : Adapter ω ο) (s : AdapterState ω ο) (call : StartCall ο) :
    (call.objects adapter = none ∧ (startAsync classes adapter s call).2 = s) ∨
    ∃ request response, call.objects adapter = some (request, response) ∧
      Started classes adapter s call.supported request response (startAsync classes adapter s call) := by
  cases call with
  | plain supported => exact .inr ⟨_, _, rfl, startAsyncWith_started classes adapter s _ _ _ _⟩
  | given supported request response =>
    cases request with
    | none => exact .inl ⟨rfl, rfl⟩
    | some request =>
      cases response with
      | none => exact .inl ⟨rfl, rfl⟩
      | some response => exact .inr ⟨_, _, rfl, startAsyncWith_started classes adapter s _ _ _ _⟩

variable {classes}

theorem leavesMode_of_throws {adapter : Adapter ω ο} {s : AdapterState ω ο} {call : StartCall ο}
    (thrown : (startAsync classes adapter s call).2 = s) : LeavesMode classes adapter s call := by
  intro error _
  rw [thrown]
  exact ⟨rfl, rfl⟩

theorem started_leaves_iff {adapter : Adapter ω ο} {s : AdapterState ω ο} {call : StartCall ο}
    {request response : ο} (objects : call.objects adapter = some (request, response))
    (started : Started classes adapter s call.supported request response (startAsync classes adapter s call)) :
    LeavesMode classes adapter s call ↔ ¬ BindingRefused classes adapter s call := by
  generalize outcome : startAsync classes adapter s call = answer at started
  cases started with
  | thrown error early =>
    constructor
    · rintro - ⟨supported, ⟨r, p, same, accepted⟩, first, refused⟩
      rw [objects, Option.some.injEq, Prod.mk.injEq] at same
      obtain ⟨rfl, rfl⟩ := same
      rcases early with wrong | wrong | wrong | wrong
      · simp [supported] at wrong
      · exact wrong accepted
      · simp [first.1] at wrong
      · simp [first.2] at wrong
    · intro _
      exact leavesMode_of_throws (by rw [outcome])
  | refused error next world willing accepted first refused =>
    constructor
    · intro leaves
      have same := (leaves error (by rw [outcome])).1
      rw [outcome] at same
      simp [AdapterState.isAsyncStarted, first.1] at same
    · intro clear
      exact absurd ⟨willing, ⟨request, response, objects, accepted⟩, first, refused⟩ clear
  | entered context next world first bound =>
    constructor
    · intro _ refused
      exact bound refused.refused
    · intro _ error wrong
      rw [outcome] at wrong
      cases wrong

theorem leavesMode_iff (adapter : Adapter ω ο) (s : AdapterState ω ο) (call : StartCall ο) :
    LeavesMode classes adapter s call ↔ ¬ BindingRefused classes adapter s call := by
  rcases startAsync_cases classes adapter s call with ⟨none, thrown⟩ | ⟨request, response, objects, started⟩
  · refine ⟨fun _ refused => ?_, fun _ => leavesMode_of_throws thrown⟩
    obtain ⟨request, response, same, -⟩ := refused.accepted
    rw [none] at same
    cases same
  · exact started_leaves_iff objects started

/-- In a run of an adapter every start that throws leaves the mode, exactly when no first
    start of the run gets as far as its binding and is refused it. -/
theorem failed_start_leaves_mode_iff (adapter : Adapter ω ο) (world : ω) (moves : List (AdapterMove ω ο)) :
    (∀ before call after, moves = before ++ .start call :: after →
      LeavesMode classes adapter (adapterRun classes adapter world before) call) ↔
    ∀ before call after, moves = before ++ .start call :: after →
      ¬ BindingRefused classes adapter (adapterRun classes adapter world before) call := by
  constructor
  · intro leaves before call after cut
    exact (leavesMode_iff adapter _ call).mp (leaves before call after cut)
  · intro clear before call after cut
    exact (leavesMode_iff adapter _ call).mpr (clear before call after cut)

/-- Asynchronous mode that nothing can end: no context, and no second cycle. -/
structure Stuck (s : AdapterState ω ο) : Prop where
  started : s.asyncStarted = true
  cycle : s.asyncCycleStarted = true
  bare : s.asyncContext = none

theorem step_stuck {adapter : Adapter ω ο} {s : AdapterState ω ο} (stuck : Stuck s) (move : AdapterMove ω ο) :
    Stuck (adapterStep classes adapter s move) := by
  cases move with
  | start call =>
    rcases startAsync_cases classes adapter s call with ⟨-, same⟩ | ⟨request, response, -, started⟩
    · simp only [adapterStep, same]
      exact stuck
    · simp only [adapterStep]
      generalize startAsync classes adapter s call = answer at started ⊢
      cases started with
      | thrown error early => exact stuck
      | refused error next world willing accepted first refused => simp [stuck.started] at first
      | entered context next world first bound => simp [stuck.started] at first
  | terminal =>
    simp only [adapterStep, if_pos stuck.bare]
    exact stuck
  | otherBinding =>
    simp only [adapterStep]
    split
    · exact stuck
    · exact ⟨stuck.started, stuck.cycle, stuck.bare⟩
  | outside world => exact ⟨stuck.started, stuck.cycle, stuck.bare⟩

theorem adapterRun_append (adapter : Adapter ω ο) (world : ω) (before after : List (AdapterMove ω ο)) :
    adapterRun classes adapter world (before ++ after) =
      after.foldl (adapterStep classes adapter) (adapterRun classes adapter world before) := by
  simp [adapterRun]

def Fresh (s : AdapterState ω ο) : Prop := s.asyncCycleStarted = false → s.asyncContext = none

theorem step_fresh {adapter : Adapter ω ο} {s : AdapterState ω ο} (fresh : Fresh s) (move : AdapterMove ω ο) :
    Fresh (adapterStep classes adapter s move) := by
  cases move with
  | start call =>
    rcases startAsync_cases classes adapter s call with ⟨-, same⟩ | ⟨request, response, -, started⟩
    · simp only [adapterStep, same]
      exact fresh
    · simp only [adapterStep]
      generalize startAsync classes adapter s call = answer at started ⊢
      cases started with
      | thrown error early => exact fresh
      | refused error next world willing accepted first refused => simp [Fresh]
      | entered context next world first bound => simp [Fresh]
  | terminal =>
    simp only [adapterStep]
    split
    · exact fresh
    · exact fresh
  | otherBinding =>
    simp only [adapterStep]
    split
    · exact fresh
    · exact fresh
  | outside world => exact fresh

theorem run_fresh {adapter : Adapter ω ο} {s : AdapterState ω ο} (fresh : Fresh s) (moves : List (AdapterMove ω ο)) :
    Fresh (moves.foldl (adapterStep classes adapter) s) := by
  induction moves generalizing s with
  | nil => exact fresh
  | cons move moves ih => exact ih (step_fresh fresh move)

theorem run_stuck {adapter : Adapter ω ο} {s : AdapterState ω ο} (stuck : Stuck s) (moves : List (AdapterMove ω ο)) :
    Stuck (moves.foldl (adapterStep classes adapter) s) := by
  induction moves generalizing s with
  | nil => exact stuck
  | cons move moves ih => exact ih (step_stuck stuck move)

/-- After a refused binding the request is in asynchronous mode for good: no later move of any
    run ends it, and there is never a context to complete. -/
theorem refused_binding_sticks {adapter : Adapter ω ο} {world : ω} {before after : List (AdapterMove ω ο)}
    {call : StartCall ο} (refused : BindingRefused classes adapter (adapterRun classes adapter world before) call) :
    (adapterRun classes adapter world (before ++ .start call :: after)).isAsyncStarted = true ∧
      (adapterRun classes adapter world (before ++ .start call :: after)).getAsyncContext = none := by
  have fresh : Fresh (adapterRun classes adapter world before) := run_fresh (fun _ => rfl) before
  generalize state : adapterRun classes adapter world before = s at refused fresh
  have leaves : ¬ LeavesMode classes adapter s call := fun leaves => (leavesMode_iff adapter s call).mp leaves refused
  have stuck : Stuck (adapterStep classes adapter s (.start call)) := by
    rcases startAsync_cases classes adapter s call with ⟨-, same⟩ | ⟨request, response, -, started⟩
    · exact absurd (leavesMode_of_throws same) leaves
    · simp only [adapterStep]
      unfold LeavesMode at leaves
      generalize startAsync classes adapter s call = answer at started leaves ⊢
      cases started with
      | thrown error early => exact absurd (fun _ _ => ⟨rfl, rfl⟩) leaves
      | refused error next world willing accepted first refused => exact ⟨rfl, rfl, fresh first.2⟩
      | entered context next world first bound => exact absurd refused.refused bound
  have last : Stuck (after.foldl (adapterStep classes adapter) _) := run_stuck stuck after
  rw [adapterRun_append, state]
  refine ⟨last.started, ?_⟩
  simp only [AdapterState.getAsyncContext, List.foldl_cons, last.started]
  exact last.bare

/-- CkartaNativeAsyncBridge.startCycle on the handles of one connection. -/
def nativeAsyncBridge (registryHandle connectionHandle : Int) : NativeBridge CkartaConnection.Registry :=
  ⟨fun registry requestId ownerToken lifetimeToken cycleId =>
    ckNativeStartAsyncCycle registry registryHandle connectionHandle requestId ownerToken lifetimeToken cycleId⟩

/-- A connection in the first slot whose peer has gone: it is closing, with no cycle started. -/
def closingRegistry : CkartaConnection.Registry :=
  ⟨fun _ => ⟨⟨1, 7, 0, 0, CkartaConnection.ckConnectionPack .closing 1 0⟩, 1, true⟩, true⟩

theorem request_id_pos : (0 : Int) < 7 := by decide

theorem token_nonneg : (0 : Int) ≤ 0 := by decide

/-- Of these objects only the adapter, 1, is a wrapper: that of the request, 2. -/
def oneWrapper : WrapperClasses Nat where
  isRequestWrapper object := object == 1
  requestIsWrapperFor _ wrapped := wrapped == 2
  isResponseWrapper _ := false
  responseIsWrapperFor _ _ := false

def closingAdapter : Adapter CkartaConnection.Registry Nat :=
  ⟨1, 2, 3, some (nativeAsyncBridge 1 4294967297), 7, 0, 0,
    request_id_pos, token_nonneg, token_nonneg⟩

/-- startAsync() on that connection throws and leaves the request in asynchronous mode. -/
theorem refused_start_enters_mode :
    let fresh : AdapterState CkartaConnection.Registry Nat := newAdapter closingRegistry
    (startAsync oneWrapper closingAdapter fresh (.plain true)).1 = .error .registrationFailed ∧
      fresh.isAsyncStarted = false ∧
      (startAsync oneWrapper closingAdapter fresh (.plain true)).2.isAsyncStarted = true ∧
      ¬ ∀ before call after, [AdapterMove.start (.plain true)] = before ++ .start call :: after →
        LeavesMode oneWrapper closingAdapter
          (adapterRun oneWrapper closingAdapter closingRegistry before) call := by
  have throws : (startAsync oneWrapper closingAdapter (newAdapter closingRegistry) (.plain true)).1 =
      .error .registrationFailed := by rfl
  have enters : (startAsync oneWrapper closingAdapter (newAdapter closingRegistry)
      (.plain true)).2.isAsyncStarted = true := by rfl
  refine ⟨throws, rfl, enters, ?_⟩
  intro leaves
  have same := (leaves [] (.plain true) [] rfl _ throws).1
  rw [show adapterRun oneWrapper closingAdapter closingRegistry [] = newAdapter closingRegistry from rfl,
    enters] at same
  cases same

end CkartaRequestAdapter
