import Ckarta.ThreadStacks
import Ckarta.StepHistory

/-!
The input stream of java/org/ckarta/servlet/CkartaServletInputStream.java, taken apart into
single accesses: every read or write of a volatile or atomic field, every question to the
body source and every submission to the executor is an instruction of its own. What a thread
does between two of them, a call of the listener included, belongs to the instruction before.
-/
namespace CkartaServletInputStream
open ThreadStacks

abbrev Listener := Nat

/-- What a method or a callback can throw; the number tells the objects apart. -/
inductive Throwable where
  | ioException (object : Nat)
  | runtimeException (object : Nat)
  | error (object : Nat)
  deriving DecidableEq, Repr

/-- The IOException kept as the terminal error of the stream. -/
inductive BodyError where
  | requestBodyError (cause : Option Throwable)
  | given (object : Nat)
  deriving DecidableEq, Repr

/-- The conversion in notifyBodyError. -/
def converted : Option Throwable → BodyError
  | some (.ioException object) => .given object
  | other => .requestBodyError other

/-- The answers of BodySource.read: how far it moved the position, or one of the codes. -/
inductive SourceRead where
  | data (bytesRead : Int)
  | wouldBlock
  | eof
  | error
  | other (result : Int)
  | throws (thrown : Throwable)
  deriving DecidableEq, Repr

/-- The body source as the stream can tell. It owes a call of the ready callback after it
    has become ready, and may owe more of them. -/
structure BodySource where
  ready : Bool
  finished : Bool
  readInterest : Bool
  errorInterest : Bool
  owed : Nat
  deriving DecidableEq, Repr

inductive Task where
  | invokeDataAvailable
  | onAllDataRead
  | onError
  deriving DecidableEq, Repr

structure Executor where
  invokeDataAvailable : Nat
  onAllDataRead : Nat
  onError : Nat
  deriving DecidableEq, Repr

def Executor.execute (executor : Executor) : Task → Executor
  | .invokeDataAvailable => { executor with invokeDataAvailable := executor.invokeDataAvailable + 1 }
  | .onAllDataRead => { executor with onAllDataRead := executor.onAllDataRead + 1 }
  | .onError => { executor with onError := executor.onError + 1 }

def Executor.take (executor : Executor) : Task → Option Executor
  | .invokeDataAvailable =>
    if executor.invokeDataAvailable = 0 then none
    else some { executor with invokeDataAvailable := executor.invokeDataAvailable - 1 }
  | .onAllDataRead =>
    if executor.onAllDataRead = 0 then none
    else some { executor with onAllDataRead := executor.onAllDataRead - 1 }
  | .onError =>
    if executor.onError = 0 then none else some { executor with onError := executor.onError - 1 }

theorem take_execute {executor left : Executor} {task : Task} (taken : executor.take task = some left) :
    executor = left.execute task := by
  cases task with
  | invokeDataAvailable | onAllDataRead | onError =>
    simp only [Executor.take] at taken
    split at taken
    · cases taken
    · rename_i some_
      obtain rfl := Option.some.inj taken
      simp [Executor.execute, Nat.sub_add_cancel (Nat.pos_of_ne_zero some_)]

/-- The fields of CkartaServletInputStream, with its source and its executor. The lock knows
    its thread and how often that thread entered it again. -/
structure Stream where
  asyncStarted : Bool
  callbackScheduled : Bool
  allDataReadNotified : Bool
  errorNotified : Bool
  listener : Option Listener
  terminalError : Option BodyError
  listenerLock : Option (Nat × Nat)
  nonBlocking : Bool
  readyPermit : Bool
  waitingForData : Bool
  closed : Bool
  callbackActive : Bool
  source : BodySource
  executor : Executor
  deriving DecidableEq, Repr

def acquire (lock : Option (Nat × Nat)) (thread : Nat) : Option (Nat × Nat) :=
  match lock with
  | none => some (thread, 0)
  | some (owner, again) => if owner = thread then some (thread, again + 1) else none

def release (lock : Option (Nat × Nat)) (thread : Nat) : Option (Option (Nat × Nat)) :=
  match lock with
  | none => none
  | some (owner, again) =>
    if owner = thread then
      match again with
      | 0 => some none
      | again + 1 => some (some (thread, again))
    else none

inductive Answer where
  | ready (ready : Bool)
  | finished (finished : Bool)
  | count (bytesRead : Int)
  | endOfStream
  | nullPointerException (message : String)
  | illegalStateException (message : String)
  | ioException (message : String)
  | bodyError (error : BodyError)
  | thrown (thrown : Throwable)
  deriving DecidableEq, Repr

inductive Event where
  | onDataAvailable (listener : Listener)
  | onAllDataRead (listener : Listener)
  | onError (listener : Listener) (error : BodyError)
  | stored (error : BodyError)
  | answered (answer : Answer)
  deriving DecidableEq, Repr

inductive Instr where
  -- isFinished and isReady
  | isFinishedClosed
  | isFinishedSource
  | isReadyClosed
  | isReadyError
  | isReadyMode
  | isReadySource
  | isReadyPermit (ready : Bool)
  | isReadyWaiting (ready : Bool)
  -- setReadListener
  | listenClosed (listener : Listener)
  | listenError (listener : Listener)
  | listenLock (listener : Listener)
  | listenSet (listener : Listener)
  | listenMode
  | listenFinished
  | listenReady
  | listenWaiting (finished ready : Bool)
  | listenInterest (finished ready : Bool)
  | listenErrorInterest (finished ready : Bool)
  | listenFinishedAgain
  | listenReadyAgain
  -- read
  | readClosed (remaining : Nat)
  | readMode (remaining : Nat)
  | readActive (remaining : Nat)
  | readPermit (remaining : Nat)
  | readBlocking (remaining : Nat)
  | readSource (remaining : Nat) (blocking : Bool)
  | readDataActive (bytesRead : Int)
  | readDataPermit (bytesRead : Int)
  | readEofPermit
  | readEofWaiting
  | readBlockPermit
  | readBlockWaiting
  | readBlockMode
  | readError
  | readErrorAgain
  -- notifyBodyError and scheduleError
  | storeError (error : BodyError)
  | errorClosed
  | errorListener
  | errorStored
  | errorClaim
  -- scheduleDataAvailable
  | dataClosed (initial : Bool)
  | dataListener (initial : Bool)
  | dataWaiting
  | dataClaim
  -- scheduleAllDataRead
  | allListener
  | allClosed (current : Option Listener)
  | allError
  | allClaim
  | submit (task : Task)
  -- the try block of invokeDataAvailable
  | invokeListener
  | invokeClosed (current : Option Listener)
  | invokeError
  | invokeWaiting
  | invokeActive
  | invokePermit
  | invokeLock
  | startListener
  | startClosed (current : Option Listener)
  | startError (current : Listener)
  | inDataAvailable
  -- its finally block
  | finallyActive
  | finallyPermit
  | finallyScheduled
  | finallyError
  | finallyFinished
  | finallyErrorAgain
  | finallyWaiting
  | finallyReady
  -- the task of scheduleAllDataRead
  | lastLock
  | lastListener
  | lastClosed (current : Option Listener)
  | lastError (current : Listener)
  | inAllDataRead
  -- the task of scheduleError
  | failLock
  | failListener
  | failError (current : Option Listener)
  | failClosed (current : Option Listener) (error : Option BodyError)
  | inError
  -- close, and what the methods share
  | closeClosed
  | closeSet
  | closePermit
  | closeWaiting
  | unlock
  | answer (answer : Answer)
  deriving DecidableEq, Repr

def notifyBodyError (error : Option Throwable) : List Instr := [.storeError (converted error)]

def scheduleError : List Instr := [.errorClosed]

def scheduleDataAvailable (initial : Bool) : List Instr := [.dataClosed initial]

def scheduleAllDataRead : List Instr := [.allListener]

def invokeDataAvailable : List Instr := [.invokeListener, .finallyActive]

inductive Choice where
  | returns
  | throws (thrown : Throwable)
  | reads (result : SourceRead)
  deriving DecidableEq, Repr

abbrev Outcome := Stream × List Instr × Option Event

def Stream.goes (s : Stream) (after : List Instr) : Option Outcome := some (s, after, none)

def Stream.answers (s : Stream) (answer : Answer) : Option Outcome := some (s, [], some (.answered answer))

theorem goes_eq {s t : Stream} {code after : List Instr} {event : Option Event} :
    s.goes code = some (t, after, event) ↔ s = t ∧ code = after ∧ none = event := by
  simp [Stream.goes]

theorem answers_eq {s t : Stream} {answer : Answer} {after : List Instr} {event : Option Event} :
    s.answers answer = some (t, after, event) ↔ s = t ∧ [] = after ∧ some (.answered answer) = event := by
  simp [Stream.answers]

/-- The branches of read(ByteBuffer) on the answer of the source. -/
def readResult (s : Stream) (remaining : Nat) : SourceRead → Option Outcome
  | .data bytesRead =>
    if bytesRead ≤ 0 ∨ bytesRead > remaining then
      s.answers (.ioException "body source returned invalid read length")
    else s.goes [.readDataActive bytesRead]
  | .eof => s.goes [.readEofPermit]
  | .wouldBlock => s.goes [.readBlockPermit]
  | .error => s.goes [.readError]
  | .other result => s.answers (.ioException ("invalid body source result: " ++ toString result))
  | .throws (.error object) => s.answers (.thrown (.error object))
  | .throws thrown => s.goes (notifyBodyError (some thrown) ++ [Instr.answer (.thrown thrown)])

def exec (thread : Nat) (s : Stream) (instr : Instr) (choice : Choice) : Option Outcome :=
  match instr with
  | .isFinishedClosed => if s.closed then s.answers (.finished true) else s.goes [.isFinishedSource]
  | .isFinishedSource => s.answers (.finished s.source.finished)
  | .isReadyClosed => if s.closed then s.answers (.ready false) else s.goes [.isReadyError]
  | .isReadyError => if s.terminalError.isSome then s.answers (.ready false) else s.goes [.isReadyMode]
  | .isReadyMode => if s.nonBlocking then s.goes [.isReadySource] else s.answers (.ready true)
  | .isReadySource => s.goes [.isReadyPermit s.source.ready]
  | .isReadyPermit ready => { s with readyPermit := ready }.goes [.isReadyWaiting ready]
  | .isReadyWaiting ready => { s with waitingForData := !ready }.answers (.ready ready)
  | .listenClosed listener =>
    if s.closed then s.answers (.illegalStateException "input stream is not active")
    else s.goes [.listenError listener]
  | .listenError listener =>
    if s.terminalError.isSome then s.answers (.illegalStateException "input stream is not active")
    else s.goes [.listenLock listener]
  | .listenLock listener =>
    (acquire s.listenerLock thread).bind fun lock =>
      { s with listenerLock := some lock }.goes [.listenSet listener, .unlock]
  | .listenSet listener =>
    if s.listener.isSome then s.answers (.illegalStateException "ReadListener is already set")
    else { s with listener := some listener }.goes [.listenMode]
  | .listenMode => { s with nonBlocking := true }.goes [.listenFinished]
  | .listenFinished =>
    if s.source.finished then s.goes [.listenWaiting true false] else s.goes [.listenReady]
  | .listenReady => s.goes [.listenWaiting false s.source.ready]
  | .listenWaiting finished ready =>
    { s with waitingForData := !finished && !ready }.goes [.listenInterest finished ready]
  | .listenInterest finished ready =>
    { s with source := { s.source with readInterest := true } }.goes [.listenErrorInterest finished ready]
  | .listenErrorInterest finished ready =>
    { s with source := { s.source with errorInterest := true } }.goes
      (if finished then scheduleAllDataRead
      else if ready then scheduleDataAvailable true else [.listenFinishedAgain])
  | .listenFinishedAgain =>
    if s.source.finished then s.goes scheduleAllDataRead else s.goes [.listenReadyAgain]
  | .listenReadyAgain => if s.source.ready then s.goes (scheduleDataAvailable true) else s.goes []
  | .readClosed remaining =>
    if s.closed then s.answers (.ioException "input stream is closed")
    else if remaining = 0 then s.answers (.count 0) else s.goes [.readMode remaining]
  | .readMode remaining =>
    if s.nonBlocking then s.goes [.readActive remaining] else s.goes [.readBlocking remaining]
  | .readActive remaining =>
    if s.callbackActive then s.goes [.readBlocking remaining] else s.goes [.readPermit remaining]
  | .readPermit remaining =>
    if s.readyPermit then s.goes [.readBlocking remaining]
    else s.answers (.illegalStateException "non-blocking read requires isReady() to return true")
  | .readBlocking remaining => s.goes [.readSource remaining (!s.nonBlocking)]
  | .readSource remaining _ =>
    match choice with
    | .reads result => readResult s remaining result
    | _ => none
  | .readDataActive bytesRead =>
    if s.callbackActive then s.answers (.count bytesRead) else s.goes [.readDataPermit bytesRead]
  | .readDataPermit bytesRead => { s with readyPermit := false }.answers (.count bytesRead)
  | .readEofPermit => { s with readyPermit := false }.goes [.readEofWaiting]
  | .readEofWaiting => { s with waitingForData := false }.goes (scheduleAllDataRead ++ [Instr.answer .endOfStream])
  | .readBlockPermit => { s with readyPermit := false }.goes [.readBlockWaiting]
  | .readBlockWaiting => { s with waitingForData := true }.goes [.readBlockMode]
  | .readBlockMode =>
    if s.nonBlocking then
      s.answers (.illegalStateException "read became non-ready during non-blocking read")
    else s.answers (.ioException "blocking body source unexpectedly would block")
  | .readError =>
    match s.terminalError with
    | some error => s.answers (.bodyError error)
    | none => s.goes (notifyBodyError none ++ [.readErrorAgain])
  | .readErrorAgain =>
    match s.terminalError with
    | some error => s.answers (.bodyError error)
    | none => s.answers (.nullPointerException "error")
  | .storeError error =>
    match s.terminalError with
    | some _ => s.goes scheduleError
    | none => some ({ s with terminalError := some error }, scheduleError, some (.stored error))
  | .errorClosed => if s.closed then s.goes [] else s.goes [.errorListener]
  | .errorListener => if s.listener.isNone then s.goes [] else s.goes [.errorStored]
  | .errorStored => if s.terminalError.isNone then s.goes [] else s.goes [.errorClaim]
  | .errorClaim =>
    if s.errorNotified then s.goes [] else { s with errorNotified := true }.goes [.submit .onError]
  | .dataClosed initial => if s.closed then s.goes [] else s.goes [.dataListener initial]
  | .dataListener initial =>
    if s.listener.isNone then s.goes []
    else if initial then s.goes [.dataClaim] else s.goes [.dataWaiting]
  | .dataWaiting => if s.waitingForData then s.goes [.dataClaim] else s.goes []
  | .dataClaim =>
    if s.callbackScheduled then s.goes []
    else { s with callbackScheduled := true }.goes [.submit .invokeDataAvailable]
  | .allListener => s.goes [.allClosed s.listener]
  | .allClosed current => if s.closed || current.isNone then s.goes [] else s.goes [.allError]
  | .allError => if s.terminalError.isSome then s.goes [] else s.goes [.allClaim]
  | .allClaim =>
    if s.allDataReadNotified then s.goes []
    else { s with allDataReadNotified := true }.goes [.submit .onAllDataRead]
  | .submit task => { s with executor := s.executor.execute task }.goes []
  | .invokeListener => s.goes [.invokeClosed s.listener]
  | .invokeClosed current => if s.closed || current.isNone then s.goes [] else s.goes [.invokeError]
  | .invokeError => if s.terminalError.isSome then s.goes [] else s.goes [.invokeWaiting]
  | .invokeWaiting => { s with waitingForData := false }.goes [.invokeActive]
  | .invokeActive => { s with callbackActive := true }.goes [.invokePermit]
  | .invokePermit => { s with readyPermit := true }.goes [.invokeLock]
  | .invokeLock =>
    (acquire s.listenerLock thread).bind fun lock =>
      { s with listenerLock := some lock }.goes [.startListener]
  | .startListener => s.goes [.startClosed s.listener]
  | .startClosed current =>
    if s.closed then s.goes [.unlock]
    else match current with
      | none => s.goes [.unlock]
      | some current => s.goes [.startError current]
  | .startError current =>
    if s.terminalError.isSome then s.goes [.unlock]
    else some (s, [.inDataAvailable], some (.onDataAvailable current))
  | .inDataAvailable =>
    match choice with
    | .returns => s.goes [.unlock]
    | .throws thrown => s.goes ([.unlock] ++ notifyBodyError (some thrown))
    | .reads _ => none
  | .finallyActive => { s with callbackActive := false }.goes [.finallyPermit]
  | .finallyPermit => { s with readyPermit := false }.goes [.finallyScheduled]
  | .finallyScheduled => { s with callbackScheduled := false }.goes [.finallyError]
  | .finallyError =>
    if s.terminalError.isSome then s.goes [.finallyErrorAgain] else s.goes [.finallyFinished]
  | .finallyFinished =>
    if s.source.finished then s.goes scheduleAllDataRead else s.goes [.finallyErrorAgain]
  | .finallyErrorAgain => if s.terminalError.isSome then s.goes [] else s.goes [.finallyWaiting]
  | .finallyWaiting => if s.waitingForData then s.goes [.finallyReady] else s.goes []
  | .finallyReady => if s.source.ready then s.goes (scheduleDataAvailable false) else s.goes []
  | .lastLock =>
    (acquire s.listenerLock thread).bind fun lock =>
      { s with listenerLock := some lock }.goes [.lastListener]
  | .lastListener => s.goes [.lastClosed s.listener]
  | .lastClosed current =>
    if s.closed then s.goes [.unlock]
    else match current with
      | none => s.goes [.unlock]
      | some current => s.goes [.lastError current]
  | .lastError current =>
    if s.terminalError.isSome then s.goes [.unlock]
    else some (s, [.inAllDataRead], some (.onAllDataRead current))
  | .inAllDataRead =>
    match choice with
    | .returns => s.goes [.unlock]
    | .throws thrown => s.goes (notifyBodyError (some thrown) ++ [.unlock])
    | .reads _ => none
  | .failLock =>
    (acquire s.listenerLock thread).bind fun lock =>
      { s with listenerLock := some lock }.goes [.failListener]
  | .failListener => s.goes [.failError s.listener]
  | .failError current => s.goes [.failClosed current s.terminalError]
  | .failClosed current error =>
    if s.closed then s.goes [.unlock]
    else match current, error with
      | some current, some error => some (s, [.inError], some (.onError current error))
      | _, _ => s.goes [.unlock]
  | .inError =>
    match choice with
    | .returns | .throws _ => s.goes [.unlock]
    | .reads _ => none
  | .closeClosed => if s.closed then s.goes [] else s.goes [.closeSet]
  | .closeSet => { s with closed := true }.goes [.closePermit]
  | .closePermit => { s with readyPermit := false }.goes [.closeWaiting]
  | .closeWaiting => { s with waitingForData := false }.goes []
  | .unlock =>
    (release s.listenerLock thread).bind fun lock => { s with listenerLock := lock }.goes []
  | .answer answer => s.answers answer

/-- What a thread can be made to run: a method of the stream, called by the application, a
    task of the executor, a callback of the source. -/
inductive Entry where
  | isFinished
  | isReady
  | setReadListener (readListener : Option Listener)
  | read (remaining : Nat)
  | close
  | task (task : Task)
  | readInterest
  | errorInterest (error : Option Throwable)
  deriving DecidableEq, Repr

def Entry.application : Entry → Bool
  | .isFinished | .isReady | .setReadListener _ | .read _ | .close => true
  | .task _ | .readInterest | .errorInterest _ => false

/-- The application is at work on a thread that does nothing else and inside its callbacks. -/
def inApplication : List Instr → Bool
  | [] | .inDataAvailable :: _ | .inAllDataRead :: _ | .inError :: _ => true
  | _ => false

def Task.code : Task → List Instr
  | .invokeDataAvailable => CkartaServletInputStream.invokeDataAvailable
  | .onAllDataRead => [.lastLock]
  | .onError => [.failLock]

def enter (s : Stream) : Entry → Option Outcome
  | .isFinished => s.goes [.isFinishedClosed]
  | .isReady => s.goes [.isReadyClosed]
  | .setReadListener none => s.answers (.nullPointerException "readListener")
  | .setReadListener (some listener) =>
    if s.asyncStarted then s.goes [.listenClosed listener]
    else s.answers (.illegalStateException "ReadListener requires async processing")
  | .read remaining => s.goes [.readClosed remaining]
  | .close => s.goes [.closeClosed]
  | .task task =>
    (s.executor.take task).bind fun executor => { s with executor := executor }.goes task.code
  | .readInterest =>
    if s.source.owed = 0 then none
    else { s with source := { s.source with owed := s.source.owed - 1 } }.goes (scheduleDataAvailable false)
  | .errorInterest error =>
    if s.source.errorInterest then s.goes (notifyBodyError error) else none

/-- The first instruction of a method, or of the callback for errors. -/
inductive Opens : Instr → Prop where
  | isFinished : Opens .isFinishedClosed
  | isReady : Opens .isReadyClosed
  | setReadListener (listener : Listener) : Opens (.listenClosed listener)
  | read (remaining : Nat) : Opens (.readClosed remaining)
  | close : Opens .closeClosed
  | notifyBodyError (error : BodyError) : Opens (.storeError error)

theorem enter_cases {s t : Stream} {entry : Entry} {code : List Instr} {event : Option Event}
    (entered : enter s entry = some (t, code, event)) :
    (∃ task left, s.executor = left.execute task ∧ t = { s with executor := left } ∧ code = task.code ∧
      event = none) ∨
    (∃ others, s.source.owed = others + 1 ∧ t = { s with source := { s.source with owed := others } } ∧
      code = scheduleDataAvailable false ∧ event = none) ∨
    (t = s ∧ code = [] ∧ ∃ answer, event = some (.answered answer)) ∨
    (t = s ∧ ∃ first, Opens first ∧ code = [first] ∧ event = none) := by
  cases entry with
  | isFinished =>
    obtain ⟨rfl, rfl, rfl⟩ := goes_eq.mp entered
    exact .inr (.inr (.inr ⟨rfl, _, .isFinished, rfl, rfl⟩))
  | isReady =>
    obtain ⟨rfl, rfl, rfl⟩ := goes_eq.mp entered
    exact .inr (.inr (.inr ⟨rfl, _, .isReady, rfl, rfl⟩))
  | setReadListener readListener =>
    cases readListener with
    | none =>
      obtain ⟨rfl, rfl, rfl⟩ := answers_eq.mp entered
      exact .inr (.inr (.inl ⟨rfl, rfl, _, rfl⟩))
    | some listener =>
      simp only [enter] at entered
      split at entered
      · obtain ⟨rfl, rfl, rfl⟩ := goes_eq.mp entered
        exact .inr (.inr (.inr ⟨rfl, _, .setReadListener listener, rfl, rfl⟩))
      · obtain ⟨rfl, rfl, rfl⟩ := answers_eq.mp entered
        exact .inr (.inr (.inl ⟨rfl, rfl, _, rfl⟩))
  | read remaining =>
    obtain ⟨rfl, rfl, rfl⟩ := goes_eq.mp entered
    exact .inr (.inr (.inr ⟨rfl, _, .read remaining, rfl, rfl⟩))
  | close =>
    obtain ⟨rfl, rfl, rfl⟩ := goes_eq.mp entered
    exact .inr (.inr (.inr ⟨rfl, _, .close, rfl, rfl⟩))
  | task task =>
    obtain ⟨left, taken, goes⟩ := Option.bind_eq_some_iff.mp entered
    obtain ⟨rfl, rfl, rfl⟩ := goes_eq.mp goes
    exact .inl ⟨task, left, take_execute taken, rfl, rfl, rfl⟩
  | readInterest =>
    simp only [enter] at entered
    split at entered
    · cases entered
    · rename_i owes
      obtain ⟨rfl, rfl, rfl⟩ := goes_eq.mp entered
      exact .inr (.inl ⟨_, (Nat.succ_pred owes).symm, rfl, rfl, rfl⟩)
  | errorInterest error =>
    simp only [enter] at entered
    split at entered
    · obtain ⟨rfl, rfl, rfl⟩ := goes_eq.mp entered
      exact .inr (.inr (.inr ⟨rfl, _, .notifyBodyError _, rfl, rfl⟩))
    · cases entered

/-- What the source does on its own. It calls back once it became ready, and again when it
    likes; without a registration there is nothing to call. -/
inductive SourceChange where
  | ready (ready : Bool)
  | finished (finished : Bool)
  | repeats
  deriving DecidableEq, Repr

def BodySource.callsBack (source : BodySource) : BodySource :=
  if source.readInterest then { source with owed := source.owed + 1 } else source

def BodySource.changes (source : BodySource) : SourceChange → BodySource
  | .ready ready =>
    if ready && !source.ready then { source with ready := true }.callsBack else { source with ready := ready }
  | .finished finished => { source with finished := finished }
  | .repeats => source.callsBack

inductive Move where
  | spawn
  | source (change : SourceChange)
  | enter (thread : Nat) (entry : Entry)
  | run (thread : Nat) (choice : Choice)
  deriving DecidableEq, Repr

abbrev Running := System Stream Instr

def step (s : Running) : Move → Option (Running × Option Event)
  | .spawn => some (⟨s.shared, s.threads ++ [[]]⟩, none)
  | .source change =>
    some (⟨{ s.shared with source := s.shared.source.changes change }, s.threads⟩, none)
  | .enter thread entry =>
    if entry.application && !inApplication (s.threads.getD thread []) then none
    else (CkartaServletInputStream.enter s.shared entry).bind fun (stream, code, event) =>
      (s.push thread stream code).map fun t => (t, event)
  | .run thread choice => s.run exec thread choice

def start (asyncStarted ready finished : Bool) : Running :=
  ⟨⟨asyncStarted, false, false, false, none, none, none, false, false, false, false, false,
    ⟨ready, finished, false, false, 0⟩, ⟨0, 0, 0⟩⟩, []⟩

theorem step_cases {s t : Running} {move : Move} {event : Option Event} (next : step s move = some (t, event)) :
    (∃ thread choice instr rest after, move = .run thread choice ∧
      s.threads[thread]? = some (instr :: rest) ∧
      exec thread s.shared instr choice = some (t.shared, after, event) ∧
      t.threads = s.threads.set thread (after ++ rest)) ∨
    (∃ thread entry rest code, move = .enter thread entry ∧ s.threads[thread]? = some rest ∧
      enter s.shared entry = some (t.shared, code, event) ∧
      t.threads = s.threads.set thread (code ++ rest)) ∨
    (event = none ∧ t.shared = s.shared ∧ t.threads = s.threads ++ [[]]) ∨
    (∃ change, event = none ∧ t.shared = { s.shared with source := s.shared.source.changes change } ∧
      t.threads = s.threads) := by
  cases move with
  | spawn =>
    obtain ⟨rfl, rfl⟩ := Prod.mk.inj (Option.some.inj next)
    exact .inr (.inr (.inl ⟨rfl, rfl, rfl⟩))
  | source change =>
    obtain ⟨rfl, rfl⟩ := Prod.mk.inj (Option.some.inj next)
    exact .inr (.inr (.inr ⟨change, rfl, rfl, rfl⟩))
  | enter thread entry =>
    simp only [step] at next
    split at next
    · cases next
    · obtain ⟨⟨stream, code, given⟩, entered, mapped⟩ := Option.bind_eq_some_iff.mp next
      obtain ⟨pushed, found, same⟩ := Option.map_eq_some_iff.mp mapped
      obtain ⟨rfl, rfl⟩ := Prod.mk.inj same
      obtain ⟨rest, there, rfl⟩ := push_cases found
      exact .inr (.inl ⟨thread, entry, rest, code, rfl, there, entered, rfl⟩)
  | run thread choice =>
    obtain ⟨instr, rest, after, found, executed, threads⟩ := run_cases next
    exact .inl ⟨thread, choice, instr, rest, after, rfl, found, executed, threads⟩

end CkartaServletInputStream
