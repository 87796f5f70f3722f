import Ckarta.StepHistory
import Mathlib.Data.List.Nodup

/-!
The event loop, c/event/ck_event_loop.[ch], over epoll. The kernel is a parameter: what
its calls answer, and what else happens to it. Of it the loop relies on what epoll(7) and
the pages of the calls say, and that is a hypothesis for each call. Above it stands the
service the loop offers in its own terms: registrations with their cookie and their
events. Every run of the loop is one of the service.
-/
namespace CkartaEventLoop
open StepHistory

abbrev Mask := BitVec 32
abbrev Cookie := BitVec 64

def eventRead : Mask := 1
def eventWrite : Mask := 2
def eventRdhup : Mask := 4
def eventError : Mask := 8

def epollIn : Mask := 0x1
def epollOut : Mask := 0x4
def epollErr : Mask := 0x8
def epollHup : Mask := 0x10
def epollRdhup : Mask := 0x2000

def knownEvents : Mask := eventRead ||| eventWrite ||| eventRdhup ||| eventError

def ckEventToEpoll (events : Mask) : Option Mask :=
  if events = 0 ∨ events &&& ~~~knownEvents ≠ 0 then none
  else
    some ((if events &&& eventRead ≠ 0 then epollIn else 0) |||
      (if events &&& eventWrite ≠ 0 then epollOut else 0) |||
      (if events &&& eventRdhup ≠ 0 then epollRdhup else 0) |||
      (if events &&& eventError ≠ 0 then epollErr ||| epollHup else 0))

def ckEpollToEvent (epollEvents : Mask) : Mask :=
  (if epollEvents &&& epollIn ≠ 0 then eventRead else 0) |||
    (if epollEvents &&& epollOut ≠ 0 then eventWrite else 0) |||
    (if epollEvents &&& epollRdhup ≠ 0 then eventRdhup else 0) |||
    (if epollEvents &&& (epollErr ||| epollHup) ≠ 0 then eventError else 0)

def bit (on : Bool) (index : Nat) : Mask := if on then BitVec.twoPow 32 index else 0

def eventBits (readable writable rdhup error : Bool) : Mask :=
  bit readable 0 ||| bit writable 1 ||| bit rdhup 2 ||| bit error 3

def epollBits (readable writable rdhup err hup : Bool) : Mask :=
  bit readable 0 ||| bit writable 2 ||| bit rdhup 13 ||| (bit err 3 ||| bit hup 4)

theorem and_bit (mask : Mask) (index : Nat) :
    mask &&& BitVec.twoPow 32 index = bit (mask.getLsbD index) index := by
  rw [BitVec.and_twoPow]
  rfl

theorem bit_and (on : Bool) (mask : Mask) (index : Nat) :
    bit on index &&& mask = bit (on && mask.getLsbD index) index := by
  cases on <;> simp [bit, BitVec.twoPow_and]

theorem bit_ne_zero (on : Bool) {index : Nat} (short : index < 32) : bit on index ≠ 0 ↔ on = true := by
  cases on with
  | false => simp [bit]
  | true =>
    have set : (BitVec.twoPow 32 index).getLsbD index = true := by simp [short]
    simp only [bit, ↓reduceIte, iff_true]
    intro zero
    rw [zero] at set
    simp at set

theorem tested_bit (mask : Mask) (index : Nat) (short : index < 32) :
    mask &&& BitVec.twoPow 32 index ≠ 0 ↔ mask.getLsbD index = true := by
  rw [and_bit]
  exact bit_ne_zero _ short

def ValidEvents (events : Mask) : Prop := events ≠ 0 ∧ events &&& ~~~knownEvents = 0

instance (events : Mask) : Decidable (ValidEvents events) := inferInstanceAs (Decidable (_ ∧ _))

theorem validEvents_bits {events : Mask} (valid : ValidEvents events) :
    events = eventBits (events.getLsbD 0) (events.getLsbD 1) (events.getLsbD 2) (events.getLsbD 3) := by
  have known : events &&& knownEvents =
      eventBits (events.getLsbD 0) (events.getLsbD 1) (events.getLsbD 2) (events.getLsbD 3) := by
    simp only [eventBits, ← and_bit, ← BitVec.and_or_distrib_left]
    rfl
  calc events = events &&& (knownEvents ||| ~~~knownEvents) := by
        rw [show knownEvents ||| ~~~knownEvents = BitVec.allOnes 32 from rfl, BitVec.and_allOnes]
    _ = (events &&& knownEvents) ||| (events &&& ~~~knownEvents) := BitVec.and_or_distrib_left
    _ = _ := by
        rw [valid.2, known]
        exact BitVec.or_zero

def interest (events : Mask) : Mask :=
  epollBits (events.getLsbD 0) (events.getLsbD 1) (events.getLsbD 2) (events.getLsbD 3)
    (events.getLsbD 3)

theorem ckEventToEpoll_valid {events : Mask} (valid : ValidEvents events) :
    ckEventToEpoll events = some (interest events) := by
  have readable := tested_bit events 0 (by decide)
  have writable := tested_bit events 1 (by decide)
  have rdhup := tested_bit events 2 (by decide)
  have error := tested_bit events 3 (by decide)
  have accepted : ¬ (events = 0 ∨ events &&& ~~~knownEvents ≠ 0) :=
    not_or.mpr ⟨valid.1, not_not.mpr valid.2⟩
  unfold ckEventToEpoll interest epollBits
  simp only [accepted, ↓reduceIte, show eventRead = BitVec.twoPow 32 0 from rfl,
    show eventWrite = BitVec.twoPow 32 1 from rfl, show eventRdhup = BitVec.twoPow 32 2 from rfl,
    show eventError = BitVec.twoPow 32 3 from rfl, readable, writable, rdhup, error, Option.some.injEq]
  cases events.getLsbD 3 <;> rfl

theorem ckEventToEpoll_none_iff {events : Mask} :
    ckEventToEpoll events = none ↔ ¬ ValidEvents events := by
  constructor
  · intro refused valid
    simp [ckEventToEpoll_valid valid] at refused
  · intro invalid
    have refused : events = 0 ∨ events &&& ~~~knownEvents ≠ 0 := by
      by_contra neither
      rw [not_or, not_not] at neither
      exact invalid neither
    unfold ckEventToEpoll
    rw [if_pos refused]

theorem ckEpollToEvent_epollBits (readable writable rdhup err hup : Bool) :
    ckEpollToEvent (epollBits readable writable rdhup err hup) =
      eventBits readable writable rdhup (err || hup) := by
  cases readable <;> cases writable <;> cases rdhup <;> cases err <;> cases hup <;> decide

theorem eventBits_and (readable writable rdhup error : Bool) (mask : Mask) :
    eventBits readable writable rdhup error &&& mask =
      eventBits (readable && mask.getLsbD 0) (writable && mask.getLsbD 1) (rdhup && mask.getLsbD 2)
        (error && mask.getLsbD 3) := by
  simp only [eventBits, BitVec.and_or_distrib_right, bit_and]

theorem getLsbD_eventBits (readable writable rdhup error : Bool) :
    (eventBits readable writable rdhup error).getLsbD 0 = readable ∧
    (eventBits readable writable rdhup error).getLsbD 1 = writable ∧
    (eventBits readable writable rdhup error).getLsbD 2 = rdhup ∧
    (eventBits readable writable rdhup error).getLsbD 3 = error := by
  cases readable <;> cases writable <;> cases rdhup <;> cases error <;> decide

theorem asked_bits (events mask : Mask) :
    (interest events ||| (epollErr ||| epollHup)) &&& mask =
      epollBits (events.getLsbD 0 && mask.getLsbD 0) (events.getLsbD 1 && mask.getLsbD 2)
        (events.getLsbD 2 && mask.getLsbD 13) (mask.getLsbD 3) (mask.getLsbD 4) := by
  have widened : interest events ||| (epollErr ||| epollHup) =
      epollBits (events.getLsbD 0) (events.getLsbD 1) (events.getLsbD 2) true true := by
    unfold interest
    cases events.getLsbD 0 <;> cases events.getLsbD 1 <;> cases events.getLsbD 2 <;>
      cases events.getLsbD 3 <;> decide
  simp only [widened, epollBits, BitVec.and_or_distrib_right, bit_and, Bool.true_and]

theorem epollBits_ne_zero {readable writable rdhup err hup : Bool}
    (some : epollBits readable writable rdhup err hup ≠ 0) :
    eventBits readable writable rdhup (err || hup) ≠ 0 := by
  revert some
  cases readable <;> cases writable <;> cases rdhup <;> cases err <;> cases hup <;> decide

theorem reported_events {events mask : Mask} (valid : ValidEvents events) (some : mask ≠ 0)
    (asked : mask &&& ~~~(interest events ||| (epollErr ||| epollHup)) = 0) :
    ckEpollToEvent mask ≠ 0 ∧ ckEpollToEvent mask &&& ~~~(events ||| eventError) = 0 := by
  have within : mask = (interest events ||| (epollErr ||| epollHup)) &&& mask := by
    calc mask = mask &&& ((interest events ||| (epollErr ||| epollHup)) |||
          ~~~(interest events ||| (epollErr ||| epollHup))) := by
            rw [BitVec.or_not_self, BitVec.and_allOnes]
      _ = (interest events ||| (epollErr ||| epollHup)) &&& mask := by
        rw [BitVec.and_or_distrib_left, asked, BitVec.and_comm]
        exact BitVec.or_zero
  have widened : events ||| eventError =
      eventBits (events.getLsbD 0) (events.getLsbD 1) (events.getLsbD 2) true := by
    conv => lhs; rw [validEvents_bits valid]
    cases events.getLsbD 0 <;> cases events.getLsbD 1 <;> cases events.getLsbD 2 <;>
      cases events.getLsbD 3 <;> decide
  obtain ⟨readable, writable, rdhup, error⟩ := getLsbD_eventBits (events.getLsbD 0) (events.getLsbD 1)
    (events.getLsbD 2) true
  rw [asked_bits] at within
  have told := ckEpollToEvent_epollBits (events.getLsbD 0 && mask.getLsbD 0)
    (events.getLsbD 1 && mask.getLsbD 2) (events.getLsbD 2 && mask.getLsbD 13) (mask.getLsbD 3)
    (mask.getLsbD 4)
  rw [← within] at told
  constructor
  · rw [told]
    rw [within] at some
    exact epollBits_ne_zero some
  · rw [told, widened, eventBits_and]
    simp only [BitVec.getLsbD_not, readable, writable, rdhup, error]
    cases events.getLsbD 0 <;> cases events.getLsbD 1 <;> cases events.getLsbD 2 <;> simp [eventBits, bit]

structure EventLoop where
  epollFd : Int
  initialized : Bool
  deriving DecidableEq, Repr

structure Notification where
  cookie : Cookie
  events : Mask
  deriving DecidableEq, Repr

def ebadf : Int := 9
def einval : Int := 22

structure EpollEvent where
  events : Mask
  data : Cookie
  deriving DecidableEq, Repr

inductive CtlOp where
  | add (event : EpollEvent)
  | mod (event : EpollEvent)
  | del

/-- What epoll waits for on a descriptor: targets, each with its event. -/
abbrev InterestList (τ : Type) := List (τ × EpollEvent)

/-- The kernel under the loop. A call answers errno, or 0 or its result. target is what a descriptor
stands for, the open file description under its number; drift is what happens outside the
loop's calls, with the targets whose last descriptor goes. -/
structure Kernel (κ δ τ : Type) where
  epollCreate1 : κ → Except Int Int × κ
  epollCtl : κ → Int → CtlOp → Int → Int × κ
  epollWait : κ → Int → Nat → Int → Except Int (List EpollEvent) × κ
  close : κ → Int → Int × κ
  drift : κ → δ → κ × List τ
  target : κ → Int → Option τ
  interestList : κ → Int → Option (InterestList τ)

/-- An event that epoll_wait reports for an entry: some of what was asked for, or an error or
hangup, which need no asking. -/
structure Reports {τ : Type} (entry : τ × EpollEvent) (event : EpollEvent) : Prop where
  data : event.data = entry.2.data
  some : event.events ≠ 0
  asked : event.events &&& ~~~(entry.2.events ||| (epollErr ||| epollHup)) = 0

variable {κ δ τ : Type}

/-- The documented behaviour of the calls, on an epoll descriptor that is open. -/
structure Documented [DecidableEq τ] (kernel : Kernel κ δ τ) : Prop where
  create_fails : ∀ {k errno}, (kernel.epollCreate1 k).1 = .error errno → 0 < errno
  create_opens : ∀ {k fd}, (kernel.epollCreate1 k).1 = .ok fd →
    kernel.interestList (kernel.epollCreate1 k).2 fd = some []
  ctl_fails : ∀ {k epfd op fd}, (kernel.epollCtl k epfd op fd).1 ≠ 0 →
    0 < (kernel.epollCtl k epfd op fd).1 ∧
      kernel.interestList (kernel.epollCtl k epfd op fd).2 epfd = kernel.interestList k epfd
  ctl_ebadf : ∀ {k epfd list op fd}, kernel.interestList k epfd = some list → kernel.target k fd = none →
    (kernel.epollCtl k epfd op fd).1 = ebadf
  add_once : ∀ {k epfd list event fd t}, kernel.interestList k epfd = some list →
    kernel.target k fd = some t → t ∈ list.map Prod.fst → (kernel.epollCtl k epfd (.add event) fd).1 ≠ 0
  mod_known : ∀ {k epfd list event fd t}, kernel.interestList k epfd = some list →
    kernel.target k fd = some t → t ∉ list.map Prod.fst → (kernel.epollCtl k epfd (.mod event) fd).1 ≠ 0
  del_known : ∀ {k epfd list fd t}, kernel.interestList k epfd = some list →
    kernel.target k fd = some t → t ∉ list.map Prod.fst → (kernel.epollCtl k epfd .del fd).1 ≠ 0
  add_done : ∀ {k epfd list event fd t}, kernel.interestList k epfd = some list →
    kernel.target k fd = some t → (kernel.epollCtl k epfd (.add event) fd).1 = 0 →
    kernel.interestList (kernel.epollCtl k epfd (.add event) fd).2 epfd = some (list ++ [(t, event)])
  mod_done : ∀ {k epfd list event fd t}, kernel.interestList k epfd = some list →
    kernel.target k fd = some t → (kernel.epollCtl k epfd (.mod event) fd).1 = 0 →
    kernel.interestList (kernel.epollCtl k epfd (.mod event) fd).2 epfd =
      some (list.map fun entry => if entry.1 = t then (t, event) else entry)
  del_done : ∀ {k epfd list fd t}, kernel.interestList k epfd = some list →
    kernel.target k fd = some t → (kernel.epollCtl k epfd .del fd).1 = 0 →
    kernel.interestList (kernel.epollCtl k epfd .del fd).2 epfd = some (list.filter (·.1 ≠ t))
  wait_fails : ∀ {k epfd maxEvents timeout errno},
    (kernel.epollWait k epfd maxEvents timeout).1 = .error errno → 0 < errno
  wait_keeps : ∀ k epfd maxEvents timeout,
    kernel.interestList (kernel.epollWait k epfd maxEvents timeout).2 epfd = kernel.interestList k epfd
  wait_reports : ∀ {k epfd list maxEvents timeout events}, kernel.interestList k epfd = some list →
    (list.map Prod.fst).Nodup → (kernel.epollWait k epfd maxEvents timeout).1 = .ok events →
    events.length ≤ maxEvents ∧ (timeout = -1 → events ≠ []) ∧
      ∃ reported, reported ⊆ list ∧ (reported.map Prod.fst).Nodup ∧ List.Forall₂ Reports reported events
  drift_releases : ∀ {k event epfd list}, kernel.interestList k epfd = some list →
    kernel.interestList (kernel.drift k event).1 epfd =
      some (list.filter (·.1 ∉ (kernel.drift k event).2))

/-- The loop and its kernel. -/
structure System (κ : Type) where
  loop : EventLoop
  kernel : κ

variable (kernel : Kernel κ δ τ)

def ckEventLoopInit (s : System κ) : System κ × Int :=
  match kernel.epollCreate1 s.kernel with
  | (.error errno, k) => (⟨⟨-1, false⟩, k⟩, errno)
  | (.ok fd, k) => (⟨⟨fd, true⟩, k⟩, 0)

def control (s : System κ) (op : CtlOp) (fd : Int) : System κ × Int :=
  let called := kernel.epollCtl s.kernel s.loop.epollFd op fd
  ({ s with kernel := called.2 }, called.1)

def register (op : EpollEvent → CtlOp) (s : System κ) (fd : Int) (cookie : Cookie) (events : Mask) :
    System κ × Int :=
  if s.loop.initialized = false ∨ fd < 0 ∨ cookie = 0 then (s, einval)
  else
    match ckEventToEpoll events with
    | none => (s, einval)
    | some mask => control kernel s (op ⟨mask, cookie⟩) fd

def ckEventLoopAdd : System κ → Int → Cookie → Mask → System κ × Int := register kernel .add

def ckEventLoopModify : System κ → Int → Cookie → Mask → System κ × Int := register kernel .mod

def ckEventLoopRemove (s : System κ) (fd : Int) : System κ × Int :=
  if s.loop.initialized = false ∨ fd < 0 then (s, einval) else control kernel s .del fd

def maxEvents (capacity : Nat) : Nat := if capacity < 64 then capacity else 64

def ckEventLoopWait (s : System κ) (capacity : Nat) (timeout : Int) :
    System κ × Int × List Notification :=
  if s.loop.initialized = false ∨ capacity = 0 ∨ timeout < -1 then (s, -einval, [])
  else
    match kernel.epollWait s.kernel s.loop.epollFd (maxEvents capacity) timeout with
    | (.error errno, k) => ({ s with kernel := k }, -errno, [])
    | (.ok events, k) =>
      ({ s with kernel := k }, events.length,
        events.map fun event => ⟨event.data, ckEpollToEvent event.events⟩)

/-- The loop is closed whatever close answers. -/
def ckEventLoopDestroy (s : System κ) : System κ × Int :=
  if s.loop.initialized = false then (s, 0)
  else
    let closed := kernel.close s.kernel s.loop.epollFd
    (⟨⟨-1, false⟩, closed.2⟩, closed.1)

inductive Move (δ : Type) where
  | init
  | add (fd : Int) (cookie : Cookie) (events : Mask)
  | modify (fd : Int) (cookie : Cookie) (events : Mask)
  | remove (fd : Int)
  | wait (capacity : Nat) (timeout : Int)
  | destroy
  | outside (event : δ)
  deriving DecidableEq, Repr

/-- What a move answers, with what the descriptor of a call stood for. -/
inductive Answer (τ : Type) where
  | code (result : Int)
  | control (target : Option τ) (result : Int)
  | notified (count : Int) (notifications : List Notification)
  | released (targets : List τ)
  deriving DecidableEq, Repr

def step (s : System κ) : Move δ → Option (System κ × Answer τ)
  | .init => some ((ckEventLoopInit kernel s).1, .code (ckEventLoopInit kernel s).2)
  | .add fd cookie events =>
    some ((ckEventLoopAdd kernel s fd cookie events).1,
      .control (kernel.target s.kernel fd) (ckEventLoopAdd kernel s fd cookie events).2)
  | .modify fd cookie events =>
    some ((ckEventLoopModify kernel s fd cookie events).1,
      .control (kernel.target s.kernel fd) (ckEventLoopModify kernel s fd cookie events).2)
  | .remove fd =>
    some ((ckEventLoopRemove kernel s fd).1,
      .control (kernel.target s.kernel fd) (ckEventLoopRemove kernel s fd).2)
  | .wait capacity timeout =>
    some ((ckEventLoopWait kernel s capacity timeout).1,
      .notified (ckEventLoopWait kernel s capacity timeout).2.1 (ckEventLoopWait kernel s capacity timeout).2.2)
  | .destroy => some ((ckEventLoopDestroy kernel s).1, .code (ckEventLoopDestroy kernel s).2)
  | .outside event =>
    some ({ s with kernel := (kernel.drift s.kernel event).1 }, .released (kernel.drift s.kernel event).2)

def start (k : κ) : System κ := ⟨⟨-1, false⟩, k⟩

structure Registration (τ : Type) where
  target : τ
  cookie : Cookie
  events : Mask
  deriving DecidableEq, Repr

/-- The loop as its callers see it: closed, or open with its registrations. -/
abbrev Service (τ : Type) := Option (List (Registration τ))

def modified [DecidableEq τ] (list : List (Registration τ)) (t : τ) (cookie : Cookie) (events : Mask) :
    List (Registration τ) :=
  list.map fun r => if r.target = t then ⟨t, cookie, events⟩ else r

def without [DecidableEq τ] (list : List (Registration τ)) (gone : List τ) : List (Registration τ) :=
  list.filter fun r => r.target ∉ gone

/-- The registrations behind a call of the kernel: next where it succeeds, on what it was called for. -/
def behind (list : List (Registration τ)) (next : τ → List (Registration τ)) (target : Option τ) (result : Int) :
    List (Registration τ) :=
  match target with
  | none => list
  | some t => if result = 0 then next t else list

/-- What the callers know after a call and its answer. -/
def follow [DecidableEq τ] (service : Service τ) : Move δ × Answer τ → Service τ
  | (.init, .code result) => if result = 0 then some [] else none
  | (.add _ cookie events, .control target result) =>
    service.map fun list => behind list (fun t => list ++ [⟨t, cookie, events⟩]) target result
  | (.modify _ cookie events, .control target result) =>
    service.map fun list => behind list (fun t => modified list t cookie events) target result
  | (.remove _, .control target result) =>
    service.map fun list => behind list (fun t => without list [t]) target result
  | (.destroy, _) => none
  | (.outside _, .released targets) => service.map (without · targets)
  | _ => service

def Registered (service : Service τ) (target : Option τ) : Prop :=
  ∃ list t, service = some list ∧ target = some t ∧ t ∈ list.map Registration.target

/-- The checks that add and modify make before the system call. -/
def Acceptable (fd : Int) (cookie : Cookie) (events : Mask) : Prop :=
  0 ≤ fd ∧ cookie ≠ 0 ∧ ValidEvents events

/-- A call that succeeds only with arguments that can be used, on an open descriptor that the
registrations allow it on. -/
structure Controlled (usable allowed : Prop) (target : Option τ) (result : Int) : Prop where
  refused : ¬ usable → result = einval
  closed : usable → target = none → result = ebadf
  denied : usable → target ≠ none → ¬ allowed → result ≠ 0
  error : result ≠ 0 → 0 < result

/-- A notification names a registration by its cookie, with events that it asked for or an error. -/
structure Notice (r : Registration τ) (notification : Notification) : Prop where
  cookie : notification.cookie = r.cookie
  some : notification.events ≠ 0
  asked : notification.events &&& ~~~(r.events ||| eventError) = 0

/-- A wait that answers with registrations, each once. -/
structure Told (list : List (Registration τ)) (capacity : Nat) (timeout count : Int)
    (notifications : List Notification) : Prop where
  usable : capacity ≠ 0 ∧ -1 ≤ timeout
  counted : count = notifications.length
  fits : notifications.length ≤ min capacity 64
  some : timeout = -1 → notifications ≠ []
  known : ∃ reported, reported ⊆ list ∧ (reported.map Registration.target).Nodup ∧
    List.Forall₂ Notice reported notifications

/-- What the service promises of a call. -/
def Serves (service : Service τ) : Move δ × Answer τ → Prop
  | (.add fd cookie events, .control target result) =>
    Controlled (service.isSome ∧ Acceptable fd cookie events) (¬ Registered service target) target result
  | (.modify fd cookie events, .control target result) =>
    Controlled (service.isSome ∧ Acceptable fd cookie events) (Registered service target) target result
  | (.remove fd, .control target result) =>
    Controlled (service.isSome ∧ 0 ≤ fd) (Registered service target) target result
  | (.wait capacity timeout, .notified count notifications) =>
    (count < 0 ∧ notifications = [] ∧
      (service = none ∨ capacity = 0 ∨ timeout < -1 → count = -einval)) ∨
      ∃ list, service = some list ∧ Told list capacity timeout count notifications
  | (.destroy, .code result) => service = none → result = 0
  | _ => True

def Served [DecidableEq τ] (service : Service τ) : List (Move δ × Answer τ) → Prop
  | [] => True
  | entry :: history => Serves service entry ∧ Served (follow service entry) history

theorem served_snoc [DecidableEq τ] {history : List (Move δ × Answer τ)} {entry : Move δ × Answer τ} :
    ∀ {service : Service τ}, Served service history → Serves (history.foldl follow service) entry →
    Served service (history ++ [entry]) := by
  induction history with
  | nil =>
    intro service before next
    exact ⟨next, trivial⟩
  | cons first history ih =>
    intro service before next
    exact ⟨before.1, ih before.2 next⟩

def Registration.entry (r : Registration τ) : τ × EpollEvent := (r.target, ⟨interest r.events, r.cookie⟩)

/-- The kernel's list is the one of the registrations. -/
structure Lists (s : System κ) (list : List (Registration τ)) : Prop where
  open_loop : s.loop.initialized = true
  kernel : kernel.interestList s.kernel s.loop.epollFd = some (list.map Registration.entry)
  once : (list.map Registration.target).Nodup
  sound : ∀ r ∈ list, ValidEvents r.events

/-- The system carries the service out. -/
def Carries (s : System κ) : Service τ → Prop
  | none => s.loop.initialized = false
  | some list => Lists kernel s list

structure Called (list : List (Registration τ)) (next : τ → List (Registration τ)) (allowed : Prop)
    (target : Option τ) (out : System κ × Int) : Prop where
  closed : target = none → out.2 = ebadf
  denied : target ≠ none → ¬ allowed → out.2 ≠ 0
  failed : out.2 ≠ 0 → 0 < out.2 ∧ Lists kernel out.1 list
  done : ∀ t, target = some t → out.2 = 0 → Lists kernel out.1 (next t)

variable {kernel}

theorem entries_targets (list : List (Registration τ)) :
    (list.map Registration.entry).map Prod.fst = list.map Registration.target := by
  rw [List.map_map]
  rfl

theorem registered_some {list : List (Registration τ)} {t : τ} :
    Registered (some list) (some t) ↔ t ∈ list.map Registration.target := by
  simp [Registered]

theorem Called.serves {list : List (Registration τ)} {next : τ → List (Registration τ)} {usable allowed : Prop}
    {target : Option τ} {out : System κ × Int} (called : Called kernel list next allowed target out)
    (holds : usable) :
    Controlled usable allowed target out.2 ∧ Carries kernel out.1 (some (behind list next target out.2)) := by
  refine ⟨⟨fun refused => absurd holds refused, fun _ => called.closed, fun _ => called.denied,
    fun failed => (called.failed failed).1⟩, ?_⟩
  cases target with
  | none =>
    have failed : out.2 ≠ 0 := by
      rw [called.closed rfl]
      decide
    exact (called.failed failed).2
  | some t =>
    simp only [behind]
    split
    · exact called.done t rfl ‹_›
    · exact (called.failed ‹_›).2

theorem controlled_einval {usable allowed : Prop} {target : Option τ} (refused : ¬ usable) :
    Controlled usable allowed target einval :=
  ⟨fun _ => rfl, fun holds => absurd holds refused, fun holds => absurd holds refused, fun _ => by decide⟩

theorem behind_refused (list : List (Registration τ)) (next : τ → List (Registration τ)) (target : Option τ)
    {result : Int} (failed : result ≠ 0) : behind list next target result = list := by
  unfold behind
  split
  · rfl
  · exact if_neg failed

theorem register_acceptable {s : System κ} (opened : s.loop.initialized = true) (op : EpollEvent → CtlOp)
    {fd : Int} {cookie : Cookie} {events : Mask} (acceptable : Acceptable fd cookie events) :
    register kernel op s fd cookie events = control kernel s (op ⟨interest events, cookie⟩) fd := by
  obtain ⟨nonneg, named, valid⟩ := acceptable
  have guard : ¬ (s.loop.initialized = false ∨ fd < 0 ∨ cookie = 0) := by
    simp only [opened, not_or]
    exact ⟨by simp, by omega, named⟩
  rw [register, if_neg guard, ckEventToEpoll_valid valid]

theorem register_refused (s : System κ) (op : EpollEvent → CtlOp) {fd : Int} {cookie : Cookie} {events : Mask}
    (unusable : ¬ (s.loop.initialized = true ∧ Acceptable fd cookie events)) :
    register kernel op s fd cookie events = (s, einval) := by
  unfold register
  split
  · rfl
  · rename_i guard
    have invalid : ¬ ValidEvents events := by
      intro valid
      simp only [not_or] at guard
      exact unusable ⟨by simpa using guard.1, by omega, guard.2.2, valid⟩
    rw [ckEventToEpoll_none_iff.mpr invalid]

theorem Carries.opened {s : System κ} {service : Service τ} (carries : Carries kernel s service) :
    service.isSome = true ↔ s.loop.initialized = true := by
  cases service with
  | none =>
    have closed : s.loop.initialized = false := carries
    simp [closed]
  | some list =>
    have opened : s.loop.initialized = true := carries.open_loop
    simp [opened]

theorem register_serves {s : System κ} {service : Service τ} (carries : Carries kernel s service)
    (op : EpollEvent → CtlOp) {fd : Int} {cookie : Cookie} {events : Mask} {allowed : Prop}
    {next : List (Registration τ) → τ → List (Registration τ)}
    (called : ∀ list, service = some list → Lists kernel s list → Acceptable fd cookie events →
      Called kernel list (next list) allowed (kernel.target s.kernel fd)
        (control kernel s (op ⟨interest events, cookie⟩) fd)) :
    let out := register kernel op s fd cookie events
    Controlled (service.isSome ∧ Acceptable fd cookie events) allowed (kernel.target s.kernel fd) out.2 ∧
      Carries kernel out.1 (service.map fun list => behind list (next list) (kernel.target s.kernel fd) out.2) := by
  by_cases usable : service.isSome = true ∧ Acceptable fd cookie events
  · obtain ⟨list, rfl⟩ := Option.isSome_iff_exists.mp usable.1
    rw [register_acceptable (carries.opened.mp usable.1) op usable.2]
    exact (called list rfl carries usable.2).serves usable
  · rw [register_refused s op (by rw [← carries.opened]; exact usable)]
    refine ⟨controlled_einval usable, ?_⟩
    cases service with
    | none => exact carries
    | some list =>
      rw [Option.map_some, behind_refused _ _ _ (show einval ≠ 0 by decide)]
      exact carries

theorem entries_of_registrations {reported : InterestList τ} {list : List (Registration τ)}
    (known : reported ⊆ list.map Registration.entry) :
    ∃ told, told ⊆ list ∧ reported = told.map Registration.entry := by
  induction reported with
  | nil => exact ⟨[], by simp, rfl⟩
  | cons entry reported ih =>
    obtain ⟨r, member, same⟩ := List.mem_map.mp (known List.mem_cons_self)
    obtain ⟨told, among, rest⟩ := ih fun other inside => known (List.mem_cons_of_mem _ inside)
    refine ⟨r :: told, ?_, by simp [same, rest]⟩
    intro other inside
    obtain rfl | later := List.mem_cons.mp inside
    · exact member
    · exact among later

theorem maxEvents_eq (capacity : Nat) : maxEvents capacity = min capacity 64 := by
  unfold maxEvents
  split <;> omega

theorem told_reports {s : System κ} {list : List (Registration τ)} (lists : Lists kernel s list)
    {capacity : Nat} {timeout : Int} (usable : capacity ≠ 0 ∧ -1 ≤ timeout) {events : List EpollEvent}
    (reports : events.length ≤ maxEvents capacity ∧ (timeout = -1 → events ≠ []) ∧
      ∃ reported, reported ⊆ list.map Registration.entry ∧ (reported.map Prod.fst).Nodup ∧
        List.Forall₂ Reports reported events) :
    Told list capacity timeout events.length
      (events.map fun event => ⟨event.data, ckEpollToEvent event.events⟩) := by
  obtain ⟨fits, some, reported, among, once, each⟩ := reports
  obtain ⟨told, known, rfl⟩ := entries_of_registrations among
  rw [entries_targets] at once
  refine ⟨usable, by simp, ?_, fun endless => ?_, told, known, once, ?_⟩
  · rw [List.length_map, ← maxEvents_eq]
    exact fits
  · simpa using some endless
  · rw [List.forall₂_map_left_iff] at each
    rw [List.forall₂_map_right_iff]
    have valid : ∀ r ∈ told, ValidEvents r.events := fun r member => lists.sound r (known member)
    refine ((List.forall₂_and_left told events).mpr ⟨valid, each⟩).imp ?_
    rintro r event ⟨valid, reports⟩
    obtain ⟨news, asked⟩ := reported_events valid reports.some reports.asked
    exact ⟨reports.data, news, asked⟩

variable [DecidableEq τ]

theorem control_called (documented : Documented kernel) {s : System κ} {list : List (Registration τ)}
    {next : τ → List (Registration τ)} (lists : Lists kernel s list) {op : CtlOp} {fd : Int} {allowed : Prop}
    (denied : ∀ t, kernel.target s.kernel fd = some t → ¬ allowed →
      (kernel.epollCtl s.kernel s.loop.epollFd op fd).1 ≠ 0)
    (done : ∀ t, kernel.target s.kernel fd = some t → allowed →
      (kernel.epollCtl s.kernel s.loop.epollFd op fd).1 = 0 →
      kernel.interestList (kernel.epollCtl s.kernel s.loop.epollFd op fd).2 s.loop.epollFd =
        some ((next t).map Registration.entry) ∧ ((next t).map Registration.target).Nodup ∧
        ∀ r ∈ next t, ValidEvents r.events) :
    Called kernel list next allowed (kernel.target s.kernel fd) (control kernel s op fd) := by
  constructor
  · exact documented.ctl_ebadf lists.kernel
  · intro opened refused
    obtain ⟨t, here⟩ := Option.ne_none_iff_exists'.mp opened
    exact denied t here refused
  · intro failed
    obtain ⟨error, kept⟩ := documented.ctl_fails failed
    exact ⟨error, lists.open_loop, kept.trans lists.kernel, lists.once, lists.sound⟩
  · intro t here success
    by_cases able : allowed
    · obtain ⟨kept, once, sound⟩ := done t here able success
      exact ⟨lists.open_loop, kept, once, sound⟩
    · exact absurd success (denied t here able)

theorem modified_targets (list : List (Registration τ)) (t : τ) (cookie : Cookie) (events : Mask) :
    (modified list t cookie events).map Registration.target = list.map Registration.target := by
  rw [modified, List.map_map]
  apply List.map_congr_left
  intro r member
  by_cases same : r.target = t
  · simp [same]
  · simp [same]

theorem modified_entries (list : List (Registration τ)) (t : τ) (cookie : Cookie) (events : Mask) :
    ((list.map Registration.entry).map fun entry =>
      if entry.1 = t then (t, ⟨interest events, cookie⟩) else entry) =
      (modified list t cookie events).map Registration.entry := by
  rw [modified, List.map_map, List.map_map]
  apply List.map_congr_left
  intro r member
  by_cases same : r.target = t
  · simp [Registration.entry, same]
  · simp [Registration.entry, same]

theorem without_entries (list : List (Registration τ)) (gone : List τ) :
    (list.map Registration.entry).filter (·.1 ∉ gone) = (without list gone).map Registration.entry := by
  rw [without, List.filter_map]
  rfl

theorem add_serves (documented : Documented kernel) {s : System κ} {service : Service τ}
    (carries : Carries kernel s service) (fd : Int) (cookie : Cookie) (events : Mask) :
    let out := ckEventLoopAdd kernel s fd cookie events
    let entry : Move δ × Answer τ := (.add fd cookie events, .control (kernel.target s.kernel fd) out.2)
    Serves service entry ∧ Carries kernel out.1 (follow service entry) := by
  have called : ∀ list, service = some list → Lists kernel s list → Acceptable fd cookie events →
      Called kernel list (fun t => list ++ [⟨t, cookie, events⟩])
        (¬ Registered service (kernel.target s.kernel fd)) (kernel.target s.kernel fd)
        (control kernel s (.add ⟨interest events, cookie⟩) fd) := by
    rintro list rfl lists acceptable
    refine control_called documented lists (fun t here taken => ?_) (fun t here free success => ?_)
    · rw [not_not, here, registered_some, ← entries_targets] at taken
      exact documented.add_once lists.kernel here taken
    · rw [here, registered_some] at free
      refine ⟨?_, ?_, ?_⟩
      · rw [documented.add_done lists.kernel here success, List.map_append]
        rfl
      · rw [List.map_append, List.nodup_append']
        exact ⟨lists.once, by simp, by simpa using free⟩
      · intro r member
        rw [List.mem_append, List.mem_singleton] at member
        obtain old | rfl := member
        · exact lists.sound r old
        · exact acceptable.2.2
  exact register_serves carries .add called

theorem modify_serves (documented : Documented kernel) {s : System κ} {service : Service τ}
    (carries : Carries kernel s service) (fd : Int) (cookie : Cookie) (events : Mask) :
    let out := ckEventLoopModify kernel s fd cookie events
    let entry : Move δ × Answer τ := (.modify fd cookie events, .control (kernel.target s.kernel fd) out.2)
    Serves service entry ∧ Carries kernel out.1 (follow service entry) := by
  have called : ∀ list, service = some list → Lists kernel s list → Acceptable fd cookie events →
      Called kernel list (fun t => modified list t cookie events)
        (Registered service (kernel.target s.kernel fd)) (kernel.target s.kernel fd)
        (control kernel s (.mod ⟨interest events, cookie⟩) fd) := by
    rintro list rfl lists acceptable
    refine control_called documented lists (fun t here missing => ?_) (fun t here known success => ?_)
    · rw [here, registered_some, ← entries_targets] at missing
      exact documented.mod_known lists.kernel here missing
    · refine ⟨?_, ?_, ?_⟩
      · rw [documented.mod_done lists.kernel here success, modified_entries]
      · rw [modified_targets]
        exact lists.once
      · intro r member
        obtain ⟨old, known, rfl⟩ := List.mem_map.mp member
        split
        · exact acceptable.2.2
        · exact lists.sound old known
  exact register_serves carries .mod called

theorem without_lists {s t : System κ} {list : List (Registration τ)} (lists : Lists kernel s list)
    (gone : List τ) (same : t.loop = s.loop)
    (kept : kernel.interestList t.kernel s.loop.epollFd =
      some ((list.map Registration.entry).filter (·.1 ∉ gone))) : Lists kernel t (without list gone) := by
  refine ⟨by rw [same]; exact lists.open_loop, ?_, lists.once.sublist (List.filter_sublist.map _), ?_⟩
  · rw [same, kept, without_entries]
  · intro r member
    exact lists.sound r (List.mem_of_mem_filter member)

theorem remove_serves (documented : Documented kernel) {s : System κ} {service : Service τ}
    (carries : Carries kernel s service) (fd : Int) :
    let out := ckEventLoopRemove kernel s fd
    let entry : Move δ × Answer τ := (.remove fd, .control (kernel.target s.kernel fd) out.2)
    Serves service entry ∧ Carries kernel out.1 (follow service entry) := by
  by_cases usable : service.isSome = true ∧ 0 ≤ fd
  · obtain ⟨list, rfl⟩ := Option.isSome_iff_exists.mp usable.1
    have lists : Lists kernel s list := carries
    have guard : ¬ (s.loop.initialized = false ∨ fd < 0) := by
      simp only [lists.open_loop, not_or]
      exact ⟨by simp, by omega⟩
    rw [ckEventLoopRemove, if_neg guard]
    have called : Called kernel list (fun t => without list [t]) (Registered (some list) (kernel.target s.kernel fd))
        (kernel.target s.kernel fd) (control kernel s .del fd) := by
      refine control_called documented lists (fun t here missing => ?_) (fun t here known success => ?_)
      · rw [here, registered_some, ← entries_targets] at missing
        exact documented.del_known lists.kernel here missing
      · have kept := documented.del_done lists.kernel here success
        rw [show (list.map Registration.entry).filter (fun entry => decide (entry.1 ≠ t)) =
          (list.map Registration.entry).filter (fun entry => decide (entry.1 ∉ [t])) by simp] at kept
        have after := without_lists (t := (control kernel s .del fd).1) lists [t] rfl kept
        exact ⟨after.kernel, after.once, after.sound⟩
    exact called.serves usable
  · have guard : s.loop.initialized = false ∨ fd < 0 := by
      rw [carries.opened] at usable
      by_contra neither
      rw [not_or] at neither
      exact usable ⟨by simpa using neither.1, by omega⟩
    rw [ckEventLoopRemove, if_pos guard]
    refine ⟨controlled_einval usable, ?_⟩
    cases service with
    | none => exact carries
    | some list =>
      simp only [follow]
      rw [Option.map_some, behind_refused _ _ _ (show einval ≠ 0 by decide)]
      exact carries

theorem wait_serves (documented : Documented kernel) {s : System κ} {service : Service τ}
    (carries : Carries kernel s service) (capacity : Nat) (timeout : Int) :
    let out := ckEventLoopWait kernel s capacity timeout
    Serves service ((.wait capacity timeout, .notified out.2.1 out.2.2) : Move δ × Answer τ) ∧
      Carries kernel out.1 service := by
  by_cases guard : s.loop.initialized = false ∨ capacity = 0 ∨ timeout < -1
  · rw [ckEventLoopWait, if_pos guard]
    exact ⟨.inl ⟨show -einval < 0 by decide, rfl, fun _ => rfl⟩, carries⟩
  · rw [ckEventLoopWait, if_neg guard]
    rw [not_or, not_or] at guard
    obtain ⟨opened, room, early⟩ := guard
    obtain ⟨list, rfl⟩ := Option.isSome_iff_exists.mp (carries.opened.mpr (by simpa using opened))
    have lists : Lists kernel s list := carries
    have kept := documented.wait_keeps s.kernel s.loop.epollFd (maxEvents capacity) timeout
    cases waited : kernel.epollWait s.kernel s.loop.epollFd (maxEvents capacity) timeout with
    | mk answer k =>
      rw [waited] at kept
      have after : Lists kernel { s with kernel := k } list :=
        ⟨lists.open_loop, kept.trans lists.kernel, lists.once, lists.sound⟩
      cases answer with
      | error errno =>
        have failed : 0 < errno := documented.wait_fails (congrArg Prod.fst waited)
        refine ⟨.inl ⟨show -errno < 0 by omega, rfl, fun wrong => ?_⟩, after⟩
        rcases wrong with none | empty | late
        · cases none
        · exact absurd empty room
        · exact absurd late early
      | ok events =>
        refine ⟨.inr ⟨list, rfl, ?_⟩, after⟩
        have once : ((list.map Registration.entry).map Prod.fst).Nodup := by
          rw [entries_targets]
          exact lists.once
        exact told_reports lists ⟨room, by omega⟩
          (documented.wait_reports lists.kernel once (congrArg Prod.fst waited))

theorem outside_serves (documented : Documented kernel) {s : System κ} {service : Service τ}
    (carries : Carries kernel s service) (event : δ) :
    Carries kernel { s with kernel := (kernel.drift s.kernel event).1 }
      (service.map (without · (kernel.drift s.kernel event).2)) := by
  cases service with
  | none => exact carries
  | some list =>
    have lists : Lists kernel s list := carries
    exact without_lists lists _ rfl (documented.drift_releases lists.kernel)

theorem init_carries (documented : Documented kernel) (s : System κ) (service : Service τ) :
    Carries kernel (ckEventLoopInit kernel s).1
      (follow service ((.init, .code (ckEventLoopInit kernel s).2) : Move δ × Answer τ)) := by
  cases created : kernel.epollCreate1 s.kernel with
  | mk answer k =>
    simp only [ckEventLoopInit, created, follow]
    cases answer with
    | error errno =>
      have failed : 0 < errno := documented.create_fails (congrArg Prod.fst created)
      rw [if_neg (by dsimp only; omega)]
      exact rfl
    | ok fd =>
      have opens := documented.create_opens (congrArg Prod.fst created)
      rw [created] at opens
      exact ⟨rfl, opens, by simp, by simp⟩

theorem destroy_serves (s : System κ) {service : Service τ} (carries : Carries kernel s service) :
    let out := ckEventLoopDestroy kernel s
    let entry : Move δ × Answer τ := (.destroy, .code out.2)
    Serves service entry ∧ Carries kernel out.1 (follow service entry) := by
  by_cases closed : s.loop.initialized = false
  · rw [ckEventLoopDestroy, if_pos closed]
    exact ⟨fun _ => rfl, closed⟩
  · rw [ckEventLoopDestroy, if_neg closed]
    refine ⟨fun none => ?_, rfl⟩
    subst none
    exact absurd carries closed

theorem step_serves (documented : Documented kernel) {s t : System κ} {service : Service τ} {move : Move δ}
    {answer : Answer τ} (carries : Carries kernel s service) (stepped : step kernel s move = some (t, answer)) :
    Serves service (move, answer) ∧ Carries kernel t (follow service (move, answer)) := by
  cases move with
  | init =>
    simp only [step, Option.some.injEq, Prod.mk.injEq] at stepped
    obtain ⟨rfl, rfl⟩ := stepped
    exact ⟨trivial, init_carries documented s service⟩
  | add fd cookie events =>
    simp only [step, Option.some.injEq, Prod.mk.injEq] at stepped
    obtain ⟨rfl, rfl⟩ := stepped
    exact add_serves documented carries fd cookie events
  | modify fd cookie events =>
    simp only [step, Option.some.injEq, Prod.mk.injEq] at stepped
    obtain ⟨rfl, rfl⟩ := stepped
    exact modify_serves documented carries fd cookie events
  | remove fd =>
    simp only [step, Option.some.injEq, Prod.mk.injEq] at stepped
    obtain ⟨rfl, rfl⟩ := stepped
    exact remove_serves documented carries fd
  | wait capacity timeout =>
    simp only [step, Option.some.injEq, Prod.mk.injEq] at stepped
    obtain ⟨rfl, rfl⟩ := stepped
    exact wait_serves documented carries capacity timeout
  | destroy =>
    simp only [step, Option.some.injEq, Prod.mk.injEq] at stepped
    obtain ⟨rfl, rfl⟩ := stepped
    exact destroy_serves s carries
  | outside event =>
    simp only [step, Option.some.injEq, Prod.mk.injEq] at stepped
    obtain ⟨rfl, rfl⟩ := stepped
    exact ⟨trivial, outside_serves documented carries event⟩

/-- Every run of the loop over a kernel that does what its manual says is one of the service:
each call answers as the registrations that earlier answers told of allow, and each
notification names a registration that is still there, with events that it asked for or an
error. -/
theorem loop_serves (documented : Documented kernel) {k : κ} {history : List (Move δ × Answer τ)} {s : System κ}
    (runs : Runs (step kernel) (start k) history s) : Served none history := by
  have both : Served none history ∧ Carries kernel s (history.foldl follow none) := by
    apply runs.invariant fun history s => Served none history ∧ Carries kernel s (history.foldl follow none)
    · exact ⟨trivial, rfl⟩
    · intro history s t move answer before holds next
      obtain ⟨serves, carries⟩ := step_serves documented holds.2 next
      rw [List.foldl_append]
      exact ⟨served_snoc holds.1 serves, carries⟩
  exact both.1

/-- A small kernel: the descriptors it has had, those that are open, each with its file, what is ready
on a file, and the epoll descriptors with their lists. A descriptor is registered by its number and
its file. -/
structure Table where
  past : List (Int × Nat)
  files : List (Int × Nat)
  ready : Nat → Mask
  lists : Int → Option (InterestList (Int × Nat))
  unused : Int

inductive Outside where
  | ready (file : Nat) (events : Mask)
  | closed (fd : Int)
  deriving DecidableEq, Repr

def Table.withList (t : Table) (epfd : Int) (list : Option (InterestList (Int × Nat))) : Table :=
  { t with lists := Function.update t.lists epfd list }

def Table.target (t : Table) (fd : Int) : Option (Int × Nat) := (t.files.lookup fd).map (fd, ·)

def enoent : Int := 2
def eintr : Int := 4
def eexist : Int := 17

def Table.control (t : Table) (epfd : Int) (op : CtlOp) (fd : Int) : Int × Table :=
  match t.lists epfd, t.target fd with
  | some list, some key =>
    match op with
    | .add event =>
      if key ∈ list.map Prod.fst then (eexist, t) else (0, t.withList epfd (list ++ [(key, event)]))
    | .mod event =>
      if key ∉ list.map Prod.fst then (enoent, t)
      else (0, t.withList epfd (list.map fun entry => if entry.1 = key then (key, event) else entry))
    | .del =>
      if key ∉ list.map Prod.fst then (enoent, t) else (0, t.withList epfd (list.filter (·.1 ≠ key)))
  | _, _ => (ebadf, t)

def Table.deliverable (t : Table) (entry : (Int × Nat) × EpollEvent) : EpollEvent :=
  ⟨(entry.2.events ||| (epollErr ||| epollHup)) &&& t.ready entry.1.2, entry.2.data⟩

/-- The first ready entries. Where there are none a wait that may last for ever is interrupted. -/
def Table.wait (t : Table) (epfd : Int) (maxEvents : Nat) (timeout : Int) : Except Int (List EpollEvent) :=
  match t.lists epfd with
  | none => .error ebadf
  | some list =>
    let reported := (list.filter fun entry => (t.deliverable entry).events ≠ 0).take maxEvents
    if timeout = -1 ∧ reported = [] then .error eintr else .ok (reported.map t.deliverable)

def Table.drift (t : Table) : Outside → Table × List (Int × Nat)
  | .ready file events => ({ t with ready := Function.update t.ready file events }, [])
  | .closed fd =>
    let files := t.files.filter (·.1 ≠ fd)
    let gone := t.past.filter fun key => key.2 ∈ t.files.map Prod.snd ∧ key.2 ∉ files.map Prod.snd
    ({ t with
        files := files
        lists := fun epfd => (t.lists epfd).map fun list => list.filter (·.1 ∉ gone) }, gone)

def tableKernel : Kernel Table Outside (Int × Nat) where
  epollCreate1 t := (.ok t.unused, { t.withList t.unused (some []) with unused := t.unused + 1 })
  epollCtl := Table.control
  epollWait t epfd maxEvents timeout := (t.wait epfd maxEvents timeout, t)
  close t fd := (0, t.withList fd none)
  drift := Table.drift
  target := Table.target
  interestList t fd := t.lists fd

theorem table_control {t : Table} {epfd fd : Int} {list : InterestList (Int × Nat)} {key : Int × Nat} (op : CtlOp)
    (listed : t.lists epfd = some list) (opened : t.target fd = some key) :
    t.control epfd op fd = match op with
      | .add event =>
        if key ∈ list.map Prod.fst then (eexist, t) else (0, t.withList epfd (list ++ [(key, event)]))
      | .mod event =>
        if key ∉ list.map Prod.fst then (enoent, t)
        else (0, t.withList epfd (list.map fun entry => if entry.1 = key then (key, event) else entry))
      | .del =>
        if key ∉ list.map Prod.fst then (enoent, t)
        else (0, t.withList epfd (list.filter (·.1 ≠ key))) := by
  rw [Table.control, listed, opened]

theorem table_control_fails {t : Table} {epfd fd : Int} {op : CtlOp} (failed : (t.control epfd op fd).1 ≠ 0) :
    0 < (t.control epfd op fd).1 ∧ (t.control epfd op fd).2 = t := by
  unfold Table.control at failed ⊢
  split
  · cases op <;> simp only at failed ⊢ <;> split <;> simp_all [eexist, enoent]
  · exact ⟨show 0 < ebadf by decide, rfl⟩

theorem table_wait {t : Table} {epfd timeout : Int} {maxEvents : Nat} {list : InterestList (Int × Nat)}
    {events : List EpollEvent} (listed : t.lists epfd = some list) (once : (list.map Prod.fst).Nodup)
    (waited : t.wait epfd maxEvents timeout = .ok events) :
    events.length ≤ maxEvents ∧ (timeout = -1 → events ≠ []) ∧
      ∃ reported, reported ⊆ list ∧ (reported.map Prod.fst).Nodup ∧ List.Forall₂ Reports reported events := by
  rw [Table.wait, listed] at waited
  dsimp only at waited
  generalize chosen : (list.filter fun entry => (t.deliverable entry).events ≠ 0).take maxEvents = reported at waited
  have within : reported.Sublist (list.filter fun entry => (t.deliverable entry).events ≠ 0) :=
    chosen ▸ List.take_sublist _ _
  split at waited
  · cases waited
  · rename_i some
    simp only [Except.ok.injEq] at waited
    subst waited
    refine ⟨?_, fun endless none => ?_, reported, (within.trans List.filter_sublist).subset,
      once.sublist ((within.trans List.filter_sublist).map _), ?_⟩
    · rw [List.length_map, ← chosen, List.length_take]
      exact Nat.min_le_left _ _
    · exact some ⟨endless, List.map_eq_nil_iff.mp none⟩
    · rw [List.forall₂_map_right_iff, List.forall₂_same]
      intro entry member
      have news := List.of_mem_filter (within.subset member)
      refine ⟨rfl, by simpa using news, ?_⟩
      simp only [Table.deliverable]
      rw [BitVec.and_comm, ← BitVec.and_assoc, BitVec.and_comm (~~~_), BitVec.and_not_self]
      exact BitVec.zero_and

theorem table_documented : Documented tableKernel where
  create_fails wrong := by cases wrong
  create_opens opened := by
    cases opened
    simp [tableKernel, Table.withList]
  ctl_fails failed := ⟨(table_control_fails failed).1, by
    simp only [tableKernel, (table_control_fails failed).2]⟩
  ctl_ebadf := by
    intro t epfd list op fd listed closed
    simp only [tableKernel] at listed closed ⊢
    simp [Table.control, listed, closed]
  add_once := by
    intro t epfd list event fd key listed opened taken
    simp only [tableKernel, table_control _ listed opened, if_pos taken]
    decide
  mod_known := by
    intro t epfd list event fd key listed opened missing
    simp only [tableKernel, table_control _ listed opened, if_pos missing]
    decide
  del_known := by
    intro t epfd list fd key listed opened missing
    simp only [tableKernel, table_control _ listed opened, if_pos missing]
    decide
  add_done := by
    intro t epfd list event fd key listed opened success
    simp only [tableKernel, table_control _ listed opened] at success ⊢
    split at success
    · simp [eexist] at success
    · rename_i free
      simp [free, Table.withList]
  mod_done := by
    intro t epfd list event fd key listed opened success
    simp only [tableKernel, table_control _ listed opened] at success ⊢
    split at success
    · simp [enoent] at success
    · rename_i known
      rw [if_neg known]
      simp [Table.withList]
  del_done := by
    intro t epfd list fd key listed opened success
    simp only [tableKernel, table_control _ listed opened] at success ⊢
    split at success
    · simp [enoent] at success
    · rename_i known
      rw [if_neg known]
      simp [Table.withList]
  wait_fails := by
    intro t epfd maxEvents timeout errno failed
    simp only [tableKernel, Table.wait] at failed
    split at failed
    · cases failed
      decide
    · split at failed
      · cases failed
        decide
      · cases failed
  wait_keeps _ _ _ _ := rfl
  wait_reports := table_wait
  drift_releases := by
    intro t event epfd list listed
    cases event with
    | ready file events => simpa [tableKernel, Table.drift] using listed
    | closed fd =>
      have listed : t.lists epfd = some list := listed
      simp only [tableKernel, Table.drift, listed, Option.map_some, Option.some.injEq]
      exact List.filter_congr fun entry _ => decide_eq_decide.mpr Iff.rfl

/-- Two descriptors of one file, and one of another. -/
def sampleTable : Table :=
  ⟨[(7, 70), (8, 70), (9, 90)], [(7, 70), (8, 70), (9, 90)], fun _ => 0, fun _ => none, 3⟩

/-- Both descriptors of a file are registered and one is closed: it is told of until the file's last
descriptor goes. -/
def sampleHistory : List (Move Outside × Answer (Int × Nat)) :=
  [(.init, .code 0), (.add 7 5 eventRead, .control (some (7, 70)) 0),
    (.add 8 3 eventRdhup, .control (some (8, 70)) 0),
    (.add 9 6 (eventRead ||| eventWrite), .control (some (9, 90)) 0), (.outside (.closed 7), .released []),
    (.outside (.ready 70 (epollIn ||| epollHup)), .released []),
    (.wait 4 (-1), .notified 2 [⟨5, eventRead ||| eventError⟩, ⟨3, eventError⟩]),
    (.modify 9 4 eventWrite, .control (some (9, 90)) 0),
    (.outside (.closed 8), .released [(7, 70), (8, 70)]), (.wait 4 0, .notified 0 []),
    (.remove 9, .control (some (9, 90)) 0), (.destroy, .code 0)]

theorem sample_executes :
    (execute (step tableKernel) (start sampleTable) (sampleHistory.map Prod.fst)).map Prod.fst =
      some sampleHistory := by
  decide +kernel

theorem loop_serves_sample : Served none sampleHistory := by
  obtain ⟨⟨history, last⟩, executed, same⟩ := Option.map_eq_some_iff.mp sample_executes
  rw [← same]
  exact loop_serves table_documented (execute_runs executed)

end CkartaEventLoop
