import Ckarta.InputMachine

/-!
A message read from one byte stream, slice by slice. The caller chooses the slices;
every span is acknowledged before the next one. The outcome is that of the input
machine on the whole stream, so the slices cannot be told from it.
-/
namespace CkartaInputStream
open MachineWord PrefixMachine CkartaHttpParser CkartaHttpChunked CkartaHttpInput CkartaInputMachine

def spanBytes (memory : Bytes) (pointer : Option Nat) (length : Nat) : Bytes :=
  match pointer with
  | none => []
  | some address => (memory.drop address).take length

structure Presented where
  result : InputResult
  input : HttpInput
  advanced : Nat
  body : Bytes
  deriving DecidableEq, Repr

def presentSlice (memory : Bytes) (input : HttpInput) (position n : Nat) : Presented :=
  let fed := ckHttpInputFeed input position ((memory.drop position).take n)
  if fed.bodyLength = 0 then ⟨fed.result, fed.input, fed.consumed, []⟩
  else match ckHttpInputAckBody fed.input with
    | none => ⟨fed.result, fed.input, fed.consumed, []⟩
    | some (input, consumed) =>
      ⟨fed.result, input, fed.consumed + consumed, spanBytes memory fed.bodyData fed.bodyLength⟩

def final : InputResult → Bool
  | .complete | .badRequest | .tooLarge => true
  | _ => false

structure Outcome where
  result : InputResult
  request : HttpRequest
  body : Bytes
  consumed : Option Nat
  deriving DecidableEq, Repr

def Presented.outcome (last : Presented) (position : Nat) (body : Bytes) : Outcome :=
  ⟨last.result, last.input.request, body ++ last.body,
    if last.result = .complete then some (position + last.advanced) else none⟩

/-- Every admissible way to present the stream from a position on: slices are non-empty
    and longer than floor, the length of a slice that was just presented in vain. -/
inductive Presentation (memory : Bytes) : HttpInput → Nat → Nat → Bytes → Outcome → Prop where
  | last {x : HttpInput} {position floor : Nat} {body : Bytes} (n : Nat) (longer : floor < n)
      (within : position + n ≤ memory.length)
      (ends : final (presentSlice memory x position n).result = true) :
      Presentation memory x position floor body ((presentSlice memory x position n).outcome position body)
  | stuck {x : HttpInput} {position floor : Nat} {body : Bytes} (n : Nat) (longer : floor < n)
      (reaches : position + n = memory.length)
      (open_ : final (presentSlice memory x position n).result = false)
      (vain : (presentSlice memory x position n).advanced = 0) :
      Presentation memory x position floor body ((presentSlice memory x position n).outcome position body)
  | exhausted {x : HttpInput} {position floor : Nat} {body : Bytes}
      (reached : position = memory.length) :
      Presentation memory x position floor body ((presentSlice memory x position 0).outcome position body)
  | next {x : HttpInput} {position floor : Nat} {body : Bytes} {outcome : Outcome} (n : Nat)
      (longer : floor < n) (within : position + n ≤ memory.length)
      (open_ : final (presentSlice memory x position n).result = false)
      (rest : Presentation memory (presentSlice memory x position n).input
        (position + (presentSlice memory x position n).advanced)
        (if (presentSlice memory x position n).advanced = 0 then n else 0)
        (body ++ (presentSlice memory x position n).body) outcome) :
      Presentation memory x position floor body outcome

/-- Always present everything that is left. -/
def presentAll (memory : Bytes) : Nat → HttpInput → Nat → Bytes → Option Outcome
  | 0, _, _, _ => none
  | fuel + 1, x, position, body =>
    let last := presentSlice memory x position (memory.length - position)
    if final last.result ∨ last.advanced = 0 then some (last.outcome position body)
    else presentAll memory fuel last.input (position + last.advanced) (body ++ last.body)

def presentWhole (memory : Bytes) : Option Outcome :=
  presentAll memory (memory.length + 1) ckHttpInputInit 0 []

/-- What one slice does, as a run of the machine over it. -/
inductive SliceOutcome (x : HttpInput) (s : Bytes) : Presented → Prop where
  | moved (result : InputResult) (read rest body : Bytes) (y : HttpInput) (cut : s = read ++ rest)
      (run : Steps inputMachine (settled x) read body (settled y))
      (idle : y.pendingBodyLength = 0) (next : y.messageComplete = true ∨ Ready y)
      (kind : result = .body ∨ result = .incomplete)
      (vain : read = [] → result = .incomplete ∧ inputAct (settled y) rest = .wait ∧ Ready y) :
      SliceOutcome x s ⟨result, y, read.length, body⟩
  | complete (read rest : Bytes) (n : Nat) (e y : HttpInput) (cut : s = read ++ rest)
      (run : Steps inputMachine (settled x) read [] e)
      (ends : inputAct e rest = .halt n (.complete, y.request)) :
      SliceOutcome x s ⟨.complete, y, read.length + n, []⟩
  | refuse (result : InputResult) (read rest : Bytes) (n consumed : Nat) (e y : HttpInput)
      (cut : s = read ++ rest) (run : Steps inputMachine (settled x) read [] e)
      (ends : inputAct e rest = .halt n (result, y.request))
      (kind : result = .badRequest ∨ result = .tooLarge) :
      SliceOutcome x s ⟨result, y, consumed, []⟩

theorem spanBytes_cut {memory head data rest : Bytes} {position n : Nat}
    (cut : (memory.drop position).take n = head ++ data ++ rest) :
    spanBytes memory (some (position + head.length)) data.length = data := by
  obtain ⟨more, split⟩ := List.take_prefix n (memory.drop position)
  rw [cut] at split
  simp only [spanBytes, ← List.drop_drop, ← split]
  simp

theorem ack_settles {y z : HttpInput} {n : Nat} (ack : ckHttpInputAckBody y = some (z, n)) :
    settled z = z ∧ z.pendingBodyLength = 0 := by
  simp only [ckHttpInputAckBody] at ack
  split at ack
  · simp at ack
  · simp only [Option.some.injEq, Prod.mk.injEq] at ack
    rw [← ack.1]
    exact ⟨rfl, rfl⟩

theorem presentSlice_outcome {memory : Bytes} {x : HttpInput} {position n : Nat} (ready : Ready x)
    (room : x.chunked.totalDecoded + ((memory.drop position).take n).length ≤ uint64Max) :
    SliceOutcome x ((memory.drop position).take n) (presentSlice memory x position n) := by
  have fed := ckHttpInputFeed_outcome (a := position) (s := (memory.drop position).take n) ready
  simp only [presentSlice]
  generalize same : (memory.drop position).take n = s at fed room
  generalize ckHttpInputFeed x position s = answer at fed
  cases fed with
  | span head data rest read y z cut nonempty run within lead held size live ack header next =>
    have some : data.length ≠ 0 := by simpa using nonempty
    have advanced : read + (head.length + data.length - read) = (head ++ data).length := by
      simp only [List.length_append]
      omega
    simp only [some, ↓reduceIte, ack, advanced, spanBytes_cut (same.trans cut)]
    rw [← (ack_settles ack).1] at run
    refine .moved .body (head ++ data) rest data z cut run (ack_settles ack).2 next (.inl rfl) ?_
    intro empty
    exact absurd (List.append_eq_nil_iff.mp empty).2 nonempty
  | quiet read rest y pointer cut run waits ready =>
    simp only [↓reduceIte]
    exact .moved .incomplete read rest [] y cut run ready.no_span (.inr ready) (.inr rfl)
      fun _ => ⟨rfl, waits, ready⟩
  | complete read rest n e y cut run ends wide within idle header done =>
    simp only [↓reduceIte]
    exact .complete read rest n e y cut run ends
  | refuse result read rest n consumed e y cut run ends kind within reported ready =>
    simp only [↓reduceIte]
    exact .refuse result read rest n consumed e y cut run ends kind
  | overflow read rest consumed y cut run reported full ready => omega

def closing (e : HttpInput) (read : Nat) (rest body : Bytes) : Outcome :=
  if e.messageComplete then ⟨.complete, e.request, body, some read⟩
  else match inputAct e rest with
    | .halt n (result, request) =>
      ⟨result, request, body, if result = .complete then some (read + n) else none⟩
    | _ => ⟨.incomplete, e.request, body, none⟩

theorem closing_of_halt {e : HttpInput} {read n : Nat} {rest body : Bytes} {result : InputResult}
    {request : HttpRequest} (ends : inputAct e rest = .halt n (result, request)) :
    closing e read rest body =
      ⟨result, request, body, if result = .complete then some (read + n) else none⟩ := by
  simp only [closing]
  split
  · rename_i done
    cases rest with
    | nil => simp [inputAct] at ends
    | cons b rest =>
      simp only [inputAct, done, ↓reduceIte, Action.halt.injEq, Prod.mk.injEq] at ends
      obtain ⟨rfl, rfl, rfl⟩ := ends
      simp
  · rw [ends]

theorem halt_extends {e : HttpInput} {s t : Bytes} {n : Nat} {verdict : Verdict}
    (ends : inputAct e s = .halt n verdict) (within : s <+: t) :
    inputAct e t = .halt n verdict := by
  have same := act_of_prefix (M := inputMachine) (x := e) within (by simp [inputMachine, ends])
  exact same.trans ends

theorem stopped_of_halt {e : HttpInput} {s : Bytes} {n : Nat} {v : Verdict}
    (ends : inputAct e s = .halt n v) : Stopped inputMachine e s := by
  intro m out y moved
  have moved : inputAct e s = .move m out y := moved
  simp [ends] at moved

theorem stopped_of_wait {e : HttpInput} {s : Bytes} (waits : inputAct e s = .wait) :
    Stopped inputMachine e s := by
  intro m out y moved
  have moved : inputAct e s = .move m out y := moved
  simp [waits] at moved

theorem stopped_of_done {e : HttpInput} {s : Bytes} (done : e.messageComplete = true) :
    Stopped inputMachine e s := by
  cases s with
  | nil => exact stopped_of_wait rfl
  | cons b s => exact stopped_of_halt (n := 0) (v := (.complete, e.request)) (by simp [inputAct, done])

/-- The outcome is settled by a stopping point that a run from x reaches. -/
def Settles (x : HttpInput) (s : Bytes) (position : Nat) (body : Bytes) (outcome : Outcome) : Prop :=
  ∃ read rest out e, s = read ++ rest ∧ Steps inputMachine (settled x) read out e ∧
    Stopped inputMachine e rest ∧ outcome = closing e (position + read.length) rest (body ++ out)

theorem settles_unique {x : HttpInput} {s body : Bytes} {position : Nat} {left right : Outcome}
    (first : Settles x s position body left) (second : Settles x s position body right) :
    left = right := by
  obtain ⟨read, rest, out, e, cut, run, stop, rfl⟩ := first
  obtain ⟨read', rest', out', e', cut', run', stop', rfl⟩ := second
  obtain ⟨rfl, rfl, rfl, rfl⟩ := stop_unique run stop run' stop' (cut.symm.trans cut')
  rfl

structure Between (memory : Bytes) (x : HttpInput) (position : Nat) : Prop where
  idle : x.pendingBodyLength = 0
  next : x.messageComplete = true ∨ Ready x
  within : position ≤ memory.length
  counted : x.chunked.totalDecoded ≤ position

theorem init_between (memory : Bytes) : Between memory ckHttpInputInit 0 :=
  ⟨rfl, .inr init_ready, Nat.zero_le _, Nat.le_refl _⟩

theorem presentSlice_done {memory : Bytes} {x : HttpInput} {position n : Nat}
    (idle : x.pendingBodyLength = 0) (done : x.messageComplete = true) :
    presentSlice memory x position n = ⟨.complete, x, 0, []⟩ := by
  simp [presentSlice, ckHttpInputFeed, idle, done]

theorem settles_done {x : HttpInput} {s body : Bytes} {position : Nat}
    (done : x.messageComplete = true) :
    Settles x s position body ⟨.complete, x.request, body, some position⟩ := by
  have still : (settled x).messageComplete = true := done
  refine ⟨[], s, [], settled x, rfl, Steps.refl _, stopped_of_done still, ?_⟩
  simp [closing, still]
  rfl

theorem slice_room {memory : Bytes} {x : HttpInput} {position n : Nat}
    (fits : memory.length ≤ uint64Max) (between : Between memory x position) :
    x.chunked.totalDecoded + ((memory.drop position).take n).length ≤ uint64Max := by
  have counted := between.counted
  have within := between.within
  simp only [List.length_take, List.length_drop]
  omega

theorem settles_last {memory body : Bytes} {x : HttpInput} {position n : Nat}
    (fits : memory.length ≤ uint64Max) (between : Between memory x position)
    (ends : final (presentSlice memory x position n).result = true) :
    Settles x (memory.drop position) position body
      ((presentSlice memory x position n).outcome position body) := by
  rcases between.next with done | ready
  · rw [presentSlice_done between.idle done]
    simpa [Presented.outcome] using settles_done done
  · have outcome := presentSlice_outcome (n := n) ready (slice_room fits between)
    obtain ⟨more, split⟩ := List.take_prefix n (memory.drop position)
    generalize presentSlice memory x position n = slice at outcome ends
    cases outcome with
    | moved result read rest out y cut run idle next kind vain =>
      rcases kind with rfl | rfl <;> simp [final] at ends
    | complete read rest m e y cut run halts =>
      have whole := halt_extends halts (List.prefix_append rest more)
      refine ⟨read, rest ++ more, [], e, by rw [← split, cut, List.append_assoc], run,
        stopped_of_halt whole, ?_⟩
      rw [closing_of_halt whole]
      simp [Presented.outcome, Nat.add_assoc]
    | refuse result read rest m consumed e y cut run halts kind =>
      have whole := halt_extends halts (List.prefix_append rest more)
      refine ⟨read, rest ++ more, [], e, by rw [← split, cut, List.append_assoc], run,
        stopped_of_halt whole, ?_⟩
      rw [closing_of_halt whole]
      rcases kind with rfl | rfl <;> simp [Presented.outcome]

theorem settles_stuck {memory body : Bytes} {x : HttpInput} {position n : Nat}
    (fits : memory.length ≤ uint64Max) (between : Between memory x position)
    (reaches : memory.length ≤ position + n)
    (open_ : final (presentSlice memory x position n).result = false)
    (stays : (presentSlice memory x position n).advanced = 0) :
    Settles x (memory.drop position) position body
      ((presentSlice memory x position n).outcome position body) := by
  rcases between.next with done | ready
  · rw [presentSlice_done between.idle done] at open_
    simp [final] at open_
  · have outcome := presentSlice_outcome (n := n) ready (slice_room fits between)
    have whole : (memory.drop position).take n = memory.drop position :=
      List.take_of_length_le (by rw [List.length_drop]; omega)
    generalize presentSlice memory x position n = slice at outcome open_ stays
    rw [whole] at outcome
    cases outcome with
    | moved result read rest out y cut run idle next kind vain =>
      have empty : read = [] := List.length_eq_zero_iff.mp stays
      obtain ⟨rfl, waits, ready⟩ := vain empty
      have live : (settled y).messageComplete = false := ready.live
      refine ⟨read, rest, out, settled y, cut, run, stopped_of_wait waits, ?_⟩
      simp only [closing, live, waits]
      simp [Presented.outcome, settled]
    | complete read rest m e y cut run halts => simp [final] at open_
    | refuse result read rest m consumed e y cut run halts kind =>
      rcases kind with rfl | rfl <;> simp [final] at open_

theorem presentSlice_next {memory : Bytes} {x : HttpInput} {position n : Nat}
    (fits : memory.length ≤ uint64Max) (between : Between memory x position)
    (open_ : final (presentSlice memory x position n).result = false) :
    ∃ read, read <+: memory.drop position ∧ (presentSlice memory x position n).advanced = read.length ∧
      Steps inputMachine (settled x) read (presentSlice memory x position n).body
        (settled (presentSlice memory x position n).input) ∧
      Between memory (presentSlice memory x position n).input (position + read.length) := by
  rcases between.next with done | ready
  · rw [presentSlice_done between.idle done] at open_
    simp [final] at open_
  · have outcome := presentSlice_outcome (n := n) ready (slice_room fits between)
    obtain ⟨more, split⟩ := List.take_prefix n (memory.drop position)
    generalize presentSlice memory x position n = slice at outcome open_
    cases outcome with
    | moved result read rest out y cut run idle next kind vain =>
      have within : read <+: memory.drop position := by
        rw [← split, cut, List.append_assoc]
        exact List.prefix_append _ _
      have short := within.length_le
      have before := between.within
      have counted := between.counted
      have total := steps_total run
      simp only [settled] at total
      rw [List.length_drop] at short
      exact ⟨read, within, rfl, run, ⟨idle, next, by omega, by dsimp only; omega⟩⟩
    | complete read rest m e y cut run halts => simp [final] at open_
    | refuse result read rest m consumed e y cut run halts kind =>
      rcases kind with rfl | rfl <;> simp [final] at open_

/-- Along every presentation the outcome is the one the machine settles. -/
theorem presentation_settles {memory body : Bytes} {x : HttpInput} {position floor : Nat}
    {outcome : Outcome} (fits : memory.length ≤ uint64Max) (between : Between memory x position)
    (run : Presentation memory x position floor body outcome) :
    Settles x (memory.drop position) position body outcome := by
  induction run with
  | last n longer within ends => exact settles_last fits between ends
  | stuck n longer reaches open_ vain => exact settles_stuck fits between (by omega) open_ vain
  | @exhausted x position floor body reached =>
    cases done : final (presentSlice memory x position 0).result with
    | true => exact settles_last fits between done
    | false =>
      obtain ⟨read, within, advanced, -, -⟩ := presentSlice_next fits between done
      have short := within.length_le
      rw [List.length_drop] at short
      exact settles_stuck fits between (by omega) done (by omega)
  | @next x position floor body outcome n longer within open_ rest ih =>
    obtain ⟨read, within, advanced, run, between'⟩ := presentSlice_next fits between open_
    rw [advanced] at ih
    obtain ⟨read', rest', out, e, cut, run', stop, rfl⟩ := ih between'
    obtain ⟨more, split⟩ := within
    rw [← List.drop_drop, ← split, List.drop_left] at cut
    refine ⟨read ++ read', rest', _ ++ out, e, ?_, steps_trans run run', stop, ?_⟩
    · rw [← split, cut, List.append_assoc]
    · rw [List.length_append, Nat.add_assoc, List.append_assoc]

theorem presentAll_presentation {memory : Bytes} {x : HttpInput} {position : Nat} (body : Bytes) (fuel : Nat)
    (fits : memory.length ≤ uint64Max) (between : Between memory x position)
    (enough : memory.length - position < fuel) :
    ∃ outcome, presentAll memory fuel x position body = some outcome ∧
      Presentation memory x position 0 body outcome := by
  induction fuel generalizing x position body with
  | zero => omega
  | succ fuel ih =>
    have before := between.within
    generalize all : memory.length - position = n at enough
    cases done : final (presentSlice memory x position n).result with
    | true =>
      refine ⟨(presentSlice memory x position n).outcome position body,
        by simp [presentAll, all, done], ?_⟩
      by_cases empty : n = 0
      · subst empty
        exact .exhausted (by omega)
      · exact .last n (by omega) (by omega) done
    | false =>
      obtain ⟨read, within, advanced, run, between'⟩ := presentSlice_next fits between done
      by_cases vain : (presentSlice memory x position n).advanced = 0
      · refine ⟨(presentSlice memory x position n).outcome position body,
          by simp [presentAll, all, vain], ?_⟩
        by_cases empty : n = 0
        · subst empty
          exact .exhausted (by omega)
        · exact .stuck n (by omega) (by omega) done vain
      · have short := within.length_le
        rw [List.length_drop] at short
        rw [← advanced] at between'
        obtain ⟨outcome, ends, rest⟩ := ih (body ++ (presentSlice memory x position n).body)
          between' (by omega)
        refine ⟨outcome, by simpa [presentAll, all, done, vain] using ends, ?_⟩
        refine .next n (by omega) (by omega) done ?_
        simpa [vain] using rest

theorem presentWhole_settles {memory : Bytes} {outcome : Outcome} (fits : memory.length ≤ uint64Max)
    (settles : Settles ckHttpInputInit memory 0 [] outcome) : presentWhole memory = some outcome := by
  obtain ⟨whole, presents, run⟩ := presentAll_presentation [] (memory.length + 1)
    fits (init_between memory) (by omega)
  rw [presentWhole, presents, settles_unique (presentation_settles fits (init_between memory) run) settles]

/-- Framing does not depend on the slices: a stream that fits size_t has one outcome,
    which presenting everything reaches and every other presentation shares. -/
theorem presentation_outcome_unique (memory : Bytes) (fits : memory.length ≤ uint64Max) :
    ∃ outcome, presentWhole memory = some outcome ∧
      Presentation memory ckHttpInputInit 0 0 [] outcome ∧
      ∀ other, Presentation memory ckHttpInputInit 0 0 [] other → other = outcome := by
  obtain ⟨outcome, whole, run⟩ := presentAll_presentation [] (memory.length + 1)
    fits (init_between memory) (by omega)
  refine ⟨outcome, whole, run, ?_⟩
  intro other run'
  exact settles_unique (presentation_settles fits (init_between memory) run')
    (presentation_settles fits (init_between memory) run)

/-- A chunked message with pipelined bytes behind it: any slicing finds the same two
    spans and stops at the same byte. -/
theorem presentation_outcome_unique_chunked :
    ∃ outcome, presentWhole (ascii ("POST /a HTTP/1.1\r\nTransfer-Encoding: chunked\r\n\r\n" ++
        "2\r\nab\r\n1\r\nc\r\n0\r\n\r\nGET")) = some outcome ∧
      outcome.body = ascii "abc" ∧ outcome.consumed = some 66 ∧
      ∀ other, Presentation (ascii ("POST /a HTTP/1.1\r\nTransfer-Encoding: chunked\r\n\r\n" ++
        "2\r\nab\r\n1\r\nc\r\n0\r\n\r\nGET")) ckHttpInputInit 0 0 [] other →
        other = outcome := by
  obtain ⟨outcome, whole, -, unique⟩ := presentation_outcome_unique
    (ascii ("POST /a HTTP/1.1\r\nTransfer-Encoding: chunked\r\n\r\n" ++
      "2\r\nab\r\n1\r\nc\r\n0\r\n\r\nGET")) (by decide)
  have body : (presentWhole (ascii ("POST /a HTTP/1.1\r\nTransfer-Encoding: chunked\r\n\r\n" ++
      "2\r\nab\r\n1\r\nc\r\n0\r\n\r\nGET"))).map (fun o => (o.body, o.consumed)) =
      some (ascii "abc", some 66) := by decide +kernel
  rw [whole] at body
  simp only [Option.map_some, Option.some.injEq, Prod.mk.injEq] at body
  exact ⟨outcome, whole, body.1, body.2, unique⟩

end CkartaInputStream
