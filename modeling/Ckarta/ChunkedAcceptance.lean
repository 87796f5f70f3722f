import Ckarta.ChunkedGrammar

/-!
The decoder completes exactly on the chunked grammar, however the text was presented to it.
The caller cuts the text into slices and presents unconsumed bytes again; the delivered
spans together are the data of the coding.
-/
namespace CkartaChunkedAcceptance
open MachineWord PrefixMachine CkartaHttpParser CkartaHttpChunked CkartaChunkedMachine
  CkartaChunkedRejection CkartaChunkedGrammar

theorem chunkedFeedLoop_silent {d e : ChunkedDecoder} {w out : Bytes} (run : Steps chunkMachine d w out e)
    (silent : out = []) (live : d.state ≠ .done) (position : Nat) (rest : Bytes) :
    chunkedFeedLoop d position (w ++ rest) = chunkedFeedLoop e (position + w.length) rest := by
  induction run generalizing position with
  | refl => rfl
  | @move d e last w s out more act tail ih =>
    obtain ⟨rfl, rfl⟩ := List.append_eq_nil_iff.mp silent
    have nondata : d.state ≠ .dataState := by
      intro data
      rcases w with _ | ⟨value, w⟩
      · simp [chunkMachine, chunkAct] at act
      · simp only [chunkMachine, chunkAct, data] at act
        split at act <;> simp at act
    have wide : chunkAct d (w ++ (s ++ rest)) = .move w.length [] e := by
      rw [← act]
      exact chunkMachine.stable (by simp [act]) _
    rw [List.append_assoc, chunkedFeedLoop_act nondata live, wide]
    dsimp only
    rw [List.drop_left, ih rfl (chunkAct_open act).1, List.length_append, Nat.add_assoc]

theorem steps_first {d e : ChunkedDecoder} {s out : Bytes} (run : Steps chunkMachine d s out e)
    (some : out ≠ []) (sound : Sound d) (live : d.state ≠ .done) :
    ∃ w r mid, s = w ++ r ∧ r ≠ [] ∧ Steps chunkMachine d w [] mid ∧ mid.state = .dataState ∧
      Sound mid ∧ Steps chunkMachine mid r out e := by
  induction run with
  | refl => contradiction
  | @move d mid e w s out more act tail ih =>
    have bounds := chunkMachine.move_bounds act
    have nonempty : w ++ s ≠ [] := by
      intro empty
      rw [(List.append_eq_nil_iff.mp empty).1] at bounds
      simp at bounds
    by_cases data : d.state = .dataState
    · exact ⟨[], w ++ s, d, rfl, nonempty, Steps.refl d, data, sound, Steps.move act tail⟩
    · obtain ⟨rfl, live⟩ := chunkAct_silent data act
      obtain ⟨w', r, stop, rfl, left, first, state, good, later⟩ :=
        ih some (chunkAct_sound sound act).1 live
      exact ⟨w ++ w', r, stop, by simp, left, Steps.move act first, state, good, later⟩

theorem steps_leave {d e : ChunkedDecoder} {s out : Bytes} (run : Steps chunkMachine d s out e)
    (sound : Sound d) (data : d.state = .dataState) (left : e.state ≠ .dataState) :
    d.chunkRemaining ≤ out.length := by
  induction run with
  | refl => contradiction
  | @move d mid e w s out more act tail ih =>
    have opened := sound.chunk_open data
    have remaining := subU64_of_le (b := 1) opened sound.remaining_le
    rcases w with _ | ⟨value, w⟩
    · simp [chunkMachine, chunkAct] at act
    · simp only [chunkMachine, chunkAct, data] at act
      split at act
      · cases act
      · simp only [Action.move.injEq] at act
        obtain ⟨-, rfl, rfl⟩ := act
        rw [List.length_append, List.length_singleton]
        by_cases last : d.chunkRemaining - 1 = 0
        · omega
        · have still : (takeDataByte d).state = .dataState := by simp [takeDataByte, remaining, last]
          have rest := ih (takeDataByte_sound sound data) still left
          simp only [takeDataByte, remaining] at rest
          omega

theorem steps_out_le {d e : ChunkedDecoder} {s out : Bytes} (run : Steps chunkMachine d s out e) :
    out.length ≤ s.length := by
  induction run with
  | refl => exact Nat.le_refl _
  | @move d mid e w s out more act tail ih =>
    have bounds := chunkMachine.move_bounds act
    have one : out.length ≤ w.length := by
      by_cases data : d.state = .dataState
      · rcases w with _ | ⟨value, w⟩
        · simp [chunkMachine, chunkAct] at act
        · simp only [chunkMachine, chunkAct, data] at act
          split at act
          · cases act
          · simp only [Action.move.injEq] at act
            rw [← act.2.1]
            simp
      · rw [(chunkAct_silent data act).1]
        exact Nat.zero_le _
    simp only [List.length_append]
    omega

theorem steps_count {d e : ChunkedDecoder} {s out : Bytes} (run : Steps chunkMachine d s out e)
    (sound : Sound d) : e.totalDecoded = d.totalDecoded + out.length := by
  induction run with
  | refl => rfl
  | @move d mid e w s out more act tail ih =>
    obtain ⟨good, kept⟩ := chunkAct_sound sound act
    rw [ih good, List.length_append, ← Nat.add_assoc]
    congr 1
    by_cases data : d.state = .dataState
    · rcases w with _ | ⟨value, w⟩
      · simp [chunkMachine, chunkAct] at act
      · simp only [chunkMachine, chunkAct, data] at act
        split at act
        · cases act
        · rename_i room
          simp only [Action.move.injEq] at act
          obtain ⟨-, rfl, rfl⟩ := act
          simp only [chunkedMaxBody] at room
          exact addU64_of_le (by omega)
    · have silent := (chunkAct_silent data act).1
      rw [kept silent, silent]
      rfl

theorem takeChunkData_span {d : ChunkedDecoder} {position available : Nat} (sound : Sound d)
    (fits : d.chunkRemaining ≤ available) (room : d.totalDecoded + d.chunkRemaining ≤ uint64Max) :
    takeChunkData d position available = ⟨.data, takeData d d.chunkRemaining,
      position + d.chunkRemaining, some position, d.chunkRemaining⟩ := by
  have take : (if d.chunkRemaining < available then d.chunkRemaining else available) = d.chunkRemaining := by
    split <;> omega
  have small : ¬ (d.totalDecoded > chunkedMaxBody ∨
      d.chunkRemaining > chunkedMaxBody - d.totalDecoded) := by
    simp only [chunkedMaxBody]
    omega
  simp only [takeChunkData, take, if_neg small, subU64_of_le (Nat.le_refl _) sound.remaining_le,
    addU64_of_le room, takeData]

def spanOf (slice : Bytes) (fed : ChunkedFeed) : Bytes :=
  match fed.bodyData with
  | none => []
  | some offset => (slice.drop offset).take fed.bodyLength

/-- A decoder that was presented slices of s, each from the first unconsumed byte on: with
    the number of consumed bytes and the data delivered so far. -/
inductive Feeding (s : Bytes) : ChunkedDecoder → Nat → Bytes → Prop where
  | fresh : Feeding s ckHttpChunkedInit 0 []
  | feed {d : ChunkedDecoder} {consumed : Nat} {data : Bytes} (before : Feeding s d consumed data)
      (n : Nat) {fed : ChunkedFeed} (answer : ckHttpChunkedFeed d ((s.drop consumed).take n) = fed)
      (accepted : fed.result ≠ .badRequest ∧ fed.result ≠ .tooLarge) :
      Feeding s fed.decoder (consumed + fed.consumed) (data ++ spanOf ((s.drop consumed).take n) fed)

def presentRest (s : Bytes) : Nat → ChunkedDecoder → Nat → Bytes → ChunkedResult × ChunkedDecoder × Nat × Bytes
  | 0, d, consumed, data => (.incomplete, d, consumed, data)
  | turns + 1, d, consumed, data =>
    let fed := ckHttpChunkedFeed d (s.drop consumed)
    if fed.result = .data then
      presentRest s turns fed.decoder (consumed + fed.consumed) (data ++ spanOf (s.drop consumed) fed)
    else (fed.result, fed.decoder, consumed + fed.consumed, data)

theorem complete_at_crlf {e last : ChunkedDecoder} {rest : Bytes}
    (ends : chunkAct e rest = .halt 2 (.complete, last)) :
    (∃ tail, rest = cr :: lf :: tail) ∧ last.state = .done := by
  rcases rest with _ | ⟨value, _ | ⟨next, rest⟩⟩
  · simp [chunkAct] at ends
  · cases state : e.state <;> simp only [state, chunkAct] at ends
    all_goals grind
  · have pair : value = cr ∧ next = lf ∧ last.state = .done := by
      cases state : e.state <;> simp only [state, chunkAct] at ends
      all_goals grind
    exact ⟨⟨rest, by rw [pair.1, pair.2.1]⟩, pair.2.2⟩

inductive Reached (s : Bytes) (d : ChunkedDecoder) (consumed : Nat) (data : Bytes) : Prop where
  | running (within : consumed ≤ s.length)
      (run : Steps chunkMachine ckHttpChunkedInit (s.take consumed) data d)
  | ended {read : Bytes} {e : ChunkedDecoder} (within : consumed ≤ s.length)
      (cut : s.take consumed = read ++ crlf) (run : Steps chunkMachine ckHttpChunkedInit read data e)
      (ends : chunkAct e crlf = .halt 2 (.complete, d))

theorem take_further {s w rest : Bytes} {k n : Nat} (cut : (s.drop k).take n = w ++ rest)
    (within : k ≤ s.length) : s.take (k + w.length) = s.take k ++ w ∧ k + w.length ≤ s.length := by
  have inside : w <+: s.drop k := (List.prefix_append w rest).trans (cut ▸ List.take_prefix n _)
  obtain ⟨tail, split⟩ := inside
  have whole : s = s.take k ++ (w ++ tail) := by rw [split, List.take_append_drop]
  have front : (s.take k).length = k := List.length_take_of_le within
  constructor
  · nth_rewrite 1 [whole]
    rw [List.take_append, front, List.take_of_length_le (by omega), Nat.add_sub_cancel_left,
      List.take_left]
  · have sized := congrArg List.length whole
    simp only [List.length_append, front] at sized
    omega

theorem reached_sound {s data : Bytes} {d : ChunkedDecoder} {consumed : Nat}
    (run : Steps chunkMachine ckHttpChunkedInit (s.take consumed) data d) : Sound d ∧ d.state ≠ .done :=
  ⟨steps_sound init_sound run, steps_live (by simp [ckHttpChunkedInit]) run⟩

theorem ended_done {read data : Bytes} {e d : ChunkedDecoder}
    (run : Steps chunkMachine ckHttpChunkedInit read data e)
    (ends : chunkAct e crlf = .halt 2 (.complete, d)) :
    ChunkedCoding (read ++ crlf) data ∧ d.state = .done ∧ d.totalDecoded = data.length := by
  have position := position_steps init_position run
  exact position_complete position (steps_sound init_sound run) ends

theorem feeding_reached {s data : Bytes} {d : ChunkedDecoder} {consumed : Nat}
    (feeding : Feeding s d consumed data) : Reached s d consumed data := by
  induction feeding with
  | fresh => exact .running (Nat.zero_le _) (Steps.refl _)
  | @feed d consumed data before n fed answer accepted ih =>
    cases ih with
    | @ended read e within cut run ends =>
      have done := (ended_done run ends).2.1
      rw [ckHttpChunkedFeed, if_pos done] at answer
      subst answer
      simpa [ChunkedFeed.refuse, spanOf] using Reached.ended within cut run ends
    | running within run =>
      obtain ⟨sound, live⟩ := reached_sound run
      rw [ckHttpChunkedFeed, if_neg live] at answer
      have outcome := chunkedFeedLoop_outcome 0 sound live (s := (s.drop consumed).take n)
      rw [answer] at outcome
      cases outcome with
      | span head span rest e cut nonempty more =>
        obtain ⟨longer, inside⟩ := take_further cut within
        have joined := steps_trans run more
        rw [← longer] at joined
        have bytes : spanOf ((s.drop consumed).take n)
            ⟨.data, e, 0 + head.length + span.length, some (0 + head.length), span.length⟩ = span := by
          simp [spanOf, cut, List.append_assoc]
        rw [bytes]
        simp only [Nat.zero_add]
        rw [List.length_append] at joined inside
        exact .running inside joined
      | quiet read rest e cut more waits =>
        obtain ⟨longer, inside⟩ := take_further cut within
        have joined := steps_trans run more
        rw [← longer] at joined
        simp only [ChunkedFeed.stop, spanOf, Nat.zero_add]
        exact .running inside joined
      | complete read rest e last cut more ends =>
        obtain ⟨⟨tail, rfl⟩, -⟩ := complete_at_crlf ends
        have shape : (s.drop consumed).take n = (read ++ crlf) ++ tail := by simp [cut, crlf]
        obtain ⟨longer, inside⟩ := take_further shape within
        have near := chunkAct_halt_local ends (by decide)
        have joined := steps_trans run more
        simp only [spanOf, Nat.zero_add]
        rw [List.length_append] at longer inside
        rw [← List.append_assoc] at longer
        exact .ended inside longer joined near
      | refuse read rest e last result cut more kind ends =>
        simp only [ChunkedFeed.refuse] at accepted
        rcases kind with rfl | rfl <;> simp at accepted
      | overflow read rest last cut more full =>
        simp [ChunkedFeed.refuse] at accepted

theorem complete_leaves_data {e last : ChunkedDecoder} {rest : Bytes}
    (ends : chunkAct e (cr :: rest) = .halt 2 (.complete, last)) : e.state ≠ .dataState := by
  intro data
  simp only [chunkAct, data] at ends
  split at ends <;> cases ends

theorem presentRest_complete {s r q more data : Bytes} {d e last : ChunkedDecoder} {consumed turns : Nat}
    (sound : Sound d) (live : d.state ≠ .done) (run : Steps chunkMachine d r q e)
    (ends : ∀ rest, chunkAct e (cr :: lf :: rest) = .halt 2 (.complete, last))
    (left : s.drop consumed = r ++ cr :: lf :: more) (enough : r.length < turns) :
    presentRest s turns d consumed data = (.complete, last, consumed + (r.length + 2), data ++ q) := by
  induction turns generalizing d r q consumed data with
  | zero => omega
  | succ turns ih =>
    have outside := complete_leaves_data (ends more)
    have ended := steps_live live run
    rw [presentRest, ckHttpChunkedFeed, if_neg live, left]
    by_cases silent : q = []
    · subst silent
      have whole : chunkedFeedLoop d 0 (r ++ cr :: lf :: more) = ⟨.complete, last, r.length + 2, none, 0⟩ := by
        rw [chunkedFeedLoop_silent run rfl live, chunkedFeedLoop_act outside ended, ends]
        simp
      simp [whole]
    · obtain ⟨w, r, mid, rfl, nonempty, first, opened, good, later⟩ := steps_first run silent sound live
      have leaves := steps_leave later good opened outside
      have width := steps_out_le later
      have total := steps_count later good
      have bound := (steps_sound good later).total_le
      have positive := good.chunk_open opened
      generalize size : mid.chunkRemaining = n at *
      have fed : chunkedFeedLoop d 0 (w ++ (r ++ cr :: lf :: more)) =
          ⟨.data, takeData mid n, w.length + n, some w.length, n⟩ := by
        rw [chunkedFeedLoop_silent first rfl live, Nat.zero_add,
          chunkedFeedLoop_data opened (by simp), takeChunkData_span good (by
            rw [size, List.length_append]
            omega) (by omega), size]
      have length : (r.take n).length = n := List.length_take_of_le (by omega)
      have chunk := steps_data (r.take n) good opened (by
        intro empty
        rw [empty] at length
        simp at length
        omega) (by omega) (by omega)
      rw [length] at chunk
      obtain ⟨r', q', cut, out, after⟩ := steps_linear chunk later (List.take_prefix n r)
        (List.prefix_refl r) (by omega)
      have span : spanOf (w ++ (r ++ cr :: lf :: more))
          ⟨.data, takeData mid n, w.length + n, some w.length, n⟩ = r.take n := by
        simp only [spanOf, List.drop_left]
        exact List.take_append_of_le_length (by omega)
      have rest : s.drop (consumed + (w.length + n)) = r' ++ cr :: lf :: more := by
        rw [← List.drop_drop, left, List.append_assoc, ← List.drop_drop, List.drop_left, cut,
          List.append_assoc]
        exact List.drop_left' length
      have shorter : r.length = n + r'.length := by
        have sized := congrArg List.length cut
        rw [List.length_append, length] at sized
        exact sized
      rw [List.append_assoc, fed]
      simp only [↓reduceIte]
      rw [span, ih (steps_sound good chunk) (steps_live (by simp [opened]) chunk) after rest (by
        rw [List.length_append] at enough
        omega), out]
      simp only [List.append_assoc, List.length_append, Prod.mk.injEq, and_true, true_and]
      omega

theorem stopped_at_end {e last : ChunkedDecoder} {rest : Bytes}
    (ends : chunkAct e rest = .halt 2 (.complete, last)) : Stopped chunkMachine e rest := by
  intro n out y moves
  simp only [chunkMachine, ends] at moves
  cases moves

theorem running_continues {s data read out : Bytes} {d e last : ChunkedDecoder} {consumed k : Nat}
    (run : Steps chunkMachine ckHttpChunkedInit (s.take consumed) data d)
    (cut : s.take k = read ++ crlf) (whole : Steps chunkMachine ckHttpChunkedInit read out e)
    (ends : ∀ rest, chunkAct e (cr :: lf :: rest) = .halt 2 (.complete, last)) :
    ∃ r q, read = s.take consumed ++ r ∧ out = data ++ q ∧ Steps chunkMachine d r q e := by
  have inside : s.take consumed <+: s := List.take_prefix consumed s
  have text : s = read ++ cr :: lf :: s.drop k := by
    conv_lhs => rw [← List.take_append_drop k s, cut]
    simp [crlf]
  have other : read <+: s := ⟨_, text.symm⟩
  rcases Nat.le_total (s.take consumed).length read.length with shorter | longer
  · exact steps_linear run whole inside other shorter
  · obtain ⟨r, q, cutAgain, out', more⟩ := steps_linear whole run other inside longer
    have stopped := stopped_at_end (ends (s.drop k))
    have front : r <+: cr :: lf :: s.drop k := by
      rw [cutAgain, text] at inside
      exact (List.prefix_append_right_inj read).mp inside
    obtain ⟨rfl, rfl, rfl⟩ := stopped_no_steps stopped more front
    exact ⟨[], [], by simp [cutAgain], by simp [out'], Steps.refl _⟩

theorem coding_unique {s left right data out : Bytes} (first : ChunkedCoding left data)
    (second : ChunkedCoding right out) (leftFront : left <+: s) (rightFront : right <+: s) :
    left = right ∧ data = out := by
  obtain ⟨read, e, last, rfl, run, ends⟩ := coding_steps first
  obtain ⟨read', e', last', rfl, run', ends'⟩ := coding_steps second
  obtain ⟨tail, text⟩ := leftFront
  obtain ⟨tail', text'⟩ := rightFront
  have same : read ++ cr :: lf :: tail = read' ++ cr :: lf :: tail' := by
    have both := text.trans text'.symm
    simpa [crlf] using both
  obtain ⟨rfl, rfl, -, -⟩ := stop_unique run (stopped_at_end (ends tail)) run'
    (stopped_at_end (ends' tail')) same
  exact ⟨rfl, rfl⟩

theorem feeding_quiet {s data : Bytes} {d : ChunkedDecoder} {consumed n : Nat} {fed : ChunkedFeed}
    (feeding : Feeding s d consumed data) (answer : ckHttpChunkedFeed d ((s.drop consumed).take n) = fed)
    (quiet : fed.result ≠ .data) :
    fed.bodyData = none ∧ (fed.result = .complete → fed.decoder.state = .done) := by
  cases feeding_reached feeding with
  | ended within cut run ends =>
    have done := (ended_done run ends).2.1
    rw [ckHttpChunkedFeed, if_pos done] at answer
    subst answer
    exact ⟨rfl, fun _ => done⟩
  | running within run =>
    obtain ⟨sound, live⟩ := reached_sound run
    rw [ckHttpChunkedFeed, if_neg live] at answer
    have outcome := chunkedFeedLoop_outcome 0 sound live (s := (s.drop consumed).take n)
    rw [answer] at outcome
    cases outcome with
    | span head data rest e cut nonempty more => exact absurd rfl quiet
    | quiet read rest e cut more waits => exact ⟨rfl, nofun⟩
    | complete read rest e last cut more ends => exact ⟨rfl, fun _ => (complete_at_crlf ends).2⟩
    | refuse read rest e last result cut more kind ends =>
      refine ⟨rfl, ?_⟩
      intro complete
      simp only [ChunkedFeed.refuse] at complete
      rcases kind with rfl | rfl <;> cases complete
    | overflow read rest last cut more full => exact ⟨rfl, nofun⟩

theorem presentRest_feeding {s data b : Bytes} {d last : ChunkedDecoder} {consumed turns k : Nat}
    (feeding : Feeding s d consumed data)
    (ended : presentRest s turns d consumed data = (.complete, last, k, b)) :
    Feeding s last k b ∧ last.state = .done := by
  induction turns generalizing d consumed data with
  | zero => cases ended
  | succ turns ih =>
    have whole : (s.drop consumed).take s.length = s.drop consumed :=
      List.take_of_length_le (by rw [List.length_drop]; omega)
    rw [presentRest] at ended
    split at ended
    · rename_i span
      apply ih _ ended
      have step := Feeding.feed feeding s.length rfl (by rw [whole, span]; simp)
      rw [whole] at step
      exact step
    · rename_i quiet
      simp only [Prod.mk.injEq] at ended
      obtain ⟨complete, rfl, rfl, rfl⟩ := ended
      obtain ⟨none, done⟩ := feeding_quiet (n := s.length) feeding (by rw [whole]) quiet
      have step := Feeding.feed feeding s.length rfl (by rw [whole, complete]; simp)
      rw [whole, spanOf, none] at step
      exact ⟨by simpa using step, done complete⟩

theorem feeding_total {s data : Bytes} {d : ChunkedDecoder} {consumed : Nat}
    (feeding : Feeding s d consumed data) : d.totalDecoded = data.length ∧ consumed ≤ s.length := by
  cases feeding_reached feeding with
  | ended within cut run ends => exact ⟨(ended_done run ends).2.2, within⟩
  | running within run => exact ⟨position_total (position_steps init_position run), within⟩

theorem feeding_done_iff {s data : Bytes} {d : ChunkedDecoder} {consumed : Nat}
    (feeding : Feeding s d consumed data) :
    d.state = .done ↔ ChunkedCoding (s.take consumed) data := by
  cases feeding_reached feeding with
  | ended within cut run ends =>
    obtain ⟨coding, done, -⟩ := ended_done run ends
    rw [cut]
    exact iff_of_true done coding
  | running within run =>
    apply iff_of_false (reached_sound run).2
    intro coding
    obtain ⟨read, e, last, cut, whole, ends⟩ := coding_steps coding
    obtain ⟨r, q, longer, -, -⟩ := running_continues run cut whole ends
    rw [longer] at cut
    have sized := congrArg List.length cut
    simp only [List.length_append, crlf, List.length_cons, List.length_nil] at sized
    omega

theorem feeding_completes {s data b : Bytes} {d : ChunkedDecoder} {consumed k : Nat}
    (feeding : Feeding s d consumed data) (within : k ≤ s.length) (coding : ChunkedCoding (s.take k) b) :
    ∃ last, presentRest s (s.length + 1) d consumed data = (.complete, last, k, b) := by
  have size : (s.take k).length = k := List.length_take_of_le within
  cases feeding_reached feeding with
  | @ended read e inside cut run ends =>
    obtain ⟨own, done, -⟩ := ended_done run ends
    rw [← cut] at own
    obtain ⟨same, rfl⟩ := coding_unique own coding (List.take_prefix consumed s) (List.take_prefix k s)
    have sized := congrArg List.length same
    rw [size, List.length_take_of_le inside] at sized
    subst sized
    exact ⟨d, by simp [presentRest, ckHttpChunkedFeed, done, ChunkedFeed.refuse]⟩
  | running inside run =>
    obtain ⟨sound, live⟩ := reached_sound run
    obtain ⟨read, e, last, cut, whole, ends⟩ := coding_steps coding
    obtain ⟨r, q, rfl, rfl, after⟩ := running_continues run cut whole ends
    have text : s = s.take consumed ++ (r ++ cr :: lf :: s.drop k) := by
      conv_lhs => rw [← List.take_append_drop k s, cut]
      simp [crlf]
    have front : (s.take consumed).length = consumed := List.length_take_of_le inside
    have left : s.drop consumed = r ++ cr :: lf :: s.drop k := by
      conv_lhs => rw [text]
      exact List.drop_left' front
    have sized := congrArg List.length cut
    simp only [List.length_append, size, front, crlf, List.length_cons, List.length_nil] at sized
    refine ⟨last, ?_⟩
    rw [presentRest_complete sound live after ends left (by omega)]
    simp only [Prod.mk.injEq, and_true, true_and]
    omega

/-- The decoder accepts exactly the chunked codings and returns exactly their data. After any
    presentation of slices of s, the decoder is done when the consumed bytes are a coding of
    the delivered data, and presenting the rest completes at k with data b exactly when the
    first k bytes of s are a coding of b. -/
theorem chunked_accepts_grammar {s delivered : Bytes} {d : ChunkedDecoder} {consumed : Nat}
    (feeding : Feeding s d consumed delivered) :
    (∀ k b, (∃ last, presentRest s (s.length + 1) d consumed delivered = (.complete, last, k, b) ∧
        last.totalDecoded = b.length) ↔ k ≤ s.length ∧ ChunkedCoding (s.take k) b) ∧
    (d.state = .done ↔ ChunkedCoding (s.take consumed) delivered) ∧
    d.totalDecoded = delivered.length ∧ consumed ≤ s.length := by
  refine ⟨?_, feeding_done_iff feeding, feeding_total feeding⟩
  intro k b
  constructor
  · rintro ⟨last, ended, -⟩
    obtain ⟨after, done⟩ := presentRest_feeding feeding ended
    exact ⟨(feeding_total after).2, (feeding_done_iff after).mp done⟩
  · rintro ⟨within, coding⟩
    obtain ⟨last, ended⟩ := feeding_completes feeding within coding
    exact ⟨last, ended, (feeding_total (presentRest_feeding feeding ended).1).1⟩

/-- Two chunks, an extension and a trailer, with bytes behind the coding. -/
def sampleText : Bytes := ascii "3;q=1\r\nabc\r\n02\r\nde\r\n0\r\nX: y\r\n\r\nGET"

theorem chunked_accepts_sample :
    presentRest sampleText (sampleText.length + 1) ckHttpChunkedInit 0 [] =
        (.complete, ⟨.done, 0, 5, [], 8, 1⟩, 31, ascii "abcde") ∧
      ChunkedCoding (sampleText.take 31) (ascii "abcde") := by
  have ended : presentRest sampleText (sampleText.length + 1) ckHttpChunkedInit 0 [] =
      (.complete, ⟨.done, 0, 5, [], 8, 1⟩, 31, ascii "abcde") := by decide +kernel
  have accepted := ((chunked_accepts_grammar (s := sampleText) .fresh).1 31 (ascii "abcde")).mp
    ⟨_, ended, rfl⟩
  exact ⟨ended, accepted.2⟩

end CkartaChunkedAcceptance
