import Ckarta.InputStream

/-!
What the answers of a feed say about the input machine on the same slice: a feed that makes
no progress has one byte of a line break before it, and a feed that refuses stands for a
machine that halts on the slice.
-/
namespace CkartaFeedVerdict
open MachineWord PrefixMachine CkartaHttpParser CkartaHttpChunked CkartaHttpInput CkartaChunkedMachine
  CkartaInputMachine CkartaInputStream

theorem chunkAct_wait {d : ChunkedDecoder} {s : Bytes} (waits : chunkAct d s = .wait) : s.length ≤ 1 := by
  rcases s with _ | ⟨value, _ | ⟨next, rest⟩⟩
  · simp
  · simp
  · simp only [chunkAct] at waits
    cases state : d.state <;> simp only [state] at waits
    all_goals grind

theorem inputAct_wait {x : HttpInput} {s : Bytes} (waits : inputAct x s = .wait) : s.length ≤ 1 := by
  cases s with
  | nil => simp
  | cons b rest =>
    simp only [inputAct] at waits
    split at waits
    · simp at waits
    · split at waits
      · simp only [headerAct] at waits
        grind
      · split at waits
        · simp at waits
        · split at waits
          · rename_i undecided
            exact chunkAct_wait undecided
          · simp at waits
          · simp at waits
        · simp at waits

theorem chunkAct_verdict {d last : ChunkedDecoder} {s : Bytes} {n : Nat} {result : ChunkedResult}
    (ends : chunkAct d s = .halt n (result, last)) : mapChunkedResult result ≠ .incomplete := by
  cases s with
  | nil => simp [chunkAct] at ends
  | cons value rest =>
    simp only [chunkAct] at ends
    cases state : d.state <;> simp only [state] at ends
    all_goals grind [mapChunkedResult]

theorem inputAct_verdict {x : HttpInput} {s : Bytes} {n : Nat} {verdict : CkartaInputMachine.Verdict}
    (ends : inputAct x s = .halt n verdict) : verdict.1 ≠ .incomplete := by
  cases s with
  | nil => simp [inputAct] at ends
  | cons b rest =>
    simp only [inputAct] at ends
    split at ends
    · rw [Action.halt.injEq] at ends
      simp [← ends.2]
    · split at ends
      · simp only [headerAct] at ends
        grind
      · split at ends
        · simp at ends
        · split at ends
          · simp at ends
          · simp at ends
          · rename_i act
            rw [Action.halt.injEq] at ends
            rw [← ends.2]
            exact chunkAct_verdict act
        · rw [Action.halt.injEq] at ends
          simp [← ends.2]

theorem presentWhole_waits {memory : Bytes} {outcome : Outcome} (fits : memory.length ≤ uint64Max)
    (whole : presentWhole memory = some outcome) (open_ : outcome.result = .incomplete) :
    ∃ read rest out e, memory = read ++ rest ∧ Steps inputMachine (settled ckHttpInputInit) read out e ∧
      inputAct e rest = .wait := by
  obtain ⟨last, presents, run⟩ := presentAll_presentation [] (memory.length + 1) fits
    (init_between memory) (by omega)
  rw [presentWhole, presents, Option.some.injEq] at whole
  subst whole
  obtain ⟨read, rest, out, e, cut, steps, stopped, rfl⟩ := presentation_settles fits (init_between memory) run
  refine ⟨read, rest, out, e, by simpa using cut, steps, ?_⟩
  cases act : inputAct e rest with
  | wait => rfl
  | move n out' y => exact absurd act (stopped n out' y)
  | halt n verdict =>
    rw [closing_of_halt act] at open_
    exact absurd open_ (inputAct_verdict act)

/-- From e the machine comes to a halt within s. -/
def Halts (e : HttpInput) (s : Bytes) : Prop :=
  ∃ read rest out f n verdict, s = read ++ rest ∧ Steps inputMachine e read out f ∧
    inputAct f rest = .halt n verdict

/-- From e the machine comes to f within s, and there it refuses. -/
def Refuses (e : HttpInput) (s : Bytes) (f : HttpInput) : Prop :=
  ∃ read rest out n verdict, s = read ++ rest ∧ Steps inputMachine e read out f ∧
    inputAct f rest = .halt n verdict ∧ verdict.1 ≠ .complete

theorem Refuses.halts {e f : HttpInput} {s : Bytes} (refuses : Refuses e s f) : Halts e s := by
  obtain ⟨read, rest, out, n, verdict, cut, run, ends, -⟩ := refuses
  exact ⟨read, rest, out, f, n, verdict, cut, run, ends⟩

theorem Refuses.after {x y f : HttpInput} {s t out : Bytes} (run : Steps inputMachine x s out y)
    (refuses : Refuses y t f) : Refuses x (s ++ t) f := by
  obtain ⟨read, rest, out', n, verdict, rfl, more, ends, kind⟩ := refuses
  exact ⟨s ++ read, rest, out ++ out', n, verdict, by simp, steps_trans run more, ends, kind⟩

theorem Halts.not_waits {x y : HttpInput} {read rest out : Bytes} (halts : Halts x (read ++ rest))
    (run : Steps inputMachine x read out y) : inputAct y rest ≠ .wait := by
  intro waits
  obtain ⟨read', rest', out', f, n, verdict, cut, run', ends⟩ := halts
  obtain ⟨-, -, rfl, rfl⟩ := stop_unique run (stopped_of_wait waits) run' (stopped_of_halt ends) cut
  simp [ends] at waits

theorem takeChunkData_halts {d : ChunkedDecoder} {s : Bytes} {position : Nat} (sound : Sound d)
    (opened : d.state = .dataState) (some : s ≠ [])
    (refuses : (takeChunkData d position s.length).result = .tooLarge) :
    ∃ read rest out e n last, s = read ++ rest ∧ Steps chunkMachine d read out e ∧
      chunkAct e rest = .halt n (.tooLarge, last) := by
  have positive : 0 < d.chunkRemaining := sound.chunk_open opened
  have bound := sound.total_le
  have width : 0 < s.length := List.length_pos_iff.mpr some
  simp only [takeChunkData] at refuses
  generalize count : (if d.chunkRemaining < s.length then d.chunkRemaining else s.length) = take at refuses
  have small : take ≤ d.chunkRemaining ∧ take ≤ s.length := by
    split at count <;> omega
  by_cases beyond : d.totalDecoded > chunkedMaxBody ∨ take > chunkedMaxBody - d.totalDecoded
  · simp only [chunkedMaxBody] at beyond
    generalize left : uint64Max - d.totalDecoded = k at beyond
    have short : k < d.chunkRemaining ∧ k < s.length := by omega
    have cut : s = s.take k ++ s.drop k := (List.take_append_drop k s).symm
    obtain ⟨b, rest, tail⟩ : ∃ b rest, s.drop k = b :: rest := by
      apply List.exists_cons_of_ne_nil
      rw [ne_eq, List.drop_eq_nil_iff]
      omega
    by_cases none : k = 0
    · subst none
      rw [List.drop_zero] at tail
      refine ⟨[], s, [], d, 0, d, rfl, Steps.refl d, ?_⟩
      have full : d.totalDecoded ≥ uint64Max := by omega
      simp [tail, chunkAct, opened, chunkedMaxBody, full]
    · have len : (s.take k).length = k := by
        rw [List.length_take]
        omega
      have run := steps_data (s.take k) sound opened
        (by intro empty; rw [empty] at len; simp at len; omega) (by omega) (by omega)
      rw [len] at run
      refine ⟨s.take k, s.drop k, s.take k, takeData d k, 0, takeData d k, cut, run, ?_⟩
      have full : d.totalDecoded + k ≥ uint64Max := by omega
      have more : d.chunkRemaining - k ≠ 0 := by omega
      simp [tail, chunkAct, takeData, more, chunkedMaxBody, full]
  · rw [if_neg beyond] at refuses
    simp at refuses

theorem chunkedFeedLoop_halts {d : ChunkedDecoder} {s : Bytes} {position : Nat} (sound : Sound d)
    (live : d.state ≠ .done) (refuses : (chunkedFeedLoop d position s).result = .badRequest ∨
      (chunkedFeedLoop d position s).result = .tooLarge) :
    ∃ read rest out e n result last, s = read ++ rest ∧ Steps chunkMachine d read out e ∧
      chunkAct e rest = .halt n (result, last) ∧ result ≠ .complete := by
  induction width : s.length using Nat.strongRecOn generalizing d s position with
  | ind k ih =>
    by_cases data : d.state = .dataState
    · cases s with
      | nil => simp [chunkedFeedLoop, ChunkedFeed.stop] at refuses
      | cons value rest =>
        have large : (takeChunkData d position (value :: rest).length).result = .tooLarge := by
          unfold chunkedFeedLoop at refuses
          simp only [data] at refuses
          refine refuses.resolve_left fun bad => ?_
          simp only [takeChunkData] at bad
          generalize (if d.chunkRemaining < rest.length + 1 then _ else _) = take at bad
          split at bad <;> simp [ChunkedFeed.refuse] at bad
        obtain ⟨read, more, out, e, n, last, cut, run, ends⟩ :=
          takeChunkData_halts sound data (by simp) large
        exact ⟨read, more, out, e, n, .tooLarge, last, cut, run, ends, by simp⟩
    · rw [chunkedFeedLoop_act data live] at refuses
      cases act : chunkAct d s with
      | wait =>
        rw [act] at refuses
        simp [ChunkedFeed.stop] at refuses
      | move n out e =>
        rw [act] at refuses
        simp only at refuses
        obtain ⟨some, short, local_⟩ := chunkAct_move act
        have len : (s.take n).length = n := by
          rw [List.length_take]
          omega
        obtain ⟨read, rest, more, f, m, result, last, cut, run, ends, kind⟩ :=
          ih (s.drop n).length (by rw [List.length_drop]; omega) (chunkAct_sound sound act).1
            (chunkAct_silent data act).2 refuses rfl
        refine ⟨s.take n ++ read, rest, out ++ more, f, m, result, last, ?_, ?_, ends, kind⟩
        · rw [List.append_assoc, ← cut, List.take_append_drop]
        · exact Steps.move (by rw [len]; exact local_) run
      | halt n verdict =>
        rw [act] at refuses
        refine ⟨[], s, [], d, n, verdict.1, verdict.2, rfl, Steps.refl d, act, fun complete => ?_⟩
        simp [complete] at refuses

theorem feedBody_refuses {y : HttpInput} {a h : Nat} {s : Bytes} (ready : Ready y)
    (header : y.headerComplete = true) (kind : (feedBody y a h s).result = .badRequest ∨
      (feedBody y a h s).result = .tooLarge) :
    ∃ f, Refuses (settled y) s f ∧ f.headerComplete = (feedBody y a h s).input.headerComplete := by
  cases mode : y.request.bodyMode with
  | none => exact absurd mode (ready.has_body header)
  | contentLength =>
    simp only [feedBody, mode] at kind
    generalize (if y.contentLengthRemaining < s.length then _ else _) = take at kind
    split at kind <;> simp at kind
  | chunked =>
    have refused : (chunkedFeedLoop y.chunked 0 s).result = .badRequest ∨
        (chunkedFeedLoop y.chunked 0 s).result = .tooLarge := by
      simp only [feedBody, mode, ckHttpChunkedFeed, ready.decoder_live, ↓reduceIte] at kind
      split at kind
      · simp at kind
      · cases answer : (chunkedFeedLoop y.chunked 0 s).result <;> simp_all [mapChunkedResult]
    obtain ⟨read, rest, out, e, n, result, last, cut, run, ends, partly⟩ :=
      chunkedFeedLoop_halts ready.decoder_sound ready.decoder_live refused
    have halts := inputAct_chunked ready.live header mode e rest
    rw [ends] at halts
    refine ⟨_, ⟨read, rest, out, n, _, cut, steps_chunked ready.live header mode run, halts, ?_⟩, ?_⟩
    · cases result <;> simp_all [mapChunkedResult]
    · simp only [feedBody, mode, settled]
      repeat' split
      all_goals simp [header]

/-- A feed refuses only what the machine refuses, in the same part of the message. -/
theorem feed_refuses {x : HttpInput} {a : Nat} {s : Bytes} (ready : Ready x)
    (kind : (ckHttpInputFeed x a s).result = .badRequest ∨ (ckHttpInputFeed x a s).result = .tooLarge) :
    ∃ f, Refuses (settled x) s f ∧ f.headerComplete = (ckHttpInputFeed x a s).input.headerComplete := by
  by_cases header : x.headerComplete = true
  · simp only [ckHttpInputFeed, ready.no_span, ne_eq, not_true_eq_false, ↓reduceIte, ready.live,
      Bool.false_eq_true, header, Bool.not_true] at kind ⊢
    exact feedBody_refuses ready header kind
  · have opened : x.headerComplete = false := eq_false_of_ne_true header
    simp only [ckHttpInputFeed, ready.no_span, ne_eq, not_true_eq_false, ↓reduceIte, ready.live,
      Bool.false_eq_true, opened, Bool.not_false, ckHttpParserFeed, ready.parser_open opened] at kind ⊢
    have fed := parserFeedLoop_outcome (s := s) 0 ready.live opened
    generalize parserFeedLoop x.request x.parser 0 s = answer at fed kind
    cases fed with
    | more p same run => simp [feedHeader] at kind
    | full read rest p same cut unread run full =>
      obtain ⟨b, rest, rfl⟩ := List.exists_cons_of_ne_nil unread
      refine ⟨_, ⟨read, b :: rest, [], 0, (.tooLarge, x.request), cut, run, ?_, by simp⟩, ?_⟩
      · simp [inputAct, settled, ready.live, opened, headerAct, full]
      · simp [feedHeader, settled]
    | block read rest b p same cut run room ends =>
      subst cut
      cases block : parseHeaderBlock (p.push b).buffer with
      | mk result request =>
        cases result with
        | incomplete => exact absurd block fun h => parseHeaderBlock_decides h
        | badRequest =>
          refine ⟨_, ⟨read, b :: rest, [], 1, (.badRequest, request), rfl, run,
            inputAct_refuses ready opened room ends block (.inl ⟨rfl, rfl⟩) rest, by simp⟩, ?_⟩
          simp [finishHeader, block, feedHeader, settled]
        | headerTooLarge =>
          refine ⟨_, ⟨read, b :: rest, [], 1, (.tooLarge, request), rfl, run,
            inputAct_refuses ready opened room ends block (.inr ⟨rfl, rfl⟩) rest, by simp⟩, ?_⟩
          simp [finishHeader, block, feedHeader, settled]
        | complete =>
          simp only [finishHeader, block, feedHeader] at kind ⊢
          split at kind
          · simp at kind
          · rename_i body
            obtain ⟨steps, next⟩ := steps_header ready opened run room ends block body
            have tail : (read ++ b :: rest).drop (0 + read.length + 1) = rest := by
              rw [Nat.zero_add, ← List.drop_drop, List.drop_left]
              rfl
            rw [tail] at kind
            obtain ⟨f, refuses, same⟩ := feedBody_refuses next rfl kind
            refine ⟨f, by simpa using refuses.after steps, ?_⟩
            rw [if_neg body, tail]
            exact same

theorem feed_halts {x : HttpInput} {a : Nat} {s : Bytes} (ready : Ready x)
    (kind : (ckHttpInputFeed x a s).result = .badRequest ∨ (ckHttpInputFeed x a s).result = .tooLarge) :
    Halts (settled x) s := by
  obtain ⟨f, refuses, -⟩ := feed_refuses ready kind
  exact refuses.halts

end CkartaFeedVerdict
