import Ckarta.PrefixMachine
import Ckarta.HttpChunked

/-!
The chunked decoder as a prefix machine: one action reads at most two bytes and is
what the decoder does when it is fed nothing else. A feed of any slice is a run of
these actions, so the decoder keeps no trace of how its input was cut.
-/
namespace CkartaChunkedMachine
open MachineWord PrefixMachine CkartaHttpParser CkartaHttpChunked

/-- What every reachable decoder satisfies: an open chunk has bytes left, the line
    is only held between chunks, and the two 64-bit counters are in range. -/
structure Sound (decoder : ChunkedDecoder) : Prop where
  chunk_open : decoder.state = .dataState → 0 < decoder.chunkRemaining
  line_clear : decoder.state = .dataState ∨ decoder.state = .dataCrlf → decoder.line = []
  remaining_le : decoder.chunkRemaining ≤ uint64Max
  total_le : decoder.totalDecoded ≤ uint64Max

theorem init_sound : Sound ckHttpChunkedInit := by
  refine ⟨?_, ?_, ?_, ?_⟩ <;> simp [ckHttpChunkedInit]

def takeDataByte (decoder : ChunkedDecoder) : ChunkedDecoder :=
  let remaining := subU64 decoder.chunkRemaining 1
  { decoder with
    chunkRemaining := remaining, totalDecoded := addU64 decoder.totalDecoded 1
    state := if remaining = 0 then .dataCrlf else .dataState }

def endTrailerLine (decoder : ChunkedDecoder) : ChunkedDecoder :=
  { decoder with
    trailerBytes := decoder.trailerBytes + 2
    trailerCount := decoder.trailerCount + 1, line := [] }

abbrev Verdict := ChunkedResult × ChunkedDecoder

def chunkAct (decoder : ChunkedDecoder) : Bytes → Action ChunkedDecoder UInt8 Verdict
  | [] => .wait
  | value :: rest =>
    match decoder.state with
    | .size =>
      if value = cr then
        match rest with
        | [] => .wait
        | next :: _ =>
          if next ≠ lf then .halt 0 (.badRequest, decoder)
          else match finishSizeLine decoder with
            | none => .halt 0 (.badRequest, decoder)
            | some decoder => .move 2 [] decoder
      else if value = lf then .halt 0 (.badRequest, decoder)
      else match appendLineByte decoder value with
        | none => .halt 0 (.tooLarge, decoder)
        | some decoder => .move 1 [] decoder
    | .dataState =>
      if decoder.totalDecoded ≥ chunkedMaxBody then .halt 0 (.tooLarge, decoder)
      else .move 1 [value] (takeDataByte decoder)
    | .dataCrlf =>
      match rest with
      | [] => .wait
      | next :: _ =>
        if value ≠ cr ∨ next ≠ lf then .halt 0 (.badRequest, decoder)
        else .move 2 [] { decoder with state := .size }
    | .trailers =>
      let counted := { decoder with trailerBytes := decoder.trailerBytes + 1 }
      let ended := { decoder with trailerBytes := decoder.trailerBytes + 2 }
      if decoder.trailerBytes ≥ chunkedMaxTrailerBytes then .halt 0 (.tooLarge, decoder)
      else if value = cr then
        match rest with
        | [] => .wait
        | next :: _ =>
          if next ≠ lf then .halt 0 (.badRequest, counted)
          else if decoder.line.length = 0 then .halt 2 (.complete, { ended with state := .done })
          else if decoder.trailerCount ≥ chunkedMaxTrailers ∨ ¬ validTrailerField decoder.line then
            .halt 0 (.badRequest, ended)
          else .move 2 [] (endTrailerLine decoder)
      else if value = lf then .halt 0 (.badRequest, counted)
      else match appendLineByte counted value with
        | none => .halt 0 (.tooLarge, counted)
        | some decoder => .move 1 [] decoder
    | .done => .halt 0 (.complete, decoder)

theorem chunkAct_move {d e : ChunkedDecoder} {s : Bytes} {n : Nat} {out : Bytes}
    (h : chunkAct d s = .move n out e) :
    0 < n ∧ n ≤ s.length ∧ chunkAct d (s.take n) = .move n out e := by
  cases s with
  | nil => simp [chunkAct] at h
  | cons value rest =>
    simp only [chunkAct] at h ⊢
    cases rest with
    | nil => (repeat' split at h) <;> grind [chunkAct]
    | cons next rest => (repeat' split at h) <;> grind [chunkAct]

theorem chunkAct_stable {d : ChunkedDecoder} {s : Bytes} (h : chunkAct d s ≠ .wait) (t : Bytes) :
    chunkAct d (s ++ t) = chunkAct d s := by
  cases s with
  | nil => simp [chunkAct] at h
  | cons value rest =>
    cases rest with
    | nil =>
      simp only [chunkAct, List.cons_append, List.nil_append] at h ⊢
      (repeat' split at h) <;> simp_all
    | cons next rest => simp only [chunkAct, List.cons_append]

def chunkMachine : Machine ChunkedDecoder UInt8 UInt8 Verdict where
  act := chunkAct
  move_bounds h := ⟨(chunkAct_move h).1, (chunkAct_move h).2.1⟩
  move_local h := (chunkAct_move h).2.2
  stable h t := chunkAct_stable h t

theorem parseChunkDigits_le {line rest : Bytes} {value size : Nat} {digits found : Bool}
    (h : parseChunkDigits value digits line = some (size, found, rest))
    (bound : value ≤ uint64Max) : size ≤ uint64Max := by
  induction line generalizing value digits with
  | nil =>
    simp only [parseChunkDigits, Option.some.injEq, Prod.mk.injEq] at h
    omega
  | cons b line ih =>
    simp only [parseChunkDigits] at h
    split at h
    · simp only [Option.some.injEq, Prod.mk.injEq] at h
      omega
    · split at h
      · simp at h
      · split at h
        · simp at h
        · exact ih h (u64_le _)

theorem parseChunkSize_le {line : Bytes} {size : Nat} (h : parseChunkSize line = some size) :
    size ≤ uint64Max := by
  simp only [parseChunkSize] at h
  split at h
  · simp at h
  · rename_i value digits rest run
    have bound := parseChunkDigits_le run (Nat.zero_le _)
    split at h
    · simp at h
    · split at h
      · simp at h
      · simp only [Option.some.injEq] at h
        omega

theorem finishSizeLine_eq {d e : ChunkedDecoder} (h : finishSizeLine d = some e) :
    ∃ size, parseChunkSize d.line = some size ∧ e = { d with
      chunkRemaining := size, line := []
      state := if size = 0 then .trailers else .dataState } := by
  simp only [finishSizeLine, Option.map_eq_some_iff] at h
  obtain ⟨size, parsed, rfl⟩ := h
  exact ⟨size, parsed, rfl⟩

theorem finishSizeLine_live {d e : ChunkedDecoder} (h : finishSizeLine d = some e) :
    e.state ≠ .done := by
  obtain ⟨size, -, rfl⟩ := finishSizeLine_eq h
  by_cases zero : size = 0 <;> simp [zero]

theorem finishSizeLine_sound {d e : ChunkedDecoder} (sound : Sound d)
    (h : finishSizeLine d = some e) : Sound e ∧ e.totalDecoded = d.totalDecoded := by
  obtain ⟨size, parsed, rfl⟩ := finishSizeLine_eq h
  refine ⟨⟨?_, fun _ => rfl, parseChunkSize_le parsed, sound.total_le⟩, rfl⟩
  intro opened
  by_cases zero : size = 0
  · simp [zero] at opened
  · exact Nat.pos_of_ne_zero zero

theorem takeDataByte_sound {d : ChunkedDecoder} (sound : Sound d)
    (opened : d.state = .dataState) : Sound (takeDataByte d) := by
  have positive : 1 ≤ d.chunkRemaining := sound.chunk_open opened
  have remaining := subU64_of_le positive sound.remaining_le
  have bound := sound.remaining_le
  refine ⟨?_, fun _ => sound.line_clear (.inl opened), ?_, u64_le _⟩
  · simp only [takeDataByte]
    split
    · simp
    · intro _
      omega
  · simp only [takeDataByte]
    omega

theorem appendLineByte_eq {d e : ChunkedDecoder} {b : UInt8} (h : appendLineByte d b = some e) :
    d.line.length < chunkedMaxLine - 1 ∧ e = { d with line := d.line ++ [b] } := by
  simp only [appendLineByte] at h
  split at h
  · simp at h
  · simp only [Option.some.injEq] at h
    exact ⟨by omega, h.symm⟩

theorem chunkAct_sound {d e : ChunkedDecoder} {s out : Bytes} {n : Nat} (sound : Sound d)
    (h : chunkAct d s = .move n out e) :
    Sound e ∧ (out = [] → e.totalDecoded = d.totalDecoded) := by
  obtain ⟨opened, clear, remaining, total⟩ := id sound
  cases s with
  | nil => simp [chunkAct] at h
  | cons value rest =>
    simp only [chunkAct] at h
    cases state : d.state with
    | size =>
      simp only [state] at h
      repeat' split at h
      all_goals try simp at h
      · rename_i e' parsed
        obtain ⟨-, -, rfl⟩ := h
        exact ⟨(finishSizeLine_sound sound parsed).1, fun _ => (finishSizeLine_sound sound parsed).2⟩
      · rename_i e' appended
        obtain ⟨-, -, rfl⟩ := h
        obtain ⟨-, rfl⟩ := appendLineByte_eq appended
        exact ⟨⟨opened, by simp [state], remaining, total⟩, fun _ => rfl⟩
    | dataState =>
      simp only [state] at h
      split at h
      · simp at h
      · simp only [Action.move.injEq] at h
        obtain ⟨-, rfl, rfl⟩ := h
        exact ⟨takeDataByte_sound sound state, by simp⟩
    | dataCrlf =>
      simp only [state] at h
      repeat' split at h
      all_goals try simp at h
      obtain ⟨-, -, rfl⟩ := h
      exact ⟨⟨by simp, by simp, remaining, total⟩, fun _ => rfl⟩
    | trailers =>
      simp only [state] at h
      repeat' split at h
      all_goals try simp at h
      · obtain ⟨-, -, rfl⟩ := h
        exact ⟨⟨by simp [endTrailerLine, state], fun _ => rfl, remaining, total⟩, fun _ => rfl⟩
      · rename_i e' appended
        obtain ⟨-, -, rfl⟩ := h
        obtain ⟨-, rfl⟩ := appendLineByte_eq appended
        exact ⟨⟨by simp, by simp, remaining, total⟩, fun _ => rfl⟩
    | done => simp [state] at h

theorem steps_sound {d e : ChunkedDecoder} {s out : Bytes} (sound : Sound d)
    (run : Steps chunkMachine d s out e) : Sound e := by
  induction run with
  | refl => exact sound
  | move act tail ih => exact ih (chunkAct_sound sound act).1

/-- The decoder after a whole span: the byte-wise run collapses to one subtraction. -/
def takeData (decoder : ChunkedDecoder) (count : Nat) : ChunkedDecoder :=
  { decoder with
    chunkRemaining := decoder.chunkRemaining - count
    totalDecoded := decoder.totalDecoded + count
    state := if decoder.chunkRemaining - count = 0 then .dataCrlf else .dataState }

theorem steps_data {d : ChunkedDecoder} (data : Bytes) (sound : Sound d)
    (opened : d.state = .dataState) (nonempty : data ≠ [])
    (fits : data.length ≤ d.chunkRemaining) (room : d.totalDecoded + data.length ≤ uint64Max) :
    Steps chunkMachine d data data (takeData d data.length) := by
  induction data generalizing d with
  | nil => contradiction
  | cons b data ih =>
    have positive : 1 ≤ d.chunkRemaining := sound.chunk_open opened
    have remaining := subU64_of_le positive sound.remaining_le
    simp only [List.length_cons] at fits room
    have one : d.totalDecoded + 1 ≤ uint64Max := by omega
    have act : chunkMachine.act d [b] = .move 1 [b] (takeDataByte d) := by
      have small : ¬ d.totalDecoded ≥ uint64Max := by omega
      simp [chunkMachine, chunkAct, opened, chunkedMaxBody, small]
    have next : takeDataByte d = takeData d 1 := by
      simp only [takeDataByte, takeData, remaining, addU64_of_le one]
    by_cases last : data = []
    · subst last
      rw [next] at act
      exact steps_one act
    · have more : 0 < data.length := List.length_pos_iff.mpr last
      have still : (takeDataByte d).state = .dataState := by
        rw [next]
        simp only [takeData]
        split
        · omega
        · rfl
      have tail := ih (takeDataByte_sound sound opened) still last
        (by rw [next]; simp only [takeData]; omega) (by rw [next]; simp only [takeData]; omega)
      have joined : takeData (takeDataByte d) data.length = takeData d (b :: data).length := by
        rw [next]
        have left : d.chunkRemaining - 1 - data.length = d.chunkRemaining - (data.length + 1) := by
          omega
        have count : d.totalDecoded + 1 + data.length = d.totalDecoded + (data.length + 1) := by
          omega
        simp only [takeData, List.length_cons, left, count]
      rw [joined] at tail
      exact Steps.move act tail

/-- What a feed of the slice s can answer, in terms of the machine's run over s. -/
inductive FeedOutcome (d : ChunkedDecoder) (s : Bytes) (position : Nat) : ChunkedFeed → Prop where
  | span (head data rest : Bytes) (e : ChunkedDecoder) (cut : s = head ++ data ++ rest)
      (nonempty : data ≠ []) (run : Steps chunkMachine d (head ++ data) data e) :
      FeedOutcome d s position
        ⟨.data, e, position + head.length + data.length, some (position + head.length), data.length⟩
  | quiet (read rest : Bytes) (e : ChunkedDecoder) (cut : s = read ++ rest)
      (run : Steps chunkMachine d read [] e) (waits : chunkAct e rest = .wait) :
      FeedOutcome d s position (.stop e (position + read.length))
  | complete (read rest : Bytes) (e last : ChunkedDecoder) (cut : s = read ++ rest)
      (run : Steps chunkMachine d read [] e) (ends : chunkAct e rest = .halt 2 (.complete, last)) :
      FeedOutcome d s position ⟨.complete, last, position + read.length + 2, none, 0⟩
  | refuse (read rest : Bytes) (e last : ChunkedDecoder) (result : ChunkedResult)
      (cut : s = read ++ rest) (run : Steps chunkMachine d read [] e)
      (kind : result = .badRequest ∨ result = .tooLarge)
      (ends : chunkAct e rest = .halt 0 (result, last)) : FeedOutcome d s position (.refuse result last)
  | overflow (read rest : Bytes) (last : ChunkedDecoder) (cut : s = read ++ rest)
      (run : Steps chunkMachine d read [] last) (full : uint64Max < d.totalDecoded + s.length) :
      FeedOutcome d s position (.refuse .tooLarge last)

theorem FeedOutcome.cons {d e : ChunkedDecoder} {w s : Bytes} {position : Nat} {fed : ChunkedFeed}
    (sound : Sound d) (act : chunkAct d w = .move w.length [] e)
    (outcome : FeedOutcome e s (position + w.length) fed) : FeedOutcome d (w ++ s) position fed := by
  have first : chunkMachine.act d w = .move w.length [] e := act
  cases outcome with
  | span head data rest last cut nonempty run =>
    have out : FeedOutcome d (w ++ s) position _ := .span (w ++ head) data rest
      last (by simp [cut]) nonempty (by simpa using Steps.move first run)
    simpa [Nat.add_assoc] using out
  | quiet read rest last cut run waits =>
    have out : FeedOutcome d (w ++ s) position _ := .quiet (w ++ read) rest
      last (by simp [cut]) (by simpa using Steps.move first run) waits
    simpa [Nat.add_assoc] using out
  | complete read rest mid last cut run ends =>
    have out : FeedOutcome d (w ++ s) position _ := .complete (w ++ read) rest
      mid last (by simp [cut]) (by simpa using Steps.move first run) ends
    simpa [Nat.add_assoc] using out
  | refuse read rest mid last result cut run kind ends =>
    exact .refuse (w ++ read) rest mid last result (by simp [cut])
      (by simpa using Steps.move first run) kind ends
  | overflow read rest last cut run full =>
    have kept := (chunkAct_sound sound act).2 rfl
    exact .overflow (w ++ read) rest last (by simp [cut]) (by simpa using Steps.move first run)
      (by simp only [List.length_append]; omega)

theorem takeChunkData_outcome {d : ChunkedDecoder} {s : Bytes} (position : Nat) (sound : Sound d)
    (opened : d.state = .dataState) (nonempty : s ≠ []) :
    FeedOutcome d s position (takeChunkData d position s.length) := by
  have positive : 0 < d.chunkRemaining := sound.chunk_open opened
  have some : 0 < s.length := List.length_pos_iff.mpr nonempty
  have bound := sound.total_le
  generalize count : (if d.chunkRemaining < s.length then d.chunkRemaining else s.length) = take
  have small : take ≤ d.chunkRemaining ∧ take ≤ s.length ∧ 0 < take := by
    split at count <;> omega
  simp only [takeChunkData, count, chunkedMaxBody]
  split
  · exact .overflow [] s d rfl (Steps.refl d) (by omega)
  · have room : d.totalDecoded + take ≤ uint64Max := by omega
    have len : (s.take take).length = take := by
      rw [List.length_take]
      omega
    have left := subU64_of_le small.1 sound.remaining_le
    have run := steps_data (s.take take) sound opened
      (by intro empty; rw [empty] at len; simp at len; omega) (by omega) (by omega)
    have out : FeedOutcome d s position _ := .span [] (s.take take)
      (s.drop take) (takeData d take) (by simp)
      (by intro empty; rw [empty] at len; simp at len; omega) (by simpa [len] using run)
    simpa [len, left, addU64_of_le room, takeData] using out

theorem chunkedFeedLoop_act {d : ChunkedDecoder} {s : Bytes} {position : Nat}
    (nondata : d.state ≠ .dataState) (live : d.state ≠ .done) :
    chunkedFeedLoop d position s = match chunkAct d s with
      | .wait => .stop d position
      | .move n _ e => chunkedFeedLoop e (position + n) (s.drop n)
      | .halt n (result, last) =>
        if result = .complete then ⟨.complete, last, position + n, none, 0⟩
        else .refuse result last := by
  rcases s with _ | ⟨value, _ | ⟨next, rest⟩⟩
  · simp [chunkAct, chunkedFeedLoop]
  · cases state : d.state <;> simp only [state, chunkAct, chunkedFeedLoop]
    all_goals grind [chunkedFeedLoop]
  · cases state : d.state <;> simp only [state, chunkAct, chunkedFeedLoop]
    all_goals grind [endTrailerLine]

theorem chunkAct_silent {d e : ChunkedDecoder} {s out : Bytes} {n : Nat}
    (nondata : d.state ≠ .dataState) (h : chunkAct d s = .move n out e) :
    out = [] ∧ e.state ≠ .done := by
  rcases s with _ | ⟨value, _ | ⟨next, rest⟩⟩
  · simp [chunkAct] at h
  · cases state : d.state <;> simp only [state, chunkAct] at h
    all_goals grind [appendLineByte]
  · cases state : d.state <;> simp only [state, chunkAct] at h
    all_goals grind [appendLineByte, finishSizeLine_live, endTrailerLine]

theorem chunkAct_open {d e : ChunkedDecoder} {s out : Bytes} {n : Nat}
    (h : chunkAct d s = .move n out e) :
    e.state ≠ .done ∧ e.totalDecoded ≤ d.totalDecoded + n := by
  by_cases data : d.state = .dataState
  · cases s with
    | nil => simp [chunkAct] at h
    | cons value rest =>
      simp only [chunkAct, data] at h
      split at h
      · simp at h
      · rename_i room
        simp only [Action.move.injEq] at h
        obtain ⟨rfl, -, rfl⟩ := h
        have counted : addU64 d.totalDecoded 1 ≤ d.totalDecoded + 1 := Nat.mod_le _ _
        refine ⟨?_, counted⟩
        simp only [takeDataByte]
        split <;> simp
  · obtain ⟨silent, live⟩ := chunkAct_silent data h
    refine ⟨live, ?_⟩
    rcases s with _ | ⟨value, _ | ⟨next, rest⟩⟩
    · simp [chunkAct] at h
    · cases state : d.state <;> simp only [state, chunkAct] at h
      all_goals grind [appendLineByte]
    · cases state : d.state <;> simp only [state, chunkAct] at h
      all_goals grind [appendLineByte, finishSizeLine_eq, endTrailerLine]

theorem steps_live {d e : ChunkedDecoder} {s out : Bytes} (live : d.state ≠ .done)
    (run : Steps chunkMachine d s out e) : e.state ≠ .done := by
  induction run with
  | refl => exact live
  | move act tail ih => exact ih (chunkAct_open act).1

theorem chunkAct_halt {d last : ChunkedDecoder} {s : Bytes} {n : Nat} {result : ChunkedResult}
    (live : d.state ≠ .done) (h : chunkAct d s = .halt n (result, last)) :
    (result = .complete ∧ n = 2) ∨ ((result = .badRequest ∨ result = .tooLarge) ∧ n = 0) := by
  rcases s with _ | ⟨value, _ | ⟨next, rest⟩⟩
  · simp [chunkAct] at h
  · cases state : d.state <;> simp only [state, chunkAct] at h
    all_goals grind
  · cases state : d.state <;> simp only [state, chunkAct] at h
    all_goals grind

theorem chunkAct_refuse_sound {d last : ChunkedDecoder} {s : Bytes} {result : ChunkedResult}
    (sound : Sound d) (live : d.state ≠ .done) (h : chunkAct d s = .halt 0 (result, last)) :
    Sound last ∧ last.state ≠ .done := by
  have kept : last.state = d.state ∧ last.chunkRemaining = d.chunkRemaining ∧
      last.totalDecoded = d.totalDecoded ∧ last.line = d.line := by
    rcases s with _ | ⟨value, _ | ⟨next, rest⟩⟩
    · simp [chunkAct] at h
    · cases state : d.state <;> simp only [state, chunkAct] at h
      all_goals grind
    · cases state : d.state <;> simp only [state, chunkAct] at h
      all_goals grind
  obtain ⟨state, left, count, line⟩ := kept
  rw [state]
  exact ⟨⟨by rw [state, left]; exact sound.chunk_open, by rw [state, line]; exact sound.line_clear,
    by rw [left]; exact sound.remaining_le, by rw [count]; exact sound.total_le⟩, live⟩

theorem chunkAct_halt_within {d last : ChunkedDecoder} {s : Bytes} {n : Nat}
    {result : ChunkedResult} (h : chunkAct d s = .halt n (result, last)) : n ≤ s.length := by
  rcases s with _ | ⟨value, _ | ⟨next, rest⟩⟩
  · simp [chunkAct] at h
  · cases state : d.state <;> simp only [state, chunkAct] at h
    all_goals grind
  · cases state : d.state <;> simp only [state, chunkAct] at h
    all_goals grind

theorem chunkAct_halt_local {d : ChunkedDecoder} {s : Bytes} {k : Nat}
    {verdict : Verdict} (h : chunkAct d s = .halt k verdict) (wide : 0 < k) :
    chunkAct d (s.take k) = .halt k verdict := by
  rcases s with _ | ⟨value, _ | ⟨next, rest⟩⟩
  · simp [chunkAct] at h
  · cases state : d.state <;> simp only [state, chunkAct] at h
    all_goals grind
  · cases state : d.state <;> simp only [state, chunkAct] at h
    all_goals grind [chunkAct]

/-- Feeding a slice is running the machine over it, from any sound open decoder. -/
theorem chunkedFeedLoop_outcome {d : ChunkedDecoder} {s : Bytes} (position : Nat) (sound : Sound d)
    (live : d.state ≠ .done) : FeedOutcome d s position (chunkedFeedLoop d position s) := by
  induction size : s.length using Nat.strongRecOn generalizing d position s with
  | ind n ih =>
    subst size
    by_cases empty : s = []
    · subst empty
      exact .quiet [] [] d rfl (Steps.refl d) rfl
    · by_cases data : d.state = .dataState
      · have out := takeChunkData_outcome position sound data empty
        cases s with
        | nil => contradiction
        | cons value rest => cases rest <;> simpa [chunkedFeedLoop, data] using out
      · rw [chunkedFeedLoop_act data live]
        cases act : chunkAct d s with
        | wait => exact .quiet [] s d rfl (Steps.refl d) act
        | move n out e =>
          obtain ⟨rfl, liveNext⟩ := chunkAct_silent data act
          obtain ⟨positive, within, prefixed⟩ := chunkAct_move act
          have width : (s.take n).length = n := by
            rw [List.length_take]
            omega
          have tail := ih (s.drop n).length (by rw [List.length_drop]; omega)
            (position + n) (chunkAct_sound sound act).1 liveNext rfl
          dsimp only
          rw [← List.take_append_drop n s]
          refine FeedOutcome.cons sound (e := e) (by rw [width]; exact prefixed) ?_
          rw [width]
          simpa using tail
        | halt n verdict =>
          obtain ⟨result, last⟩ := verdict
          rcases chunkAct_halt live act with ⟨rfl, rfl⟩ | ⟨kind, rfl⟩
          · exact .complete [] s d last rfl (Steps.refl d) act
          · have refused : result ≠ .complete := by
              rcases kind with rfl | rfl <;> simp
            simp only [refused, ↓reduceIte]
            exact .refuse [] s d last result rfl (Steps.refl d) kind act

end CkartaChunkedMachine
