import Ckarta.ChunkedAcceptance

/-!
The counters of the chunked decoder against their declared limits, over any sequence of
feeds, also after refused ones. All of them hold but one: the LF of a trailer line end is
counted without a look at the limit, so a line end right at the limit carries the trailer
byte count one past it.
-/
namespace CkartaChunkedBounds
open MachineWord PrefixMachine CkartaHttpParser CkartaHttpChunked CkartaChunkedMachine
  CkartaChunkedRejection CkartaChunkedGrammar CkartaChunkedAcceptance

structure InBounds (decoder : ChunkedDecoder) : Prop where
  line_length : decoder.line.length ≤ 8191
  trailer_count : decoder.trailerCount ≤ chunkedMaxTrailers
  trailer_bytes : decoder.trailerBytes ≤ chunkedMaxTrailerBytes
  chunk_open : decoder.state = .dataState → decoder.chunkRemaining ≠ 0

/-- A feed adds and subtracts span lengths without a wrap: the decoded total grows by the
    span, and the chunk it opened or found open shrinks by it. -/
structure ExactCounters (decoder : ChunkedDecoder) (data : Bytes) : Prop where
  total : (ckHttpChunkedFeed decoder data).decoder.totalDecoded =
    decoder.totalDecoded + (ckHttpChunkedFeed decoder data).bodyLength
  total_le : (ckHttpChunkedFeed decoder data).decoder.totalDecoded ≤ uint64Max
  remaining : ∀ head rest opened, data = head ++ rest → rest ≠ [] →
    Steps chunkMachine decoder head [] opened → opened.state = .dataState →
    (ckHttpChunkedFeed decoder data).decoder.chunkRemaining +
      (ckHttpChunkedFeed decoder data).bodyLength = opened.chunkRemaining

def decoderAfter (feeds : List Bytes) : ChunkedDecoder :=
  feeds.foldl (fun decoder data => (ckHttpChunkedFeed decoder data).decoder) ckHttpChunkedInit

/-- The bounds and the exact counters over a whole run of feeds. -/
structure RespectsLimits (feeds : List Bytes) : Prop where
  bounds : ∀ before after, feeds = before ++ after → InBounds (decoderAfter before)
  counters : ∀ before data after, feeds = before ++ data :: after → ExactCounters (decoderAfter before) data

/-- Trailer text behind an open line: whole lines that pass, then a line still open. -/
inductive TrailerRun : Nat → Bytes → Bytes → Prop where
  | tail {count : Nat} {line rest : Bytes} (ordinary : Ordinary rest)
      (short : line.length + rest.length ≤ 8191) : TrailerRun count line rest
  | line {count : Nat} {line head rest : Bytes} (ordinary : Ordinary head)
      (short : line.length + head.length ≤ 8191) (field : validTrailerField (line ++ head) = true)
      (few : count < chunkedMaxTrailers) (more : TrailerRun (count + 1) [] rest) :
      TrailerRun count line (head ++ crlf ++ rest)

inductive TrailerStart (decoder : ChunkedDecoder) : Bytes → Bytes → Prop where
  | inside (state : decoder.state = .trailers) : TrailerStart decoder [] decoder.line
  | size {line : Bytes} (state : decoder.state = .size) (ordinary : Ordinary line)
      (short : decoder.line.length + line.length ≤ 8191)
      (zero : parseChunkSize (decoder.line ++ line) = some 0) : TrailerStart decoder (line ++ crlf) []
  | chunkEnd {line : Bytes} (state : decoder.state = .dataCrlf) (ordinary : Ordinary line)
      (short : decoder.line.length + line.length ≤ 8191)
      (zero : parseChunkSize (decoder.line ++ line) = some 0) :
      TrailerStart decoder (crlf ++ line ++ crlf) []

/-- The slice has a trailer line end whose CR is the last byte within the limit. -/
def CrossesLimit (decoder : ChunkedDecoder) (data : Bytes) : Prop :=
  ∃ front line text rest, data = front ++ text ++ crlf ++ rest ∧ TrailerStart decoder front line ∧
    TrailerRun decoder.trailerCount line text ∧
    decoder.trailerBytes + text.length + 1 = chunkedMaxTrailerBytes

inductive QuietMove (d : ChunkedDecoder) : Bytes → ChunkedDecoder → Prop where
  | sizeByte {b : UInt8} (state : d.state = .size) (notCr : b ≠ cr) (notLf : b ≠ lf)
      (room : d.line.length < 8191) : QuietMove d [b] (appendLine d [b])
  | sizeEnd {size : Nat} (state : d.state = .size) (parsed : parseChunkSize d.line = some size) :
      QuietMove d crlf { d with
        chunkRemaining := size, line := []
        state := if size = 0 then .trailers else .dataState }
  | chunkEnd (state : d.state = .dataCrlf) : QuietMove d crlf { d with state := .size }
  | trailerByte {b : UInt8} (state : d.state = .trailers) (notCr : b ≠ cr) (notLf : b ≠ lf)
      (room : d.line.length < 8191) (within : d.trailerBytes < chunkedMaxTrailerBytes) :
      QuietMove d [b] (appendTrailer d [b])
  | trailerEnd (state : d.state = .trailers) (within : d.trailerBytes < chunkedMaxTrailerBytes)
      (few : d.trailerCount < chunkedMaxTrailers) (field : validTrailerField d.line = true) :
      QuietMove d crlf (endTrailerLine d)

theorem chunkAct_size_quiet {d e : ChunkedDecoder} {value : UInt8} {rest out : Bytes} {n : Nat}
    (state : d.state = .size) (act : chunkAct d (value :: rest) = .move n out e) :
    ∃ w, value :: rest = w ++ (value :: rest).drop n ∧ w.length = n ∧ QuietMove d w e := by
  simp only [chunkAct, state] at act
  split at act
  · rename_i isCr
    subst isCr
    split at act
    · cases act
    · split at act
      · cases act
      · rename_i next tail isLf
        rw [not_not] at isLf
        subst isLf
        split at act
        · cases act
        · rename_i last ended
          simp only [Action.move.injEq] at act
          obtain ⟨rfl, -, rfl⟩ := act
          obtain ⟨size, parsed, rfl⟩ := finishSizeLine_eq ended
          exact ⟨crlf, rfl, rfl, .sizeEnd state parsed⟩
  · rename_i notCr
    split at act
    · cases act
    · rename_i notLf
      split at act
      · cases act
      · rename_i last appended
        simp only [Action.move.injEq] at act
        obtain ⟨rfl, -, rfl⟩ := act
        obtain ⟨room, rfl⟩ := appendLineByte_eq appended
        exact ⟨[value], rfl, rfl, .sizeByte state notCr notLf room⟩

theorem chunkAct_chunkEnd_quiet {d e : ChunkedDecoder} {value : UInt8} {rest out : Bytes} {n : Nat}
    (state : d.state = .dataCrlf) (act : chunkAct d (value :: rest) = .move n out e) :
    ∃ w, value :: rest = w ++ (value :: rest).drop n ∧ w.length = n ∧ QuietMove d w e := by
  simp only [chunkAct, state] at act
  split at act
  · cases act
  · rename_i next tail
    split at act
    · cases act
    · rename_i ends
      obtain ⟨isCr, isLf⟩ := not_or.mp ends
      rw [not_not] at isCr isLf
      simp only [Action.move.injEq] at act
      obtain ⟨rfl, -, rfl⟩ := act
      rw [isCr, isLf]
      exact ⟨crlf, rfl, rfl, .chunkEnd state⟩

theorem chunkAct_trailers_quiet {d e : ChunkedDecoder} {value : UInt8} {rest out : Bytes} {n : Nat}
    (state : d.state = .trailers) (act : chunkAct d (value :: rest) = .move n out e) :
    ∃ w, value :: rest = w ++ (value :: rest).drop n ∧ w.length = n ∧ QuietMove d w e := by
  simp only [chunkAct, state] at act
  split at act
  · cases act
  · rename_i within
    split at act
    · rename_i isCr
      subst isCr
      split at act
      · cases act
      · split at act
        · cases act
        · rename_i next tail isLf
          rw [not_not] at isLf
          subst isLf
          split at act
          · cases act
          · split at act
            · cases act
            · rename_i passes
              obtain ⟨few, field⟩ := not_or.mp passes
              rw [not_not] at field
              simp only [Action.move.injEq] at act
              obtain ⟨rfl, -, rfl⟩ := act
              exact ⟨crlf, rfl, rfl, .trailerEnd state (by omega) (by omega) field⟩
    · rename_i notCr
      split at act
      · cases act
      · rename_i notLf
        split at act
        · cases act
        · rename_i last appended
          simp only [Action.move.injEq] at act
          obtain ⟨rfl, -, rfl⟩ := act
          obtain ⟨room, rfl⟩ := appendLineByte_eq appended
          have move : QuietMove d [value] _ := .trailerByte state notCr notLf room (by omega)
          rw [appendTrailer, state] at move
          exact ⟨[value], rfl, rfl, move⟩

theorem chunkAct_quiet {d e : ChunkedDecoder} {s out : Bytes} {n : Nat} (nondata : d.state ≠ .dataState)
    (act : chunkAct d s = .move n out e) :
    ∃ w, s = w ++ s.drop n ∧ w.length = n ∧ QuietMove d w e := by
  rcases s with _ | ⟨value, rest⟩
  · cases act
  · cases state : d.state with
    | size => exact chunkAct_size_quiet state act
    | dataState => exact absurd state nondata
    | dataCrlf => exact chunkAct_chunkEnd_quiet state act
    | trailers => exact chunkAct_trailers_quiet state act
    | done =>
      simp only [chunkAct, state] at act
      cases act

theorem chunkAct_halt_cases {d last : ChunkedDecoder} {s : Bytes} {n : Nat} {result : ChunkedResult}
    (act : chunkAct d s = .halt n (result, last)) :
    last = d ∨ d.state = .trailers ∧ d.trailerBytes < chunkedMaxTrailerBytes ∧
      (last = { d with trailerBytes := d.trailerBytes + 1 } ∨ (∃ rest, s = crlf ++ rest) ∧
        (last = { d with trailerBytes := d.trailerBytes + 2 } ∨
          last = { d with trailerBytes := d.trailerBytes + 2, state := .done })) := by
  rcases s with _ | ⟨value, rest⟩
  · cases act
  · cases state : d.state with
    | size =>
      simp only [chunkAct, state] at act
      (repeat' split at act) <;> simp_all
    | dataState =>
      simp only [chunkAct, state] at act
      (repeat' split at act) <;> simp_all
    | dataCrlf =>
      simp only [chunkAct, state] at act
      (repeat' split at act) <;> simp_all
    | done =>
      simp only [chunkAct, state] at act
      simp_all
    | trailers =>
      simp only [chunkAct] at act
      rw [state] at act
      dsimp only at act
      split at act
      · simp_all
      · rename_i within
        refine .inr ⟨rfl, by omega, ?_⟩
        split at act
        · rename_i isCr
          split at act
          · cases act
          · rename_i next tail
            split at act
            · simp_all
            · rename_i isLf
              rw [not_not] at isLf
              subst isCr isLf
              refine .inr ⟨⟨tail, rfl⟩, ?_⟩
              split at act
              · simp only [Action.halt.injEq, Prod.mk.injEq] at act
                exact .inr act.2.2.symm
              · split at act
                · simp only [Action.halt.injEq, Prod.mk.injEq] at act
                  exact .inl act.2.2.symm
                · cases act
        · (repeat' split at act) <;> simp_all

/-- Induction over the turns of one feed, for what it says about the decoder and the span. -/
theorem chunkedFeedLoop_rule {R : ChunkedDecoder → Bytes → ChunkedDecoder → Nat → Prop}
    (span : ∀ d s position, Sound d → d.state = .dataState →
      R d s (takeChunkData d position s.length).decoder (takeChunkData d position s.length).bodyLength)
    (waits : ∀ d s, Sound d → R d s d 0)
    (halts : ∀ d s n result last, Sound d → chunkAct d s = .halt n (result, last) → R d s last 0)
    (moves : ∀ d w s e last k, Sound d → QuietMove d w e → R e s last k → R d (w ++ s) last k)
    {d : ChunkedDecoder} {s : Bytes} (position : Nat) (sound : Sound d) (live : d.state ≠ .done) :
    R d s (chunkedFeedLoop d position s).decoder (chunkedFeedLoop d position s).bodyLength := by
  induction size : s.length using Nat.strongRecOn generalizing d position s with
  | ind n ih =>
    subst size
    by_cases empty : s = []
    · subst empty
      exact waits d [] sound
    · by_cases data : d.state = .dataState
      · have taken := span d s position sound data
        cases s with
        | nil => contradiction
        | cons value rest => cases rest <;> simpa [chunkedFeedLoop, data] using taken
      · rw [chunkedFeedLoop_act data live]
        cases act : chunkAct d s with
        | wait => exact waits d s sound
        | move n out e =>
          obtain ⟨w, cut, width, quiet⟩ := chunkAct_quiet data act
          have positive := (chunkAct_move act).1
          have within := (chunkAct_move act).2.1
          have tail := ih (s.drop n).length (by rw [List.length_drop]; omega) (position + n)
            (chunkAct_sound sound act).1 (chunkAct_silent data act).2 rfl
          have whole := moves d w (s.drop n) e _ _ sound quiet tail
          rw [← cut] at whole
          exact whole
        | halt n verdict =>
          obtain ⟨result, last⟩ := verdict
          have halted := halts d s n result last sound act
          by_cases complete : result = .complete
          · simpa only [complete, ↓reduceIte] using halted
          · simpa only [complete, ↓reduceIte, ChunkedFeed.refuse] using halted

/-- What the code keeps on every input: all bounds but the one of the trailer bytes. -/
structure Kept (d : ChunkedDecoder) : Prop where
  sound : Sound d
  line_length : d.line.length ≤ 8191
  trailer_count : d.trailerCount ≤ chunkedMaxTrailers

theorem init_kept : Kept ckHttpChunkedInit :=
  ⟨init_sound, by decide, by decide⟩

theorem takeChunkData_cases {d : ChunkedDecoder} (position available : Nat) (sound : Sound d) :
    ((takeChunkData d position available).decoder = d ∧
      (takeChunkData d position available).bodyLength = 0) ∨
    ∃ take, take ≤ d.chunkRemaining ∧ d.totalDecoded + take ≤ uint64Max ∧
      (takeChunkData d position available).bodyLength = take ∧
      (takeChunkData d position available).decoder = { d with
        chunkRemaining := d.chunkRemaining - take, totalDecoded := d.totalDecoded + take
        state := if d.chunkRemaining - take = 0 then .dataCrlf else .dataState } := by
  have left := sound.remaining_le
  have total := sound.total_le
  have maximum : chunkedMaxBody = uint64Max := rfl
  simp only [takeChunkData]
  generalize count : (if d.chunkRemaining < available then d.chunkRemaining else available) = take
  have small : take ≤ d.chunkRemaining := by
    split at count <;> omega
  by_cases full : d.totalDecoded > chunkedMaxBody ∨ take > chunkedMaxBody - d.totalDecoded
  · rw [if_pos full]
    exact .inl ⟨rfl, rfl⟩
  · have room : d.totalDecoded + take ≤ uint64Max := by omega
    rw [if_neg full, subU64_of_le small left, addU64_of_le room]
    exact .inr ⟨take, small, room, rfl, rfl⟩

theorem takeChunkData_exact {d : ChunkedDecoder} (position available : Nat) (sound : Sound d) :
    (takeChunkData d position available).decoder.totalDecoded =
      d.totalDecoded + (takeChunkData d position available).bodyLength ∧
    (takeChunkData d position available).decoder.chunkRemaining +
      (takeChunkData d position available).bodyLength = d.chunkRemaining := by
  obtain ⟨same, none⟩ | ⟨take, small, -, length, decoder⟩ := takeChunkData_cases position available sound
  · rw [same, none]
    exact ⟨rfl, rfl⟩
  · rw [decoder, length]
    exact ⟨rfl, Nat.sub_add_cancel small⟩

theorem takeChunkData_trailerBytes {d : ChunkedDecoder} (position available : Nat) (sound : Sound d) :
    (takeChunkData d position available).decoder.trailerBytes = d.trailerBytes := by
  obtain ⟨same, -⟩ | ⟨take, -, -, -, decoder⟩ := takeChunkData_cases position available sound
  · rw [same]
  · rw [decoder]

theorem takeChunkData_kept {d : ChunkedDecoder} (position available : Nat) (kept : Kept d)
    (opened : d.state = .dataState) : Kept (takeChunkData d position available).decoder := by
  have sound := kept.sound
  obtain ⟨same, -⟩ | ⟨take, small, room, -, decoder⟩ := takeChunkData_cases position available sound
  · rw [same]
    exact kept
  · have bound := sound.remaining_le
    rw [decoder]
    refine ⟨⟨?_, ?_, ?_, room⟩, kept.line_length, kept.trailer_count⟩
    · dsimp only
      split
      · simp
      · omega
    · intro _
      exact sound.line_clear (.inl opened)
    · dsimp only
      omega

theorem quiet_kept {d e : ChunkedDecoder} {w : Bytes} (kept : Kept d) (quiet : QuietMove d w e) :
    Kept e ∧ e.totalDecoded = d.totalDecoded := by
  obtain ⟨sound, line, count⟩ := kept
  have remaining := sound.remaining_le
  have total := sound.total_le
  cases quiet with
  | sizeByte state notCr notLf room =>
    refine ⟨⟨⟨?_, ?_, remaining, total⟩, ?_, count⟩, rfl⟩
    · simp [appendLine, state]
    · simp [appendLine, state]
    · simp only [appendLine, List.length_append, List.length_singleton]
      omega
  | @sizeEnd size state parsed =>
    refine ⟨⟨⟨?_, fun _ => rfl, parseChunkSize_le parsed, total⟩, Nat.zero_le _, count⟩, rfl⟩
    intro opened
    by_cases zero : size = 0
    · simp [zero] at opened
    · exact Nat.pos_of_ne_zero zero
  | chunkEnd state => exact ⟨⟨⟨by simp, by simp, remaining, total⟩, line, count⟩, rfl⟩
  | trailerByte state notCr notLf room within =>
    refine ⟨⟨⟨?_, ?_, remaining, total⟩, ?_, count⟩, rfl⟩
    · simp [appendTrailer, state]
    · simp [appendTrailer, state]
    · simp only [appendTrailer, List.length_append, List.length_singleton]
      omega
  | trailerEnd state within few field =>
    refine ⟨⟨⟨?_, fun _ => rfl, remaining, total⟩, Nat.zero_le _, few⟩, rfl⟩
    simp [endTrailerLine, state]

theorem halt_kept {d last : ChunkedDecoder} {s : Bytes} {n : Nat} {result : ChunkedResult} (kept : Kept d)
    (act : chunkAct d s = .halt n (result, last)) : Kept last ∧ last.totalDecoded = d.totalDecoded := by
  obtain ⟨sound, line, count⟩ := id kept
  have remaining := sound.remaining_le
  have total := sound.total_le
  rcases chunkAct_halt_cases act with rfl | ⟨state, -, rfl | ⟨-, rfl | rfl⟩⟩
  · exact ⟨kept, rfl⟩
  · exact ⟨⟨⟨by simp [state], by simp [state], remaining, total⟩, line, count⟩, rfl⟩
  · exact ⟨⟨⟨by simp [state], by simp [state], remaining, total⟩, line, count⟩, rfl⟩
  · exact ⟨⟨⟨by simp, by simp, remaining, total⟩, line, count⟩, rfl⟩

theorem feed_kept {d : ChunkedDecoder} (data : Bytes) (kept : Kept d) :
    Kept (ckHttpChunkedFeed d data).decoder ∧
      (ckHttpChunkedFeed d data).decoder.totalDecoded =
        d.totalDecoded + (ckHttpChunkedFeed d data).bodyLength := by
  unfold ckHttpChunkedFeed
  split
  · exact ⟨kept, rfl⟩
  · rename_i live
    refine chunkedFeedLoop_rule (R := fun d _ last k => Kept d → Kept last ∧
      last.totalDecoded = d.totalDecoded + k) ?_ ?_ ?_ ?_ 0 kept.sound live kept
    · intro d s position sound opened kept
      exact ⟨takeChunkData_kept position s.length kept opened, (takeChunkData_exact position s.length sound).1⟩
    · intro d s sound kept
      exact ⟨kept, rfl⟩
    · intro d s n result last sound act kept
      exact halt_kept kept act
    · intro d w s e last k sound quiet ih kept
      obtain ⟨next, same⟩ := quiet_kept kept quiet
      rw [← same]
      exact ih next

theorem ordinary_cons_of {b : UInt8} {w : Bytes} (notCr : b ≠ cr) (notLf : b ≠ lf) (ordinary : Ordinary w) :
    Ordinary (b :: w) := by
  intro x member
  rcases List.mem_cons.mp member with rfl | inside
  · exact ⟨notCr, notLf⟩
  · exact ordinary x inside

theorem trailerRun_cons {count : Nat} {line text : Bytes} {b : UInt8} (notCr : b ≠ cr) (notLf : b ≠ lf)
    (run : TrailerRun count (line ++ [b]) text) : TrailerRun count line (b :: text) := by
  cases run with
  | tail ordinary short =>
    rw [List.length_append, List.length_singleton] at short
    refine .tail (ordinary_cons_of notCr notLf ordinary) ?_
    rw [List.length_cons]
    omega
  | @line _ _ head rest ordinary short field few more =>
    rw [List.length_append, List.length_singleton] at short
    rw [List.append_assoc] at field
    have ended : TrailerRun count line ((b :: head) ++ crlf ++ rest) := by
      refine .line (ordinary_cons_of notCr notLf ordinary) ?_ field few more
      rw [List.length_cons]
      omega
    exact ended

theorem crosses_cons {d e : ChunkedDecoder} {w s : Bytes} (bound : d.line.length ≤ 8191)
    (quiet : QuietMove d w e) (crosses : CrossesLimit e s) : CrossesLimit d (w ++ s) := by
  obtain ⟨front, line, text, rest, rfl, start, run, limit⟩ := crosses
  cases quiet with
  | @sizeByte b state notCr notLf room =>
    cases start with
    | inside now => simp [appendLine, state] at now
    | chunkEnd now => simp [appendLine, state] at now
    | @size line now ordinary short zero =>
      simp only [appendLine, List.length_append, List.length_singleton, List.append_assoc] at short zero
      refine ⟨b :: line ++ crlf, [], text, rest, by simp, .size state ?_ ?_ zero, run, limit⟩
      · exact ordinary_cons_of notCr notLf ordinary
      · rw [List.length_cons]
        omega
  | @sizeEnd size state parsed =>
    cases start with
    | inside now =>
      have zero : size = 0 := by
        by_contra nonzero
        simp [nonzero] at now
      rw [zero] at parsed
      have ended : TrailerStart d ([] ++ crlf) [] :=
        .size state (by simp [Ordinary]) bound (by rw [List.append_nil]; exact parsed)
      exact ⟨crlf, [], text, rest, by simp, ended, run, limit⟩
    | chunkEnd now =>
      split at now <;> cases now
    | size now =>
      split at now <;> cases now
  | chunkEnd state =>
    cases start with
    | inside now => cases now
    | chunkEnd now => cases now
    | @size line now ordinary short zero =>
      exact ⟨crlf ++ line ++ crlf, [], text, rest, by simp, .chunkEnd state ordinary short zero, run, limit⟩
  | @trailerByte b state notCr notLf room within =>
    cases start with
    | size now => simp [appendTrailer, state] at now
    | chunkEnd now => simp [appendTrailer, state] at now
    | inside now =>
      refine ⟨[], d.line, b :: text, rest, by simp, .inside state, ?_, ?_⟩
      · exact trailerRun_cons notCr notLf run
      · simp only [appendTrailer, List.length_singleton] at limit
        rw [List.length_cons]
        omega
  | trailerEnd state within few field =>
    cases start with
    | size now => simp [endTrailerLine, state] at now
    | chunkEnd now => simp [endTrailerLine, state] at now
    | inside now =>
      refine ⟨[], d.line, crlf ++ text, rest, by simp, .inside state, ?_, ?_⟩
      · have ended : TrailerRun d.trailerCount d.line ([] ++ crlf ++ text) :=
          .line (by simp [Ordinary]) bound (by rw [List.append_nil]; exact field) few run
        exact ended
      · simp only [endTrailerLine] at limit
        simp only [List.length_append, crlf, List.length_cons, List.length_nil]
        omega

theorem crosses_here {d : ChunkedDecoder} {rest : Bytes} (state : d.state = .trailers)
    (bound : d.line.length ≤ 8191) (limit : d.trailerBytes + 1 = chunkedMaxTrailerBytes) :
    CrossesLimit d (crlf ++ rest) :=
  ⟨[], d.line, [], rest, by simp, .inside state, .tail (by simp [Ordinary]) bound, by simpa using limit⟩

/-- A feed passes the trailer limit only by a line end at the limit. -/
theorem feed_within {d : ChunkedDecoder} {data : Bytes} (kept : Kept d)
    (within : d.trailerBytes ≤ chunkedMaxTrailerBytes)
    (beyond : chunkedMaxTrailerBytes < (ckHttpChunkedFeed d data).decoder.trailerBytes) :
    CrossesLimit d data := by
  unfold ckHttpChunkedFeed at beyond
  split at beyond
  · have same : d.trailerBytes = (ChunkedFeed.refuse .complete d).decoder.trailerBytes := rfl
    omega
  · rename_i live
    revert kept within beyond
    intro kept
    refine chunkedFeedLoop_rule (R := fun d s last _ => Kept d → d.trailerBytes ≤ chunkedMaxTrailerBytes →
      chunkedMaxTrailerBytes < last.trailerBytes → CrossesLimit d s) ?_ ?_ ?_ ?_ 0 kept.sound live kept
    · intro d s position sound opened kept within beyond
      rw [takeChunkData_trailerBytes position s.length sound] at beyond
      omega
    · intro d s sound kept within beyond
      omega
    · intro d s n result last sound act kept within beyond
      rcases chunkAct_halt_cases act with rfl | ⟨state, below, rfl | ⟨⟨rest, rfl⟩, rfl | rfl⟩⟩
      · omega
      · dsimp only at beyond
        omega
      · dsimp only at beyond
        exact crosses_here state kept.line_length (by omega)
      · dsimp only at beyond
        exact crosses_here state kept.line_length (by omega)
    · intro d w s e last k sound quiet ih kept within beyond
      by_cases still : e.trailerBytes ≤ chunkedMaxTrailerBytes
      · exact crosses_cons kept.line_length quiet (ih (quiet_kept kept quiet).1 still beyond)
      · cases quiet with
        | sizeByte => exact absurd within still
        | sizeEnd => exact absurd within still
        | chunkEnd => exact absurd within still
        | trailerByte state notCr notLf room below =>
          simp only [appendTrailer, List.length_singleton] at still
          omega
        | trailerEnd state below few field =>
          simp only [endTrailerLine] at still
          exact crosses_here state kept.line_length (by omega)

theorem steps_start {d : ChunkedDecoder} {front line : Bytes} (start : TrailerStart d front line) :
    ∃ e, Steps chunkMachine d front [] e ∧ e.state = .trailers ∧ e.line = line ∧
      e.trailerBytes = d.trailerBytes ∧ e.trailerCount = d.trailerCount := by
  have sizeLine {d : ChunkedDecoder} {line : Bytes} (state : d.state = .size) (ordinary : Ordinary line)
      (short : d.line.length + line.length ≤ 8191) (zero : parseChunkSize (d.line ++ line) = some 0) :
      Steps chunkMachine d (line ++ crlf) []
        { d with chunkRemaining := 0, line := [], state := .trailers } := by
    have bytes := steps_sizeBytes state ordinary short
    have act : chunkMachine.act (appendLine d line) crlf =
        .move 2 [] { d with chunkRemaining := 0, line := [], state := .trailers } := by
      simp [chunkMachine, chunkAct, appendLine, state, crlf, finishSizeLine, zero]
    exact steps_trans bytes (steps_one act)
  cases start with
  | inside state => exact ⟨d, Steps.refl d, state, rfl, rfl, rfl⟩
  | size state ordinary short zero => exact ⟨_, sizeLine state ordinary short zero, rfl, rfl, rfl, rfl⟩
  | @chunkEnd line state ordinary short zero =>
    have act : chunkMachine.act d crlf = .move 2 [] { d with state := .size } := by
      simp [chunkMachine, chunkAct, state, crlf]
    have tail := sizeLine (d := { d with state := .size }) rfl ordinary short zero
    have run := steps_trans (steps_one act) tail
    rw [← List.append_assoc] at run
    exact ⟨_, run, rfl, rfl, rfl, rfl⟩

theorem steps_trailerRun {count : Nat} {line text : Bytes} (run : TrailerRun count line text)
    {d : ChunkedDecoder} (state : d.state = .trailers) (held : d.line = line) (counted : d.trailerCount = count)
    (below : d.trailerBytes + text.length < chunkedMaxTrailerBytes) :
    ∃ e, Steps chunkMachine d text [] e ∧ e.state = .trailers ∧
      e.trailerBytes = d.trailerBytes + text.length := by
  induction run generalizing d with
  | tail ordinary short =>
    rw [← held] at short
    exact ⟨_, steps_trailerBytes state ordinary short (by omega), state, rfl⟩
  | @line count line head rest ordinary short field few more ih =>
    subst held counted
    simp only [List.length_append, crlf, List.length_cons, List.length_nil] at below ⊢
    have bytes := steps_trailerBytes state ordinary short (by omega)
    have nonempty : d.line = [] → ¬ head = [] := by
      intro empty bare
      rw [empty, bare] at field
      cases field
    have act : chunkMachine.act (appendTrailer d head) crlf =
        .move 2 [] (endTrailerLine (appendTrailer d head)) := by
      have unspent : ¬ chunkedMaxTrailerBytes ≤ d.trailerBytes + head.length := by omega
      have more : ¬ chunkedMaxTrailers ≤ d.trailerCount := by omega
      simp [chunkMachine, chunkAct, appendTrailer, state, crlf, endTrailerLine, unspent, more, field]
      exact nonempty
    obtain ⟨e, later, inside, total⟩ := ih (d := endTrailerLine (appendTrailer d head)) state rfl rfl (by
      simp only [endTrailerLine, appendTrailer]
      omega)
    refine ⟨e, ?_, inside, ?_⟩
    · have run := steps_trans bytes (steps_trans (steps_one act) later)
      simpa [crlf] using run
    · rw [total]
      simp only [endTrailerLine, appendTrailer]
      omega

theorem loop_at_limit {d : ChunkedDecoder} (position : Nat) (rest : Bytes) (state : d.state = .trailers)
    (limit : d.trailerBytes + 1 = chunkedMaxTrailerBytes) :
    (chunkedFeedLoop d position (cr :: lf :: rest)).decoder.trailerBytes = chunkedMaxTrailerBytes + 1 := by
  have below : ¬ d.trailerBytes ≥ chunkedMaxTrailerBytes := by omega
  rw [chunkedFeedLoop]
  simp only [state, if_neg below, ↓reduceIte, ne_eq, not_true_eq_false]
  split
  · dsimp only
    omega
  · split
    · simp only [ChunkedFeed.refuse]
      omega
    · -- The next byte is refused, but the count stays where it is.
      cases rest with
      | nil =>
        simp only [chunkedFeedLoop, ChunkedFeed.stop]
        omega
      | cons value rest =>
        have spent : d.trailerBytes + 1 + 1 ≥ chunkedMaxTrailerBytes := by omega
        rw [chunkedFeedLoop.eq_def]
        simp only [if_pos spent, ChunkedFeed.refuse]
        omega

theorem feed_crosses {d : ChunkedDecoder} {data : Bytes} (crosses : CrossesLimit d data) :
    (ckHttpChunkedFeed d data).decoder.trailerBytes = chunkedMaxTrailerBytes + 1 := by
  obtain ⟨front, line, text, rest, rfl, start, run, limit⟩ := crosses
  obtain ⟨e, opening, state, held, bytes, count⟩ := steps_start start
  obtain ⟨f, reading, inside, total⟩ := steps_trailerRun run state held count (by omega)
  have live : d.state ≠ .done := by
    cases start with
    | inside state => simp [state]
    | size state => simp [state]
    | chunkEnd state => simp [state]
  have silent : Steps chunkMachine d (front ++ text) [] f := steps_trans opening reading
  rw [ckHttpChunkedFeed, if_neg live, List.append_assoc,
    chunkedFeedLoop_silent silent rfl live]
  exact loop_at_limit _ rest inside (by omega)

theorem steps_done {d e : ChunkedDecoder} {s out : Bytes} (run : Steps chunkMachine d s out e)
    (done : d.state = .done) : e = d := by
  cases run with
  | refl => rfl
  | @move _ mid _ w _ _ _ act _ =>
    rcases w with _ | ⟨value, w⟩
    · cases act
    · simp [chunkMachine, chunkAct, done] at act

theorem feed_exact {d : ChunkedDecoder} (data : Bytes) (kept : Kept d) : ExactCounters d data := by
  obtain ⟨after, total⟩ := feed_kept data kept
  refine ⟨total, after.sound.total_le, ?_⟩
  rintro head rest opened rfl nonempty run state
  have live : d.state ≠ .done := by
    intro done
    rw [steps_done run done, done] at state
    cases state
  have taken : chunkedFeedLoop opened (0 + head.length) rest =
      takeChunkData opened (0 + head.length) rest.length := by
    cases rest with
    | nil => contradiction
    | cons value rest => cases rest <;> simp [chunkedFeedLoop, state]
  rw [ckHttpChunkedFeed, if_neg live, chunkedFeedLoop_silent run rfl live, taken]
  exact (takeChunkData_exact _ _ (steps_sound kept.sound run)).2

theorem decoderAfter_snoc (feeds : List Bytes) (data : Bytes) :
    decoderAfter (feeds ++ [data]) = (ckHttpChunkedFeed (decoderAfter feeds) data).decoder := by
  simp [decoderAfter]

theorem decoderAfter_kept (feeds : List Bytes) : Kept (decoderAfter feeds) := by
  induction feeds using List.reverseRecOn with
  | nil => exact init_kept
  | append_singleton feeds data ih =>
    rw [decoderAfter_snoc]
    exact (feed_kept data ih).1

theorem inBounds_of_kept {d : ChunkedDecoder} (kept : Kept d)
    (within : d.trailerBytes ≤ chunkedMaxTrailerBytes) : InBounds d :=
  ⟨kept.line_length, kept.trailer_count, within, fun opened => Nat.pos_iff_ne_zero.mp (kept.sound.chunk_open opened)⟩

theorem decoderAfter_within {feeds : List Bytes}
    (clear : ∀ before data after, feeds = before ++ data :: after → ¬ CrossesLimit (decoderAfter before) data) :
    (decoderAfter feeds).trailerBytes ≤ chunkedMaxTrailerBytes := by
  induction feeds using List.reverseRecOn with
  | nil => exact Nat.zero_le _
  | append_singleton feeds data ih =>
    have before := ih fun front mid back cut => clear front mid (back ++ [data]) (by rw [cut]; simp)
    rw [decoderAfter_snoc]
    by_contra beyond
    exact clear feeds data [] rfl (feed_within (decoderAfter_kept feeds) before (by omega))

/-- A run of feeds keeps the declared bounds exactly when no slice has a trailer line end at
    the trailer limit. -/
theorem respects_limits_iff (feeds : List Bytes) :
    RespectsLimits feeds ↔ ∀ before data after, feeds = before ++ data :: after →
      ¬ CrossesLimit (decoderAfter before) data := by
  constructor
  · intro respects before data after cut crosses
    have bounds := respects.bounds (before ++ [data]) after (by rw [cut]; simp)
    have beyond := feed_crosses crosses
    rw [← decoderAfter_snoc] at beyond
    have within := bounds.trailer_bytes
    omega
  · intro clear
    refine ⟨?_, ?_⟩
    · rintro before after rfl
      apply inBounds_of_kept (decoderAfter_kept before)
      apply decoderAfter_within
      intro front data back cut
      exact clear front data (back ++ after) (by rw [cut]; simp)
    · intro before data after _
      exact feed_exact data (decoderAfter_kept before)

def fillerField (n : Nat) : Bytes := 97 :: colon :: List.replicate n 120

theorem fillerField_length (n : Nat) : (fillerField n).length = n + 2 := by
  simp [fillerField]

theorem fillerField_ordinary (n : Nat) : Ordinary (fillerField n) := by
  apply ordinary_cons_of (by decide) (by decide)
  apply ordinary_cons_of (by decide) (by decide)
  intro b member
  rw [List.eq_of_mem_replicate member]
  decide

theorem fillerField_valid (n : Nat) : validTrailerField (fillerField n) = true := by
  have first : isTchar 97 = true := by decide
  have plain : forbiddenTrailerByte 120 = false := by decide
  simp [validTrailerField, fillerField, first, plain, colon]

theorem filler_crosses (n m : Nat) (first : n + 2 ≤ 8191) (second : m + 2 ≤ 8191)
    (limit : n + m + 7 = chunkedMaxTrailerBytes) :
    CrossesLimit ckHttpChunkedInit ([48] ++ crlf ++ (fillerField n ++ crlf ++ fillerField m) ++ crlf ++ []) := by
  have ordinary : Ordinary [48] := ordinary_cons_of (by decide) (by decide) (by simp [Ordinary])
  refine ⟨[48] ++ crlf, [], fillerField n ++ crlf ++ fillerField m, [], rfl, ?_, ?_, ?_⟩
  · exact .size rfl ordinary (by decide) (by decide)
  · apply TrailerRun.line (fillerField_ordinary n)
    · rw [fillerField_length]
      simpa using first
    · exact fillerField_valid n
    · decide
    · apply TrailerRun.tail (fillerField_ordinary m)
      rw [fillerField_length]
      simpa using second
  · have start : ckHttpChunkedInit.trailerBytes = 0 := rfl
    simp only [List.length_append, fillerField_length, crlf, List.length_cons, List.length_nil, start]
    omega

theorem crosses_breaks {data : Bytes} (crosses : CrossesLimit ckHttpChunkedInit data) :
    (decoderAfter [data]).trailerBytes = chunkedMaxTrailerBytes + 1 ∧ ¬ RespectsLimits [data] := by
  have counted : (decoderAfter [data]).trailerBytes = chunkedMaxTrailerBytes + 1 := feed_crosses crosses
  refine ⟨counted, ?_⟩
  intro respects
  have within := (respects.bounds [data] [] rfl).trailer_bytes
  omega

/-- A last chunk, a field line of 8191 bytes and one of 8190 in one slice: the second line end
    is counted up to 16385. -/
theorem trailer_limit_crossed :
    (decoderAfter [[48] ++ crlf ++ (fillerField 8189 ++ crlf ++ fillerField 8188) ++ crlf ++ []]).trailerBytes =
      16385 ∧
    ¬ RespectsLimits [[48] ++ crlf ++ (fillerField 8189 ++ crlf ++ fillerField 8188) ++ crlf ++ []] :=
  crosses_breaks (filler_crosses 8189 8188 (by decide) (by decide) (by decide))

end CkartaChunkedBounds
