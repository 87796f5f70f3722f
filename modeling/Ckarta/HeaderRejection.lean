import Ckarta.HeaderBlock

/-!
A header that was refused and is read on. The parser keeps the refused bytes in its
buffer and pushes what comes after them, so a later empty line makes it parse a longer
block. That block has the lines of the first one, and is refused with it.
-/
namespace CkartaHeaderRejection
open MachineWord CkartaHttpParser CkartaHeaderBlock

theorem crlfLines_ended (u more : Bytes) :
    crlfLines (u ++ crlfCrlf ++ more) = crlfLines u ++ [] :: crlfLines more := by
  have shape : u ++ crlfCrlf ++ more = u ++ cr :: lf :: ([] ++ cr :: lf :: more) := by
    simp [crlfCrlf]
  rw [shape, crlfLines_cut, crlfLines_cut]
  rfl

theorem requestLine_append {block : Bytes} (ends : endsHeader block = true) (more : Bytes) :
    requestLine (block ++ more) = requestLine block := by
  obtain ⟨u, rfl⟩ := terminated_of_ends ends
  have alone := crlfLines_ended u []
  rw [List.append_nil] at alone
  simp only [requestLine]
  rw [alone, crlfLines_ended]
  obtain ⟨line, lines, cut⟩ := List.exists_cons_of_ne_nil (crlfLines_nonempty u)
  rw [cut]
  rfl

theorem fieldLines_append {block : Bytes} (ends : endsHeader block = true) (more : Bytes) :
    fieldLines (block ++ more) = fieldLines block := by
  obtain ⟨u, rfl⟩ := terminated_of_ends ends
  have alone := crlfLines_ended u []
  rw [List.append_nil] at alone
  simp only [fieldLines]
  rw [alone, crlfLines_ended]
  obtain ⟨line, lines, cut⟩ := List.exists_cons_of_ne_nil (crlfLines_nonempty u)
  have stops : ∀ rest : List Bytes, (lines ++ [] :: rest).takeWhile (fun line => !line.isEmpty) =
      lines.takeWhile (fun line => !line.isEmpty) := by
    intro rest
    rw [List.takeWhile_append]
    split
    · rename_i whole
      simpa using (List.takeWhile_prefix _).eq_of_length whole |>.symm
    · rfl
  rw [cut, List.cons_append, List.cons_append, List.tail_cons, List.tail_cons, stops, stops]

theorem parseHeaderBlock_append {block more : Bytes} (ends : endsHeader block = true)
    (also : endsHeader (block ++ more) = true) :
    parseHeaderBlock (block ++ more) = parseHeaderBlock block := by
  rw [parseHeaderBlock_eq also, parseHeaderBlock_eq ends, requestLine_append ends,
    fieldLines_append ends]

/-- Header bytes that no bytes behind them can turn into an accepted block. -/
inductive Doomed (buffer : Bytes) : Prop where
  | full (full : maxHeaderBytes ≤ buffer.length) : Doomed buffer
  | refused (block more : Bytes) (cut : buffer = block ++ more) (ends : endsHeader block = true)
      (bad : (parseHeaderBlock block).1 ≠ .complete) : Doomed buffer

theorem doomed_push {buffer : Bytes} (doomed : Doomed buffer) (b : UInt8) : Doomed (buffer ++ [b]) := by
  cases doomed with
  | full full => exact .full (by rw [List.length_append]; omega)
  | refused block more cut ends bad =>
    exact .refused block (more ++ [b]) (by rw [cut, List.append_assoc]) ends bad

theorem doomed_refused {buffer : Bytes} {b : UInt8} (doomed : Doomed buffer)
    (room : ¬ maxHeaderBytes ≤ buffer.length) (ends : endsHeader (buffer ++ [b]) = true) :
    (parseHeaderBlock (buffer ++ [b])).1 ≠ .complete := by
  cases doomed with
  | full full => exact absurd full room
  | refused block more cut first bad =>
    rw [cut, List.append_assoc] at ends ⊢
    rw [parseHeaderBlock_append first ends]
    exact bad

theorem finishHeader_refused (parser : HttpParser) (position : Nat)
    (bad : (parseHeaderBlock parser.buffer).1 ≠ .complete) :
    (finishHeader parser position).result ≠ .complete ∧
      (finishHeader parser position).parser = parser ∧
      (finishHeader parser position).consumed = position := by
  cases parsed : parseHeaderBlock parser.buffer with
  | mk result request =>
    rw [parsed] at bad
    cases result with
    | complete => contradiction
    | incomplete | badRequest | headerTooLarge => simp [finishHeader, parsed]

theorem parserFeedLoop_cons (request : HttpRequest) (parser : HttpParser) (position : Nat) (b : UInt8)
    (rest : Bytes) : parserFeedLoop request parser position (b :: rest) =
      if parser.buffer.length ≥ maxHeaderBytes then ⟨.headerTooLarge, parser, 0, request⟩
      else if endsHeader (parser.push b).buffer then finishHeader (parser.push b) (position + 1)
      else parserFeedLoop request (parser.push b) (position + 1) rest := rfl

structure Refuses (parser : HttpParser) (fed : ParserFeed) (limit : Nat) : Prop where
  result : fed.result ≠ .complete
  doomed : Doomed fed.parser.buffer
  complete : fed.parser.complete = parser.complete
  within : fed.consumed ≤ limit

theorem parserFeedLoop_doomed (request : HttpRequest) {parser : HttpParser} (position : Nat)
    (data : Bytes) (doomed : Doomed parser.buffer) :
    Refuses parser (parserFeedLoop request parser position data) (position + data.length) := by
  induction data generalizing parser position with
  | nil => exact ⟨by simp [parserFeedLoop], doomed, rfl, Nat.le_refl _⟩
  | cons b rest ih =>
    rw [parserFeedLoop_cons]
    split
    · exact ⟨by simp, doomed, rfl, Nat.zero_le _⟩
    · rename_i room
      have pushed : Doomed (parser.push b).buffer := doomed_push doomed b
      split
      · rename_i ends
        obtain ⟨result, same, consumed⟩ := finishHeader_refused (parser.push b)
          (position + 1) (doomed_refused doomed room ends)
        refine ⟨result, by rw [same]; exact pushed, by rw [same]; rfl, ?_⟩
        rw [consumed, List.length_cons]
        omega
      · have fed := ih (position + 1) pushed
        refine ⟨fed.result, fed.doomed, fed.complete, Nat.le_trans fed.within ?_⟩
        rw [List.length_cons]
        omega

theorem parserFeedLoop_refuses (request : HttpRequest) (parser : HttpParser) (position : Nat)
    (data : Bytes)
    (refused : (parserFeedLoop request parser position data).result = .badRequest ∨
      (parserFeedLoop request parser position data).result = .headerTooLarge) :
    Doomed (parserFeedLoop request parser position data).parser.buffer ∧
      (parserFeedLoop request parser position data).parser.complete = parser.complete := by
  induction data generalizing parser position with
  | nil => simp [parserFeedLoop] at refused
  | cons b rest ih =>
    rw [parserFeedLoop_cons] at refused ⊢
    split
    · rename_i full
      exact ⟨.full full, rfl⟩
    · rename_i room
      rw [if_neg room] at refused
      split
      · rename_i ends
        rw [if_pos ends] at refused
        by_cases good : (parseHeaderBlock (parser.push b).buffer).1 = .complete
        · exfalso
          cases parsed : parseHeaderBlock (parser.push b).buffer with
          | mk result request =>
            rw [parsed] at good
            have done : result = .complete := good
            simp [finishHeader, parsed, done] at refused
        · obtain ⟨-, same, -⟩ := finishHeader_refused (parser.push b) (position + 1) good
          rw [same]
          exact ⟨.refused _ [] (by simp) ends good, rfl⟩
      · rename_i ends
        rw [if_neg ends] at refused
        exact ih _ _ refused

end CkartaHeaderRejection
