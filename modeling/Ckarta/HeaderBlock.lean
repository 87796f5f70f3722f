import Ckarta.HttpParser

/-!
A header block as a list of lines. The block is cut at every CRLF; the first line is
the request line and the field lines run to the first empty one. parse_header_block
is a scan of these lines, since a block that ends in CRLF CRLF always has a next line.
-/
namespace CkartaHeaderBlock
open MachineWord CkartaHttpParser

def consHead (b : UInt8) : List Bytes → List Bytes
  | [] => [[b]]
  | line :: lines => (b :: line) :: lines

/-- The pieces of s between its CRLFs, from the left. -/
def crlfLines : Bytes → List Bytes
  | [] => [[]]
  | [b] => [[b]]
  | a :: b :: rest =>
    if a = cr ∧ b = lf then [] :: crlfLines rest else consHead a (crlfLines (b :: rest))

def requestLine (block : Bytes) : Bytes := (crlfLines block).headD []

def sectionLines (rest : Bytes) : List Bytes := (crlfLines rest).takeWhile fun line => !line.isEmpty

def fieldLines (block : Bytes) : List Bytes := (crlfLines block).tail.takeWhile fun line => !line.isEmpty

def lineName (line : Bytes) : Bytes := line.takeWhile fun b => b != colon

def lineField (line : Bytes) : HttpHeader :=
  ⟨lineName line, trimOws (line.drop ((lineName line).length + 1))⟩

def fields (block : Bytes) : List HttpHeader := (fieldLines block).map lineField

def validLine (line : Bytes) : Bool :=
  (lineName line).length != 0 && decide ((lineName line).length < line.length) &&
    decide ((lineName line).length ≤ maxHeaderNameBytes) && (lineName line).all isTchar

def shortValue (line : Bytes) : Bool := decide ((lineField line).value.length ≤ maxHeaderValueBytes)

/-- The scan meets a size limit before it meets a malformed line. -/
def limitHit (count : Nat) : List Bytes → Bool
  | [] => false
  | line :: lines => decide (count ≥ maxHeaders) ||
      (validLine line && (!shortValue line || limitHit (count + 1) lines))

def scanLines : List Bytes → HttpRequest → ParseResult × HttpRequest
  | [], request => (.complete, request)
  | line :: lines, request =>
    if request.headers.length ≥ maxHeaders then (.headerTooLarge, request)
    else if !validLine line then (.badRequest, request)
    else if !shortValue line then (.headerTooLarge, request)
    else scanLines lines { request with headers := request.headers ++ [lineField line] }

theorem crlfLines_nonempty (s : Bytes) : crlfLines s ≠ [] := by
  fun_cases crlfLines s with
  | case1 => simp
  | case2 => simp
  | case3 a b rest ends => simp
  | case4 a b rest ends =>
    cases crlfLines (b :: rest) <;> simp [consHead]

theorem consHead_append {lines : List Bytes} (nonempty : lines ≠ []) (b : UInt8) (more : List Bytes) :
    consHead b (lines ++ more) = consHead b lines ++ more := by
  cases lines with
  | nil => contradiction
  | cons line lines => rfl

theorem crlfLines_cut (s t : Bytes) : crlfLines (s ++ cr :: lf :: t) = crlfLines s ++ crlfLines t := by
  have front : crlfLines (cr :: lf :: t) = [] :: crlfLines t := by
    rw [crlfLines, if_pos ⟨rfl, rfl⟩]
  induction s using crlfLines.induct with
  | case1 => exact front
  | case2 b =>
    have apart : ¬ (b = cr ∧ cr = lf) := by
      rintro ⟨-, same⟩
      exact absurd same (by decide)
    rw [List.cons_append, List.nil_append]
    refine (if_neg apart).trans ?_
    rw [front]
    rfl
  | case3 a b rest ends ih =>
    rw [List.cons_append, List.cons_append, crlfLines, if_pos ends, ih, crlfLines, if_pos ends]
    rfl
  | case4 a b rest ends ih =>
    rw [List.cons_append, List.cons_append, crlfLines, if_neg ends, ← List.cons_append, ih,
      consHead_append (crlfLines_nonempty _), crlfLines, if_neg ends]

theorem crlfLines_single {s : Bytes} (clean : cr ∉ s) : crlfLines s = [s] := by
  induction s using crlfLines.induct with
  | case1 => rfl
  | case2 b => rfl
  | case3 a b rest ends ih => exact absurd (by simp [ends.1]) clean
  | case4 a b rest ends ih =>
    rw [crlfLines, if_neg ends, ih (fun inside => clean (List.mem_cons_of_mem a inside))]
    rfl

theorem findCrlf_lines {s line rest : Bytes} (found : findCrlf s = some (line, rest)) :
    crlfLines s = line :: crlfLines rest := by
  induction s generalizing line with
  | nil => simp [findCrlf] at found
  | cons a s ih =>
    cases s with
    | nil => simp [findCrlf] at found
    | cons b s =>
      rw [findCrlf] at found
      by_cases ends : a = cr ∧ b = lf
      · simp only [List.head?_cons, Option.some.injEq, ends, and_self, ↓reduceIte, List.tail_cons,
          Prod.mk.injEq] at found
        rw [crlfLines, if_pos ends, found.1, found.2]
      · simp only [List.head?_cons, Option.some.injEq, ends, ↓reduceIte, Option.map_eq_some_iff,
          Prod.mk.injEq] at found
        obtain ⟨⟨line', rest'⟩, found, rfl, rfl⟩ := found
        rw [crlfLines, if_neg ends, ih found]
        rfl

theorem findCrlf_length {s line rest : Bytes} (found : findCrlf s = some (line, rest)) :
    rest.length + 2 ≤ s.length := by
  induction s generalizing line with
  | nil => simp [findCrlf] at found
  | cons a s ih =>
    rw [findCrlf] at found
    split at found
    · rename_i ends
      simp only [Option.some.injEq, Prod.mk.injEq] at found
      cases s with
      | nil => simp at ends
      | cons b s =>
        rw [← found.2]
        simp
    · simp only [Option.map_eq_some_iff, Prod.mk.injEq] at found
      obtain ⟨⟨line', rest'⟩, found, -, rfl⟩ := found
      have shorter := ih found
      exact Nat.le_succ_of_le shorter

theorem validLine_iff {line : Bytes} : validLine line = true ↔
    ¬ ((lineName line).length = 0 ∨ (lineName line).length ≥ line.length ∨
      (lineName line).length > maxHeaderNameBytes) ∧ (lineName line).all isTchar = true := by
  simp only [validLine, Bool.and_eq_true, bne_iff_ne, decide_eq_true_eq, not_or, Nat.not_le,
    Nat.not_lt, ne_eq]
  tauto

def Terminated (s : Bytes) : Prop := s = [cr, lf] ∨ ∃ u, s = u ++ crlfCrlf

theorem findCrlf_terminated (u : Bytes) :
    ∃ line rest, findCrlf (u ++ crlfCrlf) = some (line, rest) ∧ Terminated rest := by
  induction u with
  | nil => exact ⟨[], [cr, lf], rfl, .inl rfl⟩
  | cons a u ih =>
    rw [List.cons_append, findCrlf]
    split
    · rename_i ends
      cases u with
      | nil => exact absurd ends.2 (by decide)
      | cons b u => exact ⟨[], u ++ crlfCrlf, rfl, .inr ⟨u, rfl⟩⟩
    · obtain ⟨line, rest, found, left⟩ := ih
      exact ⟨a :: line, rest, by simp [found], left⟩

theorem terminated_of_ends {block : Bytes} (ends : endsHeader block = true) :
    ∃ u, block = u ++ crlfCrlf := by
  simp only [endsHeader, Bool.and_eq_true, decide_eq_true_eq, beq_iff_eq] at ends
  exact ⟨block.take (block.length - 4), by rw [← ends.2, List.take_append_drop]⟩

theorem parseFieldLines_line {fuel : Nat} {rest line left : Bytes} {request : HttpRequest}
    (long : ¬ rest.length ≤ 2) (found : findCrlf rest = some (line, left)) (some : line.length ≠ 0) :
    parseFieldLines (fuel + 1) rest request =
      if request.headers.length ≥ maxHeaders then (.headerTooLarge, request)
      else if !validLine line then (.badRequest, request)
      else if !shortValue line then (.headerTooLarge, request)
      else parseFieldLines fuel left
        { request with headers := request.headers ++ [lineField line] } := by
  have turn : parseFieldLines (fuel + 1) rest request =
      if request.headers.length ≥ maxHeaders then (.headerTooLarge, request)
      else if (lineName line).length = 0 ∨ (lineName line).length ≥ line.length ∨
          (lineName line).length > maxHeaderNameBytes then (.badRequest, request)
      else if ¬ (lineName line).all isTchar then (.badRequest, request)
      else if (lineField line).value.length > maxHeaderValueBytes then (.headerTooLarge, request)
      else parseFieldLines fuel left
        { request with headers := request.headers ++ [lineField line] } := by
    simp only [parseFieldLines, long, ↓reduceIte, found, some]
    rfl
  rw [turn]
  cases valid : validLine line with
  | false =>
    have bad := mt (@validLine_iff line).mpr (by simp [valid])
    by_cases shape : (lineName line).length = 0 ∨ (lineName line).length ≥ line.length ∨
        (lineName line).length > maxHeaderNameBytes
    · rw [if_pos shape]
      simp
    · rw [if_neg shape]
      have names : (lineName line).all isTchar ≠ true := fun h => bad ⟨shape, h⟩
      simp [names]
  | true =>
    obtain ⟨shape, names⟩ := validLine_iff.mp valid
    rw [if_neg shape]
    simp [names, shortValue]

theorem parseFieldLines_eq {fuel : Nat} {rest : Bytes} (request : HttpRequest)
    (left : Terminated rest) (enough : rest.length ≤ fuel) :
    parseFieldLines fuel rest request = scanLines (sectionLines rest) request := by
  induction fuel generalizing rest request with
  | zero => rcases left with rfl | ⟨u, rfl⟩ <;> simp [crlfCrlf] at enough
  | succ fuel ih =>
    rcases left with rfl | ⟨u, rfl⟩
    · have empty : sectionLines [cr, lf] = [] := by decide
      simp [parseFieldLines, empty, scanLines]
    · have long : ¬ (u ++ crlfCrlf).length ≤ 2 := by simp [crlfCrlf]
      obtain ⟨line, rest, found, left⟩ := findCrlf_terminated u
      have lines := findCrlf_lines found
      have shorter := findCrlf_length found
      cases line with
      | nil =>
        simp only [parseFieldLines, long, ↓reduceIte, found]
        simp [sectionLines, lines, scanLines]
      | cons b line =>
        have unfolded : sectionLines (u ++ crlfCrlf) = (b :: line) :: sectionLines rest := by
          simp [sectionLines, lines]
        rw [parseFieldLines_line long found (by simp), unfolded, scanLines, ih _ left (by omega)]

/-- A block is its request line, its field lines and the framing they ask for. -/
theorem parseHeaderBlock_eq {block : Bytes} (ends : endsHeader block = true) :
    parseHeaderBlock block = match parseRequestLine (requestLine block) with
      | none => (.badRequest, .zero)
      | some (method, target, version) =>
        match scanLines (fieldLines block) { HttpRequest.zero with method, target, version } with
        | (.complete, request) => parseFraming request
        | refused => refused := by
  obtain ⟨u, rfl⟩ := terminated_of_ends ends
  obtain ⟨line, rest, found, left⟩ := findCrlf_terminated u
  have lines := findCrlf_lines found
  have first : requestLine (u ++ crlfCrlf) = line := by rw [requestLine, lines, List.headD_cons]
  have others : fieldLines (u ++ crlfCrlf) = sectionLines rest := by
    rw [fieldLines, lines, List.tail_cons, sectionLines]
  rw [first, others]
  cases parsed : parseRequestLine line with
  | none => simp [parseHeaderBlock, found, parsed]
  | some parts =>
    obtain ⟨method, target, version⟩ := parts
    have loop := parseFieldLines_eq { HttpRequest.zero with method, target, version } left
      (Nat.le_refl _)
    cases scanned : scanLines (sectionLines rest) { HttpRequest.zero with method, target, version } with
    | mk result request =>
      rw [scanned] at loop
      dsimp only at loop scanned
      cases result <;> simp [parseHeaderBlock, found, parsed, loop, scanned]

theorem scanLines_complete_iff {lines : List Bytes} {start request : HttpRequest} :
    scanLines lines start = (.complete, request) ↔
      (∀ line ∈ lines, validLine line = true ∧ shortValue line = true) ∧
      (lines = [] ∨ start.headers.length + lines.length ≤ maxHeaders) ∧
      request = { start with headers := start.headers ++ lines.map lineField } := by
  induction lines generalizing start with
  | nil =>
    simp only [scanLines, Prod.mk.injEq, true_and, List.not_mem_nil, false_implies, implies_true,
      true_or, List.map_nil, List.append_nil]
    exact eq_comm
  | cons line lines ih =>
    simp only [scanLines]
    split
    · rename_i full
      simp only [Prod.mk.injEq, reduceCtorEq, false_and, List.length_cons, false_iff, false_or]
      rintro ⟨-, few, -⟩
      omega
    · rename_i room
      cases valid : validLine line <;> cases short : shortValue line <;>
        simp [valid, short, ih, Nat.add_assoc, Nat.add_comm 1]
      intro _ _
      by_cases none : lines = []
      · subst none
        simp
        omega
      · simp [none]

theorem scanLines_tooLarge_iff {lines : List Bytes} {start : HttpRequest} :
    (scanLines lines start).1 = .headerTooLarge ↔ limitHit start.headers.length lines = true := by
  induction lines generalizing start with
  | nil => simp [scanLines, limitHit]
  | cons line lines ih =>
    simp only [scanLines, limitHit]
    split
    · rename_i full
      simp [full]
    · rename_i room
      cases valid : validLine line <;> cases short : shortValue line <;> simp [ih, room]

end CkartaHeaderBlock
