import Ckarta.HeaderGrammar
import Ckarta.HeaderRejection
import Ckarta.ChunkedAcceptance

/-!
Which octets an accepted header can carry. The name check is a strchr over a C string, which
also finds the terminator, and lines are cut at CRLF pairs, so a bare CR or LF stays inside
a line. Both are followed from the check to the accepted request.
-/
namespace CkartaHeaderOctets
open MachineWord CkartaHttpParser CkartaHeaderBlock CkartaHeaderGrammar CkartaHeaderRejection
  CkartaHttpChunked CkartaChunkedGrammar CkartaChunkedAcceptance

/-- Parsers reached from init by feeds of any data. -/
inductive Fed : HttpParser → Prop where
  | fresh : Fed ckHttpParserInit
  | feed {parser : HttpParser} (before : Fed parser) (data : Bytes) (old : HttpRequest) :
      Fed (ckHttpParserFeed parser data old).parser

/-- A feed answered COMPLETE: with all bytes given to the parser up to there. -/
inductive Accepted : Bytes → HttpRequest → Prop where
  | accepted {parser : HttpParser} {data : Bytes} {old : HttpRequest} {fed : ParserFeed}
      (before : Fed parser) (opened : parser.complete = false)
      (answer : ckHttpParserFeed parser data old = fed) (complete : fed.result = .complete) :
      Accepted (parser.buffer ++ data.take fed.consumed) fed.request

def NoEnd (buffer : Bytes) : Prop := ∀ j, endsHeader (buffer.take j) = false

theorem noEnd_push {buffer : Bytes} {b : UInt8} (none : NoEnd buffer)
    (opened : endsHeader (buffer ++ [b]) = false) : NoEnd (buffer ++ [b]) := by
  intro j
  by_cases inside : j ≤ buffer.length
  · rw [List.take_append_of_le_length inside]
    exact none j
  · rw [List.take_of_length_le (by rw [List.length_append, List.length_singleton]; omega)]
    exact opened

inductive LoopAnswer (parser : HttpParser) (position : Nat) (data : Bytes) : ParserFeed → Prop where
  | more {p : HttpParser} {consumed : Nat} {request : HttpRequest} (none : NoEnd p.buffer)
      (opened : p.complete = parser.complete) :
      LoopAnswer parser position data ⟨.incomplete, p, consumed, request⟩
  | block {n : Nat} {b : UInt8} {front : Bytes} {p : HttpParser} {request : HttpRequest}
      (read : data.take n = front ++ [b]) (none : NoEnd (parser.buffer ++ front))
      (ends : endsHeader (parser.buffer ++ data.take n) = true)
      (parsed : parseHeaderBlock (parser.buffer ++ data.take n) = (.complete, request))
      (done : p.complete = true) :
      LoopAnswer parser position data ⟨.complete, p, position + n, request⟩
  | refused {fed : ParserFeed} (bad : fed.result = .badRequest ∨ fed.result = .headerTooLarge) :
      LoopAnswer parser position data fed

theorem parserFeedLoop_answer {parser : HttpParser} {data : Bytes} (request : HttpRequest) (position : Nat)
    (none : NoEnd parser.buffer) :
    LoopAnswer parser position data (parserFeedLoop request parser position data) := by
  induction data generalizing parser position with
  | nil => exact .more none rfl
  | cons b rest ih =>
    rw [parserFeedLoop_cons]
    split
    · exact .refused (.inr rfl)
    · split
      · rename_i ends
        unfold finishHeader
        split
        · rename_i found parsed
          have one : (b :: rest).take 1 = [] ++ [b] := rfl
          refine .block (n := 1) one (by simpa using none) ?_ ?_ rfl
          · rw [one]
            exact ends
          · rw [one]
            exact parsed
        · rename_i result found refused parsed
          cases result with
          | complete => exact absurd rfl refused
          | incomplete => exact absurd parsed (fun same => CkartaInputMachine.parseHeaderBlock_decides same)
          | badRequest => exact .refused (.inl rfl)
          | headerTooLarge => exact .refused (.inr rfl)
      · rename_i opened
        have pushed : NoEnd (parser.push b).buffer := noEnd_push none (Bool.not_eq_true _ ▸ opened)
        have later := ih (position + 1) pushed
        generalize parserFeedLoop request (parser.push b) (position + 1) rest = fed at later
        cases later with
        | more none opened => exact .more none opened
        | @block n last front p found read none ends parsed done =>
          have longer : (b :: rest).take (n + 1) = (b :: front) ++ [last] := by
            rw [List.take_succ_cons, read]
            rfl
          have joined : parser.buffer ++ (b :: rest).take (n + 1) = (parser.push b).buffer ++ rest.take n := by
            simp [HttpParser.push]
          have place : position + 1 + n = position + (n + 1) := by omega
          rw [place]
          refine .block longer (by simpa [HttpParser.push] using none) ?_ ?_ done
          · rw [joined]
            exact ends
          · rw [joined]
            exact parsed
        | refused bad => exact .refused bad

theorem fed_open {parser : HttpParser} (fed : Fed parser) (opened : parser.complete = false) :
    NoEnd parser.buffer ∨ Doomed parser.buffer := by
  induction fed with
  | fresh => exact .inl fun j => by simp [ckHttpParserInit, endsHeader]
  | @feed parser before data old ih =>
    rw [ckHttpParserFeed] at opened ⊢
    by_cases complete : parser.complete = true
    · simp [complete] at opened
    · rw [if_neg complete] at opened ⊢
      rcases ih (Bool.not_eq_true _ ▸ complete) with none | doomed
      · have answer : LoopAnswer parser 0 data _ := parserFeedLoop_answer old 0 none
        generalize found : parserFeedLoop old parser 0 data = last at answer opened ⊢
        cases answer with
        | more none _ => exact .inl none
        | block read none ends parsed done => rw [done] at opened; cases opened
        | refused bad =>
          rw [← found] at bad ⊢
          exact .inr (parserFeedLoop_refuses old parser 0 data bad).1
      · exact .inr (parserFeedLoop_doomed old 0 data doomed).doomed

theorem accepted_block {block : Bytes} {request : HttpRequest} (accepted : Accepted block request) :
    FirstEnd block block.length ∧ parseHeaderBlock block = (.complete, request) := by
  cases accepted with
  | @accepted parser data old fed before opened answer complete =>
    rw [ckHttpParserFeed, if_neg (by simp [opened])] at answer
    rcases fed_open before opened with none | doomed
    · have loop : LoopAnswer parser 0 data _ := parserFeedLoop_answer old 0 none
      rw [answer] at loop
      cases loop with
      | more none opened => cases complete
      | @block n b front p request read none ends parsed done =>
        rw [Nat.zero_add]
        refine ⟨⟨Nat.le_refl _, ?_, ?_⟩, parsed⟩
        · rw [List.take_length]
          exact endsHeader_iff.mp ends
        · intro j below earlier
          have whole : parser.buffer ++ data.take n = (parser.buffer ++ front) ++ [b] := by
            rw [read, List.append_assoc]
          rw [whole] at below earlier
          rw [List.length_append, List.length_singleton] at below
          rw [List.take_append_of_le_length (by omega)] at earlier
          rw [← Bool.not_eq_true] at *
          exact absurd (endsHeader_iff.mpr earlier) (by rw [none j]; simp)
      | refused bad =>
        rw [complete] at bad
        rcases bad with bad | bad <;> cases bad
    · have refuses := (parserFeedLoop_doomed old 0 data doomed).result
      rw [answer] at refuses
      exact absurd complete refuses

structure AcceptedParts (block : Bytes) (request : HttpRequest) : Prop where
  line : RequestLine (requestLine block) request.method request.target request.version
  headers : request.headers = (fieldLines block).map lineField
  fields : ∀ line ∈ fieldLines block, FieldLine line (lineField line)
  lines : crlfLines block = requestLine block :: fieldLines block ++ [[], []]

theorem accepted_parts {block : Bytes} {request : HttpRequest} (accepted : Accepted block request) :
    AcceptedParts block request := by
  obtain ⟨firstEnd, parsed⟩ := accepted_block accepted
  have spans := block_spans firstEnd (by rw [List.take_length, parsed])
  rw [List.take_length, parsed] at spans
  have whole := block_lines firstEnd
  rw [List.take_length] at whole
  obtain ⟨line, lines, cut, request, fields, few⟩ := spans
  rw [whole] at cut
  simp only [List.cons_append, List.cons.injEq, List.append_cancel_right_eq] at cut
  obtain ⟨rfl, rfl⟩ := cut
  obtain ⟨valid, same⟩ := forall_fieldLines.mp fields
  refine ⟨request, same, ?_, whole⟩
  intro line member
  obtain ⟨good, short⟩ := valid line member
  exact fieldLine_iff.mp ⟨good, short, rfl⟩

/-- RFC 9110 tchar: letters, digits and fifteen punctuation characters. -/
def tchar (b : UInt8) : Bool :=
  (48 ≤ b && b ≤ 57) || (65 ≤ b && b ≤ 90) || (97 ≤ b && b ≤ 122) ||
    (ascii "!#$%&'*+-.^_`|~").contains b

/-- is_tchar lets NUL through, the terminator of its search string, and nothing else. -/
theorem isTchar_eq (b : UInt8) : isTchar b = (tchar b || decide (b = 0)) := by
  simp only [isTchar, tchar, strchr, List.contains_append, Bool.or_assoc]
  simp

theorem tchars_iff {name : Bytes} (checked : name.all isTchar = true) :
    name.all tchar = true ↔ (0 : UInt8) ∉ name := by
  simp only [List.all_eq_true, isTchar_eq, Bool.or_eq_true, decide_eq_true_eq] at checked ⊢
  constructor
  · intro tokens nul
    exact absurd (tokens 0 nul) (by decide)
  · intro clean b member
    rcases checked b member with token | nul
    · exact token
    · exact absurd (nul ▸ member) clean

def lineMethod (line : Bytes) : Bytes := line.takeWhile fun b => !isOws b

theorem lineMethod_eq {line method target version : Bytes} (request : RequestLine line method target version) :
    lineMethod line = method := by
  obtain ⟨⟨gap, gap', rfl, some, ows, -, -⟩, -, tchars, -, -, -⟩ := request
  rw [List.append_assoc, List.append_assoc, List.append_assoc]
  exact (cut_while
    (fun x inside => by simp [(isTchar_solid (List.all_eq_true.mp tchars x inside)).1])
    (fun x member => by
      rw [List.head?_append_of_ne_nil _ some] at member
      simp [List.all_eq_true.mp ows x (List.mem_of_mem_head? member)])).1

inductive TrailersOf : Bytes → List Bytes → Prop where
  | lines {text data line : Bytes} {trailers : List Bytes} (chunks : Chunks text data)
      (last : SizeLine line 0) (valid : ∀ trailer ∈ trailers, TrailerLine trailer) :
      TrailersOf (text ++ line ++ crlf ++ trailerText trailers ++ crlf) trailers

theorem trailerName_checked {trailer : Bytes} (line : TrailerLine trailer) :
    (lineName trailer).all isTchar = true := by
  have field := line.field
  simp only [validTrailerField] at field
  split at field
  · cases field
  · split at field
    · cases field
    · rename_i checked
      exact not_not.mp checked

/-- Every octet of the method and of the field names is a tchar. -/
def TokenNames (request : HttpRequest) : Prop :=
  request.method.all tchar = true ∧ ∀ field ∈ request.headers, field.name.all tchar = true

theorem tokenNames_iff {block : Bytes} {request : HttpRequest} (accepted : Accepted block request) :
    TokenNames request ↔ (0 : UInt8) ∉ lineMethod (requestLine block) ∧
      ∀ line ∈ fieldLines block, (0 : UInt8) ∉ lineName line := by
  obtain ⟨line, headers, fields, -⟩ := accepted_parts accepted
  rw [TokenNames, headers, lineMethod_eq line, tchars_iff line.methodBytes]
  apply and_congr_right
  intro _
  simp only [List.mem_map, forall_exists_index, and_imp, forall_apply_eq_imp_iff₂]
  constructor
  · intro tokens line member
    exact (tchars_iff (fields line member).nameBytes).mp (tokens line member)
  · intro clean line member
    exact (tchars_iff (fields line member).nameBytes).mpr (clean line member)

/-- The accepted names are tokens exactly when no NUL stands where a name stands. -/
theorem accepted_names_tokens_iff (block : Bytes) (request : HttpRequest) (s : Bytes) (d : ChunkedDecoder)
    (consumed : Nat) (delivered : Bytes) :
    (Accepted block request →
      (TokenNames request ↔ (0 : UInt8) ∉ lineMethod (requestLine block) ∧
        ∀ line ∈ fieldLines block, (0 : UInt8) ∉ lineName line)) ∧
    (Feeding s d consumed delivered → d.state = .done →
      (∃ trailers, TrailersOf (s.take consumed) trailers) ∧
      ∀ trailers, TrailersOf (s.take consumed) trailers →
        ((∀ trailer ∈ trailers, (lineName trailer).all tchar = true) ↔
          ∀ trailer ∈ trailers, (0 : UInt8) ∉ lineName trailer)) := by
  constructor
  · intro accepted
    exact tokenNames_iff accepted
  · intro feeding done
    constructor
    · have coding := (feeding_done_iff feeding).mp done
      generalize s.take consumed = text at coding
      cases coding with
      | coding chunks sum last few valid within => exact ⟨_, .lines chunks last valid⟩
    · intro trailers lines
      generalize s.take consumed = text at lines
      cases lines with
      | lines chunks last valid =>
        constructor
        · intro tokens trailer member
          exact (tchars_iff (trailerName_checked (valid trailer member))).mp (tokens trailer member)
        · intro clean trailer member
          exact (tchars_iff (trailerName_checked (valid trailer member))).mpr (clean trailer member)

theorem accepted_whole {s : Bytes} {request : HttpRequest}
    (answer : ckHttpParserFeed ckHttpParserInit s .zero = ⟨.complete, ⟨s, true⟩, s.length, request⟩) :
    Accepted s request := by
  have accepted := Accepted.accepted .fresh rfl answer rfl
  simpa [ckHttpParserInit] using accepted

def plainHeader : Bytes := ascii "GET / HTTP/1.1\r\nHost: a\r\n\r\n"

def plainRequest : HttpRequest :=
  ⟨ascii "GET", ascii "/", ascii "HTTP/1.1", [⟨ascii "Host", ascii "a"⟩], .none, 0, 0⟩

def trailerCoding (trailer : Bytes) : Bytes := ascii "0\r\n" ++ trailer ++ ascii "\r\n\r\n"

theorem trailerCoding_lines {trailer : Bytes} (line : TrailerLine trailer) :
    TrailersOf (trailerCoding trailer) [trailer] := by
  have text : trailerCoding trailer = [] ++ ascii "0" ++ crlf ++ trailerText [trailer] ++ crlf := by
    have first : ascii "0\r\n" = ascii "0" ++ crlf := by decide
    have last : ascii "\r\n\r\n" = crlf ++ crlf := by decide
    simp [trailerCoding, trailerText, first, last]
  rw [text]
  apply TrailersOf.lines .nil
  · exact (parseChunkSize_iff (by decide)).mp (by decide)
  · intro trailer member
    rwa [List.mem_singleton.mp member]

theorem trailerCoding_fed {trailer : Bytes} {d : ChunkedDecoder}
    (fed : ckHttpChunkedFeed ckHttpChunkedInit (trailerCoding trailer) =
      ⟨.complete, d, (trailerCoding trailer).length, none, 0⟩) :
    Feeding (trailerCoding trailer) d (trailerCoding trailer).length [] := by
  have whole : ckHttpChunkedFeed ckHttpChunkedInit
      (((trailerCoding trailer).drop 0).take (trailerCoding trailer).length) =
        ⟨.complete, d, (trailerCoding trailer).length, none, 0⟩ := by
    rwa [List.drop_zero, List.take_length]
  have feeding := Feeding.feed .fresh (trailerCoding trailer).length whole (by simp)
  simpa [spanOf] using feeding

def plainTrailer : Bytes := ascii "A: x"

theorem plainHeader_accepted : Accepted plainHeader plainRequest := accepted_whole (by decide +kernel)

theorem accepted_names_tokens_plain :
    (Accepted plainHeader plainRequest ∧ TokenNames plainRequest) ∧
    ∃ d, Feeding (trailerCoding plainTrailer) d (trailerCoding plainTrailer).length [] ∧ d.state = .done ∧
      (lineName plainTrailer).all tchar = true := by
  have feeding : Feeding (trailerCoding plainTrailer) ⟨.done, 0, 0, [], 8, 1⟩ (trailerCoding plainTrailer).length [] :=
    trailerCoding_fed (by decide +kernel)
  have lines : TrailersOf (trailerCoding plainTrailer) [plainTrailer] :=
    trailerCoding_lines ⟨by decide, by unfold CkartaChunkedRejection.Ordinary; decide +kernel, by decide⟩
  rw [← List.take_length (l := trailerCoding plainTrailer)] at lines
  obtain ⟨header, trailer⟩ := accepted_names_tokens_iff plainHeader plainRequest (trailerCoding plainTrailer)
    ⟨.done, 0, 0, [], 8, 1⟩ (trailerCoding plainTrailer).length []
  refine ⟨⟨plainHeader_accepted, (header plainHeader_accepted).mpr (by decide)⟩, _, feeding, rfl, ?_⟩
  exact ((trailer feeding rfl).2 _ lines).mpr (by decide) plainTrailer (by simp)

def nulMethod : Bytes := ascii "G" ++ [0] ++ ascii "T / HTTP/1.1\r\n\r\n"

def nulTrailer : Bytes := ascii "0\r\n" ++ [0] ++ ascii ": x\r\n\r\n"

theorem nulTrailer_eq : nulTrailer = trailerCoding ([0] ++ ascii ": x") := by decide

theorem nul_taken_for_tchar :
    (∃ request, Accepted nulMethod request ∧ ¬ TokenNames request) ∧
    ∃ d trailers, Feeding nulTrailer d nulTrailer.length [] ∧ d.state = .done ∧
      TrailersOf (nulTrailer.take nulTrailer.length) trailers ∧
      ¬ ∀ trailer ∈ trailers, (lineName trailer).all tchar = true := by
  constructor
  · refine ⟨⟨[71, 0, 84], ascii "/", ascii "HTTP/1.1", [], .none, 0, 0⟩, accepted_whole (by decide +kernel), ?_⟩
    rintro ⟨tokens, -⟩
    exact absurd tokens (by decide)
  · rw [List.take_length, nulTrailer_eq]
    exact ⟨⟨.done, 0, 0, [], 8, 1⟩, [[0] ++ ascii ": x"], trailerCoding_fed (by decide +kernel), rfl,
      trailerCoding_lines ⟨by decide, by unfold CkartaChunkedRejection.Ordinary; decide +kernel, by decide⟩,
      by decide +kernel⟩

/-- Every CR is directly followed by LF and every LF directly preceded by CR. -/
def noBare : Bytes → Bool
  | [] => true
  | [a] => a != cr && a != lf
  | a :: b :: rest =>
    if a = cr ∧ b = lf then noBare rest else a != cr && a != lf && noBare (b :: rest)

def Clean (line : Bytes) : Prop := cr ∉ line ∧ lf ∉ line

theorem clean_cons {a : UInt8} {line : Bytes} : Clean (a :: line) ↔ (a ≠ cr ∧ a ≠ lf) ∧ Clean line := by
  simp only [Clean, List.mem_cons, not_or, ne_eq, eq_comm (a := cr), eq_comm (a := lf)]
  tauto

theorem noBare_iff (s : Bytes) : noBare s = true ↔ ∀ line ∈ crlfLines s, Clean line := by
  induction s using crlfLines.induct with
  | case1 => simp [noBare, crlfLines, Clean]
  | case2 b =>
    simp only [noBare, crlfLines, List.mem_singleton, forall_eq, clean_cons, Bool.and_eq_true, bne_iff_ne]
    simp [Clean]
  | case3 a b rest ends ih =>
    rw [noBare, if_pos ends, crlfLines, if_pos ends, ih]
    simp [Clean]
  | case4 a b rest ends ih =>
    rw [noBare, if_neg ends, crlfLines, if_neg ends]
    obtain ⟨line, lines, cut⟩ := List.exists_cons_of_ne_nil (crlfLines_nonempty (b :: rest))
    rw [cut] at ih ⊢
    simp only [Bool.and_eq_true, bne_iff_ne, ih, consHead, List.mem_cons, forall_eq_or_imp, clean_cons, and_assoc]

def lfLines : Bytes → List Bytes
  | [] => [[]]
  | b :: rest => if b = lf then [] :: lfLines rest else consHead b (lfLines rest)

def dropCr : Bytes → Bytes
  | [] => []
  | [b] => if b = cr then [] else [b]
  | a :: b :: rest => a :: dropCr (b :: rest)

def bareFieldLines (block : Bytes) : List Bytes :=
  ((lfLines block).map dropCr).tail.takeWhile fun line => !line.isEmpty

theorem dropCr_consHead {a : UInt8} {lines : List Bytes} (other : a ≠ cr) :
    (consHead a lines).map dropCr = consHead a (lines.map dropCr) := by
  cases lines with
  | nil => simp [consHead, dropCr, other]
  | cons line lines => cases line <;> simp [consHead, dropCr, other]

theorem lfLines_eq {s : Bytes} (clean : ∀ line ∈ crlfLines s, Clean line) :
    (lfLines s).map dropCr = crlfLines s := by
  induction s using crlfLines.induct with
  | case1 => rfl
  | case2 b =>
    simp only [crlfLines, List.mem_singleton, forall_eq, clean_cons] at clean
    simp [lfLines, clean.1.2, crlfLines, consHead, dropCr, clean.1.1]
  | case3 a b rest ends ih =>
    rw [crlfLines, if_pos ends] at clean ⊢
    have later := ih fun line member => clean line (List.mem_cons_of_mem _ member)
    have apart : cr ≠ lf := by decide
    simp [ends.1, ends.2, lfLines, apart, consHead, dropCr, later]
  | case4 a b rest ends ih =>
    rw [crlfLines, if_neg ends] at clean ⊢
    obtain ⟨line, lines, cut⟩ := List.exists_cons_of_ne_nil (crlfLines_nonempty (b :: rest))
    rw [cut] at clean ih ⊢
    simp only [consHead, List.mem_cons, forall_eq_or_imp, clean_cons] at clean
    obtain ⟨⟨⟨notCr, notLf⟩, first⟩, others⟩ := clean
    have later := ih (by
      intro l member
      rcases List.mem_cons.mp member with rfl | member
      · exact first
      · exact others l member)
    rw [lfLines, if_neg notLf, dropCr_consHead notCr, later]

theorem solid_clean {s : Bytes} {p : UInt8 → Bool} (all : s.all p = true) (notCr : p cr = false)
    (notLf : p lf = false) : Clean s := by
  rw [List.all_eq_true] at all
  constructor
  · intro inside
    rw [all cr inside] at notCr
    cases notCr
  · intro inside
    rw [all lf inside] at notLf
    cases notLf

theorem clean_append {a b : Bytes} : Clean (a ++ b) ↔ Clean a ∧ Clean b := by
  simp only [Clean, List.mem_append, not_or]
  tauto

theorem requestLine_clean {line method target version : Bytes}
    (request : RequestLine line method target version) : Clean line := by
  obtain ⟨⟨gap, gap', rfl, -, ows, -, ows'⟩, -, tchars, -, targets, rfl⟩ := request
  simp only [clean_append]
  exact ⟨⟨⟨⟨solid_clean tchars (by decide) (by decide), solid_clean ows (by decide) (by decide)⟩,
    solid_clean targets (by decide) (by decide)⟩, solid_clean ows' (by decide) (by decide)⟩,
    by decide, by decide⟩

def lineText (line : Bytes) : Bytes := line.drop ((lineName line).length + 1)

theorem fieldLine_text {line : Bytes} (field : FieldLine line (lineField line)) :
    line = lineName line ++ colon :: lineText line ∧ Trimmed (lineText line) (lineField line).value := by
  obtain ⟨⟨text, cut, trimmed⟩, -, -, -⟩ := field
  have name : (lineField line).name = lineName line := rfl
  rw [name] at cut
  have tail : lineText line = text := by
    rw [lineText, ← List.drop_drop]
    conv_lhs => arg 2; arg 2; rw [cut]
    rw [List.drop_left]
    rfl
  rw [tail]
  exact ⟨cut, trimmed⟩

theorem trimmed_octet {text value : Bytes} (trimmed : Trimmed text value) {b : UInt8}
    (solid : isOws b = false) : b ∈ text ↔ b ∈ value := by
  obtain ⟨before, after, rfl, ows, ows', -, -⟩ := trimmed
  have outside : ∀ {gap : Bytes}, gap.all isOws = true → b ∉ gap := by
    intro gap all inside
    rw [List.all_eq_true.mp all b inside] at solid
    cases solid
  simp [outside ows, outside ows']

theorem fieldLine_clean {line : Bytes} (field : FieldLine line (lineField line)) :
    Clean line ↔ Clean (lineField line).value := by
  obtain ⟨cut, trimmed⟩ := fieldLine_text field
  have name : Clean (lineName line) := solid_clean field.nameBytes (by decide) (by decide)
  have text : Clean line ↔ Clean (lineText line) := by
    conv_lhs => rw [cut]
    rw [clean_append, clean_cons]
    exact ⟨fun h => h.2.2, fun h => ⟨name, by decide, h⟩⟩
  rw [text, Clean, Clean, trimmed_octet trimmed (by decide), trimmed_octet trimmed (by decide)]

/-- No value hides a line break or a NUL, and reading lines at LF gives the same fields. -/
def PlainValues (block : Bytes) (request : HttpRequest) : Prop :=
  (∀ field ∈ request.headers, cr ∉ field.value ∧ lf ∉ field.value ∧ (0 : UInt8) ∉ field.value) ∧
    bareFieldLines block = fieldLines block

/-- The accepted values are plain exactly when the block has no bare CR or LF and no NUL
    behind the colon of a field line. -/
theorem accepted_values_plain_iff {block : Bytes} {request : HttpRequest}
    (accepted : Accepted block request) :
    PlainValues block request ↔
      noBare block = true ∧ ∀ line ∈ fieldLines block, (0 : UInt8) ∉ lineText line := by
  obtain ⟨line, headers, fields, lines⟩ := accepted_parts accepted
  have empty : Clean [] := by simp [Clean]
  have values : (∀ field ∈ request.headers, cr ∉ field.value ∧ lf ∉ field.value ∧ (0 : UInt8) ∉ field.value) ↔
      noBare block = true ∧ ∀ line ∈ fieldLines block, (0 : UInt8) ∉ lineText line := by
    rw [noBare_iff, lines, headers]
    simp only [List.mem_map, forall_exists_index, and_imp, forall_apply_eq_imp_iff₂, List.cons_append,
      List.mem_cons, List.mem_append, List.not_mem_nil, or_false, or_self]
    constructor
    · intro plain
      constructor
      · rintro l (rfl | member | rfl)
        · exact requestLine_clean line
        · exact (fieldLine_clean (fields l member)).mpr ⟨(plain l member).1, (plain l member).2.1⟩
        · exact empty
      · intro l member
        rw [trimmed_octet (fieldLine_text (fields l member)).2 (by decide)]
        exact (plain l member).2.2
    · rintro ⟨clean, nul⟩ l member
      have value := (fieldLine_clean (fields l member)).mp (clean l (.inr (.inl member)))
      refine ⟨value.1, value.2, ?_⟩
      rw [← trimmed_octet (fieldLine_text (fields l member)).2 (by decide)]
      exact nul l member
  rw [PlainValues, values, and_iff_left_iff_imp]
  rintro ⟨bare, -⟩
  rw [bareFieldLines, lfLines_eq ((noBare_iff block).mp bare), fieldLines]

theorem accepted_values_plain_host : Accepted plainHeader plainRequest ∧ PlainValues plainHeader plainRequest := by
  exact ⟨plainHeader_accepted, (accepted_values_plain_iff plainHeader_accepted).mpr (by decide)⟩

def hiddenLine : Bytes := ascii "GET / HTTP/1.1\r\nA: x\nContent-Length: 5\r\n\r\n"

theorem value_hides_line : ∃ request, Accepted hiddenLine request ∧
    (∃ field ∈ request.headers, lf ∈ field.value) ∧
    bareFieldLines hiddenLine = [ascii "A: x", ascii "Content-Length: 5"] ∧
    ¬ PlainValues hiddenLine request := by
  refine ⟨⟨ascii "GET", ascii "/", ascii "HTTP/1.1", [⟨ascii "A", ascii "x\nContent-Length: 5"⟩], .none, 0, 0⟩,
    accepted_whole (by decide +kernel), by decide +kernel, by decide +kernel, ?_⟩
  rintro ⟨plain, -⟩
  exact absurd (plain ⟨ascii "A", ascii "x\nContent-Length: 5"⟩ (List.mem_singleton.mpr rfl)).2.1
    (by decide +kernel)

end CkartaHeaderOctets
