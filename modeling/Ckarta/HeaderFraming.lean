import Ckarta.HeaderBlock
import Ckarta.FieldLists

/-!
How a header block announces its body. The list-valued fields are read as plain lists
split at commas, and the parser's answer is compared with what these lists say.
-/
namespace CkartaHeaderFraming
open MachineWord CkartaHttpParser CkartaHeaderBlock CkartaFieldLists

/-- The bytes that bring the parser's buffer to its first CRLF CRLF, within the limit. -/
structure HeaderArrives (parser : HttpParser) (head : Bytes) : Prop where
  opened : parser.complete = false
  nonempty : head ≠ []
  ends : endsHeader (parser.buffer ++ head) = true
  first : ∀ k, k < head.length → 0 < k → endsHeader (parser.buffer ++ head.take k) = false
  fits : (parser.buffer ++ head).length ≤ maxHeaderBytes

theorem parserFeedLoop_arrives {parser : HttpParser} {head rest : Bytes} {request : HttpRequest}
    {position : Nat} (arrives : HeaderArrives parser head) :
    parserFeedLoop request parser position (head ++ rest) =
      finishHeader { parser with buffer := parser.buffer ++ head } (position + head.length) := by
  induction head generalizing parser position with
  | nil => exact absurd rfl arrives.nonempty
  | cons b head ih =>
    have fits := arrives.fits
    simp only [List.length_append, List.length_cons] at fits
    have room : ¬ parser.buffer.length ≥ maxHeaderBytes := by omega
    rw [List.cons_append, parserFeedLoop, if_neg room]
    cases head with
    | nil => simp [HttpParser.push, arrives.ends]
    | cons c head =>
      have early : endsHeader (parser.push b).buffer = false := by
        simpa [HttpParser.push] using arrives.first 1 (by simp) (by simp)
      have later : HeaderArrives (parser.push b) (c :: head) := by
        refine ⟨arrives.opened, by simp, by simpa [HttpParser.push] using arrives.ends, ?_, ?_⟩
        · intro k within positive
          simpa [HttpParser.push] using arrives.first (k + 1) (by simpa using within) (by omega)
        · simp only [HttpParser.push, List.length_append, List.length_cons, List.length_nil] at fits ⊢
          omega
      simp only [early, Bool.false_eq_true, ↓reduceIte]
      rw [ih later]
      simp [HttpParser.push, Nat.add_assoc, Nat.add_comm 1]

theorem feed_arrives {parser : HttpParser} {head rest : Bytes} {request : HttpRequest}
    (arrives : HeaderArrives parser head) :
    ckHttpParserFeed parser (head ++ rest) request =
      finishHeader { parser with buffer := parser.buffer ++ head } head.length := by
  rw [ckHttpParserFeed, if_neg (by simp [arrives.opened]), parserFeedLoop_arrives arrives,
    Nat.zero_add]

theorem feed_result {parser : HttpParser} {head : Bytes} (rest : Bytes) (request : HttpRequest)
    (arrives : HeaderArrives parser head) :
    ((ckHttpParserFeed parser (head ++ rest) request).result,
      (ckHttpParserFeed parser (head ++ rest) request).request) =
      parseHeaderBlock (parser.buffer ++ head) := by
  rw [feed_arrives arrives, finishHeader]
  dsimp only
  generalize parseHeaderBlock (parser.buffer ++ head) = answer
  obtain ⟨result, request⟩ := answer
  cases result <;> rfl

def lengthFields (fs : List HttpHeader) : List HttpHeader := named "Content-Length" fs

def codingFields (fs : List HttpHeader) : List HttpHeader := named "Transfer-Encoding" fs

def elements (field : HttpHeader) : List Bytes := field.value.splitOn comma

def reached (fs : List HttpHeader) : List Bytes := fs.flatMap fun field => visited field.value

/-- The loop's blind spot: no element is handed over after a final comma. -/
def OpenEnded (field : HttpHeader) : Prop := field.value = [] ∨ field.value.getLast? = some comma

theorem splitOn_last_empty (value : Bytes) :
    (value.splitOn comma).getLast? = some [] ↔ value = [] ∨ value.getLast? = some comma := by
  induction size : value.length using Nat.strongRecOn generalizing value with
  | ind n ih =>
    subst size
    rcases first_element value with whole | ⟨e, rest, whole, rfl⟩
    · rw [List.splitOn_eq_singleton whole]
      simp only [List.getLast?_singleton, Option.some.injEq]
      constructor
      · exact .inl
      · rintro (empty | last)
        · exact empty
        · exact absurd (List.mem_of_getLast? last) whole
    · obtain ⟨first, more, split⟩ := List.exists_cons_of_ne_nil (List.splitOn_ne_nil comma rest)
      have tail := ih rest.length (by simp; omega) rest rfl
      rw [List.splitOn_append_cons_self_of_not_mem whole]
      rw [split] at tail ⊢
      rw [List.getLast?_cons_cons, tail]
      cases rest with
      | nil => simp
      | cons b rest => simp [List.getLast?_append, List.getLast?_cons_cons]

theorem visited_elements {field : HttpHeader} (closed : ¬ OpenEnded field) :
    visited field.value = elements field := by
  simp only [visited, elements]
  rw [if_neg (mt (splitOn_last_empty _).mp closed)]

theorem empty_element {field : HttpHeader} (open_ : OpenEnded field) : [] ∈ elements field :=
  List.mem_of_getLast? ((splitOn_last_empty _).mpr open_)

theorem trim_skips (e : Bytes) : trimOws (e.dropWhile isOws) = trimOws e := by
  simp only [trimOws]
  rw [List.dropWhile_idempotent]

theorem fold_reached {σ : Type} (step : σ → Bytes → Option σ) (fs : List HttpHeader) (acc : σ) :
    fs.foldlM (fun acc field => (visited field.value).foldlM step acc) acc =
      (reached fs).foldlM step acc := by
  induction fs generalizing acc with
  | nil => simp [reached]
  | cons field fs ih =>
    simp only [List.foldlM_cons, reached, List.flatMap_cons, List.foldlM_append]
    congr 1
    funext acc
    exact ih acc

def lengthStep (acc : Nat × Bool) (e : Bytes) : Option (Nat × Bool) :=
  contentLengthItem acc (e.dropWhile isOws)

theorem lengthStep_found {n : Nat} {found : Nat × Bool} (items : List Bytes) :
    items.foldlM lengthStep (n, true) = some found ↔
      found = (n, true) ∧ ∀ e ∈ items, Numeral (trimOws e) n := by
  induction items with
  | nil => simp [eq_comm]
  | cons e items ih =>
    simp only [List.foldlM_cons, Option.bind_eq_bind, Option.bind_eq_some_iff, List.forall_mem_cons]
    have step : ∀ next, lengthStep (n, true) e = some next ↔
        next = (n, true) ∧ Numeral (trimOws e) n := by
      intro next
      rw [← parseUint64_iff]
      simp only [lengthStep, contentLengthItem, trim_skips]
      split
      · rename_i refused
        simp [refused]
      · rename_i parsed numeral
        rw [numeral]
        by_cases same : n = parsed
        · simp [same, eq_comm]
        · simp [same, eq_comm]
    constructor
    · rintro ⟨next, first, rest⟩
      obtain ⟨rfl, numeral⟩ := (step next).mp first
      exact ⟨(ih.mp rest).1, numeral, (ih.mp rest).2⟩
    · rintro ⟨rfl, numeral, rest⟩
      exact ⟨(n, true), (step _).mpr ⟨rfl, numeral⟩, ih.mpr ⟨rfl, rest⟩⟩

theorem parseContentLengthHeaders_iff {fs : List HttpHeader} {n : Nat} {found : Bool} :
    parseContentLengthHeaders fs = some (n, found) ↔
      (reached (lengthFields fs) = [] ∧ n = 0 ∧ found = false) ∨
      (reached (lengthFields fs) ≠ [] ∧ found = true ∧
        ∀ e ∈ reached (lengthFields fs), Numeral (trimOws e) n) := by
  have fold : parseContentLengthHeaders fs =
      (reached (lengthFields fs)).foldlM lengthStep (0, false) := by
    rw [parseContentLengthHeaders, scanHeaders_eq, ← fold_reached]
    rfl
  rw [fold]
  generalize reached (lengthFields fs) = all
  cases all with
  | nil => simp [eq_comm]
  | cons e items =>
    simp only [List.foldlM_cons, Option.bind_eq_bind, Option.bind_eq_some_iff, reduceCtorEq,
      false_and, ne_eq, not_false_eq_true, true_and, false_or, List.forall_mem_cons]
    have step : ∀ next, lengthStep (0, false) e = some next ↔
        ∃ m, next = (m, true) ∧ Numeral (trimOws e) m := by
      intro next
      simp only [← parseUint64_iff, lengthStep, contentLengthItem, trim_skips]
      split
      · rename_i refused
        simp [refused]
      · rename_i parsed numeral
        simp [numeral, eq_comm]
    constructor
    · rintro ⟨next, first, rest⟩
      obtain ⟨m, rfl, numeral⟩ := (step next).mp first
      obtain ⟨same, others⟩ := (lengthStep_found items).mp rest
      simp only [Prod.mk.injEq] at same
      rw [same.1]
      exact ⟨same.2, numeral, others⟩
    · rintro ⟨rfl, numeral, rest⟩
      exact ⟨(n, true), (step _).mpr ⟨n, rfl, numeral⟩, (lengthStep_found items).mpr ⟨rfl, rest⟩⟩

def isChunked (e : Bytes) : Bool := spanEqualCi (trimOws e) "chunked"

def codingStep (acc : Bool × Bool) (e : Bytes) : Option (Bool × Bool) :=
  transferEncodingItem acc (e.dropWhile isOws)

theorem codingStep_eq (acc : Bool × Bool) (e : Bytes) :
    codingStep acc e = if isChunked e then some (acc.1, true) else none := by
  simp only [codingStep, transferEncodingItem, trim_skips, isChunked]
  by_cases empty : (e.dropWhile isOws).length = 0
  · have trimmed : trimOws e = [] := by
      rw [← trim_skips, List.length_eq_zero_iff.mp empty]
      rfl
    have other : spanEqualCi [] "chunked" = false := by decide
    simp [empty, trimmed, other]
  · by_cases good : spanEqualCi (trimOws e) "chunked" = true
    · simp [empty, good]
    · simp [empty, good]

theorem codingFold_eq (items : List Bytes) (acc : Bool × Bool) :
    items.foldlM codingStep acc =
      if items.all isChunked then some (acc.1, acc.2 || !items.isEmpty) else none := by
  induction items generalizing acc with
  | nil => simp
  | cons e items ih =>
    simp only [List.foldlM_cons, codingStep_eq, List.all_cons]
    by_cases good : isChunked e = true
    · simp [good, ih]
    · simp [good]

theorem parseTransferEncodingHeaders_eq (fs : List HttpHeader) :
    parseTransferEncodingHeaders fs =
      if (reached (codingFields fs)).all isChunked then
        some (!(codingFields fs).isEmpty, !(reached (codingFields fs)).isEmpty)
      else none := by
  have fold : ∀ (fields : List HttpHeader) (acc : Bool × Bool),
      fields.foldlM (fun acc field =>
        (visited field.value).foldlM codingStep (true, acc.2)) acc =
      if (reached fields).all isChunked then
        some (acc.1 || !fields.isEmpty, acc.2 || !(reached fields).isEmpty)
      else none := by
    intro fields
    induction fields with
    | nil => simp [reached]
    | cons field fields ih =>
      intro acc
      have unfolded : reached (field :: fields) = visited field.value ++ reached fields := by
        simp [reached]
      rw [List.foldlM_cons, codingFold_eq, unfolded, List.all_append]
      by_cases all : (visited field.value).all isChunked = true
      · rw [if_pos all, Option.bind_eq_bind, Option.bind_some, ih, all, Bool.true_and]
        cases visited field.value <;> simp
      · simp [all]
  rw [parseTransferEncodingHeaders, scanHeaders_eq]
  refine (fold (codingFields fs) (false, false)).trans ?_
  simp only [Bool.false_or]

theorem complete_framing {block : Bytes} {request : HttpRequest} (ends : endsHeader block = true)
    (h : parseHeaderBlock block = (.complete, request)) :
    ∃ start : HttpRequest, start.headers = fields block ∧
      parseFraming start = (.complete, request) := by
  rw [parseHeaderBlock_eq ends] at h
  split at h
  · simp at h
  · rename_i method target version _
    split at h
    · rename_i start scanned
      have headers := (scanLines_complete_iff.mp scanned).2.2
      refine ⟨start, ?_, h⟩
      rw [headers]
      simp [HttpRequest.zero, fields]
    · rename_i refused
      exact absurd h (refused request)

theorem parseFraming_complete {start request : HttpRequest}
    (h : parseFraming start = (.complete, request)) :
    ∃ n found close, parseContentLengthHeaders start.headers = some (n, found) ∧
      (reached (codingFields start.headers)).all isChunked = true ∧
      applyFraming start (n, found)
        (!(codingFields start.headers).isEmpty, !(reached (codingFields start.headers)).isEmpty)
        close = (.complete, request) := by
  simp only [parseFraming, parseTransferEncodingHeaders_eq] at h
  split at h
  · simp at h
  · rename_i lengths read
    by_cases all : (reached (codingFields start.headers)).all isChunked = true
    · rw [if_pos all] at h
      dsimp only at h
      split at h
      · simp at h
      · rename_i close _
        exact ⟨lengths.1, lengths.2, close, read, all, h⟩
    · rw [if_neg all] at h
      simp at h

/-- What Content-Length says about the body: with no Transfer-Encoding the counted mode
    is used exactly when the field occurs, and all listed elements are numerals of the
    one length. -/
def LengthFramingExact (fs : List HttpHeader) (request : HttpRequest) : Prop :=
  (codingFields fs = [] →
    (request.bodyMode = .contentLength ↔ lengthFields fs ≠ []) ∧
    (lengthFields fs ≠ [] → ∀ field ∈ lengthFields fs, ∀ e ∈ elements field,
      Numeral (trimOws e) request.contentLength)) ∧
  ∃ n, ∀ field ∈ lengthFields fs, ∀ e ∈ elements field, Numeral (trimOws e) n

theorem numeral_nonempty {n : Nat} : ¬ Numeral (trimOws []) n := fun h => h.1 rfl

theorem closed_of_numerals {fs : List HttpHeader} {n : Nat}
    (all : ∀ field ∈ fs, ∀ e ∈ elements field, Numeral (trimOws e) n) :
    ∀ field ∈ fs, ¬ OpenEnded field := by
  intro field member open_
  exact numeral_nonempty (all field member [] (empty_element open_))

theorem reached_closed {fs : List HttpHeader} (closed : ∀ field ∈ fs, ¬ OpenEnded field) :
    reached fs = fs.flatMap elements := by
  simp only [reached, List.flatMap]
  rw [List.map_congr_left fun field member => visited_elements (closed field member)]

theorem reached_nonempty {fs : List HttpHeader} (closed : ∀ field ∈ fs, ¬ OpenEnded field)
    (some : fs ≠ []) : reached fs ≠ [] := by
  obtain ⟨field, fs, rfl⟩ := List.exists_cons_of_ne_nil some
  rw [reached_closed closed, List.flatMap_cons]
  intro empty
  exact List.splitOn_ne_nil comma field.value (List.append_eq_nil_iff.mp empty).1

theorem reached_nil : reached [] = [] := rfl

theorem lengthFraming_of_closed {start request : HttpRequest}
    (framed : parseFraming start = (.complete, request))
    (closed : ∀ field ∈ lengthFields start.headers, ¬ OpenEnded field) :
    LengthFramingExact start.headers request := by
  obtain ⟨n, found, close, lengths, -, applied⟩ := parseFraming_complete framed
  have all := reached_closed closed
  rcases parseContentLengthHeaders_iff.mp lengths with ⟨none, rfl, rfl⟩ | ⟨some, rfl, numerals⟩
  · have absent : lengthFields start.headers = [] := by
      by_contra present
      exact reached_nonempty closed present none
    refine ⟨fun plain => ⟨?_, fun present => absurd absent present⟩, 0, by simp [absent]⟩
    simp only [applyFraming, plain, List.isEmpty_nil, Bool.not_true, Bool.false_eq_true,
      ↓reduceIte, Prod.mk.injEq, true_and] at applied
    simp [← applied, absent]
  · have present : lengthFields start.headers ≠ [] := by
      intro absent
      rw [absent] at some
      exact some reached_nil
    have listed : ∀ field ∈ lengthFields start.headers, ∀ e ∈ elements field,
        Numeral (trimOws e) n := by
      intro field member e listed
      refine numerals e ?_
      rw [all]
      exact List.mem_flatMap.mpr ⟨field, member, listed⟩
    refine ⟨fun plain => ?_, n, listed⟩
    simp only [applyFraming, plain, List.isEmpty_nil, Bool.not_true, Bool.false_eq_true,
      ↓reduceIte, Prod.mk.injEq, true_and] at applied
    rw [← applied]
    exact ⟨by simp [present], fun _ => listed⟩

/-- On every block the parser completes, Content-Length framing is exact if and only if
    no Content-Length value is empty or ends in a comma. -/
theorem content_length_exact_iff (parser : HttpParser) (head rest : Bytes) (request : HttpRequest)
    (arrives : HeaderArrives parser head)
    (complete : (ckHttpParserFeed parser (head ++ rest) request).result = .complete) :
    LengthFramingExact (fields (parser.buffer ++ head))
        (ckHttpParserFeed parser (head ++ rest) request).request ↔
      ∀ field ∈ lengthFields (fields (parser.buffer ++ head)),
        field.value ≠ [] ∧ field.value.getLast? ≠ some comma := by
  have answer := feed_result rest request arrives
  rw [complete] at answer
  obtain ⟨start, headers, framed⟩ := complete_framing arrives.ends answer.symm
  rw [← headers]
  simp only [← not_or]
  constructor
  · intro framing
    obtain ⟨n, numerals⟩ := framing.2
    exact closed_of_numerals numerals
  · exact lengthFraming_of_closed framed

theorem content_length_exact_iff_five :
    HeaderArrives ckHttpParserInit (ascii "POST / HTTP/1.1\r\nContent-Length: 5, 05\r\n\r\n") ∧
    LengthFramingExact
      (fields (ascii "POST / HTTP/1.1\r\nContent-Length: 5, 05\r\n\r\n"))
      (ckHttpParserFeed ckHttpParserInit
        (ascii "POST / HTTP/1.1\r\nContent-Length: 5, 05\r\n\r\n" ++ ascii "hello") .zero).request := by
  have arrives : HeaderArrives ckHttpParserInit
      (ascii "POST / HTTP/1.1\r\nContent-Length: 5, 05\r\n\r\n") :=
    ⟨rfl, by decide, by decide, by decide, by decide⟩
  refine ⟨arrives, (content_length_exact_iff _ _ (ascii "hello") .zero arrives ?_).mpr ?_⟩
  · decide
  · decide

/-- An empty value is accepted, and the request is taken to have no body. -/
theorem empty_content_length_accepted :
    HeaderArrives ckHttpParserInit (ascii "POST / HTTP/1.1\r\nContent-Length:\r\n\r\n") ∧
    (ckHttpParserFeed ckHttpParserInit
      (ascii "POST / HTTP/1.1\r\nContent-Length:\r\n\r\n") .zero).result = .complete ∧
    (ckHttpParserFeed ckHttpParserInit
      (ascii "POST / HTTP/1.1\r\nContent-Length:\r\n\r\n") .zero).request.bodyMode = .none ∧
    ¬ LengthFramingExact (fields (ascii "POST / HTTP/1.1\r\nContent-Length:\r\n\r\n"))
      (ckHttpParserFeed ckHttpParserInit
        (ascii "POST / HTTP/1.1\r\nContent-Length:\r\n\r\n") .zero).request := by
  refine ⟨⟨rfl, by decide, by decide, by decide, by decide⟩,
    by decide, by decide, ?_⟩
  rintro ⟨-, n, numerals⟩
  exact closed_of_numerals numerals ⟨ascii "Content-Length", []⟩ (by decide) (.inl rfl)

def codings (fs : List HttpHeader) : List Bytes :=
  (codingFields fs).flatMap fun field => (elements field).map trimOws

def SingleChunked (fs : List HttpHeader) : Prop :=
  ∃ coding, codings fs = [coding] ∧ spanEqualCi coding "chunked" = true

/-- What Transfer-Encoding says about the body: the one coding chunked, or a bad request. -/
def TransferFramingExact (fs : List HttpHeader) (result : ParseResult) (request : HttpRequest) :
    Prop :=
  codingFields fs ≠ [] →
    (result = .complete → SingleChunked fs ∧ request.bodyMode = .chunked ∧
      request.contentLength = 0 ∧ request.connectionCloseRequired = 1) ∧
    (¬ SingleChunked fs → result = .badRequest)

/-- Chunked is all that is listed, once empty values and what follows a final comma are
    left out. -/
def ChunkedOnly (fs : List HttpHeader) : Prop :=
  reached (codingFields fs) ≠ [] ∧ ∀ e ∈ reached (codingFields fs), isChunked e = true

/-- What must not go along with a list other than the single coding: a size limit met in
    the fields, or a block that is sound apart from a list of chunked only. -/
def ListRefused (block : Bytes) : Prop :=
  limitHit 0 (fieldLines block) = false ∧
  ((∀ line ∈ fieldLines block, validLine line = true) →
    parseContentLengthHeaders (fields block) ≠ none →
    parseConnectionHeaders (fields block) ≠ none → ¬ ChunkedOnly (fields block))

theorem scanLines_bad {lines : List Bytes} {start : HttpRequest}
    (bad : (scanLines lines start).1 = .badRequest) : ∃ line ∈ lines, validLine line = false := by
  induction lines generalizing start with
  | nil => simp [scanLines] at bad
  | cons line lines ih =>
    simp only [scanLines] at bad
    split at bad
    · simp at bad
    · split at bad
      · rename_i invalid
        exact ⟨line, by simp, by simpa using invalid⟩
      · split at bad
        · simp at bad
        · obtain ⟨line', member, invalid⟩ := ih bad
          exact ⟨line', List.mem_cons_of_mem _ member, invalid⟩

theorem scanLines_decides {lines : List Bytes} {start : HttpRequest} :
    (scanLines lines start).1 ≠ .incomplete := by
  induction lines generalizing start with
  | nil => simp [scanLines]
  | cons line lines ih =>
    simp only [scanLines]
    repeat' split
    all_goals first | exact ih | simp

theorem transferFraming_answer (start : HttpRequest) (present : codingFields start.headers ≠ []) :
    ((parseFraming start).1 = .complete ∧ ChunkedOnly start.headers ∧
      parseContentLengthHeaders start.headers ≠ none ∧
      parseConnectionHeaders start.headers ≠ none ∧ (parseFraming start).2.bodyMode = .chunked ∧
      (parseFraming start).2.contentLength = 0 ∧
      (parseFraming start).2.connectionCloseRequired = 1) ∨
    ((parseFraming start).1 = .badRequest ∧
      (parseContentLengthHeaders start.headers ≠ none →
        parseConnectionHeaders start.headers ≠ none → ¬ ChunkedOnly start.headers)) := by
  have listed : (codingFields start.headers).isEmpty = false := by simpa using present
  simp only [parseFraming, parseTransferEncodingHeaders_eq]
  cases lengths : parseContentLengthHeaders start.headers with
  | none => simp
  | some contentLength =>
    by_cases all : (reached (codingFields start.headers)).all isChunked = true
    · rw [if_pos all]
      cases connection : parseConnectionHeaders start.headers with
      | none => simp
      | some close =>
        cases items : (reached (codingFields start.headers)).isEmpty with
        | true =>
          refine .inr ⟨by simp [applyFraming, listed], fun _ _ only => ?_⟩
          exact only.1 (by simpa using items)
        | false =>
          refine .inl ⟨by simp [applyFraming, listed], ⟨by simpa using items, by simpa using all⟩,
            by simp, by simp, by simp [applyFraming, listed], by simp [applyFraming, listed],
            by simp [applyFraming, listed]⟩
    · rw [if_neg all]
      refine .inr ⟨rfl, fun _ _ only => all ?_⟩
      simpa using only.2

/-- Transfer-Encoding framing is exact on a block if and only if, whenever its list is not
    the single coding and its request line is sound, the list is refused as bad. -/
theorem transferFraming_iff {block : Bytes} (ends : endsHeader block = true) :
    TransferFramingExact (fields block) (parseHeaderBlock block).1 (parseHeaderBlock block).2 ↔
      (codingFields (fields block) ≠ [] → ¬ SingleChunked (fields block) →
        parseRequestLine (requestLine block) ≠ none → ListRefused block) := by
  simp only [TransferFramingExact]
  refine imp_congr_right fun present => ?_
  rw [parseHeaderBlock_eq ends]
  cases line : parseRequestLine (requestLine block) with
  | none => simp
  | some parts =>
    obtain ⟨method, target, version⟩ := parts
    simp only [ne_eq, reduceCtorEq, not_false_eq_true, true_implies]
    generalize same : { HttpRequest.zero with method, target, version } = start
    have empty : start.headers = [] := by rw [← same]; rfl
    cases scanned : scanLines (fieldLines block) start with
    | mk result request =>
      have limit := @scanLines_tooLarge_iff (fieldLines block) start
      rw [scanned, empty] at limit
      cases result with
      | incomplete => exact absurd (congrArg Prod.fst scanned) scanLines_decides
      | headerTooLarge =>
        have hit : limitHit 0 (fieldLines block) = true := limit.mp rfl
        simp [ListRefused, hit]
      | badRequest =>
        have clear : limitHit 0 (fieldLines block) = false := by
          rw [← Bool.not_eq_true]
          exact fun hit => by simpa using limit.mpr hit
        obtain ⟨wrong, member, invalid⟩ := scanLines_bad (congrArg Prod.fst scanned)
        have refused : ListRefused block := by
          refine ⟨clear, fun valid => ?_⟩
          have := valid wrong member
          simp [invalid] at this
        simp [refused]
      | complete =>
        have clear : limitHit 0 (fieldLines block) = false := by
          rw [← Bool.not_eq_true]
          exact fun hit => by simpa using limit.mpr hit
        obtain ⟨valid, -, rfl⟩ := scanLines_complete_iff.mp scanned
        have headers : start.headers ++ (fieldLines block).map lineField = fields block := by
          simp [empty, fields]
        rw [headers]
        dsimp only
        rcases transferFraming_answer { start with headers := fields block } present with
          ⟨result, only, lengths, connection, mode, length, close⟩ | ⟨result, refuses⟩
        · rw [result, mode, length, close]
          simp only [and_self, and_true, forall_const, reduceCtorEq, imp_false, not_not]
          constructor
          · exact fun single other => absurd single other
          · intro refused
            by_contra other
            exact (refused other).2 (fun line member => (valid line member).1) lengths connection only
        · rw [result]
          have refused : ListRefused block := ⟨clear, fun _ => refuses⟩
          simp [refused]

/-- The same about a feed of the bytes that end the header. -/
theorem transfer_encoding_exact_iff (parser : HttpParser) (head rest : Bytes) (request : HttpRequest)
    (arrives : HeaderArrives parser head) :
    TransferFramingExact (fields (parser.buffer ++ head))
        (ckHttpParserFeed parser (head ++ rest) request).result
        (ckHttpParserFeed parser (head ++ rest) request).request ↔
      (codingFields (fields (parser.buffer ++ head)) ≠ [] →
        ¬ SingleChunked (fields (parser.buffer ++ head)) →
        parseRequestLine (requestLine (parser.buffer ++ head)) ≠ none →
        ListRefused (parser.buffer ++ head)) := by
  have answer := feed_result rest request arrives
  rw [show (ckHttpParserFeed parser (head ++ rest) request).result =
      (parseHeaderBlock (parser.buffer ++ head)).1 from congrArg Prod.fst answer,
    show (ckHttpParserFeed parser (head ++ rest) request).request =
      (parseHeaderBlock (parser.buffer ++ head)).2 from congrArg Prod.snd answer]
  exact transferFraming_iff arrives.ends

theorem transfer_encoding_exact_iff_gzip :
    HeaderArrives ckHttpParserInit (ascii "POST / HTTP/1.1\r\nTransfer-Encoding: gzip\r\n\r\n") ∧
    TransferFramingExact (fields (ascii "POST / HTTP/1.1\r\nTransfer-Encoding: gzip\r\n\r\n"))
      (ckHttpParserFeed ckHttpParserInit
        (ascii "POST / HTTP/1.1\r\nTransfer-Encoding: gzip\r\n\r\n" ++ []) .zero).result
      (ckHttpParserFeed ckHttpParserInit
        (ascii "POST / HTTP/1.1\r\nTransfer-Encoding: gzip\r\n\r\n" ++ []) .zero).request := by
  have arrives : HeaderArrives ckHttpParserInit
      (ascii "POST / HTTP/1.1\r\nTransfer-Encoding: gzip\r\n\r\n") :=
    ⟨rfl, by decide, by decide, by decide, by decide⟩
  refine ⟨arrives, (transfer_encoding_exact_iff _ _ [] .zero arrives).mpr ?_⟩
  intro _ _ _
  refine ⟨by decide, fun _ _ _ only => ?_⟩
  have listed := only.2 (ascii " gzip").tail (by decide)
  revert listed
  decide

/-- Chunked twice is accepted, though the decoder undoes one layer only. -/
theorem chunked_twice_accepted :
    HeaderArrives ckHttpParserInit
      (ascii "POST / HTTP/1.1\r\nTransfer-Encoding: chunked, chunked\r\n\r\n") ∧
    (ckHttpParserFeed ckHttpParserInit
      (ascii "POST / HTTP/1.1\r\nTransfer-Encoding: chunked, chunked\r\n\r\n") .zero).result =
      .complete ∧
    ¬ TransferFramingExact
      (fields (ascii "POST / HTTP/1.1\r\nTransfer-Encoding: chunked, chunked\r\n\r\n"))
      (ckHttpParserFeed ckHttpParserInit
        (ascii "POST / HTTP/1.1\r\nTransfer-Encoding: chunked, chunked\r\n\r\n") .zero).result
      (ckHttpParserFeed ckHttpParserInit
        (ascii "POST / HTTP/1.1\r\nTransfer-Encoding: chunked, chunked\r\n\r\n") .zero).request := by
  have complete : (ckHttpParserFeed ckHttpParserInit
      (ascii "POST / HTTP/1.1\r\nTransfer-Encoding: chunked, chunked\r\n\r\n") .zero).result =
      .complete := by decide
  refine ⟨⟨rfl, by decide, by decide, by decide, by decide⟩, complete, ?_⟩
  intro exactly
  obtain ⟨⟨coding, listed, -⟩, -⟩ := (exactly (by decide)).1 complete
  have two : (codings (fields
      (ascii "POST / HTTP/1.1\r\nTransfer-Encoding: chunked, chunked\r\n\r\n"))).length = 2 := by
    decide
  rw [listed] at two
  simp at two

end CkartaHeaderFraming
