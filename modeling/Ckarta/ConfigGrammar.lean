import Ckarta.ConfigTokens
import Ckarta.ConfigLines

/-!
The language of the configuration file. The grammar below says which texts are
tokens, argument lists, directive lines and files, and what they stand for. It
knows nothing of buffers and cursors. On a line that fits the buffer the parser
reads the directives of the grammar, and it fails without a text exactly where a
token is empty.
-/
namespace CkartaConfigGrammar
open CkartaHttpParser CkartaConfig CkartaConfigTokens CkartaConfigLines

def Blank (gap : Bytes) : Prop := ∀ byte ∈ gap, isSpace byte = true

/-- A token at the start of a text, with its value and what follows it. -/
inductive Token : Bytes → Bytes → Bytes → Prop where
  | word {value rest : Bytes} (nonempty : value ≠ []) (unquoted : value.head? ≠ some quote)
      (inside : ∀ byte ∈ value, endsToken byte = false)
      (stops : ∀ byte, rest.head? = some byte → endsToken byte = true) :
      Token (value ++ rest) value rest
  | quoted {body value rest : Bytes} (decodes : Decodes body value) (nonempty : value ≠ []) :
      Token (quote :: body ++ quote :: rest) value rest

/-- Values in a row, each after some space, and what follows them. -/
inductive Values : Bytes → List Bytes → Bytes → Prop where
  | none {cursor : Bytes} : Values cursor [] cursor
  | more {gap source value after rest : Bytes} {values : List Bytes} (blank : Blank gap)
      (token : Token source value after) (further : Values after values rest) :
      Values (gap ++ source) (value :: values) rest

inductive LineTail : Bytes → Prop where
  | bare {gap : Bytes} (blank : Blank gap) : LineTail gap
  | comment {gap text : Bytes} (blank : Blank gap) : LineTail (gap ++ hashMark :: text)

inductive DirectiveLine : Bytes → Bytes → List Bytes → Prop where
  | line {gap source name afterName space rest : Bytes} {values : List Bytes} (blank : Blank gap)
      (unbraced : source.head? ≠ some openBrace ∧ source.head? ≠ some closeBrace)
      (named : Token source name afterName) (few : values.length ≤ maxArgs)
      (valued : Values afterName values (space ++ semicolon :: rest)) (closed : Blank space)
      (tail : LineTail rest) : DirectiveLine (gap ++ source) name values

/-- A line that misses its directive's name or holds an empty one, or an empty
value. -/
inductive EmptyTokenLine : Bytes → Prop where
  | nameless {gap rest : Bytes} (blank : Blank gap) : EmptyTokenLine (gap ++ semicolon :: rest)
  | emptyName {gap rest : Bytes} (blank : Blank gap) : EmptyTokenLine (gap ++ quote :: quote :: rest)
  | emptyValue {gap source name afterName space rest : Bytes} {values : List Bytes}
      (blank : Blank gap)
      (unbraced : source.head? ≠ some openBrace ∧ source.head? ≠ some closeBrace)
      (named : Token source name afterName) (few : values.length < maxArgs)
      (valued : Values afterName values (space ++ quote :: quote :: rest)) (empty : Blank space) :
      EmptyTokenLine (gap ++ source)

inductive Line : Bytes → Option Bytes → Prop where
  | skipped {text : Bytes} (tail : LineTail text) : Line text none
  | path {text value : Bytes} (directive : DirectiveLine text (ascii "class_path") [value]) :
      Line text (some value)

/-- The files the program accepts, with the class path they set. A line that a
newline ends holds no NUL; the last one counts up to its first NUL. The path is
set at most once. -/
inductive File : Bytes → Option Bytes → Prop where
  | last {text : Bytes} {path : Option Bytes} (unbroken : lf ∉ text)
      (short : text.length < lineSize - 1) (line : Line (cString text) path) : File text path
  | line {text rest : Bytes} {first later : Option Bytes} (unbroken : lf ∉ text)
      (nonzero : 0 ∉ text) (short : text.length < lineSize - 1) (line : Line (text ++ [lf]) first)
      (further : File rest later) (once : first = none ∨ later = none) :
      File (text ++ lf :: rest) (first.or later)

theorem skipSpace_append {gap : Bytes} (source : Bytes) (blank : Blank gap) :
    skipSpace (gap ++ source) = skipSpace source := by
  unfold skipSpace
  exact List.dropWhile_append_of_pos blank

theorem skipSpace_starts {source : Bytes}
    (starts : ∀ byte, source.head? = some byte → isSpace byte = false) :
    skipSpace source = source := by
  cases source with
  | nil => simp [skipSpace]
  | cons byte source => simp [skipSpace, starts byte rfl]

theorem skipSpace_length_le (cursor : Bytes) : (skipSpace cursor).length ≤ cursor.length :=
  (List.dropWhile_suffix _).length_le

theorem lineTail_iff {cursor : Bytes} : LineTail cursor ↔ atLineEnd cursor = true := by
  constructor
  · intro tail
    cases tail with
    | bare blank =>
      have nothing : skipSpace cursor = [] := by
        rw [skipSpace, List.dropWhile_eq_nil_iff]
        exact blank
      simp [atLineEnd, nothing]
    | @comment gap text blank =>
      have marked : skipSpace (gap ++ hashMark :: text) = hashMark :: text := by
        rw [skipSpace_append _ blank]
        exact skipSpace_starts (by simp [isSpace, hashMark])
      simp [atLineEnd, marked]
  · intro ended
    obtain ⟨gap, blank, text⟩ := skipSpace_split cursor
    unfold atLineEnd at ended
    split at ended
    · rename_i nothing
      rw [text, nothing, List.append_nil]
      exact .bare blank
    · rename_i byte rest marked
      obtain rfl : byte = hashMark := by simpa using ended
      rw [text, marked]
      exact .comment blank

theorem Token.starts {source value rest : Bytes} (token : Token source value rest) :
    ∃ byte following, source = byte :: following ∧ endsToken byte = false := by
  cases token with
  | word nonempty unquoted inside stops =>
    cases value with
    | nil => exact absurd rfl nonempty
    | cons byte value => exact ⟨byte, value ++ rest, rfl, inside byte (by simp)⟩
  | @quoted body value rest decodes nonempty =>
    exact ⟨quote, body ++ quote :: rest, rfl, by decide⟩

theorem Token.skipSpace_gap {source value rest gap : Bytes} (token : Token source value rest)
    (blank : Blank gap) : skipSpace (gap ++ source) = source := by
  obtain ⟨byte, following, rfl, inside⟩ := token.starts
  rw [skipSpace_append _ blank]
  apply skipSpace_starts
  intro first same
  obtain rfl : byte = first := by simpa using same
  cases space : isSpace byte with
  | false => rfl
  | true => simp [endsToken, space] at inside

theorem Token.length_lt {source value rest : Bytes} (token : Token source value rest) :
    rest.length < source.length := by
  cases token with
  | word nonempty unquoted inside stops =>
    have some_byte := List.length_pos_iff.mpr nonempty
    simp only [List.length_append]
    omega
  | quoted decodes nonempty =>
    simp only [List.length_append, List.length_cons]
    omega

theorem parseQuoted_decodes {body value : Bytes} (rest : Bytes) (decodes : Decodes body value) :
    ∀ token : Bytes, token.length + body.length < lineSize →
    parseQuoted token (body ++ quote :: rest) = .ok (token ++ value, rest) := by
  induction decodes with
  | done =>
    intro token short
    simp
  | @byte byte body value unquoted plain tail ih =>
    intro token short
    simp only [List.length_cons] at short
    have room : ¬ lineSize ≤ token.length + 1 := by omega
    rw [List.cons_append, parseQuoted_byte _ _ unquoted plain, if_neg room, ih]
    · simp
    · simp only [List.length_append, List.length_singleton]
      omega
  | @escape escaped decoded body value known tail ih =>
    intro token short
    simp only [List.length_cons] at short
    have room : ¬ lineSize ≤ token.length + 1 := by omega
    have other : backslash ≠ quote := by decide
    have read := ih (token ++ [decoded]) (by
      simp only [List.length_append, List.length_singleton]
      omega)
    simp [parseQuoted, other, known, room, read]

theorem parsePlain_short (source : Bytes) :
    ∀ token : Bytes, token.length + source.length < lineSize →
    parsePlain token source =
      .ok (token ++ source.takeWhile (!endsToken ·), source.dropWhile (!endsToken ·)) := by
  induction source with
  | nil =>
    intro token short
    simp [parsePlain]
  | cons byte source ih =>
    intro token short
    simp only [List.length_cons] at short
    have room : ¬ lineSize ≤ token.length + 1 := by omega
    cases ends : endsToken byte with
    | true => simp [parsePlain, ends]
    | false =>
      have read := ih (token ++ [byte]) (by
        simp only [List.length_append, List.length_singleton]
        omega)
      simp [parsePlain, ends, room, read]

theorem takeWhile_word {value rest : Bytes} (inside : ∀ byte ∈ value, endsToken byte = false)
    (stops : ∀ byte, rest.head? = some byte → endsToken byte = true) :
    (value ++ rest).takeWhile (!endsToken ·) = value ∧
    (value ++ rest).dropWhile (!endsToken ·) = rest := by
  have all : ∀ byte ∈ value, (!endsToken byte) = true := by
    intro byte member
    simp [inside byte member]
  rw [List.takeWhile_append_of_pos all, List.dropWhile_append_of_pos all]
  cases rest with
  | nil => simp
  | cons stop rest => simp [stops stop rfl]

theorem scanToken_token {cursor value rest : Bytes} (short : cursor.length < lineSize)
    (token : Token cursor value rest) : scanToken cursor = .ok (value, rest) := by
  cases token with
  | word nonempty unquoted inside stops =>
    obtain ⟨read, left⟩ := takeWhile_word inside stops
    have plain := parsePlain_short (value ++ rest) [] (by simpa using short)
    rw [read, left] at plain
    cases value with
    | nil => exact absurd rfl nonempty
    | cons byte value =>
      have other : byte ≠ quote := by simpa using unquoted
      simpa [scanToken, other] using plain
  | @quoted body value rest decodes nonempty =>
    simp only [List.length_append, List.length_cons] at short
    have read := parseQuoted_decodes rest decodes [] (by
      simp only [List.length_nil]
      omega)
    simpa [scanToken] using read

theorem parseToken_iff {cursor value rest : Bytes} (short : cursor.length < lineSize) :
    parseToken cursor = .ok (value, rest) ↔ Token cursor value rest := by
  constructor
  · intro parsed
    obtain ⟨scanned, nonempty⟩ := parseToken_cases parsed
    obtain ⟨body, rfl, decodes⟩ | ⟨unquoted, rfl, rfl⟩ := scanToken_cases scanned
    · exact .quoted decodes nonempty
    · have whole := List.takeWhile_append_dropWhile (p := (!endsToken ·)) (l := cursor)
      have word : Token (cursor.takeWhile (!endsToken ·) ++ cursor.dropWhile (!endsToken ·))
          (cursor.takeWhile (!endsToken ·)) (cursor.dropWhile (!endsToken ·)) := by
        apply Token.word nonempty
        · intro quoted
          apply unquoted
          rw [← whole, List.head?_append, quoted]
          rfl
        · intro byte member
          simpa using List.mem_takeWhile_imp member
        · intro byte first
          have stopped := List.head?_dropWhile_not (!endsToken ·) cursor
          rw [first] at stopped
          simpa using stopped
      rwa [whole] at word
  · intro token
    have nonempty : value ≠ [] := by
      cases token with
      | word nonempty unquoted inside stops => exact nonempty
      | quoted decodes nonempty => exact nonempty
    simp [parseToken, scanToken_token short token, nonempty, bind, Except.bind]

theorem parseArguments_values {cursor rest : Bytes} {values : List Bytes}
    (listed : Values cursor values rest) :
    cursor.length < lineSize → ∀ (arguments : List Bytes) (room : Nat),
    parseArguments arguments cursor (values.length + room) =
      parseArguments (arguments ++ values) rest room := by
  induction listed with
  | none =>
    intro short arguments room
    simp
  | @more gap source value after rest values blank token further ih =>
    intro short arguments room
    have shorter := token.length_lt
    simp only [List.length_append] at short
    have read := (parseToken_iff (by omega)).mpr token
    have start := token.skipSpace_gap blank
    obtain ⟨byte, following, rfl, inside⟩ := token.starts
    obtain ⟨unclosed, uncommented⟩ : byte ≠ semicolon ∧ byte ≠ hashMark := by
      simp only [endsToken, Bool.or_eq_false_iff, beq_eq_false_iff_ne] at inside
      exact ⟨inside.1.2, inside.2⟩
    have count : (value :: values).length + room = (values.length + room) + 1 := by
      simp only [List.length_cons]
      omega
    rw [count, parseArguments_token arguments _ start uncommented unclosed read,
      ih (by omega) (arguments ++ [value]) room]
    simp

theorem skipSpace_gap {gap rest : Bytes} {byte : UInt8} (blank : Blank gap)
    (visible : isSpace byte = false) : skipSpace (gap ++ byte :: rest) = byte :: rest := by
  rw [skipSpace_append _ blank]
  apply skipSpace_starts
  intro first same
  obtain rfl : byte = first := by simpa using same
  exact visible

theorem parseArguments_iff {room : Nat} {arguments result : List Bytes} {cursor rest : Bytes}
    (short : cursor.length < lineSize) :
    parseArguments arguments cursor room = .ok (result, rest) ↔
      ∃ values space, result = arguments ++ values ∧ values.length ≤ room ∧ Blank space ∧
        Values cursor values (space ++ semicolon :: rest) := by
  constructor
  · intro parsed
    induction room generalizing arguments cursor with
    | zero =>
      obtain ⟨rfl, closed⟩ | ⟨argument, after, fewer, count, -, -⟩ := parseArguments_cases parsed
      · obtain ⟨gap, blank, text⟩ := skipSpace_split cursor
        rw [closed] at text
        exact ⟨[], gap, by simp, by simp, blank, text ▸ .none⟩
      · omega
    | succ room ih =>
      obtain ⟨gap, blank, text⟩ := skipSpace_split cursor
      obtain ⟨rfl, closed⟩ | ⟨argument, after, fewer, count, read, further⟩ :=
        parseArguments_cases parsed
      · rw [closed] at text
        exact ⟨[], gap, by simp, by simp, blank, text ▸ .none⟩
      · obtain rfl : room = fewer := by omega
        have inner := skipSpace_length_le cursor
        have token := (parseToken_iff (by omega)).mp read
        have shorter := token.length_lt
        obtain ⟨values, space, rfl, few, closed, listed⟩ := ih (by omega) further
        refine ⟨argument :: values, space, by simp, by simpa using few, closed, ?_⟩
        rw [text]
        exact .more blank token listed
  · rintro ⟨values, space, rfl, few, closed, listed⟩
    obtain ⟨spare, rfl⟩ := Nat.exists_eq_add_of_le few
    rw [parseArguments_values listed short]
    exact parseArguments_close _ spare (skipSpace_gap closed (by decide))

theorem parseLine_unbraced {cursor : Bytes} {answer : Except Failure (Option (Bytes × List Bytes))}
    (content : atLineEnd cursor = false) (parsed : parseLine cursor = answer)
    (other : answer ≠ .error (some "blocks are not supported in this configuration version")) :
    (skipSpace cursor).head? ≠ some openBrace ∧ (skipSpace cursor).head? ≠ some closeBrace := by
  by_contra braced
  apply other
  rw [← parsed]
  have first : (skipSpace cursor).head? = some openBrace ∨
      (skipSpace cursor).head? = some closeBrace := by
    by_contra neither
    exact braced (not_or.mp neither)
  simp [parseLine, content, first]

theorem Token.line_content {gap source name afterName : Bytes} (blank : Blank gap)
    (named : Token source name afterName) : atLineEnd (gap ++ source) = false := by
  have start := named.skipSpace_gap blank
  obtain ⟨byte, following, rfl, inside⟩ := named.starts
  simp only [endsToken, Bool.or_eq_false_iff] at inside
  simp [atLineEnd, start, inside.2]

theorem parseLine_content {cursor : Bytes} (content : atLineEnd cursor = false)
    (unbraced : (skipSpace cursor).head? ≠ some openBrace ∧
      (skipSpace cursor).head? ≠ some closeBrace) :
    parseLine cursor = (parseToken (skipSpace cursor)).bind fun named =>
      (parseArguments [] named.2 maxArgs).bind fun read =>
        if atLineEnd read.2 then .ok (some (named.1, read.1))
        else .error (some "unexpected characters after semicolon") := by
  simp [parseLine, content, unbraced, bind]

theorem parseLine_named {gap source name afterName : Bytes} (blank : Blank gap)
    (unbraced : source.head? ≠ some openBrace ∧ source.head? ≠ some closeBrace)
    (named : Token source name afterName) (short : source.length < lineSize) :
    parseLine (gap ++ source) = (parseArguments [] afterName maxArgs).bind fun read =>
      if atLineEnd read.2 then .ok (some (name, read.1))
      else .error (some "unexpected characters after semicolon") := by
  have start := named.skipSpace_gap blank
  rw [parseLine_content (named.line_content blank) (start.symm ▸ unbraced), start,
    (parseToken_iff short).mpr named]
  rfl

/-- On a line that fits the buffer the parser reads the directive lines of the grammar. -/
theorem parseLine_iff {cursor name : Bytes} {values : List Bytes}
    (short : cursor.length < lineSize) :
    parseLine cursor = .ok (some (name, values)) ↔ DirectiveLine cursor name values := by
  constructor
  · intro parsed
    have inner := skipSpace_length_le cursor
    obtain ⟨afterName, rest, read, valued, ended⟩ := parseLine_cases parsed
    have content : atLineEnd cursor = false := by
      cases ended' : atLineEnd cursor with
      | false => rfl
      | true => simp [parseLine_none_iff.mpr ended'] at parsed
    have unbraced := parseLine_unbraced content parsed (by simp)
    have named := (parseToken_iff (by omega)).mp read
    have shorter := named.length_lt
    obtain ⟨listed, space, rfl, few, closed, row⟩ := (parseArguments_iff (by omega)).mp valued
    obtain ⟨gap, blank, text⟩ := skipSpace_split cursor
    rw [text]
    exact .line blank unbraced named few row closed (lineTail_iff.mpr ended)
  · intro directive
    cases directive with
    | @line gap source name afterName space rest values blank unbraced named few valued closed tail =>
      simp only [List.length_append] at short
      have shorter := named.length_lt
      have all : parseArguments [] afterName maxArgs = .ok (values, rest) :=
        (parseArguments_iff (by omega)).mpr ⟨values, space, rfl, few, closed, valued⟩
      rw [parseLine_named blank unbraced named (by omega), all]
      simp [lineTail_iff.mp tail, Except.bind]

theorem parseQuoted_spoken {token source : Bytes} :
    parseQuoted token source ≠ .error none := by
  induction token, source using parseQuoted.induct with
  | case1 token => simp [parseQuoted]
  | case2 token source => simp
  | case3 token other => simp [parseQuoted, other]
  | case4 token escaped after unknown other => simp [parseQuoted, other, unknown]
  | case5 token escaped after decoded known long other => simp [parseQuoted, other, known, long]
  | case6 token escaped after decoded known fits other ih =>
    simpa [parseQuoted, other, known, fits] using ih
  | case7 token byte source unquoted unescaped long =>
    simp [parseQuoted_byte _ _ unquoted unescaped, long]
  | case8 token byte source unquoted unescaped fits ih =>
    rw [parseQuoted_byte _ _ unquoted unescaped, if_neg fits]
    exact ih

theorem parsePlain_spoken {source : Bytes} :
    ∀ {token : Bytes}, parsePlain token source ≠ .error none := by
  induction source with
  | nil =>
    intro token
    simp [parsePlain]
  | cons byte source ih =>
    intro token
    unfold parsePlain
    split
    · simp
    · split
      · simp
      · exact ih

theorem parseToken_silent_iff {cursor : Bytes} (spoken : scanToken cursor ≠ .error none) :
    parseToken cursor = .error none ↔ ∃ rest, scanToken cursor = .ok ([], rest) := by
  unfold parseToken
  cases scanned : scanToken cursor with
  | error failure =>
    have told : failure ≠ none := fun same => spoken (same ▸ scanned)
    simp [bind, Except.bind, told]
  | ok result =>
    obtain ⟨token, rest⟩ := result
    by_cases empty : token = []
    · simp [bind, Except.bind, empty]
    · simp [bind, Except.bind, empty]

theorem quoted_empty_iff {following : Bytes} :
    (∃ rest, parseQuoted [] following = .ok ([], rest)) ↔ following.head? = some quote := by
  constructor
  · intro read
    obtain ⟨rest, parsed⟩ := read
    obtain ⟨body, value, text, all, decodes⟩ := parseQuoted_cases parsed
    have valueless : value = [] := by simpa using all.symm
    subst valueless
    cases decodes with
    | done => simp [text]
  · intro again
    obtain ⟨rest, rfl⟩ := List.head?_eq_some_iff.mp again
    exact ⟨rest, parseQuoted_close [] rest⟩

theorem plain_empty_iff {byte : UInt8} {following : Bytes} :
    (∃ rest, parsePlain [] (byte :: following) = .ok ([], rest)) ↔ endsToken byte = true := by
  constructor
  · intro read
    obtain ⟨rest, parsed⟩ := read
    obtain ⟨all, -⟩ := parsePlain_cases parsed
    cases inside : endsToken byte with
    | true => rfl
    | false => simp [inside] at all
  · intro ended
    exact ⟨byte :: following, by simp [parsePlain, ended]⟩

theorem parseToken_silent {byte : UInt8} {following : Bytes} :
    parseToken (byte :: following) = .error none ↔
      (byte = quote ∧ following.head? = some quote) ∨ endsToken byte = true := by
  by_cases quoted : byte = quote
  · subst quoted
    have inside : endsToken quote = false := by decide
    have scan : scanToken (quote :: following) = parseQuoted [] following := by simp [scanToken]
    rw [parseToken_silent_iff (scan ▸ parseQuoted_spoken), scan, quoted_empty_iff]
    simp [inside]
  · have scan : scanToken (byte :: following) = parsePlain [] (byte :: following) := by
      simp [scanToken, quoted]
    rw [parseToken_silent_iff (scan ▸ parsePlain_spoken), scan, plain_empty_iff]
    simp [quoted]

theorem skipSpace_visible {cursor following : Bytes} {byte : UInt8}
    (start : skipSpace cursor = byte :: following) : isSpace byte = false := by
  have stopped := List.head?_dropWhile_not isSpace cursor
  rw [← skipSpace, start] at stopped
  simpa using stopped

theorem parseArguments_silent_cases {arguments : List Bytes} {cursor : Bytes} {room : Nat}
    (silent : parseArguments arguments cursor room = .error none) :
    ∃ fewer, room = fewer + 1 ∧
      ((∃ rest, skipSpace cursor = quote :: quote :: rest) ∨
        ∃ value after, parseToken (skipSpace cursor) = .ok (value, after) ∧
          parseArguments (arguments ++ [value]) after fewer = .error none) := by
  unfold parseArguments at silent
  split at silent
  · simp at silent
  · rename_i byte following start
    split at silent
    · simp at silent
    · rename_i uncommented
      split at silent
      · simp at silent
      · rename_i unclosed
        split at silent
        · simp at silent
        · rename_i fewer
          refine ⟨fewer, rfl, ?_⟩
          rw [start]
          have inside : endsToken byte = false := by
            simp [endsToken, skipSpace_visible start, unclosed, uncommented]
          cases read : parseToken (byte :: following) with
          | error failure =>
            obtain rfl : failure = none := by simpa [read, bind, Except.bind] using silent
            obtain ⟨rfl, again⟩ | ended := parseToken_silent.mp read
            · obtain ⟨rest, rfl⟩ := List.head?_eq_some_iff.mp again
              exact .inl ⟨rest, rfl⟩
            · simp [inside] at ended
          | ok result =>
            simp only [read, bind, Except.bind] at silent
            exact .inr ⟨result.1, result.2, rfl, silent⟩

theorem parseArguments_empty {space : Bytes} (arguments : List Bytes) (rest : Bytes) (spare : Nat)
    (empty : Blank space) :
    parseArguments arguments (space ++ quote :: quote :: rest) (spare + 1) = .error none := by
  have silent : parseToken (quote :: quote :: rest) = .error none :=
    parseToken_silent.mpr (.inl ⟨rfl, rfl⟩)
  have start : skipSpace (space ++ quote :: quote :: rest) = quote :: quote :: rest :=
    skipSpace_gap empty (by decide)
  have uncommented : quote ≠ hashMark := by decide
  have unclosed : quote ≠ semicolon := by decide
  unfold parseArguments
  simp [start, uncommented, unclosed, silent, bind, Except.bind]

theorem parseArguments_silent {room : Nat} {arguments : List Bytes} {cursor : Bytes}
    (short : cursor.length < lineSize) :
    parseArguments arguments cursor room = .error none ↔
      ∃ values space rest, values.length < room ∧ Blank space ∧
        Values cursor values (space ++ quote :: quote :: rest) := by
  constructor
  · intro silent
    induction room generalizing arguments cursor with
    | zero =>
      obtain ⟨fewer, count, -⟩ := parseArguments_silent_cases silent
      omega
    | succ room ih =>
      obtain ⟨gap, blank, text⟩ := skipSpace_split cursor
      obtain ⟨fewer, count, ⟨rest, empty⟩ | ⟨value, after, read, further⟩⟩ :=
        parseArguments_silent_cases silent
      · rw [empty] at text
        exact ⟨[], gap, rest, by simp, blank, text ▸ .none⟩
      · obtain rfl : room = fewer := by omega
        have inner := skipSpace_length_le cursor
        have token := (parseToken_iff (by omega)).mp read
        have shorter := token.length_lt
        obtain ⟨values, space, rest, few, empty, listed⟩ := ih (by omega) further
        refine ⟨value :: values, space, rest, by simpa using few, empty, ?_⟩
        rw [text]
        exact .more blank token listed
  · intro found
    obtain ⟨values, space, rest, few, empty, listed⟩ := found
    obtain ⟨spare, rfl⟩ := Nat.exists_eq_add_of_lt few
    rw [Nat.add_assoc, parseArguments_values listed short]
    exact parseArguments_empty _ rest spare empty

theorem parseLine_nameless {gap following : Bytes} {byte : UInt8} (blank : Blank gap)
    (visible : isSpace byte = false) (uncommented : byte ≠ hashMark)
    (unbraced : byte ≠ openBrace ∧ byte ≠ closeBrace)
    (silent : parseToken (byte :: following) = .error none) :
    parseLine (gap ++ byte :: following) = .error none := by
  have start : skipSpace (gap ++ byte :: following) = byte :: following :=
    skipSpace_gap blank visible
  have content : atLineEnd (gap ++ byte :: following) = false := by
    simp [atLineEnd, start, uncommented]
  rw [parseLine_content content (by simp [start, unbraced]), start, silent]
  rfl

theorem EmptyTokenLine.silent {cursor : Bytes} (found : EmptyTokenLine cursor)
    (short : cursor.length < lineSize) : parseLine cursor = .error none := by
  cases found with
  | nameless blank =>
    exact parseLine_nameless blank (by decide) (by decide) (by decide)
      (parseToken_silent.mpr (.inr (by decide)))
  | emptyName blank =>
    exact parseLine_nameless blank (by decide) (by decide) (by decide)
      (parseToken_silent.mpr (.inl ⟨rfl, rfl⟩))
  | @emptyValue gap source name afterName space rest values blank unbraced named few valued empty =>
    simp only [List.length_append] at short
    have shorter := named.length_lt
    have failed : parseArguments [] afterName maxArgs = .error none :=
      (parseArguments_silent (by omega)).mpr ⟨values, space, rest, few, empty, valued⟩
    rw [parseLine_named blank unbraced named (by omega), failed]
    rfl

theorem named_silent {gap source name afterName : Bytes} (blank : Blank gap)
    (unbraced : source.head? ≠ some openBrace ∧ source.head? ≠ some closeBrace)
    (named : Token source name afterName) (short : source.length < lineSize)
    (silent : parseLine (gap ++ source) = .error none) : EmptyTokenLine (gap ++ source) := by
  have shorter := named.length_lt
  rw [parseLine_named blank unbraced named short] at silent
  have failed : parseArguments [] afterName maxArgs = .error none := by
    cases valued : parseArguments [] afterName maxArgs with
    | error failure => simpa [valued, Except.bind] using silent
    | ok values =>
      simp only [valued, Except.bind] at silent
      split at silent <;> simp at silent
  obtain ⟨values, space, rest, few, empty, listed⟩ :=
    (parseArguments_silent (by omega)).mp failed
  exact .emptyValue blank unbraced named few listed empty

/-- The parser fails without a text exactly on the lines with an empty token. -/
theorem parseLine_silent {cursor : Bytes} (short : cursor.length < lineSize) :
    parseLine cursor = .error none ↔ EmptyTokenLine cursor := by
  constructor
  · intro silent
    have content : atLineEnd cursor = false := by
      cases ended : atLineEnd cursor with
      | false => rfl
      | true => simp [parseLine_none_iff.mpr ended] at silent
    have unbraced := parseLine_unbraced content silent (by simp)
    have inner := skipSpace_length_le cursor
    obtain ⟨gap, blank, text⟩ := skipSpace_split cursor
    cases start : skipSpace cursor with
    | nil => simp [atLineEnd, start] at content
    | cons byte following =>
      have parts := parseLine_content content unbraced
      rw [silent, start] at parts
      rw [start] at text inner unbraced
      cases read : parseToken (byte :: following) with
      | error failure =>
        rw [read] at parts
        obtain rfl : failure = none := by simpa [Except.bind] using parts.symm
        rw [text]
        obtain ⟨rfl, again⟩ | ended := parseToken_silent.mp read
        · obtain ⟨rest, rfl⟩ := List.head?_eq_some_iff.mp again
          exact .emptyName blank
        · have uncommented : byte ≠ hashMark := by simpa [atLineEnd, start] using content
          obtain rfl : byte = semicolon := by
            simpa [endsToken, skipSpace_visible start, uncommented] using ended
          exact .nameless blank
      | ok result =>
        have named := (parseToken_iff (by omega)).mp read
        rw [text] at silent ⊢
        exact named_silent blank unbraced named (by omega) silent
  · intro found
    exact found.silent short

end CkartaConfigGrammar
