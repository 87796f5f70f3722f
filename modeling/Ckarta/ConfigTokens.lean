import Ckarta.Config

/-!
What the tokenizer and the line parser read. `Decodes` is the meaning of a quoted
text: its bytes stand for themselves, a backslash joins the byte after it. Each
parsing function has one inversion lemma, and the later proofs use only these.
-/
namespace CkartaConfigTokens
open CkartaHttpParser CkartaConfig

/-- The text between two quotes and the value it stands for. -/
inductive Decodes : Bytes → Bytes → Prop where
  | done : Decodes [] []
  | byte {byte : UInt8} {body value : Bytes} (unquoted : byte ≠ quote) (plain : byte ≠ backslash)
      (tail : Decodes body value) : Decodes (byte :: body) (byte :: value)
  | escape {escaped decoded : UInt8} {body value : Bytes} (known : unescape escaped = some decoded)
      (tail : Decodes body value) : Decodes (backslash :: escaped :: body) (decoded :: value)

theorem decodes_length_le {body value : Bytes} (decodes : Decodes body value) :
    value.length ≤ body.length := by
  induction decodes with
  | done => simp
  | byte unquoted plain tail ih => simpa using ih
  | escape known tail ih =>
    simp only [List.length_cons]
    omega

theorem decodes_same_length {body value : Bytes} (decodes : Decodes body value) :
    value.length = body.length → ∀ byte ∈ value, byte ≠ quote ∧ byte ≠ backslash := by
  induction decodes with
  | done => simp
  | byte unquoted plain tail ih =>
    intro same byte member
    cases member with
    | head => exact ⟨unquoted, plain⟩
    | tail _ member => exact ih (by simpa using same) byte member
  | escape known tail ih =>
    intro same
    have shorter := decodes_length_le tail
    simp only [List.length_cons] at same
    omega

theorem unescape_nonzero {escaped decoded : UInt8} (known : unescape escaped = some decoded) :
    decoded ≠ 0 := by
  intro zero
  subst zero
  unfold unescape at known
  split at known
  · rename_i either
    simp only [Option.some.injEq] at known
    subst known
    simp [quote, backslash] at either
  · split at known
    · simp [lf] at known
    · split at known <;> simp at known

theorem decodes_nonzero {body value : Bytes} (decodes : Decodes body value) :
    0 ∉ body → 0 ∉ value := by
  induction decodes with
  | done => simp
  | byte unquoted plain tail ih =>
    intro text
    simp only [List.mem_cons, not_or] at text ⊢
    exact ⟨text.1, ih text.2⟩
  | escape known tail ih =>
    intro text
    simp only [List.mem_cons, not_or] at text ⊢
    exact ⟨fun zero => unescape_nonzero known zero.symm, ih text.2.2⟩

theorem skipSpace_split (cursor : Bytes) :
    ∃ gap, (∀ byte ∈ gap, isSpace byte = true) ∧ cursor = gap ++ skipSpace cursor := by
  refine ⟨cursor.takeWhile isSpace, ?_, ?_⟩
  · intro byte member
    exact List.mem_takeWhile_imp member
  · exact List.takeWhile_append_dropWhile.symm

@[simp] theorem parseQuoted_close (token rest : Bytes) :
    parseQuoted token (quote :: rest) = .ok (token, rest) := by
  unfold parseQuoted
  simp

theorem parseQuoted_byte {byte : UInt8} (token rest : Bytes) (unquoted : byte ≠ quote)
    (unescaped : byte ≠ backslash) :
    parseQuoted token (byte :: rest) =
      if lineSize ≤ token.length + 1 then .error (some "token is too long")
      else parseQuoted (token ++ [byte]) rest := by
  conv => lhs; unfold parseQuoted
  simp [unquoted, unescaped]

theorem parseQuoted_cases {token source result rest : Bytes}
    (parsed : parseQuoted token source = .ok (result, rest)) :
    ∃ body value, source = body ++ quote :: rest ∧ result = token ++ value ∧ Decodes body value := by
  induction token, source using parseQuoted.induct with
  | case1 token => simp [parseQuoted] at parsed
  | case2 token source =>
    simp only [parseQuoted_close, Except.ok.injEq, Prod.mk.injEq] at parsed
    obtain ⟨rfl, rfl⟩ := parsed
    exact ⟨[], [], by simp, by simp, .done⟩
  | case3 token other => simp [parseQuoted, other] at parsed
  | case4 token escaped after unknown other => simp [parseQuoted, other, unknown] at parsed
  | case5 token escaped after decoded known long other =>
    simp [parseQuoted, other, known, long] at parsed
  | case6 token escaped after decoded known fits other ih =>
    simp only [parseQuoted, other, known, fits, ↓reduceIte] at parsed
    obtain ⟨body, value, text, all, decodes⟩ := ih parsed
    exact ⟨backslash :: escaped :: body, decoded :: value, by simp [text], by simp [all],
      .escape known decodes⟩
  | case7 token byte source unquoted unescaped long =>
    simp [parseQuoted_byte _ _ unquoted unescaped, long] at parsed
  | case8 token byte source unquoted unescaped fits ih =>
    rw [parseQuoted_byte _ _ unquoted unescaped, if_neg fits] at parsed
    obtain ⟨body, value, text, all, decodes⟩ := ih parsed
    exact ⟨byte :: body, byte :: value, by simp [text], by simp [all],
      .byte unquoted unescaped decodes⟩

theorem parseQuoted_literal {value : Bytes} (rest : Bytes) :
    ∀ (token : Bytes), (∀ byte ∈ value, byte ≠ quote ∧ byte ≠ backslash) →
    token.length + value.length < lineSize →
    parseQuoted token (value ++ quote :: rest) = .ok (token ++ value, rest) := by
  induction value with
  | nil =>
    intro token plain fits
    simp
  | cons byte value ih =>
    intro token plain fits
    obtain ⟨unquoted, unescaped⟩ := plain byte (by simp)
    have room : ¬ lineSize ≤ token.length + 1 := by
      simp only [List.length_cons] at fits
      omega
    rw [List.cons_append, parseQuoted_byte _ _ unquoted unescaped, if_neg room,
      ih _ (fun other member => plain other (by simp [member]))]
    · simp
    · simp only [List.length_append, List.length_cons, List.length_nil] at fits ⊢
      omega

theorem parsePlain_cases {token source result rest : Bytes}
    (parsed : parsePlain token source = .ok (result, rest)) :
    result = token ++ source.takeWhile (!endsToken ·) ∧ rest = source.dropWhile (!endsToken ·) := by
  induction source generalizing token with
  | nil =>
    simp only [parsePlain, Except.ok.injEq, Prod.mk.injEq] at parsed
    obtain ⟨rfl, rfl⟩ := parsed
    simp
  | cons byte source ih =>
    unfold parsePlain at parsed
    split at parsed
    · rename_i ended
      simp only [Except.ok.injEq, Prod.mk.injEq] at parsed
      obtain ⟨rfl, rfl⟩ := parsed
      simp [ended]
    · rename_i inside
      split at parsed
      · cases parsed
      · obtain ⟨read, left⟩ := ih parsed
        simp [inside, read, left]

theorem parsePlain_word {word : Bytes} {stop : UInt8} (rest : Bytes) (ends : endsToken stop = true) :
    ∀ {token : Bytes}, (∀ byte ∈ word, endsToken byte = false) →
    token.length + word.length < lineSize →
    parsePlain token (word ++ stop :: rest) = .ok (token ++ word, stop :: rest) := by
  induction word with
  | nil =>
    intro token inside fits
    simp [parsePlain, ends]
  | cons byte word ih =>
    intro token inside fits
    have room : ¬ lineSize ≤ token.length + 1 := by
      simp only [List.length_cons] at fits
      omega
    rw [List.cons_append, parsePlain, inside byte (by simp), if_neg (by simp), if_neg room,
      ih (fun other member => inside other (by simp [member]))]
    · simp
    · simp only [List.length_append, List.length_cons, List.length_nil] at fits ⊢
      omega

theorem scanToken_cases {cursor token rest : Bytes}
    (scanned : scanToken cursor = .ok (token, rest)) :
    (∃ body, cursor = quote :: body ++ quote :: rest ∧ Decodes body token) ∨
    (cursor.head? ≠ some quote ∧ token = cursor.takeWhile (!endsToken ·) ∧
      rest = cursor.dropWhile (!endsToken ·)) := by
  cases cursor with
  | nil =>
    obtain ⟨read, left⟩ := parsePlain_cases scanned
    exact .inr ⟨by simp, by simpa using read, left⟩
  | cons byte source =>
    unfold scanToken at scanned
    dsimp only at scanned
    split at scanned
    · rename_i quoted
      obtain ⟨body, value, text, read, decodes⟩ := parseQuoted_cases scanned
      exact .inl ⟨body, by simp [quoted, text], by simpa [read] using decodes⟩
    · rename_i unquoted
      obtain ⟨read, left⟩ := parsePlain_cases scanned
      exact .inr ⟨by simpa using unquoted, by simpa using read, left⟩

theorem parseToken_cases {cursor token rest : Bytes}
    (parsed : parseToken cursor = .ok (token, rest)) :
    scanToken cursor = .ok (token, rest) ∧ token ≠ [] := by
  unfold parseToken at parsed
  cases scanned : scanToken cursor with
  | error failure => simp [scanned, bind, Except.bind] at parsed
  | ok read =>
    simp only [scanned, bind, Except.bind] at parsed
    split at parsed
    · cases parsed
    · rename_i nonempty
      simp only [Except.ok.injEq, Prod.mk.injEq] at parsed
      obtain ⟨rfl, rfl⟩ := parsed
      exact ⟨rfl, nonempty⟩

theorem parseArguments_close (arguments : List Bytes) {cursor rest : Bytes} (room : Nat)
    (closed : skipSpace cursor = semicolon :: rest) :
    parseArguments arguments cursor room = .ok (arguments, rest) := by
  have other : semicolon ≠ hashMark := by decide
  unfold parseArguments
  simp [closed, other]

theorem parseArguments_token (arguments : List Bytes) {cursor following argument after : Bytes}
    {byte : UInt8} (room : Nat) (start : skipSpace cursor = byte :: following)
    (uncommented : byte ≠ hashMark) (unclosed : byte ≠ semicolon)
    (token : parseToken (byte :: following) = .ok (argument, after)) :
    parseArguments arguments cursor (room + 1) = parseArguments (arguments ++ [argument]) after room := by
  conv => lhs; unfold parseArguments
  simp [start, uncommented, unclosed, token, bind, Except.bind]

theorem parseArguments_cases {arguments result : List Bytes} {cursor rest : Bytes} {room : Nat}
    (parsed : parseArguments arguments cursor room = .ok (result, rest)) :
    (result = arguments ∧ skipSpace cursor = semicolon :: rest) ∨
    ∃ argument after fewer, room = fewer + 1 ∧
      parseToken (skipSpace cursor) = .ok (argument, after) ∧
      parseArguments (arguments ++ [argument]) after fewer = .ok (result, rest) := by
  unfold parseArguments at parsed
  split at parsed
  · cases parsed
  · rename_i byte following start
    split at parsed
    · cases parsed
    · split at parsed
      · rename_i ended
        simp only [Except.ok.injEq, Prod.mk.injEq] at parsed
        exact .inl ⟨parsed.1.symm, by rw [start, ended, parsed.2]⟩
      · split at parsed
        · cases parsed
        · rename_i fewer
          cases token : parseToken (byte :: following) with
          | error failure => simp [token, bind, Except.bind] at parsed
          | ok read =>
            simp only [token, bind, Except.bind] at parsed
            exact .inr ⟨read.1, read.2, fewer, rfl, start ▸ token, parsed⟩

theorem parseArguments_extends {room : Nat} :
    ∀ {arguments result : List Bytes} {cursor rest : Bytes},
    parseArguments arguments cursor room = .ok (result, rest) →
    ∃ more, result = arguments ++ more := by
  induction room with
  | zero =>
    intro arguments result cursor rest parsed
    obtain ⟨rfl, -⟩ | ⟨argument, after, fewer, count, -, -⟩ := parseArguments_cases parsed
    · exact ⟨[], by simp⟩
    · omega
  | succ room ih =>
    intro arguments result cursor rest parsed
    obtain ⟨rfl, -⟩ | ⟨argument, after, fewer, count, -, further⟩ := parseArguments_cases parsed
    · exact ⟨[], by simp⟩
    · obtain rfl : room = fewer := by omega
      obtain ⟨more, all⟩ := ih further
      exact ⟨argument :: more, by simpa using all⟩

theorem parseArguments_single {value cursor rest : Bytes} {room : Nat}
    (parsed : parseArguments [] cursor room = .ok ([value], rest)) :
    ∃ after, parseToken (skipSpace cursor) = .ok (value, after) ∧
      skipSpace after = semicolon :: rest := by
  obtain ⟨one, -⟩ | ⟨argument, after, fewer, -, token, further⟩ := parseArguments_cases parsed
  · cases one
  · obtain ⟨more, all⟩ := parseArguments_extends further
    obtain ⟨rfl, rfl⟩ : value = argument ∧ more = [] := by simpa using all
    refine ⟨after, token, ?_⟩
    obtain ⟨-, closed⟩ | ⟨next, beyond, fewest, -, -, last⟩ := parseArguments_cases further
    · exact closed
    · obtain ⟨rest', tooMany⟩ := parseArguments_extends last
      simp at tooMany

theorem parseLine_none_iff {cursor : Bytes} :
    parseLine cursor = .ok none ↔ atLineEnd cursor = true := by
  constructor
  · intro parsed
    unfold parseLine at parsed
    split at parsed
    · assumption
    · split at parsed
      · cases parsed
      · simp only [bind, Except.bind] at parsed
        grind
  · intro ended
    simp [parseLine, ended]

theorem parseLine_cases {cursor name : Bytes} {arguments : List Bytes}
    (parsed : parseLine cursor = .ok (some (name, arguments))) :
    ∃ afterName rest, parseToken (skipSpace cursor) = .ok (name, afterName) ∧
      parseArguments [] afterName maxArgs = .ok (arguments, rest) ∧ atLineEnd rest = true := by
  unfold parseLine at parsed
  split at parsed
  · cases parsed
  · split at parsed
    · cases parsed
    · cases named : parseToken (skipSpace cursor) with
      | error failure => simp [named, bind, Except.bind] at parsed
      | ok token =>
        cases valued : parseArguments [] token.2 maxArgs with
        | error failure => simp [named, valued, bind, Except.bind] at parsed
        | ok values =>
          simp only [named, valued, bind, Except.bind] at parsed
          split at parsed
          · rename_i ended
            simp only [Except.ok.injEq, Option.some.injEq, Prod.mk.injEq] at parsed
            obtain ⟨rfl, rfl⟩ := parsed
            exact ⟨token.2, values.2, rfl, valued, ended⟩
          · cases parsed

end CkartaConfigTokens
