import Ckarta.ConfigLines
import Ckarta.ConfigLoad

/-!
Loading the dump. The dump prints the path between quotes as it is, so it is read
back exactly when the path needs no escape and the line still fits the buffer.
That is decided by how the file wrote the path: an escape other than `\t` gives a
byte the dump does not escape again, an unquoted word may hold quotes and
backslashes and be two bytes longer than a quoted one.
-/
namespace CkartaConfigDump
open CkartaHttpParser CkartaConfig CkartaConfigTokens CkartaConfigLines CkartaConfigLoad

def directiveLine (lines : List Bytes) : Option Bytes := lines.find? (!skippedLine ·)

theorem loadLines_accepted (memory readError : Bool) {after : Config} {config : Config} :
    ∀ {lines : List Bytes} {number : Nat},
    loadLines (directives memory) readError config number lines = (.ok (), after) →
    (directiveLine lines = none ∧ after = config) ∨
    ∃ line value, directiveLine lines = some line ∧ directiveValue line = some value ∧
      after = ⟨value, true⟩ := by
  intro lines
  induction lines with
  | nil =>
    intro number accepted
    cases readError with
    | true => simp [loadLines] at accepted
    | false =>
      simp only [loadLines, Bool.false_eq_true, ↓reduceIte, Prod.mk.injEq] at accepted
      exact .inl ⟨rfl, accepted.2.symm⟩
  | cons line rest ih =>
    intro number accepted
    obtain ⟨skipped, loaded⟩ | ⟨value, content, held, -, -, loaded⟩ | ⟨failure, -, -, loaded⟩ :=
      loadLine_cases memory config (number + 1) line
    · simp only [loadLines, loaded] at accepted
      simpa [directiveLine, List.find?_cons, skipped] using ih accepted
    · simp only [loadLines, loaded] at accepted
      refine .inr ⟨line, value, by simp [directiveLine, content], held, ?_⟩
      have settled := loadLines_settled memory readError ⟨value, true⟩ (.inl rfl) rest (number + 1)
      rw [accepted] at settled
      exact settled.1
    · simp [loadLines, loaded] at accepted

/-- A path the dump can print: it needs no escape and its line fits the buffer. -/
def PlainPath (path : Bytes) : Prop :=
  (∀ byte ∈ path, byte ≠ quote ∧ byte ≠ backslash ∧ byte ≠ lf) ∧ path.length ≤ 4080

def ReloadsSame (config : Config) : Prop :=
  ∃ after, loadFile (directives true) configInit (.opened (dump config) false) = (.ok (), after) ∧
    after.classPath = config.classPath

theorem ascii_class_path : ascii "class_path" = [99, 108, 97, 115, 115, 95, 112, 97, 116, 104] := by
  decide

theorem dump_eq (config : Config) :
    dump config = ascii "class_path" ++ 32 :: quote :: (config.classPath ++ [quote, semicolon, lf]) := by
  have opening : ascii "class_path \"" = ascii "class_path" ++ [32, quote] := by decide
  have closing : ascii "\";\n" = [quote, semicolon, lf] := by decide
  simp [dump, opening, closing]

theorem parseToken_name (rest : Bytes) :
    parseToken (ascii "class_path" ++ 32 :: rest) = .ok (ascii "class_path", 32 :: rest) := by
  have word : parsePlain [] (ascii "class_path" ++ 32 :: rest) =
      .ok (ascii "class_path", 32 :: rest) := by
    refine parsePlain_word rest (by decide) ?_ ?_
    · rw [ascii_class_path]
      simp [endsToken, isSpace, semicolon, hashMark]
    · rw [ascii_class_path]
      decide
  rw [ascii_class_path] at word ⊢
  have unquoted : (99 : UInt8) ≠ quote := by decide
  simp only [List.cons_append, List.nil_append] at word ⊢
  simp [parseToken, scanToken, unquoted, word, bind, Except.bind]

theorem parseToken_literal {path : Bytes} (rest : Bytes) (nonempty : path ≠ [])
    (plain : ∀ byte ∈ path, byte ≠ quote ∧ byte ≠ backslash) (short : path.length < lineSize) :
    parseToken (quote :: (path ++ quote :: rest)) = .ok (path, rest) := by
  have scanned := parseQuoted_literal rest [] plain (by simpa using short)
  simp [parseToken, scanToken, scanned, nonempty, bind, Except.bind]

theorem parseLine_dump {config : Config} (nonempty : config.classPath ≠ [])
    (plain : PlainPath config.classPath) :
    parseLine (dump config) = .ok (some (ascii "class_path", [config.classPath])) := by
  have name := parseToken_name (quote :: (config.classPath ++ [quote, semicolon, lf]))
  have value := parseToken_literal [semicolon, lf] nonempty
    (fun byte member => ⟨(plain.1 byte member).1, (plain.1 byte member).2.1⟩)
    (Nat.lt_of_le_of_lt plain.2 (by decide))
  have arguments : parseArguments [] (32 :: quote :: (config.classPath ++ [quote, semicolon, lf]))
      maxArgs = .ok ([config.classPath], [lf]) := by
    have start : skipSpace (32 :: quote :: (config.classPath ++ [quote, semicolon, lf])) =
        quote :: (config.classPath ++ [quote, semicolon, lf]) := by
      simp [skipSpace, isSpace, quote]
    rw [maxArgs, parseArguments_token [] 7 start (by decide) (by decide) value]
    exact parseArguments_close _ 7 (by decide)
  have text := dump_eq config
  have start : skipSpace (dump config) = dump config := by
    rw [text, ascii_class_path]
    simp [skipSpace, isSpace]
  have content : atLineEnd (dump config) = false := by
    unfold atLineEnd
    rw [start, text, ascii_class_path]
    simp [hashMark]
  have head : (dump config).head? = some 99 := by
    rw [text, ascii_class_path]
    rfl
  have ended : atLineEnd [lf] = true := by decide
  rw [← text] at name
  simp [parseLine, content, start, head, name, arguments, ended, openBrace, closeBrace, bind,
    Except.bind]

theorem dump_nonzero {config : Config} (nonzero : 0 ∉ config.classPath) : 0 ∉ dump config := by
  rw [dump_eq, ascii_class_path]
  simp [nonzero, quote, semicolon, lf]

theorem readLines_dump {config : Config} (plain : PlainPath config.classPath) :
    readLines (dump config) false = [dump config] := by
  have whole : dump config =
      (ascii "class_path" ++ 32 :: quote :: (config.classPath ++ [quote, semicolon])) ++ [lf] := by
    simp [dump_eq]
  have unbroken : lf ∉ config.classPath := fun member => (plain.1 lf member).2.2 rfl
  have short := plain.2
  unfold readLines
  rw [if_neg (by simp), whole, fgetsLines_single]
  · simp
  · rw [ascii_class_path]
    simpa [quote, semicolon, lf] using unbroken
  · rw [ascii_class_path]
    simp only [List.length_append, List.length_cons, List.length_nil, lineSize]
    omega

theorem loadLine_dump {config : Config} (nonempty : config.classPath ≠ [])
    (nonzero : 0 ∉ config.classPath) (plain : PlainPath config.classPath) :
    loadLine (directives true) configInit 1 (dump config) = (.ok (), ⟨config.classPath, true⟩) := by
  have visible := cString_eq_self (dump_nonzero nonzero)
  have fits : lineTooLong (dump config) = false := by
    have newline : lf ∈ dump config := by simp [dump_eq]
    simp [lineTooLong, visible, newline]
  have held : parseLine (cString (dump config)) =
      .ok (some (ascii "class_path", [config.classPath])) := by
    rw [visible, parseLine_dump nonempty plain]
  rw [loadLine_directive true configInit 1 fits held, if_pos rfl]
  simp [applyClassPath, setClassPath, nonempty, configInit]

theorem plain_reloads {config : Config} (nonempty : config.classPath ≠ [])
    (nonzero : 0 ∉ config.classPath) (plain : PlainPath config.classPath) : ReloadsSame config := by
  have table : (directives true).isEmpty = false := rfl
  refine ⟨⟨config.classPath, true⟩, ?_, rfl⟩
  simp [loadFile, table, loadLines, readLines_dump plain, loadLine_dump nonempty nonzero plain]

theorem parseToken_start {cursor token rest : Bytes}
    (parsed : parseToken cursor = .ok (token, rest)) :
    ∃ byte tail, cursor = byte :: tail ∧ endsToken byte = false := by
  obtain ⟨scanned, nonempty⟩ := parseToken_cases parsed
  obtain ⟨body, quoted, -⟩ | ⟨-, word, -⟩ := scanToken_cases scanned
  · exact ⟨quote, body ++ quote :: rest, quoted, by decide⟩
  · cases cursor with
    | nil => exact absurd word nonempty
    | cons byte tail =>
      refine ⟨byte, tail, rfl, ?_⟩
      cases ended : endsToken byte with
      | false => rfl
      | true => exact absurd (by simpa [ended] using word) nonempty

/-- The dumped path is read to the end: a shorter or a longer quoted text has
another quote at its end. -/
theorem quoted_body_is_path {path body after : Bytes} (long : path.length ≤ body.length)
    (inside : body ++ quote :: after <+: path ++ [quote, semicolon, lf]) : body = path := by
  obtain ⟨tail, whole⟩ := inside
  rw [List.append_assoc, List.append_eq_append_iff] at whole
  obtain ⟨extra, path_eq, -⟩ | ⟨extra, body_eq, closing⟩ := whole
  · have none : extra = [] := by
      rw [path_eq, List.length_append] at long
      exact List.length_eq_zero_iff.mp (by omega)
    simp [path_eq, none]
  · have none : extra = [] := by
      cases extra with
      | nil => rfl
      | cons first extra =>
        exfalso
        simp only [List.cons_append, List.cons.injEq] at closing
        cases extra with
        | nil => simp [quote, semicolon] at closing
        | cons second extra =>
          simp only [List.cons_append, List.cons.injEq] at closing
          cases extra <;> simp [quote, lf] at closing
    simp [body_eq, none]

theorem dump_first_byte {config : Config} {first : Bytes} (content : first ≠ [])
    (before : first <+: dump config) : ∃ tail, first = 99 :: tail := by
  rw [dump_eq, ascii_class_path] at before
  cases first with
  | nil => exact absurd rfl content
  | cons byte tail =>
    rw [List.cons_append, List.cons_prefix_cons] at before
    exact ⟨tail, by rw [before.1]⟩

theorem letter_skips_nothing (tail : Bytes) : skipSpace (99 :: tail) = 99 :: tail := by
  simp [skipSpace, isSpace]

theorem letter_not_skipped (tail : Bytes) : skippedLine (99 :: tail) = false := by
  have visible : cString (99 :: tail) = 99 :: cString tail := by simp [cString]
  simp [skippedLine, visible, atLineEnd, letter_skips_nothing, hashMark]

theorem dump_argument {path afterName after rest : Bytes}
    (before : afterName <+: 32 :: quote :: (path ++ [quote, semicolon, lf]))
    (token : parseToken (skipSpace afterName) = .ok (path, after))
    (closed : skipSpace after = semicolon :: rest) :
    (∃ rest, afterName = 32 :: quote :: (path ++ quote :: semicolon :: rest)) ∧
      ∀ byte ∈ path, byte ≠ quote ∧ byte ≠ backslash := by
  have start : skipSpace afterName ≠ [] := by
    obtain ⟨byte, tail, start, -⟩ := parseToken_start token
    simp [start]
  obtain ⟨tail, rfl⟩ : ∃ tail, afterName = 32 :: quote :: tail := by
    match afterName, before, start with
    | [], _, start => exact absurd rfl start
    | [byte], before, start =>
      obtain ⟨rfl, -⟩ := List.cons_prefix_cons.mp before
      exact absurd (by simp [skipSpace, isSpace]) start
    | byte :: next :: tail, before, _ =>
      obtain ⟨rfl, further⟩ := List.cons_prefix_cons.mp before
      obtain ⟨rfl, -⟩ := List.cons_prefix_cons.mp further
      exact ⟨tail, rfl⟩
  have opened : skipSpace (32 :: quote :: tail) = quote :: tail := by
    simp [skipSpace, isSpace, quote]
  rw [opened] at token
  simp only [List.cons_prefix_cons, true_and] at before
  obtain ⟨body, text, decodes⟩ | ⟨unquoted, -⟩ := scanToken_cases (parseToken_cases token).1
  · obtain rfl : tail = body ++ quote :: after := by simpa using text
    obtain rfl := quoted_body_is_path (decodes_length_le decodes) before
    rw [List.prefix_append_right_inj, List.cons_prefix_cons] at before
    refine ⟨?_, decodes_same_length decodes rfl⟩
    cases after with
    | nil => simp [skipSpace] at closed
    | cons byte after =>
      obtain ⟨rfl, -⟩ := List.cons_prefix_cons.mp before.2
      exact ⟨after, rfl⟩
  · exact absurd rfl unquoted

theorem dump_line_value {config : Config} {first : Bytes} (content : first ≠ [])
    (before : first <+: dump config) (nonzero : 0 ∉ config.classPath)
    (held : directiveValue first = some config.classPath) :
    (∃ rest, cString first = (ascii "class_path" ++ 32 :: quote :: (config.classPath ++ [quote])) ++
        semicolon :: rest) ∧
      ∀ byte ∈ config.classPath, byte ≠ quote ∧ byte ≠ backslash := by
  obtain ⟨-, parsed⟩ := directiveValue_cases held
  have visible : cString first = first :=
    cString_eq_self fun member => dump_nonzero nonzero (before.subset member)
  obtain ⟨tail, first_eq⟩ := dump_first_byte content before
  have unskipped : skipSpace first = first := by rw [first_eq, letter_skips_nothing]
  obtain ⟨afterName, rest, named, valued, -⟩ := parseLine_cases parsed
  rw [visible, unskipped] at named
  have split : first = ascii "class_path" ++ afterName := by
    obtain ⟨body, quoted, -⟩ | ⟨-, name, left⟩ := scanToken_cases (parseToken_cases named).1
    · rw [first_eq] at quoted
      simp [quote] at quoted
    · rw [name, left, List.takeWhile_append_dropWhile]
  obtain ⟨after, token, closed⟩ := parseArguments_single valued
  rw [split, dump_eq, List.prefix_append_right_inj] at before
  obtain ⟨⟨left, text⟩, plain⟩ := dump_argument before token closed
  refine ⟨⟨left, ?_⟩, plain⟩
  rw [visible, split, text]
  simp

theorem reloaded_is_plain {config : Config} (nonzero : 0 ∉ config.classPath)
    (same : ReloadsSame config) : PlainPath config.classPath := by
  obtain ⟨after, loaded, path⟩ := same
  have table : (directives true).isEmpty = false := rfl
  simp only [loadFile, table, Bool.false_eq_true, ↓reduceIte, readLines] at loaded
  have some_line : fgetsLines [] (dump config) ≠ [] := fgetsLines_nonempty (by simp [dump_eq])
  cases read : fgetsLines [] (dump config) with
  | nil => exact absurd read some_line
  | cons first later =>
    obtain ⟨content, before⟩ := fgetsLines_first read
    rw [List.nil_append] at before
    have shape : LineShape first := by
      refine readLines_shape (dump config) false ?_
      simp [readLines, read]
    obtain ⟨tail, first_eq⟩ := dump_first_byte content before
    have found : directiveLine (first :: later) = some first := by
      simp [directiveLine, first_eq, letter_not_skipped]
    rw [read] at loaded
    obtain ⟨unfound, -⟩ | ⟨line, value, found', held, set⟩ := loadLines_accepted true false loaded
    · simp [found] at unfound
    · obtain rfl : first = line := by simpa [found] using found'
      obtain rfl : value = config.classPath := by simpa [set] using path
      obtain ⟨⟨rest, text⟩, plain⟩ := dump_line_value content before nonzero held
      obtain ⟨unbroken, short⟩ := shape.before_semicolon (directiveValue_cases held).1 text
      refine ⟨fun byte member => ⟨(plain byte member).1, (plain byte member).2, ?_⟩, ?_⟩
      · rintro rfl
        exact unbroken (by simp [member])
      · rw [ascii_class_path] at short
        simp only [List.length_append, List.length_cons, List.length_nil, lineSize] at short
        omega

theorem reloads_iff_plain {config : Config} (nonempty : config.classPath ≠ [])
    (nonzero : 0 ∉ config.classPath) : ReloadsSame config ↔ PlainPath config.classPath :=
  ⟨reloaded_is_plain nonzero, plain_reloads nonempty nonzero⟩

/-- A quoted text, from behind its first quote, with no escape but `\t`. -/
def plainlyQuoted : Bytes → Bool
  | [] => false
  | byte :: rest =>
    if byte = quote then true
    else if byte = backslash then
      match rest with
      | [] => false
      | escaped :: after => escaped == 116 && plainlyQuoted after
    else plainlyQuoted rest

/-- How the argument at this place of the file is written: quoted and with no
escape but `\t`, or as a word without quotes and backslashes that the dump's line
has room for. -/
def plainlyWritten (argument : Bytes) : Bool :=
  match argument with
  | [] => true
  | byte :: rest =>
    if byte = quote then plainlyQuoted rest
    else
      let word := argument.takeWhile (!endsToken ·)
      word.all (fun letter => letter != quote && letter != backslash) && decide (word.length ≤ 4080)

def argumentText (line : Bytes) : Bytes :=
  match parseToken (skipSpace (cString line)) with
  | .ok (_, after) => skipSpace after
  | .error _ => []

/-- The path in the file is written as the dump can print it; a file without a
directive writes none. -/
def writtenPlainly : ConfigFile → Bool
  | .missing _ => true
  | .opened content readError =>
    match directiveLine (readLines content readError) with
    | none => true
    | some line => plainlyWritten (argumentText line)

theorem unescape_plain_iff {escaped decoded : UInt8} (known : unescape escaped = some decoded) :
    (decoded ≠ quote ∧ decoded ≠ backslash ∧ decoded ≠ lf) ↔ escaped = 116 := by
  unfold unescape at known
  split at known
  · rename_i special
    simp only [Option.some.injEq] at known
    subst known
    obtain rfl | rfl := special
    · simp [quote]
    · simp [backslash]
  · split at known
    · rename_i newline
      simp only [Option.some.injEq] at known
      simp [← known, newline]
    · split at known
      · rename_i tab
        simp only [Option.some.injEq] at known
        simp [← known, tab, quote, backslash, lf]
      · cases known

theorem decodes_plain_iff {body value : Bytes} (rest : Bytes) (decodes : Decodes body value) :
    lf ∉ body → (plainlyQuoted (body ++ quote :: rest) = true ↔
      ∀ byte ∈ value, byte ≠ quote ∧ byte ≠ backslash ∧ byte ≠ lf) := by
  induction decodes with
  | done =>
    intro unbroken
    unfold plainlyQuoted
    simp
  | byte unquoted unescaped tail ih =>
    intro unbroken
    simp only [List.mem_cons, not_or] at unbroken
    have here : _ ≠ lf := fun same => unbroken.1 same.symm
    rw [List.cons_append]
    unfold plainlyQuoted
    simp [unquoted, unescaped, here, ih unbroken.2]
  | escape known tail ih =>
    intro unbroken
    simp only [List.mem_cons, not_or] at unbroken
    have other : backslash ≠ quote := by decide
    rw [List.cons_append, List.cons_append]
    unfold plainlyQuoted
    simp [other, ih unbroken.2.2, ← unescape_plain_iff known]

/-- The name takes at least eleven bytes with what separates it from its argument:
a space behind the plain name, or its two quotes. -/
theorem name_separated {text afterName value after : Bytes}
    (named : parseToken text = .ok (ascii "class_path", afterName))
    (valued : parseToken (skipSpace afterName) = .ok (value, after)) :
    ∃ front, text = front ++ skipSpace afterName ∧ 11 ≤ front.length := by
  obtain ⟨spaces, -, split⟩ := skipSpace_split afterName
  have nameLength : (ascii "class_path").length = 10 := by
    rw [ascii_class_path]
    rfl
  obtain ⟨body, quoted, decodes⟩ | ⟨-, name, left⟩ := scanToken_cases (parseToken_cases named).1
  · refine ⟨quote :: body ++ quote :: spaces, ?_, ?_⟩
    · rw [quoted]
      nth_rewrite 1 [split]
      simp
    · have longer := decodes_length_le decodes
      simp only [List.length_append, List.length_cons]
      omega
  · have whole : text = ascii "class_path" ++ afterName := by
      rw [name, left, List.takeWhile_append_dropWhile]
    refine ⟨ascii "class_path" ++ spaces, ?_, ?_⟩
    · rw [List.append_assoc, ← split, whole]
    · cases spaces with
      | cons space spaces =>
        simp only [List.length_append, List.length_cons]
        omega
      | nil =>
        obtain ⟨byte, tail, start, inside⟩ := parseToken_start valued
        have stopped := List.head?_dropWhile_not (!endsToken ·) text
        rw [← left, split, List.nil_append, start] at stopped
        simp [inside] at stopped

theorem directive_text {line value : Bytes} (held : directiveValue line = some value) :
    ∃ front after rest, cString line = front ++ argumentText line ∧ 11 ≤ front.length ∧
      parseToken (argumentText line) = .ok (value, after) ∧ skipSpace after = semicolon :: rest := by
  obtain ⟨-, parsed⟩ := directiveValue_cases held
  obtain ⟨afterName, rest, named, valued, -⟩ := parseLine_cases parsed
  obtain ⟨after, token, closed⟩ := parseArguments_single valued
  obtain ⟨front, text, long⟩ := name_separated named token
  obtain ⟨spaces, -, split⟩ := skipSpace_split (cString line)
  have argument : argumentText line = skipSpace afterName := by simp [argumentText, named]
  refine ⟨spaces ++ front, after, _, ?_, ?_, argument ▸ token, closed⟩
  · rw [argument, List.append_assoc, ← text, ← split]
  · rw [List.length_append]
    omega

theorem value_plain_iff {line value : Bytes} (shape : LineShape line)
    (held : directiveValue line = some value) :
    PlainPath value ↔ plainlyWritten (argumentText line) = true := by
  obtain ⟨front, after, rest, text, long, token, closed⟩ := directive_text held
  obtain ⟨scanned, nonempty⟩ := parseToken_cases token
  obtain ⟨body, quoted, decodes⟩ | ⟨unquoted, word, -⟩ := scanToken_cases scanned
  · obtain ⟨spaces, -, split⟩ := skipSpace_split after
    have whole : cString line =
        (front ++ quote :: (body ++ quote :: spaces)) ++ semicolon :: rest := by
      rw [text, quoted, split, closed]
      simp
    obtain ⟨unbroken, short⟩ := shape.before_semicolon (directiveValue_cases held).1 whole
    have length_le : value.length ≤ 4080 := by
      have longer := decodes_length_le decodes
      simp only [List.length_append, List.length_cons, lineSize] at short
      omega
    have written := decodes_plain_iff after decodes (fun member => unbroken (by simp [member]))
    rw [quoted]
    simpa [plainlyWritten, PlainPath, length_le] using written.symm
  · have unbroken : ∀ byte ∈ value, byte ≠ lf := by
      rintro byte member rfl
      rw [word] at member
      exact absurd (List.mem_takeWhile_imp member) (by decide)
    obtain ⟨byte, tail, start, -⟩ := parseToken_start token
    have other : byte ≠ quote := by simpa [start] using unquoted
    rw [start] at word
    rw [start, plainlyWritten, if_neg other, ← word]
    simp only [PlainPath, Bool.and_eq_true, List.all_eq_true, bne_iff_ne, decide_eq_true_eq]
    refine and_congr_left' (forall₂_congr fun letter member => ?_)
    have here := unbroken letter member
    tauto

theorem value_nonzero {line value : Bytes} (held : directiveValue line = some value) :
    0 ∉ value := by
  obtain ⟨front, after, rest, text, -, token, -⟩ := directive_text held
  have absent : 0 ∉ argumentText line := by
    intro member
    exact cString_nonzero line (by simp [text, member])
  obtain ⟨body, quoted, decodes⟩ | ⟨-, word, -⟩ := scanToken_cases (parseToken_cases token).1
  · exact decodes_nonzero decodes fun member => absent (by simp [quoted, member])
  · rw [word]
    exact fun member => absent (List.takeWhile_subset _ member)

/-- The dump of what a file sets is read back exactly when the file writes the path
plainly. -/
theorem dump_reloads_iff (memory : Bool) (file : ConfigFile) (after : Config)
    (accepted : loadFile (directives memory) configInit file = (.ok (), after)) :
    ReloadsSame after ↔ writtenPlainly file = true := by
  have table : (directives memory).isEmpty = false := rfl
  cases file with
  | missing reason => simp [loadFile, table] at accepted
  | opened content readError =>
    simp only [loadFile, table, Bool.false_eq_true, ↓reduceIte] at accepted
    obtain ⟨unfound, rfl⟩ | ⟨line, value, found, held, rfl⟩ :=
      loadLines_accepted memory readError accepted
    · have plain : PlainPath configInit.classPath := by
        refine ⟨?_, ?_⟩
        · decide +kernel
        · decide
      have reloads : ReloadsSame configInit :=
        plain_reloads (by decide) (by decide) plain
      simp [writtenPlainly, unfound, reloads]
    · have shape : LineShape line :=
        readLines_shape content readError (List.mem_of_find?_eq_some found)
      rw [reloads_iff_plain (directiveValue_nonempty held) (value_nonzero held),
        value_plain_iff shape held]
      simp [writtenPlainly, found]

theorem dump_reloads_tabbed :
    loadFile (directives true) configInit (.opened (ascii "class_path \"a\\tb\";\n") false) =
        (.ok (), ⟨ascii "a\tb", true⟩) ∧
      ReloadsSame ⟨ascii "a\tb", true⟩ := by
  have loaded : loadFile (directives true) configInit
      (.opened (ascii "class_path \"a\\tb\";\n") false) = (.ok (), ⟨ascii "a\tb", true⟩) := by
    decide +kernel
  exact ⟨loaded, (dump_reloads_iff true _ _ loaded).mpr (by decide +kernel)⟩

/-- An escaped quote is accepted, and the dump of its value is not. -/
theorem escaped_quote_not_reloaded :
    ∃ after, loadFile (directives true) configInit
        (.opened (ascii "class_path \"a\\\"b\";\n") false) = (.ok (), after) ∧
      ¬ ReloadsSame after := by
  refine ⟨⟨ascii "a\"b", true⟩, by decide +kernel, ?_⟩
  rintro ⟨after, loaded, -⟩
  have answer : (loadFile (directives true) configInit
      (.opened (dump ⟨ascii "a\"b", true⟩) false)).1 = .ok () := congrArg Prod.fst loaded
  exact absurd answer (by decide +kernel)

end CkartaConfigDump
