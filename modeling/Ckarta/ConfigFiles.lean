import Ckarta.ConfigGrammar
import Ckarta.ConfigLoad

/-!
Whole files. The loader accepts exactly the files of the grammar and leaves the
configuration they describe; a file that it refuses, it refuses at a line, and the
number it reports counts the newlines before that line.
-/
namespace CkartaConfigFiles
open CkartaHttpParser CkartaConfig CkartaConfigLoad CkartaConfigLines
open CkartaConfigGrammar

def Sets (memory : Bool) (config : Config) (path : Option Bytes) (after : Config) : Prop :=
  match path with
  | none => after = config
  | some value => config.classPathConfigured = false ∧ memory = true ∧ after = ⟨value, true⟩

theorem sets_or {memory : Bool} {config after : Config} {first later : Option Bytes} :
    (∃ between, Sets memory config first between ∧ Sets memory between later after) ↔
      (first = none ∨ later = none) ∧ Sets memory config (first.or later) after := by
  constructor
  · intro inRow
    obtain ⟨between, before, behind⟩ := inRow
    cases first with
    | none =>
      obtain rfl : between = config := before
      exact ⟨.inl rfl, behind⟩
    | some value =>
      obtain ⟨unset, room, rfl⟩ := before
      cases later with
      | none => exact ⟨.inr rfl, unset, room, behind⟩
      | some second => simp [Sets] at behind
  · intro once
    obtain ⟨rfl | rfl, set⟩ := once
    · exact ⟨config, rfl, set⟩
    · exact ⟨after, by simpa using set, rfl⟩

theorem cString_newline {text : Bytes} (nonzero : 0 ∉ text) : cString (text ++ [lf]) = text ++ [lf] := by
  apply cString_eq_self
  simp only [List.mem_append, List.mem_singleton, not_or]
  exact ⟨nonzero, by decide⟩

theorem lineTooLong_newline {text : Bytes} (unbroken : lf ∉ text) :
    lineTooLong (text ++ [lf]) = false ↔ 0 ∉ text := by
  constructor
  · intro fits zero
    have cut : lf ∉ cString (text ++ [lf]) := by
      obtain ⟨front, tail, rfl, clean⟩ := List.eq_append_cons_of_mem zero
      have seen : cString (front ++ 0 :: tail ++ [lf]) = front := by
        unfold cString
        rw [List.append_assoc, List.takeWhile_append_of_pos]
        · simp
        · intro byte member
          simp only [bne_iff_ne, ne_eq]
          intro same
          exact clean (same ▸ member)
      rw [seen]
      intro inside
      exact unbroken (by simp [inside])
    simp [lineTooLong, cut, atEnd] at fits
  · intro clean
    simp [lineTooLong, cString_newline clean]

theorem lineTooLong_last {text : Bytes} (unbroken : lf ∉ text) (short : text.length < lineSize - 1) :
    lineTooLong text = false := by
  simp [lineTooLong, atEnd, unbroken, short]

theorem lineTooLong_full {text : Bytes} (unbroken : lf ∉ text) (full : text.length = lineSize - 1) :
    lineTooLong text = true := by
  have unseen : lf ∉ cString text := fun inside => unbroken ((cString_begins_line text).subset inside)
  simp [lineTooLong, atEnd, unseen, full]

theorem loadLine_iff {memory : Bool} {config after : Config} {number : Nat} {line : Bytes}
    (short : line.length < lineSize) :
    loadLine (directives memory) config number line = (.ok (), after) ↔
      lineTooLong line = false ∧ ∃ path, Line (cString line) path ∧ Sets memory config path after := by
  have visible := (cString_begins_line line).length_le
  constructor
  · intro loaded
    obtain ⟨skipped, kept⟩ | ⟨value, -, held, unset, room, set⟩ | ⟨failure, -, -, refused⟩ :=
      loadLine_cases memory config number line
    · obtain ⟨fits, ended⟩ : lineTooLong line = false ∧ atLineEnd (cString line) = true := by
        simpa [skippedLine] using skipped
      have same : after = config := by
        rw [kept] at loaded
        exact (Prod.mk.inj loaded).2.symm
      exact ⟨fits, none, .skipped (lineTail_iff.mpr ended), same⟩
    · obtain ⟨fits, parsed⟩ := directiveValue_cases held
      have same : after = ⟨value, true⟩ := by
        rw [set] at loaded
        exact (Prod.mk.inj loaded).2.symm
      exact ⟨fits, some value, .path ((parseLine_iff (by omega)).mp parsed), unset, room, same⟩
    · rw [refused] at loaded
      simp at loaded
  · intro reads
    obtain ⟨fits, path, grammar, set⟩ := reads
    cases grammar with
    | skipped tail =>
      obtain rfl : after = config := set
      exact loadLine_skipped _ _ number (by simp [skippedLine, fits, lineTail_iff.mp tail])
    | @path value directive =>
      obtain ⟨unset, rfl, rfl⟩ := set
      have parsed := (parseLine_iff (by omega)).mpr directive
      have held : directiveValue line = some value := by simp [directiveValue, fits, parsed]
      rw [loadLine_directive true config number fits parsed, if_pos rfl]
      simp [applyClassPath, setClassPath, directiveValue_nonempty held, unset]

theorem fgetsLines_line {text : Bytes} (rest : Bytes) :
    ∀ {current : Bytes}, lf ∉ text → current.length + text.length < lineSize - 1 →
    fgetsLines current (text ++ lf :: rest) = (current ++ text ++ [lf]) :: fgetsLines [] rest := by
  induction text with
  | nil =>
    intro current unbroken short
    simp [fgetsLines]
  | cons byte text ih =>
    intro current unbroken short
    simp only [List.mem_cons, not_or, List.length_cons] at unbroken short
    have inside : ¬ (byte = lf ∨ current.length + 1 = lineSize - 1) := by
      rw [not_or]
      exact ⟨fun same => unbroken.1 same.symm, by omega⟩
    rw [List.cons_append, fgetsLines, if_neg inside, ih unbroken.2]
    · simp
    · simp only [List.length_append, List.length_singleton]
      omega

theorem fgetsLines_last {text : Bytes} :
    ∀ {current : Bytes}, lf ∉ text → current.length + text.length < lineSize - 1 →
    current ++ text ≠ [] → fgetsLines current text = [current ++ text] := by
  induction text with
  | nil =>
    intro current unbroken short content
    simpa [fgetsLines] using content
  | cons byte text ih =>
    intro current unbroken short content
    simp only [List.mem_cons, not_or, List.length_cons] at unbroken short
    have inside : ¬ (byte = lf ∨ current.length + 1 = lineSize - 1) := by
      rw [not_or]
      exact ⟨fun same => unbroken.1 same.symm, by omega⟩
    rw [fgetsLines, if_neg inside, ih unbroken.2]
    · simp
    · simp only [List.length_append, List.length_singleton]
      omega
    · simp

theorem fgetsLines_full {text : Bytes} (rest : Bytes) :
    ∀ {current : Bytes}, lf ∉ text → text ≠ [] → current.length + text.length = lineSize - 1 →
    fgetsLines current (text ++ rest) = (current ++ text) :: fgetsLines [] rest := by
  induction text with
  | nil =>
    intro current unbroken nonempty full
    exact absurd rfl nonempty
  | cons byte text ih =>
    intro current unbroken nonempty full
    simp only [List.mem_cons, not_or, List.length_cons] at unbroken full
    cases text with
    | nil =>
      have filled : current.length + 1 = lineSize - 1 := by simpa using full
      simp [fgetsLines, filled]
    | cons next text =>
      have inside : ¬ (byte = lf ∨ current.length + 1 = lineSize - 1) := by
        simp only [List.length_cons] at full
        rw [not_or]
        exact ⟨fun same => unbroken.1 same.symm, by omega⟩
      rw [List.cons_append, fgetsLines, if_neg inside, ih unbroken.2 (by simp)]
      · simp
      · simp only [List.length_append, List.length_singleton]
        omega

theorem full_nonempty {text : Bytes} (full : text.length = lineSize - 1) : text ≠ [] := by
  intro nothing
  simp [nothing, lineSize] at full

theorem content_cases (content : Bytes) :
    (∃ text rest, content = text ++ lf :: rest ∧ lf ∉ text ∧ text.length < lineSize - 1) ∨
    (lf ∉ content ∧ content.length < lineSize - 1) ∨
    ∃ text rest, content = text ++ rest ∧ lf ∉ text ∧ text.length = lineSize - 1 := by
  have whole := List.take_append_drop (lineSize - 1) content
  have length := List.length_take (i := lineSize - 1) (l := content)
  by_cases broken : lf ∈ content.take (lineSize - 1)
  · obtain ⟨text, tail, split, unbroken⟩ := List.eq_append_cons_of_mem broken
    refine .inl ⟨text, tail ++ content.drop (lineSize - 1), ?_, unbroken, ?_⟩
    · rw [← List.cons_append, ← List.append_assoc, ← split, whole]
    · rw [split] at length
      simp only [List.length_append, List.length_cons] at length
      omega
  · by_cases short : content.length < lineSize - 1
    · rw [List.take_of_length_le (by omega)] at broken
      exact .inr (.inl ⟨broken, short⟩)
    · exact .inr (.inr ⟨_, _, whole.symm, broken, by omega⟩)

theorem loadLines_cons_ok {memory : Bool} {config after : Config} {number : Nat} {line : Bytes}
    {rest : List Bytes} :
    loadLines (directives memory) false config number (line :: rest) = (.ok (), after) ↔
      ∃ between, loadLine (directives memory) config (number + 1) line = (.ok (), between) ∧
        loadLines (directives memory) false between (number + 1) rest = (.ok (), after) := by
  rw [loadLines]
  cases loaded : loadLine (directives memory) config (number + 1) line with
  | mk answer between =>
    cases answer with
    | error failure => simp
    | ok done => simp

/-- A file that cannot be read to its end is never accepted. -/
theorem loadLines_read_error (memory : Bool) (after : Config) :
    ∀ (lines : List Bytes) (config : Config) (number : Nat),
    loadLines (directives memory) true config number lines ≠ (.ok (), after) := by
  intro lines
  induction lines with
  | nil =>
    intro config number
    simp [loadLines]
  | cons line rest ih =>
    intro config number
    rw [loadLines]
    cases loaded : loadLine (directives memory) config (number + 1) line with
    | mk answer between =>
      cases answer with
      | error failure => simp
      | ok done => exact ih between (number + 1)

theorem file_loads {memory : Bool} {content : Bytes} {path : Option Bytes}
    (file : File content path) :
    ∀ {config after : Config} {number : Nat}, Sets memory config path after →
    loadLines (directives memory) false config number (fgetsLines [] content) = (.ok (), after) := by
  induction file with
  | @last text path unbroken short line =>
    intro config after number set
    by_cases content : text = []
    · subst content
      cases line with
      | skipped tail =>
        obtain rfl : after = config := set
        simp [fgetsLines, loadLines]
      | path directive =>
        have nothing := (parseLine_iff (by simp [cString, lineSize])).mpr directive
        simp [cString, parseLine, atLineEnd, skipSpace] at nothing
    · rw [fgetsLines_last unbroken (by simpa using short) (by simpa using content), List.nil_append,
        loadLines_cons_ok]
      refine ⟨after, ?_, by simp [loadLines]⟩
      exact (loadLine_iff (by omega)).mpr ⟨lineTooLong_last unbroken short, path, line, set⟩
  | @line text rest first later unbroken nonzero short line further once ih =>
    intro config after number set
    obtain ⟨between, before, behind⟩ := sets_or.mpr ⟨once, set⟩
    rw [fgetsLines_line rest unbroken (by simpa using short), List.nil_append, loadLines_cons_ok]
    refine ⟨between, ?_, ih behind⟩
    have fits := (lineTooLong_newline unbroken).mpr nonzero
    refine (loadLine_iff ?_).mpr ⟨fits, first, (cString_newline nonzero).symm ▸ line, before⟩
    simp only [List.length_append, List.length_singleton]
    omega

/-- The text is a file of the grammar, and it turns one configuration into the other. -/
def Accepts (memory : Bool) (config : Config) (content : Bytes) (after : Config) : Prop :=
  ∃ path, File content path ∧ Sets memory config path after

theorem accepts_line {memory : Bool} {config between after : Config} {number : Nat}
    {text rest : Bytes} (unbroken : lf ∉ text) (short : text.length < lineSize - 1)
    (loaded : loadLine (directives memory) config number (text ++ [lf]) = (.ok (), between))
    (further : Accepts memory between rest after) :
    Accepts memory config (text ++ lf :: rest) after := by
  have bound : (text ++ [lf]).length < lineSize := by
    simp only [List.length_append, List.length_singleton]
    omega
  obtain ⟨fits, first, line, before⟩ := (loadLine_iff bound).mp loaded
  obtain ⟨later, file, behind⟩ := further
  have nonzero := (lineTooLong_newline unbroken).mp fits
  rw [cString_newline nonzero] at line
  obtain ⟨once, set⟩ := sets_or.mp ⟨between, before, behind⟩
  exact ⟨first.or later, .line unbroken nonzero short line file once, set⟩

theorem loadLines_iff {memory : Bool} {content : Bytes} :
    ∀ {config after : Config} {number : Nat},
    loadLines (directives memory) false config number (fgetsLines [] content) = (.ok (), after) ↔
      Accepts memory config content after := by
  intro config after number
  constructor
  · intro loaded
    induction size : content.length using Nat.strong_induction_on
      generalizing content config number with
    | _ size ih =>
      obtain ⟨text, rest, rfl, unbroken, short⟩ | ⟨unbroken, short⟩ |
        ⟨text, rest, rfl, unbroken, full⟩ := content_cases content
      · rw [fgetsLines_line rest unbroken (by simpa using short), List.nil_append,
          loadLines_cons_ok] at loaded
        obtain ⟨between, first, later⟩ := loaded
        simp only [List.length_append, List.length_cons] at size
        exact accepts_line unbroken short first (ih rest.length (by omega) later rfl)
      · by_cases nothing : content = []
        · subst nothing
          have same : after = config := by
            simpa [fgetsLines, loadLines, eq_comm] using loaded
          exact ⟨none, .last unbroken short (.skipped (.bare (by simp [Blank, cString]))), same⟩
        · rw [fgetsLines_last unbroken (by simpa using short) (by simpa using nothing),
            List.nil_append, loadLines_cons_ok] at loaded
          obtain ⟨between, first, later⟩ := loaded
          obtain rfl : between = after := by simpa [loadLines] using later
          obtain ⟨-, path, line, set⟩ := (loadLine_iff (by omega)).mp first
          exact ⟨path, .last unbroken short line, set⟩
      · rw [fgetsLines_full rest unbroken (full_nonempty full) (by simpa using full), List.nil_append,
          loadLines_cons_ok] at loaded
        obtain ⟨between, first, -⟩ := loaded
        simp [loadLine, lineTooLong_full unbroken full] at first
  · intro accepted
    obtain ⟨path, file, set⟩ := accepted
    exact file_loads file set

/-- The loader accepts exactly the files of the grammar, when they can be read to
their end, and the configuration it leaves holds the path the file sets. -/
theorem load_iff_grammar (memory : Bool) (config after : Config) (content : Bytes)
    (readError : Bool) :
    loadFile (directives memory) config (.opened content readError) = (.ok (), after) ↔
      readError = false ∧ ∃ path, File content path ∧ Sets memory config path after := by
  have table : (directives memory).isEmpty = false := rfl
  cases readError with
  | true =>
    simp only [loadFile, table, Bool.false_eq_true, ↓reduceIte, Bool.true_eq_false, false_and,
      iff_false]
    exact loadLines_read_error _ _ _ _ _
  | false =>
    simp only [loadFile, table, Bool.false_eq_true, ↓reduceIte, readLines, true_and]
    exact loadLines_iff

def firstLine : Bytes → Bytes
  | [] => []
  | byte :: rest => if byte = lf then [lf] else byte :: firstLine rest

theorem firstLine_unbroken {text : Bytes} (rest : Bytes) (unbroken : lf ∉ text) :
    firstLine (text ++ rest) = text ++ firstLine rest := by
  induction text with
  | nil => simp
  | cons byte text ih =>
    simp only [List.mem_cons, not_or] at unbroken
    have inside : byte ≠ lf := fun same => unbroken.1 same.symm
    simp [firstLine, inside, ih unbroken.2]

def WholeLines (front : Bytes) : Prop := front = [] ∨ front.getLast? = some lf

/-- A line the loader takes and refuses without a text. -/
def SilentLine (line : Bytes) : Prop :=
  line.length < lineSize ∧ lineTooLong line = false ∧ EmptyTokenLine (cString line)

theorem applyClassPath_spoken (memory : Bool) {config after : Config} {arguments : List Bytes}
    {number : Nat} {failure : Failure}
    (refused : applyClassPath memory config arguments number = (.error failure, after)) :
    ∃ message, failure = some (setError number message) := by
  unfold applyClassPath at refused
  split at refused
  · split at refused
    · simp only [Prod.mk.injEq, Except.error.injEq] at refused
      exact ⟨_, refused.1.symm⟩
    · simp at refused
  · simp only [Prod.mk.injEq, Except.error.injEq] at refused
    exact ⟨_, refused.1.symm⟩

theorem loadLine_failure {memory : Bool} {config after : Config} {number : Nat} {line : Bytes}
    {failure : Failure} (short : line.length < lineSize)
    (refused : loadLine (directives memory) config number line = (.error failure, after)) :
    (failure = none ↔ SilentLine line) ∧
      ∀ text, failure = some text → ∃ message, text = setError number message := by
  have visible := (cString_begins_line line).length_le
  cases long : lineTooLong line with
  | true =>
    have said : failure = some (setError number "configuration line is too long") := by
      simpa [loadLine, long, eq_comm] using congrArg Prod.fst refused
    subst said
    exact ⟨by simp [SilentLine, long], fun text same => ⟨_, (Option.some.inj same).symm⟩⟩
  | false =>
    have silentLine : SilentLine line ↔ parseLine (cString line) = .error none := by
      rw [parseLine_silent (by omega)]
      simp [SilentLine, short, long]
    rw [silentLine]
    cases parsed : parseLine (cString line) with
    | error reason =>
      have said : failure = reason.map (setError number) := by
        simpa [loadLine, long, parsed, eq_comm] using congrArg Prod.fst refused
      subst said
      cases reason with
      | none => simp
      | some message => exact ⟨by simp, fun text same => ⟨message, (Option.some.inj same).symm⟩⟩
    | ok read =>
      have spoken : ∃ message, failure = some (setError number message) := by
        cases read with
        | none => simp [loadLine, long, parsed] at refused
        | some directive =>
          obtain ⟨name, arguments⟩ := directive
          rw [loadLine_directive memory config number long parsed] at refused
          split at refused
          · exact applyClassPath_spoken memory refused
          · simp only [Prod.mk.injEq, Except.error.injEq] at refused
            exact ⟨_, refused.1.symm⟩
      obtain ⟨message, rfl⟩ := spoken
      exact ⟨by simp, fun text same => ⟨message, (Option.some.inj same).symm⟩⟩

theorem loadLines_cons_error {memory : Bool} {config after : Config} {number : Nat} {line : Bytes}
    {rest : List Bytes} {failure : Failure}
    (refused : loadLines (directives memory) false config number (line :: rest) =
      (.error failure, after)) :
    loadLine (directives memory) config (number + 1) line = (.error failure, config) ∧ after = config ∨
    ∃ between, loadLine (directives memory) config (number + 1) line = (.ok (), between) ∧
      loadLines (directives memory) false between (number + 1) rest = (.error failure, after) := by
  rw [loadLines] at refused
  obtain ⟨-, loaded⟩ | ⟨value, -, -, -, -, loaded⟩ | ⟨reason, -, -, loaded⟩ :=
    loadLine_cases memory config (number + 1) line
  · rw [loaded] at refused
    exact .inr ⟨_, loaded, refused⟩
  · rw [loaded] at refused
    exact .inr ⟨_, loaded, refused⟩
  · rw [loaded] at refused
    simp only [Prod.mk.injEq, Except.error.injEq] at refused
    obtain ⟨rfl, rfl⟩ := refused
    exact .inl ⟨loaded, rfl⟩

/-- Where a refusal stands: behind `front`, whose lines are accepted, at a line
that is not. -/
structure Refused (memory : Bool) (config : Config) (number : Nat) (content : Bytes)
    (failure : Failure) (after : Config) (front rest : Bytes) : Prop where
  split : content = front ++ rest
  whole : WholeLines front
  accepted : Accepts memory config front after
  refused : ∀ last, ¬ Accepts memory after (firstLine rest) last
  silent : failure = none ↔ SilentLine (firstLine rest)
  numbered : ∀ text, failure = some text →
    ∃ message, text = setError (number + front.count lf + 1) message

/-- A line that fills the buffer is refused with a text, however it goes on. -/
theorem long_not_silent {text line more : Bytes} (long : lineTooLong text = true)
    (full : text.length = lineSize - 1) (goesOn : line = text ++ more) : ¬ SilentLine line := by
  intro silent
  obtain ⟨short, fits, -⟩ := silent
  rw [goesOn, List.length_append] at short
  have ended : more = [] := by
    apply List.eq_nil_of_length_eq_zero
    omega
  rw [goesOn, ended, List.append_nil, long] at fits
  simp at fits

theorem refused_first {memory : Bool} {config : Config} {number : Nat} {content line : Bytes}
    {failure : Failure} {more : List Bytes}
    (reads : fgetsLines [] (firstLine content) = line :: more)
    (loaded : loadLine (directives memory) config (number + 1) line = (.error failure, config))
    (silent : failure = none ↔ SilentLine (firstLine content))
    (numbered : ∀ text, failure = some text → ∃ message, text = setError (number + 1) message) :
    Refused memory config number content failure config [] content := by
  have nothing : Accepts memory config [] config :=
    ⟨none, .last (by simp) (by simp [lineSize]) (.skipped (.bare (by simp [Blank, cString]))), rfl⟩
  have stuck : ∀ last, ¬ Accepts memory config (firstLine content) last := by
    intro last accepted
    have success := (@loadLines_iff memory _ config last number).mpr accepted
    rw [reads, loadLines_cons_ok] at success
    obtain ⟨between, first, -⟩ := success
    simp [loaded] at first
  exact ⟨rfl, .inl rfl, nothing, stuck, silent, by simpa using numbered⟩

theorem wholeLines_cons {text front : Bytes} (whole : WholeLines front) :
    WholeLines (text ++ lf :: front) := by
  right
  obtain rfl | last := whole
  · simp
  · cases front with
    | nil => simp at last
    | cons byte front => simpa using last

theorem refused_line {memory : Bool} {config : Config} {number : Nat} {text : Bytes} (rest : Bytes)
    {failure : Failure} (unbroken : lf ∉ text) (short : text.length < lineSize - 1)
    (loaded : loadLine (directives memory) config (number + 1) (text ++ [lf]) =
      (.error failure, config)) :
    Refused memory config number (text ++ lf :: rest) failure config [] (text ++ lf :: rest) := by
  have first : firstLine (text ++ lf :: rest) = text ++ [lf] := by
    rw [firstLine_unbroken _ unbroken]
    simp [firstLine]
  have bound : (text ++ [lf]).length < lineSize := by
    simp only [List.length_append, List.length_singleton]
    omega
  obtain ⟨silent, numbered⟩ := loadLine_failure bound loaded
  have reads : fgetsLines [] (firstLine (text ++ lf :: rest)) = [text ++ [lf]] := by
    rw [first]
    exact fgetsLines_line [] unbroken (by simpa using short)
  rw [← first] at silent
  exact refused_first reads loaded silent numbered

theorem refused_last {memory : Bool} {config : Config} {number : Nat} {text : Bytes}
    {failure : Failure} (unbroken : lf ∉ text) (short : text.length < lineSize - 1)
    (content : text ≠ [])
    (loaded : loadLine (directives memory) config (number + 1) text = (.error failure, config)) :
    Refused memory config number text failure config [] text := by
  have first : firstLine text = text := by
    simpa [firstLine] using firstLine_unbroken [] unbroken
  obtain ⟨silent, numbered⟩ := loadLine_failure (by omega) loaded
  have reads : fgetsLines [] (firstLine text) = [text] := by
    rw [first]
    exact fgetsLines_last unbroken (by simpa using short) (by simpa using content)
  rw [← first] at silent
  exact refused_first reads loaded silent numbered

theorem refused_full {memory : Bool} {config : Config} {number : Nat} {text : Bytes} (rest : Bytes)
    {failure : Failure} (unbroken : lf ∉ text) (full : text.length = lineSize - 1)
    (loaded : loadLine (directives memory) config (number + 1) text = (.error failure, config)) :
    Refused memory config number (text ++ rest) failure config [] (text ++ rest) := by
  have first := firstLine_unbroken rest unbroken
  have long := lineTooLong_full unbroken full
  obtain ⟨silent, numbered⟩ := loadLine_failure (by simp [full, lineSize]) loaded
  have reads : fgetsLines [] (firstLine (text ++ rest)) = text :: fgetsLines [] (firstLine rest) := by
    rw [first]
    exact fgetsLines_full _ unbroken (full_nonempty full) (by simpa using full)
  have spoken : ¬ SilentLine text := fun line => by simp [SilentLine, long] at line
  have neither : failure = none ↔ SilentLine (firstLine (text ++ rest)) := by
    simp only [silent, spoken, false_iff]
    exact long_not_silent long full first
  exact refused_first reads loaded neither numbered

theorem Refused.later {memory : Bool} {config between after : Config} {number : Nat}
    {text rest front tail : Bytes} {failure : Failure} (unbroken : lf ∉ text)
    (short : text.length < lineSize - 1)
    (loaded : loadLine (directives memory) config (number + 1) (text ++ [lf]) = (.ok (), between))
    (found : Refused memory between (number + 1) rest failure after front tail) :
    Refused memory config number (text ++ lf :: rest) failure after (text ++ lf :: front) tail := by
  refine ⟨by simp [found.split], wholeLines_cons found.whole,
    accepts_line unbroken short loaded found.accepted, found.refused, found.silent, ?_⟩
  intro said same
  obtain ⟨message, numbered⟩ := found.numbered said same
  have count : (text ++ lf :: front).count lf = front.count lf + 1 := by
    simp [List.count_eq_zero_of_not_mem unbroken]
  refine ⟨message, ?_⟩
  rw [numbered, count]
  congr 1
  omega

/-- Every refusal stands behind the lines that were accepted. -/
theorem loadLines_refused {memory : Bool} {failure : Failure} {after : Config} {content : Bytes} :
    ∀ {config : Config} {number : Nat},
    loadLines (directives memory) false config number (fgetsLines [] content) =
      (.error failure, after) →
    ∃ front rest, Refused memory config number content failure after front rest := by
  induction size : content.length using Nat.strong_induction_on generalizing content with
  | _ size ih =>
    intro config number failed
    obtain ⟨text, rest, rfl, unbroken, short⟩ | ⟨unbroken, short⟩ |
      ⟨text, rest, rfl, unbroken, full⟩ := content_cases content
    · rw [fgetsLines_line rest unbroken (by simpa using short), List.nil_append] at failed
      obtain ⟨loaded, rfl⟩ | ⟨between, loaded, later⟩ := loadLines_cons_error failed
      · exact ⟨[], _, refused_line rest unbroken short loaded⟩
      · simp only [List.length_append, List.length_cons] at size
        obtain ⟨front, tail, found⟩ := ih rest.length (by omega) rfl later
        exact ⟨_, tail, found.later unbroken short loaded⟩
    · by_cases nothing : content = []
      · simp [nothing, fgetsLines, loadLines] at failed
      · rw [fgetsLines_last unbroken (by simpa using short) (by simpa using nothing),
          List.nil_append] at failed
        obtain ⟨loaded, rfl⟩ | ⟨between, -, later⟩ := loadLines_cons_error failed
        · exact ⟨[], _, refused_last unbroken short nothing loaded⟩
        · simp [loadLines] at later
    · rw [fgetsLines_full rest unbroken (full_nonempty full) (by simpa using full),
        List.nil_append] at failed
      obtain ⟨loaded, rfl⟩ | ⟨between, loaded, -⟩ := loadLines_cons_error failed
      · exact ⟨[], _, refused_full rest unbroken full loaded⟩
      · simp [loadLine, lineTooLong_full unbroken full] at loaded

/-- The refusal of a file that is read without error names the line it stands at: the lines before it are
accepted and leave the configuration as it is found, the line is not, and its
number counts the newlines before it. Only a line with an empty token is refused
without a text. -/
theorem refusal_located (memory : Bool) (config after : Config) (content : Bytes)
    (failure : Failure)
    (refused : loadFile (directives memory) config (.opened content false) =
      (.error failure, after)) :
    ∃ front rest, Refused memory config 0 content failure after front rest := by
  have table : (directives memory).isEmpty = false := rfl
  simp only [loadFile, table, Bool.false_eq_true, ↓reduceIte, readLines] at refused
  exact loadLines_refused refused

/-- A semicolon without a directive is refused without a text, behind a directive
that was applied. -/
theorem refusal_located_sample :
    ∃ front rest, Refused true configInit 0 (ascii "class_path a;\n;") none ⟨ascii "a", true⟩ front rest :=
  refusal_located true configInit ⟨ascii "a", true⟩ (ascii "class_path a;\n;") none (by decide +kernel)

end CkartaConfigFiles
