import Ckarta.ConfigTokens

/-!
What a rejected file leaves behind. A line that is neither blank nor a comment
either ends the load with the configuration as it was or is the one class_path
directive that sets it; after that every such line is an error. The
configuration therefore survives a rejection exactly when no directive was
applied before the error.
-/
namespace CkartaConfigLoad
open CkartaHttpParser CkartaConfig CkartaConfigTokens

def skippedLine (line : Bytes) : Bool := !lineTooLong line && atLineEnd (cString line)

def directiveValue (line : Bytes) : Option Bytes :=
  if lineTooLong line then none
  else
    match parseLine (cString line) with
    | .ok (some (name, [value])) => if name = ascii "class_path" then some value else none
    | _ => none

theorem directiveValue_cases {line value : Bytes} (holds : directiveValue line = some value) :
    lineTooLong line = false ∧
      parseLine (cString line) = .ok (some (ascii "class_path", [value])) := by
  unfold directiveValue at holds
  split at holds
  · cases holds
  · rename_i fits
    split at holds
    · rename_i parsed
      split at holds
      · rename_i named
        simp only [Option.some.injEq] at holds
        subst holds named
        exact ⟨by simpa using fits, parsed⟩
      · cases holds
    · cases holds

theorem directiveValue_nonempty {line value : Bytes} (holds : directiveValue line = some value) :
    value ≠ [] := by
  obtain ⟨-, parsed⟩ := directiveValue_cases holds
  obtain ⟨afterName, rest, -, valued, -⟩ := parseLine_cases parsed
  obtain ⟨after, token, -⟩ := parseArguments_single valued
  exact (parseToken_cases token).2

theorem applyClassPath_single (memory : Bool) (config : Config) (number : Nat) {value : Bytes}
    (nonempty : value ≠ []) :
    (config.classPathConfigured = false ∧ memory = true ∧
      applyClassPath memory config [value] number = (.ok (), ⟨value, true⟩)) ∨
    ((config.classPathConfigured = true ∨ memory = false) ∧
      ∃ failure, applyClassPath memory config [value] number = (.error failure, config)) := by
  cases config with
  | mk classPath configured => cases configured <;> cases memory <;> simp [applyClassPath, setClassPath, nonempty]

theorem loadLine_directive (memory : Bool) (config : Config) (number : Nat) {line name : Bytes}
    {arguments : List Bytes} (fits : lineTooLong line = false)
    (parsed : parseLine (cString line) = .ok (some (name, arguments))) :
    loadLine (directives memory) config number line =
      if name = ascii "class_path" then applyClassPath memory config arguments number
      else (.error (some (setError number "unknown or invalid directive")), config) := by
  by_cases named : name = ascii "class_path"
  · simp [loadLine, fits, parsed, findDirective, directives, named]
  · have other : ascii "class_path" ≠ name := fun same => named same.symm
    simp [loadLine, fits, parsed, findDirective, directives, named, other]

theorem loadLine_skipped (table : List Directive) (config : Config) (number : Nat) {line : Bytes}
    (skipped : skippedLine line = true) :
    loadLine table config number line = (.ok (), config) := by
  obtain ⟨fits, ended⟩ : lineTooLong line = false ∧ atLineEnd (cString line) = true := by
    simpa [skippedLine] using skipped
  simp [loadLine, fits, parseLine_none_iff.mpr ended]

theorem loadLine_refused (memory : Bool) (config : Config) (number : Nat) {line : Bytes}
    (content : skippedLine line = false) (valueless : directiveValue line = none) :
    ∃ failure, loadLine (directives memory) config number line = (.error failure, config) := by
  cases long : lineTooLong line with
  | true => simp [loadLine, long]
  | false =>
    cases parsed : parseLine (cString line) with
    | error failure => simp [loadLine, long, parsed]
    | ok read =>
      cases read with
      | none => simp [skippedLine, long, parseLine_none_iff.mp parsed] at content
      | some directive =>
        obtain ⟨name, arguments⟩ := directive
        rw [loadLine_directive memory config number long parsed]
        split
        · rename_i named
          cases arguments with
          | nil => exact ⟨_, rfl⟩
          | cons value more =>
            cases more with
            | nil => simp [directiveValue, long, parsed, named] at valueless
            | cons second further => exact ⟨_, rfl⟩
        · exact ⟨_, rfl⟩

/-- What loading one line does: a line without a directive does nothing, a
class_path directive sets an unset path, and everything else is an error that
leaves the configuration alone. -/
theorem loadLine_cases (memory : Bool) (config : Config) (number : Nat) (line : Bytes) :
    (skippedLine line = true ∧
      loadLine (directives memory) config number line = (.ok (), config)) ∨
    (∃ value, skippedLine line = false ∧ directiveValue line = some value ∧
      config.classPathConfigured = false ∧ memory = true ∧
      loadLine (directives memory) config number line = (.ok (), ⟨value, true⟩)) ∨
    (∃ failure, skippedLine line = false ∧
      (directiveValue line = none ∨ config.classPathConfigured = true ∨ memory = false) ∧
      loadLine (directives memory) config number line = (.error failure, config)) := by
  cases skipped : skippedLine line with
  | true => exact .inl ⟨rfl, loadLine_skipped _ config number skipped⟩
  | false =>
    cases held : directiveValue line with
    | none =>
      obtain ⟨failure, refused⟩ := loadLine_refused memory config number skipped held
      exact .inr (.inr ⟨failure, rfl, .inl rfl, refused⟩)
    | some value =>
      obtain ⟨fits, parsed⟩ := directiveValue_cases held
      have loaded := loadLine_directive memory config number fits parsed
      rw [if_pos rfl] at loaded
      obtain ⟨unset, room, set⟩ | ⟨refused, failure, kept⟩ :=
        applyClassPath_single memory config number (directiveValue_nonempty held)
      · exact .inr (.inl ⟨value, rfl, rfl, unset, room, loaded.trans set⟩)
      · exact .inr (.inr ⟨failure, rfl, .inr refused, loaded.trans kept⟩)

theorem loadLines_settled (memory readError : Bool) (config : Config)
    (settled : config.classPathConfigured = true ∨ memory = false) :
    ∀ (lines : List Bytes) (number : Nat),
    (loadLines (directives memory) readError config number lines).2 = config ∧
    ((loadLines (directives memory) readError config number lines).1 = .ok () ↔
      readError = false ∧ lines.all skippedLine = true) := by
  intro lines
  induction lines with
  | nil =>
    intro number
    cases readError <;> simp [loadLines]
  | cons line rest ih =>
    intro number
    obtain ⟨skipped, loaded⟩ | ⟨value, -, -, unset, room, -⟩ | ⟨failure, content, -, loaded⟩ :=
      loadLine_cases memory config (number + 1) line
    · simpa [loadLines, loaded, skipped] using ih (number + 1)
    · simp [unset, room] at settled
    · simp [loadLines, loaded, content]

/-- A directive is applied although an error follows: the first line that holds
anything is a class_path directive, and a later one holds anything or reading
fails. -/
def commitsEarly (readError : Bool) : List Bytes → Bool
  | [] => false
  | line :: rest =>
    if skippedLine line then commitsEarly readError rest
    else (directiveValue line).isSome && (readError || !rest.all skippedLine)

def commitsBeforeError (memory : Bool) (config : Config) : ConfigFile → Bool
  | .missing _ => false
  | .opened content readError =>
    !config.classPathConfigured && memory && commitsEarly readError (readLines content readError)

def KeptWhenRejected (before : Config) (load : Except Failure Unit × Config) : Prop :=
  ∀ failure, load.1 = .error failure → load.2 = before

theorem not_failed_iff (answer : Except Failure Unit) :
    (∀ failure, answer ≠ .error failure) ↔ answer = .ok () := by
  cases answer <;> simp

theorem loadLines_kept_iff (readError : Bool) {config : Config}
    (unset : config.classPathConfigured = false) :
    ∀ (lines : List Bytes) (number : Nat),
    KeptWhenRejected config (loadLines (directives true) readError config number lines) ↔
      commitsEarly readError lines = false := by
  intro lines
  induction lines with
  | nil =>
    intro number
    cases readError <;> simp [KeptWhenRejected, loadLines, commitsEarly]
  | cons line rest ih =>
    intro number
    obtain ⟨skipped, loaded⟩ | ⟨value, content, held, -, -, loaded⟩ |
      ⟨failure, content, cause, loaded⟩ := loadLine_cases true config (number + 1) line
    · simpa [loadLines, loaded, commitsEarly, skipped] using ih (number + 1)
    · obtain ⟨after, accepted⟩ :=
        loadLines_settled true readError ⟨value, true⟩ (.inl rfl) rest (number + 1)
      have different : (⟨value, true⟩ : Config) ≠ config := by
        intro same
        simp [← same] at unset
      calc KeptWhenRejected config (loadLines (directives true) readError config number (line :: rest))
          ↔ (loadLines (directives true) readError ⟨value, true⟩ (number + 1) rest).1 = .ok () := by
            simp only [KeptWhenRejected, loadLines, loaded, after, different, imp_false]
            exact not_failed_iff _
        _ ↔ readError = false ∧ rest.all skippedLine = true := accepted
        _ ↔ commitsEarly readError (line :: rest) = false := by
            simp [commitsEarly, content, held]
    · have valueless : directiveValue line = none := by simpa [unset] using cause
      simp [KeptWhenRejected, loadLines, loaded, commitsEarly, content, valueless]

/-- A rejected file leaves the configuration as it was, unless the file applies a
directive before the error. -/
theorem rejection_keeps_config_iff (memory : Bool) (config : Config) (file : ConfigFile) :
    KeptWhenRejected config (loadFile (directives memory) config file) ↔
      commitsBeforeError memory config file = false := by
  cases file with
  | missing reason => simp [KeptWhenRejected, loadFile, commitsBeforeError, directives]
  | opened content readError =>
    by_cases settled : config.classPathConfigured = true ∨ memory = false
    · have after := (loadLines_settled memory readError config settled
        (readLines content readError) 0).1
      have quiet : commitsBeforeError memory config (.opened content readError) = false := by
        obtain configured | full := settled
        · simp [commitsBeforeError, configured]
        · simp [commitsBeforeError, full]
      simp only [quiet, iff_true]
      intro failure rejected
      exact after
    · obtain ⟨unset, rfl⟩ : config.classPathConfigured = false ∧ memory = true := by
        simpa using settled
      have kept := loadLines_kept_iff readError unset (readLines content readError) 0
      simpa [loadFile, commitsBeforeError, unset, directives] using kept

/-- The directive of the first line is applied, the unknown one of the second
rejects the file. -/
theorem rejected_file_sets_path :
    ¬ KeptWhenRejected configInit
      (loadFile (directives true) configInit (.opened (ascii "class_path \"a\";\nfoo;\n") false)) := by
  intro kept
  have same := kept (some "line 2: unknown or invalid directive") (by decide +kernel)
  exact absurd same (by decide +kernel)

end CkartaConfigLoad
