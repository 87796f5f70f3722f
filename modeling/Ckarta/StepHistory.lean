import Mathlib.Data.List.Basic

/- Runs of a step function together with their history: which move was made at each step
   and what it answered. A choice the system leaves open is part of the move, so a step
   is a partial function of state and move. -/
namespace StepHistory

variable {S L E : Type}

/-- The states reached from start, each with the moves and answers on the way. -/
inductive Runs (step : S → L → Option (S × E)) (start : S) : List (L × E) → S → Prop where
  | start : Runs step start [] start
  | step {history : List (L × E)} {s t : S} {move : L} {answer : E} (before : Runs step start history s)
      (next : step s move = some (t, answer)) : Runs step start (history ++ [(move, answer)]) t

variable {step : S → L → Option (S × E)} {start : S}

/-- What holds at the start and is kept by every step holds along every run. -/
theorem Runs.invariant {history : List (L × E)} {s : S} (runs : Runs step start history s)
    (holds : List (L × E) → S → Prop) (initially : holds [] start)
    (kept : ∀ {history s t move answer}, Runs step start history s → holds history s →
      step s move = some (t, answer) → holds (history ++ [(move, answer)]) t) : holds history s := by
  induction runs with
  | start => exact initially
  | step before next ih => exact kept before ih next

theorem Runs.append {first second : List (L × E)} {s t : S} (before : Runs step start first s)
    (after : Runs step s second t) : Runs step start (first ++ second) t := by
  induction after with
  | start =>
    rw [List.append_nil]
    exact before
  | step runs next ih =>
    rw [← List.append_assoc]
    exact .step ih next

/-- A run of steps that each use up some of a measure is no longer than the measure. -/
theorem Runs.bounded {history : List (L × E)} {s : S} (runs : Runs step start history s) (holds : S → Prop)
    (measure : S → Nat) (initially : holds start)
    (decreases : ∀ {s t move answer}, holds s → step s move = some (t, answer) →
      holds t ∧ measure t < measure s) : holds s ∧ history.length + measure s ≤ measure start := by
  induction runs with
  | start => exact ⟨initially, by simp⟩
  | step before next ih =>
    obtain ⟨holds, bound⟩ := ih
    obtain ⟨after, less⟩ := decreases holds next
    refine ⟨after, ?_⟩
    rw [List.length_append, List.length_singleton]
    omega

/-- The run that makes these moves, if every one of them is possible. -/
def execute (step : S → L → Option (S × E)) : S → List L → Option (List (L × E) × S)
  | s, [] => some ([], s)
  | s, move :: moves => (step s move).bind fun (t, answer) =>
      (execute step t moves).map fun (history, last) => ((move, answer) :: history, last)

theorem execute_runs {moves : List L} {history : List (L × E)} {s t : S}
    (executed : execute step s moves = some (history, t)) : Runs step s history t := by
  induction moves generalizing s history with
  | nil =>
    simp only [execute, Option.some.injEq, Prod.mk.injEq] at executed
    obtain ⟨rfl, rfl⟩ := executed
    exact .start
  | cons move moves ih =>
    simp only [execute, Option.bind_eq_some_iff, Option.map_eq_some_iff, Prod.mk.injEq] at executed
    obtain ⟨⟨u, answer⟩, next, ⟨tail, last⟩, rest, rfl, rfl⟩ := executed
    exact Runs.append (.step .start next) (ih rest)

/-- The steps that meet a condition on the state before them. -/
def guarded (allowed : S → L → Bool) (step : S → L → Option (S × E)) (s : S) (move : L) : Option (S × E) :=
  if allowed s move then step s move else none

theorem guarded_cases {allowed : S → L → Bool} {s t : S} {move : L} {answer : E}
    (next : guarded allowed step s move = some (t, answer)) :
    allowed s move = true ∧ step s move = some (t, answer) := by
  unfold guarded at next
  split at next
  · rename_i meets
    exact ⟨meets, next⟩
  · cases next

theorem Runs.unguarded {allowed : S → L → Bool} {history : List (L × E)} {s : S}
    (runs : Runs (guarded allowed step) start history s) : Runs step start history s := by
  induction runs with
  | start => exact .start
  | step before next ih => exact .step ih (guarded_cases next).2

section
variable {K M : Type} [DecidableEq K]

/-- What one entry of a history tells about one subject. -/
def told (mark : L × E → Option (K × M)) (subject : K) (entry : L × E) : Option M :=
  (mark entry).bind fun (key, m) => if key = subject then some m else none

/-- All that a history tells about one subject, in order. -/
def log (mark : L × E → Option (K × M)) (subject : K) (history : List (L × E)) : List M :=
  history.filterMap (told mark subject)

omit [DecidableEq K] in
theorem filterMap_snoc (f : K → Option M) (list : List K) (last : K) :
    (list ++ [last]).filterMap f = list.filterMap f ++ (f last).toList := by
  rw [List.filterMap_append]
  cases found : f last with
  | none => simp [found]
  | some m => simp [found]

theorem log_snoc (mark : L × E → Option (K × M)) (subject : K) (history : List (L × E)) (entry : L × E) :
    log mark subject (history ++ [entry]) = log mark subject history ++ (told mark subject entry).toList :=
  filterMap_snoc _ _ _

end

end StepHistory
