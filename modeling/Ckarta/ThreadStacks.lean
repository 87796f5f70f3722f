import Mathlib.Data.List.Basic

/- Threads over a shared state. A thread is the list of instructions it has left to run; its
   first instruction acts on the shared state and leaves others in its place, and a call is
   code put before what is left. Invariants are weighings of what the threads have left. -/
namespace ThreadStacks

variable {S I C E : Type}

structure System (S I : Type) where
  shared : S
  threads : List (List I)

/-- Put code before what a thread has left. -/
def System.push (s : System S I) (thread : Nat) (shared : S) (code : List I) : Option (System S I) :=
  (s.threads[thread]?).map fun rest => ⟨shared, s.threads.set thread (code ++ rest)⟩

/-- Run the first instruction a thread has left. -/
def System.run (exec : Nat → S → I → C → Option (S × List I × E)) (s : System S I) (thread : Nat)
    (choice : C) : Option (System S I × E) :=
  match s.threads[thread]? with
  | some (instr :: rest) =>
    (exec thread s.shared instr choice).map fun (shared, after, event) =>
      (⟨shared, s.threads.set thread (after ++ rest)⟩, event)
  | _ => none

theorem push_cases {s t : System S I} {thread : Nat} {shared : S} {code : List I}
    (pushed : s.push thread shared code = some t) :
    ∃ rest, s.threads[thread]? = some rest ∧ t = ⟨shared, s.threads.set thread (code ++ rest)⟩ := by
  unfold System.push at pushed
  obtain ⟨rest, found, rfl⟩ := Option.map_eq_some_iff.mp pushed
  exact ⟨rest, found, rfl⟩

theorem run_cases {exec : Nat → S → I → C → Option (S × List I × E)} {s t : System S I} {thread : Nat}
    {choice : C} {event : E} (ran : s.run exec thread choice = some (t, event)) :
    ∃ instr rest after, s.threads[thread]? = some (instr :: rest) ∧
      exec thread s.shared instr choice = some (t.shared, after, event) ∧
      t.threads = s.threads.set thread (after ++ rest) := by
  unfold System.run at ran
  split at ran
  · rename_i instr rest found
    obtain ⟨⟨shared, after, given⟩, executed, same⟩ := Option.map_eq_some_iff.mp ran
    obtain ⟨rfl, rfl⟩ := Prod.mk.inj same
    exact ⟨instr, rest, after, found, executed, rfl⟩
  · cases ran

def weight (w : I → Nat) : List I → Nat
  | [] => 0
  | instr :: code => w instr + weight w code

@[simp] theorem weight_nil (w : I → Nat) : weight w [] = 0 := rfl

@[simp] theorem weight_cons (w : I → Nat) (instr : I) (code : List I) :
    weight w (instr :: code) = w instr + weight w code := rfl

@[simp] theorem weight_append (w : I → Nat) (first second : List I) :
    weight w (first ++ second) = weight w first + weight w second := by
  induction first with
  | nil => simp
  | cons instr code ih => simp [ih, Nat.add_assoc]

def total (w : I → Nat) : List (List I) → Nat
  | [] => 0
  | code :: others => weight w code + total w others

theorem total_set (w : I → Nat) {threads : List (List I)} {thread : Nat} {old : List I} (code : List I)
    (found : threads[thread]? = some old) :
    total w (threads.set thread code) + weight w old = total w threads + weight w code := by
  induction threads generalizing thread with
  | nil => cases found
  | cons first others ih =>
    cases thread with
    | zero =>
      simp only [List.getElem?_cons_zero, Option.some.injEq] at found
      simp only [total, List.set_cons_zero, found]
      omega
    | succ thread =>
      simp only [List.getElem?_cons_succ] at found
      have rest := ih found
      simp only [total, List.set_cons_succ]
      omega

theorem total_push (w : I → Nat) {threads : List (List I)} {thread : Nat} {rest : List I} (code : List I)
    (found : threads[thread]? = some rest) :
    total w (threads.set thread (code ++ rest)) = total w threads + weight w code := by
  have sums := total_set w (code ++ rest) found
  rw [weight_append] at sums
  omega

theorem total_run (w : I → Nat) {threads : List (List I)} {thread : Nat} {instr : I} {rest : List I}
    (after : List I) (found : threads[thread]? = some (instr :: rest)) :
    total w (threads.set thread (after ++ rest)) + w instr = total w threads + weight w after := by
  have sums := total_set w (after ++ rest) found
  rw [weight_append, weight_cons] at sums
  omega

@[simp] theorem total_spawn (w : I → Nat) (threads : List (List I)) :
    total w (threads ++ [[]]) = total w threads := by
  induction threads with
  | nil => rfl
  | cons code others ih => simp [total, ih]

theorem weight_le_total (w : I → Nat) {threads : List (List I)} {thread : Nat} {code : List I}
    (found : threads[thread]? = some code) : weight w code ≤ total w threads := by
  have sums := total_set w [] found
  rw [weight_nil] at sums
  omega

theorem weight_of_mem (w : I → Nat) {code : List I} {instr : I} (inside : instr ∈ code) :
    w instr ≤ weight w code := by
  induction code with
  | nil => cases inside
  | cons first others ih =>
    rw [weight_cons]
    cases inside with
    | head => omega
    | tail _ later =>
      have bound := ih later
      omega

theorem weight_mono {light heavy : I → Nat} (below : ∀ instr, light instr ≤ heavy instr) (code : List I) :
    weight light code ≤ weight heavy code := by
  induction code with
  | nil => exact Nat.le_refl _
  | cons first others ih =>
    have here := below first
    rw [weight_cons, weight_cons]
    omega

theorem total_mono {light heavy : I → Nat} (below : ∀ instr, light instr ≤ heavy instr)
    (threads : List (List I)) : total light threads ≤ total heavy threads := by
  induction threads with
  | nil => exact Nat.le_refl _
  | cons first others ih =>
    have here := weight_mono below first
    simp only [total]
    omega

theorem total_idle (w : I → Nat) {threads : List (List I)} (idle : ∀ code ∈ threads, code = []) :
    total w threads = 0 := by
  induction threads with
  | nil => rfl
  | cons first others ih =>
    have rest := ih fun code inside => idle code (List.mem_cons_of_mem _ inside)
    have nothing := idle first List.mem_cons_self
    rw [total, nothing, rest]
    rfl

theorem getD_of_found {threads : List (List I)} {thread : Nat} {code : List I}
    (found : threads[thread]? = some code) : threads.getD thread [] = code := by
  rw [List.getD_eq_getElem?_getD, found, Option.getD_some]

def share (w : I → Nat) (threads : List (List I)) (thread : Nat) : Nat := weight w (threads.getD thread [])

theorem share_of_found (w : I → Nat) {threads : List (List I)} {thread : Nat} {code : List I}
    (found : threads[thread]? = some code) : share w threads thread = weight w code := by
  rw [share, getD_of_found found]

theorem share_set (w : I → Nat) {threads : List (List I)} {thread : Nat} {old : List I} (code : List I)
    (found : threads[thread]? = some old) (other : Nat) :
    share w (threads.set thread code) other =
      if other = thread then weight w code else share w threads other := by
  have within : thread < threads.length := (List.getElem?_eq_some_iff.mp found).1
  unfold share
  rw [List.getD_eq_getElem?_getD, List.getD_eq_getElem?_getD, List.getElem?_set]
  by_cases same : other = thread
  · simp [same, within]
  · simp [same, Ne.symm same]

@[simp] theorem share_spawn (w : I → Nat) (threads : List (List I)) (thread : Nat) :
    share w (threads ++ [[]]) thread = share w threads thread := by
  unfold share
  rw [List.getD_eq_getElem?_getD, List.getD_eq_getElem?_getD, List.getElem?_append]
  split
  · rfl
  · rename_i beyond
    rw [List.getElem?_eq_none (Nat.le_of_not_lt beyond)]
    cases thread - threads.length <;> simp

/-- Every instruction that is left has a property. -/
def Everywhere (p : I → Prop) (threads : List (List I)) : Prop := ∀ code ∈ threads, ∀ instr ∈ code, p instr

theorem everywhere_set {p q : I → Prop} {threads : List (List I)} {thread : Nat} {old rest code : List I}
    (all : Everywhere p threads) (kept : ∀ instr, p instr → q instr) (found : threads[thread]? = some old)
    (left : rest ⊆ old) (added : ∀ instr ∈ code, q instr) :
    Everywhere q (threads.set thread (code ++ rest)) := by
  intro stack inside instr within
  rcases List.mem_or_eq_of_mem_set inside with before | rfl
  · exact kept instr (all stack before instr within)
  · rcases List.mem_append.mp within with new | remains
    · exact added instr new
    · exact kept instr (all old (List.mem_of_getElem? found) instr (left remains))

end ThreadStacks
