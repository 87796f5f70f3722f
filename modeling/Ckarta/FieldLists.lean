import Ckarta.HttpParser

/-!
What the loop over a list-valued header field visits, and what parse_uint64 accepts.
The loop is compared with the plain split of the value at its commas: it visits all
of these elements except an empty last one.
-/
namespace CkartaFieldLists
open MachineWord CkartaHttpParser

def isDigit (b : UInt8) : Bool := 48 ≤ b && b ≤ 57

def decimalValue (start : Nat) (s : Bytes) : Nat :=
  s.foldl (fun value b => value * 10 + (b.toNat - 48)) start

/-- s is a digit string of value n that fits 64 bits. -/
def Numeral (s : Bytes) (n : Nat) : Prop :=
  s ≠ [] ∧ s.all isDigit ∧ decimalValue 0 s = n ∧ n ≤ uint64Max

theorem decimalValue_ge (start : Nat) (s : Bytes) : start ≤ decimalValue start s := by
  induction s generalizing start with
  | nil => exact Nat.le_refl _
  | cons b s ih =>
    have step := ih (start * 10 + (b.toNat - 48))
    simp only [decimalValue, List.foldl_cons] at step ⊢
    omega

/-- The range guard never wraps and never refuses a value that fits. -/
theorem parseUint64Loop_iff {start n : Nat} {s : Bytes} (bound : start ≤ uint64Max) :
    parseUint64Loop start s = some n ↔
      s.all isDigit ∧ decimalValue start s = n ∧ n ≤ uint64Max := by
  induction s generalizing start with
  | nil =>
    simp only [parseUint64Loop, Option.some.injEq, List.all_nil, true_and, decimalValue,
      List.foldl_nil]
    omega
  | cons b s ih =>
    have small : b.toNat - 48 ≤ uint64Max := by
      have := b.toNat_lt
      simp only [uint64Max]
      omega
    have digit : isDigit b = true ↔ ¬ (b < 48 ∨ 57 < b) := by
      simp [isDigit, not_or]
    have unfolded : decimalValue start (b :: s) =
        decimalValue (start * 10 + (b.toNat - 48)) s := rfl
    simp only [parseUint64Loop, List.all_cons, Bool.and_eq_true, unfolded]
    split
    · rename_i bad
      have refused : isDigit b ≠ true := fun good => digit.mp good bad
      simp [refused]
    · rename_i good
      have accepted := digit.mpr good
      split
      · rename_i wraps
        have beyond := mt (guarded_shift_iff (by omega : 0 < 10) small).mpr (not_not.mpr wraps)
        have grows := decimalValue_ge (start * 10 + (b.toNat - 48)) s
        simp only [reduceCtorEq, false_iff]
        omega
      · rename_i fits
        have exact := (guarded_shift_iff (by omega : 0 < 10) small).mp fits
        rw [u64_of_le exact, ih exact]
        simp [accepted]

theorem parseUint64_iff {s : Bytes} {n : Nat} : parseUint64 s = some n ↔ Numeral s n := by
  simp only [parseUint64, Numeral, List.length_eq_zero_iff]
  split
  · rename_i empty
    simp [empty]
  · rename_i nonempty
    rw [parseUint64Loop_iff (Nat.zero_le _)]
    simp [nonempty]

/-- The elements the scan hands over: a final empty one is never reached. -/
def visited (value : Bytes) : List Bytes :=
  let elements := value.splitOn comma
  if elements.getLast? = some [] then elements.dropLast else elements

theorem visited_nil : visited [] = [] := by
  simp [visited, List.splitOn_nil]

theorem visited_single {e : Bytes} (whole : comma ∉ e) (nonempty : e ≠ []) : visited e = [e] := by
  simp [visited, List.splitOn_eq_singleton whole, nonempty]

theorem visited_cons {e rest : Bytes} (whole : comma ∉ e) :
    visited (e ++ comma :: rest) = e :: visited rest := by
  have tail : rest.splitOn comma ≠ [] := List.splitOn_ne_nil comma rest
  obtain ⟨first, more, split⟩ := List.exists_cons_of_ne_nil tail
  simp only [visited, List.splitOn_append_cons_self_of_not_mem whole, split, List.getLast?_cons_cons,
    List.dropLast_cons_cons]
  split <;> rfl

theorem first_element (value : Bytes) :
    (comma ∉ value) ∨ ∃ e rest, comma ∉ e ∧ value = e ++ comma :: rest := by
  by_cases inside : comma ∈ value
  · obtain ⟨e, rest, split, whole⟩ := List.eq_append_cons_of_mem inside
    exact .inr ⟨e, rest, whole, split⟩
  · exact .inl inside

theorem comma_not_ows : isOws comma = false := by decide

theorem skip_then_cut {e : Bytes} (rest : Bytes) (whole : comma ∉ e) :
    (((e ++ comma :: rest).dropWhile isOws).takeWhile fun b => b != comma) = e.dropWhile isOws ∧
    ((e ++ comma :: rest).dropWhile isOws).drop ((e.dropWhile isOws).length + 1) = rest := by
  induction e with
  | nil => simp [comma_not_ows]
  | cons b e ih =>
    simp only [List.mem_cons, not_or] at whole
    by_cases skip : isOws b
    · simpa [skip] using ih whole.2
    · have none : ∀ x ∈ b :: e, (x != comma) = true := by
        intro x member
        simp only [bne_iff_ne, ne_eq]
        rintro rfl
        rcases List.mem_cons.mp member with same | member
        · exact whole.1 same
        · exact whole.2 member
      simp only [List.cons_append, List.dropWhile_cons_of_neg skip]
      rw [← List.cons_append, List.takeWhile_append_of_pos none]
      simp

theorem skip_then_cut_last {e : Bytes} (whole : comma ∉ e) :
    ((e.dropWhile isOws).takeWhile fun b => b != comma) = e.dropWhile isOws := by
  apply List.takeWhile_eq_self_iff.mpr
  intro x member
  simp only [bne_iff_ne, ne_eq]
  rintro rfl
  exact whole ((List.dropWhile_suffix isOws).mem member)

theorem scanElements_eq {σ : Type} (step : σ → Bytes → Option σ) (fuel : Nat) (acc : σ)
    (value : Bytes) (enough : value.length ≤ fuel) :
    scanElements step fuel acc value =
      (visited value).foldlM (fun acc e => step acc (e.dropWhile isOws)) acc := by
  induction fuel generalizing acc value with
  | zero =>
    have empty : value = [] := List.length_eq_zero_iff.mp (by omega)
    subst empty
    simp [scanElements, visited_nil]
  | succ fuel ih =>
    cases value with
    | nil => simp [scanElements, visited_nil]
    | cons b value =>
      rcases first_element (b :: value) with whole | ⟨e, rest, whole, split⟩
      · have cut := skip_then_cut_last whole
        rw [visited_single whole (by simp)]
        simp only [scanElements, cut, List.foldlM_cons, List.foldlM_nil]
        have empty : List.drop ((List.dropWhile isOws (b :: value)).length + 1)
            (List.dropWhile isOws (b :: value)) = [] := List.drop_of_length_le (by omega)
        rw [empty]
        cases step acc (List.dropWhile isOws (b :: value)) <;> cases fuel <;> simp [scanElements]
      · obtain ⟨cut, left⟩ := skip_then_cut rest whole
        have shorter : rest.length ≤ fuel := by
          have size := congrArg List.length split
          simp only [List.length_append, List.length_cons] at size enough
          omega
        rw [split, visited_cons whole]
        have step_eq : scanElements step (fuel + 1) acc (e ++ comma :: rest) =
            (step acc (e.dropWhile isOws)).bind fun acc => scanElements step fuel acc rest := by
          rw [← split]
          simp only [scanElements]
          rw [split, cut, left]
        rw [step_eq]
        simp only [List.foldlM_cons, ih _ rest shorter]
        rfl

def named (name : String) (headers : List HttpHeader) : List HttpHeader :=
  headers.filter fun header => spanEqualCi header.name name

theorem scanHeaders_eq {σ : Type} (name : String) (enter : σ → σ) (step : σ → Bytes → Option σ)
    (acc : σ) (headers : List HttpHeader) :
    scanHeaders name enter step acc headers = (named name headers).foldlM (fun acc header =>
      (visited header.value).foldlM (fun acc e => step acc (e.dropWhile isOws)) (enter acc)) acc := by
  induction headers generalizing acc with
  | nil => simp [scanHeaders, named]
  | cons header headers ih =>
    by_cases same : spanEqualCi header.name name
    · simp only [scanHeaders, same, ↓reduceIte, named, List.filter_cons_of_pos, List.foldlM_cons]
      rw [scanElements_eq step _ _ _ (Nat.le_refl _)]
      congr 1
      funext acc
      exact ih acc
    · simp only [scanHeaders, same, named, Bool.false_eq_true, ↓reduceIte, not_false_eq_true,
        List.filter_cons_of_neg]
      exact ih acc

theorem scanHeaders_invariant {σ : Type} {name : String} {enter : σ → σ}
    {step : σ → Bytes → Option σ} (keep : σ → Prop) (entered : ∀ acc, keep acc → keep (enter acc))
    (stepped : ∀ acc item next, keep acc → step acc item = some next → keep next)
    {acc last : σ} {headers : List HttpHeader} (start : keep acc)
    (run : scanHeaders name enter step acc headers = some last) : keep last := by
  have fold : ∀ (items : List Bytes) (acc last : σ), keep acc →
      items.foldlM (fun acc e => step acc (e.dropWhile isOws)) acc = some last → keep last := by
    intro items
    induction items with
    | nil =>
      intro acc last start run
      simp only [List.foldlM_nil, Option.pure_def, Option.some.injEq] at run
      exact run ▸ start
    | cons item items ih =>
      intro acc last start run
      simp only [List.foldlM_cons, Option.bind_eq_bind, Option.bind_eq_some_iff] at run
      obtain ⟨next, first, rest⟩ := run
      exact ih next last (stepped acc _ next start first) rest
  rw [scanHeaders_eq] at run
  generalize named name headers = fields at run
  induction fields generalizing acc with
  | nil =>
    simp only [List.foldlM_nil, Option.pure_def, Option.some.injEq] at run
    exact run ▸ start
  | cons field fields ih =>
    simp only [List.foldlM_cons, Option.bind_eq_bind, Option.bind_eq_some_iff] at run
    obtain ⟨next, first, rest⟩ := run
    exact ih (fold _ _ _ (entered acc start) first) rest

theorem parseContentLengthHeaders_le {headers : List HttpHeader} {n : Nat} {found : Bool}
    (h : parseContentLengthHeaders headers = some (n, found)) : n ≤ uint64Max := by
  refine scanHeaders_invariant (fun acc => acc.1 ≤ uint64Max) (fun _ kept => kept) ?_
    (Nat.zero_le _) h
  intro acc item next kept step
  simp only [contentLengthItem] at step
  split at step
  · simp at step
  · rename_i parsed numeral
    have bound := (parseUint64_iff.mp numeral).2.2.2
    split at step
    · simp only [Option.some.injEq] at step
      subst step
      exact bound
    · split at step
      · simp at step
      · simp only [Option.some.injEq] at step
        exact step ▸ kept

end CkartaFieldLists
