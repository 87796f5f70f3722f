import Mathlib.Data.List.Basic

/-!
Machines that read a list from the front and may ask to see more of it. An
action looks at the unread input and waits, consumes a prefix, or halts. Once
an action is decided it stays decided when more input is appended, so where
the input was cut while it arrived cannot be observed in the outcome.
-/
namespace PrefixMachine
variable {σ α β ρ : Type}

inductive Action (σ β ρ : Type) where
  | wait : Action σ β ρ
  | move (width : Nat) (out : List β) (next : σ) : Action σ β ρ
  | halt (width : Nat) (verdict : ρ) : Action σ β ρ

/-- Progress and stability are fields, so every machine is safe to cut. -/
structure Machine (σ α β ρ : Type) where
  act : σ → List α → Action σ β ρ
  move_bounds : ∀ {x s n out y}, act x s = .move n out y → 0 < n ∧ n ≤ s.length
  move_local : ∀ {x s n out y}, act x s = .move n out y → act x (s.take n) = .move n out y
  stable : ∀ {x s}, act x s ≠ .wait → ∀ t, act x (s ++ t) = act x s

/-- Steps M x s out y: from x the machine consumes exactly s, emits out and is at y. -/
inductive Steps (M : Machine σ α β ρ) : σ → List α → List β → σ → Prop where
  | refl (x : σ) : Steps M x [] [] x
  | move {x y z : σ} {w s : List α} {out rest : List β}
      (first : M.act x w = .move w.length out y) (tail : Steps M y s rest z) :
      Steps M x (w ++ s) (out ++ rest) z

theorem steps_one {M : Machine σ α β ρ} {x y : σ} {w : List α} {out : List β}
    (h : M.act x w = .move w.length out y) : Steps M x w out y := by
  simpa using Steps.move h (Steps.refl y)

theorem steps_trans {M : Machine σ α β ρ} {x y z : σ} {s t : List α} {o p : List β}
    (first : Steps M x s o y) (second : Steps M y t p z) :
    Steps M x (s ++ t) (o ++ p) z := by
  induction first with
  | refl x => simpa using second
  | move act tail ih =>
    rw [List.append_assoc, List.append_assoc]
    exact Steps.move act (ih second)

theorem steps_nil {M : Machine σ α β ρ} {x y : σ} {o : List β}
    (h : Steps M x [] o y) : o = [] ∧ y = x := by
  generalize eq : ([] : List α) = s at h
  cases h with
  | refl => exact ⟨rfl, rfl⟩
  | @move _ b _ w s out rest act tail =>
    have empty : w = [] := (List.append_eq_nil_iff.mp eq.symm).1
    have bounds := M.move_bounds act
    simp [empty] at bounds

theorem act_of_prefix {M : Machine σ α β ρ} {x : σ} {w u : List α}
    (within : w <+: u) (decided : M.act x w ≠ .wait) : M.act x u = M.act x w := by
  obtain ⟨t, rfl⟩ := within
  exact M.stable decided t

theorem steps_linear {M : Machine σ α β ρ} {x y z : σ} {s t u : List α} {o p : List β}
    (short : Steps M x s o y) (long : Steps M x t p z)
    (left : s <+: u) (right : t <+: u) (le : s.length ≤ t.length) :
    ∃ r q, t = s ++ r ∧ p = o ++ q ∧ Steps M y r q z := by
  induction short generalizing t u p with
  | refl x => exact ⟨t, p, rfl, rfl, long⟩
  | @move x y _ w s out rest act tail ih =>
    cases long with
    | refl =>
      have bounds := M.move_bounds act
      simp only [List.length_append, List.length_nil] at le
      omega
    | @move _ y' _ w' t out' rest' act' tail' =>
      have same : M.act x u = M.act x w :=
        act_of_prefix ((List.prefix_append w s).trans left) (by simp [act])
      have same' : M.act x u = M.act x w' :=
        act_of_prefix ((List.prefix_append w' t).trans right) (by simp [act'])
      rw [same', act, act'] at same
      injection same with width outs next
      subst outs next
      have heads : w' = w := by
        have hw := List.prefix_iff_eq_take.mp ((List.prefix_append w s).trans left)
        have hw' := List.prefix_iff_eq_take.mp ((List.prefix_append w' t).trans right)
        rw [hw', hw, width]
      subst heads
      obtain ⟨u', rfl⟩ := (List.prefix_append w' s).trans left
      obtain ⟨r, q, rfl, rfl, run⟩ := ih tail' ((List.prefix_append_right_inj w').mp left)
        ((List.prefix_append_right_inj w').mp right) (by simpa using le)
      exact ⟨r, q, by simp, by simp, run⟩

/-- A machine that waits or halts on the unread input has taken its last step on it. -/
def Stopped (M : Machine σ α β ρ) (x : σ) (s : List α) : Prop :=
  ∀ n out y, M.act x s ≠ .move n out y

theorem stopped_no_steps {M : Machine σ α β ρ} {x y : σ} {s t : List α} {o : List β}
    (stop : Stopped M x s) (run : Steps M x t o y) (within : t <+: s) :
    t = [] ∧ o = [] ∧ y = x := by
  cases run with
  | refl => exact ⟨rfl, rfl, rfl⟩
  | @move _ b _ w t out rest act tail =>
    have same := act_of_prefix ((List.prefix_append w t).trans within)
      (show M.act x w ≠ .wait by simp [act])
    exact False.elim (stop _ _ _ (same.trans act))

theorem steps_before_stop {M : Machine σ α β ρ} {x y z : σ} {s t u v : List α} {o p : List β}
    (run : Steps M x s o y) (whole : Steps M x t p z) (stopped : Stopped M z v) (same : s ++ u = t ++ v) :
    ∃ r q, t = s ++ r ∧ p = o ++ q ∧ u = r ++ v ∧ Steps M y r q z := by
  have left : s <+: t ++ v := same ▸ List.prefix_append s u
  have right : t <+: t ++ v := List.prefix_append t v
  have short : s.length ≤ t.length := by
    by_contra long
    obtain ⟨r, q, rfl, -, beyond⟩ := steps_linear whole run right left (by omega)
    rw [List.append_assoc, List.append_cancel_left_eq] at same
    obtain ⟨rfl, -, -⟩ := stopped_no_steps stopped beyond (same ▸ List.prefix_append r u)
    simp at long
  obtain ⟨r, q, rfl, rfl, onward⟩ := steps_linear run whole left right short
  rw [List.append_assoc, List.append_cancel_left_eq] at same
  exact ⟨r, q, rfl, rfl, same, onward⟩

/-- The stopping point on a given input is unique, however it was reached. -/
theorem stop_unique {M : Machine σ α β ρ} {x y z : σ} {s t u v : List α} {o p : List β}
    (left : Steps M x s o y) (leftStop : Stopped M y u)
    (right : Steps M x t p z) (rightStop : Stopped M z v) (same : s ++ u = t ++ v) :
    s = t ∧ o = p ∧ y = z ∧ u = v := by
  obtain ⟨r, q, rfl, rfl, rfl, onward⟩ := steps_before_stop left right rightStop same
  obtain ⟨rfl, rfl, rfl⟩ := stopped_no_steps leftStop onward (List.prefix_append r v)
  exact ⟨by simp, by simp, rfl, rfl⟩

end PrefixMachine
