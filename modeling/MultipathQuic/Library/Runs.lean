import Mathlib.Data.List.Basic

/-!
# Runs of a machine

A machine is a step function on states, and a run is the fold of the step function over a list of
calls. A condition on calls may depend on the state in which a call is made.
-/

namespace MultipathQuic.Runs

variable {σ α : Type*} {step : σ → α → σ} {ok : σ → α → Prop} {s : σ} {ops ops' : List α}

/-- Every call of the run of `ops` from `s` meets `ok` in the state in which it is made. -/
def Along (step : σ → α → σ) (ok : σ → α → Prop) : σ → List α → Prop
  | _, [] => True
  | s, op :: ops => ok s op ∧ Along step ok (step s op) ops

@[simp] theorem along_nil : Along step ok s [] := trivial

@[simp] theorem along_cons {op : α} :
    Along step ok s (op :: ops) ↔ ok s op ∧ Along step ok (step s op) ops :=
  Iff.rfl

/-- A run meets the condition iff both its parts do. -/
theorem along_append :
    Along step ok s (ops ++ ops') ↔ Along step ok s ops ∧ Along step ok (ops.foldl step s) ops' := by
  induction ops generalizing s with
  | nil => simp
  | cons op ops ih => simp [ih, and_assoc]

/-- What the calls that meet the condition preserve holds after the run. -/
theorem Along.invariant {P : σ → Prop} (h : Along step ok s ops) (hs : P s)
    (hstep : ∀ s op, P s → ok s op → P (step s op)) : P (ops.foldl step s) := by
  induction ops generalizing s with
  | nil => exact hs
  | cons op ops ih => exact ih h.2 (hstep s op hs h.1)

/-- A condition that follows from an invariant of the run is met as well. -/
theorem Along.imp {P : σ → Prop} {ok' : σ → α → Prop} (h : Along step ok s ops) (hs : P s)
    (hstep : ∀ s op, P s → ok s op → P (step s op)) (himp : ∀ s op, P s → ok s op → ok' s op) :
    Along step ok' s ops := by
  induction ops generalizing s with
  | nil => trivial
  | cons op ops ih => exact ⟨himp s op hs h.1, ih h.2 (hstep s op hs h.1)⟩

/-- **A property holds in every state of a run iff every call meets the condition**, if the calls that
meet it preserve an invariant with the property, and one that does not breaks the property. -/
theorem forall_prefix_iff_along {P Inv : σ → Prop} (hP : ∀ s, Inv s → P s)
    (hstep : ∀ s op, Inv s → ok s op → Inv (step s op))
    (hbreak : ∀ s op, Inv s → ¬ ok s op → ¬ P (step s op)) (hs : Inv s) :
    (∀ ops', ops' <+: ops → P (ops'.foldl step s)) ↔ Along step ok s ops := by
  induction ops generalizing s with
  | nil =>
    refine iff_of_true (fun ops' hprefix => ?_) trivial
    rw [List.prefix_nil.mp hprefix]
    exact hP s hs
  | cons op ops ih =>
    constructor
    · intro hall
      have hop : ok s op := by
        by_contra hnot
        exact hbreak s op hs hnot (hall [op] (List.prefix_append [op] ops))
      refine ⟨hop, (ih (hstep s op hs hop)).mp fun ops' hprefix => ?_⟩
      exact hall (op :: ops') (List.cons_prefix_cons.mpr ⟨rfl, hprefix⟩)
    · rintro ⟨hop, hops⟩ ops' hprefix
      cases ops' with
      | nil => exact hP s hs
      | cons op' ops' =>
        obtain ⟨rfl, htail⟩ := List.cons_prefix_cons.mp hprefix
        exact (ih (hstep s op' hs hop)).mpr hops ops' htail

instance Along.decidable [∀ s op, Decidable (ok s op)] :
    (s : σ) → (ops : List α) → Decidable (Along step ok s ops)
  | _, [] => .isTrue trivial
  | s, op :: ops =>
    have := Along.decidable (step s op) ops
    inferInstanceAs (Decidable (ok s op ∧ Along step ok (step s op) ops))

/-! ## Limits -/

section Limits

variable {uses : σ → α → Prop} [∀ s op, Decidable (uses s op)]

/-- The number of the calls of the run of `ops` from `s` that are uses. -/
def countAlong (step : σ → α → σ) (uses : σ → α → Prop) [∀ s op, Decidable (uses s op)] :
    σ → List α → ℕ
  | _, [] => 0
  | s, op :: ops => (if uses s op then 1 else 0) + countAlong step uses (step s op) ops

/-- **A condition is met along a run iff its uses do not pass the limit**, if each use below the limit
meets it and the one at the limit does not. `Inv s k` says that there have been `k` uses. -/
theorem along_iff_countAlong_le (Inv : σ → ℕ → Prop) {limit k : ℕ}
    (hbelow : ∀ s k op, Inv s k → k < limit → uses s op → ok s op ∧ Inv (step s op) (k + 1))
    (hlimit : ∀ s op, Inv s limit → uses s op → ¬ ok s op)
    (hother : ∀ s k op, Inv s k → ¬ uses s op → ok s op ∧ Inv (step s op) k)
    (hs : Inv s k) (hk : k ≤ limit) :
    Along step ok s ops ↔ k + countAlong step uses s ops ≤ limit := by
  induction ops generalizing s k with
  | nil => simpa [countAlong] using hk
  | cons op ops ih =>
    rw [along_cons, countAlong]
    by_cases huse : uses s op
    · rw [if_pos huse, ← Nat.add_assoc]
      rcases Nat.lt_or_eq_of_le hk with hlt | rfl
      · obtain ⟨hok, hinv⟩ := hbelow s k op hs hlt huse
        rw [and_iff_right hok]
        exact ih hinv hlt
      · refine ⟨fun h => absurd h.1 (hlimit s op hs huse), fun h => ?_⟩
        omega
    · obtain ⟨hok, hinv⟩ := hother s k op hs huse
      rw [if_neg huse, Nat.zero_add, and_iff_right hok]
      exact ih hinv hk

end Limits

/-- Two partial steps, each followed by another one: if the first ones are related, and the second ones
are from related states, then so are the compositions. -/
theorem rel_bind {α β γ δ : Type*} {r : α → β → Prop} {q : γ → δ → Prop} {a : Option α}
    {b : Option β} {f : α → Option γ} {g : β → Option δ} (h : Option.Rel r a b)
    (hfg : ∀ x y, r x y → Option.Rel q (f x) (g y)) : Option.Rel q (a.bind f) (b.bind g) := by
  cases h with
  | none => exact .none
  | some hxy => exact hfg _ _ hxy

end MultipathQuic.Runs
