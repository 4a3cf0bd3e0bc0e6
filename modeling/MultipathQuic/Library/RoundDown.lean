import Mathlib.Order.Bounds.Basic
import Mathlib.Order.Monotone.Basic
import Mathlib.Tactic.Common

/-!
# Rounding down to a code

The codes `0, 1, …, last` stand for values, and larger codes for larger ones. An encoding rounds down
if no code of a value exceeds it and the next code does. It then finds the largest value that has a
code and does not exceed the given one, and it is monotone.
-/

namespace MultipathQuic

/-- The encoding finds the last code whose value is at most the given one. -/
structure RoundDown (value : ℕ → ℕ) (last : ℕ) (encode : ℕ → ℕ) : Prop where
  lt_succ : ∀ c < last, value c < value (c + 1)
  le_last : ∀ v, encode v ≤ last
  value_le : ∀ v, value (encode v) ≤ v
  lt_next : ∀ v, encode v < last → v < value (encode v + 1)

namespace RoundDown

variable {value encode : ℕ → ℕ} {last v w c d : ℕ}

theorem value_mono (h : RoundDown value last encode) (hcd : c ≤ d) (hd : d ≤ last) :
    value c ≤ value d := by
  induction d, hcd using Nat.le_induction with
  | base => exact le_rfl
  | succ d hcd ih => exact (ih (Nat.le_of_succ_le hd)).trans (h.lt_succ d hd).le

/-- A code whose value is at most `v` is at most the code of `v`. -/
theorem le_encode (h : RoundDown value last encode) (hc : c ≤ last) (hv : value c ≤ v) :
    c ≤ encode v := by
  by_contra hlt
  have hnext : encode v + 1 ≤ c := Nat.lt_of_not_le hlt
  exact absurd (h.lt_next v (hnext.trans hc)) (Nat.not_lt.mpr ((h.value_mono hnext hc).trans hv))

theorem isGreatest (h : RoundDown value last encode) (v : ℕ) :
    IsGreatest {x | (∃ c < last + 1, value c = x) ∧ x ≤ v} (value (encode v)) := by
  refine ⟨⟨⟨_, Nat.lt_succ_of_le (h.le_last v), rfl⟩, h.value_le v⟩, ?_⟩
  rintro _ ⟨⟨c, hc, rfl⟩, hv⟩
  exact h.value_mono (h.le_encode (Nat.le_of_lt_succ hc) hv) (h.le_last v)

theorem mono (h : RoundDown value last encode) (hvw : v ≤ w) : encode v ≤ encode w :=
  h.le_encode (h.le_last v) ((h.value_le v).trans hvw)

end RoundDown

end MultipathQuic
