import Mathlib.Tactic.Linarith
import Mathlib.Tactic.Ring
import MultipathQuic.Congestion.Epsilon

/-!
# Overflow in OLIA

`getEpsilon` compares products of bytes and squared round-trip times, `getRate` squares a sum, and
`CongestionWindowAfterAck` multiplies the square with a window and a denominator. With round-trip
times in nanoseconds all of these may overflow 64 bits.

## Main definitions

* `OliaSenders.exactRate`, `OliaSenders.exactEpsilon`: the results of exact integers
* `OliaSenders.ComputesExactly`: OLIA computes with the exact integers
* `OliaSenders.Harmless`: no overflow changes a result, in terms of the exact products

## Main results

* `OliaSenders.comparesExactly_iff`: which overflows a comparison survives
* `OliaSenders.computesExactly_iff`: when all computations are exact
-/

namespace MultipathQuic

open Champion Relation

/-! ## The comparisons -/

/-- How often a number overflows 64 bits. -/
def overflows (x : ℤ) : ℤ := x.bdiv (2 ^ 64)

/-- The order of two numbers is kept, if a larger remainder goes with more overflows. -/
theorem int64_le_int64_iff (x y : ℤ) : (int64 y ≤ int64 x ↔ y ≤ x) ↔
    (overflows y < overflows x → int64 y ≤ int64 x) ∧
      (overflows x < overflows y → int64 x < int64 y) := by
  have hsum : ∀ z : ℤ, int64 z + 2 ^ 64 * overflows z = z := fun z =>
    Int.bmod_add_bdiv z (2 ^ 64)
  have hle : ∀ z : ℤ, -2 ^ 63 ≤ int64 z := fun z => Int.le_bmod (by decide)
  have hlt : ∀ z : ℤ, int64 z < 2 ^ 63 := fun z => Int.bmod_lt (by decide)
  have hx := hsum x
  have hy := hsum y
  have hxle := hle x
  have hyle := hle y
  have hxlt := hlt x
  have hylt := hlt y
  omega

namespace OliaSenders

variable {m : OliaSenders} {id : PathID}

/-- A sender is at least as good as another one: the comparison of the exact products. -/
def AtLeast (m : OliaSenders) (id id' : PathID) : Prop :=
  (m.sender id').bytes * (m.sender id).squaredRTT ≤ (m.sender id).bytes * (m.sender id').squaredRTT

instance (m : OliaSenders) : DecidableRel m.AtLeast := fun _ _ => inferInstanceAs (Decidable (_ ≤ _))

/-- Every comparison of two senders is exact. -/
def ComparesExactly (m : OliaSenders) : Prop :=
  ∀ id ∈ m.ids, ∀ id' ∈ m.ids, (m.Beats id id' ↔ m.AtLeast id id')

/-- **Which overflows a comparison survives:** of two products that are compared, the one that
overflows more often has the larger remainder. -/
theorem comparesExactly_iff : m.ComparesExactly ↔ ∀ id ∈ m.ids, ∀ id' ∈ m.ids,
    overflows ((m.sender id).bytes * (m.sender id').squaredRTT) <
        overflows ((m.sender id').bytes * (m.sender id).squaredRTT) →
      int64 ((m.sender id).bytes * (m.sender id').squaredRTT) <
        int64 ((m.sender id').bytes * (m.sender id).squaredRTT) := by
  have hpair : ∀ id id', (m.Beats id id' ↔ m.AtLeast id id') ↔ _ := fun id id' => by
    rw [Beats, OliaSender.reaches_best_iff, AtLeast, int64_le_int64_iff]
  constructor
  · intro h id hid id' hid'
    exact ((hpair id id').mp (h id hid id' hid')).2
  · intro h id hid id' hid'
    exact (hpair id id').mpr ⟨fun hlt => (h id' hid' id hid hlt).le, h id hid id' hid'⟩

theorem AtLeast.trans {id₁ id₂ id₃ : PathID} (hpos : 0 < (m.sender id₂).squaredRTT)
    (h₁₂ : m.AtLeast id₁ id₂) (h₂₃ : m.AtLeast id₂ id₃) : m.AtLeast id₁ id₃ := by
  have hr₁ : 0 ≤ (m.sender id₁).squaredRTT := mul_self_nonneg _
  have hr₃ : 0 ≤ (m.sender id₃).squaredRTT := mul_self_nonneg _
  unfold AtLeast at *
  refine le_of_mul_le_mul_right ?_ hpos
  generalize (m.sender id₁).squaredRTT = r₁, (m.sender id₂).squaredRTT = r₂,
    (m.sender id₃).squaredRTT = r₃, (m.sender id₁).bytes = b₁, (m.sender id₂).bytes = b₂,
    (m.sender id₃).bytes = b₃ at *
  calc b₃ * r₁ * r₂ = b₃ * r₂ * r₁ := by ring
    _ ≤ b₂ * r₃ * r₁ := mul_le_mul_of_nonneg_right h₂₃ hr₁
    _ = b₂ * r₁ * r₃ := by ring
    _ ≤ b₁ * r₂ * r₃ := mul_le_mul_of_nonneg_right h₁₂ hr₃
    _ = b₁ * r₃ * r₂ := by ring

/-- A sender is at least as good as all others. -/
def isBest (m : OliaSenders) (id : PathID) : Bool :=
  m.ids.all fun id' => m.AtLeast id id'

/-- If all senders have been probed and their comparisons are exact, the best paths are those that
are at least as good as all others. -/
theorem ComparesExactly.reaches_bestPath_iff (h : m.ComparesExactly)
    (hpos : ∀ id ∈ m.ids, 0 < (m.sender id).squaredRTT) (order : MapOrder PathID)
    (hid : id ∈ m.ids) :
    (m.sender id).reaches (m.bestPath (order.order m.ids)) = true ↔ m.isBest id = true := by
  obtain ⟨best, hbest, heq⟩ := exists_bestPath_eq (List.ne_nil_of_mem hid) order
  -- along a chain the best sender stays at least as good
  have hchain : ∀ id', Beaten m.Beats m.ids best id' → id' ∈ m.ids ∧ m.AtLeast best id' := by
    intro id' hbeaten
    induction hbeaten with
    | refl => exact ⟨hbest.mem, le_refl _⟩
    | tail _ hstep ih =>
      exact ⟨hstep.1, ih.2.trans (hpos _ ih.1) ((h _ ih.1 _ hstep.1).mp hstep.2)⟩
  rw [heq, isBest, List.all_eq_true]
  have hiff := h id hid best hbest.mem
  constructor
  · intro hbeats id' hid'
    refine decide_eq_true ?_
    exact (hiff.mp hbeats).trans (hpos best hbest.mem) (hchain id' (hbest.beaten id' hid')).2
  · intro hatLeast
    exact hiff.mpr (of_decide_eq_true (hatLeast best hbest.mem))

/-- A sender gets a share of what the paths with the largest window give. -/
def receives (m : OliaSenders) (id : PathID) : Bool := !m.isMax id && m.isBest id

/-- The numerator and the denominator of epsilon, with exact comparisons. -/
def exactEpsilon (m : OliaSenders) (id : PathID) : ℤ × ℕ :=
  if m.ids.countP m.receives = 0 then (0, 1)
  else if m.receives id then (1, m.ids.length * m.ids.countP m.receives)
  else if m.isMax id then (-1, m.ids.length * m.ids.countP m.isMax)
  else (0, 1)

theorem ComparesExactly.epsilonOf_bestPath (h : m.ComparesExactly)
    (hpos : ∀ id ∈ m.ids, 0 < (m.sender id).squaredRTT) (order : MapOrder PathID)
    (hid : id ∈ m.ids) :
    m.epsilonOf (m.bestPath (order.order m.ids)) (m.sender id) = m.exactEpsilon id := by
  have hbest : ∀ id ∈ m.ids, m.isBestNotMax (m.bestPath (order.order m.ids)) id = m.receives id :=
    fun id hid => by
      rw [isBestNotMax, Bool.eq_iff_iff.mpr (h.reaches_bestPath_iff hpos order hid)]
      rfl
  have hcount : m.ids.countP (m.isBestNotMax (m.bestPath (order.order m.ids))) =
      m.ids.countP m.receives :=
    List.countP_congr fun id hid => by rw [hbest id hid]
  by_cases hnone : m.ids.countP m.receives = 0
  · rw [epsilonOf_eq_zero (hcount.trans hnone), exactEpsilon, if_pos hnone]
  · have hsome : m.ids.countP (m.isBestNotMax (m.bestPath (order.order m.ids))) ≠ 0 := by
      rwa [hcount]
    rw [epsilonOf_eq hid hsome, exactEpsilon, if_neg hnone, hbest id hid, hcount]

end OliaSenders

/-! ## The products of an ACK -/

theorem mul64_lt (a b : ℕ) : mul64 a b < 2 ^ 64 := by
  unfold mul64
  exact Nat.mod_lt _ (by decide)

theorem oliaScale_of_lt {w : ℕ} (h : 2 ^ 10 * w < 2 ^ 64) : oliaScale w = 2 ^ 10 * w := by
  unfold oliaScale
  rw [mul64_of_lt (by omega), Nat.mul_comm]

namespace Olia

/-- The numerator of an increase, without overflow. -/
def exactIncNum (epsilon : ℤ × ℕ) (w rate : ℕ) : ℕ :=
  (epsilon.1 * rate + (epsilon.2 * (2 ^ 10 * w) ^ 2 : ℕ)).natAbs

/-- The products of `CongestionWindowAfterAck` are exact. -/
structure ComputesExactly (o : Olia) (w rate : ℕ) : Prop where
  squared : o.squared (oliaScale w) = o.epsilonDen * (2 ^ 10 * w) ^ 2
  incDen : mul64 (mul64 o.epsilonDen w) rate = o.epsilonDen * w * rate
  incNum : oliaScale (o.incNum rate (oliaScale w)) =
    2 ^ 10 * exactIncNum (o.epsilonNum, o.epsilonDen) w rate

variable {o : Olia} {w rate : ℕ}

theorem squared_eq (hden : o.epsilonDen ≤ 2 ^ 16) (hw : w ≤ 2500) :
    o.squared (oliaScale w) = o.epsilonDen * (2 ^ 10 * w) ^ 2 ∧
      o.epsilonDen * (2 ^ 10 * w) ^ 2 < 2 ^ 60 := by
  have hle : o.epsilonDen * (2 ^ 10 * w) ^ 2 ≤ 2 ^ 16 * (2 ^ 10 * 2500) ^ 2 :=
    Nat.mul_le_mul hden (Nat.pow_le_pow_left (Nat.mul_le_mul_left _ hw) 2)
  have hfactor : o.epsilonDen * (2 ^ 10 * w) ≤ 2 ^ 16 * (2 ^ 10 * 2500) :=
    Nat.mul_le_mul hden (Nat.mul_le_mul_left _ hw)
  have hproduct : o.epsilonDen * (2 ^ 10 * w) * (2 ^ 10 * w) = o.epsilonDen * (2 ^ 10 * w) ^ 2 := by
    rw [Nat.mul_assoc, ← pow_two]
  have hfirst : mul64 o.epsilonDen (2 ^ 10 * w) = o.epsilonDen * (2 ^ 10 * w) :=
    mul64_of_lt (by omega)
  refine ⟨?_, by omega⟩
  rw [squared, oliaScale_of_lt (by omega), hfirst, mul64_of_lt (by omega), hproduct]

/-- The numerator is exact, unless it overflows. -/
theorem incNum_eq (hnum : o.epsilonNum = -1 ∨ o.epsilonNum = 0 ∨ o.epsilonNum = 1)
    (hden : o.epsilonDen ≤ 2 ^ 16) (hw : w ≤ 2500) (hrate : rate < 2 ^ 64)
    (hlt : exactIncNum (o.epsilonNum, o.epsilonDen) w rate < 2 ^ 64) :
    o.incNum rate (oliaScale w) = exactIncNum (o.epsilonNum, o.epsilonDen) w rate := by
  obtain ⟨heq, hsmall⟩ := squared_eq hden hw
  unfold exactIncNum at hlt ⊢
  unfold incNum
  dsimp only at hlt ⊢
  rw [heq]
  generalize o.epsilonDen * (2 ^ 10 * w) ^ 2 = squared at hsmall hlt ⊢
  rcases hnum with hnum | hnum | hnum <;> rw [hnum] at hlt ⊢
  · rw [if_pos rfl]
    split_ifs with hless
    · rw [sub64_of_le hless.le hrate]
      omega
    · rw [sub64_of_le (by omega) (by omega)]
      omega
  · rw [if_neg (by decide), show mul64 (uint64 0) rate = 0 by simp [uint64, mul64],
      add64_of_lt (by omega)]
    omega
  · rw [if_neg (by decide), show uint64 1 = 1 from rfl, mul64_of_lt (by omega), Nat.one_mul,
      add64_of_lt (by omega)]
    omega

/-- The products of an ACK are exact iff the two largest of them fit. -/
theorem productsExact_iff (hnum : o.epsilonNum = -1 ∨ o.epsilonNum = 0 ∨ o.epsilonNum = 1)
    (hden : o.epsilonDen ≤ 2 ^ 16) (hw : w ≤ 2500) (hrate : rate < 2 ^ 64) :
    o.ComputesExactly w rate ↔ o.epsilonDen * w * rate < 2 ^ 64 ∧
      2 ^ 10 * exactIncNum (o.epsilonNum, o.epsilonDen) w rate < 2 ^ 64 := by
  constructor
  · intro h
    exact ⟨h.incDen ▸ mul64_lt _ _, h.incNum ▸ mul64_lt _ _⟩
  · rintro ⟨hincDen, hincNum⟩
    have hfactor := Nat.mul_le_mul hden hw
    refine ⟨(squared_eq hden hw).1, ?_, ?_⟩
    · have hfirst : mul64 o.epsilonDen w = o.epsilonDen * w := mul64_of_lt (by omega)
      rw [hfirst, mul64_of_lt hincDen]
    · rw [incNum_eq hnum hden hw hrate (by omega), oliaScale_of_lt hincNum]

end Olia

/-! ## The rate -/

/-- A sender with a window of up to 2500 packets, a round-trip time between a millisecond and ten
seconds and not more than `2 ^ 40` bytes between losses. -/
structure OliaSender.Operating (o : OliaSender) : Prop where
  cwnd_ge : 2 ≤ o.congestionWindow
  cwnd_le : o.congestionWindow ≤ 2500
  rtt_ge : 10 ^ 6 ≤ o.rttStats.smoothedRTT
  rtt_le : o.rttStats.smoothedRTT ≤ 10 ^ 10
  bytes_le : o.olia.smoothedBytesBetweenLosses ≤ 2 ^ 40

namespace OliaSender.Operating

variable {o o' : OliaSender}

theorem squaredRTT_pos (h : o.Operating) : 0 < o.squaredRTT := by
  have hpos : 0 < o.rttStats.smoothedRTT := lt_of_lt_of_le (by decide) h.rtt_ge
  exact mul_pos hpos hpos

theorem uint64_eq (h : o.Operating) :
    uint64 o.rttStats.smoothedRTT = o.rttStats.smoothedRTT.toNat := by
  have hge := h.rtt_ge
  have hle := h.rtt_le
  unfold uint64
  rw [Int.emod_eq_of_lt (by omega) (by omega)]

/-- The product of `getRate` fits. -/
theorem scaled_eq (h : o.Operating) (h' : o'.Operating) :
    mul64 (oliaScale o'.congestionWindow) (uint64 o.rttStats.smoothedRTT) =
      2 ^ 10 * o'.congestionWindow * o.rttStats.smoothedRTT.toNat := by
  have hcwnd := h'.cwnd_le
  have hrtt := h.rtt_le
  have hprod : 2 ^ 10 * o'.congestionWindow * o.rttStats.smoothedRTT.toNat ≤
      2 ^ 10 * 2500 * 10 ^ 10 :=
    Nat.mul_le_mul (Nat.mul_le_mul_left _ hcwnd) (by omega)
  rw [oliaScale_of_lt (by omega), h.uint64_eq, mul64_of_lt (by omega)]

end OliaSender.Operating

namespace OliaSenders

variable {m : OliaSenders} {id : PathID}

/-- What a sender contributes to the rate, without overflow. -/
def exactRateOf (pathRTT : ℤ) (o : OliaSender) : ℕ :=
  2 ^ 10 * o.congestionWindow * pathRTT.toNat / o.rttStats.smoothedRTT.toNat

/-- `getRate` without overflow. -/
def exactRate (m : OliaSenders) (pathRTT : ℤ) : ℕ :=
  (1 + (m.ids.map fun id => exactRateOf pathRTT (m.sender id)).sum) ^ 2

theorem rateOf_eq {o o' : OliaSender} (h : o.Operating) (h' : o'.Operating) :
    rateOf o.rttStats.smoothedRTT o' = exactRateOf o.rttStats.smoothedRTT o' := by
  have hpos : o'.rttStats.smoothedRTT ≠ 0 := by
    have := h'.rtt_ge
    omega
  rw [rateOf, if_pos hpos, h.scaled_eq h', h'.uint64_eq, exactRateOf]

/-- The rate is exact iff its square fits. -/
theorem getRate_eq_iff (h : ∀ id ∈ m.ids, (m.sender id).Operating) (hid : id ∈ m.ids) :
    m.getRate (m.sender id).rttStats.smoothedRTT = m.exactRate (m.sender id).rttStats.smoothedRTT ↔
      m.exactRate (m.sender id).rttStats.smoothedRTT < 2 ^ 64 := by
  generalize hrtt : (m.sender id).rttStats.smoothedRTT = pathRTT
  -- as long as the sum fits, the loop computes it
  have hloop : ∀ ids : List PathID, ids ⊆ m.ids →
      1 + (ids.map fun id => exactRateOf pathRTT (m.sender id)).sum < 2 ^ 64 →
      ids.foldl (fun rate id => add64 rate (rateOf pathRTT (m.sender id))) 1 =
        1 + (ids.map fun id => exactRateOf pathRTT (m.sender id)).sum := by
    intro ids
    induction ids using List.reverseRecOn with
    | nil => simp
    | append_singleton ids id' ih =>
      intro hsub hlt
      have hid' : id' ∈ m.ids := hsub (by simp)
      rw [List.map_append, List.sum_append, List.map_singleton, List.sum_singleton] at hlt ⊢
      rw [List.foldl_append, List.foldl_cons, List.foldl_nil,
        ih (fun x hx => hsub (List.mem_append_left _ hx)) (by omega), ← hrtt,
        rateOf_eq (h id hid) (h id' hid'), hrtt, add64_of_lt (by omega)]
      omega
  constructor
  · intro heq
    rw [← heq]
    exact mul64_lt _ _
  · intro hlt
    unfold exactRate at hlt ⊢
    have hsum := (Nat.le_self_pow (by decide) _).trans_lt hlt
    rw [pow_two] at hlt ⊢
    unfold getRate
    rw [hloop m.ids (List.Subset.refl _) hsum]
    exact mul64_of_lt hlt

theorem getRate_getEpsilon (m : OliaSenders) (order : MapOrder PathID) (pathRTT : ℤ) :
    (m.getEpsilon order).getRate pathRTT = m.getRate pathRTT := by
  have hrate : ∀ id, rateOf pathRTT ((m.getEpsilon order).sender id) =
      rateOf pathRTT (m.sender id) := by
    intro id
    by_cases hid : id ∈ m.ids
    · rw [sender_getEpsilon hid]
      rfl
    · simp only [getEpsilon, hid, if_false]
  unfold getRate
  simp only [hrate]
  rfl

/-! ## All computations -/

/-- The denominator of epsilon is at most the square of the number of senders. -/
theorem epsilonOf_le (m : OliaSenders) (best : BestPath) (o : OliaSender) :
    (m.epsilonOf best o).2 ≤ 2 ^ 16 ∧ ((m.epsilonOf best o).1 = -1 ∨
      (m.epsilonOf best o).1 = 0 ∨ (m.epsilonOf best o).1 = 1) := by
  have hlen := m.length_ids_le
  have hprod : ∀ n : ℕ, m.ids.length * (n % 2 ^ 8) % 2 ^ 32 ≤ 2 ^ 16 := by
    intro n
    have hmul : m.ids.length * (n % 2 ^ 8) ≤ 256 * 256 := Nat.mul_le_mul hlen (by omega)
    exact (Nat.mod_le _ _).trans hmul
  unfold epsilonOf
  dsimp only
  split_ifs
  · exact ⟨by decide, by simp⟩
  · exact ⟨hprod _, by simp⟩
  · exact ⟨hprod _, by simp⟩
  · exact ⟨by decide, by simp⟩

/-- OLIA computes with the exact integers: at every point of the iteration a sender replaces the best
one so far iff it is at least as good, and the products of `getRate` and of
`CongestionWindowAfterAck` are exact for an ACK of any sender. -/
structure ComputesExactly (m : OliaSenders) (order : MapOrder PathID) : Prop where
  compared : ∀ ids, ids <+: order.order m.ids → ∀ best ∈ champion m.Beats ids, ∀ id ∈ m.ids,
    ((m.sender id).reaches (m.bestPath ids) = true ↔ m.AtLeast id best)
  scaled : ∀ id ∈ m.ids, ∀ id' ∈ m.ids,
    mul64 (oliaScale (m.sender id').congestionWindow) (uint64 (m.sender id).rttStats.smoothedRTT) =
      2 ^ 10 * (m.sender id').congestionWindow * (m.sender id).rttStats.smoothedRTT.toNat
  rate : ∀ id ∈ m.ids, (m.getEpsilon order).getRate (m.sender id).rttStats.smoothedRTT =
    m.exactRate (m.sender id).rttStats.smoothedRTT
  acked : ∀ id ∈ m.ids, ((m.getEpsilon order).sender id).olia.ComputesExactly
    (m.sender id).congestionWindow ((m.getEpsilon order).getRate (m.sender id).rttStats.smoothedRTT)

/-- No overflow changes a result. -/
structure Harmless (m : OliaSenders) : Prop where
  compared : ∀ id ∈ m.ids, ∀ id' ∈ m.ids,
    overflows ((m.sender id).bytes * (m.sender id').squaredRTT) <
        overflows ((m.sender id').bytes * (m.sender id).squaredRTT) →
      int64 ((m.sender id).bytes * (m.sender id').squaredRTT) <
        int64 ((m.sender id').bytes * (m.sender id).squaredRTT)
  rate_lt : ∀ id ∈ m.ids, m.exactRate (m.sender id).rttStats.smoothedRTT < 2 ^ 64
  incDen_lt : ∀ id ∈ m.ids, (m.exactEpsilon id).2 * (m.sender id).congestionWindow *
    m.exactRate (m.sender id).rttStats.smoothedRTT < 2 ^ 64
  incNum_lt : ∀ id ∈ m.ids, 2 ^ 10 * Olia.exactIncNum (m.exactEpsilon id)
    (m.sender id).congestionWindow (m.exactRate (m.sender id).rttStats.smoothedRTT) < 2 ^ 64

/-- Every two senders are compared in some order. -/
theorem comparesExactly_of_compared
    (h : ∀ order : MapOrder PathID, ∀ ids, ids <+: order.order m.ids →
      ∀ best ∈ champion m.Beats ids, ∀ id ∈ m.ids,
        ((m.sender id).reaches (m.bestPath ids) = true ↔ m.AtLeast id best)) :
    m.ComparesExactly := by
  intro id hid id' hid'
  have hperm : (id' :: m.ids.erase id').Perm m.ids := (List.perm_cons_erase hid').symm
  have hcompared := h (.ofPerm hperm) [id']
    (by rw [MapOrder.order_ofPerm]; exact ⟨_, rfl⟩) id' rfl id hid
  rw [bestPath_eq] at hcompared
  exact hcompared

/-- The products of an ACK, in terms of the exact epsilon and the exact rate. -/
theorem ComparesExactly.acked_iff (hcompares : m.ComparesExactly)
    (h : ∀ id ∈ m.ids, (m.sender id).Operating) (hid : id ∈ m.ids) (order : MapOrder PathID)
    (hrate : m.exactRate (m.sender id).rttStats.smoothedRTT < 2 ^ 64) :
    ((m.getEpsilon order).sender id).olia.ComputesExactly (m.sender id).congestionWindow
        ((m.getEpsilon order).getRate (m.sender id).rttStats.smoothedRTT) ↔
      (m.exactEpsilon id).2 * (m.sender id).congestionWindow *
          m.exactRate (m.sender id).rttStats.smoothedRTT < 2 ^ 64 ∧
        2 ^ 10 * Olia.exactIncNum (m.exactEpsilon id) (m.sender id).congestionWindow
          (m.exactRate (m.sender id).rttStats.smoothedRTT) < 2 ^ 64 := by
  have hepsilon := hcompares.epsilonOf_bestPath (fun id hid => (h id hid).squaredRTT_pos) order hid
  obtain ⟨hden, hnum⟩ := m.epsilonOf_le (m.bestPath (order.order m.ids)) (m.sender id)
  rw [getRate_getEpsilon, (getRate_eq_iff h hid).mpr hrate, sender_getEpsilon hid]
  rw [hepsilon] at hden hnum ⊢
  exact Olia.productsExact_iff hnum hden (h id hid).cwnd_le hrate

/-- **When OLIA computes exactly**, in any order of the iteration, for senders in their operating
range. -/
theorem computesExactly_iff (h : ∀ id ∈ m.ids, (m.sender id).Operating) :
    (∀ order, m.ComputesExactly order) ↔ m.Harmless := by
  constructor
  · intro hexact
    have hcompares := comparesExactly_of_compared fun order => (hexact order).compared
    have hfirst := hexact (.inserted _)
    have hrate : ∀ id ∈ m.ids, m.exactRate (m.sender id).rttStats.smoothedRTT < 2 ^ 64 := by
      intro id hid
      rw [← getRate_eq_iff h hid, ← getRate_getEpsilon]
      exact hfirst.rate id hid
    have hacked := fun id hid =>
      (hcompares.acked_iff h hid (.inserted _) (hrate id hid)).mp (hfirst.acked id hid)
    exact ⟨comparesExactly_iff.mp hcompares, hrate, fun id hid => (hacked id hid).1,
      fun id hid => (hacked id hid).2⟩
  · intro hharmless order
    have hcompares := comparesExactly_iff.mpr hharmless.compared
    refine ⟨fun ids hids best hbest id hid => ?_, fun id hid id' hid' => ?_, fun id hid => ?_,
      fun id hid => ?_⟩
    · have hmem := (beaten_of_champion_eq m.beats_total hbest).1
      rw [bestPath_eq, hbest]
      exact hcompares id hid best (order.mem_order.mp (hids.subset hmem))
    · exact (h id hid).scaled_eq (h id' hid')
    · rw [getRate_getEpsilon]
      exact (getRate_eq_iff h hid).mpr (hharmless.rate_lt id hid)
    · exact (hcompares.acked_iff h hid order (hharmless.rate_lt id hid)).mpr
        ⟨hharmless.incDen_lt id hid, hharmless.incNum_lt id hid⟩

/-- Two senders with large windows, and round-trip times of 10 and of 100 milliseconds. -/
def largeWindows : OliaSenders where
  ids := [1, 2]
  nodup := by decide
  sender id := if id = 1 then sampleSender 2500 (10 ^ 7) 100 else sampleSender 2000 (10 ^ 8) 100

theorem computesExactly_largeWindows :
    (∀ id ∈ largeWindows.ids, (largeWindows.sender id).Operating) ∧
      ∀ order, largeWindows.ComputesExactly order := by
  have hoperating : ∀ id ∈ largeWindows.ids, (largeWindows.sender id).Operating := by
    intro id hid
    simp only [largeWindows, List.mem_cons, List.not_mem_nil, or_false] at hid
    rcases hid with rfl | rfl <;>
      exact ⟨by decide, by decide, by decide, by decide, by decide +kernel⟩
  refine ⟨hoperating, (computesExactly_iff hoperating).mpr ?_⟩
  exact ⟨by decide +kernel, by decide +kernel, by decide +kernel, by decide +kernel⟩

/-- Two senders, the second of them with a round-trip time of `2 ^ 32` nanoseconds. -/
def farSenders : OliaSenders where
  ids := [1, 2]
  nodup := by decide
  sender id := if id = 1 then sampleSender 10 1000000 1000 else sampleSender 10 (2 ^ 32) 1

/-- The square of that round-trip time is 0 in 64 bits, and the second sender is the best one. -/
theorem farSenders_overflow :
    (∀ id ∈ farSenders.ids, (farSenders.sender id).Operating) ∧
      (farSenders.sender 2).reaches (farSenders.bestPath [1]) = true ∧
      ¬ farSenders.AtLeast 2 1 := by
  refine ⟨fun id hid => ?_, by decide +kernel, by decide +kernel⟩
  simp only [farSenders, List.mem_cons, List.not_mem_nil, or_false] at hid
  rcases hid with rfl | rfl <;>
    exact ⟨by decide, by decide, by decide, by decide, by decide +kernel⟩

end OliaSenders

end MultipathQuic
