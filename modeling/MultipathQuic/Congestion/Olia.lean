import Mathlib.Data.Nat.Basic
import MultipathQuic.Protocol

/-!
# The OLIA algorithm

`congestion/olia.go`: how much a path may still grow before its window grows by a packet. Integers
of the code's type `int` have 64 bits.
-/

namespace MultipathQuic

/-- A signed integer of 64 bits: the integer that is congruent to `x`. -/
def int64 (x : ℤ) : ℤ := x.bmod (2 ^ 64)

/-- A signed integer as an unsigned one of 64 bits. -/
def uint64 (x : ℤ) : ℕ := (x % 2 ^ 64).toNat

theorem int64_of_small {x : ℤ} (hge : -2 ^ 63 ≤ x) (hlt : x < 2 ^ 63) : int64 x = x := by
  exact Int.bmod_eq_of_le (by omega) (by omega)

/-- `Olia`. -/
structure Olia where
  loss1 : ℕ
  loss2 : ℕ
  loss3 : ℕ
  epsilonNum : ℤ
  epsilonDen : ℕ
  sndCwndCnt : ℤ
  deriving DecidableEq, Repr

/-- `NewOlia`. -/
def newOlia (ackedBytes : ℕ) : Olia where
  loss1 := ackedBytes
  loss2 := ackedBytes
  loss3 := ackedBytes
  epsilonNum := 0
  epsilonDen := 1
  sndCwndCnt := 0

/-- `oliaScale`, with the constant `scale`. -/
def oliaScale (val : ℕ) : ℕ := mul64 val (2 ^ 10)

namespace Olia

variable (o : Olia)

/-- `Reset`. -/
def reset : Olia where
  loss1 := 0
  loss2 := 0
  loss3 := 0
  epsilonNum := 0
  epsilonDen := 1
  sndCwndCnt := 0

/-- `SmoothedBytesBetweenLosses`. -/
def smoothedBytesBetweenLosses : ℕ := max (sub64 o.loss3 o.loss2) (sub64 o.loss2 o.loss1)

/-- `UpdateAckedSinceLastLoss`. -/
def updateAckedSinceLastLoss (ackedBytes : ℕ) : Olia :=
  { o with loss3 := add64 o.loss3 ackedBytes }

/-- `OnPacketLost`. -/
def onPacketLost : Olia := { o with loss1 := o.loss2, loss2 := o.loss3 }

/-- Stores the numerator and the denominator of epsilon. -/
def setEpsilon (epsilon : ℤ × ℕ) : Olia :=
  { o with epsilonNum := epsilon.1, epsilonDen := epsilon.2 }

/-- The denominator of the increase. -/
def incDen (currentCongestionWindow rate : ℕ) : ℕ :=
  let incDen := mul64 (mul64 o.epsilonDen currentCongestionWindow) rate
  if incDen = 0 then 1 else incDen

/-- The product that the rate is compared with. -/
def squared (cwndScaled : ℕ) : ℕ := mul64 (mul64 o.epsilonDen cwndScaled) cwndScaled

/-- The numerator of the increase. -/
def incNum (rate cwndScaled : ℕ) : ℕ :=
  if o.epsilonNum = -1 then
    if o.squared cwndScaled < rate then sub64 rate (o.squared cwndScaled)
    else sub64 (o.squared cwndScaled) rate
  else add64 (mul64 (uint64 o.epsilonNum) rate) (o.squared cwndScaled)

/-- The counter after an ACK, before it is compared with its thresholds. It falls in one of the
three branches. -/
def increased (currentCongestionWindow rate cwndScaled : ℕ) : ℤ :=
  let increase := int64
    (oliaScale (o.incNum rate cwndScaled) / o.incDen currentCongestionWindow rate : ℕ)
  if o.epsilonNum = -1 ∧ o.squared cwndScaled < rate then int64 (o.sndCwndCnt - increase)
  else int64 (o.sndCwndCnt + increase)

/-- `CongestionWindowAfterAck`. -/
def congestionWindowAfterAck (currentCongestionWindow rate cwndScaled : ℕ) : Olia × ℕ :=
  let sndCwndCnt := o.increased currentCongestionWindow rate cwndScaled
  if sndCwndCnt ≥ 2 ^ 10 - 1 then
    ({ o with sndCwndCnt := 0 }, add64 currentCongestionWindow 1)
  else if sndCwndCnt ≤ 0 - 2 ^ 10 + 1 then
    ({ o with sndCwndCnt := 0 }, max 1 (sub64 currentCongestionWindow 1))
  else ({ o with sndCwndCnt := sndCwndCnt }, currentCongestionWindow)

/-- The counter lies between its thresholds. -/
structure CounterInRange : Prop where
  gt : -1023 < o.sndCwndCnt
  lt : o.sndCwndCnt < 1023

theorem counterInRange_newOlia (ackedBytes : ℕ) : (newOlia ackedBytes).CounterInRange :=
  ⟨by simp [newOlia], by simp [newOlia]⟩

theorem counterInRange_reset : reset.CounterInRange := ⟨by decide, by decide⟩

/-! ## The window after an ACK -/

variable {o : Olia} {currentCongestionWindow rate : ℕ}

/-- The counter stays below its thresholds. -/
theorem sndCwndCnt_congestionWindowAfterAck (cwndScaled : ℕ) :
    (o.congestionWindowAfterAck currentCongestionWindow rate cwndScaled).1.CounterInRange := by
  unfold congestionWindowAfterAck
  dsimp only
  split_ifs with hup hdown
  · exact ⟨by simp, by simp⟩
  · exact ⟨by simp, by simp⟩
  · constructor <;> dsimp only <;> omega

/-- Only the counter changes. -/
theorem congestionWindowAfterAck_losses (cwndScaled : ℕ) :
    (o.congestionWindowAfterAck currentCongestionWindow rate cwndScaled).1 =
      { o with sndCwndCnt :=
        (o.congestionWindowAfterAck currentCongestionWindow rate cwndScaled).1.sndCwndCnt } := by
  unfold congestionWindowAfterAck
  dsimp only
  split_ifs <;> rfl

/-- The window grows by a packet, shrinks by one, or stays. -/
theorem congestionWindowAfterAck_cases (hpos : 2 ≤ currentCongestionWindow)
    (hlt : currentCongestionWindow + 1 < 2 ^ 64) (rate cwndScaled : ℕ) :
    (o.congestionWindowAfterAck currentCongestionWindow rate cwndScaled).2 =
        currentCongestionWindow + 1 ∨
    (o.congestionWindowAfterAck currentCongestionWindow rate cwndScaled).2 =
        currentCongestionWindow ∨
    ((o.congestionWindowAfterAck currentCongestionWindow rate cwndScaled).2 =
        currentCongestionWindow - 1 ∧
      o.increased currentCongestionWindow rate cwndScaled ≤ -1023) := by
  unfold congestionWindowAfterAck
  dsimp only
  split_ifs with hup hdown
  · exact Or.inl (add64_of_lt hlt)
  · refine Or.inr (Or.inr ⟨?_, by omega⟩)
    rw [sub64_of_le (by omega) (by omega), Nat.max_eq_right (by omega)]
  · exact Or.inr (Or.inl rfl)

/-- With a denominator that does not overflow, the increase at the minimum window is small. -/
theorem div_incDen_lt {incNum : ℕ} (hden : 1 ≤ o.epsilonDen) (hden' : o.epsilonDen < 2 ^ 16)
    (hfit : o.epsilonDen * 2 * rate < 2 ^ 64) (hinc : incNum ≤ rate + o.epsilonDen * 2 ^ 22) :
    oliaScale incNum / o.incDen 2 rate < 2 ^ 49 := by
  have hscale : oliaScale incNum ≤ (rate + o.epsilonDen * 2 ^ 22) * 2 ^ 10 := by
    unfold oliaScale mul64
    exact le_trans (Nat.mod_le _ _) (Nat.mul_le_mul_right _ hinc)
  have hprod : mul64 (mul64 o.epsilonDen 2) rate = o.epsilonDen * 2 * rate := by
    unfold mul64
    rw [Nat.mod_eq_of_lt (show o.epsilonDen * 2 < 2 ^ 64 by omega), Nat.mod_eq_of_lt hfit]
  unfold incDen
  rw [hprod]
  rcases Nat.eq_zero_or_pos rate with rfl | hrate
  · simp only [Nat.mul_zero, if_true, Nat.div_one]
    omega
  · have hle : rate ≤ o.epsilonDen * rate := Nat.le_mul_of_pos_left _ hden
    have hcomm : o.epsilonDen * 2 * rate = 2 * (o.epsilonDen * rate) := by
      rw [Nat.mul_comm o.epsilonDen 2, Nat.mul_assoc]
    rw [if_neg (by omega), hcomm]
    rw [Nat.div_lt_iff_lt_mul (by omega)]
    omega

/-- Unless `epsilonNum` is negative, the counter does not fall at the minimum window. -/
theorem le_increased (hnum : o.epsilonNum = 0 ∨ o.epsilonNum = 1) (hden : 1 ≤ o.epsilonDen)
    (hden' : o.epsilonDen < 2 ^ 16) (hfit : o.epsilonDen * 2 * rate < 2 ^ 64)
    (hcnt : o.CounterInRange) : o.sndCwndCnt ≤ o.increased 2 rate (oliaScale 2) := by
  obtain ⟨hgt, hlt⟩ := hcnt
  have hinc : o.incNum rate (oliaScale 2) ≤ rate + o.epsilonDen * 2 ^ 22 := by
    have hrate : mul64 (uint64 o.epsilonNum) rate ≤ rate := by
      unfold mul64
      refine le_trans (Nat.mod_le _ _) ?_
      rcases hnum with hnum | hnum <;> rw [hnum] <;> simp [uint64]
    have hsquared : o.squared (oliaScale 2) ≤ o.epsilonDen * 2 ^ 22 := by
      unfold squared oliaScale mul64
      omega
    rw [incNum, if_neg (by omega)]
    unfold add64
    omega
  have hsmall := div_incDen_lt hden hden' hfit hinc
  unfold increased
  dsimp only
  rw [if_neg (by omega)]
  generalize oliaScale _ / o.incDen 2 rate = increase at hsmall ⊢
  rw [int64_of_small (x := increase) (by omega) (by omega), int64_of_small (by omega) (by omega)]
  omega

end Olia

end MultipathQuic
