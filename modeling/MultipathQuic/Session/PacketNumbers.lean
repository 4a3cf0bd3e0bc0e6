import Mathlib.Data.List.Chain
import Mathlib.Data.Nat.Bitwise
import Mathlib.Tactic.IntervalCases
import MultipathQuic.Session.Path

/-!
# Packet numbers

A packet number is sent with 2, 4 or 6 bytes, and the receiver infers the rest of it from the largest
number that it has received. The sender leaves out a packet number now and then, so that it notices
when a peer acknowledges packets that were never sent.

The first number to leave out is only drawn when a number has been left out: a generator that is new
waits for the number 0.
-/

namespace MultipathQuic

/-! ## Truncated packet numbers -/

/-- `delta`. -/
def delta (a b : ℕ) : ℕ := if a < b then sub64 b a else sub64 a b

/-- `closestTo`. -/
def closestTo (target a b : ℕ) : ℕ := if delta target a < delta target b then a else b

/-- `InferPacketNumber`. The epoch is what is left of the last packet number when its low bits are
cleared. -/
def inferPacketNumber (packetNumberLength : PacketNumberLen)
    (lastPacketNumber wirePacketNumber : ℕ) : ℕ :=
  let epochDelta := 1 <<< (packetNumberLength.bytes * 8)
  let epoch := lastPacketNumber.ldiff (epochDelta - 1)
  let prevEpochBegin := sub64 epoch epochDelta
  let nextEpochBegin := add64 epoch epochDelta
  closestTo (add64 lastPacketNumber 1) (add64 epoch wirePacketNumber)
    (closestTo (add64 lastPacketNumber 1) (add64 prevEpochBegin wirePacketNumber)
      (add64 nextEpochBegin wirePacketNumber))

theorem ldiff_two_pow_sub_one (n k : ℕ) : n.ldiff (2 ^ k - 1) = n / 2 ^ k * 2 ^ k := by
  refine Nat.eq_of_testBit_eq fun i => ?_
  rw [Nat.testBit_ldiff, Nat.testBit_two_pow_sub_one, Nat.testBit_mul_two_pow,
    Nat.testBit_div_two_pow]
  by_cases hi : i < k
  · simp [hi]
  · have hle := Nat.le_of_not_lt hi
    simp [hi, hle, Nat.sub_add_cancel hle]

theorem delta_of_lt {a b : ℕ} (ha : a < 2 ^ 64) (hb : b < 2 ^ 64) :
    delta a b = if a < b then b - a else a - b := by
  unfold delta
  split_ifs with hlt
  · exact sub64_of_le hlt.le hb
  · exact sub64_of_le (Nat.le_of_not_lt hlt) ha

/-- The number `x` is `pn`, or it is farther from the target. -/
def Behind (target pn x : ℕ) : Prop := x = pn ∨ delta target pn < delta target x

theorem behind_of_lt {target pn x : ℕ} (ht : target < 2 ^ 64) (hpn : pn < 2 ^ 64) (hx : x < 2 ^ 64)
    (h : (if target < pn then pn - target else target - pn) <
      if target < x then x - target else target - x) : Behind target pn x := by
  refine Or.inr ?_
  rw [delta_of_lt ht hpn, delta_of_lt ht hx]
  exact h

theorem Behind.closestTo {target pn a b : ℕ} (ha : Behind target pn a) (hb : Behind target pn b) :
    Behind target pn (closestTo target a b) := by
  unfold MultipathQuic.closestTo
  split_ifs
  · exact ha
  · exact hb

/-- The number that no candidate is ahead of is chosen, if it is a candidate. -/
theorem closestTo_eq_of_behind {target pn a b : ℕ} (ha : Behind target pn a)
    (hb : Behind target pn b) (h : a = pn ∨ b = pn) : closestTo target a b = pn := by
  unfold closestTo
  split_ifs with hlt
  · rcases h with rfl | rfl
    · rfl
    · exact ha.resolve_right hlt.not_gt
  · rcases h with rfl | rfl
    · exact hb.resolve_right hlt
    · rfl

/-- Numbers that are close lie in the same epoch or in neighbouring ones. -/
theorem epoch_cases {e q d : ℕ} (hbelow : q * d < (e + 2) * d) (habove : e * d < (q + 2) * d) :
    q * d + d = e * d ∨ q * d = e * d ∨ q * d = e * d + d := by
  have hq := Nat.lt_of_mul_lt_mul_right hbelow
  have he := Nat.lt_of_mul_lt_mul_right habove
  obtain rfl | rfl | rfl : e = q + 1 ∨ q = e ∨ q = e + 1 := by omega
  · exact Or.inl (Nat.succ_mul q d).symm
  · exact Or.inr (Or.inl rfl)
  · exact Or.inr (Or.inr (Nat.succ_mul e d))

/-- A number that is closer to the expected one than half an epoch is inferred. -/
theorem inferPacketNumber_of_close {len : PacketNumberLen} {pn last k : ℕ}
    (hk : len.bytes * 8 = k + 1) (hsmall : k < 48) (hpn : pn < 2 ^ 62)
    (habove : pn < last + 1 + 2 ^ k) (hbelow : last + 1 < pn + 2 ^ k) :
    inferPacketNumber len last (pn % 2 ^ (8 * len.bytes)) = pn := by
  have hhalf : 2 ^ k ≤ 2 ^ 47 := Nat.pow_le_pow_right (by decide) (by omega)
  have hepoch : 2 ^ (k + 1) = 2 * 2 ^ k := pow_succ' 2 k
  unfold inferPacketNumber
  rw [Nat.mul_comm 8, hk, Nat.one_shiftLeft]
  dsimp only
  rw [ldiff_two_pow_sub_one, hepoch]
  generalize 2 ^ k = half at *
  -- the epochs of the last number and of the one that was sent
  have hlast := Nat.div_add_mod last (2 * half)
  have hsent := Nat.div_add_mod pn (2 * half)
  have hlast_lt := Nat.mod_lt last (show 0 < 2 * half by omega)
  have hsent_lt := Nat.mod_lt pn (show 0 < 2 * half by omega)
  rw [Nat.mul_comm] at hlast hsent
  generalize last / (2 * half) = e at *
  generalize pn / (2 * half) = q at *
  generalize pn % (2 * half) = w at *
  have hepochs := epoch_cases (e := e) (q := q) (d := 2 * half) (by rw [Nat.add_mul]; omega)
    (by rw [Nat.add_mul]; omega)
  have hcur : add64 (e * (2 * half)) w = e * (2 * half) + w := add64_of_lt (by omega)
  have hnext : add64 (add64 (e * (2 * half)) (2 * half)) w = e * (2 * half) + 2 * half + w := by
    rw [add64_of_lt (by omega : e * (2 * half) + 2 * half < 2 ^ 64), add64_of_lt (by omega)]
  have htarget : add64 last 1 = last + 1 := add64_of_lt (by omega)
  have hstart : e * (2 * half) = 0 ∨ 2 * half ≤ e * (2 * half) := by
    rcases Nat.eq_zero_or_pos e with rfl | he
    · exact Or.inl (Nat.zero_mul _)
    · exact Or.inr (Nat.le_mul_of_pos_left _ he)
  -- below the first epoch the candidate wraps around, to a number that is far away
  have hprev : add64 (sub64 (e * (2 * half)) (2 * half)) w =
      if e * (2 * half) = 0 then 2 ^ 64 - 2 * half + w else e * (2 * half) - 2 * half + w := by
    split_ifs with hzero
    · unfold sub64
      rw [hzero, add64_of_lt] <;> omega
    · rw [sub64_of_le (hstart.resolve_left hzero) (by omega), add64_of_lt (by omega)]
  rw [hcur, hnext, hprev, htarget]
  generalize e * (2 * half) = start at *
  have hbehind : ∀ x, x < 2 ^ 64 → x = pn ∨ x + 2 * half ≤ pn ∨ pn + 2 * half ≤ x →
      Behind (last + 1) pn x := by
    intro x hx hdist
    rcases hdist with rfl | hdist
    · exact Or.inl rfl
    · exact behind_of_lt (by omega) (by omega) hx (by split_ifs <;> omega)
  have hcurrent := hbehind (start + w) (by omega) (by omega)
  have hfollowing := hbehind (start + 2 * half + w) (by omega) (by omega)
  have hpreceding := hbehind
    (if start = 0 then 2 ^ 64 - 2 * half + w else start - 2 * half + w)
    (by split_ifs <;> omega) (by split_ifs <;> omega)
  rcases hepochs with hq | hq | hq
  · refine closestTo_eq_of_behind hcurrent (hpreceding.closestTo hfollowing) (Or.inr ?_)
    refine closestTo_eq_of_behind hpreceding hfollowing (Or.inl ?_)
    rw [if_neg (by omega)]
    omega
  · exact closestTo_eq_of_behind hcurrent (hpreceding.closestTo hfollowing) (Or.inl (by omega))
  · refine closestTo_eq_of_behind hcurrent (hpreceding.closestTo hfollowing) (Or.inr ?_)
    exact closestTo_eq_of_behind hpreceding hfollowing (Or.inr (by omega))

/-- The length that the sender chooses is enough. -/
theorem inferPacketNumber_of_length {pn leastUnacked last : ℕ} (hpn : pn < 2 ^ 62)
    (hle : leastUnacked ≤ pn) (hdiff : pn - leastUnacked < 2 ^ 47) (hlast : leastUnacked ≤ last + 1)
    (hlate : last + 1 < pn + 2 ^ 15) :
    inferPacketNumber (getPacketNumberLengthForPublicHeader pn leastUnacked) last
      (pn % 2 ^ (8 * (getPacketNumberLengthForPublicHeader pn leastUnacked).bytes)) = pn := by
  have hsub : sub64 pn leastUnacked = pn - leastUnacked := sub64_of_le hle (by omega)
  unfold getPacketNumberLengthForPublicHeader
  dsimp only
  split_ifs with h2 h4
  · exact inferPacketNumber_of_close (k := 15) rfl (by decide) hpn (by omega) (by omega)
  · exact inferPacketNumber_of_close (k := 31) rfl (by decide) hpn (by omega) (by omega)
  · exact inferPacketNumber_of_close (k := 47) rfl (by decide) hpn (by omega) (by omega)

/-- **Packet numbers survive truncation**: with the length that the sender chooses, the receiver gets
back the number, if it expects at least the least unacknowledged one and the packet is late by less
than 2^15 packets. -/
theorem inferPacketNumber_truncated {pn leastUnacked last : ℕ} (hpn : pn < 2 ^ 62)
    (hle : leastUnacked ≤ pn) (hdiff : pn - leastUnacked < 2 ^ 47) (hlast : leastUnacked ≤ last + 1)
    (hlate : last + 1 < pn + 2 ^ 15) :
    inferPacketNumber (getPacketNumberLengthForPublicHeader pn leastUnacked) last
      (pn % 2 ^ (8 * (getPacketNumberLengthForPublicHeader pn leastUnacked).bytes)) = pn :=
  inferPacketNumber_of_length hpn hle hdiff hlast hlate

/-- The last packet of an epoch, from a receiver that has seen the first ones of the next. -/
theorem inferPacketNumber_truncated_epoch :
    inferPacketNumber (getPacketNumberLengthForPublicHeader 0xffff 0xfff0) 0x10003
      (0xffff % 2 ^ (8 * (getPacketNumberLengthForPublicHeader 0xffff 0xfff0).bytes)) = 0xffff :=
  inferPacketNumber_truncated (by decide) (by decide) (by decide) (by decide) (by decide)

/-! ## Numbers that are left out -/

namespace PacketNumberGenerator

variable {p : PacketNumberGenerator} {draws : List UInt16}

/-- What the calls of `Pop` return, with the random number that is drawn in each of them if one is
needed. -/
def numbers : PacketNumberGenerator → List UInt16 → List ℕ
  | _, [] => []
  | p, draw :: draws => (p.pop (some draw)).2 :: numbers (p.pop (some draw)).1 draws

/-- The generator after some calls of `Pop`. -/
def after : PacketNumberGenerator → List UInt16 → PacketNumberGenerator
  | p, [] => p
  | p, draw :: draws => after (p.pop (some draw)).1 draws

/-- `Pop` returns what `Peek` announces. -/
theorem pop_snd (random : Option UInt16) : (p.pop random).2 = p.peek := by
  unfold pop
  dsimp only
  split <;> rfl

/-- The numbers from some call on are those of the generator after the calls before it. -/
theorem drop_numbers (p : PacketNumberGenerator) (before rest : List UInt16) :
    (numbers p (before ++ rest)).drop before.length = numbers (after p before) rest := by
  induction before generalizing p with
  | nil => rfl
  | cons draw before ih => exact ih _

theorem take_numbers (p : PacketNumberGenerator) (draws : List UInt16) (k : ℕ) :
    (numbers p draws).take k = numbers p (draws.take k) := by
  induction draws generalizing p k with
  | nil => rw [numbers, List.take_nil, List.take_nil, numbers]
  | cons draw draws ih =>
    cases k with
    | zero => rfl
    | succ k => exact congrArg _ (ih _ k)

/-- **A new generator leaves out no number.** -/
theorem numbers_new (averagePeriod : ℕ) (hroom : draws.length < 2 ^ 64 - 1) :
    numbers (newPacketNumberGenerator averagePeriod) draws = List.range' 1 draws.length := by
  suffices ∀ p : PacketNumberGenerator, p.nextToSkip = 0 → p.next + draws.length < 2 ^ 64 →
      numbers p draws = List.range' p.next draws.length from this _ rfl (by
    dsimp only [newPacketNumberGenerator]
    omega)
  clear hroom
  induction draws with
  | nil => exact fun _ _ _ => rfl
  | cons draw draws ih =>
    intro p hskip hroom
    rw [List.length_cons] at hroom
    have hnext : add64 p.next 1 = p.next + 1 := add64_of_lt (by omega)
    have hpop : p.pop (some draw) = ({ p with next := p.next + 1 }, p.next) := by
      unfold pop
      rw [hnext, hskip, if_neg (Nat.succ_ne_zero _)]
    rw [numbers, hpop, List.length_cons, List.range'_succ]
    exact congrArg _ (ih _ hskip (by dsimp only; omega))

/-- What is promised of the numbers: they increase, each of them has been announced by `Peek`, no two
consecutive ones are left out, and one is left out in every `2 * averagePeriod + 4` calls. -/
structure Promised (p : PacketNumberGenerator) (draws : List UInt16) : Prop where
  increasing : (numbers p draws).Pairwise (· < ·)
  announced : ∀ before draw rest, draws = before ++ draw :: rest →
    (numbers p draws)[before.length]? = some (p.after before).peek
  close : (numbers p draws).IsChain fun a b => b ≤ a + 2
  skips : ∀ i, i + (2 * p.averagePeriod + 4) ≤ draws.length →
    ∃ j a, i ≤ j ∧ j + 1 < i + (2 * p.averagePeriod + 4) ∧ (numbers p draws)[j]? = some a ∧
      (numbers p draws)[j + 1]? = some (a + 2)

/-- **When a new generator keeps the promise**: as long as it has returned fewer than
`2 * averagePeriod + 4` numbers, and not any more afterwards. -/
theorem promised_new_iff {averagePeriod : ℕ} (hle : averagePeriod ≤ 2 ^ 15) :
    (newPacketNumberGenerator averagePeriod).Promised draws ↔
      draws.length < 2 * averagePeriod + 4 := by
  constructor
  · intro h
    by_contra hlong
    -- the first calls return consecutive numbers
    obtain ⟨j, a, -, hj, ha, ha'⟩ := h.skips 0 (by
      dsimp only [newPacketNumberGenerator]
      omega)
    have hfirst : ∀ i < 2 * averagePeriod + 4,
        (numbers (newPacketNumberGenerator averagePeriod) draws)[i]? = some (1 + i) := by
      intro i hi
      have hlen : (draws.take (2 * averagePeriod + 4)).length = 2 * averagePeriod + 4 :=
        List.length_take_of_le (by omega)
      rw [← List.getElem?_take_of_lt hi, take_numbers, numbers_new _ (by omega), hlen,
        List.getElem?_range' hi, Nat.one_mul]
    dsimp only [newPacketNumberGenerator] at hj
    rw [hfirst j (by omega)] at ha
    rw [hfirst (j + 1) (by omega)] at ha'
    have := Option.some.inj ha
    have := Option.some.inj ha'
    omega
  · intro hshort
    have hroom : draws.length < 2 ^ 64 - 1 := by omega
    have hnumbers := numbers_new averagePeriod hroom
    refine ⟨?_, ?_, ?_, fun i hi => ?_⟩
    · rw [hnumbers]
      exact List.pairwise_lt_range'
    · rintro before draw rest rfl
      rw [← List.head?_drop, drop_numbers, numbers, pop_snd]
      rfl
    · rw [hnumbers]
      exact (List.isChain_range' 1 draws.length 1).imp fun _ _ hab => by omega
    · dsimp only [newPacketNumberGenerator] at hi
      omega

theorem promised_new_sevenCalls : (newPacketNumberGenerator 2).Promised [3, 1, 4, 1, 5, 9, 2] :=
  (promised_new_iff (by decide)).mpr (by decide)

/-- A new generator with an average period of 2 returns the numbers from 1 to 8 in `2 * 2 + 4` calls,
whatever is drawn. -/
theorem numbers_new_unbroken :
    numbers (newPacketNumberGenerator 2) [0, 0, 0, 0, 0, 0, 0, 0] = [1, 2, 3, 4, 5, 6, 7, 8] ∧
      ∀ draws : List UInt16, draws.length = 8 →
        numbers (newPacketNumberGenerator 2) draws = [1, 2, 3, 4, 5, 6, 7, 8] :=
  ⟨by decide +kernel, fun draws hlen => by rw [numbers_new 2 (by omega), hlen]; rfl⟩

end PacketNumberGenerator

end MultipathQuic
