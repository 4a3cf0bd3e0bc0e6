import Mathlib.Algebra.Order.Field.Rat
import Mathlib.Data.List.Count
import Mathlib.Data.Rat.Cast.Defs
import Mathlib.Tactic.FieldSimp
import Mathlib.Tactic.Linarith
import Mathlib.Tactic.Ring
import MultipathQuic.Congestion.OliaRange
import MultipathQuic.Library.Champion

/-!
# What OLIA redistributes

`getEpsilon` takes from the paths with the largest window what it gives to the best paths, so that
all epsilons add up to 0. Which paths are the best ones is found by comparing products of bytes and
squared round-trip times, of one sender after another with the best one so far. A sender with
neither bytes nor a round-trip time takes the place of every other one and gives way to every other
one, so that the comparison is not transitive, and the order of the iteration matters.

## Main definitions

* `OliaSenders.Beats m id id'`: the comparison
* `OliaSenders.CanBeBest m id`: the senders that the loop may end with

## Main results

* `OliaSenders.sum_epsilon_getEpsilon`: nothing is added
* `OliaSenders.getEpsilon_eq_iff`: when the order is irrelevant
-/

namespace MultipathQuic

open Champion

/-! ## The sum of the epsilons -/

/-- The sum of two values, each taken on its own part of a list. -/
theorem sum_map_ite_ite {α : Type} {p q : α → Bool} (hdisjoint : ∀ a, p a = true → q a = false)
    (x y : ℚ) (l : List α) :
    (l.map fun a => if p a then x else if q a then y else 0).sum =
      l.countP p * x + l.countP q * y := by
  induction l with
  | nil => simp
  | cons a l ih =>
    rw [List.map_cons, List.sum_cons, ih, List.countP_cons, List.countP_cons]
    cases hp : p a with
    | true =>
      simp [hdisjoint a hp]
      ring
    | false =>
      cases hq : q a with
      | true =>
        simp
        ring
      | false => simp

/-- Epsilon as a rational number. -/
def Olia.epsilon (o : Olia) : ℚ := o.epsilonNum / o.epsilonDen

namespace OliaSenders

variable {m : OliaSenders} {id : PathID} {best : BestPath}

theorem isMax_eq_false (h : m.isBestNotMax best id = true) : m.isMax id = false :=
  decide_eq_false (isBestNotMax_iff.mp h).1

/-- Some path has the largest window. -/
theorem exists_isMax (hne : m.ids ≠ []) : ∃ id ∈ m.ids, m.isMax id = true := by
  have hfold : ∀ (ids : List PathID) (start : ℕ),
      ids.foldl (fun best id => max best (m.sender id).congestionWindow) start = start ∨
        ∃ id ∈ ids, (m.sender id).congestionWindow =
          ids.foldl (fun best id => max best (m.sender id).congestionWindow) start := by
    intro ids
    induction ids with
    | nil => exact fun _ => Or.inl rfl
    | cons id ids ih =>
      intro start
      rcases ih (max start (m.sender id).congestionWindow) with hstart | ⟨id', hid', heq⟩
      · rw [List.foldl_cons, hstart]
        rcases le_total start (m.sender id).congestionWindow with hle | hle
        · exact Or.inr ⟨id, List.mem_cons_self, (max_eq_right hle).symm⟩
        · exact Or.inl (max_eq_left hle)
      · exact Or.inr ⟨id', List.mem_cons_of_mem _ hid', heq⟩
  rcases hfold m.ids 0 with hzero | ⟨id, hid, heq⟩
  · -- all windows are 0
    obtain ⟨id, hid⟩ := List.exists_mem_of_ne_nil _ hne
    refine ⟨id, hid, decide_eq_true ?_⟩
    have hle := m.le_getMaxCwnd hid
    unfold getMaxCwnd at hle ⊢
    omega
  · exact ⟨id, hid, decide_eq_true heq⟩

/-- The number of best paths without the largest window fits 8 bits. -/
theorem countBNotM_eq (best : BestPath) :
    m.countBNotM best = m.ids.countP (m.isBestNotMax best) := by
  refine Nat.mod_eq_of_lt ?_
  rcases eq_or_ne m.ids [] with hnil | hne
  · rw [hnil]
    exact Nat.two_pow_pos 8
  · -- the path with the largest window is none of them
    obtain ⟨id, hid, hmax⟩ := exists_isMax hne
    have hlt : m.ids.countP (m.isBestNotMax best) < m.ids.length :=
      List.countP_lt_length_iff.mpr ⟨id, hid, by simp [isBestNotMax, hmax]⟩
    exact hlt.trans_le m.length_ids_le

/-- The epsilon of a sender, if there are best paths without the largest window. -/
theorem epsilonOf_eq (hid : id ∈ m.ids) (hbest : m.ids.countP (m.isBestNotMax best) ≠ 0) :
    m.epsilonOf best (m.sender id) =
      if m.isBestNotMax best id then (1, m.ids.length * m.ids.countP (m.isBestNotMax best))
      else if m.isMax id then (-1, m.ids.length * m.ids.countP m.isMax) else (0, 1) := by
  have hle := m.le_getMaxCwnd hid
  have hlen := m.length_ids_le
  have hlt : (m.sender id).congestionWindow < m.getMaxCwnd ∧ (m.sender id).reaches best ↔
      m.isBestNotMax best id = true := by
    rw [isBestNotMax_iff, lt_iff_le_and_ne, and_iff_right hle]
  have hfit : ∀ p : PathID → Bool, m.ids.length * m.ids.countP p % 2 ^ 32 =
      m.ids.length * m.ids.countP p := by
    intro p
    have hmul := Nat.mul_le_mul hlen ((List.countP_le_length (p := p)).trans hlen)
    exact Nat.mod_eq_of_lt (by omega)
  have hcountM : m.countM = m.ids.countP m.isMax := by
    obtain ⟨id', hid', hbest'⟩ := List.countP_pos_iff.mp (Nat.pos_of_ne_zero hbest)
    have hless : m.ids.countP m.isMax < m.ids.length :=
      List.countP_lt_length_iff.mpr ⟨id', hid', isMax_eq_false hbest'⟩
    exact Nat.mod_eq_of_lt (hless.trans_le hlen)
  unfold epsilonOf
  dsimp only
  rw [countBNotM_eq, hcountM, if_neg hbest, hfit, hfit]
  simp only [hlt, isMax, decide_eq_true_eq]

/-- There is nothing to redistribute. -/
theorem epsilonOf_eq_zero (hnone : m.ids.countP (m.isBestNotMax best) = 0) (o : OliaSender) :
    m.epsilonOf best o = (0, 1) := by
  rw [epsilonOf, countBNotM_eq, if_pos hnone]

theorem epsilonOf_den_pos (hid : id ∈ m.ids) (best : BestPath) :
    0 < (m.epsilonOf best (m.sender id)).2 := by
  have hn : 0 < m.ids.length := List.length_pos_of_mem hid
  by_cases hnone : m.ids.countP (m.isBestNotMax best) = 0
  · rw [epsilonOf_eq_zero hnone]
    exact Nat.one_pos
  · rw [epsilonOf_eq hid hnone]
    split_ifs with hbest hmax
    · exact Nat.mul_pos hn (Nat.pos_of_ne_zero hnone)
    · exact Nat.mul_pos hn (List.countP_pos_iff.mpr ⟨id, hid, hmax⟩)
    · exact Nat.one_pos

/-- **The epsilons add up to 0**, their denominators are positive, and a window that has to give is
larger than one that receives. -/
theorem sum_epsilon_getEpsilon (hne : m.ids ≠ []) (order : MapOrder PathID) :
    (m.ids.map fun id => ((m.getEpsilon order).sender id).olia.epsilon).sum = 0 ∧
      ∀ id ∈ m.ids, 0 < ((m.getEpsilon order).sender id).olia.epsilonDen ∧
        (((m.getEpsilon order).sender id).olia.epsilonNum < 0 → ∃ id' ∈ m.ids,
          0 < ((m.getEpsilon order).sender id').olia.epsilonNum ∧
            ((m.getEpsilon order).sender id').congestionWindow <
              ((m.getEpsilon order).sender id).congestionWindow) := by
  generalize hbest : m.bestPath (order.order m.ids) = best
  have hsender : ∀ id ∈ m.ids, (m.getEpsilon order).sender id = { m.sender id with
      olia := (m.sender id).olia.setEpsilon (m.epsilonOf best (m.sender id)) } :=
    fun id hid => hbest ▸ sender_getEpsilon hid order
  have hpos : ∀ id ∈ m.ids, 0 < ((m.getEpsilon order).sender id).olia.epsilonDen := by
    intro id hid
    rw [hsender id hid]
    exact epsilonOf_den_pos hid best
  by_cases hnone : m.ids.countP (m.isBestNotMax best) = 0
  · -- there is nothing to redistribute
    have hzero : ∀ id ∈ m.ids, (m.getEpsilon order).sender id =
        { m.sender id with olia := (m.sender id).olia.setEpsilon (0, 1) } := by
      intro id hid
      rw [hsender id hid, epsilonOf_eq_zero hnone]
    refine ⟨List.sum_eq_zero fun x hx => ?_, fun id hid => ⟨hpos id hid, fun hneg => ?_⟩⟩
    · obtain ⟨id, hid, rfl⟩ := List.mem_map.mp hx
      rw [hzero id hid]
      simp [Olia.epsilon, Olia.setEpsilon]
    · rw [hzero id hid] at hneg
      exact absurd hneg (lt_irrefl 0)
  · obtain ⟨idMax, hmem, hidMax⟩ := exists_isMax hne
    have hM : 0 < m.ids.countP m.isMax := List.countP_pos_iff.mpr ⟨idMax, hmem, hidMax⟩
    have hB := Nat.pos_of_ne_zero hnone
    refine ⟨?_, fun id hid => ⟨hpos id hid, fun hneg => ?_⟩⟩
    · have hmap : (m.ids.map fun id => ((m.getEpsilon order).sender id).olia.epsilon) =
          m.ids.map fun id => if m.isBestNotMax best id then
              (1 : ℚ) / (m.ids.length * m.ids.countP (m.isBestNotMax best))
            else if m.isMax id then -1 / (m.ids.length * m.ids.countP m.isMax) else 0 := by
        refine List.map_congr_left fun id hid => ?_
        rw [hsender id hid, epsilonOf_eq hid hnone]
        split_ifs <;> simp [Olia.epsilon, Olia.setEpsilon]
      rw [hmap, sum_map_ite_ite (p := m.isBestNotMax best) (q := m.isMax) fun id => isMax_eq_false]
      field_simp
      ring
    · obtain ⟨id', hid', hbest'⟩ := List.countP_pos_iff.mp hB
      refine ⟨id', hid', ?_⟩
      rw [hsender id hid, epsilonOf_eq hid hnone] at hneg
      rw [hsender id hid, hsender id' hid', epsilonOf_eq hid' hnone, if_pos hbest']
      refine ⟨Int.one_pos, ?_⟩
      split_ifs at hneg with hbestId hmaxId
      · exact absurd hneg (show ¬ (1 : ℤ) < 0 by decide)
      · rw [of_decide_eq_true hmaxId]
        exact lt_of_le_of_ne (m.le_getMaxCwnd hid') (isBestNotMax_iff.mp hbest').1
      · exact absurd hneg (lt_irrefl 0)

end OliaSenders

/-- A sender with a window, a round-trip time and bytes between losses. -/
def sampleSender (congestionWindow : ℕ) (smoothedRTT : ℤ) (bytes : ℕ) : OliaSender :=
  { newOliaSender ⟨smoothedRTT, 0, 0⟩ congestionWindow 10000 with
    olia := (newOlia 0).updateAckedSinceLastLoss bytes }

/-- Three senders: a good one, one that has not been probed, and another one. -/
def unprobedSenders : OliaSenders where
  ids := [1, 2, 3]
  nodup := by decide
  sender id := if id = 1 then sampleSender 10 1 10 else if id = 2 then sampleSender 5 0 0
    else sampleSender 5 1 1

theorem OliaSenders.sum_epsilon_unprobedSenders :
    (unprobedSenders.ids.map fun id =>
      ((unprobedSenders.getEpsilon (.inserted _)).sender id).olia.epsilon).sum = 0 :=
  (sum_epsilon_getEpsilon (by decide) (.inserted _)).1

/-! ## The best path -/

namespace OliaSender

/-- The bytes between losses. -/
def bytes (o : OliaSender) : ℤ := o.olia.smoothedBytesBetweenLosses

/-- The square of the round-trip time. -/
def squaredRTT (o : OliaSender) : ℤ := o.rttStats.smoothedRTT * o.rttStats.smoothedRTT

/-- What the first loop of `getEpsilon` keeps of a sender. -/
def best (o : OliaSender) : BestPath := ⟨int64 o.squaredRTT, o.olia.smoothedBytesBetweenLosses⟩

theorem int64_mul (x y : ℤ) : int64 (int64 x * int64 y) = int64 (x * y) := by
  unfold int64
  rw [Int.bmod_mul_bmod, Int.mul_bmod_bmod]

/-- Only the products matter, not the overflow of their factors. -/
theorem reaches_best_iff (o o' : OliaSender) : o.reaches o'.best = true ↔
    int64 (o'.bytes * o.squaredRTT) ≤ int64 (o.bytes * o'.squaredRTT) := by
  have hsquare : ∀ o : OliaSender, int64 (o.rttStats.smoothedRTT * o.rttStats.smoothedRTT) =
      int64 o.squaredRTT := fun _ => rfl
  have hbytes : ∀ o : OliaSender, (o.olia.smoothedBytesBetweenLosses : ℤ) = o.bytes := fun _ => rfl
  unfold reaches best
  rw [decide_eq_true_iff, ge_iff_le, hsquare, hbytes, hbytes, int64_mul, int64_mul]

end OliaSender

namespace OliaSenders

variable {m : OliaSenders} {id : PathID}

/-- A sender takes the place of another one as the best path. -/
def Beats (m : OliaSenders) (id id' : PathID) : Prop :=
  (m.sender id).reaches (m.sender id').best = true

instance (m : OliaSenders) : DecidableRel m.Beats := fun _ _ => inferInstanceAs (Decidable (_ = _))

theorem beats_total (m : OliaSenders) (id id' : PathID) : m.Beats id id' ∨ m.Beats id' id := by
  rw [Beats, Beats, OliaSender.reaches_best_iff, OliaSender.reaches_best_iff]
  exact le_total _ _

/-- The first loop of `getEpsilon` looks for a champion. -/
theorem bestPath_eq (m : OliaSenders) (ids : List PathID) :
    m.bestPath ids = ((champion m.Beats ids).map fun id => (m.sender id).best).getD ⟨0, 0⟩ := by
  induction ids using List.reverseRecOn with
  | nil => rfl
  | append_singleton ids id ih =>
    have hconcat : m.bestPath (ids ++ [id]) =
        if (m.sender id).reaches (m.bestPath ids) then (m.sender id).best else m.bestPath ids := by
      rw [bestPath, List.foldl_append, List.foldl_cons, List.foldl_nil]
      rfl
    rw [hconcat, ih, champion_concat]
    cases champion m.Beats ids with
    | none =>
      -- every sender replaces the initial values
      have hfirst : (m.sender id).reaches ⟨0, 0⟩ = true := by
        unfold OliaSender.reaches
        simp [int64]
      exact if_pos hfirst
    | some best =>
      rw [challenge, Option.map_some, Option.getD_some]
      change (if m.Beats id best then _ else _) = _
      split_ifs <;> rfl

/-- A sender is the best path in some order: chains of senders, each of which takes the place of the
next one, lead from it to all senders. -/
structure CanBeBest (m : OliaSenders) (id : PathID) : Prop where
  mem : id ∈ m.ids
  beaten : ∀ id' ∈ m.ids, Beaten m.Beats m.ids id id'

/-- The best path is one of a sender that can be the best one. -/
theorem exists_bestPath_eq (hne : m.ids ≠ []) (order : MapOrder PathID) :
    ∃ best, m.CanBeBest best ∧ m.bestPath (order.order m.ids) = (m.sender best).best := by
  have hperm := order.perm m.ids
  cases hbest : champion m.Beats (order.order m.ids) with
  | none =>
    have hnil := eq_nil_of_champion_eq_none hbest
    exact absurd (hnil ▸ hperm).nil_eq.symm hne
  | some best =>
    obtain ⟨hmem, hbeaten⟩ :=
      (exists_perm_champion_iff m.beats_total m.nodup).mp ⟨_, hperm, hbest⟩
    exact ⟨best, ⟨hmem, hbeaten⟩, by rw [bestPath_eq, hbest]; rfl⟩

/-- In some order it is the best path. -/
theorem CanBeBest.exists_order (h : m.CanBeBest id) :
    ∃ order : MapOrder PathID, m.bestPath (order.order m.ids) = (m.sender id).best := by
  obtain ⟨ids, hperm, hbest⟩ :=
    (exists_perm_champion_iff m.beats_total m.nodup).mpr ⟨h.mem, h.beaten⟩
  refine ⟨.ofPerm hperm, ?_⟩
  rw [MapOrder.order_ofPerm, bestPath_eq, hbest]
  rfl

/-- The best paths without the largest window decide about all epsilons. -/
theorem epsilonOf_congr {best best' : BestPath}
    (h : ∀ id ∈ m.ids, m.isBestNotMax best id = m.isBestNotMax best' id) (hid : id ∈ m.ids) :
    m.epsilonOf best (m.sender id) = m.epsilonOf best' (m.sender id) := by
  have hcount : m.ids.countP (m.isBestNotMax best) = m.ids.countP (m.isBestNotMax best') :=
    List.countP_congr fun id hid => by rw [h id hid]
  by_cases hnone : m.ids.countP (m.isBestNotMax best) = 0
  · rw [epsilonOf_eq_zero hnone, epsilonOf_eq_zero (hcount ▸ hnone)]
  · rw [epsilonOf_eq hid hnone, epsilonOf_eq hid (hcount ▸ hnone), h id hid, hcount]

/-- They are those with the numerator 1. -/
theorem epsilonOf_eq_one_iff {best : BestPath} (hid : id ∈ m.ids) :
    (m.epsilonOf best (m.sender id)).1 = 1 ↔ m.isBestNotMax best id = true := by
  by_cases hnone : m.ids.countP (m.isBestNotMax best) = 0
  · rw [epsilonOf_eq_zero hnone]
    exact iff_of_false (by decide) (List.countP_eq_zero.mp hnone id hid)
  · rw [epsilonOf_eq hid hnone]
    split_ifs with hbest hmax <;> simp [hbest]

/-- **When the order of the iteration is irrelevant:** all senders that can be the best path are
reached by the same senders without the largest window. -/
theorem getEpsilon_eq_iff :
    (∀ order order', m.getEpsilon order = m.getEpsilon order') ↔
      ∀ best best', m.CanBeBest best → m.CanBeBest best' → ∀ id ∈ m.ids, m.isMax id = false →
        (m.Beats id best ↔ m.Beats id best') := by
  constructor
  · intro heq best best' hbest hbest' id hid hmax
    obtain ⟨order, horder⟩ := hbest.exists_order
    obtain ⟨order', horder'⟩ := hbest'.exists_order
    have hnum : (m.epsilonOf (m.sender best).best (m.sender id)).1 =
        (m.epsilonOf (m.sender best').best (m.sender id)).1 := by
      have hepsilon := congrArg (fun m => (m.sender id).olia.epsilonNum) (heq order order')
      rw [sender_getEpsilon hid, sender_getEpsilon hid, horder, horder'] at hepsilon
      exact hepsilon
    have hiff : m.isBestNotMax (m.sender best).best id = true ↔
        m.isBestNotMax (m.sender best').best id = true := by
      rw [← epsilonOf_eq_one_iff hid, hnum, epsilonOf_eq_one_iff hid]
    simpa [isBestNotMax, hmax, Beats] using hiff
  · intro hsame order order'
    have hsender : (m.getEpsilon order).sender = (m.getEpsilon order').sender := by
      funext id
      by_cases hid : id ∈ m.ids
      · obtain ⟨best, hbest, heq⟩ := exists_bestPath_eq (List.ne_nil_of_mem hid) order
        obtain ⟨best', hbest', heq'⟩ := exists_bestPath_eq (List.ne_nil_of_mem hid) order'
        rw [sender_getEpsilon hid, sender_getEpsilon hid, heq, heq']
        have hbests : ∀ id ∈ m.ids, m.isBestNotMax (m.sender best).best id =
            m.isBestNotMax (m.sender best').best id := by
          intro id hid
          cases hmax : m.isMax id with
          | true => simp [isBestNotMax, hmax]
          | false =>
            have hiff := hsame best best' hbest hbest' id hid hmax
            simpa [isBestNotMax, hmax] using Bool.eq_iff_iff.mpr hiff
        rw [epsilonOf_congr hbests hid]
      · simp only [getEpsilon, hid, if_false]
    exact congrArg (fun sender => { m with sender := sender }) hsender

/-- With a sender that has not been probed, the order decides about the third one. -/
theorem getEpsilon_unprobedSenders_ne :
    ((unprobedSenders.getEpsilon (.inserted _)).sender 3).olia.epsilonNum = 1 ∧
      ((unprobedSenders.getEpsilon ⟨List.reverse, List.reverse_perm⟩).sender 3).olia.epsilonNum =
        0 := by
  decide +kernel

end OliaSenders

end MultipathQuic
