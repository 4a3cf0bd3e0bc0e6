import Mathlib.Algebra.BigOperators.Ring.Finset
import Mathlib.Data.Int.ModEq
import Mathlib.Tactic.Ring
import MultipathQuic.FlowControl.Halves

/-!
# The books of the connection

What the connection has received and not yet read is what its contributing streams have received and
not yet read. The counters are unsigned 64-bit integers, so that this is an equation modulo 2^64.

A stream that is removed takes its controller with it, while the connection keeps what was counted
for it: the books only balance if nothing was outstanding on the stream. An offset that exceeds the
window of a stream is recorded at the stream and not at the connection.
-/

namespace MultipathQuic

open Function

theorem add64_modEq (a b : ℕ) : ((add64 a b : ℕ) : ℤ) ≡ a + b [ZMOD 2 ^ 64] := by
  unfold add64
  push_cast
  exact Int.mod_modEq _ _

namespace FlowController

/-- What has been received and not yet read. -/
def outstanding (c : FlowController) : ℤ := c.highestReceived - c.bytesRead

/-- What a stream has to the account of the connection. -/
def contribution (c : FlowController) : ℤ := if c.contributesToConnection then c.outstanding else 0

theorem contribution_sub (c c' : FlowController)
    (h : c'.contributesToConnection = c.contributesToConnection) :
    c'.contribution - c.contribution =
      if c.contributesToConnection then c'.outstanding - c.outstanding else 0 := by
  rw [contribution, contribution, h]
  split_ifs
  · rfl
  · exact sub_self 0

theorem outstanding_incrementHighestReceived (c : FlowController) (increment : ℕ) :
    (c.incrementHighestReceived increment).outstanding ≡ c.outstanding + increment
      [ZMOD 2 ^ 64] := by
  have h := (add64_modEq c.highestReceived increment).sub_right (c.bytesRead : ℤ)
  rw [add_sub_right_comm] at h
  exact h

theorem outstanding_addBytesRead (c : FlowController) (now : ℤ) (n : ℕ) :
    (c.addBytesRead now n).outstanding ≡ c.outstanding - n [ZMOD 2 ^ 64] := by
  have h := (add64_modEq c.bytesRead n).sub_left (c.highestReceived : ℤ)
  rw [← sub_sub] at h
  exact h

/-- A new offset adds to what is outstanding, and it is the only thing that can exceed the window. -/
theorem updateHighestReceived_spec (c : FlowController) (byteOffset : ℕ) :
    (c.updateHighestReceived byteOffset).1.outstanding =
        c.outstanding + (c.updateHighestReceived byteOffset).2.getD 0 ∧
      (c.updateHighestReceived byteOffset).1.contributesToConnection =
        c.contributesToConnection ∧
      (byteOffset ≤ c.receiveWindow →
        (c.updateHighestReceived byteOffset).1.checkFlowControlViolation = true →
          (c.updateHighestReceived byteOffset).2.getD 0 = 0) := by
  unfold updateHighestReceived
  split_ifs with heq hgt
  · exact ⟨(add_zero _).symm, rfl, fun _ _ => rfl⟩
  · refine ⟨?_, rfl, fun hle hviolation => ?_⟩
    · simp only [outstanding, Option.getD_some]
      omega
    · simp only [checkFlowControlViolation, decide_eq_true_eq] at hviolation
      omega
  · exact ⟨(add_zero _).symm, rfl, fun _ _ => rfl⟩

/-- What the books have of a controller. -/
def account (c : FlowController) : ℤ × ℤ := (c.outstanding, c.contribution)

theorem untuned_account : Untuned account := fun _ _ _ _ => rfl

end FlowController

namespace FlowControlManager

variable {m : FlowControlManager} {ids : Finset ℕ} {id : ℕ} {c c' conn' : FlowController}

/-- What a stream has to the account of the connection, if there is such a stream. -/
def outstanding (m : FlowControlManager) (id : ℕ) : ℤ :=
  match m.streamFlowController id with
  | none => 0
  | some c => c.contribution

/-- The streams are `ids`, and what is outstanding on the connection is what is outstanding on
them. -/
structure Balanced (m : FlowControlManager) (ids : Finset ℕ) : Prop where
  streams : ∀ id, (m.streamFlowController id).isSome = true ↔ id ∈ ids
  balance : m.connFlowController.outstanding ≡ ∑ id ∈ ids, m.outstanding id [ZMOD 2 ^ 64]

theorem balanced_new (params : ConnectionParameters) : (newFlowControlManager params).Balanced ∅ :=
  ⟨fun _ => by simp [newFlowControlManager], Int.ModEq.refl _⟩

theorem outstanding_of_some (h : m.streamFlowController id = some c) :
    m.outstanding id = c.contribution := by
  rw [outstanding, h]

theorem outstanding_setController (m : FlowControlManager) (id : ℕ) (c : FlowController) :
    (m.setController id c).outstanding = update m.outstanding id c.contribution := by
  funext id'
  by_cases hid : id' = id
  · subst hid
    rw [update_self, outstanding_of_some (c := c)]
    exact update_self ..
  · rw [update_of_ne hid, outstanding, setController]
    dsimp only
    rw [update_of_ne hid]
    rfl

theorem isSome_setController (m : FlowControlManager) (id : ℕ) (c : FlowController) (id' : ℕ) :
    ((m.setController id c).streamFlowController id').isSome = true ↔
      id' = id ∨ (m.streamFlowController id').isSome = true := by
  rw [setController]
  by_cases hid : id' = id
  · simp [hid]
  · simp [hid]

theorem sum_outstanding_setController (m : FlowControlManager) (hmem : id ∈ ids)
    (hc : m.streamFlowController id = some c) (c' : FlowController) :
    ∑ x ∈ ids, (m.setController id c').outstanding x =
      ∑ x ∈ ids, m.outstanding x + (c'.contribution - c.contribution) := by
  rw [outstanding_setController, Finset.sum_update_of_mem hmem,
    Finset.sum_eq_add_sum_sdiff_singleton_of_mem hmem m.outstanding, outstanding_of_some hc]
  ring

/-- One stream and the connection change by the same amount. -/
theorem Balanced.replace (h : m.Balanced ids) (hc : m.streamFlowController id = some c)
    (hchange : conn'.outstanding - m.connFlowController.outstanding ≡
      c'.contribution - c.contribution [ZMOD 2 ^ 64]) :
    Balanced { m.setController id c' with connFlowController := conn' } ids := by
  have hmem : id ∈ ids := (h.streams id).mp (by rw [hc]; rfl)
  constructor
  · intro id'
    have hset := isSome_setController m id c' id'
    rw [h.streams] at hset
    refine hset.trans ⟨?_, .inr⟩
    rintro (rfl | hid)
    · exact hmem
    · exact hid
  · have hsum := m.sum_outstanding_setController hmem hc c'
    have hconn := h.balance.add hchange
    rw [add_sub_cancel, ← hsum] at hconn
    exact hconn

/-- If the connection is left alone, so is what the stream has outstanding. -/
theorem Balanced.setController (h : m.Balanced ids) (hc : m.streamFlowController id = some c)
    (hsame : c'.contribution = c.contribution) : (m.setController id c').Balanced ids := by
  have hchange : m.connFlowController.outstanding - m.connFlowController.outstanding ≡
      c'.contribution - c.contribution [ZMOD 2 ^ 64] := by
    rw [sub_self, hsame, sub_self]
  exact h.replace hc hchange

/-! ## Opening and removing streams -/

/-- A new stream has nothing outstanding. -/
theorem sum_outstanding_newController (m : FlowControlManager) (hnot : id ∉ ids)
    (contributes : Bool) :
    ∑ x ∈ insert id ids, (m.setController id
        (newFlowController id contributes m.connectionParameters)).outstanding x =
      ∑ x ∈ ids, m.outstanding x := by
  have hzero : (newFlowController id contributes m.connectionParameters).contribution = 0 := by
    simp [FlowController.contribution, FlowController.outstanding, newFlowController]
  rw [outstanding_setController, Finset.sum_insert hnot, update_self, hzero, zero_add,
    Finset.sum_update_of_notMem hnot]

theorem Balanced.newStream (h : m.Balanced ids) (id : ℕ) (contributes : Bool) :
    (m.newStream id contributes).Balanced (insert id ids) := by
  unfold FlowControlManager.newStream
  split
  · next c hc =>
    have hmem : id ∈ ids := (h.streams id).mp (by rw [hc]; rfl)
    rw [Finset.insert_eq_of_mem hmem]
    exact h
  · next hc =>
    have hnot : id ∉ ids := fun hmem => by
      have := (h.streams id).mpr hmem
      rw [hc] at this
      cases this
    constructor
    · intro id'
      rw [isSome_setController, Finset.mem_insert, h.streams]
    · rw [m.sum_outstanding_newController hnot]
      exact h.balance

/-- **A stream may be removed if nothing is outstanding on it.** -/
theorem Balanced.removeStream (h : m.Balanced ids) (hsettled : m.outstanding id = 0) :
    (m.removeStream id).Balanced (ids.erase id) := by
  have hother : ∀ id', id' ≠ id → (m.removeStream id).outstanding id' = m.outstanding id' := by
    intro id' hid
    rw [outstanding, FlowControlManager.removeStream]
    dsimp only
    rw [update_of_ne hid]
    rfl
  constructor
  · intro id'
    rw [FlowControlManager.removeStream, Finset.mem_erase, ← h.streams]
    by_cases hid : id' = id
    · simp [hid]
    · simp [hid]
  · have hsum : ∑ x ∈ ids.erase id, (m.removeStream id).outstanding x =
        ∑ x ∈ ids, m.outstanding x := by
      rw [← Finset.sum_erase ids hsettled]
      exact Finset.sum_congr rfl fun x hx => hother x (Finset.ne_of_mem_erase hx)
    rw [hsum]
    exact h.balance

/-! ## Receiving and reading -/

/-- An offset within the window of the stream is recorded at the stream and at the connection. -/
theorem Balanced.checkReceived (h : m.Balanced ids) (hc : m.streamFlowController id = some c)
    {byteOffset : ℕ} (hle : byteOffset ≤ c.receiveWindow) :
    (m.checkReceived id byteOffset ((c.updateHighestReceived byteOffset).2.getD 0)
      (c.updateHighestReceived byteOffset).1).1.Balanced ids := by
  obtain ⟨hout, hcontributes, hviolation⟩ := c.updateHighestReceived_spec byteOffset
  specialize hviolation hle
  generalize c.updateHighestReceived byteOffset = r at hout hcontributes hviolation ⊢
  obtain ⟨c', increment⟩ := r
  have hcontribution : c'.contribution - c.contribution =
      if c'.contributesToConnection then (increment.getD 0 : ℤ) else 0 := by
    rw [c.contribution_sub c' hcontributes, hout, hcontributes, add_sub_cancel_left]
  unfold FlowControlManager.checkReceived
  dsimp only
  split
  · next hbad =>
    -- the offset is not new: nothing has changed
    refine h.setController hc ?_
    rw [hviolation hbad] at hcontribution
    rw [← sub_eq_zero, hcontribution]
    split_ifs <;> rfl
  · split
    · next hcontr =>
      have hdiff :=
        (m.connFlowController.outstanding_incrementHighestReceived (increment.getD 0)).sub_right
          m.connFlowController.outstanding
      rw [add_sub_cancel_left] at hdiff
      rw [if_pos hcontr] at hcontribution
      have hbalanced := h.replace hc (hcontribution ▸ hdiff)
      split <;> exact hbalanced
    · next hcontr =>
      refine h.setController hc ?_
      rw [← sub_eq_zero, hcontribution, if_neg hcontr]

theorem Balanced.updateHighestReceived (h : m.Balanced ids) {byteOffset : ℕ}
    (hle : ∀ c ∈ m.streamFlowController id, byteOffset ≤ c.receiveWindow) :
    (m.updateHighestReceived id byteOffset).1.Balanced ids := by
  unfold FlowControlManager.updateHighestReceived
  split
  · exact h
  · next c hc => exact h.checkReceived hc (hle c hc)

theorem Balanced.resetStream (h : m.Balanced ids) {byteOffset : ℕ}
    (hle : ∀ c ∈ m.streamFlowController id, byteOffset ≤ c.receiveWindow) :
    (m.resetStream id byteOffset).1.Balanced ids := by
  unfold FlowControlManager.resetStream
  split
  · exact h
  · next c hc =>
    have hchecked := h.checkReceived hc (hle c hc)
    split
    · exact h
    · next c' increment heq =>
      rw [heq] at hchecked
      exact hchecked

/-- What is read is read from the stream and from the connection. -/
theorem Balanced.addBytesRead (h : m.Balanced ids) (now : ℤ) (id n : ℕ) :
    (m.addBytesRead now id n).1.Balanced ids := by
  unfold FlowControlManager.addBytesRead charge
  split
  · exact h
  · next c hc =>
    have hstream := (c.outstanding_addBytesRead now n).sub_right c.outstanding
    have hconn := (m.connFlowController.outstanding_addBytesRead now n).sub_right
      m.connFlowController.outstanding
    rw [sub_sub_cancel_left] at hstream hconn
    split
    · next hcontributes =>
      refine h.replace hc ?_
      rw [c.contribution_sub (c.addBytesRead now n) rfl, if_pos hcontributes]
      exact hconn.trans hstream.symm
    · next hcontributes =>
      refine h.setController hc (sub_eq_zero.mp ?_)
      rw [c.contribution_sub (c.addBytesRead now n) rfl, if_neg hcontributes]

/-! ## Window updates -/

theorem Same.outstanding_eq {m' : FlowControlManager} (h : Same FlowController.account m m') (id : ℕ) :
    m'.outstanding id = m.outstanding id := by
  have hmap := congrArg (Option.map Prod.snd) (h.stream id)
  rw [Option.map_map, Option.map_map] at hmap
  unfold outstanding
  cases hc : m.streamFlowController id with
  | none =>
    rw [hc] at hmap
    rw [Option.map_eq_none_iff.mp hmap]
  | some c =>
    rw [hc] at hmap
    obtain ⟨c', hc', heq⟩ := Option.map_eq_some_iff.mp hmap
    rw [hc']
    exact heq

theorem Balanced.same (h : m.Balanced ids) {m' : FlowControlManager}
    (hsame : Same FlowController.account m m') : m'.Balanced ids := by
  have hconn : m'.connFlowController.outstanding = m.connFlowController.outstanding :=
    congrArg Prod.fst hsame.conn
  refine ⟨fun id => by rw [hsame.isSome_eq, h.streams], ?_⟩
  rw [hconn, Finset.sum_congr rfl fun id _ => hsame.outstanding_eq id]
  exact h.balance

theorem Balanced.getWindowUpdates (h : m.Balanced ids) (force : Bool) (now rtt : ℤ)
    (remoteRTTs : List ℤ) (order : List ℕ) :
    (m.getWindowUpdates force now rtt remoteRTTs order).1.Balanced ids :=
  h.same (m.same_getWindowUpdates FlowController.untuned_account force now rtt remoteRTTs order)

end FlowControlManager

end MultipathQuic
