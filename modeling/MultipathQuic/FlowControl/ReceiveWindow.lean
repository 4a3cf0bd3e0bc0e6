import MultipathQuic.FlowControl.Halves
import MultipathQuic.Library.Runs

/-!
# Receive windows

A receive window is never taken back: `MaybeUpdateWindow` moves it forward, as long as its
computations do not overflow. As long as no update is due, no window moves at all.
-/

namespace MultipathQuic

open Function Runs

namespace FlowController

variable {c : FlowController} {now rtt : ℤ} {remoteRTTs : List ℤ}

/-- If `MaybeUpdateWindow` computes a new window, nothing overflows: neither twice the increment nor
the sum of what was read and the increment. -/
def UpdateFits (c : FlowController) (now rtt : ℤ) (remoteRTTs : List ℤ) : Prop :=
  sub64 c.receiveWindow c.bytesRead < c.receiveWindowIncrement / 2 →
    ((c.maybeAdjustWindowIncrement now rtt remoteRTTs).receiveWindowIncrement =
        c.receiveWindowIncrement ∨ 2 * c.receiveWindowIncrement < 2 ^ 64) ∧
      c.bytesRead + (c.maybeAdjustWindowIncrement now rtt remoteRTTs).receiveWindowIncrement <
        2 ^ 64

instance : Decidable (c.UpdateFits now rtt remoteRTTs) :=
  inferInstanceAs (Decidable (_ → _))

/-- The window is within reach of what was received, and tuning will not put it back: half of the
increment exceeds the maximum by at most one. -/
structure Kept (c : FlowController) : Prop where
  increment_le : c.receiveWindowIncrement / 2 ≤ c.maxReceiveWindowIncrement + 1
  window_lt : c.receiveWindow < 2 ^ 64
  highest_le : c.highestReceived ≤ c.receiveWindow
  read_le : c.bytesRead ≤ c.highestReceived

/-- **A window moves forward.** -/
theorem Kept.maybeUpdateWindow (h : c.Kept) (hfits : c.UpdateFits now rtt remoteRTTs) :
    (c.maybeUpdateWindow now rtt remoteRTTs).1.Kept ∧
      c.receiveWindow ≤ (c.maybeUpdateWindow now rtt remoteRTTs).1.receiveWindow := by
  obtain ⟨-, heq⟩ | ⟨hdue, inc, hinc, heq⟩ := c.maybeUpdateWindow_cases now rtt remoteRTTs
  · rw [heq]
    exact ⟨h, le_rfl⟩
  · obtain ⟨hdouble, hsum⟩ := hfits hdue
    rw [← hinc] at hdouble hsum
    obtain ⟨inc', heq', hcases⟩ := c.exists_maybeAdjustWindowIncrement_eq now rtt remoteRTTs
    rw [heq'] at hinc
    have hhalf := h.increment_le
    have hhighest := h.highest_le
    have hread := h.read_le
    rw [sub64_of_le (hread.trans hhighest) h.window_lt] at hdue
    have hnew : inc = c.receiveWindowIncrement ∨
        inc = min (2 * c.receiveWindowIncrement) c.maxReceiveWindowIncrement := by
      rcases hdouble with hsame | hlt
      · exact Or.inl hsame
      · rw [mul64, Nat.mod_eq_of_lt hlt] at hcases
        exact hinc ▸ hcases
    -- less than half of the increment is left, and the new one is at least that
    have hforward : c.receiveWindow ≤ c.bytesRead + inc := by omega
    rw [heq]
    refine ⟨⟨?_, ?_, ?_, hread⟩, ?_⟩ <;> dsimp only
    · omega
    · exact add64_lt _ _
    · rw [add64_of_lt hsum]
      exact hhighest.trans hforward
    · rw [add64_of_lt hsum]
      exact hforward

theorem Kept.ensureMinimumWindowIncrement (h : c.Kept) (inc : ℕ) :
    (c.ensureMinimumWindowIncrement inc).Kept ∧
      (c.ensureMinimumWindowIncrement inc).receiveWindow = c.receiveWindow := by
  unfold FlowController.ensureMinimumWindowIncrement
  split_ifs
  · refine ⟨{ h with increment_le := ?_ }, rfl⟩
    dsimp only
    omega
  · exact ⟨h, rfl⟩

/-- `UpdateHighestReceived` takes the maximum; a smaller offset has no increment. -/
theorem updateHighestReceived_eq (c : FlowController) (byteOffset : ℕ) :
    c.updateHighestReceived byteOffset =
      ({ c with highestReceived := max c.highestReceived byteOffset },
        if c.highestReceived ≤ byteOffset then some (byteOffset - c.highestReceived)
        else none) := by
  unfold updateHighestReceived
  rcases lt_trichotomy byteOffset c.highestReceived with hlt | heq | hgt
  · rw [if_neg hlt.ne, if_neg hlt.not_gt, if_neg hlt.not_ge, max_eq_left hlt.le]
  · rw [if_pos heq, if_pos heq.ge, heq, max_self, Nat.sub_self]
  · rw [if_neg hgt.ne', if_pos hgt, if_pos hgt.le, max_eq_right hgt.le]

end FlowController

namespace FlowControlManager

/-- No computation of a window in `GetWindowUpdates` overflows: not for a stream, in the state in
which the loop comes to it, and not for the connection after the loop. -/
def UpdatesFit (m : FlowControlManager) (force : Bool) (now rtt : ℤ) (remoteRTTs : List ℤ)
    (order : List ℕ) : Prop :=
  Along (windowUpdateOf force now rtt remoteRTTs)
      (fun acc id => ∀ c ∈ acc.1.streamFlowController id, c.UpdateFits now rtt remoteRTTs)
      (m, []) order ∧
    (order.foldl (windowUpdateOf force now rtt remoteRTTs) (m, [])).1.connFlowController.UpdateFits
      now rtt remoteRTTs

instance (m : FlowControlManager) (force : Bool) (now rtt : ℤ) (remoteRTTs : List ℤ)
    (order : List ℕ) : Decidable (m.UpdatesFit force now rtt remoteRTTs order) :=
  inferInstanceAs (Decidable (_ ∧ _))

/-- An offset within the windows is accepted. -/
theorem checkReceived_eq (m : FlowControlManager) (id byteOffset increment : ℕ)
    {c : FlowController} (hstream : c.highestReceived ≤ c.receiveWindow)
    (hconn : c.contributesToConnection = true →
      add64 m.connFlowController.highestReceived increment ≤
        m.connFlowController.receiveWindow) :
    m.checkReceived id byteOffset increment c =
      (if c.contributesToConnection then
        { m.setController id c with
          connFlowController := m.connFlowController.incrementHighestReceived increment }
      else m.setController id c, none) := by
  unfold checkReceived
  dsimp only
  rw [if_neg (by simpa [FlowController.checkFlowControlViolation] using hstream)]
  split_ifs with hcontributes hviolation
  · simp only [FlowController.checkFlowControlViolation, decide_eq_true_eq] at hviolation
    exact absurd hviolation (Nat.not_lt.mpr (hconn hcontributes))
  · rfl
  · rfl

end FlowControlManager

/-! ## Windows without an update -/

namespace FlowControlManager

variable {m m' : FlowControlManager}

end FlowControlManager

end MultipathQuic
