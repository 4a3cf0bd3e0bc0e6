import Mathlib.Order.MinMax
import MultipathQuic.FlowControl.FlowController

/-!
# Credit

The sender may use the larger of the initial window and the highest offset it has been granted, for
each stream and for the connection. The counters stay within this credit as long as nothing is
counted that exceeds the size of the window.
-/

namespace MultipathQuic

open Function

namespace FlowController

variable {c : FlowController} {params : ConnectionParameters} {granted n : ℕ}

/-- The bytes sent are within the credit: the initial window or the highest granted offset. -/
structure Within (c : FlowController) (params : ConnectionParameters) (granted : ℕ) : Prop where
  sendWindow : c.sendWindow ≤ granted
  bytesSent : c.bytesSent ≤ max (c.initialSendWindow params) granted

theorem initialSendWindow_lt (c : FlowController) (params : ConnectionParameters) :
    c.initialSendWindow params < 2 ^ 64 := by
  unfold initialSendWindow
  split <;> exact UInt64.toNat_lt _

theorem Within.getSendWindow_le (h : c.Within params granted) :
    c.getSendWindow params ≤ max (c.initialSendWindow params) granted := by
  unfold getSendWindow
  split
  · exact Nat.le_max_left _ _
  · exact h.sendWindow.trans (Nat.le_max_right _ _)

/-- What fits the window leaves the counter within the credit. -/
theorem Within.bytesSent_add_le (h : c.Within params granted) (hn : n ≤ c.sendWindowSize params) :
    c.bytesSent + n ≤ max (c.initialSendWindow params) granted := by
  have hwindow := h.getSendWindow_le
  have hsent := h.bytesSent
  unfold sendWindowSize at hn
  dsimp only at hn
  split at hn
  · -- the window is exhausted: nothing more is counted
    omega
  · omega

/-- The counter does not overflow. -/
theorem Within.addBytesSent_eq (h : c.Within params granted) (hgranted : granted < 2 ^ 64)
    (hn : n ≤ c.sendWindowSize params) : (c.addBytesSent n).bytesSent = c.bytesSent + n := by
  have hsum := h.bytesSent_add_le hn
  have hinitial := c.initialSendWindow_lt params
  exact add64_of_lt (lt_of_le_of_lt hsum (max_lt hinitial hgranted))

theorem Within.addBytesSent (h : c.Within params granted) (hgranted : granted < 2 ^ 64)
    (hn : n ≤ c.sendWindowSize params) : (c.addBytesSent n).Within params granted where
  sendWindow := h.sendWindow
  bytesSent := (h.addBytesSent_eq hgranted hn).trans_le (h.bytesSent_add_le hn)

/-- An update of the window is a grant. -/
theorem Within.updateSendWindow (h : c.Within params granted) (newOffset : ℕ) :
    (c.updateSendWindow newOffset).1.Within params (max granted newOffset) := by
  have hsent : c.bytesSent ≤ max (c.initialSendWindow params) (max granted newOffset) :=
    h.bytesSent.trans (max_le_max le_rfl (le_max_left _ _))
  unfold FlowController.updateSendWindow
  split
  · exact ⟨le_max_right _ _, hsent⟩
  · exact ⟨h.sendWindow.trans (le_max_left _ _), hsent⟩

theorem within_new (streamID : ℕ) (contributesToConnection : Bool) :
    (newFlowController streamID contributesToConnection params).Within params granted :=
  ⟨Nat.zero_le _, Nat.zero_le _⟩

@[simp] theorem streamID_updateSendWindow (newOffset : ℕ) :
    (c.updateSendWindow newOffset).1.streamID = c.streamID := by
  unfold updateSendWindow
  split <;> rfl

@[simp] theorem contributesToConnection_updateSendWindow (newOffset : ℕ) :
    (c.updateSendWindow newOffset).1.contributesToConnection = c.contributesToConnection := by
  unfold updateSendWindow
  split <;> rfl

@[simp] theorem bytesSent_updateSendWindow (newOffset : ℕ) :
    (c.updateSendWindow newOffset).1.bytesSent = c.bytesSent := by
  unfold updateSendWindow
  split <;> rfl

end FlowController

namespace FlowControlManager

variable {m : FlowControlManager} {params : ConnectionParameters} {granted : ℕ → ℕ} {sent n : ℕ}
  {id : ℕ}

/-- The controller of a stream is its own and within its credit. -/
structure FundedStream (params : ConnectionParameters) (granted : ℕ → ℕ) (id : ℕ)
    (c : FlowController) : Prop where
  streamID : c.streamID = id
  contributes : c.contributesToConnection = isData id
  within : c.Within params (granted id)

/-- All counters are within their credit, and the contributing streams have sent `sent` bytes. -/
structure Funded (m : FlowControlManager) (params : ConnectionParameters) (granted : ℕ → ℕ)
    (sent : ℕ) : Prop where
  parameters : m.connectionParameters = params
  granted_lt : ∀ id, granted id < 2 ^ 64
  conn_streamID : m.connFlowController.streamID = 0
  conn_within : m.connFlowController.Within params (granted 0)
  conn_sent : m.connFlowController.bytesSent = sent
  stream : ∀ id c, m.streamFlowController id = some c → FundedStream params granted id c

theorem funded_new (params : ConnectionParameters) :
    (newFlowControlManager params).Funded params (fun _ => 0) 0 where
  parameters := rfl
  granted_lt := fun _ => by decide
  conn_streamID := rfl
  conn_within := FlowController.within_new 0 false
  conn_sent := rfl
  stream := fun _ _ h => nomatch h

/-- The controller of one stream is replaced. -/
theorem Funded.setController (h : m.Funded params granted sent) {c : FlowController}
    (hc : FundedStream params granted id c) : (m.setController id c).Funded params granted sent where
  parameters := h.parameters
  granted_lt := h.granted_lt
  conn_streamID := h.conn_streamID
  conn_within := h.conn_within
  conn_sent := h.conn_sent
  stream := by
    intro id' c' hc'
    change update m.streamFlowController id (some c) id' = some c' at hc'
    by_cases hid : id' = id
    · subst hid
      rw [update_self] at hc'
      cases hc'
      exact hc
    · rw [update_of_ne hid] at hc'
      exact h.stream id' c' hc'

theorem Funded.newStream (h : m.Funded params granted sent) (id : ℕ) :
    (m.newStream id (isData id)).Funded params granted sent := by
  unfold FlowControlManager.newStream
  split
  · exact h
  · rw [h.parameters]
    exact h.setController ⟨rfl, rfl, FlowController.within_new id _⟩

theorem Funded.removeStream (h : m.Funded params granted sent) (id : ℕ) :
    (m.removeStream id).Funded params granted sent where
  parameters := h.parameters
  granted_lt := h.granted_lt
  conn_streamID := h.conn_streamID
  conn_within := h.conn_within
  conn_sent := h.conn_sent
  stream := by
    intro id' c hc
    change update m.streamFlowController id none id' = some c at hc
    by_cases hid : id' = id
    · rw [hid, update_self] at hc
      cases hc
    · rw [update_of_ne hid] at hc
      exact h.stream id' c hc

/-- The window of a stream is at most the one of its controller, and at most the one of the
connection if the stream contributes to it. -/
theorem le_of_le_sendWindowSize (hn : n ≤ (m.sendWindowSize id).1) {fc : FlowController}
    (hfc : m.streamFlowController id = some fc) :
    n ≤ fc.sendWindowSize m.connectionParameters ∧
      (fc.contributesToConnection = true →
        n ≤ m.connFlowController.sendWindowSize m.connectionParameters) := by
  simp only [sendWindowSize, hfc] at hn
  split at hn
  · exact ⟨hn.trans (min_le_left _ _), fun _ => hn.trans (min_le_right _ _)⟩
  · next hcontributes => exact ⟨hn, fun htrue => absurd htrue hcontributes⟩

/-- An unknown stream has no window. -/
theorem eq_zero_of_le_sendWindowSize (hn : n ≤ (m.sendWindowSize id).1)
    (hfc : m.streamFlowController id = none) : n = 0 := by
  simp only [sendWindowSize, hfc] at hn
  exact Nat.le_zero.mp hn

/-- **What fits the window may be sent.** -/
theorem Funded.addBytesSent (h : m.Funded params granted sent)
    (hn : n ≤ (m.sendWindowSize id).1) :
    (m.addBytesSent id n).1.Funded params granted (sent + if isData id then n else 0) := by
  unfold FlowControlManager.addBytesSent charge
  split
  · next hfc =>
    have hzero := eq_zero_of_le_sendWindowSize hn hfc
    subst hzero
    simpa using h
  · next fc hfc =>
    obtain ⟨hfit, hconn⟩ := le_of_le_sendWindowSize hn hfc
    rw [h.parameters] at hfit hconn
    have hstream := h.stream id fc hfc
    have h' := h.setController (c := fc.addBytesSent n)
      ⟨hstream.streamID, hstream.contributes,
        hstream.within.addBytesSent (h.granted_lt id) hfit⟩
    rw [← hstream.contributes]
    split
    · next hcontributes =>
      -- the stream contributes: the connection counts the bytes too, and they fit its window
      have hfits := hconn hcontributes
      exact { h' with
        conn_streamID := h'.conn_streamID
        conn_within := h.conn_within.addBytesSent (h.granted_lt 0) hfits
        conn_sent := by
          rw [← h.conn_sent]
          exact h.conn_within.addBytesSent_eq (h.granted_lt 0) hfits }
    · exact h'

/-- What has been granted to `id` after a successful `UpdateWindow`. -/
def grant (m : FlowControlManager) (granted : ℕ → ℕ) (id offset : ℕ) : ℕ → ℕ :=
  if (m.updateWindow id offset).2.2 = none then update granted id (max (granted id) offset)
  else granted

/-- More may be granted to a stream. -/
theorem FundedStream.mono {c : FlowController} {granted' : ℕ → ℕ}
    (h : FundedStream params granted id c) (hle : granted id ≤ granted' id) :
    FundedStream params granted' id c :=
  ⟨h.streamID, h.contributes, h.within.sendWindow.trans hle,
    h.within.bytesSent.trans (max_le_max le_rfl hle)⟩

theorem le_update_max (granted : ℕ → ℕ) (id offset id' : ℕ) :
    granted id' ≤ update granted id (max (granted id) offset) id' := by
  by_cases hid : id' = id
  · rw [hid, update_self]
    exact le_max_left _ _
  · rw [update_of_ne hid]

theorem update_max_lt (hgranted : ∀ id, granted id < 2 ^ 64) {offset : ℕ}
    (hoffset : offset < 2 ^ 64) (id id' : ℕ) :
    update granted id (max (granted id) offset) id' < 2 ^ 64 := by
  by_cases hid : id' = id
  · rw [hid, update_self]
    exact max_lt (hgranted id) hoffset
  · rw [update_of_ne hid]
    exact hgranted id'

/-- More may be granted to any stream. -/
theorem Funded.mono (h : m.Funded params granted sent) {offset : ℕ} (hoffset : offset < 2 ^ 64)
    (id : ℕ) : m.Funded params (update granted id (max (granted id) offset)) sent where
  parameters := h.parameters
  granted_lt := update_max_lt h.granted_lt hoffset id
  conn_streamID := h.conn_streamID
  conn_within :=
    ⟨h.conn_within.sendWindow.trans (le_update_max granted id offset 0),
      h.conn_within.bytesSent.trans (max_le_max le_rfl (le_update_max granted id offset 0))⟩
  conn_sent := h.conn_sent
  stream := fun id' c hc => (h.stream id' c hc).mono (le_update_max granted id offset id')

theorem Funded.updateWindow (h : m.Funded params granted sent) (id : ℕ) {offset : ℕ}
    (hoffset : offset < 2 ^ 64) :
    (m.updateWindow id offset).1.Funded params (m.grant granted id offset) sent := by
  have hmono := h.mono hoffset id
  unfold grant
  unfold FlowControlManager.updateWindow
  by_cases hconn : id = 0
  · subst hconn
    simp only [if_true]
    have hwithin := h.conn_within.updateSendWindow offset
    exact { hmono with
      conn_streamID := by
        rw [FlowController.streamID_updateSendWindow]
        exact h.conn_streamID
      conn_within := by
        exact hwithin
      conn_sent := by
        rw [FlowController.bytesSent_updateSendWindow]
        exact h.conn_sent }
  · simp only [if_neg hconn]
    cases hfc : m.streamFlowController id with
    | none => simpa using h
    | some fc =>
      have hstream := h.stream id fc hfc
      refine hmono.setController ⟨?_, ?_, ?_⟩
      · rw [FlowController.streamID_updateSendWindow]
        exact hstream.streamID
      · rw [FlowController.contributesToConnection_updateSendWindow]
        exact hstream.contributes
      · rw [update_self]
        exact hstream.within.updateSendWindow offset

end FlowControlManager

end MultipathQuic
