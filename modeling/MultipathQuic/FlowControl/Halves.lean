import MultipathQuic.FlowControl.Credit

/-!
# The two halves of flow control

A flow controller has a sending and a receiving half. What is sent leaves what is received alone, and
counting what is sent again changes neither of them.
-/

namespace MultipathQuic

open Function

namespace FlowController

/-- The sending half. -/
def sendPart (c : FlowController) : ℕ × Bool × ℕ × ℕ :=
  (c.streamID, c.contributesToConnection, c.bytesSent, c.sendWindow)

end FlowController

namespace FlowControlManager

section Same

variable {β : Type} {part : FlowController → β} {m m' : FlowControlManager} {id : ℕ}
  {c c' : FlowController}

/-- The managers agree on a part of all controllers. -/
structure Same (part : FlowController → β) (m m' : FlowControlManager) : Prop where
  parameters : m'.connectionParameters = m.connectionParameters
  conn : part m'.connFlowController = part m.connFlowController
  stream : ∀ id, (m'.streamFlowController id).map part = (m.streamFlowController id).map part

theorem Same.refl (part : FlowController → β) (m : FlowControlManager) : Same part m m :=
  ⟨rfl, rfl, fun _ => rfl⟩

/-- A controller of the one manager has its counterpart in the other. -/
theorem Same.exists_of_some (h : Same part m m') (hc : m'.streamFlowController id = some c') :
    ∃ c, m.streamFlowController id = some c ∧ part c' = part c := by
  have hmap := h.stream id
  rw [hc] at hmap
  obtain ⟨c, hc, heq⟩ := Option.map_eq_some_iff.mp hmap.symm
  exact ⟨c, hc, heq.symm⟩

theorem Same.isSome_eq (h : Same part m m') (id : ℕ) :
    (m'.streamFlowController id).isSome = (m.streamFlowController id).isSome := by
  rw [← Option.isSome_map (f := part), h.stream id, Option.isSome_map]

theorem Same.setController (h : Same part m m') (hc : m.streamFlowController id = some c)
    (heq : part c' = part c) : Same part m (m'.setController id c') := by
  refine ⟨h.parameters, h.conn, fun x => ?_⟩
  show (update m'.streamFlowController id (some c') x).map part = _
  by_cases hx : x = id
  · rw [hx, update_self, hc, Option.map_some, Option.map_some, heq]
  · rw [update_of_ne hx]
    exact h.stream x

theorem Same.setConn (h : Same part m m') {conn : FlowController}
    (heq : part conn = part m'.connFlowController) :
    Same part m { m' with connFlowController := conn } :=
  ⟨h.parameters, heq.trans h.conn, h.stream⟩

/-- Counting something in the other half. -/
theorem same_charge (m : FlowControlManager) (id : ℕ) {count : FlowController → FlowController}
    (hcount : ∀ c, part (count c) = part c) : Same part m (m.charge id count).1 := by
  unfold charge
  split
  · exact .refl part m
  · next c hc =>
    have hset := (Same.refl part m).setController hc (hcount c)
    split
    · exact hset.setConn (hcount _)
    · exact hset

/-- One round of the loop of `GetWindowUpdates`. -/
theorem same_windowUpdateOf (hpart : FlowController.Untuned part) (force : Bool) (now rtt : ℤ)
    (remoteRTTs : List ℤ) (acc : FlowControlManager × List WindowUpdate) (id : ℕ)
    (h : Same part m acc.1) :
    Same part m (windowUpdateOf force now rtt remoteRTTs acc id).1 := by
  unfold windowUpdateOf
  split
  · exact h
  · next c' hc' =>
    obtain ⟨c, hc, heq⟩ := h.exists_of_some hc'
    have hset := h.setController hc ((hpart.maybeUpdateWindow c' now rtt remoteRTTs).trans heq)
    dsimp only
    split
    · split
      · exact hset.setConn (hpart.ensureMinimumWindowIncrement _ _)
      · exact hset
    · exact hset

theorem same_getWindowUpdates (m : FlowControlManager) (hpart : FlowController.Untuned part)
    (force : Bool) (now rtt : ℤ) (remoteRTTs : List ℤ) (order : List ℕ) :
    Same part m (m.getWindowUpdates force now rtt remoteRTTs order).1 := by
  have hloop : ∀ acc : FlowControlManager × List WindowUpdate, Same part m acc.1 →
      Same part m (order.foldl (windowUpdateOf force now rtt remoteRTTs) acc).1 := by
    induction order with
    | nil => exact fun _ h => h
    | cons id order ih =>
      exact fun acc h => ih _ (same_windowUpdateOf hpart force now rtt remoteRTTs acc id h)
  have hconn := (hloop (m, []) (.refl _ m)).setConn (hpart.maybeUpdateWindow _ now rtt remoteRTTs)
  unfold getWindowUpdates
  dsimp only
  split <;> exact hconn

end Same

/-! ## Counting what is sent -/

variable (m : FlowControlManager)

theorem same_sendPart_addBytesRetrans (id n : ℕ) :
    Same FlowController.sendPart m (m.addBytesRetrans id n).1 :=
  m.same_charge id fun _ => rfl

/-! ## Windows and credit -/

/-- The size of a send window is about the sending halves. -/
theorem Same.sendWindowSize_eq {m m' : FlowControlManager}
    (h : Same FlowController.sendPart m m') (id : ℕ) :
    m'.sendWindowSize id = m.sendWindowSize id := by
  have hsize : ∀ c c' : FlowController, c'.sendPart = c.sendPart →
      c'.sendWindowSize m.connectionParameters = c.sendWindowSize m.connectionParameters ∧
        c'.contributesToConnection = c.contributesToConnection := by
    intro c c' heq
    simp only [FlowController.sendPart, Prod.mk.injEq] at heq
    obtain ⟨hid, hcontributes, hsent, hwindow⟩ := heq
    refine ⟨?_, hcontributes⟩
    unfold FlowController.sendWindowSize FlowController.getSendWindow
      FlowController.initialSendWindow
    rw [hid, hsent, hwindow]
  have hmap := h.stream id
  unfold sendWindowSize
  cases hc : m.streamFlowController id with
  | none =>
    rw [hc] at hmap
    rw [Option.map_eq_none_iff.mp hmap]
  | some c =>
    rw [hc] at hmap
    obtain ⟨c', hc', heq⟩ := Option.map_eq_some_iff.mp hmap
    obtain ⟨hstream, hcontributes⟩ := hsize c c' heq
    rw [hc']
    dsimp only
    rw [h.parameters, hstream, hcontributes, (hsize _ _ h.conn).1]

/-- Credit is about the sending halves. -/
theorem Funded.same {m m' : FlowControlManager} {params : ConnectionParameters} {granted : ℕ → ℕ}
    {sent : ℕ} (h : m.Funded params granted sent) (hsame : Same FlowController.sendPart m m') :
    m'.Funded params granted sent := by
  have hconn := hsame.conn
  simp only [FlowController.sendPart, Prod.mk.injEq] at hconn
  obtain ⟨hid, -, hsent, hwindow⟩ := hconn
  exact {
    parameters := hsame.parameters.trans h.parameters
    granted_lt := h.granted_lt
    conn_streamID := hid.trans h.conn_streamID
    conn_within := by
      refine ⟨hwindow.trans_le h.conn_within.sendWindow, ?_⟩
      rw [FlowController.initialSendWindow, hid, hsent]
      exact h.conn_within.bytesSent
    conn_sent := hsent.trans h.conn_sent
    stream := by
      intro id c' hc'
      obtain ⟨c, hc, heq⟩ := hsame.exists_of_some hc'
      simp only [FlowController.sendPart, Prod.mk.injEq] at heq
      obtain ⟨hcid, hcontributes, hcsent, hcwindow⟩ := heq
      have hstream := h.stream id c hc
      refine ⟨hcid.trans hstream.streamID, hcontributes.trans hstream.contributes,
        hcwindow.trans_le hstream.within.sendWindow, ?_⟩
      rw [FlowController.initialSendWindow, hcid, hcsent]
      exact hstream.within.bytesSent }

end FlowControlManager

end MultipathQuic
