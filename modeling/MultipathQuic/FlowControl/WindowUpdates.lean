import Mathlib.Algebra.Order.BigOperators.Group.Finset
import MultipathQuic.FlowControl.Balance
import MultipathQuic.FlowControl.ReceiveWindow

/-!
# Window updates

An update should only ever give credit. On the sending side this depends on the first update: a
window of 0 stands for the negotiated one, and any positive offset replaces it. On the receiving
side it depends on the configuration: if the maximum is less than half of the initial window, tuning
cuts the increment, and the window is put back.

## Main definitions

* `FlowControlManager.KeepsCredit`: an update takes no credit away
* `FlowControlManager.Advanced`: no receive window is put back

## Main results

* `along_creditKept_iff`: the runs that take no credit away
* `along_advanced`: receive windows never shrink
-/

namespace MultipathQuic

open Function Runs

/-! ## Credit that is received -/

namespace FlowController

/-- An update for a controller is not the first one, or changes nothing, or reaches the initial
window, as far as that has not been used. -/
def KeepsCredit (c : FlowController) (params : ConnectionParameters) (offset : ℕ) : Prop :=
  c.sendWindow ≠ 0 ∨ offset = 0 ∨ c.initialSendWindow params ≤ max offset c.bytesSent

theorem sendWindowSize_le_updateSendWindow_iff (c : FlowController) (params : ConnectionParameters)
    (offset : ℕ) : c.sendWindowSize params ≤ (c.updateSendWindow offset).1.sendWindowSize params ↔
      c.KeepsCredit params offset := by
  unfold KeepsCredit updateSendWindow
  split
  · next hgt =>
    unfold sendWindowSize
    unfold getSendWindow
    dsimp only
    split_ifs <;> omega
  · next hle => exact iff_of_true le_rfl (by omega)

end FlowController

namespace FlowControlManager

variable {m m' : FlowControlManager}

/-- No credit has been taken away: not from the connection, not from the controller of a stream, and
not from what a stream may send. -/
structure CreditKept (m m' : FlowControlManager) : Prop where
  conn : m.remainingConnectionWindowSize ≤ m'.remainingConnectionWindowSize
  controller : ∀ id c c', m.streamFlowController id = some c → m'.streamFlowController id = some c' →
    c.sendWindowSize m.connectionParameters ≤ c'.sendWindowSize m'.connectionParameters
  stream : ∀ id, (m.sendWindowSize id).1 ≤ (m'.sendWindowSize id).1

/-- The controller that an update is for. -/
def addressed (m : FlowControlManager) (id : ℕ) : Option FlowController :=
  if id = 0 then some m.connFlowController else m.streamFlowController id

/-- The update keeps the credit of the controller that it is for. -/
def KeepsCredit (m : FlowControlManager) (id offset : ℕ) : Prop :=
  ∀ c ∈ m.addressed id, c.KeepsCredit m.connectionParameters offset

/-- What a stream may send grows with the windows of its controller and of the connection. -/
theorem sendWindowSize_mono (hparams : m'.connectionParameters = m.connectionParameters)
    (hconn : m.remainingConnectionWindowSize ≤ m'.remainingConnectionWindowSize)
    (hstream : ∀ id c, m.streamFlowController id = some c → ∃ c',
      m'.streamFlowController id = some c' ∧
        c'.contributesToConnection = c.contributesToConnection ∧
        c.sendWindowSize m.connectionParameters ≤ c'.sendWindowSize m.connectionParameters) :
    CreditKept m m' where
  conn := hconn
  controller := by
    intro id c c' hc hc'
    obtain ⟨c'', hc'', -, hle⟩ := hstream id c hc
    cases hc'.symm.trans hc''
    rw [hparams]
    exact hle
  stream := by
    intro id
    unfold sendWindowSize
    cases hc : m.streamFlowController id with
    | none => exact Nat.zero_le _
    | some c =>
      obtain ⟨c', hc', hcontributes, hle⟩ := hstream id c hc
      unfold remainingConnectionWindowSize at hconn
      rw [hc']
      dsimp only
      rw [hcontributes, hparams]
      rw [hparams] at hconn
      split_ifs
      · exact min_le_min hle hconn
      · exact hle

/-- **An update takes no credit away iff it keeps the credit of the controller it is for.** -/
theorem creditKept_updateWindow_iff (m : FlowControlManager) (id offset : ℕ) :
    CreditKept m (m.updateWindow id offset).1 ↔ m.KeepsCredit id offset := by
  unfold updateWindow KeepsCredit addressed
  by_cases hid : id = 0
  · rw [if_pos hid, if_pos hid]
    have hconn := m.connFlowController.sendWindowSize_le_updateSendWindow_iff
      m.connectionParameters offset
    refine ⟨fun h c hc => ?_, fun h => ?_⟩
    · cases hc
      exact hconn.mp h.conn
    · exact sendWindowSize_mono rfl (hconn.mpr (h _ rfl)) fun x c hc => ⟨c, hc, rfl, le_rfl⟩
  · rw [if_neg hid, if_neg hid]
    cases hfc : m.streamFlowController id with
    | none =>
      refine iff_of_true ?_ fun c hc => absurd hc (Option.not_mem_none c)
      exact sendWindowSize_mono rfl le_rfl fun x c hc => ⟨c, hc, rfl, le_rfl⟩
    | some fc =>
      have hfc' := fc.sendWindowSize_le_updateSendWindow_iff m.connectionParameters offset
      refine ⟨fun h c hc => ?_, fun h => ?_⟩
      · cases hc
        exact hfc'.mp (h.controller id fc _ hfc (update_self ..))
      · refine sendWindowSize_mono rfl le_rfl fun x c hc => ?_
        by_cases hx : x = id
        · subst hx
          cases hfc.symm.trans hc
          exact ⟨_, update_self .., fc.contributesToConnection_updateSendWindow offset,
            hfc'.mpr (h fc rfl)⟩
        · exact ⟨c, (update_of_ne hx ..).trans hc, rfl, le_rfl⟩

/-- One of the updates that arrive, for a stream or for the connection. -/
def receiveUpdate (m : FlowControlManager) (update : WindowUpdate) : FlowControlManager :=
  (m.updateWindow update.streamID update.offset).1

/-- **The runs of `UpdateWindow` that take no credit away**, in any state and for updates in any
order: those in which the first update for each controller reaches the initial window. -/
theorem along_creditKept_iff (m : FlowControlManager) (updates : List WindowUpdate) :
    Along receiveUpdate (fun m update => CreditKept m (m.receiveUpdate update)) m updates ↔
      Along receiveUpdate (fun m update => m.KeepsCredit update.streamID update.offset) m updates := by
  simp only [receiveUpdate, creditKept_updateWindow_iff]

end FlowControlManager

/-- A server whose client has negotiated windows of 64 kB. -/
def negotiatedParameters : ConnectionParameters where
  sendStreamFlowControlWindow := 0x10000
  sendConnectionFlowControlWindow := 0x10000
  receiveStreamFlowControlWindow := 1000
  receiveConnectionFlowControlWindow := 3000
  maxReceiveStreamFlowControlWindow := 1000
  maxReceiveConnectionFlowControlWindow := 3000
  maxOutgoingStreams := 100
  maxIncomingStreams := 100

/-- The first update for a stream lowers what may be sent from 65536 bytes to 100. -/
theorem FlowControlManager.firstUpdate_takes_credit :
    let m := (newFlowControlManager negotiatedParameters).newStream 5 true
    (m.sendWindowSize 5).1 = 0x10000 ∧ ((m.updateWindow 5 100).1.sendWindowSize 5).1 = 100 := by
  decide

/-! ## Credit that is given -/

/-- Half of an initial window exceeds the maximum by at most one. -/
structure ConnectionParameters.MaximaSuffice (params : ConnectionParameters) : Prop where
  stream : params.receiveStreamFlowControlWindow.toNat / 2 ≤
    params.maxReceiveStreamFlowControlWindow.toNat + 1
  conn : params.receiveConnectionFlowControlWindow.toNat / 2 ≤
    params.maxReceiveConnectionFlowControlWindow.toNat + 1

theorem FlowController.kept_new {params : ConnectionParameters} (hmax : params.MaximaSuffice)
    (id : ℕ) (contributes : Bool) : (newFlowController id contributes params).Kept where
  increment_le := by
    unfold newFlowController
    split_ifs
    · exact hmax.conn
    · exact hmax.stream
  window_lt := by
    unfold newFlowController
    split_ifs <;> exact UInt64.toNat_lt _
  highest_le := Nat.zero_le _
  read_le := le_rfl

/-- The calls of the receiving side. -/
inductive WindowCall
  | newStream (id : ℕ) (contributes : Bool)
  | addBytesRead (now : ℤ) (id n : ℕ)
  | updateHighestReceived (id byteOffset : ℕ)
  | getWindowUpdates (force : Bool) (now rtt : ℤ) (remoteRTTs : List ℤ) (order : List ℕ)

namespace FlowControlManager

variable {m m' : FlowControlManager} {params : ConnectionParameters} {ids : Finset ℕ} {id : ℕ}
  {c c' conn' : FlowController}

/-- A call of the receiving side. -/
def receive (m : FlowControlManager) : WindowCall → FlowControlManager
  | .newStream id contributes => m.newStream id contributes
  | .addBytesRead now id n => (m.addBytesRead now id n).1
  | .updateHighestReceived id byteOffset => (m.updateHighestReceived id byteOffset).1
  | .getWindowUpdates force now rtt remoteRTTs order =>
    (m.getWindowUpdates force now rtt remoteRTTs order).1

/-- Only what was received is read, an offset is no violation, and nothing overflows: neither what
the connection has received nor a computation of a window. -/
def Sound (m : FlowControlManager) : WindowCall → Prop
  | .newStream .. => True
  | .addBytesRead _ id n =>
    ∀ c ∈ m.streamFlowController id, c.bytesRead + n ≤ c.highestReceived
  | .updateHighestReceived id byteOffset =>
    (∀ err ∈ (m.updateHighestReceived id byteOffset).2, err = .mapAccess) ∧
      ∀ c ∈ m.streamFlowController id, c.contributesToConnection = true →
        m.connFlowController.highestReceived + (byteOffset - c.highestReceived) < 2 ^ 64
  | .getWindowUpdates force now rtt remoteRTTs order =>
    m.UpdatesFit force now rtt remoteRTTs order

instance (m : FlowControlManager) : (call : WindowCall) → Decidable (m.Sound call)
  | .newStream .. => inferInstanceAs (Decidable True)
  | .addBytesRead .. => inferInstanceAs (Decidable (∀ _ ∈ _, _))
  | .updateHighestReceived .. => inferInstanceAs (Decidable (_ ∧ _))
  | .getWindowUpdates .. => inferInstanceAs (Decidable (m.UpdatesFit ..))

/-! ### Windows that move forward -/

/-- No receive window has been put back. -/
structure Advanced (m m' : FlowControlManager) : Prop where
  conn : m.connFlowController.receiveWindow ≤ m'.connFlowController.receiveWindow
  stream : ∀ id c, m.streamFlowController id = some c → ∃ c', m'.streamFlowController id = some c' ∧
    c.receiveWindow ≤ c'.receiveWindow

theorem Advanced.refl (m : FlowControlManager) : Advanced m m :=
  ⟨le_rfl, fun _ c hc => ⟨c, hc, le_rfl⟩⟩

theorem Advanced.setConn (h : Advanced m m')
    (hle : m'.connFlowController.receiveWindow ≤ conn'.receiveWindow) :
    Advanced m { m' with connFlowController := conn' } :=
  ⟨h.conn.trans hle, h.stream⟩

theorem Advanced.setController (h : Advanced m m') (hc : m'.streamFlowController id = some c)
    (hle : c.receiveWindow ≤ c'.receiveWindow) : Advanced m (m'.setController id c') := by
  refine ⟨h.conn, fun x c₀ hc₀ => ?_⟩
  obtain ⟨c₁, hc₁, hle₁⟩ := h.stream x c₀ hc₀
  by_cases hx : x = id
  · subst hx
    cases hc.symm.trans hc₁
    exact ⟨c', update_self .., hle₁.trans hle⟩
  · exact ⟨c₁, (update_of_ne hx ..).trans hc₁, hle₁⟩

/-- All controllers keep their windows. -/
structure AllKept (m : FlowControlManager) : Prop where
  conn : m.connFlowController.Kept
  stream : ∀ id c, m.streamFlowController id = some c → c.Kept

theorem AllKept.setController (h : m.AllKept) (id : ℕ) (hc : c.Kept) :
    (m.setController id c).AllKept := by
  refine ⟨h.conn, fun x c₀ hc₀ => ?_⟩
  change update m.streamFlowController id (some c) x = some c₀ at hc₀
  by_cases hx : x = id
  · rw [hx, update_self] at hc₀
    cases hc₀
    exact hc
  · rw [update_of_ne hx] at hc₀
    exact h.stream x c₀ hc₀

/-- One round of the loop of `GetWindowUpdates`. -/
theorem AllKept.windowUpdateOf {acc : FlowControlManager × List WindowUpdate} {force : Bool}
    {now rtt : ℤ} {remoteRTTs : List ℤ} (h : acc.1.AllKept) (hadv : Advanced m acc.1)
    (hfits : ∀ c ∈ acc.1.streamFlowController id, c.UpdateFits now rtt remoteRTTs) :
    (windowUpdateOf force now rtt remoteRTTs acc id).1.AllKept ∧
      Advanced m (windowUpdateOf force now rtt remoteRTTs acc id).1 := by
  unfold FlowControlManager.windowUpdateOf
  cases hc : acc.1.streamFlowController id with
  | none => exact ⟨h, hadv⟩
  | some c =>
    obtain ⟨hkept, hle⟩ := (h.stream id c hc).maybeUpdateWindow (hfits c hc)
    have hset := h.setController id hkept
    have hforward := hadv.setController hc hle
    dsimp only
    split_ifs
    · obtain ⟨hensured, heq⟩ := hset.conn.ensureMinimumWindowIncrement
        ((c.maybeUpdateWindow now rtt remoteRTTs).2.2.1 * 3 / 2)
      exact ⟨⟨hensured, hset.stream⟩, hforward.setConn heq.ge⟩
    · exact ⟨hset, hforward⟩
    · exact ⟨hset, hforward⟩

theorem AllKept.getWindowUpdates {force : Bool} {now rtt : ℤ} {remoteRTTs : List ℤ}
    {order : List ℕ} (h : m.AllKept) (hfits : m.UpdatesFit force now rtt remoteRTTs order) :
    (m.getWindowUpdates force now rtt remoteRTTs order).1.AllKept ∧
      Advanced m (m.getWindowUpdates force now rtt remoteRTTs order).1 := by
  obtain ⟨hkept, hadv⟩ := hfits.1.invariant
    (P := fun acc => acc.1.AllKept ∧ Advanced m acc.1) ⟨h, .refl m⟩
    fun acc id hacc hfit => hacc.1.windowUpdateOf hacc.2 hfit
  obtain ⟨hconn, hle⟩ := hkept.conn.maybeUpdateWindow hfits.2
  unfold FlowControlManager.getWindowUpdates
  dsimp only
  split_ifs <;> exact ⟨⟨hconn, hkept.stream⟩, hadv.setConn hle⟩

/-! ### Runs -/

/-- All controllers keep their windows, and the connection has the books of its streams `ids`. -/
structure Steady (m : FlowControlManager) (params : ConnectionParameters) (ids : Finset ℕ) :
    Prop where
  parameters : m.connectionParameters = params
  kept : m.AllKept
  streams : ∀ id, (m.streamFlowController id).isSome = true ↔ id ∈ ids
  books : m.connFlowController.outstanding = ∑ id ∈ ids, m.outstanding id

theorem steady_new (hmax : params.MaximaSuffice) : (newFlowControlManager params).Steady params ∅ where
  parameters := rfl
  kept := ⟨FlowController.kept_new hmax 0 false, fun _ _ hc => absurd hc (Option.some_ne_none _).symm⟩
  streams := (balanced_new params).streams
  books := rfl

theorem Steady.newStream (h : m.Steady params ids) (hmax : params.MaximaSuffice) (id : ℕ)
    (contributes : Bool) :
    (m.newStream id contributes).Steady params (insert id ids) ∧
      Advanced m (m.newStream id contributes) := by
  unfold FlowControlManager.newStream
  split
  · next c hc =>
    have hmem : id ∈ ids := (h.streams id).mp (by rw [hc]; rfl)
    rw [Finset.insert_eq_of_mem hmem]
    exact ⟨h, .refl m⟩
  · next hc =>
    have hnot : id ∉ ids := fun hmem => by
      have := (h.streams id).mpr hmem
      rw [hc] at this
      cases this
    refine ⟨⟨h.parameters, h.kept.setController id ?_, fun id' => ?_, ?_⟩, le_rfl, fun x c hx => ?_⟩
    · rw [h.parameters]
      exact FlowController.kept_new hmax id contributes
    · rw [isSome_setController, Finset.mem_insert, h.streams]
    · rw [m.sum_outstanding_newController hnot]
      exact h.books
    · have hne : x ≠ id := by
        rintro rfl
        rw [hc] at hx
        cases hx
      exact ⟨c, (update_of_ne hne ..).trans hx, le_rfl⟩

/-- One stream and the connection change by the same amount, and no window is put back. -/
theorem Steady.replace (h : m.Steady params ids) (hc : m.streamFlowController id = some c)
    (hkept : c'.Kept) (hconn : conn'.Kept) (hwindow : c'.receiveWindow = c.receiveWindow)
    (hconnWindow : conn'.receiveWindow = m.connFlowController.receiveWindow)
    (hchange : conn'.outstanding - m.connFlowController.outstanding =
      c'.contribution - c.contribution) :
    Steady { m.setController id c' with connFlowController := conn' } params ids ∧
      Advanced m { m.setController id c' with connFlowController := conn' } := by
  have hmem : id ∈ ids := (h.streams id).mp (by rw [hc]; rfl)
  have hset := h.kept.setController id hkept
  refine ⟨⟨h.parameters, ⟨hconn, hset.stream⟩, fun id' => ?_, ?_⟩,
    ((Advanced.refl m).setController hc hwindow.ge).setConn hconnWindow.ge⟩
  · have hsome := isSome_setController m id c' id'
    rw [h.streams] at hsome
    refine hsome.trans ⟨?_, .inr⟩
    rintro (rfl | hid)
    · exact hmem
    · exact hid
  · have hsum := m.sum_outstanding_setController hmem hc c'
    have hbooks := h.books
    show conn'.outstanding = ∑ x ∈ ids, (m.setController id c').outstanding x
    omega

/-- The connection has received and not read what any of its streams has. -/
theorem Steady.contribution_le (h : m.Steady params ids) (hc : m.streamFlowController id = some c) :
    c.contribution ≤ m.connFlowController.outstanding := by
  have hmem : id ∈ ids := (h.streams id).mp (by rw [hc]; rfl)
  rw [h.books, ← outstanding_of_some hc]
  refine Finset.single_le_sum (fun x _ => ?_) hmem
  unfold outstanding
  split
  · exact le_rfl
  · next c₀ hc₀ =>
    have hread := (h.kept.stream x c₀ hc₀).read_le
    unfold FlowController.contribution FlowController.outstanding
    split_ifs <;> omega

theorem Steady.addBytesRead (h : m.Steady params ids) {now : ℤ} {n : ℕ}
    (hsound : m.Sound (.addBytesRead now id n)) :
    (m.addBytesRead now id n).1.Steady params ids ∧ Advanced m (m.addBytesRead now id n).1 := by
  unfold FlowControlManager.addBytesRead charge
  cases hc : m.streamFlowController id with
  | none => exact ⟨h, .refl m⟩
  | some c =>
    have hkept := h.kept.stream id c hc
    have hread : c.bytesRead + n ≤ c.highestReceived := hsound c hc
    have hadd : add64 c.bytesRead n = c.bytesRead + n :=
      add64_of_lt (hread.trans_lt (hkept.highest_le.trans_lt hkept.window_lt))
    have hkept' : (c.addBytesRead now n).Kept := { hkept with read_le := hadd.trans_le hread }
    dsimp only
    split
    · next hcontributes =>
      -- what the stream has not read, the connection has not read either
      have hle := h.contribution_le hc
      have hconn := h.kept.conn
      rw [FlowController.contribution, if_pos hcontributes] at hle
      unfold FlowController.outstanding at hle
      have hconnRead : m.connFlowController.bytesRead + n ≤ m.connFlowController.highestReceived := by
        omega
      have hconnAdd : add64 m.connFlowController.bytesRead n = m.connFlowController.bytesRead + n :=
        add64_of_lt (hconnRead.trans_lt (hconn.highest_le.trans_lt hconn.window_lt))
      refine h.replace hc hkept' { hconn with read_le := hconnAdd.trans_le hconnRead } rfl rfl ?_
      rw [c.contribution_sub (c.addBytesRead now n) rfl, if_pos hcontributes]
      unfold FlowController.outstanding FlowController.addBytesRead
      dsimp only [FlowControlManager.setController]
      omega
    · next hcontributes =>
      refine h.replace hc hkept' h.kept.conn rfl rfl ?_
      rw [c.contribution_sub (c.addBytesRead now n) rfl, if_neg hcontributes, sub_self]

/-- An offset that is no violation is within the windows. -/
theorem le_of_checkReceived {byteOffset increment : ℕ}
    (h : ∀ err ∈ (m.checkReceived id byteOffset increment c).2, err = .mapAccess) :
    c.highestReceived ≤ c.receiveWindow ∧ (c.contributesToConnection = true →
      add64 m.connFlowController.highestReceived increment ≤
        m.connFlowController.receiveWindow) := by
  unfold checkReceived at h
  dsimp only at h
  split at h
  · cases h _ rfl
  · next hstream =>
    refine ⟨Nat.not_lt.mp fun hlt => hstream (decide_eq_true hlt), fun hcontributes => ?_⟩
    rw [if_pos hcontributes] at h
    split at h
    · cases h _ rfl
    · next hconn => exact Nat.not_lt.mp fun hlt => hconn (decide_eq_true hlt)

theorem Steady.updateHighestReceived (h : m.Steady params ids) {byteOffset : ℕ}
    (hsound : m.Sound (.updateHighestReceived id byteOffset)) :
    (m.updateHighestReceived id byteOffset).1.Steady params ids ∧
      Advanced m (m.updateHighestReceived id byteOffset).1 := by
  obtain ⟨herr, hfit⟩ := hsound
  unfold FlowControlManager.updateHighestReceived at herr ⊢
  cases hc : m.streamFlowController id with
  | none => exact ⟨h, .refl m⟩
  | some c =>
    rw [hc] at herr
    dsimp only at herr ⊢
    rw [c.updateHighestReceived_eq] at herr ⊢
    obtain ⟨hstream, hconn⟩ := le_of_checkReceived herr
    rw [checkReceived_eq m id byteOffset _ hstream hconn]
    have hkept := h.kept.stream id c hc
    have hread := hkept.read_le
    have hkept' : FlowController.Kept { c with highestReceived := max c.highestReceived byteOffset } :=
      { hkept with highest_le := hstream, read_le := hread.trans (le_max_left _ _) }
    have hincrement : (if c.highestReceived ≤ byteOffset then some (byteOffset - c.highestReceived)
        else none).getD 0 = byteOffset - c.highestReceived := by
      split_ifs
      · rfl
      · exact (Nat.sub_eq_zero_of_le (by omega)).symm
    rw [hincrement] at hconn ⊢
    dsimp only at hconn ⊢
    split_ifs with hcontributes
    · have hadd := add64_of_lt (hfit c hc hcontributes)
      have hconnLe := hconn hcontributes
      have hconnRead := h.kept.conn.read_le
      refine h.replace hc hkept' { h.kept.conn with
        highest_le := hconnLe, read_le := hconnRead.trans ?_ } rfl rfl ?_
      · show m.connFlowController.highestReceived ≤ add64 _ _
        omega
      · rw [c.contribution_sub { c with highestReceived := max c.highestReceived byteOffset } rfl,
          if_pos hcontributes]
        unfold FlowController.outstanding FlowController.incrementHighestReceived
        dsimp only
        omega
    · refine h.replace hc hkept' h.kept.conn rfl rfl ?_
      rw [c.contribution_sub { c with highestReceived := max c.highestReceived byteOffset } rfl,
        if_neg hcontributes, sub_self]

theorem Steady.getWindowUpdates (h : m.Steady params ids) {force : Bool} {now rtt : ℤ}
    {remoteRTTs : List ℤ} {order : List ℕ}
    (hfits : m.UpdatesFit force now rtt remoteRTTs order) :
    (m.getWindowUpdates force now rtt remoteRTTs order).1.Steady params ids ∧
      Advanced m (m.getWindowUpdates force now rtt remoteRTTs order).1 := by
  obtain ⟨hkept, hadv⟩ := h.kept.getWindowUpdates hfits
  have hsame := m.same_getWindowUpdates FlowController.untuned_account force now rtt remoteRTTs order
  have hconn : (m.getWindowUpdates force now rtt remoteRTTs order).1.connFlowController.outstanding =
      m.connFlowController.outstanding := congrArg Prod.fst hsame.conn
  refine ⟨⟨hsame.parameters.trans h.parameters, hkept, fun id => ?_, ?_⟩, hadv⟩
  · rw [hsame.isSome_eq, h.streams]
  · rw [hconn, h.books, Finset.sum_congr rfl fun id _ => hsame.outstanding_eq id]

/-- What holds of the streams is kept by every call, and the windows move forward. -/
theorem Steady.receive (h : m.Steady params ids) (hmax : params.MaximaSuffice) {call : WindowCall}
    (hsound : m.Sound call) : (∃ ids', (m.receive call).Steady params ids') ∧
      Advanced m (m.receive call) := by
  cases call with
  | newStream id contributes =>
    obtain ⟨hsteady, hadv⟩ := h.newStream hmax id contributes
    exact ⟨⟨_, hsteady⟩, hadv⟩
  | addBytesRead now id n =>
    obtain ⟨hsteady, hadv⟩ := h.addBytesRead hsound
    exact ⟨⟨_, hsteady⟩, hadv⟩
  | updateHighestReceived id byteOffset =>
    obtain ⟨hsteady, hadv⟩ := h.updateHighestReceived hsound
    exact ⟨⟨_, hsteady⟩, hadv⟩
  | getWindowUpdates force now rtt remoteRTTs order =>
    obtain ⟨hsteady, hadv⟩ := h.getWindowUpdates hsound
    exact ⟨⟨_, hsteady⟩, hadv⟩

/-- No receive window is below what has been read. -/
structure ReadsWithin (m : FlowControlManager) : Prop where
  conn : m.connFlowController.bytesRead ≤ m.connFlowController.receiveWindow
  stream : ∀ id c, m.streamFlowController id = some c → c.bytesRead ≤ c.receiveWindow

theorem AllKept.readsWithin (h : m.AllKept) : m.ReadsWithin where
  conn := h.conn.read_le.trans h.conn.highest_le
  stream := fun id c hc => (h.stream id c hc).read_le.trans (h.stream id c hc).highest_le

/-- **Receive windows never shrink**, if the maxima reach half of the initial windows. -/
theorem along_advanced (hmax : params.MaximaSuffice) {calls : List WindowCall}
    (hrun : Along receive Sound (newFlowControlManager params) calls) :
    Along receive (fun m call => Advanced m (m.receive call) ∧ (m.receive call).ReadsWithin)
      (newFlowControlManager params) calls := by
  refine hrun.imp (P := fun m => ∃ ids, m.Steady params ids) ⟨∅, steady_new hmax⟩ ?_ ?_
  · rintro m call ⟨ids, h⟩ hsound
    exact (h.receive hmax hsound).1
  · rintro m call ⟨ids, h⟩ hsound
    obtain ⟨⟨ids', h'⟩, hadv⟩ := h.receive hmax hsound
    exact ⟨hadv, h'.kept.readsWithin⟩

/-- Half of a stream's window is read, and an update is due. -/
def readingCalls : List WindowCall :=
  [.newStream 5 true, .updateHighestReceived 5 600, .addBytesRead 1 5 501,
    .getWindowUpdates false 1 1 [] [5]]

theorem along_advanced_readingCalls :
    Along receive (fun m call => Advanced m (m.receive call) ∧ (m.receive call).ReadsWithin)
      (newFlowControlManager negotiatedParameters) readingCalls :=
  along_advanced ⟨by decide, by decide⟩ (by decide +kernel)

/-- With a maximum of 100 bytes, the window of the stream is put back from 1000 to 601. -/
theorem window_shrinks :
    let params := { negotiatedParameters with maxReceiveStreamFlowControlWindow := 100 }
    Along receive Sound (newFlowControlManager params) readingCalls ∧
      (((readingCalls.take 3).foldl receive (newFlowControlManager params)).getReceiveWindow 5).1 =
        1000 ∧
      ((readingCalls.foldl receive (newFlowControlManager params)).getReceiveWindow 5).1 = 601 := by
  decide +kernel

end FlowControlManager

end MultipathQuic
