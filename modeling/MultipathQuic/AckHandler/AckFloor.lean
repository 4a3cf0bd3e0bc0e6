import MultipathQuic.AckHandler.GeneratedAcks

/-!
# The floor of acknowledgements

`SetLowerLimit` removes the packets up to its limit from the history, and packets up to the limit are
ignored from then on. The limit that is set last counts, even if it is lower than one before: an old
STOP_WAITING frame that is reordered reopens a gap, and a packet that falls into it is acknowledged.
-/

namespace MultipathQuic

open ReceivedPacketHistory

variable {version : VersionNumber} {ops : List ReceiveOp}

/-- The packet is ignored because of the limit that is in force, or it lies above all limits that were
ever set. -/
def ReceiveOp.RespectsFloor (version : VersionNumber) (before : List ReceiveOp) : ReceiveOp → Prop
  | .receivedPacket packetNumber _ _ =>
    packetNumber.toNat ≤ (runReceive version before).lowerLimit ∨
      ∀ p, .setLowerLimit p ∈ before → p < packetNumber
  | _ => True

/-- The ranges of the history are in order, and they lie above all limits of the run. -/
structure AboveFloor (ops : List ReceiveOp) (h : ReceivedPacketHandler) : Prop where
  ascending : Ascending h.packetHistory.ranges
  above : ∀ p, .setLowerLimit p ∈ ops → ∀ x, covered h.packetHistory.ranges x → p.toNat < x

namespace AboveFloor

variable {h h' : ReceivedPacketHandler}

/-- The history does not change, and no limit is set. -/
theorem same (ha : AboveFloor ops h) {op : ReceiveOp} (hop : ∀ p, op ≠ .setLowerLimit p)
    (hhistory : h'.packetHistory = h.packetHistory) : AboveFloor (ops ++ [op]) h' := by
  refine ⟨hhistory ▸ ha.ascending, fun p hp x hx => ?_⟩
  rw [hhistory] at hx
  rcases List.mem_append.mp hp with hp | hp
  · exact ha.above p hp x hx
  · exact absurd (List.mem_singleton.mp hp).symm (hop p)

theorem receivedPacket (ha : AboveFloor ops h) {packetNumber : UInt64} {shouldInstigateAck : Bool}
    {now : ℤ} (hfloor : packetNumber.toNat ≤ h.lowerLimit ∨
      ∀ p, .setLowerLimit p ∈ ops → p < packetNumber) :
    AboveFloor (ops ++ [.receivedPacket packetNumber shouldInstigateAck now])
      (h.receivedPacket packetNumber.toNat shouldInstigateAck now).1 := by
  have hop : ∀ p, ReceiveOp.receivedPacket packetNumber shouldInstigateAck now ≠
      .setLowerLimit p := by
    intro p heq
    cases heq
  unfold ReceivedPacketHandler.receivedPacket
  split
  · exact ha.same hop rfl
  next hzero =>
  dsimp only
  split
  · exact ha.same hop rfl
  next hlimit =>
  have habove := hfloor.resolve_left hlimit
  split
  · exact ha.same hop rfl
  · next packetHistory hreceived =>
    obtain ⟨hasc, hcov⟩ := receivedPacket_spec ha.ascending (Nat.one_le_iff_ne_zero.mpr hzero)
      packetNumber.toNat_lt hreceived
    obtain ⟨hhistory, -, -⟩ := ReceivedPacketHandler.maybeQueueAck_frame (h := { h with
      packets := h.packets + 1
      largestObserved := max h.largestObserved packetNumber.toNat
      packetHistory := packetHistory }) packetNumber.toNat shouldInstigateAck now
    constructor
    · rw [hhistory]
      exact hasc
    · intro p hp x hx
      have hp : .setLowerLimit p ∈ ops := by simpa using hp
      rw [hhistory] at hx
      rcases (hcov x).mp hx with rfl | hx
      · exact UInt64.lt_iff_toNat_lt.mp (habove p hp)
      · exact ha.above p hp x hx

theorem setLowerLimit (ha : AboveFloor ops h) (p : UInt64) :
    AboveFloor (ops ++ [.setLowerLimit p]) (h.setLowerLimit p.toNat) := by
  obtain ⟨hasc, hcov⟩ := deleteFrom_spec ha.ascending p.toNat
  refine ⟨hasc, fun q hq x hx => ?_⟩
  obtain ⟨hx, hpx⟩ := (hcov x).mp hx
  rcases List.mem_append.mp hq with hq | hq
  · exact ha.above q hq x hx
  · cases List.mem_singleton.mp hq
    exact hpx

theorem getAckFrame (ha : AboveFloor ops h) (now : ℤ) :
    AboveFloor (ops ++ [.getAckFrame now]) (ReceiveOp.apply h (.getAckFrame now)) := by
  refine ha.same (fun p heq => by cases heq) ?_
  unfold ReceiveOp.apply ReceivedPacketHandler.getAckFrame
  dsimp only
  split
  · cases h.ackedPackets <;> rfl
  · rfl

/-- What a frame acknowledges lies above all limits. -/
theorem of_acksPacket (ha : AboveFloor ops h) {now : ℤ} {frame : AckFrame}
    (hframe : h.getAckFrame now = some (h', some frame)) {x : ℕ}
    (hx : frame.acksPacket x = true) {p : UInt64} (hp : .setLowerLimit p ∈ ops) : p.toNat < x := by
  unfold ReceivedPacketHandler.getAckFrame at hframe
  split at hframe
  · obtain ⟨acked, hacked, heq⟩ := Option.bind_eq_some_iff.mp hframe
    cases heq
    obtain ⟨lowest, hlowest, heq⟩ := Option.bind_eq_some_iff.mp hacked
    obtain rfl := Option.some_inj.mp heq
    obtain ⟨r, hr, rfl⟩ := List.mem_map.mp (List.mem_of_getLast? hlowest)
    have hr := List.mem_reverse.mp hr
    have hstart : p.toNat < r.start :=
      ha.above p hp r.start ⟨r, hr, le_rfl, (ha.ascending.valid r hr).start_le_stop⟩
    by_contra hlow
    have hbelow : x < r.start := by omega
    rw [SentPacketHandler.not_acksPacket_of_lt (Or.inl hbelow)] at hx
    cases hx
  · cases hframe

end AboveFloor

/-- **A run in which packets respect the floor leaves the history above all limits.** -/
theorem aboveFloor_run
    (hops : ∀ before op after, ops = before ++ op :: after → op.RespectsFloor version before) :
    AboveFloor ops (runReceive version ops) := by
  induction ops using List.reverseRecOn with
  | nil => exact ⟨ascending_nil, fun p hp => by cases hp⟩
  | append_singleton ops op ih =>
    obtain ⟨hbefore, hop⟩ := forall_split_concat.mp hops
    have ha := ih hbefore
    rw [runReceive_concat]
    cases op with
    | receivedPacket packetNumber shouldInstigateAck now => exact ha.receivedPacket hop
    | setLowerLimit p => exact ha.setLowerLimit p
    | getAckFrame now => exact ha.getAckFrame now

/-- **No ACK frame acknowledges a packet up to a limit that was set before,** if no packet is received
whose number is above the limit in force and at most an earlier one. -/
theorem ackFloor_holds (version : VersionNumber) (ops : List ReceiveOp)
    (hops : ∀ before op after, ops = before ++ op :: after → op.RespectsFloor version before) :
    ∀ before now after h' frame, ops = before ++ .getAckFrame now :: after →
      (runReceive version before).getAckFrame now = some (h', some frame) →
      ∀ p, .setLowerLimit p ∈ before → ∀ x, frame.acksPacket x = true → p.toNat < x := by
  rintro before now after h' frame rfl hframe p hp x hx
  have ha : AboveFloor before (runReceive version before) := by
    refine aboveFloor_run ?_
    rintro before' op after' rfl
    exact hops before' op (after' ++ .getAckFrame now :: after) (by simp)
  exact ha.of_acksPacket hframe hx hp

/-- Packets 6 and 7 arrive in the wrong order, with the limits 2 and 4, and packet 8 after that. -/
def reorderedLimits : List ReceiveOp :=
  [.receivedPacket 7 true 0, .setLowerLimit 4, .receivedPacket 6 true 0, .setLowerLimit 2,
    .receivedPacket 8 true 0, .getAckFrame 0]

theorem ackFloor_holds_reorderedLimits :
    ∃ h' frame, (runReceive versionMP (reorderedLimits.take 5)).getAckFrame 0 =
        some (h', some frame) ∧
      ∀ p, .setLowerLimit p ∈ reorderedLimits.take 5 → ∀ x, frame.acksPacket x = true →
        p.toNat < x := by
  have hops : ∀ before op after, reorderedLimits = before ++ op :: after →
      op.RespectsFloor versionMP before := by
    show ∀ before op after, [] ++ [_] ++ [_] ++ [_] ++ [_] ++ [_] ++ [_] = before ++ op :: after → _
    simp only [forall_split_concat]
    refine ⟨⟨⟨⟨⟨⟨?_, Or.inr ?_⟩, trivial⟩, Or.inr ?_⟩, trivial⟩, Or.inr ?_⟩, trivial⟩
    · rintro before op after h
      simp at h
    · simp
    · simp
    · intro p hp
      obtain rfl | rfl : p = 4 ∨ p = 2 := by simpa using hp
      · decide
      · decide
  have hframe : ((runReceive versionMP (reorderedLimits.take 5)).getAckFrame 0).map Prod.snd =
      some (some ⟨⟨8, 6, []⟩, 0, 0⟩) := by
    decide +kernel
  obtain ⟨⟨h', ack⟩, hframe, rfl⟩ := Option.map_eq_some_iff.mp hframe
  exact ⟨h', _, hframe, ackFloor_holds versionMP reorderedLimits hops _ 0 [] h' _ rfl hframe⟩

/-- **The floor moves down:** packet 3, which arrives last, is recorded and acknowledged. -/
theorem ackFloor_lowered :
    ∃ frame : AckFrame,
      ((runReceive versionMP [.receivedPacket 7 true 0, .setLowerLimit 4, .receivedPacket 6 true 0,
        .setLowerLimit 2, .receivedPacket 3 true 0]).getAckFrame 0).map Prod.snd =
          some (some frame) ∧
      frame.acksPacket 3 = true :=
  ⟨⟨⟨7, 3, [⟨6, 7⟩, ⟨3, 3⟩]⟩, 0, 0⟩, by decide +kernel, by decide⟩

end MultipathQuic
