import Mathlib.Data.List.Induction
import MultipathQuic.AckHandler.ReceivedPacketHandler

/-!
# The history of received packets is an exact set

A run of `ReceivedPacket` and `DeleteUpTo` on a new history. The ranges always stand for the set of
the packets that were received and not deleted since, in its only form as a list of ascending
intervals of which no two touch.

## Main definitions

* `covered`, `Ascending`: ranges as sets
* `Tracked`: received, and not deleted since

## Main results

* `history_exact`: the history is the set of these
-/

namespace MultipathQuic

/-- The number lies in one of the ranges. -/
def covered (rs : List PacketInterval) (x : ℕ) : Prop := ∃ r ∈ rs, r.start ≤ x ∧ x ≤ r.stop

@[simp] theorem not_covered_nil (x : ℕ) : ¬ covered [] x := by simp [covered]

@[simp] theorem covered_cons {r : PacketInterval} {rs : List PacketInterval} {x : ℕ} :
    covered (r :: rs) x ↔ (r.start ≤ x ∧ x ≤ r.stop) ∨ covered rs x := by
  simp [covered]

@[simp] theorem covered_reverse {rs : List PacketInterval} {x : ℕ} :
    covered rs.reverse x ↔ covered rs x := by
  simp [covered]

/-- A range of packet numbers. -/
structure PacketInterval.Valid (r : PacketInterval) : Prop where
  start_pos : 1 ≤ r.start
  start_le_stop : r.start ≤ r.stop
  stop_lt : r.stop < 2 ^ 64

/-- The ranges are valid and sorted, disjoint and not adjacent, the lowest one first. -/
structure Ascending (rs : List PacketInterval) : Prop where
  valid : ∀ r ∈ rs, r.Valid
  apart : rs.Pairwise fun a b => a.stop + 1 < b.start

/-- The same with the highest range first, the order in which `ReceivedPacket` visits them. -/
structure Descending (rs : List PacketInterval) : Prop where
  valid : ∀ r ∈ rs, r.Valid
  apart : rs.Pairwise fun a b => b.stop + 1 < a.start

theorem ascending_nil : Ascending [] := ⟨by simp, .nil⟩

theorem Ascending.reverse {rs : List PacketInterval} (h : Ascending rs) : Descending rs.reverse where
  valid r hr := h.valid r (List.mem_reverse.mp hr)
  apart := List.pairwise_reverse.mpr h.apart

theorem Descending.reverse {rs : List PacketInterval} (h : Descending rs) :
    Ascending rs.reverse where
  valid r hr := h.valid r (List.mem_reverse.mp hr)
  apart := List.pairwise_reverse.mpr h.apart

theorem Descending.cons {r : PacketInterval} {rs : List PacketInterval} (hr : r.Valid)
    (hbelow : ∀ b ∈ rs, b.stop + 1 < r.start) (h : Descending rs) : Descending (r :: rs) where
  valid := List.forall_mem_cons.mpr ⟨hr, h.valid⟩
  apart := List.pairwise_cons.mpr ⟨hbelow, h.apart⟩

theorem Descending.tail {r : PacketInterval} {rs : List PacketInterval}
    (h : Descending (r :: rs)) : Descending rs where
  valid x hx := h.valid x (List.mem_cons_of_mem _ hx)
  apart := (List.pairwise_cons.mp h.apart).2

theorem Descending.below {r b : PacketInterval} {rs : List PacketInterval}
    (h : Descending (r :: rs)) (hb : b ∈ rs) : b.stop + 1 < r.start :=
  (List.pairwise_cons.mp h.apart).1 b hb

theorem Ascending.cons {r : PacketInterval} {rs : List PacketInterval} (hr : r.Valid)
    (habove : ∀ b ∈ rs, r.stop + 1 < b.start) (h : Ascending rs) : Ascending (r :: rs) where
  valid := List.forall_mem_cons.mpr ⟨hr, h.valid⟩
  apart := List.pairwise_cons.mpr ⟨habove, h.apart⟩

theorem Ascending.tail {r : PacketInterval} {rs : List PacketInterval}
    (h : Ascending (r :: rs)) : Ascending rs where
  valid x hx := h.valid x (List.mem_cons_of_mem _ hx)
  apart := (List.pairwise_cons.mp h.apart).2

theorem Ascending.above {r b : PacketInterval} {rs : List PacketInterval}
    (h : Ascending (r :: rs)) (hb : b ∈ rs) : r.stop + 1 < b.start :=
  (List.pairwise_cons.mp h.apart).1 b hb

namespace ReceivedPacketHistory

/-! ## Receiving a packet -/

/-- An extended range is joined to the ranges below it, of which only the next one may touch it. -/
theorem mergeDown_spec {el : PacketInterval} {below : List PacketInterval} (hel : el.Valid)
    (hbelow : Descending below) (hlt : ∀ b ∈ below, b.stop < el.start) :
    Descending (mergeDown el below) ∧
      ∀ x, covered (mergeDown el below) x ↔ (el.start ≤ x ∧ x ≤ el.stop) ∨ covered below x := by
  cases below with
  | nil => exact ⟨.cons hel (by simp) hbelow, fun x => by simp [mergeDown]⟩
  | cons prev below =>
    have hprev := hbelow.valid prev List.mem_cons_self
    have hprev_lt := hlt prev List.mem_cons_self
    have hadd : add64 prev.stop 1 = prev.stop + 1 := by
      apply add64_of_lt
      have := hel.stop_lt
      have := hel.start_le_stop
      omega
    rw [mergeDown, hadd]
    split_ifs with htouch
    · -- the two ranges become one
      constructor
      · refine .cons ⟨hprev.start_pos, ?_, hel.stop_lt⟩ (fun b hb => hbelow.below hb) hbelow.tail
        have := hprev.start_le_stop
        have := hel.start_le_stop
        show prev.start ≤ el.stop
        omega
      · intro x
        have := hprev.start_le_stop
        have := hel.start_le_stop
        simp only [covered_cons, ← or_assoc]
        apply or_congr_left
        omega
    · -- there is a number between them
      constructor
      · refine .cons hel ?_ hbelow
        intro b hb
        rcases List.mem_cons.mp hb with rfl | hb
        · omega
        · have := hbelow.below hb
          have := hprev.start_le_stop
          omega
      · intro x
        exact covered_cons

/-- **The loop of `ReceivedPacket` adds the packet to the set.** -/
theorem insertFrom_spec {rs : List PacketInterval} {p : ℕ} (h : Descending rs) (hp : 1 ≤ p)
    (hlt : p < 2 ^ 64) :
    Descending (insertFrom p rs) ∧ ∀ x, covered (insertFrom p rs) x ↔ x = p ∨ covered rs x := by
  have hnew : PacketInterval.Valid ⟨p, p⟩ := ⟨hp, le_rfl, hlt⟩
  induction rs with
  | nil =>
    refine ⟨.cons hnew (by simp) h, fun x => ?_⟩
    simp only [insertFrom, covered_cons, not_covered_nil, or_false]
    omega
  | cons el below ih =>
    have hel := h.valid el List.mem_cons_self
    obtain ⟨hpos, hle, hstop⟩ := hel
    rw [insertFrom, sub64_of_le hp hlt]
    split_ifs with hin hend hstart hafter
    · -- the packet is in the range already
      refine ⟨h, fun x => ⟨.inr, ?_⟩⟩
      rintro (rfl | hx)
      · exact covered_cons.mpr (.inl hin)
      · exact hx
    · -- the range grows at its end, and the next range above does not touch it
      have hle' : el.start ≤ p := by omega
      have hgrown : PacketInterval.Valid { el with stop := p } := ⟨hpos, hle', hlt⟩
      have hbelow : ∀ b ∈ below, b.stop < el.start := by
        intro b hb
        have := h.below hb
        omega
      obtain ⟨hdesc, hcov⟩ := mergeDown_spec hgrown h.tail hbelow
      refine ⟨hdesc, fun x => ?_⟩
      rw [hcov, covered_cons, ← or_assoc]
      apply or_congr_left
      dsimp only
      omega
    · -- the range grows at its beginning
      rw [add64] at hstart
      have hle' : p ≤ el.stop := by omega
      have hgrown : PacketInterval.Valid { el with start := p } := ⟨hp, hle', hstop⟩
      have hbelow : ∀ b ∈ below, b.stop < p := by
        intro b hb
        have := h.below hb
        omega
      obtain ⟨hdesc, hcov⟩ := mergeDown_spec hgrown h.tail hbelow
      refine ⟨hdesc, fun x => ?_⟩
      rw [hcov, covered_cons, ← or_assoc]
      apply or_congr_left
      dsimp only
      omega
    · -- the packet lies above the range, with a gap
      constructor
      · refine .cons hnew ?_ h
        intro b hb
        rcases List.mem_cons.mp hb with rfl | hb
        · show b.stop + 1 < p
          omega
        · have := h.below hb
          show b.stop + 1 < p
          omega
      · intro x
        rw [covered_cons]
        apply or_congr_left
        dsimp only
        omega
    · -- the packet lies below the range, with a gap
      have hsucc : add64 p 1 = p + 1 := by
        apply add64_of_lt
        omega
      obtain ⟨hdesc, hcov⟩ := ih h.tail
      constructor
      · refine .cons ⟨hpos, hle, hstop⟩ ?_ hdesc
        intro b hb
        have hb_valid := hdesc.valid b hb
        rcases (hcov b.stop).mp ⟨b, hb, hb_valid.start_le_stop, le_rfl⟩ with heq | ⟨r, hr, -, hr_le⟩
        · omega
        · have := h.below hr
          omega
      · intro x
        rw [covered_cons, hcov, covered_cons, or_left_comm]

/-! ## Deleting packets -/

/-- **The loop of `DeleteUpTo` leaves the packets above the bound.** -/
theorem deleteFrom_spec {rs : List PacketInterval} (h : Ascending rs) (p : ℕ) :
    Ascending (deleteFrom p rs) ∧ ∀ x, covered (deleteFrom p rs) x ↔ covered rs x ∧ p < x := by
  induction rs with
  | nil => exact ⟨h, fun x => by simp [deleteFrom]⟩
  | cons el above ih =>
    obtain ⟨hasc, hcov⟩ := ih h.tail
    obtain ⟨hpos, hle, hstop⟩ := h.valid el List.mem_cons_self
    rw [deleteFrom]
    split_ifs with hcut hall
    · -- the bound lies in the range
      have hsucc : add64 p 1 = p + 1 := by
        apply add64_of_lt
        omega
      rw [hsucc]
      constructor
      · refine .cons ⟨Nat.le_add_left 1 p, hcut.2, hstop⟩ ?_ hasc
        intro b hb
        have hb_valid := hasc.valid b hb
        obtain ⟨⟨r, hr, hr_le, -⟩, -⟩ := (hcov b.start).mp ⟨b, hb, le_rfl, hb_valid.start_le_stop⟩
        have := h.above hr
        show el.stop + 1 < b.start
        omega
      · intro x
        rw [covered_cons, hcov, covered_cons, or_and_right]
        apply or_congr_left
        dsimp only
        omega
    · -- the whole range is deleted
      refine ⟨hasc, fun x => ?_⟩
      rw [hcov, covered_cons, or_and_right]
      constructor
      · exact .inr
      · rintro (⟨hx, hlt⟩ | hx)
        · omega
        · exact hx
    · -- the range and all above it stay
      refine ⟨h, fun x => ⟨fun hx => ⟨hx, ?_⟩, And.left⟩⟩
      rcases covered_cons.mp hx with hx | ⟨r, hr, hr_le, -⟩
      · omega
      · have := h.above hr
        omega

/-- **`ReceivedPacket` adds the packet to the history,** if there is no error. -/
theorem receivedPacket_spec {h h' : ReceivedPacketHistory} {p : ℕ} (hasc : Ascending h.ranges)
    (hp : 1 ≤ p) (hlt : p < 2 ^ 64) (hok : h.receivedPacket p = .ok h') :
    Ascending h'.ranges ∧ ∀ x, covered h'.ranges x ↔ x = p ∨ covered h.ranges x := by
  unfold receivedPacket at hok
  split_ifs at hok
  cases hok
  obtain ⟨hdesc, hcov⟩ := insertFrom_spec hasc.reverse hp hlt
  refine ⟨hdesc.reverse, fun x => ?_⟩
  rw [covered_reverse, hcov, covered_reverse]

end ReceivedPacketHistory

/-! ## Runs -/

/-- The calls on a history. -/
inductive HistoryOp
  | receivedPacket (p : UInt64)
  | deleteUpTo (p : UInt64)
  deriving DecidableEq

/-- `newReceivedPacketHistory`. -/
def newReceivedPacketHistory : ReceivedPacketHistory := ⟨[], 0⟩

/-- The history after a call, or the error the call returns. -/
def HistoryOp.apply (h : ReceivedPacketHistory) :
    HistoryOp → Except ReceivedPacketError ReceivedPacketHistory
  | .receivedPacket p => h.receivedPacket p.toNat
  | .deleteUpTo p => .ok (h.deleteUpTo p.toNat)

/-- The history after some calls on a new one, none of which returns an error. -/
def runHistory (ops : List HistoryOp) : Except ReceivedPacketError ReceivedPacketHistory :=
  ops.foldlM HistoryOp.apply newReceivedPacketHistory

/-- The packet was received in the run, and no call after that has deleted it. -/
def Tracked (ops : List HistoryOp) (x : ℕ) : Prop :=
  ∃ before p after, ops = before ++ .receivedPacket p :: after ∧ p.toNat = x ∧
    ∀ q : UInt64, .deleteUpTo q ∈ after → q.toNat < x

theorem not_tracked_nil (x : ℕ) : ¬ Tracked [] x := by
  rintro ⟨before, p, after, h, -⟩
  simp at h

/-- What one more call does to the tracked packets. -/
theorem tracked_concat {ops : List HistoryOp} {op : HistoryOp} {x : ℕ} :
    Tracked (ops ++ [op]) x ↔
      op = .receivedPacket (.ofNat x) ∧ x < 2 ^ 64 ∨
        Tracked ops x ∧ ∀ q : UInt64, op = .deleteUpTo q → q.toNat < x := by
  constructor
  · rintro ⟨before, p, after, h, rfl, hafter⟩
    rcases List.eq_nil_or_concat after with rfl | ⟨after, op', rfl⟩
    · obtain ⟨-, hop⟩ := List.append_inj' h rfl
      refine .inl ⟨?_, p.toNat_lt⟩
      simpa using hop
    · rw [List.concat_eq_append, ← List.cons_append, ← List.append_assoc] at h
      obtain ⟨hops, hop⟩ := List.append_inj' h rfl
      obtain rfl : op = op' := by simpa using hop
      refine .inr ⟨⟨before, p, after, hops, rfl, fun q hq => hafter q (by simp [hq])⟩, ?_⟩
      rintro q rfl
      exact hafter q (by simp)
  · rintro (⟨rfl, hlt⟩ | ⟨⟨before, p, after, rfl, rfl, hafter⟩, hop⟩)
    · exact ⟨ops, _, [], rfl, UInt64.toNat_ofNat_of_lt hlt, by simp⟩
    · refine ⟨before, p, after ++ [op], by simp, rfl, ?_⟩
      intro q hq
      rcases List.mem_append.mp hq with hq | hq
      · exact hafter q hq
      · exact hop q (List.mem_singleton.mp hq).symm

/-- A call keeps the ranges in order, and does to them what it does to the tracked packets. -/
theorem HistoryOp.apply_spec {h h' : ReceivedPacketHistory} {op : HistoryOp} (hasc : Ascending h.ranges)
    (hpos : ∀ p : UInt64, op = .receivedPacket p → 1 ≤ p.toNat) (happly : op.apply h = .ok h') :
    Ascending h'.ranges ∧ ∀ x, covered h'.ranges x ↔
      op = .receivedPacket (.ofNat x) ∧ x < 2 ^ 64 ∨
        covered h.ranges x ∧ ∀ q : UInt64, op = .deleteUpTo q → q.toNat < x := by
  cases op with
  | receivedPacket p =>
    obtain ⟨hasc', hcov⟩ := ReceivedPacketHistory.receivedPacket_spec hasc (hpos p rfl) p.toNat_lt
      happly
    refine ⟨hasc', fun x => (hcov x).trans ?_⟩
    apply or_congr
    · constructor
      · rintro rfl
        exact ⟨by simp, p.toNat_lt⟩
      · rintro ⟨heq, hlt⟩
        obtain rfl : p = .ofNat x := by simpa using heq
        exact (UInt64.toNat_ofNat_of_lt hlt).symm
    · simp
  | deleteUpTo p =>
    cases happly
    obtain ⟨hasc', hcov⟩ := ReceivedPacketHistory.deleteFrom_spec hasc p.toNat
    refine ⟨hasc', fun x => ?_⟩
    show covered (ReceivedPacketHistory.deleteFrom p.toNat h.ranges) x ↔ _
    rw [hcov]
    simp

/-- The ranges of a history after a run are in order, and they are the tracked packets. -/
theorem runHistory_spec {ops : List HistoryOp} {h : ReceivedPacketHistory}
    (hpos : ∀ p : UInt64, .receivedPacket p ∈ ops → 1 ≤ p.toNat) (hrun : runHistory ops = .ok h) :
    Ascending h.ranges ∧ ∀ x, covered h.ranges x ↔ Tracked ops x := by
  -- the last call of the run is the one that `tracked_concat` speaks about
  induction ops using List.reverseRecOn generalizing h with
  | nil =>
    cases hrun
    exact ⟨ascending_nil, fun x => iff_of_false (not_covered_nil x) (not_tracked_nil x)⟩
  | append_singleton ops op ih =>
    rw [runHistory, List.foldlM_append] at hrun
    cases hbefore : runHistory ops with
    | error err =>
      rw [runHistory] at hbefore
      rw [hbefore] at hrun
      cases hrun
    | ok h₀ =>
      obtain ⟨hasc, hcov⟩ := ih (fun p hp => hpos p (List.mem_append_left _ hp)) hbefore
      rw [runHistory] at hbefore
      rw [hbefore] at hrun
      have happly : op.apply h₀ = .ok h := by
        change List.foldlM HistoryOp.apply h₀ [op] = .ok h at hrun
        simpa using hrun
      obtain ⟨hasc', hcov'⟩ := op.apply_spec hasc
        (fun p hp => hpos p (by simp [hp])) happly
      refine ⟨hasc', fun x => ?_⟩
      rw [hcov', tracked_concat, hcov]

/-- **The received-packet history is an exact set**: the ranges are sorted, disjoint and not
adjacent, they cover exactly the packets that were received and not deleted since, and
`GetAckRanges` lists them from the highest to the lowest. -/
theorem history_exact (ops : List HistoryOp)
    (hpos : ∀ p : UInt64, .receivedPacket p ∈ ops → 1 ≤ p.toNat) {h : ReceivedPacketHistory}
    (hrun : runHistory ops = .ok h) :
    (∀ r ∈ h.ranges, r.start ≤ r.stop) ∧
    h.ranges.Pairwise (fun a b => a.stop + 1 < b.start) ∧
    (∀ x, (∃ r ∈ h.ranges, r.start ≤ x ∧ x ≤ r.stop) ↔ Tracked ops x) ∧
    h.getAckRanges.reverse = h.ranges.map (fun r => ⟨r.start, r.stop⟩) ∧
    h.getAckRanges.Pairwise (fun higher lower => lower.last + 1 < higher.first) := by
  obtain ⟨hasc, hcov⟩ := runHistory_spec hpos hrun
  refine ⟨fun r hr => (hasc.valid r hr).start_le_stop, hasc.apart, hcov, ?_, ?_⟩
  · rw [ReceivedPacketHistory.getAckRanges, List.map_reverse, List.reverse_reverse]
  · rw [ReceivedPacketHistory.getAckRanges, List.pairwise_map]
    exact hasc.reverse.apart

/-- Packets arrive out of order, ranges are merged, and one of them is cut. -/
def reorderedArrivals : List HistoryOp :=
  [.receivedPacket 4, .receivedPacket 8, .receivedPacket 6, .receivedPacket 5, .receivedPacket 2,
    .deleteUpTo 4, .receivedPacket 2]

theorem reorderedArrivals_exact :
    runHistory reorderedArrivals = .ok ⟨[⟨2, 2⟩, ⟨5, 6⟩, ⟨8, 8⟩], 5⟩ ∧
      ∀ x, (∃ r ∈ [⟨2, 2⟩, ⟨5, 6⟩, (⟨8, 8⟩ : PacketInterval)], r.start ≤ x ∧ x ≤ r.stop) ↔
        Tracked reorderedArrivals x := by
  have hpos : ∀ p : UInt64, .receivedPacket p ∈ reorderedArrivals → 1 ≤ p.toNat := by
    intro p hp
    simp only [reorderedArrivals, List.mem_cons, HistoryOp.receivedPacket.injEq, reduceCtorEq,
      List.not_mem_nil, or_false, false_or] at hp
    rcases hp with rfl | rfl | rfl | rfl | rfl | rfl <;> decide
  have hrun : runHistory reorderedArrivals = .ok ⟨[⟨2, 2⟩, ⟨5, 6⟩, ⟨8, 8⟩], 5⟩ := by
    decide +kernel
  exact ⟨hrun, (history_exact reorderedArrivals hpos hrun).2.2.1⟩

end MultipathQuic
