import Mathlib.Data.List.Chain
import MultipathQuic.AckHandler.SentPacketHandler
import MultipathQuic.Wire.AckAccepted

/-!
# Newly acknowledged packets

The handler walks the packet history and the ranges of an acknowledgement together, from the lowest
number up. For a well-formed acknowledgement and increasing packet numbers, it finds the packets
that the frame acknowledges, and no others.
-/

namespace MultipathQuic

/-- The packet numbers increase. -/
def Increasing (ps : List Packet) : Prop :=
  ps.Pairwise fun p q => p.packetNumber < q.packetNumber

namespace SentPacketHandler

variable {f : AckedPackets} {ps : List Packet}

/-- The packet number lies in one of the ranges. -/
def inRanges (rs : List AckRange) (n : ℕ) : Prop := ∃ r ∈ rs, r.first ≤ n ∧ n ≤ r.last

theorem acksPacket_iff_of_ranges (hne : f.ackRanges ≠ []) {n : ℕ} (hlow : f.lowestAcked ≤ n)
    (hhigh : n ≤ f.largestAcked) : f.acksPacket n = true ↔ inRanges f.ackRanges n := by
  have hmissing : f.hasMissingRanges = true := by
    simpa [AckedPackets.hasMissingRanges, List.length_pos_iff] using hne
  rw [AckedPackets.acksPacket, if_neg (by omega), if_pos hmissing]
  simp [inRanges, List.any_eq_true]

theorem not_acksPacket_of_lt {n : ℕ} (h : n < f.lowestAcked ∨ f.largestAcked < n) :
    f.acksPacket n = false := by
  rw [AckedPackets.acksPacket, if_pos h]

/-- The ranges that the inner loop skips lie below the packet, and the one it stops at reaches up to
the packet or is the last one. -/
theorem skipRanges_spec {n : ℕ} {rs : List AckRange} (hne : rs ≠ []) :
    ∃ skipped r rest, rs = skipped ++ r :: rest ∧ skipRanges n rs = r :: rest ∧
      (∀ x ∈ skipped, x.last < n) ∧ (n ≤ r.last ∨ rest = []) := by
  induction rs with
  | nil => exact absurd rfl hne
  | cons r rs ih =>
    cases rs with
    | nil => exact ⟨[], r, [], rfl, rfl, by simp, Or.inr rfl⟩
    | cons next rs =>
      rw [skipRanges]
      split_ifs with hlt
      · obtain ⟨skipped, x, rest, heq, hskip, hlow, hstop⟩ := ih (by simp)
        refine ⟨r :: skipped, x, rest, by rw [heq]; rfl, hskip, fun y hy => ?_, hstop⟩
        rcases List.mem_cons.mp hy with rfl | hy
        · exact hlt
        · exact hlow y hy
      · exact ⟨[], r, next :: rs, rfl, rfl, by simp, Or.inl (Nat.le_of_not_lt hlt)⟩

/-- The ranges that are left, the lowest first, when the walk has reached the packets `ps`. -/
structure RangesLeft (f : AckedPackets) (rs : List AckRange) (ps : List Packet) : Prop where
  ne_nil : rs ≠ []
  apart : rs.Pairwise fun r r' => r.last < r'.first
  highest : ∀ {rs' r}, rs = rs' ++ [r] → r.last = f.largestAcked
  same : ∀ p ∈ ps, inRanges f.ackRanges p.packetNumber ↔ inRanges rs p.packetNumber

/-- Ranges that are apart from their neighbours are apart, since none of them is empty. -/
theorem pairwise_of_isChain {rs : List AckRange} (hle : ∀ r ∈ rs, r.first ≤ r.last)
    (h : rs.IsChain fun prev r => r.last + 1 < prev.first) :
    rs.Pairwise fun prev r => r.last < prev.first := by
  induction rs with
  | nil => exact List.Pairwise.nil
  | cons r rs ih =>
    have htail := ih (fun x hx => hle x (List.mem_cons_of_mem _ hx)) h.tail
    refine List.pairwise_cons.mpr ⟨fun x hx => ?_, htail⟩
    cases rs with
    | nil => cases hx
    | cons y rs =>
      have hy := (List.isChain_cons_cons.mp h).1
      have hyle := hle y (by simp)
      rcases List.mem_cons.mp hx with rfl | hx
      · omega
      · have := (List.pairwise_cons.mp htail).1 x hx
        omega

theorem rangesLeft_start (hf : f.WellFormed) (hne : f.ackRanges ≠ []) :
    RangesLeft f f.ackRanges.reverse ps := by
  refine ⟨by simpa using hne, ?_, fun {rs' r} heq => ?_, fun p _ => ?_⟩
  · rw [List.pairwise_reverse]
    exact pairwise_of_isChain hf.first_le_last hf.apart
  · have hcons : f.ackRanges = r :: rs'.reverse := by
      rw [← List.reverse_reverse f.ackRanges, heq, List.reverse_append]
      rfl
    exact hf.highest hcons
  · simp [inRanges]

/-- Skipping ranges below a packet leaves the ranges of the packets from there on. -/
theorem RangesLeft.skip {rs skipped rest : List AckRange} {r : AckRange} {p : Packet}
    (h : RangesLeft f rs (p :: ps)) (hps : Increasing (p :: ps))
    (heq : rs = skipped ++ r :: rest) (hlow : ∀ x ∈ skipped, x.last < p.packetNumber) :
    RangesLeft f (r :: rest) (p :: ps) := by
  subst heq
  have hge : ∀ q ∈ p :: ps, p.packetNumber ≤ q.packetNumber := by
    intro q hq
    rcases List.mem_cons.mp hq with rfl | hq
    · exact le_rfl
    · exact ((List.pairwise_cons.mp hps).1 q hq).le
  refine ⟨by simp, (List.pairwise_append.mp h.apart).2.1, fun {rs' x} hx => ?_, fun q hq => ?_⟩
  · have hsnoc : skipped ++ r :: rest = (skipped ++ rs') ++ [x] := by rw [hx, List.append_assoc]
    exact h.highest hsnoc
  · rw [h.same q hq]
    constructor
    · rintro ⟨x, hx, hfirst, hlast⟩
      rcases List.mem_append.mp hx with hx | hx
      · have := hlow x hx
        have := hge q hq
        omega
      · exact ⟨x, hx, hfirst, hlast⟩
    · rintro ⟨x, hx, hin⟩
      exact ⟨x, List.mem_append_right _ hx, hin⟩

theorem RangesLeft.tail {rs : List AckRange} {p : Packet} (h : RangesLeft f rs (p :: ps)) :
    RangesLeft f rs ps :=
  ⟨h.ne_nil, h.apart, h.highest, fun q hq => h.same q (List.mem_cons_of_mem _ hq)⟩

/-- The range at which the inner loop stops decides whether the packet is acknowledged. -/
theorem RangesLeft.acks_iff {rest : List AckRange} {r : AckRange} {p : Packet}
    (h : RangesLeft f (r :: rest) (p :: ps)) (hlast : p.packetNumber ≤ r.last) :
    inRanges f.ackRanges p.packetNumber ↔ r.first ≤ p.packetNumber := by
  rw [h.same p List.mem_cons_self]
  constructor
  · rintro ⟨x, hx, hfirst, -⟩
    rcases List.mem_cons.mp hx with rfl | hx
    · exact hfirst
    · have := (List.pairwise_cons.mp h.apart).1 x hx
      omega
  · intro hfirst
    exact ⟨r, List.mem_cons_self, hfirst, hlast⟩

/-- Once the walk has passed the largest acknowledged number, no packet is acknowledged. -/
theorem filter_acksPacket_eq_nil {p : Packet} (hps : Increasing (p :: ps))
    (hp : f.largestAcked < p.packetNumber) :
    (p :: ps).filter (fun q => f.acksPacket q.packetNumber) = [] := by
  rw [List.filter_eq_nil_iff]
  intro q hq
  have hge : p.packetNumber ≤ q.packetNumber := by
    rcases List.mem_cons.mp hq with rfl | hq
    · exact le_rfl
    · exact ((List.pairwise_cons.mp hps).1 q hq).le
  rw [not_acksPacket_of_lt (Or.inr (by omega))]
  exact Bool.false_ne_true

/-- **The walk finds the acknowledged packets.** -/
theorem newlyAckedFrom_eq (hps : Increasing ps) (closePath : Bool) {rs : List AckRange}
    (hrs : f.ackRanges ≠ [] → RangesLeft f rs ps) :
    newlyAckedFrom f closePath rs ps =
      .ok (ps.filter fun p => f.acksPacket p.packetNumber) := by
  induction ps generalizing rs with
  | nil => rfl
  | cons p ps ih =>
    have htail : Increasing ps := (List.pairwise_cons.mp hps).2
    rw [newlyAckedFrom]
    by_cases hlow : p.packetNumber < f.lowestAcked
    · rw [if_pos hlow, ih htail fun hne => (hrs hne).tail,
        List.filter_cons_of_neg (by simp [not_acksPacket_of_lt (Or.inl hlow)])]
    by_cases hhigh : p.packetNumber > f.largestAcked
    · rw [if_neg hlow, if_pos hhigh, filter_acksPacket_eq_nil hps hhigh]
    rw [if_neg hlow, if_neg hhigh]
    by_cases hne : f.ackRanges = []
    · have hmissing : f.hasMissingRanges = false := by simp [AckedPackets.hasMissingRanges, hne]
      have hacks : f.acksPacket p.packetNumber = true := by
        rw [AckedPackets.acksPacket, if_neg (by omega), if_neg (by simp [hmissing])]
        exact decide_eq_true (by omega)
      rw [if_neg (by simp [hmissing]), ih htail fun hne' => absurd hne hne',
        List.filter_cons_of_pos (by exact hacks)]
      rfl
    · have hmissing : f.hasMissingRanges = true := by
        simpa [AckedPackets.hasMissingRanges, List.length_pos_iff] using hne
      obtain ⟨skipped, r, rest, heq, hskip, hskipped, hstop⟩ := skipRanges_spec (hrs hne).ne_nil
      have hleft := (hrs hne).skip hps heq hskipped
      -- the highest range ends at the largest acknowledged number
      have hlast : p.packetNumber ≤ r.last := by
        rcases hstop with hle | rfl
        · exact hle
        · have : r.last = f.largestAcked := hleft.highest (List.nil_append [r]).symm
          omega
      have hacks := (acksPacket_iff_of_ranges hne (Nat.le_of_not_lt hlow)
        (Nat.le_of_not_lt hhigh)).trans (hleft.acks_iff hlast)
      rw [if_pos hmissing, hskip]
      dsimp only
      rw [ih htail fun _ => hleft.tail]
      by_cases hfirst : p.packetNumber ≥ r.first
      · rw [if_pos hfirst, if_neg (by omega), List.filter_cons_of_pos (by exact hacks.mpr hfirst)]
        rfl
      · rw [if_neg hfirst, List.filter_cons_of_neg (by exact fun h => hfirst (hacks.mp h))]

variable {h : SentPacketHandler}

theorem determineNewlyAckedPackets_eq (hinc : Increasing h.packetHistory) (hf : f.WellFormed) :
    h.determineNewlyAckedPackets f =
      .ok (h.packetHistory.filter fun p => f.acksPacket p.packetNumber) :=
  newlyAckedFrom_eq hinc false (rangesLeft_start hf)

theorem determineNewlyAckedPacketsClosePath_eq (hinc : Increasing h.packetHistory)
    (hf : f.WellFormed) :
    h.determineNewlyAckedPacketsClosePath f =
      .ok (h.packetHistory.filter fun p => f.acksPacket p.packetNumber) :=
  newlyAckedFrom_eq hinc true (rangesLeft_start hf)

end SentPacketHandler

/-- **The newly acknowledged packets are those of the history that the frame acknowledges,** in order
and without an error, for every frame that is well formed, as all frames are that were parsed. -/
theorem newlyAcked_exact {h : SentPacketHandler} (hinc : Increasing h.packetHistory) :
    (∀ f : AckFrame, f.WellFormed → h.determineNewlyAckedPackets f.toAckedPackets =
      .ok (h.packetHistory.filter fun p => f.acksPacket p.packetNumber)) ∧
    (∀ f : ClosePathFrame, f.WellFormed →
      h.determineNewlyAckedPacketsClosePath f.toAckedPackets =
        .ok (h.packetHistory.filter fun p => f.acksPacket p.packetNumber)) ∧
    (∀ version (f : AckFrame) bs rest, (parseAckFrame version).run bs = .ok (f, rest) →
      f.WellFormed) ∧
    ∀ version (f : ClosePathFrame) bs rest, (parseClosePathFrame version).run bs = .ok (f, rest) →
      f.WellFormed :=
  ⟨fun _ hf => SentPacketHandler.determineNewlyAckedPackets_eq hinc hf,
    fun _ hf => SentPacketHandler.determineNewlyAckedPacketsClosePath_eq hinc hf,
    fun _ _ _ _ hparse => wellFormed_of_parseAckFrame hparse,
    fun _ _ _ _ hparse => wellFormed_of_parseClosePathFrame hparse⟩

/-- A handler with the packets 1, 2, 4, 5 and 7 in flight. -/
def gappedHistory : SentPacketHandler :=
  { newSentPacketHandler with
    packetHistory := [1, 2, 4, 5, 7].map fun n => ⟨n, [.ping], 100, .forwardSecure, 0⟩ }

/-- Of these packets, 2 and 5 lie in the ranges from 2 to 3 and from 5 to 6. -/
theorem newlyAcked_gappedHistory :
    (∃ bs rest, (parseAckFrame 39).run bs = .ok (⟨⟨6, 2, [⟨5, 6⟩, ⟨2, 3⟩]⟩, 0, 0⟩, rest)) ∧
      gappedHistory.determineNewlyAckedPackets ⟨6, 2, [⟨5, 6⟩, ⟨2, 3⟩]⟩ =
        .ok (gappedHistory.packetHistory.filter fun p => p.packetNumber = 2 ∨ p.packetNumber = 5) := by
  have hinc : Increasing gappedHistory.packetHistory := by
    unfold Increasing
    decide
  have hparse : (parseAckFrame 39).run [0x60, 6, 0, 0, 1, 2, 1, 2, 0] =
      .ok (⟨⟨6, 2, [⟨5, 6⟩, ⟨2, 3⟩]⟩, 0, 0⟩, []) := by
    decide +kernel
  obtain ⟨hack, -, hwell, -⟩ := newlyAcked_exact hinc
  refine ⟨⟨_, _, hparse⟩, (hack _ (hwell _ _ _ _ hparse)).trans ?_⟩
  decide +kernel

end MultipathQuic
