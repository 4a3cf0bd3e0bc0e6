import MultipathQuic.Scheduler.Completion
import MultipathQuic.Scheduler.RoundRobin

/-!
# The next turns of a stream

`bytesUntilCompletion` returns the data of the stream alone if `lowestQuantum` packets cover it, as
the stream should then get the next turns. But `lowestQuantum` is always 256, whatever is left of the
quanta on the way to the stream. If all active streams have data and may send, the next turns are
those of the stream exactly as long as every node on the way to it has a quantum left, or has no
siblings.

## Main definitions

* `Backlogged`: all active streams have data
* `packetsLeft`: the packets that the rest of a stream takes

## Main results

* `shortcut_iff`: when the stream gets the next turns
-/

namespace MultipathQuic

open Function Forest

namespace StreamScheduler

variable {view view' : ℕ → StreamView} {s s' t t' : StreamScheduler} {n p c x m : ℕ}

/-- No stream of the tree is finished, and the active streams have data and may send; the header
stream apart, which never closes. -/
@[mk_iff]
structure Backlogged (view : ℕ → StreamView) (s : StreamScheduler) : Prop where
  unfinished : Unfinished view s
  window : ∀ n < s.size, n ≠ 0 → (s.node n).state = .active → s.hasWindow view n
  data : ∀ n < s.size, n ≠ 0 → (s.node n).state = .active → s.hasData view n

instance (view : ℕ → StreamView) (s : StreamScheduler) : Decidable (Backlogged view s) :=
  decidable_of_iff' _ (backlogged_iff view s)

/-- The parent of the node has no other child in its list. -/
def onlyChild (s : StreamScheduler) (x : ℕ) : Prop :=
  ((s.parent x).map fun p => (s.node p).children.length) = some 1

instance (s : StreamScheduler) : DecidablePred s.onlyChild := fun _ =>
  inferInstanceAs (Decidable (_ = _))

theorem SameShape.backlogged (h : SameShape s s') (hlog : Backlogged view s) :
    Backlogged view s' where
  unfinished := by
    intro n hn hatt hfin
    rw [h.size_eq] at hn
    rw [h.attached_iff] at hatt
    exact hlog.unfinished n hn hatt ((h.finished_iff n).mp hfin)
  window n hn h0 hactive := by
    rw [h.size_eq] at hn
    rw [h.state_eq] at hactive
    exact (h.hasWindow_iff n).mpr (hlog.window n hn h0 hactive)
  data n hn h0 hactive := by
    rw [h.size_eq] at hn
    rw [h.state_eq] at hactive
    exact (h.hasData_iff n).mpr (hlog.data n hn h0 hactive)

theorem SameShape.onlyChild_iff (h : SameShape s s') (x : ℕ) :
    s'.onlyChild x ↔ s.onlyChild x := by
  unfold onlyChild
  rw [h.parent_eq]
  simp only [h.children_eq]

/-- Every branch of the tree has a stream that can send. -/
theorem Backlogged.not_barren (hlog : Backlogged view s) (h : Tree s) (hatt : s.attached c)
    (hc : s.parent c = some p) : ¬ Barren view s c := by
  intro hbarren
  obtain ⟨m, hm, hcm⟩ := h.toWired.exists_active hatt
  have hlt : m < s.size := h.lt_size_of_above hcm (h.lt_size hc).1
  have hm0 : m ≠ 0 := by
    rintro rfl
    exact h.ne_zero hc (eq_of_above_of_none h.root hcm)
  refine hbarren m hcm ⟨Or.inr (Or.inl hm), hlog.window m hlt hm0 hm, ?_⟩
  split
  · exact hlog.data m hlt hm0 hm
  · exact hm

/-- The streams that can send are those that are active, whatever their data. -/
theorem Backlogged.ready_iff (hlog : Backlogged view s) (hlog' : Backlogged view' s)
    (hid : ∀ x < s.size, x ≠ 0 → (s.node x).id ≠ 0) (hx : x < s.size) (h0 : x ≠ 0) :
    s.ready view' x ↔ s.ready view x := by
  have hiff : ∀ {v}, Backlogged v s → (s.ready v x ↔ (s.node x).state = .active) := by
    intro v hv
    unfold ready
    rw [if_neg (hid x hx h0)]
    exact ⟨fun h => h.2.2, fun h => ⟨Or.inr (Or.inl h), hv.window x hx h0 h, h⟩⟩
  rw [hiff hlog, hiff hlog']

/-! ## The current stream -/

/-- `n` is the stream that the last call has returned: on the way to it, a node with a quantum left
is the next one in the list of its parent, and a node without is the last one. -/
structure Current (view : ℕ → StreamView) (t : StreamScheduler) (n : ℕ) : Prop where
  tree : Tree t
  above : Above t.parent 0 n
  ready : t.ready view n
  passed : ∀ x, Above t.parent x n → x ≠ n → ¬ t.ready view x
  quantum_lt : ∀ {x p}, t.parent x = some p → Above t.parent x n → (t.node x).quantum < 2 ^ 16
  turn : ∀ {x p}, t.parent x = some p → Above t.parent x n → ∃ rest,
    t.ring p = if (t.node x).quantum = 0 then rest ++ [x] else x :: rest

theorem Found.current (h : Found view s t 0 n) (hs : Tree s) (ht : Tree t)
    (hid : n ≠ 0 → (s.node n).id ≠ 0) : Current view t n := by
  have hroot : ∀ {x}, Above s.parent x n → Above s.parent 0 x := by
    intro x hx
    rcases h.above.total hx with hx0 | h0x
    · rw [eq_of_above_of_none hs.root hx0]
    · exact h0x
  refine ⟨ht, ?_, (h.ready_iff n).mpr h.ready, fun x hx hne => ?_, fun {x p} hp hx => ?_,
    fun {x p} hp hx => ?_⟩
  · rw [h.parent_eq]
    exact h.above
  · rw [h.parent_eq] at hx
    rw [h.ready_iff]
    exact h.passed x (hroot hx) hx hne
  · rw [h.parent_eq] at hp hx
    rw [h.served x (hroot hx) hx fun hxn => hid (hxn ▸ hs.ne_zero hp)]
    exact sub16_lt _ _
  · rw [h.parent_eq] at hp hx
    obtain ⟨before, after, -, -, hring⟩ := h.ring_on hp (hroot ((above_parent hp).trans hx)) hx
    refine ⟨after ++ before, ?_⟩
    rw [hring]

theorem Current.lt_size (h : Current view t n) : n < t.size :=
  h.tree.lt_size_of_above h.above h.tree.size_pos

/-- A node whose quantum is used up stays the current one only if it has no siblings. -/
def stays (t : StreamScheduler) (n : ℕ) : Prop :=
  ∀ x, Above t.parent x n → x ≠ 0 → t.onlyChild x ∨ (t.node x).quantum ≠ 0

theorem onlyChild_iff (hp : t.parent x = some p) :
    t.onlyChild x ↔ (t.node p).children.length = 1 := by
  unfold onlyChild
  rw [hp, Option.map_some, Option.some.injEq]

/-- A node whose quantum is used up stays the current one only if no sibling has a stream below it
that is ready. -/
def staysAhead (view : ℕ → StreamView) (t : StreamScheduler) (n : ℕ) : Prop :=
  ∀ x, Above t.parent x n → x ≠ 0 → (t.node x).quantum ≠ 0 ∨
    ∀ p, t.parent x = some p → ∀ d ∈ (t.node p).children, d ≠ x → Barren view t d

/-- If the current stream stays, a search finds it. -/
theorem Current.eq_of_found (h : Current view t n)
    (hready : ∀ x < t.size, (t.ready view' x ↔ t.ready view x)) (hstays : t.staysAhead view' n)
    (hfound : Found view' t t' 0 m) : m = n := by
  have hmlt : m < t.size := h.tree.lt_size_of_above hfound.above h.tree.size_pos
  have hm : t.ready view m := (hready m hmlt).mp hfound.ready
  have hn : t.ready view' n := (hready n h.lt_size).mpr h.ready
  by_contra hne
  by_cases hmn : Above t.parent m n
  · exact h.passed m hmn hne hm
  by_cases hnm : Above t.parent n m
  · exact hfound.passed n h.above hnm (Ne.symm hne) hn
  -- otherwise the ways to the two streams part below some node, where the way to `n` comes first
  have h0m : Above t.parent 0 m := hfound.above
  obtain ⟨p, c, d, hc, hd, hcd, hcm, hdn⟩ :=
    exists_parting h0m h.above (Above.refl m) hmn hnm
  have h0p : Above t.parent 0 p := h.tree.above_root (h.tree.lt_size hc).2
  obtain ⟨before, after, hring, hbarren, -⟩ := hfound.ring_on hc h0p hcm
  obtain ⟨rest, hturn⟩ := h.turn hd hdn
  have hcmem : c ∈ (t.node p).children := by
    rw [← mem_ring, hring]
    exact List.mem_append_right _ List.mem_cons_self
  have hquantum : (t.node d).quantum ≠ 0 :=
    (hstays d hdn (h.tree.ne_zero hd)).resolve_right fun hall =>
      hall p hd c hcmem hcd m hcm hfound.ready
  rw [if_neg hquantum, hring] at hturn
  cases before with
  | nil => exact hcd (List.cons.inj hturn).1
  | cons y before =>
    have hyd : y = d := (List.cons.inj hturn).1
    exact hbarren d (hyd ▸ List.mem_cons_self) n hdn hn

theorem Current.exists_parent (h : Current view t n) (hx : Above t.parent x n) (h0 : x ≠ 0) :
    ∃ p, t.parent x = some p := by
  have h0x : Above t.parent 0 x := by
    rcases h.above.total hx with hx0 | h0x
    · exact absurd (eq_of_above_of_none h.tree.root hx0) h0
    · exact h0x
  obtain ⟨p, hp, -⟩ := h.tree.exists_parent (h.tree.lt_size_of_above h0x h.tree.size_pos) h0
  exact ⟨p, hp⟩

/-- A current stream that is found again stays. -/
theorem Current.staysAhead_of_found (h : Current view t n) (hfound : Found view' t t' 0 n) :
    t.staysAhead view' n := by
  intro x hx h0
  by_cases hzero : (t.node x).quantum = 0
  · right
    intro p hp d hd hdx
    have h0p : Above t.parent 0 p := h.tree.above_root (h.tree.lt_size hp).2
    obtain ⟨before, after, hring, hbarren, -⟩ := hfound.ring_on hp h0p hx
    obtain ⟨rest, hturn⟩ := h.turn hp hx
    rw [if_pos hzero] at hturn
    -- the node is the last one of the ring, so that all its siblings have been visited in vain
    have hnodup : (t.ring p).Nodup := List.nodup_rotate.mpr (h.tree.listing.nodup p)
    have hrest : x ∉ rest := by
      rw [hturn] at hnodup
      exact fun hmem => List.disjoint_of_nodup_append hnodup hmem List.mem_cons_self
    obtain ⟨hsame, -, -⟩ := (List.append_cons_inj_of_notMem hrest List.not_mem_nil).mp
      (hturn.symm.trans hring)
    rw [← mem_ring, hturn, List.mem_append, List.mem_singleton] at hd
    exact hbarren d (hsame ▸ hd.resolve_right hdx)
  · exact Or.inl hzero

/-- If every branch has a stream that can send, only a node without siblings stays when its quantum is
used up. -/
theorem Current.staysAhead_iff (h : Current view t n) (hlog : Backlogged view' t) :
    t.staysAhead view' n ↔ t.stays n := by
  refine forall₃_congr fun x hx h0 => ?_
  obtain ⟨p, hp⟩ := h.exists_parent hx h0
  rw [or_comm]
  refine or_congr_left ?_
  have hmem : x ∈ (t.node p).children := by
    obtain ⟨rest, hturn⟩ := h.turn hp hx
    rw [← mem_ring, hturn]
    split <;> simp
  rw [onlyChild_iff hp]
  constructor
  · intro hall
    have hself : ∀ d ∈ (t.node p).children, d = x := by
      intro d hd
      by_contra hdx
      obtain ⟨hatt, hdp⟩ := h.tree.toWired.mem_iff.mp hd
      exact hlog.not_barren h.tree hatt hdp (hall p hp d hd hdx)
    have hnodup := h.tree.listing.nodup p
    rw [List.eq_replicate_of_mem hself, List.nodup_replicate] at hnodup
    have hpos := List.length_pos_of_mem hmem
    omega
  · intro hone p' hp' d hd hdx
    cases hp.symm.trans hp'
    obtain ⟨y, hy⟩ := List.length_eq_one_iff.mp hone
    rw [hy, List.mem_singleton] at hd hmem
    exact absurd (hd.trans hmem.symm) hdx

/-- The next call returns the current stream iff it stays, and uses up one quantum on the way. -/
theorem Current.schedule (h : Current view t n) (hlog : Backlogged view' t)
    (hready : ∀ x < t.size, (t.ready view' x ↔ t.ready view x))
    (hid : n ≠ 0 → (t.node n).id ≠ 0) :
    ∃ r t', t.schedule view' = some (some r, t') ∧ (r = n ↔ t.stays n) ∧
      (r = n → SameShape t t' ∧ Current view' t' n ∧
        ∀ x, Above t.parent x n → x ≠ 0 → (t.node x).quantum ≠ 0 →
          (t'.node x).quantum = (t.node x).quantum - 1) := by
  rcases h.tree.schedule_search hlog.unfinished with
    ⟨hbarren, -⟩ | ⟨r, t', ht', hfound, heq⟩
  · exact absurd ((hready n h.lt_size).mpr h.ready) (hbarren n h.above)
  refine ⟨r, t', heq, ?_, ?_⟩
  · rw [← h.staysAhead_iff hlog]
    refine ⟨?_, fun hstays => h.eq_of_found hready hstays hfound⟩
    rintro rfl
    exact h.staysAhead_of_found hfound
  · rintro rfl
    refine ⟨hfound.toSameShape, hfound.current h.tree ht' hid, fun x hx h0 hquantum => ?_⟩
    obtain ⟨p, hp⟩ := h.exists_parent hx h0
    have h0x := h.tree.above_root (h.tree.lt_size hp).1
    have hdue : t.due x = (t.node x).quantum := if_neg hquantum
    rw [hfound.served x h0x hx fun hxr => hid (hxr ▸ h0), hdue,
      sub16_of_le (Nat.one_le_iff_ne_zero.mpr hquantum) (h.quantum_lt hp hx)]

/-- **The next calls return the current stream iff every node on the way to it has as many quanta
left, or no siblings.** -/
theorem Current.schedules_iff {views : List (ℕ → StreamView)} (h : Current view t n)
    (hlog : ∀ v ∈ views, Backlogged v t)
    (hready : ∀ v ∈ views, ∀ x < t.size, (t.ready v x ↔ t.ready view x))
    (hid : n ≠ 0 → (t.node n).id ≠ 0) :
    (∃ u, t.schedules views = some (List.replicate views.length (some n), u)) ↔
      ∀ x, Above t.parent x n → x ≠ 0 → t.onlyChild x ∨ views.length ≤ (t.node x).quantum := by
  induction views generalizing t view with
  | nil => exact iff_of_true ⟨t, rfl⟩ fun x _ _ => Or.inr (Nat.zero_le _)
  | cons v views ih =>
    obtain ⟨hlogv, hlog⟩ := List.forall_mem_cons.mp hlog
    obtain ⟨hreadyv, hready⟩ := List.forall_mem_cons.mp hready
    obtain ⟨r, t', heq, hstays, hnext⟩ := h.schedule hlogv hreadyv hid
    have hcalls : (∃ u, t.schedules (v :: views) =
        some (List.replicate (v :: views).length (some n), u)) ↔
          r = n ∧ ∃ u, t'.schedules views = some (List.replicate views.length (some n), u) := by
      rw [StreamScheduler.schedules, heq, List.length_cons, List.replicate_succ]
      simp only [Option.bind_eq_bind, Option.bind_some]
      cases hrest : t'.schedules views with
      | none => simp
      | some q => simp [Prod.ext_iff, eq_comm]
    -- a call that returns the stream has used up one quantum of each node on the way
    have hrest : r = n →
        ((∃ u, t'.schedules views = some (List.replicate views.length (some n), u)) ↔
          ∀ x, Above t.parent x n → x ≠ 0 →
            t.onlyChild x ∨ views.length + 1 ≤ (t.node x).quantum) := by
      intro hr
      obtain ⟨hshape, hcurrent, hquantum⟩ := hnext hr
      have hready' : ∀ v' ∈ views, ∀ x < t'.size, (t'.ready v' x ↔ t'.ready v x) := by
        intro v' hv' x hx
        rw [hshape.size_eq] at hx
        rw [hshape.ready_iff, hshape.ready_iff, hready v' hv' x hx, hreadyv x hx]
      rw [ih hcurrent (fun v' hv' => hshape.backlogged (hlog v' hv')) hready'
        (by rwa [hshape.id_eq]), hshape.parent_eq]
      refine forall_congr' fun x => forall_congr' fun hx => forall_congr' fun h0 => ?_
      rw [hshape.onlyChild_iff]
      refine or_congr_right' fun honly => ?_
      have hleft := ((hstays.mp hr) x hx h0).resolve_left honly
      rw [hquantum x hx h0 hleft]
      omega
    rw [hcalls, List.length_cons]
    constructor
    · rintro ⟨hr, hcalls'⟩
      exact (hrest hr).mp hcalls'
    · intro hall
      have hr : r = n := hstays.mpr fun x hx h0 => (hall x hx h0).imp_right fun hle => by omega
      exact ⟨hr, (hrest hr).mpr hall⟩

end StreamScheduler

open StreamScheduler (remainder Backlogged)
open SchedulerRun (run Sound)
open SchedulerOp

/-- The number of packets that the rest of a stream takes. -/
def packetsLeft (len : ℕ) : ℕ := (remainder len + (maxPacketSize - 1)) / maxPacketSize

/-- **If the quanta that `bytesUntilCompletion` assumes cover the rest of the stream, the estimate is
the data of the stream, and the next calls all return the stream iff** every node on the way to it
has as many quanta left, or no siblings. -/
theorem shortcut_iff {ops : List SchedulerOp} (h : Sound ops) {s : StreamScheduler}
    (hs : run ops = some s) (hids : ∀ x < s.size, x ≠ 0 → (s.node x).id ≠ 0)
    (view : ℕ → StreamView) (views : List (ℕ → StreamView))
    (hlog : ∀ v ∈ view :: views, Backlogged v s)
    (hheader : ∀ v ∈ views, (s.ready v 0 ↔ s.ready view 0)) {n id : ℕ} {t : StreamScheduler}
    (hcall : s.schedule view = some (some n, t)) (hid : (t.node n).stream = some id)
    (hcover : remainder (view id).lenOfDataForWriting ≤
      (t.node n).lowestQuantum * maxPacketSize)
    (hviews : views.length = packetsLeft (view id).lenOfDataForWriting) :
    t.bytesUntilCompletion view n = some (view id).lenOfDataForWriting ∧
      ((∃ u, t.schedules views =
          some (List.replicate (packetsLeft (view id).lenOfDataForWriting) (some n), u)) ↔
        ∀ x ∈ t.path n, x ≠ 0 →
          t.onlyChild x ∨ packetsLeft (view id).lenOfDataForWriting ≤ (t.node x).quantum) := by
  obtain ⟨s', hs', htree, hunscaled⟩ := SchedulerRun.unscaled h
  rw [hs] at hs'
  cases hs'
  obtain ⟨hlogv, hlog⟩ := List.forall_mem_cons.mp hlog
  have hest := (htree.estimable hlogv.unfinished.calm hunscaled hcall).2
  have hquanta : mul64 256 maxPacketSize = 256 * maxPacketSize := by decide +kernel
  rw [hest.lowestQuantum] at hcover
  refine ⟨?_, ?_⟩
  · rw [StreamScheduler.bytesUntilCompletion_eq hid, hest.lowestQuantum, hquanta,
      if_pos (Or.inl hcover)]
  · rcases htree.schedule_search hlogv.unfinished with
      ⟨-, t', -, -, hnone⟩ | ⟨m, t', ht, hfound, hsome⟩
    · rw [hcall] at hnone
      cases hnone
    rw [hcall] at hsome
    cases hsome
    have hshape := hfound.toSameShape
    have hlt : n < s.size := htree.lt_size_of_above hfound.above htree.size_pos
    have hidn : n ≠ 0 → (s.node n).id ≠ 0 := hids n hlt
    have hready : ∀ v ∈ views, ∀ x < t.size, (t.ready v x ↔ t.ready view x) := by
      intro v hv x hx
      rw [hshape.size_eq] at hx
      rw [hshape.ready_iff, hshape.ready_iff]
      by_cases h0 : x = 0
      · rw [h0]
        exact hheader v hv
      · exact hlogv.ready_iff (hlog v hv) hids hx h0
    rw [← hviews, (hfound.current htree ht hidn).schedules_iff (fun v hv => hshape.backlogged (hlog v hv))
      hready (by rwa [hshape.id_eq])]
    simp only [ht.toWired.mem_path]

/-- Every stream has a window and two packets to send. -/
def twoPackets : ℕ → StreamView := fun _ => ⟨1000, false, 2700⟩

/-- Two streams of equal weight. -/
def equalStreams (weight : UInt8) : List SchedulerOp :=
  [addNode 5, addNode 7, maybeSetWeight 5 weight, maybeSetWeight 7 weight, setActive 5, setActive 7]

theorem equalStreams_shortcut :
    ∃ s t u, Sound (equalStreams 3) ∧ run (equalStreams 3) = some s ∧
      s.schedule twoPackets = some (some 1, t) ∧ t.bytesUntilCompletion twoPackets 1 = some 2700 ∧
        t.schedules [twoPackets] = some ([some 1], u) := by
  have hsound : Sound (equalStreams 3) := by decide +kernel
  obtain ⟨s, heq, hids, hlog, ⟨strm, t⟩, hcall, hr, hid, hlowest, hpath⟩ :
      ∃ s ∈ run (equalStreams 3), (∀ x < s.size, x ≠ 0 → (s.node x).id ≠ 0) ∧
        Backlogged twoPackets s ∧ ∃ r ∈ s.schedule twoPackets, r.1 = some 1 ∧
          (r.2.node 1).stream = some 5 ∧ (r.2.node 1).lowestQuantum = 256 ∧
            ∀ x ∈ r.2.path 1, x ≠ 0 → r.2.onlyChild x ∨ 1 ≤ (r.2.node x).quantum := by
    decide +kernel
  cases hr
  have hlen : packetsLeft 2700 = 1 := by decide +kernel
  have hcover : remainder 2700 ≤ (t.node 1).lowestQuantum * maxPacketSize := by
    rw [hlowest]
    decide +kernel
  obtain ⟨hest, hiff⟩ := shortcut_iff hsound heq hids twoPackets [twoPackets] (by simp [hlog])
    (by simp) hcall hid hcover hlen.symm
  obtain ⟨u, hu⟩ := hiff.mpr fun x hx h0 => (hpath x hx h0).imp_right fun hle => hlen.trans_le hle
  change t.schedules [twoPackets] = some (List.replicate (packetsLeft 2700) (some 1), u) at hu
  rw [hlen] at hu
  exact ⟨s, t, u, hsound, heq, hcall, hest, hu⟩

/-- **The next turn is not that of stream 5, although one packet is left of it and `lowestQuantum` is
256.** -/
theorem lightStreams_alternate :
    ∃ s t u, Sound (equalStreams 0) ∧ run (equalStreams 0) = some s ∧
      s.schedule twoPackets = some (some 1, t) ∧ t.openStreams = 2 ∧ Backlogged twoPackets t ∧
        remainder 2700 ≤ (t.node 1).lowestQuantum * maxPacketSize ∧
        t.bytesUntilCompletion twoPackets 1 = some 2700 ∧ packetsLeft 2700 = 1 ∧
        t.schedule twoPackets = some (some 2, u) := by
  have hsound : Sound (equalStreams 0) := by decide +kernel
  obtain ⟨s, heq, ⟨strm, t⟩, hcall, hr, hopen, hlog, hcover, hest, hlen, ⟨strm', u⟩, hnext, hr'⟩ :
      ∃ s ∈ run (equalStreams 0), ∃ r ∈ s.schedule twoPackets, r.1 = some 1 ∧
        r.2.openStreams = 2 ∧ Backlogged twoPackets r.2 ∧
        remainder 2700 ≤ (r.2.node 1).lowestQuantum * maxPacketSize ∧
        r.2.bytesUntilCompletion twoPackets 1 = some 2700 ∧ packetsLeft 2700 = 1 ∧
        ∃ q ∈ r.2.schedule twoPackets, q.1 = some 2 := by
    decide +kernel
  cases hr
  cases hr'
  exact ⟨s, t, u, hsound, heq, hcall, hopen, hlog, hcover, hest, hlen, hnext⟩

end MultipathQuic
