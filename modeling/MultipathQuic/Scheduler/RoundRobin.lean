import MultipathQuic.Scheduler.Membership
import MultipathQuic.Scheduler.Search

/-!
# Hierarchical weighted round robin

In a tree in which all leaves can send, interior nodes are idle and the header stream has no data, a
call of `schedule` descends from the root to one leaf: no child that it visits lets it down. On its
way it takes one quantum from every node, and a node whose quantum is used up lets its parent turn to
the next child. So every node sees the calls that pass it as the turns of one wheel, whatever happens
elsewhere in the tree.

## Main definitions

* `Dependencies`, `Saturated`: the trees and the streams
* `wheel`, `turnsOf`: the children of a node as a wheel, and the turns they got

## Main results

* `schedule_calls`: one call
* `weightedRoundRobin`: every node serves its children by weighted round robin
-/

namespace MultipathQuic

open Function Forest

/-- The fields of a node that scheduling leaves alone as long as no stream finishes, the stream and
the state apart. -/
def Node.frozen (node : Node) : Node :=
  { node with
    stream := none, state := .idle, quantum := 0, nextChild := 0, lowestQuantum := 0
    numerator := 0, denominator := 0 }

namespace StreamScheduler

variable {view : ℕ → StreamView} {s s' s'' t : StreamScheduler} {n p q c x a m fuel : ℕ}

/-- Only the root has the ID 0, interior nodes are idle, and quanta are 16-bit integers. -/
@[mk_iff]
structure IdleInside (s : StreamScheduler) : Prop where
  rootID : (s.node 0).id = 0
  streamID : ∀ n < s.size, n ≠ 0 → (s.node n).id ≠ 0
  quantum_lt : ∀ n < s.size, (s.node n).quantum < 2 ^ 16
  idle : ∀ n < s.size, n ≠ 0 → (s.node n).children ≠ [] → (s.node n).state = .idle

/-- A dependency tree whose interior nodes are idle, with any quanta. -/
structure Dependencies (s : StreamScheduler) : Prop extends Tree s, IdleInside s

/-- The header stream has no data, and the streams of all leaves are unfinished and can send. -/
@[mk_iff]
structure LeavesReady (view : ℕ → StreamView) (s : StreamScheduler) : Prop where
  header : ¬ s.hasData view 0
  leaf : ∀ n < s.size, n ≠ 0 → s.attached n → (s.node n).children = [] →
    s.hasWindow view n ∧ ¬ s.finished view n

/-- The streams of interior nodes are unfinished as well. In a session they are if the nodes are idle
(`SendRun.saturated_iff`). -/
@[mk_iff]
structure Saturated (view : ℕ → StreamView) (s : StreamScheduler) : Prop
    extends LeavesReady view s where
  interior : ∀ n < s.size, n ≠ 0 → s.attached n → (s.node n).children ≠ [] →
    ¬ s.finished view n

instance (s : StreamScheduler) : Decidable (IdleInside s) :=
  decidable_of_iff' _ (idleInside_iff s)

instance (view : ℕ → StreamView) (s : StreamScheduler) : Decidable (LeavesReady view s) :=
  decidable_of_iff' _ (leavesReady_iff view s)

instance (view : ℕ → StreamView) (s : StreamScheduler) : Decidable (Saturated view s) :=
  decidable_of_iff' _ (saturated_iff view s)

theorem Saturated.unfinished (h : Saturated view s) (hn : n < s.size) (h0 : n ≠ 0)
    (hatt : s.attached n) : ¬ s.finished view n := by
  by_cases hleaf : (s.node n).children = []
  · exact (h.leaf n hn h0 hatt hleaf).2
  · exact h.interior n hn h0 hatt hleaf

/-! ## Similar trees -/

/-- The trees are the same, up to quanta and positions, and the header stream may have been
closed. -/
structure Similar (s s' : StreamScheduler) : Prop where
  size_eq : s'.size = s.size
  nodeMap_eq : s'.nodeMap = s.nodeMap
  frozen_eq : ∀ x, (s'.node x).frozen = (s.node x).frozen
  state_eq : ∀ x ≠ 0, (s'.node x).state = (s.node x).state
  stream_eq : ∀ x, (s'.node x).stream = (s.node x).stream ∨ x = 0 ∧ (s'.node x).stream = none

theorem SameShape.similar (h : SameShape s s') : Similar s s' where
  size_eq := h.size_eq
  nodeMap_eq := h.nodeMap_eq
  frozen_eq x := (congrArg Node.frozen (h.shape_eq x) : _)
  state_eq x _ := h.state_eq x
  stream_eq x := Or.inl (h.stream_eq x)

namespace Similar

theorem parent_eq (h : Similar s s') : s'.parent = s.parent :=
  funext fun x => (congrArg Node.parent (h.frozen_eq x) : _)

theorem children_eq (h : Similar s s') (x : ℕ) : (s'.node x).children = (s.node x).children :=
  (congrArg Node.children (h.frozen_eq x) : _)

theorem activeChildren_eq (h : Similar s s') (x : ℕ) :
    (s'.node x).activeChildren = (s.node x).activeChildren :=
  (congrArg Node.activeChildren (h.frozen_eq x) : _)

theorem id_eq (h : Similar s s') (x : ℕ) : (s'.node x).id = (s.node x).id :=
  (congrArg Node.id (h.frozen_eq x) : _)

theorem share_eq (h : Similar s s') : s'.share = s.share := by
  funext x
  have hweight : (s'.node x).weight = (s.node x).weight :=
    (congrArg Node.weight (h.frozen_eq x) : _)
  rw [share, share, hweight]

theorem attached_iff (h : Similar s s') (hx : x ≠ 0) : s'.attached x ↔ s.attached x := by
  unfold attached
  rw [h.state_eq x hx, h.activeChildren_eq]

theorem of_finished (h : Similar s s') (hx : s'.finished view x) : s.finished view x := by
  obtain ⟨id, hid, hfin⟩ := hx
  rcases h.stream_eq x with heq | ⟨-, hnone⟩
  · exact ⟨id, heq.symm.trans hid, hfin⟩
  · rw [hnone] at hid
    cases hid

theorem saturated (h : Similar s s') (hv : Saturated view s) : Saturated view s' := by
  refine ⟨⟨fun ⟨id, hid, hdata⟩ => ?_, fun n hn h0 hatt hleaf => ?_⟩, fun n hn h0 hatt _ hfin => ?_⟩
  · rcases h.stream_eq 0 with heq | ⟨-, hnone⟩
    · exact hv.header ⟨id, heq.symm.trans hid, hdata⟩
    · rw [hnone] at hid
      cases hid
  · rw [h.size_eq] at hn
    rw [h.children_eq] at hleaf
    obtain ⟨⟨id, hid, hwindow⟩, hfin⟩ := hv.leaf n hn h0 ((h.attached_iff h0).mp hatt) hleaf
    refine ⟨?_, fun hfin' => hfin (h.of_finished hfin')⟩
    rcases h.stream_eq n with heq | ⟨hroot, -⟩
    · exact ⟨id, heq.trans hid, hwindow⟩
    · exact absurd hroot h0
  · rw [h.size_eq] at hn
    exact hv.unfinished hn h0 ((h.attached_iff h0).mp hatt) (h.of_finished hfin)

/-- A similar tree with positions in range is a tree. -/
theorem tree (h : Similar s s') (ht : Tree s)
    (hnext : ∀ x, (s'.node x).nextChild < (s'.node x).children.length ∨
      (s'.node x).nextChild = 0) : Tree s' := by
  have hcanon : s'.canon s'.parent = s.canon s.parent := by
    rw [h.parent_eq]
    funext x
    by_cases hx : x = 0
    · -- the root is in no list, whatever its state is
      have hnone : ∀ u : StreamScheduler, u.canon s.parent 0 = none := by
        intro u
        unfold canon
        rw [ht.root, ite_self]
      rw [hx, hnone, hnone]
    · exact canon_apply_congr (h.attached_iff hx)
  have hl := ht.listing
  refine ht.of_listing h.parent_eq h.size_eq h.nodeMap_eq ?_
  rw [hcanon]
  refine ⟨fun p n => ?_, fun p => ?_, hnext, fun hn => ?_, ?_⟩
  · rw [h.children_eq]
    exact hl.count p n
  · rw [h.children_eq, h.activeChildren_eq]
    exact hl.active p
  · rw [h.size_eq]
    exact hl.bound hn
  · rw [h.size_eq]
    exact hl.size_le

theorem idleInside (h : Similar s s') (hi : IdleInside s)
    (hq : ∀ x < s'.size, (s'.node x).quantum < 2 ^ 16) : IdleInside s' := by
  refine ⟨?_, fun n hn h0 => ?_, hq, fun n hn h0 hne => ?_⟩
  · rw [h.id_eq]
    exact hi.rootID
  · rw [h.size_eq] at hn
    rw [h.id_eq]
    exact hi.streamID n hn h0
  · rw [h.size_eq] at hn
    rw [h.children_eq] at hne
    rw [h.state_eq n h0]
    exact hi.idle n hn h0 hne

end Similar

/-! ## Trees without barren nodes -/

theorem Dependencies.due_lt (h : Dependencies s) (hn : n < s.size) : s.due n < 2 ^ 16 := by
  unfold due RoundRobin.due share
  dsimp only
  split
  · have := UInt8.toNat_lt (s.node n).weight
    omega
  · exact h.quantum_lt n hn

/-- What is due is a quantum. -/
theorem Dependencies.sub16_due (h : Dependencies s) (hn : n < s.size) :
    sub16 (s.due n) 1 = s.due n - 1 :=
  sub16_of_le (due_pos s n) (h.due_lt hn)

theorem Saturated.unfinishedTree (h : Saturated view s) (hroot : ¬ s.finished view 0) :
    Unfinished view s := by
  intro n hn hatt
  by_cases h0 : n = 0
  · rw [h0]
    exact hroot
  · exact h.unfinished hn h0 (hatt.resolve_left h0)

/-- Below every child there is a leaf, which is ready. -/
theorem Saturated.not_barren (h : Saturated view s) (hd : Dependencies s)
    (hc : c ∈ (s.node p).children) : ¬ Barren view s c := by
  intro hbarren
  obtain ⟨hatt, hp⟩ := hd.toWired.mem_iff.mp hc
  obtain ⟨m, hactive, hleaf, hcm⟩ := hd.toWired.exists_active_leaf hatt
  have hm : m < s.size := hd.lt_size_of_above hcm (hd.lt_size hp).1
  have hm0 : m ≠ 0 := by
    rintro rfl
    rw [eq_of_above_of_none hd.root hcm, hd.root] at hp
    cases hp
  refine hbarren m hcm ⟨Or.inr (Or.inl hactive), (h.leaf m hm hm0 (Or.inl hactive) hleaf).1, ?_⟩
  rw [if_neg (hd.streamID m hm hm0)]
  exact hactive

/-- What a call finds is not the header stream. -/
theorem Saturated.ne_zero_of_found (h : Saturated view s) (hd : Dependencies s)
    (hf : Found view s t 0 m) : m ≠ 0 := by
  rintro rfl
  have hdata := hf.ready.2.2
  rw [if_pos hd.rootID] at hdata
  exact h.header hdata

/-! ## The wheel of a node -/

/-- The children of a node from the next one on, with what is left of their quanta. -/
def wheel (s : StreamScheduler) (n : ℕ) : RoundRobin.Wheel ℕ :=
  (s.ring n).map fun c => (c, (s.node c).quantum)

theorem wheel_congr (hring : s'.ring x = s.ring x)
    (hquantum : ∀ c ∈ s.ring x, (s'.node c).quantum = (s.node c).quantum) :
    s'.wheel x = s.wheel x := by
  unfold wheel
  rw [hring]
  refine List.map_congr_left fun c hc => ?_
  rw [hquantum c hc]

/-- The child of `n` on the way to `m`. -/
def childTowards (s : StreamScheduler) (n m : ℕ) : Option ℕ :=
  (s.path m).find? fun c => s.parent c = some n

theorem Wired.childTowards_eq_some (h : Wired s) :
    s.childTowards n m = some c ↔ s.parent c = some n ∧ Above s.parent c m := by
  have hfound : ∀ {y}, s.childTowards n m = some y → s.parent y = some n ∧ Above s.parent y m := by
    intro y hy
    exact ⟨by simpa using List.find?_some hy, h.mem_path.mp (List.mem_of_find?_eq_some hy)⟩
  refine ⟨hfound, fun ⟨hc, hcm⟩ => ?_⟩
  cases hy : s.childTowards n m with
  | none =>
    have hnone := List.find?_eq_none.mp hy c (h.mem_path.mpr hcm)
    simp [hc] at hnone
  | some y =>
    obtain ⟨hyn, hym⟩ := hfound hy
    rw [h.forest.eq_of_above hyn hc hym hcm]

/-- A call that returns `r` gives a turn to the current child of every wheel on its way, and leaves
the other wheels alone. -/
structure Calls (s s' : StreamScheduler) (r : Option ℕ) : Prop extends Similar s s' where
  dependencies : Dependencies s'
  skipped : ∀ {x}, r.bind (s.childTowards x) = none → s'.wheel x = s.wheel x
  turned : ∀ {x c}, r.bind (s.childTowards x) = some c →
    ∃ w, s.wheel x = (c, (s.node c).quantum) :: w ∧ s'.wheel x = RoundRobin.turn s.share (s.wheel x)

/-! ## One call -/

section Search

variable (hd : Dependencies s) (hv : Saturated view s)
include hd hv

/-- A call that finds nothing leaves the wheels alone, since there are none. -/
theorem Idles.calls (ht : Tree t) (h : Idles s t 0) (hbarren : Barren view s 0) :
    (s.node 0).children = [] ∧ Calls s t none := by
  have hnil : ∀ x, (s.node x).children = [] := by
    intro x
    by_contra hne
    obtain ⟨c, hc⟩ := List.exists_mem_of_ne_nil _ hne
    have hlt := (hd.lt_size (hd.toWired.parent_of_mem hc)).1
    exact hv.not_barren hd hc (hbarren.below (hd.toTree.above_root hlt))
  refine ⟨hnil 0, h.toSameShape.similar, ⟨ht, h.toSameShape.similar.idleInside hd.toIdleInside ?_⟩,
    fun {x} _ => wheel_congr (h.ring_eq x) fun c hc => ?_, fun hnone => by cases hnone⟩
  · intro x hx
    rw [h.size_eq] at hx
    rcases h.quantum x with hsame | ⟨-, hnew⟩
    · rw [hsame]
      exact hd.quantum_lt x hx
    · rw [hnew]
      exact hd.due_lt hx
  · rw [mem_ring, hnil] at hc
    cases hc

/-- The nodes on the way have spent a quantum, and the other nodes of the tree have kept theirs. -/
theorem Found.quantum (h : Found view s t 0 m) (hx : x < s.size) :
    Above s.parent x m ∧ (t.node x).quantum = s.due x - 1 ∨
      ¬ Above s.parent x m ∧ ((t.node x).quantum = (s.node x).quantum ∨
        Barren view s x ∧ (t.node x).quantum = s.due x) := by
  by_cases hxm : Above s.parent x m
  · have hm := hd.lt_size_of_above hxm hx
    refine Or.inl ⟨hxm, ?_⟩
    rw [h.served x (hd.toTree.above_root hx) hxm fun _ =>
      hd.streamID m hm (hv.ne_zero_of_found hd h), hd.sub16_due hx]
  · exact Or.inr ⟨hxm, (h.unserved x fun hway => hxm hway.2).imp_right fun hnew => hnew.2⟩

theorem Found.dependencies (ht : Tree t) (h : Found view s t 0 m) : Dependencies t := by
  refine ⟨ht, h.toSameShape.similar.idleInside hd.toIdleInside fun x hx => ?_⟩
  rw [h.size_eq] at hx
  have hdue := hd.due_lt hx
  rcases h.quantum hd hv hx with ⟨-, hq⟩ | ⟨-, hq | ⟨-, hq⟩⟩ <;> rw [hq]
  · exact lt_of_le_of_lt (Nat.sub_le _ _) hdue
  · exact hd.quantum_lt x hx
  · exact hdue

/-- A child that is not on the way has kept its quantum. -/
theorem Found.quantum_of_off (h : Found view s t 0 m) (hc : c ∈ (s.node x).children)
    (hcm : ¬ Above s.parent c m) : (t.node c).quantum = (s.node c).quantum := by
  have hlt := (hd.lt_size (hd.toWired.parent_of_mem hc)).1
  rcases h.quantum hd hv hlt with ⟨habove, -⟩ | ⟨-, hq | ⟨hbarren, -⟩⟩
  · exact absurd habove hcm
  · exact hq
  · exact absurd hbarren (hv.not_barren hd hc)

/-- A node that a call passes has given a turn to the current child of its wheel. -/
theorem Found.wheel_of_passed (h : Found view s t 0 m) (hc : s.parent c = some x)
    (hcm : Above s.parent c m) :
    ∃ w, s.wheel x = (c, (s.node c).quantum) :: w ∧
      t.wheel x = RoundRobin.turn s.share (s.wheel x) := by
  obtain ⟨hcs, hxs⟩ := hd.lt_size hc
  obtain ⟨before, rest, hring, hbefore, hringt⟩ := h.ring_on hc (hd.toTree.above_root hxs) hcm
  have hmem : ∀ {y}, y ∈ before ++ c :: rest → y ∈ (s.node x).children := by
    intro y hy
    rw [← mem_ring, hring]
    exact hy
  -- no child has been visited in vain
  have hnil : before = [] := by
    by_contra hne
    obtain ⟨y, hy⟩ := List.exists_mem_of_ne_nil _ hne
    exact hv.not_barren hd (hmem (List.mem_append_left _ hy)) (hbefore y hy)
  subst hnil
  rw [List.nil_append] at hring hmem
  rw [List.append_nil] at hringt
  have hnodup : (c :: rest).Nodup := by
    rw [← hring, ring, List.nodup_rotate]
    exact hd.listing.nodup x
  have hrest : rest.map (fun y => (y, (t.node y).quantum)) =
      rest.map fun y => (y, (s.node y).quantum) := by
    refine List.map_congr_left fun y hy => ?_
    have hyc := hmem (List.mem_cons_of_mem c hy)
    have hne : y ≠ c := fun he => (List.nodup_cons.mp hnodup).1 (he ▸ hy)
    rw [h.quantum_of_off hd hv hyc fun hym =>
      hne (hd.forest.eq_of_above (hd.toWired.parent_of_mem hyc) hc hym hcm)]
  have hquantum : (t.node c).quantum = s.due c - 1 := by
    rcases h.quantum hd hv hcs with ⟨-, hq⟩ | ⟨hnot, -⟩
    · exact hq
    · exact absurd hcm hnot
  have hwheel : s.wheel x = (c, (s.node c).quantum) ::
      rest.map fun y => (y, (s.node y).quantum) := by
    rw [wheel, hring, List.map_cons]
  refine ⟨_, hwheel, ?_⟩
  rw [hwheel, RoundRobin.turn, wheel, hringt, hquantum]
  change _ = if s.due c - 1 = 0 then _ else (c, s.due c - 1) :: _
  split
  · next hzero =>
    rw [List.map_append, hrest, List.map_singleton, hquantum, hzero]
  · rw [List.map_cons, hrest, hquantum]

theorem Found.calls (ht : Tree t) (h : Found view s t 0 m) : Calls s t (some m) := by
  refine ⟨h.toSameShape.similar, h.dependencies hd hv ht, fun {x} hnone => ?_, fun {x c} hsome => ?_⟩
  · have hoff : ∀ c, s.parent c = some x → ¬ Above s.parent c m := by
      intro c hc hcm
      change s.childTowards x m = none at hnone
      rw [hd.toWired.childTowards_eq_some.mpr ⟨hc, hcm⟩] at hnone
      cases hnone
    refine wheel_congr (h.ring_off fun c hc _ => hoff c hc) fun c hc => ?_
    rw [mem_ring] at hc
    exact h.quantum_of_off hd hv hc (hoff c (hd.toWired.parent_of_mem hc))
  · obtain ⟨hc, hcm⟩ := hd.toWired.childTowards_eq_some.mp hsome
    exact h.wheel_of_passed hd hv hc hcm

end Search

/-- A call that closes the header stream leaves the wheels alone. -/
theorem Dependencies.close (hd : Dependencies s) :
    ∃ t, { s.refresh 0 with openStreams := (s.refresh 0).openStreams - 1 }.deactivateNode 0 =
      some t ∧ Calls s t none := by
  have hshape := sameShape_refresh s 0
  have hroot : ((s.refresh 0).node 0).parent = none := (congrFun hshape.parent_eq 0).trans hd.root
  unfold deactivateNode
  dsimp only
  rw [modify_node_self]
  rw [hroot]
  refine ⟨_, rfl, ?_⟩
  generalize hu : modify _ 0 _ = u
  have hnode : ∀ x ≠ 0, u.node x = (s.refresh 0).node x := by
    intro x hx
    rw [← hu]
    exact modify_node_of_ne hx
  have hnext : ∀ x, (u.node x).nextChild = (s.node x).nextChild := by
    intro x
    rw [← hu, ← nextChild_refresh s 0 x]
    exact modify_field Node.nextChild rfl x
  have hquantum : ∀ x, (u.node x).quantum = ((s.refresh 0).node x).quantum := by
    intro x
    rw [← hu]
    exact modify_field Node.quantum rfl x
  have hsim : Similar s u := by
    refine ⟨?_, ?_, fun x => ?_, fun x hx => ?_, fun x => ?_⟩
    · rw [← hu]
      exact hshape.size_eq
    · rw [← hu]
      exact hshape.nodeMap_eq
    · rw [← hshape.similar.frozen_eq x, ← hu]
      exact modify_field Node.frozen rfl x
    · rw [hnode x hx, hshape.state_eq]
    · by_cases hx : x = 0
      · refine Or.inr ⟨hx, ?_⟩
        rw [hx, ← hu, modify_node_self]
      · rw [hnode x hx]
        exact Or.inl (hshape.stream_eq x)
  refine ⟨hsim, ⟨hsim.tree hd.toTree fun x => ?_, hsim.idleInside hd.toIdleInside fun x hx => ?_⟩,
    fun {x} _ => wheel_congr ?_ fun c hc => ?_, fun hnone => by cases hnone⟩
  · rw [hnext, hsim.children_eq]
    exact hd.listing.next x
  · rw [hsim.size_eq] at hx
    rw [hquantum]
    by_cases h0 : x = 0
    · rw [h0, quantum_refresh_self]
      exact hd.due_lt hd.size_pos
    · rw [quantum_refresh_of_ne h0]
      exact hd.quantum_lt x hx
  · unfold ring
    rw [hnext, hsim.children_eq]
  · rw [hquantum, quantum_refresh_of_ne]
    exact hd.ne_zero (hd.toWired.parent_of_ring hc)

/-- **One call of `schedule`.** It turns the wheels on its way to a leaf, unless the header stream is
finished or there is nothing in the tree. -/
theorem schedule_calls (hd : Dependencies s) (hv : Saturated view s) :
    ∃ r s', s.schedule view = some (r, s') ∧ Calls s s' r ∧
      (r = none → s.finished view 0 ∨ (s.node 0).children = []) := by
  by_cases hfin : s.finished view 0
  · obtain ⟨t, heq, hcalls⟩ := hd.close
    refine ⟨none, t, ?_, hcalls, fun _ => Or.inl hfin⟩
    rw [schedule, traverse]
    rw [if_pos ((sameShape_refresh s 0).finished_iff 0 |>.mpr hfin), heq]
    rfl
  · rcases hd.toTree.schedule_search (hv.unfinishedTree hfin) with
      ⟨hbarren, t, ht, hidle, heq⟩ | ⟨m, t, ht, hfound, heq⟩
    · obtain ⟨hnil, hcalls⟩ := hidle.calls hd hv ht hbarren
      exact ⟨none, t, heq, hcalls, fun _ => Or.inr hnil⟩
    · exact ⟨some m, t, heq, hfound.calls hd hv ht, fun hnone => by cases hnone⟩

/-! ## Consecutive calls -/

/-- Consecutive calls of `schedule`: the nodes they return, and the scheduler after them. -/
def schedules : StreamScheduler → List (ℕ → StreamView) →
    Option (List (Option ℕ) × StreamScheduler)
  | s, [] => some ([], s)
  | s, view :: views => do
    let (r, s) ← s.schedule view
    let (picks, s) ← schedules s views
    some (r :: picks, s)

/-- The children that the calls passing `n` descend to. -/
def turnsOf (s : StreamScheduler) (n : ℕ) (picks : List (Option ℕ)) : List ℕ :=
  picks.filterMap fun r => r.bind (s.childTowards n)

/-- One round over the children of a node in which each gets what is due: what is left of its
quantum, or one turn more than its weight says. -/
def firstRound (s : StreamScheduler) (n : ℕ) : List ℕ :=
  (s.ring n).flatMap fun c => List.replicate (s.due c) c

/-- One round over the children of a node in which each gets one turn more than its weight says. -/
def fullRound (s : StreamScheduler) (n : ℕ) : List ℕ :=
  (s.ring n).flatMap fun c => List.replicate (s.share c) c

theorem Similar.turnsOf_eq (h : Similar s s') (n : ℕ) : s'.turnsOf n = s.turnsOf n := by
  funext picks
  unfold turnsOf childTowards path
  rw [h.parent_eq, h.size_eq]

/-- **Every node gives its turns like one wheel,** whatever the calls in between do elsewhere. -/
theorem turnsOf_schedules (h : Dependencies s) {views : List (ℕ → StreamView)}
    (hviews : ∀ view ∈ views, Saturated view s) :
    ∃ picks s', s.schedules views = some (picks, s') ∧
      List.Forall₂ (fun view r => r = none → s.finished view 0 ∨ (s.node 0).children = [])
        views picks ∧
      ∀ n, s.turnsOf n picks =
        RoundRobin.turns s.share (s.turnsOf n picks).length (s.wheel n) := by
  induction views generalizing s with
  | nil => exact ⟨[], s, rfl, List.Forall₂.nil, fun _ => rfl⟩
  | cons view views ih =>
    obtain ⟨hview, hviews⟩ := List.forall_mem_cons.mp hviews
    obtain ⟨r, s', heq, hcalls, hwhy⟩ := schedule_calls h hview
    have hsim := hcalls.toSimilar
    obtain ⟨picks, s'', heq', hpicks, hturns⟩ :=
      ih hcalls.dependencies fun v hv => hsim.saturated (hviews v hv)
    refine ⟨r :: picks, s'', by rw [schedules, heq]; simp [heq'],
      List.Forall₂.cons hwhy (hpicks.imp fun v r hvr hnone => ?_), fun n => ?_⟩
    · rcases hvr hnone with hfin | hnil
      · exact Or.inl (hsim.of_finished hfin)
      · exact Or.inr ((hsim.children_eq 0).symm.trans hnil)
    · have hturns := hturns n
      rw [hsim.turnsOf_eq, hsim.share_eq] at hturns
      -- a call that does not pass the node does not turn its wheel
      cases hc : r.bind (s.childTowards n) with
      | none =>
        have hcons : s.turnsOf n (r :: picks) = s.turnsOf n picks :=
          List.filterMap_cons_none (f := fun r : Option ℕ => r.bind (s.childTowards n)) hc
        rw [hcons, ← hcalls.skipped hc]
        exact hturns
      | some c =>
        have hcons : s.turnsOf n (r :: picks) = c :: s.turnsOf n picks :=
          List.filterMap_cons_some (f := fun r : Option ℕ => r.bind (s.childTowards n)) hc
        obtain ⟨w, hw, hturn⟩ := hcalls.turned hc
        rw [hturn] at hturns
        rw [hcons, List.length_cons, hw, RoundRobin.turns, ← hw, ← hturns]

theorem firstRound_wheel (s : StreamScheduler) (n : ℕ) :
    RoundRobin.firstRound s.share (s.wheel n) = s.firstRound n := by
  unfold RoundRobin.firstRound wheel
  rw [List.flatMap_map]
  rfl

theorem fullRound_wheel (s : StreamScheduler) (n : ℕ) :
    RoundRobin.fullRound s.share (s.wheel n) = s.fullRound n := by
  unfold RoundRobin.fullRound wheel
  rw [List.flatMap_map]
  rfl

/-- In a full round every child gets its share. -/
theorem Wired.count_fullRound (h : Wired s) (hc : c ∈ (s.node n).children) :
    (s.fullRound n).count c = s.share c := by
  have hmem : c ∈ s.ring n := mem_ring.mpr hc
  have hnodup : (s.ring n).Nodup := List.nodup_rotate.mpr (h.listing.nodup n)
  unfold fullRound
  generalize s.ring n = ring at hmem hnodup
  induction ring with
  | nil => cases hmem
  | cons y ys ih =>
    obtain ⟨hy, hys⟩ := List.nodup_cons.mp hnodup
    rw [List.flatMap_cons, List.count_append, List.count_replicate]
    rcases List.mem_cons.mp hmem with rfl | hmem
    · have hzero : (ys.flatMap fun c => List.replicate (s.share c) c).count c = 0 := by
        refine List.count_eq_zero.mpr fun hc => ?_
        obtain ⟨y, hymem, hcy⟩ := List.mem_flatMap.mp hc
        exact hy (List.eq_of_mem_replicate hcy ▸ hymem)
      rw [hzero, if_pos (beq_self_eq_true c), Nat.add_zero]
    · have hne : y ≠ c := fun he => hy (he ▸ hmem)
      rw [ih hmem hys, if_neg (by simpa using hne), Nat.zero_add]

theorem length_fullRound (s : StreamScheduler) (n : ℕ) :
    (s.fullRound n).length = ((s.node n).children.map s.share).sum := by
  unfold fullRound
  rw [List.length_flatMap]
  simp only [List.length_replicate]
  exact ((List.rotate_perm _ _).map s.share).sum_eq

end StreamScheduler

open StreamScheduler

/-- **Every node serves its children by weighted round robin.** Over any number of consecutive calls
of `schedule`, the children that a node descends to are those of one round with leftover quanta,
followed by full rounds; in every full round each child gets its share of the turns. A call comes
back without a stream only to close the header stream, or when nothing is in the tree. -/
theorem weightedRoundRobin {s : StreamScheduler} (h : Dependencies s)
    {views : List (ℕ → StreamView)} (hviews : ∀ view ∈ views, Saturated view s) :
    ∃ picks s', s.schedules views = some (picks, s') ∧
      List.Forall₂ (fun view r => r = none → s.finished view 0 ∨ (s.node 0).children = [])
        views picks ∧
      ∀ n, (∃ k, s.turnsOf n picks <+:
          s.firstRound n ++ (List.replicate k (s.fullRound n)).flatten) ∧
        ∀ j, (s.firstRound n).length + (j + 1) * ((s.node n).children.map s.share).sum ≤
            (s.turnsOf n picks).length →
          ∀ c ∈ (s.node n).children,
            (((s.turnsOf n picks).drop ((s.firstRound n).length +
              j * ((s.node n).children.map s.share).sum)).take
                ((s.node n).children.map s.share).sum).count c = s.share c := by
  obtain ⟨picks, s', heq, hpicks, hturns⟩ := turnsOf_schedules h hviews
  refine ⟨picks, s', heq, hpicks, fun n => ?_⟩
  have hshare : ∀ c, 0 < s.share c := fun _ => Nat.succ_pos _
  obtain ⟨k, hk⟩ := RoundRobin.turns_isPrefix hshare (s.turnsOf n picks).length (s.wheel n)
  rw [← hturns n, RoundRobin.rounds, firstRound_wheel, fullRound_wheel] at hk
  refine ⟨⟨k, hk⟩, fun j hj c hc => ?_⟩
  rw [← length_fullRound] at hj ⊢
  rw [RoundRobin.window_eq hk hj]
  exact h.toWired.count_fullRound hc

/-- Streams 7 and 9 depend on stream 5, and streams 5 and 11 on the root. Five calls have left some
quanta over. -/
def twoLevels : List SchedulerOp :=
  [.addNode 3, .addNode 5, .addNode 7, .addNode 9, .addNode 11, .maybeSetParent 7 5 false,
    .maybeSetParent 9 5 false, .maybeSetWeight 5 2, .maybeSetWeight 7 1, .maybeSetWeight 9 0,
    .maybeSetWeight 11 1, .setActive 7, .setActive 9, .setActive 11] ++
      List.replicate 5 (.schedule (viewOf [] [7, 9, 11]))

theorem twoLevels_roundRobin :
    ∃ s, SchedulerRun.run twoLevels = some s ∧
      ∃ picks s', s.schedules (List.replicate 40 (viewOf [] [7, 9, 11])) = some (picks, s') ∧
        ∀ n, ∃ k, s.turnsOf n picks <+:
          s.firstRound n ++ (List.replicate k (s.fullRound n)).flatten := by
  obtain ⟨s, hrun, htree⟩ := SchedulerRun.tree (show SchedulerRun.Sound twoLevels by decide +kernel)
  obtain ⟨s₀, hrun₀, hidle, hsaturated⟩ : ∃ s ∈ SchedulerRun.run twoLevels, IdleInside s ∧
      Saturated (viewOf [] [7, 9, 11]) s := by
    decide +kernel
  rw [hrun] at hrun₀
  cases hrun₀
  obtain ⟨picks, s', heq, -, hturns⟩ := weightedRoundRobin ⟨htree, hidle⟩
    (fun view hview => List.eq_of_mem_replicate hview ▸ hsaturated :
      ∀ view ∈ List.replicate 40 (viewOf [] [7, 9, 11]), Saturated view s)
  exact ⟨s, hrun, picks, s', heq, fun n => (hturns n).1⟩

end MultipathQuic
