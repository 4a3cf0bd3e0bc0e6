import MultipathQuic.Scheduler.Membership
import MultipathQuic.Scheduler.Updates

/-!
# The number of open streams

`openStreams` grows with every call of `setActive`, and falls with every finished stream that
`traverse` meets. It is the number of active nodes as long as no call makes an active node active
again, and every finished stream that `traverse` meets is active and not the header stream. Nothing
else matters: the counter is right even where the tree is not.

## Main definitions

* `activeStreams`: what is counted
* `SchedulerRun.Tallied`: the runs in which the counter is right

## Main results

* `openStreams_eq_card`: the counter
-/

namespace MultipathQuic

open Function Relation

namespace StreamScheduler

variable {view : ℕ → StreamView} {s s' s₀ : StreamScheduler} {n c : ℕ} {k : ℤ}

/-- The active nodes, the root apart. -/
def activeStreams (s : StreamScheduler) : Finset ℕ :=
  (Finset.range s.size).filter fun n => n ≠ 0 ∧ (s.node n).state = .active

theorem mem_activeStreams :
    n ∈ s.activeStreams ↔ n < s.size ∧ n ≠ 0 ∧ (s.node n).state = .active := by
  rw [activeStreams, Finset.mem_filter, Finset.mem_range]

theorem activeStreams_congr (hsize : s'.size = s.size)
    (hstate : ∀ n, n ≠ 0 → n < s.size → (s'.node n).state = (s.node n).state) :
    s'.activeStreams = s.activeStreams := by
  ext n
  rw [mem_activeStreams, mem_activeStreams, hsize]
  refine and_congr_right fun hn => and_congr_right fun h0 => ?_
  rw [hstate n h0 hn]

/-- `openStreams` is off by `k`; only the header stream has the root as its node, and nodes that are
not in the heap have no streams. -/
structure Tally (s : StreamScheduler) (k : ℤ) : Prop where
  openStreams : s.openStreams + k = s.activeStreams.card
  size_pos : 0 < s.size
  known : ∀ {id n}, s.nodeMap id = some n → n < s.size ∧ (n = 0 → id = 3)
  fresh : ∀ n, s.size ≤ n → (s.node n).stream = none

theorem tally_new : Tally newStreamScheduler 0 :=
  ⟨by decide, by decide, nofun, fun _ _ => rfl⟩

/-- A change of a node that leaves its state and its stream alone. -/
theorem Tally.modify (h : Tally s k) {f : Node → Node}
    (hstate : (f (s.node n)).state = (s.node n).state)
    (hstream : (f (s.node n)).stream = (s.node n).stream) : Tally (s.modify n f) k where
  openStreams := by
    have hactive : (s.modify n f).activeStreams = s.activeStreams :=
      activeStreams_congr rfl fun x _ _ => modify_field Node.state hstate x
    rw [hactive]
    exact h.openStreams
  size_pos := h.size_pos
  known := h.known
  fresh x hx := (modify_field Node.stream hstream x).trans (h.fresh x hx)

theorem rewireRule_tally (k : ℤ) : RewireRule fun s => Tally s k where
  modify := fun hf h => h.modify (congrArg Node.state hf : _) (congrArg Node.stream hf : _)

/-- The header stream becomes the stream of the root. -/
theorem Tally.addHeader (h : Tally s 0) : Tally (s.addNode 3) 0 := by
  set t := s.modify 0 fun node => { node with stream := some 3, state := .active } with ht
  have hnode : ∀ n, n ≠ 0 → t.node n = s.node n := fun n h0 => modify_node_of_ne h0
  have hactive : t.activeStreams = s.activeStreams :=
    activeStreams_congr rfl fun n h0 _ => congrArg Node.state (hnode n h0)
  have heq : s.addNode 3 = { t with nodeMap := update s.nodeMap 3 (some 0) } := rfl
  have hpos := h.size_pos
  rw [heq]
  refine ⟨?_, hpos, fun {id n} hn => ?_, fun n hn => ?_⟩
  · change t.openStreams + 0 = t.activeStreams.card
    rw [hactive]
    exact h.openStreams
  · dsimp only at hn
    by_cases hid : id = 3
    · rw [hid, update_self] at hn
      cases hn
      exact ⟨hpos, fun _ => hid⟩
    · rw [update_of_ne hid] at hn
      exact h.known hn
  · change s.size ≤ n at hn
    rw [hnode n (by omega)]
    exact h.fresh n hn

/-- A new stream gets an idle node. -/
theorem Tally.allocate (h : Tally s 0) (id : ℕ) :
    Tally { s.allocate (newNode id (some id) (some 0)) with
      nodeMap := update s.nodeMap id (some s.size) } 0 := by
  set t := s.allocate (newNode id (some id) (some 0)) with ht
  have hnode : ∀ n, n ≠ s.size → t.node n = s.node n := fun n hn => update_of_ne hn _ _
  have hactive : t.activeStreams = s.activeStreams := by
    ext n
    rw [mem_activeStreams, mem_activeStreams]
    change n < s.size + 1 ∧ _ ↔ _
    by_cases hn : n = s.size
    · have hself : t.node s.size = newNode id (some id) (some 0) := update_self _ _ _
      have hidle : (t.node n).state = .idle := by
        rw [hn, hself]
        rfl
      rw [hidle]
      simp [hn]
    · rw [hnode n hn]
      exact and_congr_left fun _ => by omega
  refine ⟨?_, Nat.succ_pos _, fun {id' n} hn => ?_, fun n hn => ?_⟩
  · change t.openStreams + 0 = t.activeStreams.card
    rw [hactive]
    exact h.openStreams
  · change n < s.size + 1 ∧ _
    dsimp only at hn
    by_cases hid : id' = id
    · rw [hid, update_self] at hn
      have hn' := Option.some.inj hn
      have hpos := h.size_pos
      exact ⟨by omega, by omega⟩
    · rw [update_of_ne hid] at hn
      obtain ⟨hlt, h3⟩ := h.known hn
      exact ⟨Nat.lt_succ_of_lt hlt, h3⟩
  · change s.size + 1 ≤ n at hn
    rw [hnode n (by omega)]
    exact h.fresh n (by omega)

theorem Tally.addNode (h : Tally s 0) (id : ℕ) : Tally (s.addNode id) 0 := by
  by_cases h3 : id = 3
  · rw [h3]
    exact h.addHeader
  · unfold StreamScheduler.addNode
    split
    · exact h
    · exact h.allocate id

/-! ## Activation -/

/-- A node that was not active becomes active. -/
theorem Tally.activate (h : Tally s 0) {id : ℕ} (hid : id ≠ 3) (hn : s.nodeMap id = some n)
    (hidle : (s.node n).state ≠ .active) :
    Tally (s.modify n fun node => { node with state := .active }) 1 := by
  obtain ⟨hlt, h3⟩ := h.known hn
  have h0 : n ≠ 0 := fun he => hid (h3 he)
  set t := s.modify n fun node => { node with state := .active } with ht
  have hactive : t.activeStreams = insert n s.activeStreams := by
    ext x
    rw [Finset.mem_insert, mem_activeStreams, mem_activeStreams]
    by_cases hx : x = n
    · subst hx
      rw [ht, modify_node_self]
      simp [hlt, h0]
    · rw [ht, modify_node_of_ne hx]
      exact (or_iff_right hx).symm
  refine ⟨?_, h.size_pos, h.known, fun x hx => ?_⟩
  · have hnot : n ∉ s.activeStreams := fun hmem => hidle (mem_activeStreams.mp hmem).2.2
    have hcount := h.openStreams
    change s.openStreams + 1 = t.activeStreams.card
    rw [hactive, Finset.card_insert_of_notMem hnot]
    push_cast
    omega
  · exact (modify_field Node.stream rfl x).trans (h.fresh x hx)

theorem Tally.setActive (h : Tally s 0) {id : ℕ} {err : Option SchedulerError}
    (hidle : id ≠ 1 → id ≠ 3 → ∀ n ∈ s.nodeMap id, (s.node n).state ≠ .active)
    (heq : s.setActive id = some (s', err)) : Tally s' 0 := by
  obtain rfl | ⟨n, p, t, h1, h3, hn, hadd, rfl⟩ := setActive_cases heq
  · exact h
  · have ht : Tally t 1 :=
      (rewireRule_tally 1).addWeightUp (h.activate h3 hn (hidle h1 h3 n hn)) hadd
    exact ⟨by rw [add_zero]; exact ht.openStreams, ht.size_pos, ht.known, ht.fresh⟩

/-- `setActive` leaves the scheduler unchanged only for the streams that it ignores. -/
theorem setActive_unchanged_iff {id : ℕ} (hn : s.nodeMap id = some n) :
    s.setActive id = some (s, none) ↔ id = 1 ∨ id = 3 := by
  constructor
  · intro heq
    by_contra hid
    unfold StreamScheduler.setActive at heq
    rw [if_neg hid, hn] at heq
    obtain ⟨p, -, heq⟩ := Option.bind_eq_some_iff.mp heq
    obtain ⟨t, hadd, heq⟩ := Option.bind_eq_some_iff.mp heq
    -- the counter has grown by one
    have hrule : RewireRule fun t => t.openStreams = s.openStreams := ⟨fun _ h => h⟩
    have hopen : t.openStreams = s.openStreams := by
      refine hrule.addWeightUp ?_ hadd
      rfl
    have hgrown := congrArg (fun r : StreamScheduler × Option SchedulerError => r.1.openStreams)
      (Option.some.inj heq)
    dsimp only at hgrown
    omega
  · intro hid
    unfold StreamScheduler.setActive
    rw [if_pos hid]

/-! ## Scheduling -/

/-- During a call of `schedule` on `s₀`: the lists have only become shorter, and every finished
stream that `traverse` may still meet is active and not the header stream. -/
structure Retires (view : ℕ → StreamView) (s₀ s : StreamScheduler) : Prop extends Tally s 0 where
  subset : ∀ n, (s.node n).children ⊆ (s₀.node n).children
  retiring : ∀ n, ReflTransGen s₀.lists 0 n → s.finished view n →
    n ≠ 0 ∧ (s.node n).state = .active

theorem Retires.modify (h : Retires view s₀ s) {f : Node → Node}
    (hstate : (f (s.node n)).state = (s.node n).state)
    (hstream : (f (s.node n)).stream = (s.node n).stream)
    (hsub : (f (s.node n)).children ⊆ (s.node n).children) : Retires view s₀ (s.modify n f) where
  toTally := h.toTally.modify hstate hstream
  subset x := by
    by_cases hx : x = n
    · subst hx
      rw [modify_node_self]
      exact List.Subset.trans hsub (h.subset x)
    · rw [modify_node_of_ne hx]
      exact h.subset x
  retiring x hx hfin := by
    rw [modify_field Node.state hstate]
    refine h.retiring x hx ?_
    unfold StreamScheduler.finished at hfin ⊢
    rwa [modify_field Node.stream hstream] at hfin

/-- A finished stream is closed. -/
theorem Retires.close (h : Retires view s₀ s) (hV : ReflTransGen s₀.lists 0 n)
    (hfin : s.finished view n) :
    Retires view s₀ ({ s with openStreams := s.openStreams - 1 }.modify n fun node =>
      { node with state := .closed, stream := none }) := by
  obtain ⟨h0, hactive⟩ := h.retiring n hV hfin
  have hlt : n < s.size := by
    by_contra hge
    obtain ⟨id, hid, -⟩ := hfin
    rw [h.fresh n (Nat.le_of_not_lt hge)] at hid
    cases hid
  set t := { s with openStreams := s.openStreams - 1 }.modify n fun node =>
    { node with state := .closed, stream := none } with ht
  have hother : ∀ x, x ≠ n → t.node x = s.node x := fun x hx => modify_node_of_ne hx
  have hself : t.node n = { s.node n with state := .closed, stream := none } :=
    modify_node_self _ _ _
  -- the counter and the set lose the same node
  have herase : t.activeStreams = s.activeStreams.erase n := by
    ext x
    rw [Finset.mem_erase, mem_activeStreams, mem_activeStreams]
    by_cases hx : x = n
    · rw [hx, hself]
      simp
    · rw [hother x hx]
      exact (and_iff_right hx).symm
  have hmem : n ∈ s.activeStreams := mem_activeStreams.mpr ⟨hlt, h0, hactive⟩
  refine ⟨⟨?_, h.size_pos, h.known, fun x hx => ?_⟩, fun x => ?_, fun x hx hfinx => ?_⟩
  · have hcount := h.openStreams
    have hpos := Finset.card_pos.mpr ⟨n, hmem⟩
    change s.openStreams - 1 + 0 = t.activeStreams.card
    rw [herase, Finset.card_erase_of_mem hmem]
    omega
  · change s.size ≤ x at hx
    rw [hother x (by omega)]
    exact h.fresh x hx
  · by_cases hx : x = n
    · rw [hx, hself]
      exact h.subset n
    · rw [hother x hx]
      exact h.subset x
  · by_cases hxn : x = n
    · obtain ⟨id, hid, -⟩ := hfinx
      rw [hxn, hself] at hid
      cases hid
    · unfold StreamScheduler.finished at hfinx
      rw [hother x hxn] at hfinx ⊢
      exact h.retiring x hx hfinx

theorem scheduleRule_retires (view : ℕ → StreamView) (s₀ : StreamScheduler) :
    ScheduleRule view (ReflTransGen s₀.lists 0) (Retires view s₀) where
  child := fun h hn hc => hn.tail (h.subset _ hc)
  refresh := by
    intro s n h _
    refine h.modify ?_ ?_ (List.Perm.of_eq ?_).subset <;>
    · dsimp only
      split_ifs <;> split <;> rfl
  count := fun hf h => h.modify (congrArg Node.state hf : _) (congrArg Node.stream hf : _)
    (List.Perm.of_eq (congrArg Node.children hf : _)).subset
  drop := by
    intro s n c _ h
    unfold dropChild
    refine h.modify ?_ ?_ ?_
    · rfl
    · rfl
    · exact (List.eraseIdx_sublist _ _).subset
  close := fun h => h.close

end StreamScheduler

/-! ## Runs -/

namespace SchedulerOp

open StreamScheduler (Tally)

/-- The call keeps the counter right: `setActive` is not about an active node, and every finished
stream that `traverse` may meet is active and not the header stream. -/
def Tallied (s : StreamScheduler) : SchedulerOp → Prop
  | .setActive id => id ≠ 1 → id ≠ 3 → ∀ n ∈ s.nodeMap id, (s.node n).state ≠ .active
  | .schedule view => ∀ n, ReflTransGen s.lists 0 n → s.finished view n →
    n ≠ 0 ∧ (s.node n).state = .active
  | _ => True

theorem tally_apply {s s' : StreamScheduler} (h : Tally s 0) {op : SchedulerOp}
    (hop : op.Tallied s) (heq : op.apply s = some s') : Tally s' 0 := by
  cases op, s', heq using apply_cases with
  | addNode id =>
    exact h.addNode id
  | maybeSetWeight id weight t err heq hcall =>
    exact (StreamScheduler.rewireRule_tally 0).maybeSetWeight h hcall
  | maybeSetParent childID parentID exclusive t err heq hcall =>
    exact (StreamScheduler.rewireRule_tally 0).maybeSetParent h hcall
  | setActive id t err heq hcall =>
    exact h.setActive hop hcall
  | schedule view strm t heq hcall =>
    exact ((StreamScheduler.scheduleRule_retires view s).traverse
      ⟨h, fun _ => List.Subset.refl _, hop⟩ ReflTransGen.refl hcall).toTally

/-- The finished streams of the tree are active, and the header stream is not finished. -/
def RetiresActive (s : StreamScheduler) : SchedulerOp → Prop
  | .schedule view => ∀ n < s.size, n = 0 ∨ s.attached n → s.finished view n →
    n ≠ 0 ∧ (s.node n).state = .active
  | _ => True

instance (s : StreamScheduler) : DecidablePred (RetiresActive s)
  | .schedule _ => inferInstanceAs (Decidable (∀ _ < _, _))
  | .addNode _ | .maybeSetWeight .. | .maybeSetParent .. | .setActive _ =>
    inferInstanceAs (Decidable True)

/-- In a tree, `traverse` only meets nodes that are active or have active children. -/
theorem tallied_of_tree {s : StreamScheduler} (h : StreamScheduler.Tree s) {op : SchedulerOp}
    (hsound : op.Sound s) (hop : op.RetiresActive s) : op.Tallied s := by
  cases op with
  | setActive id => exact fun h1 h3 n hn hactive => hsound h1 h3 n hn (Or.inl hactive)
  | schedule view =>
    intro n hn hfin
    obtain ⟨hlt, hatt⟩ := h.attached_of_reached hn
    exact hop n hlt hatt hfin
  | addNode _ => trivial
  | maybeSetWeight _ _ => trivial
  | maybeSetParent _ _ _ => trivial

end SchedulerOp

namespace SchedulerRun

/-- Every call of the run keeps the counter right. -/
def Tallied (ops : List SchedulerOp) : Prop :=
  Runs.Along step (fun o op => ∀ s ∈ o, op.Tallied s) (some newStreamScheduler) ops

/-- A sound run keeps the counter right if only active streams finish. -/
theorem tallied_of_sound {ops : List SchedulerOp}
    (h : Runs.Along step (fun o op => ∀ s ∈ o, op.Sound s ∧ op.RetiresActive s)
      (some newStreamScheduler) ops) : Tallied ops := by
  refine Runs.Along.imp (P := fun o => ∃ s, o = some s ∧ StreamScheduler.Tree s) h
    ⟨_, rfl, StreamScheduler.tree_new⟩ ?_ ?_
  · rintro o op ⟨s, rfl, htree⟩ hop
    exact SchedulerOp.tree_apply htree (hop s rfl).1
  · rintro o op ⟨s, rfl, htree⟩ hop s' ⟨⟩
    exact SchedulerOp.tallied_of_tree htree (hop s rfl).1 (hop s rfl).2

end SchedulerRun

open SchedulerRun (run Tallied)
open SchedulerOp

/-- **`openStreams` is the number of active nodes, the root apart,** in the state of every run whose
calls keep the counter right; and `setActive` for an active stream leaves the scheduler unchanged only
if it is the header stream. -/
theorem openStreams_eq_card {ops : List SchedulerOp} (h : Tallied ops) {s : StreamScheduler}
    (hs : run ops = some s) :
    s.openStreams = s.activeStreams.card ∧
      ∀ id n, s.nodeMap id = some n → (s.node n).state = .active →
        (s.setActive id = some (s, none) ↔ id = 1 ∨ id = 3) := by
  have htally : ∀ s ∈ run ops, s.Tally 0 := by
    refine Runs.Along.invariant (P := fun o => ∀ s ∈ o, StreamScheduler.Tally s 0) h ?_ ?_
    · rintro s ⟨⟩
      exact StreamScheduler.tally_new
    · intro o op ho hop s' hs'
      obtain ⟨s, rfl, heq⟩ := Option.bind_eq_some_iff.mp hs'
      exact tally_apply (ho s rfl) (hop s rfl) heq
  refine ⟨?_, fun id n hn _ => StreamScheduler.setActive_unchanged_iff hn⟩
  rw [← (htally s hs).openStreams, add_zero]

/-- Stream 5 finishes, and it becomes active once more after that. -/
def finishesOnce : List SchedulerOp :=
  [addNode 3, addNode 5, addNode 7, setActive 5, setActive 7, schedule (viewOf [5] [7]),
    setActive 5]

theorem finishesOnce_openStreams :
    Tallied finishesOnce ∧ ∃ s, run finishesOnce = some s ∧
      s.openStreams = s.activeStreams.card ∧ s.setActive 3 = some (s, none) := by
  have htallied : Tallied finishesOnce := SchedulerRun.tallied_of_sound (by decide +kernel)
  obtain ⟨s, heq, hmap, hactive⟩ : ∃ s ∈ run finishesOnce, s.nodeMap 3 = some 0 ∧
      (s.node 0).state = .active := by
    decide +kernel
  obtain ⟨hcount, hset⟩ := openStreams_eq_card htallied heq
  exact ⟨htallied, s, heq, hcount, (hset 3 0 hmap hactive).mpr (Or.inr rfl)⟩

/-- **Activating stream 5 again counts it again,** and a header stream that finishes is subtracted
although it has not been counted. -/
theorem activatedTwice_openStreams :
    (∃ s, run [addNode 5, setActive 5] = some s ∧ s.nodeMap 5 = some 1 ∧
      (s.node 1).state = .active ∧ s.setActive 5 ≠ some (s, none)) ∧
    (∃ s, run [addNode 5, setActive 5, setActive 5] = some s ∧ s.openStreams = 2 ∧
      s.activeStreams.card = 1) ∧
    ∃ s, run [addNode 3, schedule (viewOf [3] [])] = some s ∧ s.openStreams = -1 ∧
      s.activeStreams.card = 0 := by
  refine ⟨?_, ?_, ?_⟩
  · obtain ⟨s, heq, hmap, hactive⟩ : ∃ s ∈ run [addNode 5, setActive 5], s.nodeMap 5 = some 1 ∧
        (s.node 1).state = .active := by
      decide +kernel
    refine ⟨s, heq, hmap, hactive, fun hsame => ?_⟩
    have hid := (StreamScheduler.setActive_unchanged_iff hmap).mp hsame
    omega
  · show ∃ s ∈ run [addNode 5, setActive 5, setActive 5], _
    decide +kernel
  · show ∃ s ∈ run [addNode 3, schedule (viewOf [3] [])], _
    decide +kernel

end MultipathQuic
