import Mathlib.Algebra.Order.BigOperators.Group.List
import Mathlib.Algebra.Order.Ring.Nat
import MultipathQuic.Scheduler.Membership
import MultipathQuic.Scheduler.Updates

/-!
# The weight of the children

`childrensWeight` is kept up to date at every change. `addWeight` adds the weight of a child plus
one; `removeWeight` subtracts the weight of the child *minus* one, so that every removal leaves two
too much. In the runs in which no node is taken out of a list the sum is right.

## Main definitions

* `Weighed`: the sums are right
* `SchedulerRun.Steady`: no node is taken out of a list

## Main results

* `steady_weights`: the sums are right after a steady run
-/

namespace MultipathQuic

open Function Forest

namespace StreamScheduler

variable {view : ℕ → StreamView} {s s' : StreamScheduler} {n p c x a fuel : ℕ}

/-- The sum over the children of a node of their weight plus one. -/
def sumOfWeights (s : StreamScheduler) (p : ℕ) : ℕ :=
  ((s.node p).children.map fun c => (s.node c).weight.toNat + 1).sum

/-- The weight of the children is right as an unsigned 32-bit integer. -/
def Weighed (s : StreamScheduler) : Prop :=
  ∀ p, (s.node p).childrensWeight = s.sumOfWeights p % 2 ^ 32

theorem weighed_new : Weighed newStreamScheduler := fun _ => rfl

theorem sumOfWeights_congr (hc : (s'.node p).children = (s.node p).children)
    (hw : ∀ c ∈ (s.node p).children, (s'.node c).weight = (s.node c).weight) :
    s'.sumOfWeights p = s.sumOfWeights p := by
  unfold sumOfWeights
  rw [hc]
  refine congrArg List.sum (List.map_congr_left fun c hmem => ?_)
  rw [hw c hmem]

/-- A change that the lists and the weights do not see. -/
theorem Weighed.congr (h : Weighed s)
    (hc : ∀ p, (s'.node p).children = (s.node p).children)
    (hcw : ∀ p, (s'.node p).childrensWeight = (s.node p).childrensWeight)
    (hw : ∀ p, ∀ c ∈ (s.node p).children, (s'.node c).weight = (s.node c).weight) :
    Weighed s' := by
  intro p
  rw [hcw, sumOfWeights_congr (hc p) (hw p)]
  exact h p

/-- The sum is small enough for 32 bits. -/
theorem Tree.sumOfWeights_lt (h : Tree s) (p : ℕ) : s.sumOfWeights p < 2 ^ 32 := by
  have hlen := h.listing.length_lt p
  have hle : s.sumOfWeights p ≤ (s.node p).children.length * 256 := by
    unfold sumOfWeights
    have hbound := List.sum_le_card_nsmul
      ((s.node p).children.map fun c => (s.node c).weight.toNat + 1) 256 (by
        intro w hw
        obtain ⟨c, -, rfl⟩ := List.mem_map.mp hw
        have := (s.node c).weight.toNat_lt
        omega)
    simpa using hbound
  omega

/-! ## Adding -/

theorem Weighed.appendChild (h : Weighed s) (p c : ℕ) : Weighed (s.appendChild p c) := by
  have hweight : ∀ x, ((s.appendChild p c).node x).weight = (s.node x).weight :=
    (climbs_appendChild s p c).weight_eq
  intro x
  by_cases hx : x = p
  · subst hx
    have hnew : (s.appendChild x c).sumOfWeights x =
        s.sumOfWeights x + ((s.node c).weight.toNat + 1) := by
      unfold sumOfWeights
      simp only [hweight]
      simp [StreamScheduler.appendChild]
    have hcw : ((s.appendChild x c).node x).childrensWeight =
        add32 (s.node x).childrensWeight ((s.node c).weight.toNat + 1) :=
      congrArg Node.childrensWeight (modify_node_self _ _ _)
    rw [hnew, hcw, h x]
    unfold add32
    exact Nat.mod_add_mod _ _ _
  · have hnode : (s.appendChild p c).node x = s.node x := modify_node_of_ne hx
    rw [sumOfWeights_congr (by rw [hnode]) fun m _ => hweight m, hnode]
    exact h x

/-- `addWeight` keeps the sums right. -/
theorem Weighed.addWeightUp (h : Weighed s) (heq : addWeightUp fuel s p c = some s') :
    Weighed s' := by
  induction fuel generalizing s p c with
  | zero => cases heq
  | succ fuel ih =>
    have happend := h.appendChild p c
    rw [StreamScheduler.addWeightUp] at heq
    cases hq : ((s.appendChild p c).node p).parent with
    | none =>
      simp only [hq] at heq
      cases heq
      exact happend
    | some q =>
      simp only [hq] at heq
      split_ifs at heq
      · exact ih happend heq
      · cases heq
        exact happend

/-! ## Single calls -/

theorem Weighed.addNode (h : Weighed s) (htree : Tree s) (id : ℕ) : Weighed (s.addNode id) := by
  unfold StreamScheduler.addNode
  split_ifs
  · exact h
  · have h₁ : Weighed (s.modify 0 fun node => { node with stream := some id, state := .active }) :=
      h.congr (modify_field Node.children rfl) (modify_field Node.childrensWeight rfl)
        fun _ c _ => modify_field Node.weight rfl c
    exact h₁
  · have hother : ∀ x ≠ s.size,
        (s.allocate (newNode id (some id) (some 0))).node x = s.node x :=
      fun x hx => update_of_ne hx _ _
    intro p
    change ((s.allocate (newNode id (some id) (some 0))).node p).childrensWeight =
      (s.allocate (newNode id (some id) (some 0))).sumOfWeights p % 2 ^ 32
    by_cases hp : p = s.size
    · subst hp
      have hself : (s.allocate (newNode id (some id) (some 0))).node s.size =
          newNode id (some id) (some 0) := update_self _ _ _
      unfold sumOfWeights
      rw [hself]
      rfl
    · have hsum : (s.allocate (newNode id (some id) (some 0))).sumOfWeights p =
          s.sumOfWeights p :=
        sumOfWeights_congr (by rw [hother p hp]) fun c hc => by
          rw [hother c (htree.listing.bound_of_mem hc).2.ne]
      rw [hsum, hother p hp]
      exact h p

/-- The weight of an attached node changes. -/
theorem Weighed.setWeight (h : Weighed s) (htree : Tree s) (hatt : s.attached n)
    (hp : s.parent n = some p) (weight : UInt8) :
    Weighed ((s.modify p fun node =>
      { node with
        childrensWeight := ((node.childrensWeight +
          ((weight.toNat : ℤ) - (s.node n).weight.toNat)) % 2 ^ 32).toNat }).modify n
      fun node => { node with weight := weight }) := by
  set s₁ := s.modify p fun node =>
    { node with
      childrensWeight := ((node.childrensWeight +
        ((weight.toNat : ℤ) - (s.node n).weight.toNat)) % 2 ^ 32).toNat } with hs₁
  set s₂ := s₁.modify n fun node => { node with weight := weight } with hs₂
  have hne : p ≠ n := htree.forest.parent_ne hp
  have hchildren : ∀ x, (s₂.node x).children = (s.node x).children := fun x =>
    (modify_field Node.children rfl x).trans (modify_field Node.children rfl x)
  have hweight : ∀ x ≠ n, (s₂.node x).weight = (s.node x).weight := by
    intro x hx
    rw [hs₂, modify_node_of_ne hx]
    exact modify_field Node.weight rfl x
  have hself : (s₂.node n).weight = weight := by rw [hs₂, modify_node_self]
  intro x
  by_cases hx : x = p
  · subst hx
    -- the node is in the list once
    have hmem : n ∈ (s.node x).children := htree.toWired.mem_iff.mpr ⟨hatt, hp⟩
    have hperm := List.perm_cons_erase hmem
    have hnot : ∀ c ∈ (s.node x).children.erase n, c ≠ n := fun c hc he =>
      (htree.listing.nodup x).not_mem_erase (he ▸ hc)
    have hrest : ((s.node x).children.erase n).map (fun c => (s₂.node c).weight.toNat + 1) =
        ((s.node x).children.erase n).map fun c => (s.node c).weight.toNat + 1 :=
      List.map_congr_left fun c hc => by rw [hweight c (hnot c hc)]
    have hsum := (hperm.map fun c => (s.node c).weight.toNat + 1).sum_eq
    have hsum₂ := (hperm.map fun c => (s₂.node c).weight.toNat + 1).sum_eq
    rw [List.map_cons, List.sum_cons, hself, hrest] at hsum₂
    rw [List.map_cons, List.sum_cons] at hsum
    have hold := h x
    have hcw : (s₂.node x).childrensWeight = (((s.node x).childrensWeight +
        ((weight.toNat : ℤ) - (s.node n).weight.toNat)) % 2 ^ 32).toNat := by
      rw [hs₂, modify_node_of_ne hne, hs₁, modify_node_self]
    unfold sumOfWeights at hold ⊢
    rw [hchildren, hcw, hsum₂, hold, hsum]
    omega
  · have hcw : (s₂.node x).childrensWeight = (s.node x).childrensWeight := by
      rw [modify_field Node.childrensWeight rfl x, hs₁, modify_node_of_ne hx]
    rw [sumOfWeights_congr (hchildren x) fun c hc => hweight c ?_, hcw]
    · exact h x
    · rintro rfl
      exact hx (Option.some.inj ((htree.toWired.parent_of_mem hc).symm.trans hp))

theorem Weighed.maybeSetWeight (h : Weighed s) (htree : Tree s) {id : ℕ} {weight : UInt8}
    {err : Option SchedulerError} (heq : s.maybeSetWeight id weight = some (s', err)) :
    Weighed s' := by
  unfold StreamScheduler.maybeSetWeight at heq
  by_cases hid : id = 1 ∨ id = 3
  · rw [if_pos hid] at heq
    cases heq
    exact h
  rw [if_neg hid] at heq
  cases hn : s.nodeMap id with
  | none =>
    rw [hn] at heq
    cases heq
    exact h
  | some n =>
    rw [hn] at heq
    dsimp only at heq
    by_cases hw : (s.node n).weight = weight
    · rw [if_pos hw] at heq
      cases heq
      exact h
    rw [if_neg hw] at heq
    by_cases hatt : s.attached n
    · obtain ⟨p, hp, -⟩ := htree.parent_of_known (fun h3 => hid (Or.inr h3)) hn
      have hp' : (s.node n).parent = some p := hp
      rw [if_pos hatt, hp'] at heq
      cases heq
      exact h.setWeight htree hatt hp weight
    · rw [if_neg hatt] at heq
      cases heq
      -- a node that is in no list counts nowhere
      refine h.congr (modify_field Node.children rfl) (modify_field Node.childrensWeight rfl)
        fun p c hc => ?_
      rw [modify_node_of_ne]
      rintro rfl
      exact hatt (htree.toWired.mem_iff.mp hc).1

theorem Weighed.setActive (h : Weighed s) {id : ℕ} {err : Option SchedulerError}
    (heq : s.setActive id = some (s', err)) : Weighed s' := by
  obtain rfl | ⟨n, p, t, -, -, -, hadd, rfl⟩ := setActive_cases heq
  · exact h
  · have h₁ : Weighed (s.modify n fun node => { node with state := .active }) :=
      h.congr (modify_field Node.children rfl) (modify_field Node.childrensWeight rfl)
        fun _ c _ => modify_field Node.weight rfl c
    have ht : Weighed t := h₁.addWeightUp hadd
    exact ht

/-! ## Re-prioritisation of a node that is in no list -/

/-- Only parent pointers have changed. -/
def Repoints (s s' : StreamScheduler) : Prop :=
  ∀ x, ({ s'.node x with parent := none } : Node) = { s.node x with parent := none }

namespace Repoints

theorem rfl : Repoints s s := fun _ => Eq.refl _

theorem trans {s'' : StreamScheduler} (h : Repoints s s') (h' : Repoints s' s'') :
    Repoints s s'' := fun x => (h' x).trans (h x)

theorem setPointer (s : StreamScheduler) (c : ℕ) (ptr : Option ℕ) :
    Repoints s (s.setPointer c ptr) :=
  fun x => modify_field (fun node => { node with parent := none }) (Eq.refl _) x

theorem children_eq (h : Repoints s s') (x : ℕ) : (s'.node x).children = (s.node x).children :=
  (congrArg Node.children (h x) : _)

theorem attached (h : Repoints s s') (x : ℕ) : s'.attached x ↔ s.attached x := by
  have hstate : (s'.node x).state = (s.node x).state := (congrArg Node.state (h x) : _)
  have hactive : (s'.node x).activeChildren = (s.node x).activeChildren :=
    (congrArg Node.activeChildren (h x) : _)
  unfold StreamScheduler.attached
  rw [hstate, hactive]

end Repoints

theorem Weighed.of_repoints (h : Weighed s) (hr : Repoints s s') : Weighed s' :=
  h.congr hr.children_eq (fun p => (congrArg Node.childrensWeight (hr p) : _))
    fun _ c _ => (congrArg Node.weight (hr c) : _)

/-- The loop over the ancestors of a new parent that is in no list. -/
theorem repoints_moveIfDependent {child newParent : ℕ} {oldParent : Option ℕ}
    (hatt : ¬ s.attached newParent)
    (heq : moveIfDependent child newParent oldParent fuel s n = some s') : Repoints s s' := by
  induction fuel generalizing s n with
  | zero => cases heq
  | succ fuel ih =>
    rw [moveIfDependent] at heq
    cases hp : (s.node n).parent with
    | none =>
      rw [hp] at heq
      cases heq
      exact Repoints.rfl
    | some p =>
      rw [hp] at heq
      by_cases hc : n = child
      · rw [if_pos hc, moveNewParent, if_neg hatt] at heq
        obtain ⟨s₁, hs₁, heq⟩ := Option.bind_eq_some_iff.mp heq
        obtain ⟨next, -, heq⟩ := Option.bind_eq_some_iff.mp heq
        cases hs₁
        have hr := Repoints.setPointer s newParent oldParent
        exact hr.trans (ih (fun ha => hatt ((hr.attached newParent).mp ha)) heq)
      · rw [if_neg hc] at heq
        obtain ⟨s₁, hs₁, heq⟩ := Option.bind_eq_some_iff.mp heq
        obtain ⟨next, -, heq⟩ := Option.bind_eq_some_iff.mp heq
        cases hs₁
        exact ih hatt heq

/-- A child that is in no list is moved, and takes no children over. -/
theorem repoints_setParent (h : Tree s) {child newParent : ℕ} {exclusive : Bool}
    (hatt : ¬ s.attached child) (hnone : exclusive = true → (s.node newParent).children = [])
    (heq : s.setParent child newParent exclusive = some s') : Repoints s s' := by
  obtain ⟨start, hstart, heq⟩ := Option.bind_eq_some_iff.mp heq
  obtain ⟨s₁, hmove, heq⟩ := Option.bind_eq_some_iff.mp heq
  obtain ⟨s₂, hdetach, heq⟩ := Option.bind_eq_some_iff.mp heq
  -- the new parent is in no list either, if it depends on the child
  have hr₁ : Repoints s s₁ := by
    by_cases hnew : s.attached newParent
    · have hnot : ¬ Above s.parent child start := fun ha =>
        hatt (h.toWired.attached_of_above hnew (ha.of_parent hstart))
      rw [moveIfDependent_of_not_above h.forest hnot (Wired.rank_lt_fuel s start)] at hmove
      cases hmove
      exact Repoints.rfl
    · exact repoints_moveIfDependent hnew hmove
  have hr₂ : Repoints s₁ s₂ := by
    rw [detachChild] at hdetach
    cases hp : (s₁.node child).parent with
    | none =>
      rw [hp] at hdetach
      cases hdetach
      exact Repoints.rfl
    | some p =>
      rw [hp] at hdetach
      dsimp only at hdetach
      rw [if_neg fun ha => hatt ((hr₁.attached child).mp ha)] at hdetach
      cases hdetach
      exact Repoints.setPointer s₁ child none
  have hr := hr₁.trans hr₂
  have hattach : s₂.attachChild child newParent = some s' := by
    cases exclusive with
    | false => exact heq
    | true =>
      rw [if_pos rfl, hr.children_eq, hnone rfl] at heq
      exact heq
  have hr₃ := Repoints.setPointer s₂ child (some newParent)
  have hidle : ¬ (s₂.setPointer child (some newParent)).attached child := fun ha =>
    hatt ((hr.trans hr₃).attached child |>.mp ha)
  change (if (s₂.setPointer child (some newParent)).attached child then _ else
    some (s₂.setPointer child (some newParent))) = some s' at hattach
  rw [if_neg hidle] at hattach
  cases hattach
  exact hr.trans hr₃

theorem Weighed.maybeSetParent (h : Weighed s) (htree : Tree s) {childID parentID : ℕ}
    {exclusive : Bool} {err : Option SchedulerError}
    (hok : ∀ m ∈ s.reparents childID parentID exclusive,
      ¬ s.attached m.1 ∧ (exclusive = true → (s.node m.2).children = []))
    (heq : s.maybeSetParent childID parentID exclusive = some (s', err)) : Weighed s' := by
  rcases s.maybeSetParent_cases childID parentID exclusive with
    ⟨err', hsame⟩ | ⟨child, newParent, -, -, -, hmoves, hset⟩
  · rw [hsame] at heq
    cases heq
    exact h
  · rw [hset] at heq
    obtain ⟨s₁, hs₁, hpair⟩ := Option.map_eq_some_iff.mp heq
    cases hpair
    obtain ⟨hatt, hnone⟩ := hok (child, newParent) hmoves
    exact h.of_repoints (repoints_setParent htree hatt hnone hs₁)

/-! ## Scheduling -/

/-- If the finished nodes of the tree have children, nothing is taken out of the lists. -/
theorem Prunes.length_eq (hprune : Prunes view s s') (h : Wired s) (h' : Wired s')
    (hleaf : ∀ n < s.size, s.parent n ≠ none → s.attached n → s.finished view n →
      (s.node n).children ≠ []) (x : ℕ) :
    (s'.node x).children.length = (s.node x).children.length := by
  refine List.Perm.length_eq ((List.perm_ext_iff_of_nodup (h'.listing.nodup x)
    (h.listing.nodup x)).mpr fun c => ?_)
  rw [h'.mem_iff, h.mem_iff, hprune.parent_eq]
  refine and_congr_left fun hc => ⟨hprune.attached h h', fun hatt => ?_⟩
  -- an active leaf below `c` is not finished, and so stays active
  obtain ⟨m, hm, hnil, hcm⟩ := h.exists_active_leaf hatt
  have hmp : s.parent m ≠ none := by
    intro hnone
    rw [eq_of_above_of_none hnone hcm, hnone] at hc
    cases hc
  have hms := h.lt_size_of_above hcm (h.lt_size hc).1
  have hfin : ¬ s.finished view m := fun hfin => hleaf m hms hmp (Or.inl hm) hfin hnil
  exact h'.attached_iff.mpr
    ⟨m, hprune.active_of_not_finished hm hfin, by rwa [hprune.parent_eq]⟩

theorem Weighed.of_prunes (h : Weighed s) (hprune : Prunes view s s')
    (hlen : ∀ x, (s'.node x).children.length = (s.node x).children.length) : Weighed s' := by
  have hsame : ∀ x, (s'.node x).children = (s.node x).children ∧
      (s'.node x).childrensWeight = (s.node x).childrensWeight := by
    intro x
    rcases hprune.shrinks x with hsame | hlt
    · exact hsame
    · rw [hlen x] at hlt
      exact absurd hlt (lt_irrefl _)
  exact h.congr (fun x => (hsame x).1) (fun x => (hsame x).2) fun _ c _ => hprune.weight_eq c

end StreamScheduler

/-! ## Runs -/

open StreamScheduler (Tree Weighed)

/-- The call takes no node out of a list. -/
def SchedulerOp.RemovesNothing (s : StreamScheduler) : SchedulerOp → Prop
  | .maybeSetParent childID parentID exclusive =>
    ∀ m ∈ s.reparents childID parentID exclusive,
      ¬ s.attached m.1 ∧ (exclusive = true → (s.node m.2).children = [])
  | .schedule view =>
    ∀ n < s.size, s.parent n ≠ none → s.attached n → s.finished view n → (s.node n).children ≠ []
  | _ => True

instance (s : StreamScheduler) : DecidablePred (SchedulerOp.RemovesNothing s)
  | .addNode _ | .maybeSetWeight .. | .setActive _ => inferInstanceAs (Decidable True)
  | .maybeSetParent .. => inferInstanceAs (Decidable (∀ _ ∈ _, _))
  | .schedule _ => inferInstanceAs (Decidable (∀ _ < _, _))

/-- A sound call that removes nothing keeps the sums right. -/
theorem SchedulerOp.weighed_apply {s s' : StreamScheduler} {op : SchedulerOp} (htree : Tree s)
    (h : Weighed s) (hsound : op.Sound s) (hop : op.RemovesNothing s)
    (heq : op.apply s = some s') : Weighed s' := by
  cases op, s', heq using SchedulerOp.apply_cases with
  | addNode id =>
    exact h.addNode htree id
  | maybeSetWeight id weight t err heq hcall =>
    exact h.maybeSetWeight htree hcall
  | maybeSetParent childID parentID exclusive t err heq hcall =>
    exact h.maybeSetParent htree hop hcall
  | setActive id t err heq hcall =>
    exact h.setActive hcall
  | schedule view strm t heq hcall =>
    obtain ⟨r, t', hcall', htree', hprune⟩ := htree.schedule hsound
    cases hcall.symm.trans hcall'
    exact h.of_prunes hprune (hprune.length_eq htree.toWired htree'.toWired hop)

namespace SchedulerRun

/-- No call of the run meets a defect or takes a node out of a list. -/
def Steady (ops : List SchedulerOp) : Prop :=
  Runs.Along step (fun o op => ∀ s ∈ o, op.Sound s ∧ op.RemovesNothing s)
    (some newStreamScheduler) ops

instance : DecidablePred Steady := fun _ => inferInstanceAs (Decidable (Runs.Along ..))

/-- After a steady run the state is a tree with the right sums. -/
theorem weighed {ops : List SchedulerOp} (h : Steady ops) :
    ∃ s, run ops = some s ∧ Tree s ∧ Weighed s := by
  refine Runs.Along.invariant (P := fun o => ∃ s, o = some s ∧ Tree s ∧ Weighed s) h
    ⟨_, rfl, StreamScheduler.tree_new, StreamScheduler.weighed_new⟩ ?_
  rintro o op ⟨s, rfl, htree, hw⟩ hop
  obtain ⟨hsound, hkeeps⟩ := hop s rfl
  obtain ⟨s', heq, htree'⟩ := SchedulerOp.tree_apply htree hsound
  exact ⟨s', heq, htree', SchedulerOp.weighed_apply htree hw hsound hkeeps heq⟩

end SchedulerRun

open SchedulerRun (run Steady)
open SchedulerOp

/-- **As long as nothing is removed, `childrensWeight` is the sum of the weights.** -/
theorem steady_weights {ops : List SchedulerOp} (h : Steady ops) :
    ∃ s, run ops = some s ∧ ∀ p, (s.node p).childrensWeight = s.sumOfWeights p := by
  obtain ⟨s, heq, htree, hw⟩ := SchedulerRun.weighed h
  refine ⟨s, heq, fun p => ?_⟩
  rw [hw p, Nat.mod_eq_of_lt (htree.sumOfWeights_lt p)]

/-- Streams get priorities before they become active, and their weights change afterwards. -/
def weightsChange : List SchedulerOp :=
  [addNode 3, addNode 5, addNode 7, addNode 9, maybeSetWeight 7 255, maybeSetParent 7 5 false,
    maybeSetParent 9 5 true, setActive 7, setActive 9, maybeSetWeight 7 0, maybeSetWeight 5 31,
    schedule (viewOf [5] [7]), schedule (viewOf [] [9])]

theorem weightsChange_weights :
    Steady weightsChange ∧ ∃ s, run weightsChange = some s ∧
      ∀ p, (s.node p).childrensWeight = s.sumOfWeights p := by
  have hsteady : Steady weightsChange := by decide +kernel
  exact ⟨hsteady, steady_weights hsteady⟩

/-- The only stream finishes. -/
def streamFinishes : List SchedulerOp :=
  [addNode 5, setActive 5, schedule (viewOf [5] [])]

/-- **A weight of 2 is left when the only stream has finished.** -/
theorem streamFinishes_weights :
    (streamFinishes.filterMap activated).Nodup ∧ ∃ s, run streamFinishes = some s ∧
      (s.node 0).childrensWeight = 2 ∧ s.sumOfWeights 0 = 0 := by
  refine ⟨by decide, ?_⟩
  obtain ⟨s, heq, hcw, hnil⟩ : ∃ s ∈ run streamFinishes, (s.node 0).childrensWeight = 2 ∧
      (s.node 0).children = [] := by
    decide +kernel
  refine ⟨s, heq, hcw, ?_⟩
  rw [StreamScheduler.sumOfWeights, hnil]
  rfl

end MultipathQuic
