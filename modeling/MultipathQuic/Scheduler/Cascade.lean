import MultipathQuic.Scheduler.Listing

/-!
# Cascades

`addWeight` and `removeWeight` put one node into a list or take it out, and then do the same to
those ancestors that become attached or cease to be.

`removeWeight` does not look at the state of a node whose last child it has removed. If the node is
active, it loses its place in the tree.

## Main definitions

* `Climbs`: what changes on the way up
* `keepsPlace`: no active node loses its place

## Main results

* `Listing.addWeightUp`, `Listing.removeWeightUp`: the two cascades
-/

namespace MultipathQuic

open Function Forest

/-- The fields of a node that `addWeight` and `removeWeight` leave alone. -/
def Node.fixed (node : Node) : Node :=
  { node with children := [], activeChildren := 0, nextChild := 0, childrensWeight := 0 }

namespace StreamScheduler

variable {s s' s'' : StreamScheduler} {listed par : ℕ → Option ℕ} {n p q c x fuel : ℕ}

/-- From `s` to `s'`, only the lists of nodes above `p` have changed. -/
structure Climbs (s s' : StreamScheduler) (p : ℕ) : Prop where
  size_eq : s'.size = s.size
  nodeMap_eq : s'.nodeMap = s.nodeMap
  toSend_eq : s'.toSend = s.toSend
  fixed_eq : ∀ x, (s'.node x).fixed = (s.node x).fixed
  node_eq : ∀ x, ¬ Above s.parent x p → s'.node x = s.node x

namespace Climbs

theorem parent_eq (h : Climbs s s' p) : s'.parent = s.parent :=
  funext fun x => (congrArg Node.parent (h.fixed_eq x) : _)

theorem state_eq (h : Climbs s s' p) (x : ℕ) : (s'.node x).state = (s.node x).state :=
  (congrArg Node.state (h.fixed_eq x) : _)

theorem stream_eq (h : Climbs s s' p) (x : ℕ) : (s'.node x).stream = (s.node x).stream :=
  (congrArg Node.stream (h.fixed_eq x) : _)

theorem weight_eq (h : Climbs s s' p) (x : ℕ) : (s'.node x).weight = (s.node x).weight :=
  (congrArg Node.weight (h.fixed_eq x) : _)

theorem id_eq (h : Climbs s s' p) (x : ℕ) : (s'.node x).id = (s.node x).id :=
  (congrArg Node.id (h.fixed_eq x) : _)

/-- A cascade from the parent is a cascade from the node. -/
theorem trans_parent (h : Climbs s s' n) (hp : s.parent n = some p) (h' : Climbs s' s'' p) :
    Climbs s s'' n where
  size_eq := h'.size_eq.trans h.size_eq
  nodeMap_eq := h'.nodeMap_eq.trans h.nodeMap_eq
  toSend_eq := h'.toSend_eq.trans h.toSend_eq
  fixed_eq x := (h'.fixed_eq x).trans (h.fixed_eq x)
  node_eq x hx := by
    rw [h'.node_eq x, h.node_eq x hx]
    rw [h.parent_eq]
    exact fun ha => hx (ha.of_parent hp)

theorem of_modify {f : Node → Node} (hf : (f (s.node n)).fixed = (s.node n).fixed) :
    Climbs s (s.modify n f) n where
  size_eq := rfl
  nodeMap_eq := rfl
  toSend_eq := rfl
  fixed_eq x := by
    by_cases hx : x = n
    · subst hx
      rw [modify_node_self, hf]
    · rw [modify_node_of_ne hx]
  node_eq x hx := modify_node_of_ne fun h => hx (h ▸ Above.refl x)

end Climbs

theorem climbs_appendChild (s : StreamScheduler) (p c : ℕ) : Climbs s (s.appendChild p c) p :=
  Climbs.of_modify rfl

theorem climbs_dropChild (s : StreamScheduler) (p c : ℕ) : Climbs s (s.dropChild p c) p := by
  unfold dropChild
  exact Climbs.of_modify (by simp only [Node.fixed])

/-- A change that keeps the attachment of all nodes but `p` moves at most `p`. -/
theorem canon_update (h : ∀ n ≠ p, s'.attached n ↔ s.attached n) :
    s.canon par = update (s'.canon par) p (s.canon par p) := by
  funext n
  by_cases hn : n = p
  · rw [hn, update_self]
  · rw [update_of_ne hn]
    unfold canon
    simp only [h n hn]

theorem attached_congr (h : s'.node n = s.node n) : s'.attached n ↔ s.attached n := by
  unfold attached
  rw [h]

/-- The lists are complete if only `p` has changed, and `p` has kept its place. -/
theorem Listing.of_same_place (hl : Listing s' (s.canon par))
    (hother : ∀ n ≠ p, s'.node n = s.node n) (hsame : s.canon par p = s'.canon par p) :
    Listing s' (s'.canon par) := by
  have hmoved : s.canon par = update (s'.canon par) p (s.canon par p) :=
    canon_update fun n hn => attached_congr (hother n hn)
  rwa [hmoved, hsame, update_eq_self] at hl

/-! ## Adding -/

theorem children_appendChild (s : StreamScheduler) (p c : ℕ) :
    ((s.appendChild p c).node p).children = (s.node p).children ++ [c] := by
  simp [StreamScheduler.appendChild]

theorem children_subset_appendChild (s : StreamScheduler) (p c x : ℕ) :
    (s.node x).children ⊆ ((s.appendChild p c).node x).children := by
  by_cases hx : x = p
  · rw [hx, children_appendChild]
    exact List.subset_append_left _ _
  · rw [StreamScheduler.appendChild, modify_node_of_ne hx]
    exact List.Subset.refl _

/-- **`addWeight` puts a node into the tree.** The node stands nowhere, though it is attached; the
parents `par` are those of the tree that is being built. -/
theorem Listing.addWeightUp (h : Listing s (update (s.canon par) c none)) (hc : s.attached c)
    (hpc : par c = some p) (hc0 : c ≠ 0) (hcs : c < s.size) (hps : p < s.size)
    (hf : IsForest s.parent s.pointers) (hroot : s.parent 0 = none)
    (hcp : ¬ Above s.parent c p) (hpar : ∀ x, Above s.parent x p → par x = s.parent x)
    (hfuel : rank s.parent s.pointers p < fuel) :
    ∃ s', addWeightUp fuel s p c = some s' ∧ Listing s' (s'.canon par) ∧ Climbs s s' p ∧
      ∀ x, (s.node x).children ⊆ (s'.node x).children := by
  induction fuel generalizing s p c with
  | zero => omega
  | succ fuel ih =>
    have hclimb := climbs_appendChild s p c
    have hother : ∀ x ≠ p, (s.appendChild p c).node x = s.node x := fun x hx => modify_node_of_ne hx
    have hnew := children_appendChild s p c
    have hl := h.appendChild (by rw [update_self]) hc0 hcs hps
    have hcanon : s.canon par c = some p := (canon_of_attached hc).trans hpc
    rw [update_idem, ← hcanon, update_eq_self] at hl
    have hsub := children_subset_appendChild s p c
    have hmem : c ∈ ((s.appendChild p c).node p).children := by
      rw [hnew]
      exact List.mem_append_right _ (List.mem_singleton_self c)
    have hattached : (s.appendChild p c).attached p := hl.attached_of_mem hmem
    have hmoved : s.canon par = update ((s.appendChild p c).canon par) p (s.canon par p) :=
      canon_update fun n hn => attached_congr (hother n hn)
    have hlen : ((s.appendChild p c).node p).activeChildren = (s.node p).children.length + 1 := by
      rw [hl.active, hnew, List.length_append, List.length_singleton]
    -- the lists are complete unless `p` has become attached and has a parent
    have hdone := hl.of_same_place hother
    rw [StreamScheduler.addWeightUp]
    have hparent : ((s.appendChild p c).node p).parent = s.parent p := congrFun hclimb.parent_eq p
    rw [hparent]
    cases hq : s.parent p with
    | none =>
      have hnone : par p = none := (hpar p (Above.refl p)).trans hq
      refine ⟨_, rfl, hdone ?_, hclimb, hsub⟩
      rw [canon_of_attached hattached, hnone]
      unfold canon
      split_ifs <;> [exact hnone; rfl]
    | some q =>
      have hparq : par p = some q := (hpar p (Above.refl p)).trans hq
      have hp0 : p ≠ 0 := by
        rintro rfl
        rw [hroot] at hq
        cases hq
      by_cases hatt : s.attached p
      · refine ⟨_, ?_, hdone ?_, hclimb, hsub⟩
        · dsimp only
          rw [if_neg]
          rintro ⟨hstate, hone⟩
          rcases hatt with hactive | hpos
          · exact hstate ((hclimb.state_eq p).trans hactive)
          · have hold : (s.node p).activeChildren = (s.node p).children.length := by
              have := h.active p
              exact this
            omega
        · rw [canon_of_attached hatt, canon_of_attached hattached]
      · have hcond : ((s.appendChild p c).node p).state ≠ .active ∧
            ((s.appendChild p c).node p).activeChildren = 1 := by
          refine ⟨fun hactive => hatt (Or.inl ((hclimb.state_eq p).symm.trans hactive)), ?_⟩
          have hzero : ¬ (s.node p).activeChildren > 0 := fun hpos => hatt (Or.inr hpos)
          rw [h.active] at hzero
          omega
        rw [hmoved, canon_of_not_attached hatt] at hl
        have hparent' := hclimb.parent_eq
        obtain ⟨s', heq, hl', hclimb', hsub'⟩ := ih hl hattached hparq
          hp0 hps (Finset.mem_range.mp (hf.mem hq).2) (by rw [hparent']; exact hf)
          (by rw [hparent']; exact hroot) (by rw [hparent']; exact hf.acyclic hq)
          (by rw [hparent']; exact fun x hx => hpar x (hx.of_parent hq))
          (by
            rw [hparent']
            have := hf.rank_lt hq
            change rank s.parent s.pointers q < fuel
            omega)
        refine ⟨s', ?_, hl', hclimb.trans_parent hq hclimb',
          fun x => List.Subset.trans (hsub x) (hsub' x)⟩
        dsimp only
        rw [if_pos hcond]
        exact heq

/-! ## Removing -/

/-- No active node loses its place when `p` loses a child: the nodes that are left without a child,
from `p` upwards, are not active. -/
def keepsPlace (s : StreamScheduler) : ℕ → ℕ → Prop
  | 0, _ => True
  | fuel + 1, p =>
    match (s.node p).parent with
    | none => True
    | some q => (s.node p).children.length = 1 → (s.node p).state ≠ .active ∧ keepsPlace s fuel q

instance keepsPlace.decidable (s : StreamScheduler) :
    (fuel p : ℕ) → Decidable (s.keepsPlace fuel p)
  | 0, _ => .isTrue trivial
  | fuel + 1, p =>
    have := keepsPlace.decidable s fuel
    match h : (s.node p).parent with
    | none => .isTrue (by rw [keepsPlace, h]; trivial)
    | some q => decidable_of_iff
        ((s.node p).children.length = 1 → (s.node p).state ≠ .active ∧ keepsPlace s fuel q)
        (by rw [keepsPlace, h])

theorem keepsPlace_succ (hq : s.parent p = some q) :
    s.keepsPlace (fuel + 1) p ↔
      ((s.node p).children.length = 1 → (s.node p).state ≠ .active ∧ s.keepsPlace fuel q) := by
  have hq' : (s.node p).parent = some q := hq
  rw [keepsPlace, hq']

theorem keepsPlace_congr (h : ∀ x, Above s.parent x p → s'.node x = s.node x)
    (hk : s.keepsPlace fuel p) : s'.keepsPlace fuel p := by
  induction fuel generalizing p with
  | zero => trivial
  | succ fuel ih =>
    have hnode := h p (Above.refl p)
    cases hq : s.parent p with
    | none =>
      have hq' : (s'.node p).parent = none := (congrArg Node.parent hnode).trans hq
      rw [keepsPlace, hq']
      trivial
    | some q =>
      rw [keepsPlace_succ hq] at hk
      have hq' : s'.parent p = some q := (congrArg Node.parent hnode).trans hq
      rw [keepsPlace_succ hq', hnode]
      intro hone
      exact ⟨(hk hone).1, ih (fun x hx => h x (hx.of_parent hq)) (hk hone).2⟩

theorem children_dropChild_subset (hc : c ∈ (s.node p).children) (x : ℕ) :
    ((s.dropChild p c).node x).children ⊆ (s.node x).children := by
  by_cases hx : x = p
  · rw [hx, children_dropChild hc]
    exact List.erase_subset
  · rw [dropChild_node_of_ne hx]
    exact List.Subset.refl _

/-- Only the dropped child leaves a list. -/
theorem mem_children_dropChild {m : ℕ} (hc : c ∈ (s.node p).children)
    (hm : m ∈ (s.node x).children) : m ∈ ((s.dropChild p c).node x).children ∨ m = c := by
  by_cases hx : x = p
  · subst hx
    by_cases hmc : m = c
    · exact Or.inr hmc
    · rw [children_dropChild hc]
      exact Or.inl ((List.mem_erase_of_ne hmc).mpr hm)
  · rw [dropChild_node_of_ne hx]
    exact Or.inl hm

/-- **`removeWeight` takes a node out of the tree,** if no active node loses its place. Only the
node and some that lie above its parent leave their lists. -/
theorem Listing.removeWeightUp (h : Listing s (update (s.canon par) c (some p)))
    (hc : s.canon par c = none) (hf : IsForest s.parent s.pointers)
    (hpar : ∀ x, Above s.parent x p → par x = s.parent x) (hsafe : s.keepsPlace fuel p)
    (hfuel : rank s.parent s.pointers p < fuel) :
    ∃ s', removeWeightUp fuel s p c = some s' ∧ Listing s' (s'.canon par) ∧ Climbs s s' p ∧
      (∀ x, (s'.node x).children ⊆ (s.node x).children) ∧
      ∀ x m, m ∈ (s.node x).children → m ∈ (s'.node x).children ∨ m = c ∨ Above s.parent m p := by
  induction fuel generalizing s p c with
  | zero => omega
  | succ fuel ih =>
    have hat : update (s.canon par) c (some p) c = some p := update_self _ _ _
    have hmem : c ∈ (s.node p).children := h.mem_iff.mpr hat
    have hclimb := climbs_dropChild s p c
    have hnew := children_dropChild hmem
    have hother : ∀ x ≠ p, (s.dropChild p c).node x = s.node x := fun x hx => dropChild_node_of_ne hx
    have hl := h.dropChild hat
    rw [update_idem, ← hc, update_eq_self] at hl
    have hsub := children_dropChild_subset hmem
    have hlost : ∀ x m, m ∈ (s.node x).children →
        m ∈ ((s.dropChild p c).node x).children ∨ m = c :=
      fun _ _ hm => mem_children_dropChild hmem hm
    have hattached : s.attached p := h.attached_of_mem hmem
    have hmoved : s.canon par = update ((s.dropChild p c).canon par) p (s.canon par p) :=
      canon_update fun n hn => attached_congr (hother n hn)
    have hdone := hl.of_same_place hother
    rw [StreamScheduler.removeWeightUp, if_neg (List.ne_nil_of_mem hmem)]
    have hroom : ¬ (((s.dropChild p c).node p).children ≠ [] ∧
        ((s.dropChild p c).node p).children.length % 2 ^ 16 = 0) := by
      rintro ⟨hne, hmod⟩
      rw [Nat.mod_eq_of_lt (hl.length_lt p)] at hmod
      exact hne (List.length_eq_zero_iff.mp hmod)
    have hparent : ((s.dropChild p c).node p).parent = s.parent p := congrFun hclimb.parent_eq p
    simp only [if_neg hroom, hparent]
    cases hq : s.parent p with
    | none =>
      have hnone : par p = none := (hpar p (Above.refl p)).trans hq
      refine ⟨_, rfl, hdone ?_, hclimb, hsub, fun x m hm => (hlost x m hm).imp_right Or.inl⟩
      unfold canon
      split_ifs <;> simp [hnone]
    | some q =>
      have hparq : par p = some q := (hpar p (Above.refl p)).trans hq
      by_cases hempty : ((s.dropChild p c).node p).activeChildren = 0
      · -- the last child is gone, and `p` is not active
        have hnil : ((s.dropChild p c).node p).children = [] := by
          rw [hl.active] at hempty
          exact List.length_eq_zero_iff.mp hempty
        have hone : (s.node p).children.length = 1 := by
          have hlen := List.length_erase_of_mem hmem
          have hpos := List.length_pos_of_mem hmem
          rw [← hnew, hnil, List.length_nil] at hlen
          omega
        obtain ⟨hstate, hup⟩ := (keepsPlace_succ hq).mp hsafe hone
        have hunattached : ¬ (s.dropChild p c).attached p := by
          rw [hl.attached_iff]
          rintro (hactive | hne)
          · exact hstate ((hclimb.state_eq p).symm.trans hactive)
          · exact hne hnil
        rw [hmoved, canon_of_attached hattached, hparq] at hl
        have hparent' := hclimb.parent_eq
        obtain ⟨s', heq, hl', hclimb', hsub', hlost'⟩ := ih hl (canon_of_not_attached hunattached)
          (by rw [hparent']; exact hf)
          (by rw [hparent']; exact fun x hx => hpar x (hx.of_parent hq))
          (keepsPlace_congr (fun x hx => hother x fun he => hf.acyclic hq (he ▸ hx)) hup)
          (by
            rw [hparent']
            have := hf.rank_lt hq
            change rank s.parent s.pointers q < fuel
            omega)
        refine ⟨s', ?_, hl', hclimb.trans_parent hq hclimb',
          fun x => List.Subset.trans (hsub' x) (hsub x), ?_⟩
        · dsimp only
          rw [if_pos hempty]
          exact heq
        · intro x m hm
          rcases hlost x m hm with hm | rfl
          · rcases hlost' x m hm with hm | rfl | hm
            · exact Or.inl hm
            · exact Or.inr (Or.inr (Above.refl m))
            · rw [hparent'] at hm
              exact Or.inr (Or.inr (hm.of_parent hq))
          · exact Or.inr (Or.inl rfl)
      · refine ⟨_, if_neg hempty, hdone ?_, hclimb, hsub,
          fun x m hm => (hlost x m hm).imp_right Or.inl⟩
        have hstill : (s.dropChild p c).attached p := Or.inr (Nat.pos_of_ne_zero hempty)
        rw [canon_of_attached hattached, canon_of_attached hstill]

end StreamScheduler

end MultipathQuic
