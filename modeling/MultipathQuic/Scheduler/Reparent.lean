import MultipathQuic.Scheduler.Tree

/-!
# Re-prioritisation

`maybeSetParent` takes the tree apart and puts it together again: a new parent that depends on the
child is moved out of the way, the child is cut off, the children of the new parent are handed to
the child if it shall be the only child, and the child is hung below its new parent.

Three defects of the source are left out by `CanReparent`. `removeWeight` does not look at the state
of a node that loses its last child, so that an active node can lose its place. The loop over the
children of the new parent ranges over an array whose elements it moves, so that it goes wrong for
more than two of them. And the stream with the ID 0 can become the child of itself.

## Main definitions

* `Moves s s' gone`: what a stage leaves alone
* `CanReparent`: no defect is met

## Main results

* `Tree.maybeSetParent`: a tree stays a tree
-/

namespace MultipathQuic

open Function Forest

namespace StreamScheduler

variable {s s' s'' : StreamScheduler} {par : ℕ → Option ℕ} {n p q o c x a fuel child newParent : ℕ}
  {moved : List ℕ}

/-! ## What a stage leaves alone -/

/-- From `s` to `s'` nodes may have been moved, but only those of `gone` are missing from lists. -/
structure Moves (s s' : StreamScheduler) (gone : ℕ → Prop) : Prop where
  size_eq : s'.size = s.size
  nodeMap_eq : s'.nodeMap = s.nodeMap
  state_eq : ∀ x, (s'.node x).state = (s.node x).state
  kept : ∀ x, ∀ m ∈ (s.node x).children, m ∈ (s'.node x).children ∨ gone m

namespace Moves

variable {gone gone' : ℕ → Prop}

theorem trans (h : Moves s s' gone) (h' : Moves s' s'' gone) : Moves s s'' gone where
  size_eq := h'.size_eq.trans h.size_eq
  nodeMap_eq := h'.nodeMap_eq.trans h.nodeMap_eq
  state_eq x := (h'.state_eq x).trans (h.state_eq x)
  kept x m hm := by
    rcases h.kept x m hm with hm | hm
    · exact h'.kept x m hm
    · exact Or.inr hm

theorem mono (h : Moves s s' gone) (hgone : ∀ m, gone m → gone' m) : Moves s s' gone' :=
  ⟨h.size_eq, h.nodeMap_eq, h.state_eq, fun x m hm => (h.kept x m hm).imp_right (hgone m)⟩

theorem of_climbs (h : Climbs s s' p)
    (hkept : ∀ x, ∀ m ∈ (s.node x).children, m ∈ (s'.node x).children ∨ gone m) :
    Moves s s' gone :=
  ⟨h.size_eq, h.nodeMap_eq, h.state_eq, hkept⟩

theorem setPointer (s : StreamScheduler) (c : ℕ) (ptr : Option ℕ) :
    Moves s (s.setPointer c ptr) gone := by
  refine ⟨Eq.refl _, Eq.refl _, state_setPointer s c ptr, fun x m hm => Or.inl ?_⟩
  rw [(sameLists_setPointer s c ptr).children_eq]
  exact hm

end Moves

/-! ## Moving a node -/

namespace Wired

/-- A node that stands in a list is taken out of it and put into the list of `q`. -/
theorem relocate (h : Wired s) (hatt : s.attached c) (hp : s.parent c = some p) (hq : q < s.size)
    (hnot : ¬ Above s.parent c q) (hk : s.keepsPlace (s.size + 1) p) :
    ∃ s₁ s₂, s.removeWeight p c = some s₁ ∧ s₁.addWeight q c = some s₂ ∧ Climbs s s₁ p ∧
      Climbs s₁ s₂ q ∧ (∀ x, (s₁.node x).children ⊆ (s.node x).children) ∧
      Wired (s₂.setPointer c (some q)) ∧
      (s₂.setPointer c (some q)).parent = update s.parent c (some q) ∧
      Moves s (s₂.setPointer c (some q)) (Above s.parent · c) := by
  obtain ⟨s₁, heq₁, hl₁, hclimb₁, hsub₁, hlost⟩ := h.detach hp fun _ => hk
  rw [if_pos hatt] at heq₁
  have hpar₁ := hclimb₁.parent_eq
  have hatt₁ : s₁.attached c :=
    (attached_congr (hclimb₁.node_eq c (h.forest.acyclic hp))).mpr hatt
  have hcut : Listing s₁ (s₁.canon (update (update s.parent c (some q)) c none)) := by
    rwa [update_idem]
  obtain ⟨s₂, heq₂, hl₂, hclimb₂, hsub₂⟩ := hcut.attach hatt₁ (update_self _ _ _) (h.ne_zero hp)
    (by rw [hclimb₁.size_eq]; exact Finset.mem_range.mp (h.forest.mem hp).1)
    (by rw [hclimb₁.size_eq]; exact hq)
    (by rw [hpar₁, pointers, hclimb₁.size_eq]; exact h.forest) (by rw [hpar₁]; exact h.root)
    (by rw [hpar₁]; exact hnot) (by
      rw [hpar₁]
      intro x hx
      refine update_of_ne ?_ _ _
      rintro rfl
      exact hnot hx)
  have hpar₂ : s₂.parent = s.parent := hclimb₂.parent_eq.trans hpar₁
  have hsize₂ : s₂.size = s.size := hclimb₂.size_eq.trans hclimb₁.size_eq
  refine ⟨s₁, s₂, heq₁, heq₂, hclimb₁, hclimb₂, hsub₁, Wired.setPointer ?_ ?_ ?_ ?_, ?_, ?_⟩
  · rwa [hpar₂]
  · rw [hpar₂, pointers, hsize₂]
    exact h.forest.hang (h.forest.mem hp).1 (Finset.mem_range.mpr hq) hnot
  · rw [hpar₂, update_of_ne (h.ne_zero hp).symm]
    exact h.root
  · rw [hsize₂]
    exact h.size_pos
  · rw [parent_setPointer, hpar₂]
  · refine (Moves.of_climbs hclimb₁ hlost).trans (Moves.trans ?_ (Moves.setPointer _ _ _))
    exact Moves.of_climbs hclimb₂ fun x m hm => Or.inl (hsub₂ x hm)

/-! ## Moving the new parent out of the way -/

/-- The new parent is moved from below the child to the old parent of the child. -/
theorem moveNewParent (h : Wired s) (hdep : Above s.parent child newParent)
    (hne : child ≠ newParent) (ho : s.parent child = some o)
    (hk : s.attached newParent → ∀ p, s.parent newParent = some p → s.keepsPlace (s.size + 1) p) :
    ∃ s', s.moveNewParent newParent (some o) = some s' ∧ Wired s' ∧
      s'.parent = update s.parent newParent (some o) ∧
      Moves s s' (Above s.parent · newParent) ∧
      (s'.node newParent).children = (s.node newParent).children ∧
      (¬ s.attached newParent → s' = s.setPointer newParent (some o)) := by
  obtain ⟨p, hp⟩ : ∃ p, s.parent newParent = some p := by
    rcases above_iff.mp hdep with he | ⟨p, hp, -⟩
    · exact absurd he hne
    · exact ⟨p, hp⟩
  have hnot : ¬ Above s.parent newParent o := fun ha =>
    h.forest.acyclic ho (hdep.trans ha)
  unfold StreamScheduler.moveNewParent
  by_cases hatt : s.attached newParent
  · obtain ⟨s₁, s₂, heq₁, heq₂, hclimb₁, hclimb₂, -, hw, hparent, hmoves⟩ := h.relocate hatt hp
      (Finset.mem_range.mp (h.forest.mem ho).2) hnot (hk hatt p hp)
    have hp' : (s.node newParent).parent = some p := hp
    have hnode : s₂.node newParent = s.node newParent := by
      rw [← hclimb₁.node_eq _ (h.forest.acyclic hp)]
      exact hclimb₂.node_eq _ (by rw [hclimb₁.parent_eq]; exact hnot)
    refine ⟨s₂.setPointer newParent (some o), ?_, hw, hparent, hmoves, ?_, fun hn => absurd hatt hn⟩
    · rw [if_pos hatt, hp']
      dsimp only [Option.bind_eq_bind, Option.bind_some]
      rw [heq₁]
      dsimp only [Option.bind_some]
      rw [heq₂]
      rfl
    · rw [(sameLists_setPointer s₂ newParent (some o)).children_eq, hnode]
  · refine ⟨s.setPointer newParent (some o), ?_, ?_, ?_, Moves.setPointer _ _ _,
      (sameLists_setPointer _ _ _).children_eq _, fun _ => rfl⟩
    · rw [if_neg hatt]
      rfl
    · refine Wired.setPointer ?_ (h.forest.hang (h.forest.mem hp).1 (h.forest.mem ho).2 hnot) ?_
        h.size_pos
      · rw [canon_update_of_not_attached hatt]
        exact h.listing
      · rw [update_of_ne (h.ne_zero hp).symm]
        exact h.root
    · rw [parent_setPointer]

end Wired

/-- The loop over the ancestors of the new parent does nothing if the child is not among them. -/
theorem moveIfDependent_of_not_above (hf : IsForest s.parent s.pointers)
    (hn : ¬ Above s.parent child n) (hfuel : rank s.parent s.pointers n < fuel)
    (oldParent : Option ℕ) :
    moveIfDependent child newParent oldParent fuel s n = some s := by
  induction fuel generalizing n with
  | zero => omega
  | succ fuel ih =>
    rw [moveIfDependent]
    cases hp : s.parent n with
    | none =>
      have hp' : (s.node n).parent = none := hp
      rw [hp']
    | some p =>
      have hp' : (s.node n).parent = some p := hp
      have hne : n ≠ child := by
        rintro rfl
        exact hn (Above.refl n)
      rw [if_neg hne]
      dsimp only [Option.bind_eq_bind, Option.bind_some]
      rw [hp']
      have hlt := hf.rank_lt hp
      exact ih (fun ha => hn (ha.of_parent hp)) (by omega)

/-- If the child is among the ancestors, the new parent is moved once. -/
theorem moveIfDependent_of_above (hf : IsForest s.parent s.pointers)
    (hn : Above s.parent child n) (hnp : ¬ Above s.parent newParent n)
    (ho : s.parent child = some o) (heq : s.moveNewParent newParent (some o) = some s')
    (hs' : IsForest s'.parent s.pointers) (hsize : s'.size = s.size)
    (hparent : s'.parent = update s.parent newParent (some o))
    (hfuel : rank s.parent s.pointers n < fuel) :
    moveIfDependent child newParent (some o) fuel s n = some s' := by
  induction fuel generalizing n with
  | zero => omega
  | succ fuel ih =>
    rw [moveIfDependent]
    obtain ⟨p, hp⟩ : ∃ p, s.parent n = some p := by
      rcases above_iff.mp hn with rfl | ⟨p, hp, -⟩
      · exact ⟨o, ho⟩
      · exact ⟨p, hp⟩
    have hp' : (s.node n).parent = some p := hp
    have hlt := hf.rank_lt hp
    rw [hp']
    by_cases hc : n = child
    · subst hc
      rw [ho] at hp
      cases hp
      rw [if_pos rfl, heq]
      have hno : ¬ Above s.parent newParent o := fun ha => hnp (ha.of_parent ho)
      have hnext : (s'.node n).parent = some o := by
        change s'.parent n = some o
        have hne : n ≠ newParent := by
          rintro rfl
          exact hnp (Above.refl n)
        rw [hparent, update_of_ne hne]
        exact ho
      dsimp only [Option.bind_eq_bind, Option.bind_some]
      rw [hnext]
      -- above the child nothing has changed
      have habove : ∀ a, Above s'.parent a o ↔ Above s.parent a o := fun a => by
        rw [hparent]
        exact above_hang_iff hno
      refine moveIfDependent_of_not_above ?_ ?_ ?_ _
      · rwa [pointers, hsize]
      · rw [habove]
        exact hf.acyclic ho
      · rw [pointers, hsize, rank_congr habove]
        change rank s.parent s.pointers o < fuel
        omega
    · rw [if_neg hc]
      dsimp only [Option.bind_eq_bind, Option.bind_some]
      rw [hp']
      exact ih (hn.above_parent_of_ne (Ne.symm hc) hp) (fun ha => hnp (ha.of_parent hp)) (by omega)

/-! ## Cutting the child off, and hanging it up -/

/-- The child is cut off its parent. -/
theorem Wired.detachChild (h : Wired s) (hp : s.parent child = some p)
    (hk : s.attached child → s.keepsPlace (s.size + 1) p) :
    ∃ s', s.detachChild child = some s' ∧ Wired s' ∧ s'.parent = update s.parent child none ∧
      Moves s s' (Above s.parent · child) ∧ ∀ x, (s'.node x).children ⊆ (s.node x).children := by
  obtain ⟨s₁, heq, hl, hclimb, hsub, hlost⟩ := h.detach hp hk
  have hp' : (s.node child).parent = some p := hp
  have hparent := hclimb.parent_eq
  refine ⟨s₁.setPointer child none, ?_, ?_, ?_, ?_, fun x => ?_⟩
  · rw [StreamScheduler.detachChild, hp']
    dsimp only
    by_cases hatt : s.attached child
    · rw [if_pos hatt] at heq ⊢
      rw [heq]
      rfl
    · rw [if_neg hatt] at heq ⊢
      cases heq
      rfl
  · refine Wired.setPointer ?_ ?_ ?_ ?_
    · rwa [hparent]
    · rw [hparent, pointers, hclimb.size_eq]
      exact h.forest.cut child
    · rw [hparent, update_of_ne (h.ne_zero hp).symm]
      exact h.root
    · rw [hclimb.size_eq]
      exact h.size_pos
  · rw [parent_setPointer, hparent]
  · exact (Moves.of_climbs hclimb hlost).trans (Moves.setPointer _ _ _)
  · rw [(sameLists_setPointer s₁ child none).children_eq]
    exact hsub x

/-- The child is hung below its new parent. -/
theorem Wired.attachChild (h : Wired s) (hchild : s.parent child = none) (hchild0 : child ≠ 0)
    (hcs : child < s.size) (hps : newParent < s.size)
    (hnot : ¬ Above s.parent child newParent) :
    ∃ s', s.attachChild child newParent = some s' ∧ Wired s' ∧
      s'.parent = update s.parent child (some newParent) ∧ s'.size = s.size ∧
      s'.nodeMap = s.nodeMap := by
  have hparent := parent_setPointer s child (some newParent)
  have hforest : IsForest (update s.parent child (some newParent)) s.pointers :=
    h.forest.hang (Finset.mem_range.mpr hcs) (Finset.mem_range.mpr hps) hnot
  have hroot : update s.parent child (some newParent) 0 = none := by
    rw [update_of_ne hchild0.symm]
    exact h.root
  -- the child has its new parent, but it is still in no list
  have hcut : update s.parent child none = s.parent := by
    rw [← hchild, update_eq_self]
  change ∃ s', (if (s.setPointer child (some newParent)).attached child then
    (s.setPointer child (some newParent)).addWeight newParent child else
    some (s.setPointer child (some newParent))) = some s' ∧ _
  by_cases hatt : s.attached child
  · have hl : Listing (s.setPointer child (some newParent))
        ((s.setPointer child (some newParent)).canon
          (update (update s.parent child (some newParent)) child none)) := by
      rw [update_idem, hcut, canon_congr (attached_setPointer s child (some newParent))]
      exact h.listing.of_sameLists (sameLists_setPointer s child (some newParent))
    have hatt' := (attached_setPointer s child (some newParent) child).mpr hatt
    obtain ⟨s', heq, hl', hclimb, -⟩ := hl.attach hatt' (update_self _ _ _) hchild0 hcs hps
      (by rw [hparent]; exact hforest) (by rw [hparent]; exact hroot)
      (by rw [hparent, above_hang_iff hnot]; exact hnot) (fun x _ => by rw [hparent])
    rw [if_pos hatt']
    have hparent' : s'.parent = update s.parent child (some newParent) :=
      hclimb.parent_eq.trans hparent
    have hsize' : s'.size = s.size := hclimb.size_eq
    refine ⟨s', heq, ⟨?_, ?_, ?_, ?_⟩, hparent', hsize', hclimb.nodeMap_eq⟩
    · rwa [hparent', pointers, hsize']
    · rwa [hparent']
    · rw [hsize']
      exact h.size_pos
    · rwa [hparent']
  · rw [if_neg fun ha => hatt ((attached_setPointer _ _ _ _).mp ha)]
    refine ⟨_, rfl, Wired.setPointer ?_ hforest hroot h.size_pos, hparent, rfl, rfl⟩
    rw [canon_update_of_not_attached hatt]
    exact h.listing

/-! ## Handing over the children of the new parent

`maybeSetParent` puts a node into the list of the child before it takes it out of the list of the
new parent. The child has no parent at that time, and the new parent is not below it, so that the
order of the two does not matter. -/

theorem modify_comm {f g : Node → Node} (h : x ≠ n) :
    (s.modify x f).modify n g = (s.modify n g).modify x f := by
  simp only [modify, update_of_ne h, update_of_ne h.symm, update_comm h]

theorem dropChild_modify {f : Node → Node} (hxp : x ≠ p) (hxc : x ≠ c) :
    (s.modify x f).dropChild p c = (s.dropChild p c).modify x f := by
  unfold StreamScheduler.dropChild
  simp only [modify_node_of_ne hxp.symm, modify_node_of_ne hxc.symm]
  exact modify_comm hxp

/-- `removeWeight` does not see a change of a node that is not above. -/
theorem removeWeightUp_modify {f : Node → Node} (hxp : ¬ Above s.parent x p) (hxc : x ≠ c) :
    removeWeightUp fuel (s.modify x f) p c = (removeWeightUp fuel s p c).map (·.modify x f) := by
  induction fuel generalizing s p c with
  | zero => rfl
  | succ fuel ih =>
    have hne : p ≠ x := by
      rintro rfl
      exact hxp (Above.refl p)
    have hparent := (climbs_dropChild s p c).parent_eq
    rw [removeWeightUp, removeWeightUp, modify_node_of_ne hne, dropChild_modify hne.symm hxc]
    dsimp only
    rw [modify_node_of_ne hne]
    cases hq : ((s.dropChild p c).node p).parent with
    | none =>
      split_ifs <;> rfl
    | some q =>
      have hq' : s.parent p = some q := (congrFun hparent p).symm.trans hq
      have hxq : ¬ Above (s.dropChild p c).parent x q := by
        rw [hparent]
        exact fun ha => hxp (ha.of_parent hq')
      split_ifs with hnil hroom hzero
      · rfl
      · rfl
      · exact ih hxq hne.symm
      · rfl

theorem addWeight_of_none (hp : s.parent p = none) (c : ℕ) :
    s.addWeight p c = some (s.appendChild p c) := by
  have hp' : ((s.appendChild p c).node p).parent = none :=
    (congrFun (climbs_appendChild s p c).parent_eq p).trans hp
  rw [addWeight, addWeightUp]
  simp only [hp']

/-- A child of the new parent becomes a child of the node that has been cut off. -/
theorem Wired.adopt (h : Wired s) (hchild : s.parent child = none) (hcs : child < s.size)
    (hc : c ∈ (s.node newParent).children) (hnot : ¬ Above s.parent child newParent)
    (hk : s.keepsPlace (s.size + 1) newParent) :
    ∃ s', s.adopt child newParent c = some s' ∧ Wired s' ∧
      s'.parent = update s.parent c (some child) ∧ Moves s s' (Above s.parent · c) ∧
      ∀ x ≠ child, (s'.node x).children ⊆ (s.node x).children := by
  obtain ⟨hatt, hp⟩ := h.mem_iff.mp hc
  have hne : child ≠ c := by
    rintro rfl
    rw [hchild] at hp
    cases hp
  have hcchild : ¬ Above s.parent c child := fun ha => hne (eq_of_above_of_none hchild ha).symm
  obtain ⟨s₁, s₂, heq₁, heq₂, hclimb₁, hclimb₂, hsub₁, hw, hparent, hmoves⟩ :=
    h.relocate hatt hp hcs hcchild hk
  have hpar₁ := hclimb₁.parent_eq
  rw [addWeight_of_none (by rw [hpar₁]; exact hchild)] at heq₂
  -- in the order of the source
  have hswap : (s.appendChild child c).removeWeight newParent c = some s₂ := by
    have hweight : (s₁.node c).weight = (s.node c).weight := hclimb₁.weight_eq c
    rw [removeWeight] at heq₁
    rw [removeWeight, ← heq₂]
    unfold appendChild
    rw [modify_size, removeWeightUp_modify hnot hne, heq₁, hweight]
    rfl
  refine ⟨s₂.setPointer c (some child), ?_, hw, hparent, hmoves, fun x hx => ?_⟩
  · rw [StreamScheduler.adopt, if_pos hatt, addWeight_of_none hchild]
    dsimp only [Option.bind_eq_bind, Option.bind_some]
    rw [hswap]
    rfl
  · rw [(sameLists_setPointer s₂ c (some child)).children_eq]
    have hnode : s₂.node x = s₁.node x :=
      hclimb₂.node_eq x (by rw [hpar₁]; exact fun ha => hx (eq_of_above_of_none hchild ha))
    rw [hnode]
    exact hsub₁ x

/-! ## What a re-prioritisation must not come across -/

/-- The node and its ancestors. -/
def path (s : StreamScheduler) (n : ℕ) : List ℕ := Forest.path s.parent (s.size + 1) n

theorem Wired.mem_path (h : Wired s) : a ∈ s.path n ↔ Above s.parent a n :=
  h.forest.mem_path (rank_lt_fuel s n)

theorem Wired.path_of_parent (h : Wired s) (hp : s.parent n = some p) :
    s.path n = n :: s.path p := by
  have hlt := h.forest.rank_lt hp
  have hn := rank_lt_fuel s n
  have heq := h.forest.path_eq (n := p) (by omega : _ < s.size) (by omega : _ < s.size + 1)
  unfold path
  rw [← heq, Forest.path, hp]

theorem Wired.path_root (h : Wired s) : s.path 0 = [0] := by
  unfold path
  rw [Forest.path, h.root]

/-- No active node from `a` upwards is left without a child when nodes of `moved` leave: the nodes
below the first one that keeps another child are not active. -/
def anchored (s : StreamScheduler) (moved : List ℕ) : ℕ → ℕ → Prop
  | 0, _ => True
  | fuel + 1, a =>
    match (s.node a).parent with
    | none => True
    | some q =>
      (∃ c ∈ (s.node a).children, c ∉ moved) ∨
        (s.node a).state ≠ .active ∧ anchored s moved fuel q

instance anchored.decidable (s : StreamScheduler) (moved : List ℕ) :
    (fuel a : ℕ) → Decidable (s.anchored moved fuel a)
  | 0, _ => .isTrue trivial
  | fuel + 1, a =>
    have := anchored.decidable s moved fuel
    match h : (s.node a).parent with
    | none => .isTrue (by rw [anchored, h]; trivial)
    | some q => decidable_of_iff
        ((∃ c ∈ (s.node a).children, c ∉ moved) ∨
          (s.node a).state ≠ .active ∧ s.anchored moved fuel q)
        (by rw [anchored, h])

theorem anchored_succ (hq : s.parent a = some q) :
    s.anchored moved (fuel + 1) a ↔
      (∃ c ∈ (s.node a).children, c ∉ moved) ∨
        (s.node a).state ≠ .active ∧ s.anchored moved fuel q := by
  have hq' : (s.node a).parent = some q := hq
  rw [anchored, hq']

/-- `maybeSetParent` does not run into a defect. -/
@[mk_iff]
structure CanReparent (s : StreamScheduler) (child newParent : ℕ) (exclusive : Bool) : Prop where
  ne : child ≠ newParent
  /-- A new parent that depends on the child leaves no active node without a child. -/
  movesUp : child ∈ s.path newParent → s.attached newParent →
    ∀ p ∈ s.parent newParent, s.keepsPlace (s.size + 1) p
  /-- Neither does the child, unless the new parent takes its place. -/
  leaves : ¬ (child ∈ s.path newParent ∧ s.attached newParent) → s.attached child →
    ∀ p ∈ s.parent child, s.keepsPlace (s.size + 1) p
  /-- Neither do the other children of the new parent, and they are at most two. -/
  handsOver : exclusive = true → (s.node newParent).children.erase child ≠ [] →
    ((s.node newParent).children.erase child).length ≤ 2 ∧ (s.node newParent).state ≠ .active ∧
      ∀ q ∈ (if child ∈ s.path newParent then s.parent child else s.parent newParent),
        s.anchored (s.path child ++ s.path newParent) s.size q

instance (s : StreamScheduler) (child newParent : ℕ) (exclusive : Bool) :
    Decidable (s.CanReparent child newParent exclusive) :=
  decidable_of_iff' _ (canReparent_iff ..)

/-- A node with two children keeps its place when one of them leaves. -/
theorem keepsPlace_of_mem_of_mem (hx : x ∈ (s.node p).children) (hc : c ∈ (s.node p).children)
    (hne : x ≠ c) : s.keepsPlace fuel p := by
  cases fuel with
  | zero => trivial
  | succ fuel =>
    cases hq : s.parent p with
    | none =>
      have hq' : (s.node p).parent = none := hq
      rw [keepsPlace, hq']
      trivial
    | some q =>
      rw [keepsPlace_succ hq]
      intro hone
      obtain ⟨m, hm⟩ := List.length_eq_one_iff.mp hone
      rw [hm, List.mem_singleton] at hx hc
      exact absurd (hx.trans hc.symm) hne

/-- What is anchored in `s` keeps its place in `s'`, where only nodes of `moved` have left. -/
theorem Wired.keepsPlace_of_anchored (h : Wired s')
    (hpar : ∀ y, Above s'.parent y a → s'.parent y = s.parent y)
    (hstate : ∀ y, (s'.node y).state = (s.node y).state)
    (hmoved : ∀ y, Above s'.parent y a → y ∈ moved)
    (hkept : ∀ y, Above s'.parent y a →
      ∀ m ∈ (s.node y).children, m ∉ moved → m ∈ (s'.node y).children)
    (hx : x ∈ (s'.node a).children) (hxm : x ∈ moved) (hanch : s.anchored moved fuel a) :
    s'.keepsPlace fuel a := by
  induction fuel generalizing a x with
  | zero => trivial
  | succ fuel ih =>
    cases hq : s'.parent a with
    | none =>
      have hq' : (s'.node a).parent = none := hq
      rw [keepsPlace, hq']
      trivial
    | some q =>
      have hq' : s.parent a = some q := (hpar a (Above.refl a)).symm.trans hq
      rcases (anchored_succ hq').mp hanch with ⟨c, hc, hcm⟩ | ⟨hidle, hrest⟩
      · refine keepsPlace_of_mem_of_mem (hkept a (Above.refl a) c hc hcm) hx ?_
        rintro rfl
        exact hcm hxm
      · rw [keepsPlace_succ hq]
        intro _
        have hmem : a ∈ (s'.node q).children := h.mem_iff.mpr ⟨h.listing.attached_of_mem hx, hq⟩
        exact ⟨by rwa [hstate], ih (fun y hy => hpar y (hy.of_parent hq))
          (fun y hy => hmoved y (hy.of_parent hq)) (fun y hy => hkept y (hy.of_parent hq)) hmem
          (hmoved a (Above.refl a)) hrest⟩

/-! ## The whole re-prioritisation -/

/-- The parents of the nodes once the new parent is out of the way and the child is cut off. -/
def cutParent (s : StreamScheduler) (child newParent : ℕ) : ℕ → Option ℕ :=
  update (if child ∈ s.path newParent then update s.parent newParent (s.parent child)
    else s.parent) child none

/-- The child is cut off, and the new parent hangs below `q`, which is not below the child. -/
structure Prepared (s s' : StreamScheduler) (child newParent q : ℕ) : Prop extends Wired s' where
  size_eq : s'.size = s.size
  nodeMap_eq : s'.nodeMap = s.nodeMap
  state_eq : ∀ x, (s'.node x).state = (s.node x).state
  child_lt : child < s'.size
  child_eq : s'.parent child = none
  newParent_eq : s'.parent newParent = some q
  parent_ne : ∀ x ≠ child, s.parent x ≠ none → s'.parent x ≠ none
  not_above : ¬ Above s'.parent child newParent
  children_subset : (s'.node newParent).children ⊆ (s.node newParent).children.erase child
  parent_eq : ∀ y, Above s'.parent y q → s'.parent y = s.parent y
  moved : ∀ y, Above s'.parent y q → y ∈ s.path child ++ s.path newParent
  kept : ∀ y, Above s'.parent y q → ∀ m ∈ (s.node y).children,
    m ∉ s.path child ++ s.path newParent → m ∈ (s'.node y).children

/-- The child is in no list any more. -/
theorem subset_erase_of_parent_none (h : Wired s') (hchild : s'.parent child = none) {l : List ℕ}
    (hsub : (s'.node newParent).children ⊆ l) :
    (s'.node newParent).children ⊆ l.erase child := by
  intro m hm
  refine (List.mem_erase_of_ne ?_).mpr (hsub hm)
  rintro rfl
  rw [h.parent_of_mem hm] at hchild
  cases hchild

/-- The first two stages, if the new parent does not depend on the child. -/
theorem Wired.prepare_of_not_above (h : Wired s) (hnot : ¬ Above s.parent child newParent)
    (hp : s.parent child = some p) (hq : s.parent newParent = some q)
    (hk : s.attached child → s.keepsPlace (s.size + 1) p) :
    ∃ s₁ s₂, moveIfDependent child newParent (some p) (s.size + 1) s q = some s₁ ∧
      s₁.detachChild child = some s₂ ∧ Prepared s s₂ child newParent q ∧
      s₂.parent = update s.parent child none := by
  have hnotq : ¬ Above s.parent child q := fun ha => hnot (ha.of_parent hq)
  have hne : newParent ≠ child := by
    rintro rfl
    exact hnot (Above.refl newParent)
  obtain ⟨s₂, heq, hw, hparent, hmoves, hsub⟩ := h.detachChild hp hk
  have hchild : s₂.parent child = none := by rw [hparent, update_self]
  refine ⟨s, s₂, moveIfDependent_of_not_above h.forest hnotq (rank_lt_fuel s q) _, heq, ⟨hw,
    hmoves.size_eq, hmoves.nodeMap_eq, hmoves.state_eq, ?_, hchild, ?_, fun x hx hxp => ?_, ?_,
    subset_erase_of_parent_none hw hchild (hsub newParent), fun y hy => ?_, fun y hy => ?_,
    fun y hy m hm hmoved => ?_⟩, hparent⟩
  · rw [hmoves.size_eq]
    exact Finset.mem_range.mp (h.forest.mem hp).1
  · rw [hparent, update_of_ne hne]
    exact hq
  · rwa [hparent, update_of_ne hx]
  · rw [hparent]
    exact fun ha => hnot ha.of_cut
  · rw [hparent] at hy ⊢
    refine update_of_ne ?_ _ _
    rintro rfl
    exact hnotq hy.of_cut
  · rw [hparent] at hy
    exact List.mem_append_right _ (h.mem_path.mpr (hy.of_cut.of_parent hq))
  · refine (hmoves.kept y m hm).resolve_right fun ha => hmoved ?_
    exact List.mem_append_left _ (h.mem_path.mpr ha)

/-- The first two stages, if the new parent depends on the child. -/
theorem Wired.prepare_of_above (h : Wired s) (hdep : Above s.parent child newParent)
    (hne : child ≠ newParent) (ho : s.parent child = some o) (hq : s.parent newParent = some q)
    (hup : s.attached newParent → s.keepsPlace (s.size + 1) q)
    (hk : ¬ s.attached newParent → s.attached child → s.keepsPlace (s.size + 1) o) :
    ∃ s₁ s₂, moveIfDependent child newParent (some o) (s.size + 1) s q = some s₁ ∧
      s₁.detachChild child = some s₂ ∧ Prepared s s₂ child newParent o ∧
      s₂.parent = update (update s.parent newParent (some o)) child none := by
  have hnpq : ¬ Above s.parent newParent q := h.forest.acyclic hq
  have hnpo : ¬ Above s.parent newParent o := fun ha => h.forest.acyclic ho (hdep.trans ha)
  have hnpc : ¬ Above s.parent newParent child := fun ha => hne (h.forest.antisymm hdep ha)
  obtain ⟨s₁, heq₁, hw₁, hparent₁, hmoves₁, hchildren₁, hidle⟩ := h.moveNewParent hdep hne ho
    fun hatt p hp => by
      rw [hq] at hp
      cases hp
      exact hup hatt
  have ho₁ : s₁.parent child = some o := by
    rw [hparent₁, update_of_ne hne]
    exact ho
  have hnp₁ : s₁.parent newParent = some o := by rw [hparent₁, update_self]
  -- the new parent stands next to the child, or nothing has moved
  have hk₁ : s₁.attached child → s₁.keepsPlace (s₁.size + 1) o := by
    intro hc
    by_cases hatt : s.attached newParent
    · have hatt₁ : s₁.attached newParent := by
        rw [hw₁.listing.attached_iff, hchildren₁, hmoves₁.state_eq, ← h.listing.attached_iff]
        exact hatt
      exact keepsPlace_of_mem_of_mem (hw₁.mem_iff.mpr ⟨hc, ho₁⟩) (hw₁.mem_iff.mpr ⟨hatt₁, hnp₁⟩) hne
    · have hs₁ := hidle hatt
      rw [hs₁] at hc ⊢
      refine keepsPlace_congr (fun x hx => modify_node_of_ne ?_)
        (hk hatt ((attached_setPointer _ _ _ _).mp hc))
      rintro rfl
      exact hnpo hx
  obtain ⟨s₂, heq₂, hw₂, hparent₂, hmoves₂, hsub₂⟩ := hw₁.detachChild ho₁ hk₁
  have hchild : s₂.parent child = none := by rw [hparent₂, update_self]
  have habove : ∀ {y}, Above s₂.parent y o → Above s.parent y o := by
    intro y hy
    rw [hparent₂, hparent₁] at hy
    exact (above_hang_iff hnpo).mp hy.of_cut
  have hmoves : Moves s s₂ (· ∈ s.path child ++ s.path newParent) := by
    refine (hmoves₁.mono fun m hm => ?_).trans (hmoves₂.mono fun m hm => ?_)
    · exact List.mem_append_right _ (h.mem_path.mpr hm)
    · rw [hparent₁, above_hang_iff hnpc] at hm
      exact List.mem_append_left _ (h.mem_path.mpr hm)
  refine ⟨s₁, s₂, ?_, heq₂, ⟨hw₂, hmoves.size_eq, hmoves.nodeMap_eq, hmoves.state_eq, ?_, hchild,
    ?_, fun x hx hxp => ?_, fun ha => ?_, subset_erase_of_parent_none hw₂ hchild ?_, fun y hy => ?_,
    fun y hy => ?_, fun y hy m hm hmoved => (hmoves.kept y m hm).resolve_right hmoved⟩,
    by rw [hparent₂, hparent₁]⟩
  · refine moveIfDependent_of_above h.forest (hdep.above_parent_of_ne hne hq) hnpq ho heq₁ ?_
      hmoves₁.size_eq hparent₁ (rank_lt_fuel s q)
    have := hw₁.forest
    rwa [pointers, hmoves₁.size_eq] at this
  · rw [hmoves.size_eq]
    exact Finset.mem_range.mp (h.forest.mem ho).1
  · rw [hparent₂, update_of_ne hne.symm]
    exact hnp₁
  · rw [hparent₂, update_of_ne hx, hparent₁]
    by_cases hxn : x = newParent
    · rw [hxn, update_self]
      exact Option.some_ne_none o
    · rwa [update_of_ne hxn]
  · have hnp₂ : s₂.parent newParent = some o := by
      rw [hparent₂, update_of_ne hne.symm]
      exact hnp₁
    exact h.forest.acyclic ho (habove (ha.above_parent_of_ne hne hnp₂))
  · rw [← hchildren₁]
    exact hsub₂ newParent
  · have hy' := habove hy
    rw [hparent₂, hparent₁, update_of_ne, update_of_ne]
    · rintro rfl
      exact hnpo hy'
    · rintro rfl
      exact h.forest.acyclic ho hy'
  · exact List.mem_append_left _ (h.mem_path.mpr ((habove hy).of_parent ho))

namespace Prepared

/-- No active node loses its place when the new parent loses its last child. -/
theorem keepsPlace (h : Prepared s s' child newParent q) (hw : Wired s)
    (hne : (s'.node newParent).children ≠ []) (hidle : (s.node newParent).state ≠ .active)
    (hanch : s.anchored (s.path child ++ s.path newParent) s.size q) :
    s'.keepsPlace (s'.size + 1) newParent := by
  rw [keepsPlace_succ h.newParent_eq]
  intro _
  have hatt : s'.attached newParent := h.listing.attached_iff.mpr (Or.inr hne)
  refine ⟨by rwa [h.state_eq], ?_⟩
  rw [h.size_eq]
  exact h.toWired.keepsPlace_of_anchored h.parent_eq h.state_eq h.moved h.kept
    (h.toWired.mem_iff.mpr ⟨hatt, h.newParent_eq⟩)
    (List.mem_append_right _ (hw.mem_path.mpr (Above.refl newParent))) hanch

/-- A child of the new parent is handed over. -/
theorem adopt (h : Prepared s s' child newParent q) (hw : Wired s)
    (hc : c ∈ (s'.node newParent).children) (hk : s'.keepsPlace (s'.size + 1) newParent) :
    ∃ s'', s'.adopt child newParent c = some s'' ∧ Prepared s s'' child newParent q ∧
      s''.parent = update s'.parent c (some child) ∧
      ∀ m, m ∈ (s''.node newParent).children ↔ m ∈ (s'.node newParent).children ∧ m ≠ c := by
  have hp := h.toWired.parent_of_mem hc
  have hcnp : ¬ Above s'.parent c newParent := h.forest.acyclic hp
  have hcq : ¬ Above s'.parent c q := fun ha => hcnp (ha.of_parent h.newParent_eq)
  have hnp : newParent ≠ child := by
    rintro rfl
    exact h.not_above (Above.refl newParent)
  have hne : child ≠ c := by
    rintro rfl
    rw [h.child_eq] at hp
    cases hp
  obtain ⟨s'', heq, hw'', hparent, hmoves, hsub⟩ :=
    h.toWired.adopt h.child_eq h.child_lt hc h.not_above hk
  have habove : ∀ {y}, Above s''.parent y q ↔ Above s'.parent y q := by
    rw [hparent]
    exact above_hang_iff hcq
  refine ⟨s'', heq, ⟨hw'', hmoves.size_eq.trans h.size_eq, hmoves.nodeMap_eq.trans h.nodeMap_eq,
    fun x => (hmoves.state_eq x).trans (h.state_eq x), ?_, ?_, ?_, fun x hx hxp => ?_, fun ha => ?_,
    List.Subset.trans (hsub newParent hnp) h.children_subset, fun y hy => ?_,
    fun y hy => h.moved y (habove.mp hy), fun y hy m hm hmoved => ?_⟩, hparent, fun m => ?_⟩
  · rw [hmoves.size_eq]
    exact h.child_lt
  · rw [hparent, update_of_ne hne]
    exact h.child_eq
  · have : newParent ≠ c := by
      rintro rfl
      exact hcnp (Above.refl newParent)
    rw [hparent, update_of_ne this]
    exact h.newParent_eq
  · rw [hparent]
    by_cases hxc : x = c
    · rw [hxc, update_self]
      exact Option.some_ne_none child
    · rw [update_of_ne hxc]
      exact h.parent_ne x hx hxp
  · rw [hparent] at ha
    exact h.not_above ((above_hang_iff hcnp).mp ha)
  · have hy' := habove.mp hy
    rw [← h.parent_eq y hy', hparent]
    refine update_of_ne ?_ _ _
    rintro rfl
    exact hcq hy'
  · -- the nodes that leave are `c` and those above the new parent
    have hm' := h.kept y (habove.mp hy) m hm hmoved
    refine (hmoves.kept y m hm').resolve_right fun ha => ?_
    by_cases hmc : m = c
    · subst hmc
      have hy' : y = newParent := Option.some.inj ((h.toWired.parent_of_mem hm').symm.trans hp)
      rw [hy'] at hy
      exact h.forest.acyclic h.newParent_eq (habove.mp hy)
    · have ha' := ha.above_parent_of_ne hmc hp
      by_cases hmn : m = newParent
      · rw [hmn] at hmoved
        exact hmoved (List.mem_append_right _ (hw.mem_path.mpr (Above.refl newParent)))
      · exact hmoved (h.moved m (ha'.above_parent_of_ne hmn h.newParent_eq))
  · constructor
    · intro hm
      refine ⟨hsub newParent hnp hm, ?_⟩
      rintro rfl
      have := hw''.parent_of_mem hm
      rw [hparent, update_self] at this
      exact hnp (Option.some.inj this).symm
    · rintro ⟨hm, hmc⟩
      refine (hmoves.kept newParent m hm).resolve_right fun ha => ?_
      exact h.forest.acyclic (h.toWired.parent_of_mem hm) (ha.above_parent_of_ne hmc hp)

/-- The children of the new parent are handed over, if they are at most two. -/
theorem adoptFrom (h : Prepared s s' child newParent q) (hw : Wired s)
    (hok : (s.node newParent).children.erase child ≠ [] →
      ((s.node newParent).children.erase child).length ≤ 2 ∧ (s.node newParent).state ≠ .active ∧
        s.anchored (s.path child ++ s.path newParent) s.size q) :
    ∃ s'', adoptFrom child newParent (s'.node newParent).children.length 0
      (s'.node newParent).children s' = some s'' ∧ Prepared s s'' child newParent q ∧
      ∀ x, s''.parent x =
        if x ∈ (s'.node newParent).children then some child else s'.parent x := by
  have hnodup := h.listing.nodup newParent
  have hself : ∀ c ∈ (s'.node newParent).children, c ≠ newParent := by
    intro c hc
    exact (h.forest.parent_ne (h.toWired.parent_of_mem hc)).symm
  have hle := (List.subperm_of_subset hnodup h.children_subset).length_le
  by_cases hnil : (s'.node newParent).children = []
  · rw [hnil]
    exact ⟨s', rfl, h, fun x => (if_neg List.not_mem_nil).symm⟩
  obtain ⟨htwo, hidle, hanch⟩ := hok fun he => hnil (List.subset_nil.mp (he ▸ h.children_subset))
  -- one child, or two
  match hl : (s'.node newParent).children with
  | [] => exact absurd hl hnil
  | [c] =>
    rw [hl] at hself
    obtain ⟨s'', heq, h'', hparent, -⟩ := h.adopt hw (hl ▸ List.mem_singleton_self c)
      (h.keepsPlace hw hnil hidle hanch)
    refine ⟨s'', ?_, h'', fun x => by simp only [hparent, update_apply, List.mem_singleton]⟩
    simp only [List.length_singleton, StreamScheduler.adoptFrom, List.getElem?_cons_zero,
      Option.bind_eq_bind, Option.bind_some, if_pos (hself c (List.mem_singleton_self c)), heq]
  | [c, d] =>
    rw [hl] at hself hnodup
    have hcd : c ≠ d := by
      rintro rfl
      simp at hnodup
    have hc : c ∈ (s'.node newParent).children := by simp [hl]
    have hd : d ∈ (s'.node newParent).children := by simp [hl]
    obtain ⟨s₁, heq₁, h₁, hparent₁, hmem⟩ := h.adopt hw hc (keepsPlace_of_mem_of_mem hc hd hcd)
    have hl₁ : (s₁.node newParent).children = [d] := by
      refine List.perm_singleton.mp ((List.perm_ext_iff_of_nodup (h₁.listing.nodup newParent)
        (List.nodup_singleton d)).mpr fun m => ?_)
      rw [hmem, hl]
      constructor
      · rintro ⟨hm, hmc⟩
        exact (List.mem_cons.mp hm).resolve_left hmc
      · intro hm
        rw [List.mem_singleton.mp hm]
        exact ⟨by simp, hcd.symm⟩
    obtain ⟨s₂, heq₂, h₂, hparent₂, -⟩ := h₁.adopt hw (by rw [hl₁]; exact List.mem_singleton_self d)
      (h₁.keepsPlace hw (by rw [hl₁]; exact List.cons_ne_nil _ _) hidle hanch)
    have hhanded : ∀ x, s₂.parent x = if x ∈ [c, d] then some child else s'.parent x := by
      intro x
      simp only [hparent₂, hparent₁, update_apply, List.mem_cons, List.not_mem_nil, or_false]
      by_cases hxd : x = d
      · rw [if_pos hxd, if_pos (Or.inr hxd)]
      · rw [if_neg hxd]
        exact if_congr (or_iff_left hxd).symm rfl rfl
    refine ⟨s₂, ?_, h₂, hhanded⟩
    simp only [List.length_cons, List.length_nil, StreamScheduler.adoptFrom,
      List.getElem?_cons_zero, Option.bind_eq_bind, Option.bind_some,
      if_pos (hself c (by simp)), heq₁, hl₁, List.drop_succ_cons, List.drop_zero,
      List.cons_append, List.nil_append, List.getElem?_cons_succ, if_pos (hself d (by simp)), heq₂]
  | c :: d :: e :: l =>
    rw [hl] at hle
    simp only [List.length_cons] at hle
    omega

end Prepared

/-- The first two stages. -/
theorem Wired.prepare {exclusive : Bool} (h : Wired s)
    (hok : s.CanReparent child newParent exclusive) (ho : s.parent child = some o)
    (hq : s.parent newParent = some q) :
    ∃ s₁ s₂ r, moveIfDependent child newParent (some o) (s.size + 1) s q = some s₁ ∧
      s₁.detachChild child = some s₂ ∧ Prepared s s₂ child newParent r ∧
      (if child ∈ s.path newParent then s.parent child else s.parent newParent) = some r ∧
      s₂.parent = s.cutParent child newParent := by
  by_cases hdep : Above s.parent child newParent
  · have hpath := h.mem_path.mpr hdep
    obtain ⟨s₁, s₂, heq₁, heq₂, hprep, hparent⟩ := h.prepare_of_above hdep hok.ne ho hq
      (fun hatt => hok.movesUp hpath hatt q hq)
      (fun hatt hc => hok.leaves (fun hn => hatt hn.2) hc o ho)
    refine ⟨s₁, s₂, o, heq₁, heq₂, hprep, by rw [if_pos hpath, ho], ?_⟩
    rw [hparent, cutParent, if_pos hpath, ho]
  · have hpath : child ∉ s.path newParent := fun hm => hdep (h.mem_path.mp hm)
    obtain ⟨s₁, s₂, heq₁, heq₂, hprep, hparent⟩ := h.prepare_of_not_above hdep ho hq
      fun hc => hok.leaves (fun hn => hpath hn.1) hc o ho
    refine ⟨s₁, s₂, q, heq₁, heq₂, hprep, by rw [if_neg hpath, hq], ?_⟩
    rw [hparent, cutParent, if_neg hpath]

namespace Tree

/-- **Re-prioritisation keeps the tree,** if it does not run into a defect. The nodes that are handed
to the child are those in the list of the new parent once the child is cut off. -/
theorem setParent {exclusive : Bool} (h : Tree s) (hok : s.CanReparent child newParent exclusive)
    (hchild : child < s.size) (hchild0 : child ≠ 0) (hnew : newParent < s.size)
    (hnew0 : newParent ≠ 0) :
    ∃ s', s.setParent child newParent exclusive = some s' ∧ Tree s' ∧ ∃ s₂ : StreamScheduler,
      Wired s₂ ∧ (∀ x, (s₂.node x).state = (s.node x).state) ∧
      s₂.parent = s.cutParent child newParent ∧
      s'.parent = update (fun x =>
        if exclusive = true ∧ x ∈ (s₂.node newParent).children then some child
        else s₂.parent x) child (some newParent) := by
  obtain ⟨o, ho, -⟩ := h.exists_parent hchild hchild0
  obtain ⟨q, hq, -⟩ := h.exists_parent hnew hnew0
  obtain ⟨s₁, s₂, r, heq₁, heq₂, hprep, hr, hcut⟩ := h.toWired.prepare hok ho hq
  obtain ⟨s₃, heq₃, hprep₃, hhanded⟩ : ∃ s₃, (if exclusive then StreamScheduler.adoptFrom child
      newParent (s₂.node newParent).children.length 0 (s₂.node newParent).children s₂
      else some s₂) = some s₃ ∧ Prepared s s₃ child newParent r ∧ ∀ x, s₃.parent x =
        if exclusive = true ∧ x ∈ (s₂.node newParent).children then some child
        else s₂.parent x := by
    cases exclusive with
    | false => exact ⟨s₂, rfl, hprep, fun x => (if_neg fun hx => nomatch hx.1).symm⟩
    | true =>
      obtain ⟨s₃, heq₃, hprep₃, hhanded⟩ := hprep.adoptFrom h.toWired fun hne => by
        obtain ⟨htwo, hidle, hanch⟩ := hok.handsOver rfl hne
        exact ⟨htwo, hidle, hanch r hr⟩
      refine ⟨s₃, heq₃, hprep₃, fun x => ?_⟩
      rw [hhanded]
      exact if_congr (and_iff_right rfl).symm rfl rfl
  obtain ⟨s', heq', hw', hparent, hsize, hmap⟩ := hprep₃.toWired.attachChild hprep₃.child_eq hchild0
    hprep₃.child_lt (by rw [hprep₃.size_eq]; exact hnew) hprep₃.not_above
  have ho' : (s.node child).parent = some o := ho
  have hq' : (s.node newParent).parent = some q := hq
  refine ⟨s', ?_, ⟨hw', fun n hn hn0 => ?_, fun {id n} hid => ?_⟩, s₂, hprep.toWired,
    hprep.state_eq, hcut, ?_⟩
  · rw [StreamScheduler.setParent, ho', hq']
    dsimp only [Option.bind_eq_bind, Option.bind_some]
    rw [heq₁]
    dsimp only [Option.bind_some]
    rw [heq₂]
    dsimp only [Option.bind_some]
    cases exclusive with
    | false =>
      cases heq₃
      exact heq'
    | true =>
      rw [if_pos rfl] at heq₃ ⊢
      rw [heq₃]
      exact heq'
  · rw [hsize, hprep₃.size_eq] at hn
    rw [hparent]
    by_cases hnc : n = child
    · rw [hnc, update_self]
      exact Option.some_ne_none newParent
    · rw [update_of_ne hnc]
      exact hprep₃.parent_ne n hnc (h.nonroot n hn hn0)
  · rw [hmap, hprep₃.nodeMap_eq] at hid
    rw [hsize, hprep₃.size_eq]
    exact h.known hid
  · rw [hparent]
    exact congrArg (fun par => update par child (some newParent)) (funext hhanded)

end Tree

/-- The child and the new parent, if `maybeSetParent` gets as far as to move the child. -/
def reparents (s : StreamScheduler) (childID parentID : ℕ) (exclusive : Bool) : Option (ℕ × ℕ) :=
  if childID = parentID ∨ childID = 1 ∨ childID = 3 ∨ parentID = 1 then none
  else do
    let parentID := if parentID = 3 then 0 else parentID
    let child ← s.nodeMap childID
    if exclusive = false ∧ ((s.node child).parent.map fun p => (s.node p).id) = some parentID then
      none
    else
      let newParent ← s.nodeMap parentID
      some (child, newParent)

/-- `maybeSetParent` changes nothing, or moves a child. -/
theorem maybeSetParent_cases (s : StreamScheduler) (childID parentID : ℕ) (exclusive : Bool) :
    (∃ err, s.maybeSetParent childID parentID exclusive = some (s, err)) ∨
      ∃ child newParent, childID ≠ 3 ∧ s.nodeMap childID = some child ∧
        s.nodeMap (if parentID = 3 then 0 else parentID) = some newParent ∧
        s.reparents childID parentID exclusive = some (child, newParent) ∧
        s.maybeSetParent childID parentID exclusive =
          (s.setParent child newParent exclusive).map (·, none) := by
  unfold StreamScheduler.maybeSetParent
  by_cases hsame : childID = parentID
  · exact Or.inl ⟨_, if_pos hsame⟩
  rw [if_neg hsame]
  by_cases h1 : childID = 1
  · exact Or.inl ⟨_, if_pos h1⟩
  rw [if_neg h1]
  by_cases h3 : childID = 3
  · exact Or.inl ⟨_, if_pos h3⟩
  rw [if_neg h3]
  by_cases hp1 : parentID = 1
  · exact Or.inl ⟨_, if_pos hp1⟩
  have hnot : ¬ (childID = parentID ∨ childID = 1 ∨ childID = 3 ∨ parentID = 1) := by
    simp [hsame, h1, h3, hp1]
  rw [if_neg hp1, reparents, if_neg hnot]
  cases hc : s.nodeMap childID with
  | none => exact Or.inl ⟨_, rfl⟩
  | some child =>
    dsimp only [Option.bind_eq_bind, Option.bind_some]
    by_cases hstay : exclusive = false ∧ ((s.node child).parent.map fun p => (s.node p).id) =
        some (if parentID = 3 then 0 else parentID)
    · exact Or.inl ⟨_, if_pos hstay⟩
    rw [if_neg hstay, if_neg hstay]
    cases hn : s.nodeMap (if parentID = 3 then 0 else parentID) with
    | none => exact Or.inl ⟨_, rfl⟩
    | some newParent =>
      refine Or.inr ⟨child, newParent, h3, rfl, rfl, rfl, ?_⟩
      rw [Option.map_eq_bind]
      rfl

/-- `maybeSetParent` keeps the tree. -/
theorem Tree.maybeSetParent {childID parentID : ℕ} {exclusive : Bool} (h : Tree s)
    (hok : ∀ m ∈ s.reparents childID parentID exclusive, s.CanReparent m.1 m.2 exclusive) :
    ∃ s' err, s.maybeSetParent childID parentID exclusive = some (s', err) ∧ Tree s' := by
  rcases s.maybeSetParent_cases childID parentID exclusive with
    ⟨err, heq⟩ | ⟨child, newParent, h3, hc, hn, hmoves, heq⟩
  · exact ⟨s, err, heq, h⟩
  · obtain ⟨hchild, hchild0⟩ := h.known hc
    obtain ⟨hnew, hnew0⟩ := h.known hn
    -- the header stream is known as stream 3, which is never looked up here
    have hnew0' : newParent ≠ 0 := fun he => by
      have := hnew0 he
      split_ifs at this with hp3
      exact hp3 this
    obtain ⟨s', heq', h', -⟩ := h.setParent (hok (child, newParent) hmoves) hchild
      (fun he => h3 (hchild0 he)) hnew hnew0'
    exact ⟨s', none, by rw [heq, heq']; rfl, h'⟩

end StreamScheduler

end MultipathQuic
