import MultipathQuic.Scheduler.Membership

/-!
# Who depends on whom after a re-prioritisation

`maybeSetParent` gives the child its new parent, and a new parent that depended on the child gets
the former parent of the child. If the child shall be the only child, the nodes in the list of the
new parent are handed to it. A node that depends on the new parent but is in no list, since nothing
is active below it, is not handed over.
-/

namespace MultipathQuic

open Function Forest

namespace StreamScheduler

variable {view : ℕ → StreamView} {s s' s₂ : StreamScheduler} {n p c x m o child newParent : ℕ}

/-- The child has its new parent, a new parent that depended on the child has taken its place, and
the other nodes have kept their parents; but if the child shall be the only one, the nodes that
depended on the new parent depend on the child, and stand in its list if they stand in one. -/
structure Reprioritised (s s' : StreamScheduler) (child newParent : ℕ) (exclusive : Bool) :
    Prop where
  hangs : s'.parent child = some newParent
  movedUp : child ∈ s.path newParent → s'.parent newParent = s.parent child
  handed : exclusive = true → ∀ x, x ≠ child → s.parent x = some newParent →
    s'.parent x = some child ∧
      (s'.attached x → (s'.node child).children.count x = 1 ∧ x ∉ (s'.node newParent).children)
  others : ∀ x, x ≠ child → (x = newParent → child ∉ s.path newParent) →
    (exclusive = true → s.parent x ≠ some newParent) → s'.parent x = s.parent x

/-- Something active is below `x`, on a way that does not go through the child. -/
def activeBelow (s : StreamScheduler) (child x : ℕ) : Prop :=
  ∃ m < s.size, (s.node m).state = .active ∧ x ∈ s.path m ∧ ¬ (x ∈ s.path child ∧ child ∈ s.path m)

instance (s : StreamScheduler) (child x : ℕ) : Decidable (s.activeBelow child x) :=
  inferInstanceAs (Decidable (∃ _ < _, _))

/-- Every node that depends on the new parent has something active below it, also without the
child. -/
def DependantsListed (s : StreamScheduler) (child newParent : ℕ) : Prop :=
  ∀ x < s.size, x ≠ child → s.parent x = some newParent → s.activeBelow child x

instance (s : StreamScheduler) (child newParent : ℕ) :
    Decidable (DependantsListed s child newParent) :=
  inferInstanceAs (Decidable (∀ _ < _, _))

/-- What an exclusive and what another re-prioritisation must not come across: a node that depends on
the new parent without being in its list, and a parent of the child with the ID of the new parent
that is another node. -/
def CanReprioritise (s : StreamScheduler) (child newParent parentID : ℕ) : Bool → Prop
  | true => s.DependantsListed child newParent
  | false => ∀ q ∈ s.parent child, (s.node q).id = parentID → q = newParent

instance (s : StreamScheduler) (child newParent parentID : ℕ) :
    DecidablePred (CanReprioritise s child newParent parentID)
  | true => inferInstanceAs (Decidable (s.DependantsListed child newParent))
  | false => inferInstanceAs (Decidable (∀ _ ∈ _, _))

/-! ## The tree without the child -/

theorem cutParent_newParent (hne : child ≠ newParent) (hdep : child ∈ s.path newParent) :
    s.cutParent child newParent newParent = s.parent child := by
  rw [cutParent, update_of_ne hne.symm, if_pos hdep, update_self]

theorem cutParent_of_ne (hne : x ≠ child) (hdep : x = newParent → child ∉ s.path newParent) :
    s.cutParent child newParent x = s.parent x := by
  rw [cutParent, update_of_ne hne]
  split
  · next hpath => exact update_of_ne (fun hx => hdep hx hpath) ..
  · rfl

theorem Wired.cutParent_of_parent (h : Wired s) (hx : s.parent x = some newParent)
    (hne : x ≠ child) : s.cutParent child newParent x = some newParent := by
  rw [cutParent_of_ne hne fun hxn => absurd hxn (h.forest.parent_ne hx).symm]
  exact hx

/-- What lies below a node that depends on the new parent, once the child is cut off. -/
theorem Wired.above_cutParent (h : Wired s) (ho : s.parent child = some o)
    (hx : s.parent x = some newParent) (hne : x ≠ child) :
    Above (s.cutParent child newParent) x m ↔
      Above s.parent x m ∧ ¬ (Above s.parent x child ∧ Above s.parent child m) := by
  have hxnp : ¬ Above s.parent x newParent := h.forest.acyclic hx
  unfold cutParent
  split
  · -- the new parent hangs below `o`, which is above `x`
    next hpath =>
    have hdep := h.mem_path.mp hpath
    have hxc : ¬ Above s.parent x child := fun ha => hxnp (ha.trans hdep)
    have hxo : ¬ Above s.parent x o := fun ha => hxc (ha.of_parent ho)
    have hnpo : ¬ Above s.parent newParent o := fun ha => h.forest.acyclic ho (hdep.trans ha)
    rw [and_iff_left fun hboth => hxc hboth.1, ho]
    constructor
    · intro ha
      rcases ha.of_cut.of_hang with hxm | ⟨-, hxo'⟩
      · exact hxm
      · exact absurd ((above_hang_iff hnpo).mp hxo') hxo
    · intro ha
      refine (ha.update_of_not_above hxnp (some o)).update_of_not_above (fun hxc' => ?_) none
      rcases hxc'.of_hang with hxc' | ⟨-, hxo'⟩
      · exact hxc hxc'
      · exact hxo ((above_hang_iff hnpo).mp hxo')
  · exact h.forest.above_cut_iff hne

/-- A node that depends on the new parent is in its list, once the child is cut off, if something
active is left below it. -/
theorem Wired.mem_children_cut (h : Wired s) (h₂ : Wired s₂)
    (hstate : ∀ x, (s₂.node x).state = (s.node x).state)
    (hcut : s₂.parent = s.cutParent child newParent) (ho : s.parent child = some o)
    (hx : s.parent x = some newParent) (hne : x ≠ child) :
    x ∈ (s₂.node newParent).children ↔ s.activeBelow child x := by
  have hxp : s₂.parent x = some newParent := by
    rw [hcut]
    exact h.cutParent_of_parent hx hne
  rw [h₂.mem_iff, and_iff_left hxp, h₂.attached_iff, hcut]
  constructor
  · rintro ⟨m, hm, hxm⟩
    rw [hstate] at hm
    obtain ⟨hxm, hnot⟩ := (h.above_cutParent ho hx hne).mp hxm
    refine ⟨m, h.lt_size_of_above hxm (h.lt_size hx).1, hm, h.mem_path.mpr hxm, ?_⟩
    rwa [h.mem_path, h.mem_path]
  · rintro ⟨m, -, hm, hxm, hnot⟩
    rw [h.mem_path] at hxm
    rw [h.mem_path, h.mem_path] at hnot
    refine ⟨m, ?_, (h.above_cutParent ho hx hne).mpr ⟨hxm, hnot⟩⟩
    rwa [hstate]

/-! ## The parents -/

/-- **The parents after a re-prioritisation are those that RFC 7540 wants iff every node that depends
on the new parent is in its list.** -/
theorem Tree.setParent_reprioritised_iff {exclusive : Bool} (h : Tree s)
    (hok : s.CanReparent child newParent exclusive) (hchild : child < s.size)
    (hchild0 : child ≠ 0) (hnew : newParent < s.size) (hnew0 : newParent ≠ 0)
    (heq : s.setParent child newParent exclusive = some s') :
    Reprioritised s s' child newParent exclusive ↔
      (exclusive = true → s.DependantsListed child newParent) := by
  obtain ⟨o, ho, -⟩ := h.exists_parent hchild hchild0
  obtain ⟨t, heq', htree, s₂, h₂, hstate, hcut, hparent⟩ :=
    h.setParent hok hchild hchild0 hnew hnew0
  rw [heq] at heq'
  cases heq'
  have hmem : ∀ x ≠ child, s.parent x = some newParent →
      (x ∈ (s₂.node newParent).children ↔ s.activeBelow child x) := fun x hne hx =>
    h.toWired.mem_children_cut h₂ hstate hcut ho hx hne
  have hother : ∀ x ≠ child, s'.parent x =
      if exclusive = true ∧ x ∈ (s₂.node newParent).children then some child
      else s.cutParent child newParent x := by
    intro x hne
    rw [hparent, update_of_ne hne, hcut]
  constructor
  · intro hre hex x hx hne hxp
    by_contra hnot
    -- a node that is in no list keeps the new parent
    have hkept : s'.parent x = some newParent := by
      rw [hother x hne, if_neg fun hboth => hnot ((hmem x hne hxp).mp hboth.2)]
      exact h.toWired.cutParent_of_parent hxp hne
    rw [(hre.handed hex x hne hxp).1] at hkept
    exact hok.ne (Option.some.inj hkept)
  · intro hlisted
    have hself : newParent ∉ (s₂.node newParent).children := fun hm =>
      h₂.forest.parent_ne (h₂.parent_of_mem hm) rfl
    refine ⟨?_, fun hdep => ?_, fun hex x hne hxp => ?_, fun x hne hdep hex => ?_⟩
    · rw [hparent, update_self]
    · rw [hother newParent hok.ne.symm, if_neg fun hboth => hself hboth.2]
      exact cutParent_newParent hok.ne hdep
    · have hchildren := (hmem x hne hxp).mpr (hlisted hex x (h.lt_size hxp).1 hne hxp)
      have hnow : s'.parent x = some child := by
        rw [hother x hne, if_pos ⟨hex, hchildren⟩]
      refine ⟨hnow, fun hat => ⟨?_, fun hm => ?_⟩⟩
      · exact List.count_eq_one_of_mem (htree.listing.nodup child) (htree.mem_iff.mpr ⟨hat, hnow⟩)
      · rw [htree.parent_of_mem hm] at hnow
        exact hok.ne (Option.some.inj hnow).symm
    · have hcut' : s.cutParent child newParent x = s.parent x := cutParent_of_ne hne hdep
      rw [hother x hne, if_neg, hcut']
      rintro ⟨hex', hm⟩
      refine hex hex' ?_
      rw [← hcut', ← hcut]
      exact h₂.parent_of_mem hm

/-- A child whose parent has the ID of the new parent stays where it is. -/
theorem Wired.stays_reprioritised_iff {parentID : ℕ} (h : Wired s) (ho : s.parent child = some o)
    (hid : (s.node o).id = parentID) :
    Reprioritised s s child newParent false ↔ s.CanReprioritise child newParent parentID false := by
  constructor
  · intro hre q hq _
    rw [hre.hangs] at hq
    exact (Option.some.inj hq).symm
  · intro hsame
    have hparent : s.parent child = some newParent := by rw [ho, hsame o ho hid]
    -- the child is below its parent, and so not above it
    have hnot : child ∉ s.path newParent := fun hpath =>
      h.forest.acyclic hparent (h.mem_path.mp hpath)
    exact ⟨hparent, fun hpath => absurd hpath hnot, nofun, fun _ _ _ _ => rfl⟩

/-- `maybeSetParent` succeeds by leaving the child where it is, or by moving it. -/
theorem maybeSetParent_succeeds {childID parentID : ℕ} {exclusive : Bool}
    (hchild : s.nodeMap childID = some child) (hparent : s.nodeMap parentID = some newParent)
    (h3 : parentID ≠ 3) (h : s.maybeSetParent childID parentID exclusive = some (s', none)) :
    childID ≠ 3 ∧
      ((exclusive = false ∧ s' = s ∧ ∃ o, s.parent child = some o ∧ (s.node o).id = parentID) ∨
      (s.reparents childID parentID exclusive = some (child, newParent) ∧
        (exclusive = false → ∀ o ∈ s.parent child, (s.node o).id ≠ parentID) ∧
        s.setParent child newParent exclusive = some s')) := by
  rw [StreamScheduler.maybeSetParent, if_neg h3] at h
  split at h
  · cases h
  next hsame =>
  split at h
  · cases h
  next h1 =>
  split at h
  · cases h
  next hc3 =>
  split at h
  · cases h
  next hp1 =>
  have hnot : ¬ (childID = parentID ∨ childID = 1 ∨ childID = 3 ∨ parentID = 1) := by
    simp [hsame, h1, hc3, hp1]
  rw [reparents, if_neg hnot, if_neg h3, hchild]
  rw [hchild] at h
  dsimp only [Option.bind_eq_bind, Option.bind_some] at h ⊢
  refine ⟨hc3, ?_⟩
  by_cases hstay : exclusive = false ∧ ((s.node child).parent.map fun p => (s.node p).id) =
      some parentID
  · rw [if_pos hstay] at h
    cases h
    exact Or.inl ⟨hstay.1, rfl, Option.map_eq_some_iff.mp hstay.2⟩
  · rw [if_neg hstay, hparent] at h
    rw [if_neg hstay, hparent]
    obtain ⟨s₁, hset, heq⟩ := Option.bind_eq_some_iff.mp h
    cases heq
    refine Or.inr ⟨rfl, fun hex o ho hid => hstay ⟨hex, ?_⟩, hset⟩
    exact Option.map_eq_some_iff.mpr ⟨o, ho, hid⟩

end StreamScheduler

/-! ## Runs -/

open StreamScheduler (Reprioritised CanReprioritise)
open SchedulerRun (run Sound)
open SchedulerOp

/-- **When the parents after `maybeSetParent` are those that RFC 7540 wants.** The root is known as
stream 3. -/
theorem maybeSetParent_reprioritised_iff {ops : List SchedulerOp} (hsound : Sound ops)
    {s : StreamScheduler} (hrun : run ops = some s) {childID parentID child newParent : ℕ}
    {exclusive : Bool} (hchild : s.nodeMap childID = some child)
    (hparent : s.nodeMap parentID = some newParent) (h3 : parentID ≠ 3)
    (hop : (SchedulerOp.maybeSetParent childID parentID exclusive).Sound s) :
    ∃ s' err, s.maybeSetParent childID parentID exclusive = some (s', err) ∧
      (err = none → (Reprioritised s s' child newParent exclusive ↔
        CanReprioritise s child newParent parentID exclusive)) := by
  obtain ⟨s₀, heq₀, htree⟩ := SchedulerRun.tree hsound
  rw [hrun] at heq₀
  cases heq₀
  obtain ⟨s', err, heq, -⟩ := htree.maybeSetParent hop
  refine ⟨s', err, heq, ?_⟩
  rintro rfl
  obtain ⟨hc3, hcases⟩ := StreamScheduler.maybeSetParent_succeeds hchild hparent h3 heq
  obtain ⟨hcs, hc0⟩ := htree.known hchild
  obtain ⟨hps, hp0⟩ := htree.known hparent
  rcases hcases with ⟨rfl, rfl, o, ho, hid⟩ | ⟨hmoves, hother, hset⟩
  · exact htree.toWired.stays_reprioritised_iff ho hid
  · rw [htree.setParent_reprioritised_iff (hop _ hmoves) hcs (fun h0 => hc3 (hc0 h0)) hps
      (fun h0 => h3 (hp0 h0)) hset]
    cases exclusive with
    | true => exact ⟨fun hlisted => hlisted rfl, fun hlisted _ => hlisted⟩
    | false =>
      refine ⟨fun _ q hq hid => absurd hid (hother rfl q hq), fun _ hex => ?_⟩
      cases hex

/-- Streams 7 and 9 depend on stream 5, and are active. -/
def activeDependants : List SchedulerOp :=
  [addNode 5, addNode 7, addNode 9, addNode 11, maybeSetParent 7 5 false, maybeSetParent 9 5 false,
    setActive 7, setActive 9, setActive 11]

theorem activeDependants_reprioritised :
    ∃ s s', Sound activeDependants ∧ run activeDependants = some s ∧
      s.maybeSetParent 11 5 true = some (s', none) ∧ Reprioritised s s' 4 1 true := by
  have hsound : Sound activeDependants := by decide +kernel
  obtain ⟨s, heq, hchild, hparent, hop, hcan, ⟨s', err⟩, heq', herr⟩ :
      ∃ s ∈ run activeDependants, s.nodeMap 11 = some 4 ∧ s.nodeMap 5 = some 1 ∧
        (SchedulerOp.maybeSetParent 11 5 true).Sound s ∧ CanReprioritise s 4 1 5 true ∧
          ∃ r ∈ s.maybeSetParent 11 5 true, r.2 = none := by
    decide +kernel
  cases herr
  obtain ⟨t, err, ht, hiff⟩ :=
    maybeSetParent_reprioritised_iff hsound heq hchild hparent (by decide) hop
  rw [heq'] at ht
  cases ht
  exact ⟨s, s', hsound, heq, heq', (hiff rfl).mpr hcan⟩

/-- Stream 7 depends on stream 5, and is idle. -/
def idleDependant : List SchedulerOp :=
  [addNode 5, addNode 7, addNode 9, maybeSetParent 7 5 false]

/-- **Stream 7 still depends on stream 5 after stream 9 has become the only child of it.** -/
theorem idleDependant_not_handed :
    ∃ s s', Sound idleDependant ∧ run idleDependant = some s ∧
      s.maybeSetParent 9 5 true = some (s', none) ∧ s.parent 2 = some 1 ∧ s'.parent 3 = some 1 ∧
        s'.parent 2 = some 1 := by
  have hsound : Sound idleDependant := by decide +kernel
  obtain ⟨s, heq, ⟨s', err⟩, heq', herr, hbefore, hchild, hafter⟩ :
      ∃ s ∈ run idleDependant, ∃ r ∈ s.maybeSetParent 9 5 true, r.2 = none ∧
        s.parent 2 = some 1 ∧ r.1.parent 3 = some 1 ∧ r.1.parent 2 = some 1 := by
    decide +kernel
  cases herr
  exact ⟨s, s', hsound, heq, heq', hbefore, hchild, hafter⟩

end MultipathQuic
