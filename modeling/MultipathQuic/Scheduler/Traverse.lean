import MultipathQuic.Scheduler.Reparent

/-!
# Scheduling

`traverse` descends through active nodes that have to wait, and takes finished leaves out of the
tree. A waiting node that loses its last child that way loses its place, although it is active; the
trees in which this does not happen are called calm.

## Main definitions

* `Prunes`: what scheduling changes
* `Calm`: waiting nodes keep a child

## Main results

* `Tree.traverse`, `Tree.schedule`: scheduling returns and keeps a calm tree
-/

namespace MultipathQuic

open Function Forest

namespace StreamScheduler

variable {view : ℕ → StreamView} {s s' s'' : StreamScheduler} {n p q c x a m fuel : ℕ}

/-! ## Attached nodes -/

namespace Wired

theorem attached_of_above (h : Wired s) (hm : s.attached m) (ha : Above s.parent a m) :
    s.attached a := by
  induction ha using Relation.ReflTransGen.head_induction_on with
  | refl => exact hm
  | @head x y hxy _ ih => exact ih (h.listing.attached_of_mem (h.mem_iff.mpr ⟨hm, hxy⟩))

/-- Below an attached node there is an active one without children. -/
theorem exists_active_leaf (h : Wired s) (ha : s.attached a) :
    ∃ m, (s.node m).state = .active ∧ (s.node m).children = [] ∧ Above s.parent a m := by
  -- the rank of a node is at most the number of nodes, and it grows downwards
  induction hk : s.size - rank s.parent s.pointers a using Nat.strong_induction_on
    generalizing a with
  | _ k ih =>
    by_cases hnil : (s.node a).children = []
    · have hactive := (h.listing.attached_iff.mp ha).resolve_right (not_not.mpr hnil)
      exact ⟨a, hactive, hnil, Above.refl a⟩
    · obtain ⟨c, hc⟩ := List.exists_mem_of_ne_nil _ hnil
      obtain ⟨hatt, hp⟩ := h.mem_iff.mp hc
      have hlt := h.forest.rank_lt hp
      have hle := rank_le s.parent s.pointers c
      rw [pointers, Finset.card_range] at hle
      change rank s.parent s.pointers c ≤ s.size at hle
      obtain ⟨m, hm, hleaf, hcm⟩ := ih _ (by omega) hatt rfl
      exact ⟨m, hm, hleaf, (above_parent hp).trans hcm⟩

theorem exists_active (h : Wired s) (ha : s.attached a) :
    ∃ m, (s.node m).state = .active ∧ Above s.parent a m := by
  obtain ⟨m, hm, -, ham⟩ := h.exists_active_leaf ha
  exact ⟨m, hm, ham⟩

/-- A node is attached iff there is an active node below it. -/
theorem attached_iff (h : Wired s) :
    s.attached a ↔ ∃ m, (s.node m).state = .active ∧ Above s.parent a m :=
  ⟨h.exists_active, fun ⟨_, hm, ha⟩ => h.attached_of_above (Or.inl hm) ha⟩

end Wired

/-! ## What a scheduling step changes -/

/-- The children of a node and their weight stay, or there are fewer children. -/
def Shrinks (node node' : Node) : Prop :=
  node'.children = node.children ∧ node'.childrensWeight = node.childrensWeight ∨
    node'.children.length < node.children.length

theorem Shrinks.trans {node node' node'' : Node} (h : Shrinks node node')
    (h' : Shrinks node' node'') : Shrinks node node'' := by
  unfold Shrinks at *
  rcases h with ⟨hc, hw⟩ | hlt
  · rwa [hc, hw] at h'
  · rcases h' with ⟨hc', -⟩ | hlt'
    · rw [← hc'] at hlt
      exact Or.inr hlt
    · exact Or.inr (hlt'.trans hlt)

/-- From `s` to `s'`, finished streams may have been closed, and children have been removed. -/
structure Prunes (view : ℕ → StreamView) (s s' : StreamScheduler) : Prop where
  size_eq : s'.size = s.size
  nodeMap_eq : s'.nodeMap = s.nodeMap
  parent_eq : s'.parent = s.parent
  id_eq : ∀ x, (s'.node x).id = (s.node x).id
  weight_eq : ∀ x, (s'.node x).weight = (s.node x).weight
  closes : ∀ x, ((s'.node x).state = (s.node x).state ∧ (s'.node x).stream = (s.node x).stream) ∨
    s.finished view x ∧ (s'.node x).state = .closed ∧ (s'.node x).stream = none
  shrinks : ∀ x, Shrinks (s.node x) (s'.node x)

namespace Prunes

theorem rfl : Prunes view s s :=
  ⟨Eq.refl _, Eq.refl _, Eq.refl _, fun _ => Eq.refl _, fun _ => Eq.refl _,
    fun _ => Or.inl ⟨Eq.refl _, Eq.refl _⟩, fun _ => Or.inl ⟨Eq.refl _, Eq.refl _⟩⟩

theorem trans (h : Prunes view s s') (h' : Prunes view s' s'') : Prunes view s s'' where
  size_eq := h'.size_eq.trans h.size_eq
  nodeMap_eq := h'.nodeMap_eq.trans h.nodeMap_eq
  parent_eq := h'.parent_eq.trans h.parent_eq
  id_eq x := (h'.id_eq x).trans (h.id_eq x)
  weight_eq x := (h'.weight_eq x).trans (h.weight_eq x)
  closes x := by
    rcases h.closes x with ⟨hstate, hstream⟩ | ⟨hfin, hstate, hstream⟩
    · rcases h'.closes x with ⟨hstate', hstream'⟩ | ⟨⟨id, hid, hfin⟩, hclosed⟩
      · exact Or.inl ⟨hstate'.trans hstate, hstream'.trans hstream⟩
      · exact Or.inr ⟨⟨id, hstream.symm.trans hid, hfin⟩, hclosed⟩
    · rcases h'.closes x with ⟨hstate', hstream'⟩ | ⟨⟨id, hid, -⟩, -⟩
      · exact Or.inr ⟨hfin, hstate'.trans hstate, hstream'.trans hstream⟩
      · rw [hstream] at hid
        cases hid
  shrinks x := (h.shrinks x).trans (h'.shrinks x)

/-- A change of one node that keeps all that matters. -/
theorem of_modify {f : Node → Node} (hp : (f (s.node n)).parent = (s.node n).parent)
    (hid : (f (s.node n)).id = (s.node n).id) (hw : (f (s.node n)).weight = (s.node n).weight)
    (hstate : (f (s.node n)).state = (s.node n).state)
    (hstream : (f (s.node n)).stream = (s.node n).stream)
    (hc : (f (s.node n)).children = (s.node n).children)
    (hcw : (f (s.node n)).childrensWeight = (s.node n).childrensWeight) :
    Prunes view s (s.modify n f) := by
  refine ⟨Eq.refl _, Eq.refl _, parent_modify hp, fun x => ?_, fun x => ?_, fun x => Or.inl ?_,
    fun x => Or.inl ?_⟩ <;>
  · by_cases hx : x = n
    · subst hx
      simp only [modify_node_self]
      first | assumption | exact ⟨hstate, hstream⟩ | exact ⟨hc, hcw⟩
    · simp only [modify_node_of_ne hx, and_self]

/-- A node that still has its stream has not been closed. -/
theorem stream_eq (h : Prunes view s s') (hx : (s'.node x).stream ≠ none) :
    (s'.node x).state = (s.node x).state ∧ (s'.node x).stream = (s.node x).stream := by
  rcases h.closes x with hsame | ⟨-, -, hnone⟩
  · exact hsame
  · exact absurd hnone hx

theorem state_of_active (h : Prunes view s s') (hx : (s'.node x).state = .active) :
    (s.node x).state = .active ∧ (s'.node x).stream = (s.node x).stream := by
  rcases h.closes x with ⟨hstate, hstream⟩ | ⟨-, hclosed, -⟩
  · exact ⟨hstate ▸ hx, hstream⟩
  · rw [hclosed] at hx
    cases hx

theorem finished (h : Prunes view s s') (hx : s'.finished view x) : s.finished view x := by
  obtain ⟨id, hid, hfin⟩ := hx
  refine ⟨id, ?_, hfin⟩
  rw [← (h.stream_eq (by rw [hid]; exact Option.some_ne_none id)).2]
  exact hid

/-- An active node that is not finished stays active. -/
theorem active_of_not_finished (h : Prunes view s s') (hx : (s.node x).state = .active)
    (hfin : ¬ s.finished view x) : (s'.node x).state = .active := by
  rcases h.closes x with ⟨hstate, -⟩ | ⟨hfin', -⟩
  · exact hstate.trans hx
  · exact absurd hfin' hfin

/-- No node becomes attached. -/
theorem attached (h : Prunes view s s') (hw : Wired s) (hw' : Wired s') (ha : s'.attached a) :
    s.attached a := by
  obtain ⟨m, hm, ham⟩ := hw'.exists_active ha
  rw [h.parent_eq] at ham
  exact hw.attached_iff.mpr ⟨m, (h.state_of_active hm).1, ham⟩

end Prunes

/-! ## Calm trees -/

/-- The node is active, but `traverse` passes it: its stream is not finished and cannot send. -/
def waits (s : StreamScheduler) (view : ℕ → StreamView) (n : ℕ) : Prop :=
  (s.node n).state = .active ∧ ¬ s.finished view n ∧ ¬ (s.hasWindow view n ∧
    ((s.node n).id = 0 → s.hasData view n))

instance (s : StreamScheduler) (view : ℕ → StreamView) : DecidablePred (s.waits view) := fun _ =>
  inferInstanceAs (Decidable (_ ∧ _))

/-- Nothing in the tree below `c` is finished. -/
def lasting (s : StreamScheduler) (view : ℕ → StreamView) (c : ℕ) : Prop :=
  ∀ m < s.size, s.attached m → c ∈ s.path m → ¬ s.finished view m

instance (s : StreamScheduler) (view : ℕ → StreamView) : DecidablePred (s.lasting view) := fun _ =>
  inferInstanceAs (Decidable (∀ _ < _, _))

/-- Every waiting node with children has one below which nothing is finished. -/
def Calm (view : ℕ → StreamView) (s : StreamScheduler) : Prop :=
  ∀ p < s.size, s.parent p ≠ none → s.waits view p → (s.node p).children ≠ [] →
    ∃ c ∈ (s.node p).children, s.lasting view c

instance (view : ℕ → StreamView) (s : StreamScheduler) : Decidable (Calm view s) :=
  inferInstanceAs (Decidable (∀ _ < _, _))

/-- The active nodes from `n` upwards wait, the root apart. -/
def Passed (view : ℕ → StreamView) (s : StreamScheduler) (n : ℕ) : Prop :=
  ∀ a, Above s.parent a n → (s.node a).state = .active → s.parent a ≠ none → s.waits view a

theorem Prunes.waits (h : Prunes view s s') (hx : (s'.node x).state = .active) :
    s'.waits view x ↔ s.waits view x := by
  obtain ⟨hactive, hstream⟩ := h.state_of_active hx
  unfold StreamScheduler.waits StreamScheduler.finished hasWindow hasData
  rw [hx, hactive, hstream, h.id_eq]

theorem Passed.of_prunes (hpass : Passed view s n) (h : Prunes view s s') : Passed view s' n := by
  intro a ha hactive hpa
  rw [h.parent_eq] at ha hpa
  exact (h.waits hactive).mpr (hpass a ha (h.state_of_active hactive).1 hpa)

theorem Wired.lt_size (h : Wired s) (hp : s.parent n = some p) : n < s.size ∧ p < s.size :=
  ⟨Finset.mem_range.mp (h.forest.mem hp).1, Finset.mem_range.mp (h.forest.mem hp).2⟩

/-- Below a node other than the root there are only nodes of the heap. -/
theorem Wired.lt_size_of_above (h : Wired s) (ha : Above s.parent a m) (hlt : a < s.size) :
    m < s.size := by
  rcases above_iff.mp ha with rfl | ⟨p, hp, -⟩
  · exact hlt
  · exact (h.lt_size hp).1

/-- **A scheduling step leaves a calm tree.** A child below which nothing is finished stays, since
the active nodes below it do. -/
theorem Calm.of_prunes (hcalm : Calm view s) (hw : Wired s) (hw' : Wired s')
    (h : Prunes view s s') : Calm view s' := by
  intro p hp hpp hwaits hne
  have hactive := hwaits.1
  rw [h.size_eq] at hp
  rw [h.parent_eq] at hpp
  have hne₀ : (s.node p).children ≠ [] := by
    obtain ⟨c, hc⟩ := List.exists_mem_of_ne_nil _ hne
    obtain ⟨hatt, hcp⟩ := hw'.mem_iff.mp hc
    rw [h.parent_eq] at hcp
    exact List.ne_nil_of_mem (hw.mem_iff.mpr ⟨h.attached hw hw' hatt, hcp⟩)
  obtain ⟨c, hc, hquiet⟩ := hcalm p hp hpp ((h.waits hactive).mp hwaits) hne₀
  obtain ⟨hatt, hcp⟩ := hw.mem_iff.mp hc
  obtain ⟨m, hm, hcm⟩ := hw.exists_active hatt
  have hms := hw.lt_size_of_above hcm (hw.lt_size hcp).1
  have hm' := h.active_of_not_finished hm
    (hquiet m hms (Or.inl hm) (hw.mem_path.mpr hcm))
  have hatt' : s'.attached c := hw'.attached_iff.mpr ⟨m, hm', by rwa [h.parent_eq]⟩
  refine ⟨c, hw'.mem_iff.mpr ⟨hatt', by rwa [h.parent_eq]⟩, fun m' hm's hattm hpath hfin => ?_⟩
  rw [h.size_eq] at hm's
  rw [hw'.mem_path, h.parent_eq] at hpath
  exact hquiet m' hm's (h.attached hw hw' hattm) (hw.mem_path.mpr hpath) (h.finished hfin)

/-- A finished node that `traverse` reaches in a calm tree leaves no active node without a child. -/
theorem Calm.keepsPlace (hcalm : Calm view s) (h : Wired s) (hfin : s.finished view n)
    (hatt : s.attached n) (hpass : Passed view s p) (hx : x ∈ (s.node p).children)
    (hxn : Above s.parent x n) : s.keepsPlace fuel p := by
  induction fuel generalizing p x with
  | zero => trivial
  | succ fuel ih =>
    cases hq : s.parent p with
    | none =>
      have hq' : (s.node p).parent = none := hq
      rw [StreamScheduler.keepsPlace, hq']
      trivial
    | some q =>
      rw [keepsPlace_succ hq]
      intro hone
      have hxp := h.parent_of_mem hx
      have hpn : Above s.parent p n := (above_parent hxp).trans hxn
      refine ⟨fun hactive => ?_, ih (fun a ha => hpass a (ha.of_parent hq))
        (h.mem_iff.mpr ⟨h.listing.attached_of_mem hx, hq⟩) hpn⟩
      have hpq : s.parent p ≠ none := by
        rw [hq]
        exact Option.some_ne_none q
      obtain ⟨c, hc, hquiet⟩ := hcalm p (h.lt_size hq).1 hpq (hpass p (Above.refl p) hactive hpq)
        (List.ne_nil_of_mem hx)
      -- the only child is the one on the way to `n`
      obtain ⟨y, hy⟩ := List.length_eq_one_iff.mp hone
      rw [hy, List.mem_singleton] at hx hc
      subst hc hx
      exact hquiet n (h.lt_size_of_above hxn (h.lt_size hxp).1) hatt (h.mem_path.mpr hxn) hfin

/-! ## Closing a finished node -/

theorem childIndex_lt {l : List ℕ} (hne : l ≠ []) (c : ℕ) : childIndex l c < l.length := by
  unfold childIndex
  cases hi : l.idxOf? c with
  | none => exact List.length_pos_iff.mpr hne
  | some i => exact (List.findIdx?_eq_some_iff_findIdx_eq.mp hi).1

theorem shrinks_dropChild (hne : (s.node p).children ≠ []) (c x : ℕ) :
    Shrinks (s.node x) ((s.dropChild p c).node x) := by
  by_cases hx : x = p
  · subst hx
    refine Or.inr ?_
    unfold dropChild
    rw [modify_node_self]
    have hlt := childIndex_lt hne c
    rw [List.length_eraseIdx_of_lt hlt]
    omega
  · rw [dropChild_node_of_ne hx]
    exact Or.inl ⟨rfl, rfl⟩

/-- `removeWeight` only removes children. -/
theorem shrinks_removeWeightUp (h : removeWeightUp fuel s p c = some s') (x : ℕ) :
    Shrinks (s.node x) (s'.node x) := by
  induction fuel generalizing s p c with
  | zero => cases h
  | succ fuel ih =>
    rw [removeWeightUp] at h
    by_cases hnil : (s.node p).children = []
    · rw [if_pos hnil] at h
      cases h
    have hdrop := shrinks_dropChild hnil c x
    dsimp only at h
    cases hq : ((s.dropChild p c).node p).parent with
    | none =>
      rw [hq] at h
      dsimp only at h
      split_ifs at h
      cases h
      exact hdrop
    | some q =>
      rw [hq] at h
      split_ifs at h with hroom hzero
      · exact hdrop.trans (ih h)
      · cases h
        exact hdrop

/-- A finished stream is closed. -/
theorem Prunes.close (hfin : s.finished view n) :
    Prunes view s (s.modify n fun node => { node with state := .closed, stream := none }) := by
  refine ⟨Eq.refl _, Eq.refl _, parent_modify (Eq.refl _), fun x => ?_, fun x => ?_, fun x => ?_,
    fun x => Or.inl ?_⟩ <;>
  by_cases hx : x = n
  · subst hx
    simp only [modify_node_self]
  · simp only [modify_node_of_ne hx]
  · subst hx
    simp only [modify_node_self]
  · simp only [modify_node_of_ne hx]
  · subst hx
    simp only [modify_node_self]
    exact Or.inr ⟨hfin, trivial, trivial⟩
  · simp only [modify_node_of_ne hx, and_self, true_or]
  · subst hx
    simp only [modify_node_self, and_self]
  · simp only [modify_node_of_ne hx, and_self]

theorem Prunes.of_climbs (h : Climbs s s' p) (hs : ∀ x, Shrinks (s.node x) (s'.node x)) :
    Prunes view s s' :=
  ⟨h.size_eq, h.nodeMap_eq, h.parent_eq, h.id_eq, h.weight_eq,
    fun x => Or.inl ⟨h.state_eq x, h.stream_eq x⟩, hs⟩

/-- `deactivateNode` keeps the tree, if no active node loses its place. -/
theorem Tree.deactivateNode (h : Tree s) (hfin : s.finished view n) (hatt : n ≠ 0 → s.attached n)
    (hk : ∀ p, s.parent n = some p → s.keepsPlace (s.size + 1) p) :
    ∃ s', s.deactivateNode n = some s' ∧ Tree s' ∧ Prunes view s s' := by
  set s₁ := s.modify n fun node => { node with state := .closed, stream := none } with hs₁
  have hprune : Prunes view s s₁ := Prunes.close hfin
  have hparent := hprune.parent_eq
  have hsame : SameLists s s₁ := SameLists.of_modify rfl rfl rfl
  have hother : ∀ x ≠ n, s₁.node x = s.node x := fun x hx => modify_node_of_ne hx
  unfold StreamScheduler.deactivateNode
  dsimp only
  cases hp : s.parent n with
  | none =>
    have hp' : (s₁.node n).parent = none := (congrFun hparent n).trans hp
    rw [hp']
    exact ⟨s₁, rfl, h.modify rfl rfl rfl rfl fun hne => absurd hp hne, hprune⟩
  | some p =>
    have hp' : (s₁.node n).parent = some p := (congrFun hparent n).trans hp
    have hatt' := hatt (h.ne_zero hp)
    rw [hp']
    dsimp only
    by_cases hzero : (s₁.node n).activeChildren = 0
    · -- the node is closed, but it is still in the list of its parent
      have hidle : ¬ s₁.attached n := by
        rintro (hstate | hpos)
        · rw [hs₁, modify_node_self] at hstate
          cases hstate
        · omega
      have hcanon : s.canon s.parent = update (s₁.canon s.parent) n (some p) := by
        rw [canon_update fun x hx => attached_congr (hother x hx), canon_of_attached hatt', hp]
      have hl : Listing s₁ (update (s₁.canon s.parent) n (some p)) := by
        rw [← hcanon]
        exact h.listing.of_sameLists hsame
      have hnot := h.forest.acyclic hp
      obtain ⟨s', heq, hl', hclimb, -⟩ := hl.removeWeightUp (canon_of_not_attached hidle)
        (by rw [hparent]; exact h.forest) (fun x _ => by rw [hparent])
        (keepsPlace_congr (fun x hx => hother x fun he => hnot (he ▸ hx)) (hk p hp))
        (Wired.rank_lt_fuel s₁ p)
      rw [if_pos hzero]
      refine ⟨s', heq, h.of_listing (hclimb.parent_eq.trans hparent) hclimb.size_eq
        hclimb.nodeMap_eq ?_, hprune.trans (Prunes.of_climbs hclimb (shrinks_removeWeightUp heq))⟩
      rwa [hclimb.parent_eq, hparent]
    · rw [if_neg hzero]
      refine ⟨s₁, rfl, h.of_listing hparent rfl rfl ?_, hprune⟩
      have hstill : s₁.attached n := Or.inr (Nat.pos_of_ne_zero hzero)
      have hcanon : s₁.canon s₁.parent = s.canon s.parent := by
        rw [hparent]
        refine canon_congr fun x => ?_
        by_cases hx : x = n
        · rw [hx]
          exact iff_of_true hstill hatt'
        · exact attached_congr (hother x hx)
      rw [hcanon]
      exact h.listing.of_sameLists hsame

/-! ## The traversal -/

/-- The tree after a step, and what the step has changed. -/
def Pruned (view : ℕ → StreamView) (s s' : StreamScheduler) : Prop := Tree s' ∧ Prunes view s s'

theorem Pruned.trans (h : Pruned view s s') (h' : Pruned view s' s'') : Pruned view s s'' :=
  ⟨h'.1, h.2.trans h'.2⟩

theorem Tree.refresh (h : Tree s) (n : ℕ) : Pruned view s (s.refresh n) := by
  refine ⟨h.modify ?_ ?_ ?_ ?_ fun _ => ?_, Prunes.of_modify ?_ ?_ ?_ ?_ ?_ ?_ ?_⟩ <;>
  · dsimp only
    split_ifs <;> split <;> rfl

theorem quantum_refresh_pos (s : StreamScheduler) (n : ℕ) : 0 < ((s.refresh n).node n).quantum := by
  unfold StreamScheduler.refresh
  rw [modify_node_self]
  dsimp only
  split_ifs with hq
  · split <;> exact Nat.succ_pos _
  · split <;> exact Nat.pos_of_ne_zero hq

theorem Tree.spend (h : Tree s) (n : ℕ) : Pruned view s (s.spend n) :=
  ⟨h.modify rfl rfl rfl rfl fun _ => rfl, Prunes.of_modify rfl rfl rfl rfl rfl rfl rfl⟩

theorem Tree.advance (h : Tree s) (hne : (s.node p).children ≠ []) :
    ∃ s', s.advance p = some s' ∧ Pruned view s s' := by
  have hlen := h.listing.length_lt p
  have hpos := List.length_pos_iff.mpr hne
  have hmod : (s.node p).children.length % 2 ^ 16 = (s.node p).children.length :=
    Nat.mod_eq_of_lt hlen
  unfold StreamScheduler.advance
  rw [hmod, if_neg (Nat.ne_of_gt hpos)]
  set s' := s.modify p fun node =>
    { node with nextChild := add16 node.nextChild 1 % (s.node p).children.length } with hs'
  have hprune : Prunes view s s' := Prunes.of_modify rfl rfl rfl rfl rfl rfl rfl
  have hfield : ∀ x, (s'.node x).children = (s.node x).children ∧
      (s'.node x).activeChildren = (s.node x).activeChildren := by
    intro x
    by_cases hx : x = p
    · subst hx
      simp only [hs', modify_node_self, and_self]
    · simp only [hs', modify_node_of_ne hx, and_self]
  refine ⟨s', rfl, h.of_listing hprune.parent_eq rfl rfl ?_, hprune⟩
  have hcanon : s'.canon s'.parent = s.canon s.parent := by
    rw [hprune.parent_eq]
    refine canon_congr fun x => ?_
    have hstate : (s'.node x).state = (s.node x).state := by
      by_cases hx : x = p
      · subst hx
        simp only [hs', modify_node_self]
      · simp only [hs', modify_node_of_ne hx]
    unfold attached
    rw [hstate, (hfield x).2]
  have hl := h.listing
  rw [hcanon]
  refine ⟨fun q n => ?_, fun q => ?_, fun q => ?_, hl.bound, hl.size_le⟩
  · rw [(hfield q).1]
    exact hl.count q n
  · rw [(hfield q).1, (hfield q).2]
    exact hl.active q
  · by_cases hq : q = p
    · subst hq
      refine Or.inl ?_
      rw [(hfield q).1, hs', modify_node_self]
      exact Nat.mod_lt _ hpos
    · rw [hs', modify_node_of_ne hq]
      exact hl.next q

theorem Tree.turn (h : Tree s) (strm : Option ℕ) (n : ℕ) :
    ∃ s', s.turn strm n = some s' ∧ Pruned view s s' := by
  unfold StreamScheduler.turn
  split
  · exact ⟨s, rfl, h, Prunes.rfl⟩
  · split_ifs with hcond
    · exact h.advance hcond.2
    · exact ⟨s, rfl, h, Prunes.rfl⟩

/-- The loop over the children, if the visits of children keep the tree. -/
theorem Tree.visitChildren {visit : StreamScheduler → ℕ → Option (Option ℕ × StreamScheduler)}
    (hvisit : ∀ t c, Tree t → Prunes view s t → c ∈ (t.node n).children →
      ∃ r t', visit t c = some (r, t') ∧ Pruned view t t') {rounds i : ℕ} (h : Tree s')
    (hprune : Prunes view s s') (hrounds : (s'.node n).children.length ≤ i + rounds) :
    ∃ r t, visitChildren visit n rounds i s' = some (r, t) ∧ Pruned view s' t := by
  induction rounds generalizing i s' with
  | zero =>
    rw [StreamScheduler.visitChildren, if_neg (by omega)]
    exact ⟨none, s', rfl, h, Prunes.rfl⟩
  | succ rounds ih =>
    rw [StreamScheduler.visitChildren]
    by_cases hi : i < (s'.node n).children.length
    · rw [if_pos hi]
      have hnext := h.listing.nextChild_lt (List.ne_nil_of_length_pos (Nat.zero_lt_of_lt hi))
      obtain ⟨r, t, heq, ht⟩ := hvisit s' _ h hprune (List.getElem_mem hnext)
      simp only [List.getElem?_eq_getElem hnext, Option.bind_eq_bind, Option.bind_some, heq]
      by_cases hr : r = none
      · rw [if_neg (not_not.mpr hr)]
        have hle : (t.node n).children.length ≤ (s'.node n).children.length := by
          rcases ht.2.shrinks n with ⟨hsame, -⟩ | hlt
          · rw [hsame]
          · exact hlt.le
        obtain ⟨r', t', heq', ht'⟩ := ih (i := i + 1) ht.1 (hprune.trans ht.2) (by omega)
        exact ⟨r', t', heq', ht.trans ht'⟩
      · rw [if_pos hr]
        exact ⟨r, _, rfl, ht.trans (ht.1.spend n)⟩
    · rw [if_neg hi]
      exact ⟨none, s', rfl, h, Prunes.rfl⟩

/-- The end of `traverse`. -/
theorem Pruned.turn (h : Pruned view s s') (strm : Option ℕ) (n : ℕ) :
    ∃ r t, (do
      let t ← s'.turn strm n
      some (strm, t)) = some (r, t) ∧ Pruned view s t := by
  obtain ⟨t, heq, ht⟩ : ∃ t, s'.turn strm n = some t ∧ Pruned view s' t := h.1.turn strm n
  exact ⟨strm, t, by rw [heq]; rfl, h.trans ht⟩

theorem attached_refresh (s : StreamScheduler) (n : ℕ) :
    (s.refresh n).attached n ↔ s.attached n := by
  unfold attached StreamScheduler.refresh
  rw [modify_node_self]
  dsimp only
  split_ifs <;> split <;> rfl

/-- A node that `traverse` passes. -/
theorem Passed.of_not_chosen (hpass : ∀ p, s.parent n = some p → Passed view s p)
    (hfin : ¬ s.finished view n)
    (hheader : ¬ ((s.node n).id = 0 ∧ s.hasData view n ∧ s.hasWindow view n))
    (hstream : ¬ ((s.node n).id ≠ 0 ∧ (s.node n).state = .active ∧ (s.node n).quantum > 0 ∧
      s.hasWindow view n))
    (hpos : 0 < (s.node n).quantum) : Passed view s n := by
  intro a ha hactive hpa
  rcases above_iff.mp ha with rfl | ⟨p, hp, hap⟩
  · refine ⟨hactive, hfin, fun ⟨hwindow, hdata⟩ => ?_⟩
    by_cases hid : (s.node a).id = 0
    · exact hheader ⟨hid, hdata hid, hwindow⟩
    · exact hstream ⟨hid, hactive, hpos, hwindow⟩
  · exact hpass p hp a hap hactive hpa

/-- The finished node that `traverse` has reached is closed. -/
theorem Tree.closeFinished (h : Tree s) (hcalm : Calm view s)
    (hpass : ∀ p, s.parent n = some p → Passed view s p) (hatt : n ≠ 0 → s.attached n)
    (hfin : s.finished view n) :
    ∃ s', { s with openStreams := s.openStreams - 1 }.deactivateNode n = some s' ∧
      Pruned view s s' := by
  set t : StreamScheduler := { s with openStreams := s.openStreams - 1 } with ht
  have htree : Tree t := ⟨h.toWired.of_node_eq rfl rfl, h.nonroot, h.known⟩
  have hk : ∀ p, t.parent n = some p → t.keepsPlace (t.size + 1) p := by
    intro p hp
    have hatt' := hatt (h.ne_zero hp)
    have hkeep : s.keepsPlace (s.size + 1) p := hcalm.keepsPlace h.toWired hfin hatt' (hpass p hp)
      (h.toWired.mem_iff.mpr ⟨hatt', hp⟩) (Above.refl n)
    have hnode : ∀ x, Above s.parent x p → t.node x = s.node x := fun _ _ => rfl
    exact keepsPlace_congr hnode hkeep
  have hfin' : t.finished view n := hfin
  obtain ⟨s', heq, hs', hprune⟩ := htree.deactivateNode hfin' hatt hk
  exact ⟨s', heq, hs', ⟨hprune.size_eq, hprune.nodeMap_eq, hprune.parent_eq, hprune.id_eq,
    hprune.weight_eq, hprune.closes, hprune.shrinks⟩⟩

/-- **`traverse` returns, and keeps a calm tree.** -/
theorem Tree.traverse (h : Tree s) (hcalm : Calm view s)
    (hpass : ∀ p, s.parent n = some p → Passed view s p) (hatt : n ≠ 0 → s.attached n)
    (hfuel : s.size < rank s.parent s.pointers n + fuel) :
    ∃ r s', traverse view fuel s n = some (r, s') ∧ Pruned view s s' := by
  induction fuel generalizing s n with
  | zero =>
    have hle := rank_le s.parent s.pointers n
    rw [pointers, Finset.card_range] at hle
    change rank s.parent s.pointers n ≤ s.size at hle
    omega
  | succ fuel ih =>
    obtain ⟨h₀, hprune₀⟩ : Pruned view s (s.refresh n) := h.refresh n
    have hpos := quantum_refresh_pos s n
    have hcalm₀ := hcalm.of_prunes h.toWired h₀.toWired hprune₀
    have hpass₀ : ∀ p, (s.refresh n).parent n = some p → Passed view (s.refresh n) p := by
      intro p hp
      rw [hprune₀.parent_eq] at hp
      exact (hpass p hp).of_prunes hprune₀
    have hatt₀ : n ≠ 0 → (s.refresh n).attached n := fun hn => (attached_refresh s n).mpr (hatt hn)
    have hrank : (s.refresh n).size < rank (s.refresh n).parent (s.refresh n).pointers n +
        (fuel + 1) := by
      rw [hprune₀.parent_eq]
      exact hfuel
    rw [StreamScheduler.traverse]
    -- from here on only the refreshed state matters
    generalize s.refresh n = t at *
    have hend : ∀ {t'}, Pruned view t t' → Pruned view s t' := fun ht => ⟨ht.1, hprune₀.trans ht.2⟩
    by_cases hfin : t.finished view n
    · rw [if_pos hfin]
      obtain ⟨s', heq, hs'⟩ := h₀.closeFinished hcalm₀ hpass₀ hatt₀ hfin
      exact ⟨none, s', by rw [heq]; rfl, hend hs'⟩
    rw [if_neg hfin]
    by_cases hheader : (t.node n).id = 0 ∧ t.hasData view n ∧ t.hasWindow view n
    · rw [if_pos hheader]
      exact (hend ⟨h₀, Prunes.rfl⟩).turn (some n) n
    rw [if_neg hheader]
    by_cases hstream : (t.node n).id ≠ 0 ∧ (t.node n).state = .active ∧ (t.node n).quantum > 0 ∧
        t.hasWindow view n
    · rw [if_pos hstream]
      exact (hend (h₀.spend n)).turn (some n) n
    rw [if_neg hstream]
    by_cases hinner : (t.node n).activeChildren > 0 ∧ (t.node n).quantum > 0
    · rw [if_pos hinner]
      have hpassn : Passed view t n := Passed.of_not_chosen hpass₀ hfin hheader hstream hpos
      obtain ⟨r, t', heq, ht'⟩ : ∃ r t', StreamScheduler.visitChildren
          (StreamScheduler.traverse view fuel) n (t.node n).children.length 0 t = some (r, t') ∧
          Pruned view t t' := by
        refine Tree.visitChildren (s := t) (fun u c hu hprune hc => ?_) h₀ Prunes.rfl (by omega)
        obtain ⟨hattc, hcn⟩ := hu.toWired.mem_iff.mp hc
        refine ih hu (hcalm₀.of_prunes h₀.toWired hu.toWired hprune) (fun p hp => ?_)
          (fun _ => hattc) ?_
        · rw [hcn] at hp
          cases hp
          exact hpassn.of_prunes hprune
        · have hlt := hu.forest.rank_lt hcn
          rw [hprune.parent_eq, pointers, hprune.size_eq] at hlt ⊢
          change rank t.parent t.pointers n < rank t.parent t.pointers c at hlt
          change t.size < rank t.parent t.pointers c + fuel
          omega
      simp only [heq, Option.bind_eq_bind, Option.bind_some]
      exact (hend ht').turn r n
    · rw [if_neg hinner]
      exact (hend ⟨h₀, Prunes.rfl⟩).turn none n

/-- `schedule` returns, and keeps a calm tree. -/
theorem Tree.schedule (h : Tree s) (hcalm : Calm view s) :
    ∃ r s', s.schedule view = some (r, s') ∧ Pruned view s s' := by
  refine h.traverse hcalm (fun p hp => ?_) (fun hne => absurd rfl hne) (by omega)
  rw [h.root] at hp
  cases hp

end StreamScheduler

end MultipathQuic
