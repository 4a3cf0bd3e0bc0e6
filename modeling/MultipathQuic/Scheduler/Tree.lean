import MultipathQuic.Scheduler.Cascade

/-!
# The dependency tree

The scheduler is wired if its parent pointers form a forest and each node stands in the list of its
parent iff it is active or has children. It is a tree if moreover every node but the root has a
parent. Between the steps of a re-prioritisation the moved node has no parent for a while.

## Main definitions

* `Wired`, `Tree`: the invariants

## Main results

* `Wired.detach`, `Listing.attach`: moving one node
* `Tree.addNode`, `Tree.setActive`: the calls that add streams keep the tree
-/

namespace MultipathQuic

open Function Forest

namespace StreamScheduler

variable {s s' s'' : StreamScheduler} {listed par : ℕ → Option ℕ} {n p q c x : ℕ}

/-! ## Changes that the lists do not see -/

/-- The two states have the same lists. -/
structure SameLists (s s' : StreamScheduler) : Prop where
  size_eq : s'.size = s.size
  children_eq : ∀ x, (s'.node x).children = (s.node x).children
  activeChildren_eq : ∀ x, (s'.node x).activeChildren = (s.node x).activeChildren
  nextChild_eq : ∀ x, (s'.node x).nextChild = (s.node x).nextChild

theorem SameLists.of_modify {f : Node → Node} (hc : (f (s.node n)).children = (s.node n).children)
    (ha : (f (s.node n)).activeChildren = (s.node n).activeChildren)
    (hx : (f (s.node n)).nextChild = (s.node n).nextChild) : SameLists s (s.modify n f) := by
  refine ⟨rfl, fun x => ?_, fun x => ?_, fun x => ?_⟩ <;>
  · by_cases h : x = n
    · subst h
      rw [modify_node_self]
      assumption
    · rw [modify_node_of_ne h]

theorem Listing.of_sameLists (h : Listing s listed) (hs : SameLists s s') : Listing s' listed := by
  refine ⟨fun p n => ?_, fun p => ?_, fun p => ?_, fun hn => ?_, ?_⟩
  · rw [hs.children_eq]
    exact h.count p n
  · rw [hs.children_eq, hs.activeChildren_eq]
    exact h.active p
  · rw [hs.children_eq, hs.nextChild_eq]
    exact h.next p
  · rw [hs.size_eq]
    exact h.bound hn
  · rw [hs.size_eq]
    exact h.size_le

theorem SameLists.attached_iff (hs : SameLists s s') (hx : (s'.node x).state = (s.node x).state) :
    s'.attached x ↔ s.attached x := by
  unfold attached
  rw [hs.activeChildren_eq, hx]

theorem parent_modify {f : Node → Node} (hp : (f (s.node n)).parent = (s.node n).parent) :
    (s.modify n f).parent = s.parent := by
  funext x
  unfold StreamScheduler.parent
  by_cases hx : x = n
  · subst hx
    rw [modify_node_self, hp]
  · rw [modify_node_of_ne hx]

/-- Changes the parent pointer of a node. -/
def setPointer (s : StreamScheduler) (c : ℕ) (ptr : Option ℕ) : StreamScheduler :=
  s.modify c fun node => { node with parent := ptr }

theorem sameLists_setPointer (s : StreamScheduler) (c : ℕ) (ptr : Option ℕ) :
    SameLists s (s.setPointer c ptr) :=
  SameLists.of_modify rfl rfl rfl

@[simp] theorem parent_setPointer (s : StreamScheduler) (c : ℕ) (ptr : Option ℕ) :
    (s.setPointer c ptr).parent = update s.parent c ptr := by
  funext x
  by_cases hx : x = c
  · subst hx
    rw [update_self, StreamScheduler.parent, setPointer, modify_node_self]
  · rw [update_of_ne hx, StreamScheduler.parent, setPointer, modify_node_of_ne hx]
    rfl

theorem state_setPointer (s : StreamScheduler) (c : ℕ) (ptr : Option ℕ) (x : ℕ) :
    ((s.setPointer c ptr).node x).state = (s.node x).state := by
  by_cases hx : x = c
  · subst hx
    rw [setPointer, modify_node_self]
  · rw [setPointer, modify_node_of_ne hx]

theorem attached_setPointer (s : StreamScheduler) (c : ℕ) (ptr : Option ℕ) (x : ℕ) :
    (s.setPointer c ptr).attached x ↔ s.attached x :=
  (sameLists_setPointer s c ptr).attached_iff (state_setPointer s c ptr x)

/-! ## Wired schedulers -/

/-- The parent pointers form a forest with the root at its top, and each node stands in the list of
its parent iff it is active or has children. -/
structure Wired (s : StreamScheduler) : Prop where
  forest : IsForest s.parent s.pointers
  root : s.parent 0 = none
  size_pos : 0 < s.size
  listing : Listing s (s.canon s.parent)

namespace Wired

theorem mem_iff (h : Wired s) : c ∈ (s.node p).children ↔ s.attached c ∧ s.parent c = some p := by
  rw [h.listing.mem_iff, canon_eq_some]

theorem parent_of_mem (h : Wired s) (hc : c ∈ (s.node p).children) : s.parent c = some p :=
  (h.mem_iff.mp hc).2

theorem ne_zero (h : Wired s) (hp : s.parent c = some p) : c ≠ 0 := by
  rintro rfl
  rw [h.root] at hp
  cases hp

theorem rank_lt_fuel (s : StreamScheduler) (n : ℕ) : rank s.parent s.pointers n < s.size + 1 := by
  have hle := rank_le s.parent s.pointers n
  rw [pointers, Finset.card_range] at hle
  exact Nat.lt_succ_of_le hle

/-- A change that neither the lists, nor the parent pointers, nor the states see. -/
theorem of_sameLists (h : Wired s) (hs : SameLists s s') (hparent : s'.parent = s.parent)
    (hstate : ∀ x, s.parent x ≠ none → (s'.node x).state = (s.node x).state) : Wired s' := by
  have hcanon : s'.canon s'.parent = s.canon s.parent := by
    funext x
    rw [hparent]
    by_cases hx : s.parent x = none
    · unfold canon
      split_ifs <;> simp [hx]
    · unfold canon
      simp only [hs.attached_iff (hstate x hx)]
  refine ⟨?_, by rw [hparent]; exact h.root, by rw [hs.size_eq]; exact h.size_pos, ?_⟩
  · rw [hparent, pointers, hs.size_eq]
    exact h.forest
  · rw [hcanon]
    exact h.listing.of_sameLists hs

/-- Only the nodes matter. -/
theorem of_node_eq (h : Wired s) (hnode : s'.node = s.node) (hsize : s'.size = s.size) :
    Wired s' := by
  refine h.of_sameLists ⟨hsize, fun x => ?_, fun x => ?_, fun x => ?_⟩ (funext fun x => ?_)
    fun x _ => ?_
  · rw [hnode]
  · rw [hnode]
  · rw [hnode]
  · unfold StreamScheduler.parent
    rw [hnode]
  · rw [hnode]

/-- The lists are complete once the parent pointer of `c` is set. -/
theorem setPointer {ptr : Option ℕ} (hl : Listing s (s.canon (update s.parent c ptr)))
    (hf : IsForest (update s.parent c ptr) s.pointers) (hroot : update s.parent c ptr 0 = none)
    (hsize : 0 < s.size) : Wired (s.setPointer c ptr) := by
  refine ⟨by rw [parent_setPointer]; exact hf, by rw [parent_setPointer]; exact hroot, hsize, ?_⟩
  rw [parent_setPointer, canon_congr (attached_setPointer s c ptr)]
  exact hl.of_sameLists (sameLists_setPointer s c ptr)

end Wired

/-- A node without a parent stands nowhere. -/
theorem canon_cut (s : StreamScheduler) (par : ℕ → Option ℕ) (c : ℕ) :
    s.canon (update par c none) = update (s.canon par) c none := by
  funext x
  unfold canon
  by_cases hx : x = c
  · subst hx
    simp
  · simp [update_of_ne hx]

/-- The parent of a node that is in no list does not matter. -/
theorem canon_update_of_not_attached (hc : ¬ s.attached c) (ptr : Option ℕ) :
    s.canon (update par c ptr) = s.canon par := by
  funext x
  by_cases hx : x = c
  · rw [hx, canon_of_not_attached hc, canon_of_not_attached hc]
  · unfold canon
    rw [update_of_ne hx]

theorem Climbs.rfl : Climbs s s p :=
  ⟨Eq.refl _, Eq.refl _, Eq.refl _, fun _ => Eq.refl _, fun _ _ => Eq.refl _⟩

/-- What a node and its ancestors leave behind: only they are missing from lists. -/
def LostAbove (s s' : StreamScheduler) (c : ℕ) : Prop :=
  ∀ x m, m ∈ (s.node x).children → m ∈ (s'.node x).children ∨ Above s.parent m c

namespace Wired

/-- **Taking a node out of the tree.** Unless the node is in no list, `removeWeight` takes it out,
and then some of its ancestors. -/
theorem detach (h : Wired s) (hp : s.parent c = some p)
    (hk : s.attached c → s.keepsPlace (s.size + 1) p) :
    ∃ s', (if s.attached c then s.removeWeight p c else some s) = some s' ∧
      Listing s' (s'.canon (update s.parent c none)) ∧ Climbs s s' p ∧
      (∀ x, (s'.node x).children ⊆ (s.node x).children) ∧ LostAbove s s' c := by
  by_cases hc : s.attached c
  · rw [if_pos hc]
    have hcanon : s.canon s.parent c = some p := (canon_of_attached hc).trans hp
    have hl : Listing s (update (s.canon (update s.parent c none)) c (some p)) := by
      rw [canon_cut, update_idem, ← hcanon, update_eq_self]
      exact h.listing
    have hnone : s.canon (update s.parent c none) c = none := by rw [canon_cut, update_self]
    have hpar : ∀ x, Above s.parent x p → update s.parent c none x = s.parent x := by
      intro x hx
      refine update_of_ne ?_ _ _
      rintro rfl
      exact h.forest.acyclic hp hx
    obtain ⟨s', heq, hl', hclimb, hsub, hlost⟩ := hl.removeWeightUp hnone h.forest hpar (hk hc)
      (rank_lt_fuel s p)
    refine ⟨s', heq, hl', hclimb, hsub, fun x m hm => ?_⟩
    rcases hlost x m hm with hm | rfl | hm
    · exact Or.inl hm
    · exact Or.inr (Above.refl m)
    · exact Or.inr (hm.of_parent hp)
  · rw [if_neg hc]
    refine ⟨s, rfl, ?_, Climbs.rfl, fun x => List.Subset.refl _, fun x m hm => Or.inl hm⟩
    rw [canon_update_of_not_attached hc]
    exact h.listing

end Wired

/-- **Putting a node into the tree** that is built with the parents `par`. -/
theorem Listing.attach (h : Listing s (s.canon (update par c none))) (hc : s.attached c)
    (hpc : par c = some p) (hc0 : c ≠ 0) (hcs : c < s.size) (hps : p < s.size)
    (hf : IsForest s.parent s.pointers) (hroot : s.parent 0 = none)
    (hcp : ¬ Above s.parent c p) (hpar : ∀ x, Above s.parent x p → par x = s.parent x) :
    ∃ s', s.addWeight p c = some s' ∧ Listing s' (s'.canon par) ∧ Climbs s s' p ∧
      ∀ x, (s.node x).children ⊆ (s'.node x).children := by
  rw [canon_cut] at h
  exact h.addWeightUp hc hpc hc0 hcs hps hf hroot hcp hpar (Wired.rank_lt_fuel s p)

/-! ## Trees -/

/-- A wired scheduler in which every node but the root has a parent, and only the header stream is
the root. -/
structure Tree (s : StreamScheduler) : Prop extends Wired s where
  nonroot : ∀ n < s.size, n ≠ 0 → s.parent n ≠ none
  known : ∀ {id n}, s.nodeMap id = some n → n < s.size ∧ (n = 0 → id = 3)

theorem tree_new : Tree newStreamScheduler := by
  refine ⟨⟨⟨fun {n p} hp => ?_, fun {n p} hp => ?_⟩, rfl, by decide, ?_⟩, fun n hn h0 => ?_, nofun⟩
  · cases hp
  · cases hp
  · have hcanon : ∀ n, newStreamScheduler.canon newStreamScheduler.parent n = none := by
      intro n
      exact canon_of_not_attached (by simp [attached, newStreamScheduler, newNode])
    refine ⟨fun p n => ?_, fun p => rfl, fun p => Or.inr rfl, fun {n p} hn => ?_, by decide⟩
    · rfl
    · cases hn
  · change n < 1 at hn
    omega

namespace Tree

theorem exists_parent (h : Tree s) (hn : n < s.size) (h0 : n ≠ 0) :
    ∃ p, s.parent n = some p ∧ p < s.size := by
  obtain ⟨p, hp⟩ := Option.ne_none_iff_exists'.mp (h.nonroot n hn h0)
  exact ⟨p, hp, Finset.mem_range.mp (h.forest.mem hp).2⟩

/-- A change of one node that neither the lists, nor the parent pointers, nor the states see; the
state of the root does not matter. -/
theorem modify (h : Tree s) {f : Node → Node} (hc : (f (s.node n)).children = (s.node n).children)
    (ha : (f (s.node n)).activeChildren = (s.node n).activeChildren)
    (hx : (f (s.node n)).nextChild = (s.node n).nextChild)
    (hp : (f (s.node n)).parent = (s.node n).parent)
    (hs : s.parent n ≠ none → (f (s.node n)).state = (s.node n).state) : Tree (s.modify n f) := by
  have hparent := parent_modify hp
  refine ⟨h.toWired.of_sameLists (SameLists.of_modify hc ha hx) hparent fun m hm => ?_,
    fun m hm h0 => ?_, h.known⟩
  · by_cases hmn : m = n
    · subst hmn
      rw [modify_node_self]
      exact hs hm
    · rw [modify_node_of_ne hmn]
  · rw [hparent]
    exact h.nonroot m hm h0

/-- The parent pointers stay, and the lists are complete again. -/
theorem of_listing (h : Tree s) (hparent : s'.parent = s.parent) (hsize : s'.size = s.size)
    (hmap : s'.nodeMap = s.nodeMap) (hl : Listing s' (s'.canon s'.parent)) : Tree s' := by
  refine ⟨⟨?_, by rw [hparent]; exact h.root, by rw [hsize]; exact h.size_pos, hl⟩,
    fun n hn h0 => ?_, fun {id n} hn => ?_⟩
  · rw [hparent, pointers, hsize]
    exact h.forest
  · rw [hsize] at hn
    rw [hparent]
    exact h.nonroot n hn h0
  · rw [hmap] at hn
    rw [hsize]
    exact h.known hn

/-! ### Adding nodes -/

theorem parent_size (h : Tree s) : s.parent s.size = none := by
  by_contra hne
  obtain ⟨p, hp⟩ := Option.ne_none_iff_exists'.mp hne
  have := Finset.mem_range.mp (h.forest.mem hp).1
  omega

/-- A new node hangs below the root, and is in no list. -/
theorem allocate (h : Tree s) (hroom : s.size < 2 ^ 16) (id : ℕ) :
    Wired (s.allocate (newNode id (some id) (some 0))) ∧
      (s.allocate (newNode id (some id) (some 0))).parent = update s.parent s.size (some 0) := by
  set s' := s.allocate (newNode id (some id) (some 0)) with hs'
  have hself : s'.node s.size = newNode id (some id) (some 0) := update_self _ _ _
  have hother : ∀ x ≠ s.size, s'.node x = s.node x := fun x hx => update_of_ne hx _ _
  have hparent : s'.parent = update s.parent s.size (some 0) := by
    funext x
    by_cases hx : x = s.size
    · subst hx
      rw [update_self, StreamScheduler.parent, hself]
      rfl
    · rw [update_of_ne hx, StreamScheduler.parent, hother x hx]
      rfl
  have hsize := h.size_pos
  have hcanon : s'.canon s'.parent = s.canon s.parent := by
    funext x
    by_cases hx : x = s.size
    · have hidle : ¬ s'.attached x := by
        rw [hx, attached, hself]
        simp [newNode]
      rw [canon_of_not_attached hidle, hx]
      unfold canon
      split_ifs <;> simp [h.parent_size]
    · unfold canon
      simp only [attached_congr (hother x hx), hparent, update_of_ne hx]
  refine ⟨⟨?_, ?_, Nat.succ_pos _, ?_⟩, hparent⟩
  · have hsub : s.pointers ⊆ s'.pointers := Finset.range_subset_range.mpr (Nat.le_succ _)
    rw [hparent]
    refine (h.forest.mono hsub).hang (Finset.mem_range.mpr (Nat.lt_succ_self _))
      (Finset.mem_range.mpr (Nat.succ_pos _)) fun ha => ?_
    have := eq_of_above_of_none h.root ha
    omega
  · rw [hparent, update_of_ne (by omega)]
    exact h.root
  · rw [hcanon]
    have hl := h.listing
    refine ⟨fun p n => ?_, fun p => ?_, fun p => ?_, fun {n p} hn => ?_, hroom⟩
    · by_cases hp : p = s.size
      · rw [hp, hself, if_neg fun hn => absurd (hl.bound hn).2.2 (lt_irrefl _)]
        rfl
      · rw [hother p hp]
        exact hl.count p n
    · by_cases hp : p = s.size
      · rw [hp, hself]
        rfl
      · rw [hother p hp]
        exact hl.active p
    · by_cases hp : p = s.size
      · rw [hp, hself]
        exact Or.inr rfl
      · rw [hother p hp]
        exact hl.next p
    · obtain ⟨hn0, hns, hps⟩ := hl.bound hn
      exact ⟨hn0, Nat.lt_succ_of_lt hns, Nat.lt_succ_of_lt hps⟩

/-- `addNode` keeps the tree, as long as there are fewer than 2^16 nodes. -/
theorem addNode (h : Tree s) {id : ℕ} (hroom : id ≠ 1 → id ≠ 3 → s.size < 2 ^ 16) :
    Tree (s.addNode id) := by
  unfold StreamScheduler.addNode
  by_cases h1 : id = 1
  · rw [if_pos h1]
    exact h
  rw [if_neg h1]
  by_cases h3 : id = 3
  · rw [if_pos h3]
    have hmod := h.modify (n := 0)
      (f := fun node => { node with stream := some id, state := .active }) rfl rfl rfl rfl
      (fun hne => absurd h.root hne)
    refine ⟨hmod.toWired.of_node_eq rfl rfl, hmod.nonroot, fun {id' n} hn => ?_⟩
    change update s.nodeMap 3 (some 0) id' = some n at hn
    by_cases hid : id' = 3
    · rw [hid, update_self] at hn
      exact ⟨Option.some.inj hn ▸ h.size_pos, fun _ => hid⟩
    · rw [update_of_ne hid] at hn
      exact h.known hn
  · rw [if_neg h3]
    obtain ⟨hw, hparent⟩ := h.allocate (hroom h1 h3) id
    have hsize := h.size_pos
    refine ⟨hw.of_node_eq rfl rfl, fun n hn h0 => ?_, fun {id' n} hn => ?_⟩
    · change (s.allocate (newNode id (some id) (some 0))).parent n ≠ none
      change n < s.size + 1 at hn
      rw [hparent]
      by_cases hx : n = s.size
      · rw [hx, update_self]
        exact Option.some_ne_none 0
      · rw [update_of_ne hx]
        exact h.nonroot n (by omega) h0
    · change update s.nodeMap id (some s.size) id' = some n at hn
      change n < s.size + 1 ∧ _
      by_cases hid : id' = id
      · rw [hid, update_self] at hn
        have := Option.some.inj hn
        exact ⟨by omega, by omega⟩
      · rw [update_of_ne hid] at hn
        obtain ⟨hlt, h3⟩ := h.known hn
        exact ⟨Nat.lt_succ_of_lt hlt, h3⟩

/-! ### Weights and activity -/

/-- A known stream other than the header stream has a node with a parent. -/
theorem parent_of_known (h : Tree s) {id : ℕ} (hid : id ≠ 3) (hn : s.nodeMap id = some n) :
    ∃ p, s.parent n = some p ∧ n ≠ 0 ∧ n < s.size ∧ p < s.size := by
  obtain ⟨hlt, h3⟩ := h.known hn
  have h0 : n ≠ 0 := fun he => hid (h3 he)
  obtain ⟨p, hp, hps⟩ := h.exists_parent hlt h0
  exact ⟨p, hp, h0, hlt, hps⟩

/-- `maybeSetWeight` keeps the tree. -/
theorem maybeSetWeight (h : Tree s) (id : ℕ) (weight : UInt8) :
    ∃ s' err, s.maybeSetWeight id weight = some (s', err) ∧ Tree s' := by
  unfold StreamScheduler.maybeSetWeight
  by_cases hid : id = 1 ∨ id = 3
  · rw [if_pos hid]
    exact ⟨s, none, rfl, h⟩
  rw [if_neg hid]
  cases hn : s.nodeMap id with
  | none => exact ⟨s, _, rfl, h⟩
  | some n =>
    dsimp only
    by_cases hw : (s.node n).weight = weight
    · rw [if_pos hw]
      exact ⟨s, none, rfl, h⟩
    rw [if_neg hw]
    obtain ⟨p, hp, -⟩ := h.parent_of_known (fun h3 => hid (Or.inr h3)) hn
    by_cases hatt : s.attached n
    · have hp' : (s.node n).parent = some p := hp
      rw [if_pos hatt, hp']
      refine ⟨_, _, rfl, Tree.modify (Tree.modify h ?_ ?_ ?_ ?_ ?_) ?_ ?_ ?_ ?_ ?_⟩ <;>
        first | rfl | exact fun _ => rfl
    · rw [if_neg hatt]
      exact ⟨_, _, rfl, h.modify rfl rfl rfl rfl fun _ => rfl⟩

/-- `setActive` on a node that is in no list keeps the tree. -/
theorem setActive (h : Tree s) {id : ℕ}
    (hok : id ≠ 1 → id ≠ 3 → ∀ n, s.nodeMap id = some n → ¬ s.attached n) :
    ∃ s' err, s.setActive id = some (s', err) ∧ Tree s' := by
  unfold StreamScheduler.setActive
  by_cases hid : id = 1 ∨ id = 3
  · rw [if_pos hid]
    exact ⟨s, none, rfl, h⟩
  rw [if_neg hid]
  cases hn : s.nodeMap id with
  | none => exact ⟨s, _, rfl, h⟩
  | some n =>
    obtain ⟨h1, h3⟩ := not_or.mp hid
    have hidle := hok h1 h3 n hn
    obtain ⟨p, hp, hn0, hns, hps⟩ := h.parent_of_known h3 hn
    set s₁ := s.modify n fun node => { node with state := .active } with hs₁
    have hparent : s₁.parent = s.parent := parent_modify rfl
    have hsame : SameLists s s₁ := SameLists.of_modify rfl rfl rfl
    have hactive : s₁.attached n := Or.inl (congrArg Node.state (modify_node_self _ _ _))
    -- the node is active now, but it is still in no list
    have hl : Listing s₁ (s₁.canon (update s₁.parent n none)) := by
      have hcanon : s₁.canon (update s₁.parent n none) = s.canon s.parent := by
        funext x
        rw [canon_cut, hparent]
        by_cases hx : x = n
        · rw [hx, update_self, canon_of_not_attached hidle]
        · rw [update_of_ne hx]
          exact canon_apply_congr (attached_congr (modify_node_of_ne hx))
      rw [hcanon]
      exact h.listing.of_sameLists hsame
    obtain ⟨s', heq, hl', hclimb, -⟩ := hl.attach hactive (by rw [hparent]; exact hp) hn0 hns hps
      (by rw [hparent]; exact h.forest) (by rw [hparent]; exact h.root)
      (by rw [hparent]; exact h.forest.acyclic hp) fun _ _ => rfl
    have hp' : (s₁.node n).parent = some p := (congrFun hparent n).trans hp
    dsimp only
    rw [hp']
    dsimp only [Option.bind_eq_bind, Option.bind_some]
    rw [heq]
    have htree : Tree s' := h.of_listing (hclimb.parent_eq.trans hparent) hclimb.size_eq
      hclimb.nodeMap_eq (by rwa [hclimb.parent_eq])
    exact ⟨_, _, rfl, ⟨htree.toWired.of_node_eq rfl rfl, htree.nonroot, htree.known⟩⟩

/-- The tree does not depend on the selected stream. -/
theorem setToSend (h : Tree s) (strm : Option ℕ) : Tree { s with toSend := strm } :=
  ⟨h.toWired.of_node_eq rfl rfl, h.nonroot, h.known⟩

end Tree

end StreamScheduler

end MultipathQuic
