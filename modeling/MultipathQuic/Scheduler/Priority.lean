import MultipathQuic.Scheduler.Membership

/-!
# Setting the priority of a stream

`session.SetStreamPriority` gives a stream its weight and then its parent. The second call checks the
dependency only after the first one has changed the tree: if it refuses the dependency, the new
weight stays.
-/

namespace MultipathQuic

namespace StreamScheduler

variable {s s' : StreamScheduler} {n childID parentID id : ℕ} {exclusive : Bool}

/-- The weights, the sums of the weights of the children, the parents and the lists of children. -/
def dependencyTree (s : StreamScheduler) (n : ℕ) : UInt8 × ℕ × Option ℕ × List ℕ :=
  ((s.node n).weight, (s.node n).childrensWeight, (s.node n).parent, (s.node n).children)

/-! ## The weight -/

/-- The stream gets another weight. -/
def reweighs (s : StreamScheduler) (id : ℕ) (weight : UInt8) : Prop :=
  id ≠ 1 ∧ id ≠ 3 ∧ ∃ n, s.nodeMap id = some n ∧ (s.node n).weight ≠ weight ∧
    (s.attached n → (s.node n).parent ≠ none)

/-- What a new weight leaves alone. -/
structure Reweighed (s s' : StreamScheduler) : Prop where
  nodeMap_eq : s'.nodeMap = s.nodeMap
  id_eq : ∀ x, (s'.node x).id = (s.node x).id
  parent_eq : ∀ x, (s'.node x).parent = (s.node x).parent

theorem Reweighed.modify (h : Reweighed s s') {f : Node → Node}
    (hid : (f (s'.node n)).id = (s'.node n).id)
    (hparent : (f (s'.node n)).parent = (s'.node n).parent) : Reweighed s (s'.modify n f) :=
  ⟨h.nodeMap_eq, fun x => (modify_field Node.id hid x).trans (h.id_eq x),
    fun x => (modify_field Node.parent hparent x).trans (h.parent_eq x)⟩

/-- A call that does not give a known stream another weight changes nothing, or panics. -/
theorem maybeSetWeight_of_not_reweighs {weight : UInt8} (h : ¬ s.reweighs id weight)
    {err : Option SchedulerError} (heq : s.maybeSetWeight id weight = some (s', err)) :
    s' = s := by
  unfold StreamScheduler.maybeSetWeight at heq
  split at heq
  · cases heq
    rfl
  next hid =>
  obtain ⟨h1, h3⟩ := not_or.mp hid
  split at heq
  · cases heq
    rfl
  next n hn =>
  split at heq
  · cases heq
    rfl
  next hweight =>
  -- an attached node without a parent makes the call panic
  have hlost : ¬ (s.attached n → (s.node n).parent ≠ none) := fun hparent =>
    h ⟨h1, h3, n, hn, hweight, hparent⟩
  obtain ⟨hatt, hnone⟩ := Classical.not_imp.mp hlost
  rw [if_pos hatt, not_not.mp hnone] at heq
  cases heq

theorem maybeSetWeight_of_reweighs {weight : UInt8} (h : s.reweighs id weight) :
    ∃ s', s.maybeSetWeight id weight = some (s', none) ∧ Reweighed s s' ∧
      s'.dependencyTree ≠ s.dependencyTree := by
  obtain ⟨h1, h3, n, hn, hweight, hparent⟩ := h
  have hsame : Reweighed s s := ⟨rfl, fun _ => rfl, fun _ => rfl⟩
  -- the weight of the node itself is another one
  have hdiffers : ∀ t : StreamScheduler,
      (t.modify n fun node => { node with weight := weight }).dependencyTree ≠
        s.dependencyTree := by
    intro t heq
    have hfirst := congrArg Prod.fst (congrFun heq n)
    dsimp only [dependencyTree] at hfirst
    rw [modify_node_self] at hfirst
    exact hweight hfirst.symm
  unfold StreamScheduler.maybeSetWeight
  rw [if_neg (not_or.mpr ⟨h1, h3⟩), hn]
  dsimp only
  rw [if_neg hweight]
  by_cases hatt : s.attached n
  · obtain ⟨p, hp⟩ := Option.ne_none_iff_exists'.mp (hparent hatt)
    rw [if_pos hatt, hp]
    refine ⟨_, rfl, ?_, hdiffers _⟩
    refine Reweighed.modify (hsame.modify ?_ ?_) ?_ ?_ <;> rfl
  · rw [if_neg hatt]
    refine ⟨_, rfl, ?_, hdiffers _⟩
    refine hsame.modify ?_ ?_ <;> rfl

/-! ## The parent -/

/-- The dependency is refused: the stream cannot depend on the other one, or one of the two is
unknown. A stream that is to stay below its parent is not looked up there. -/
def rejects (s : StreamScheduler) (childID parentID : ℕ) (exclusive : Bool) : Prop :=
  childID = parentID ∨ childID = 1 ∨ childID = 3 ∨ parentID = 1 ∨
    ∀ child ∈ s.nodeMap childID,
      ¬ (exclusive = false ∧ ((s.node child).parent.map fun p => (s.node p).id) =
        some (if parentID = 3 then 0 else parentID)) ∧
      s.nodeMap (if parentID = 3 then 0 else parentID) = none

theorem Reweighed.rejects_iff (h : Reweighed s s') :
    s'.rejects childID parentID exclusive ↔ s.rejects childID parentID exclusive := by
  have hids : (fun p => (s'.node p).id) = fun p => (s.node p).id := funext h.id_eq
  unfold rejects
  simp only [h.nodeMap_eq, h.parent_eq, hids]

/-- An error of `maybeSetParent` is found before anything is changed. -/
theorem maybeSetParent_error {err : SchedulerError}
    (heq : s.maybeSetParent childID parentID exclusive = some (s', some err)) : s' = s := by
  rcases s.maybeSetParent_cases childID parentID exclusive with
    ⟨err', heq'⟩ | ⟨child, newParent, -, -, -, -, heq'⟩
  · rw [heq'] at heq
    cases heq
    rfl
  · rw [heq'] at heq
    obtain ⟨t, -, heq⟩ := Option.map_eq_some_iff.mp heq
    cases heq

theorem maybeSetParent_error_iff :
    (∃ s' err, s.maybeSetParent childID parentID exclusive = some (s', some err)) ↔
      s.rejects childID parentID exclusive := by
  unfold StreamScheduler.maybeSetParent rejects
  by_cases hself : childID = parentID
  · rw [if_pos hself]
    exact ⟨fun _ => .inl hself, fun _ => ⟨_, _, rfl⟩⟩
  rw [if_neg hself, or_iff_right hself]
  by_cases h1 : childID = 1
  · rw [if_pos h1]
    exact ⟨fun _ => .inl h1, fun _ => ⟨_, _, rfl⟩⟩
  rw [if_neg h1, or_iff_right h1]
  by_cases h3 : childID = 3
  · rw [if_pos h3]
    exact ⟨fun _ => .inl h3, fun _ => ⟨_, _, rfl⟩⟩
  rw [if_neg h3, or_iff_right h3]
  by_cases hp1 : parentID = 1
  · rw [if_pos hp1]
    exact ⟨fun _ => .inl hp1, fun _ => ⟨_, _, rfl⟩⟩
  rw [if_neg hp1, or_iff_right hp1]
  generalize (if parentID = 3 then 0 else parentID) = parentID
  cases hchild : s.nodeMap childID with
  | none =>
    refine ⟨fun _ child hmem => ?_, fun _ => ⟨_, _, rfl⟩⟩
    cases hmem
  | some child =>
    simp only [Option.mem_def, Option.some.injEq, forall_eq']
    by_cases hstay : exclusive = false ∧
        ((s.node child).parent.map fun p => (s.node p).id) = some parentID
    · rw [if_pos hstay]
      refine ⟨?_, fun h => absurd hstay h.1⟩
      rintro ⟨s', err, heq⟩
      cases heq
    rw [if_neg hstay, and_iff_right hstay]
    cases hnew : s.nodeMap parentID with
    | none => exact ⟨fun _ => rfl, fun _ => ⟨_, _, rfl⟩⟩
    | some newParent =>
      refine ⟨?_, fun h => ?_⟩
      · rintro ⟨s', err, heq⟩
        obtain ⟨t, -, heq⟩ := Option.bind_eq_some_iff.mp heq
        cases heq
      · cases h

/-! ## Both calls -/

theorem setStreamPriority_of_reweighs {priority : Priority}
    (h : s.reweighs id priority.weight) :
    ∃ t, Reweighed s t ∧ t.dependencyTree ≠ s.dependencyTree ∧
      s.setStreamPriority id priority =
        t.maybeSetParent id priority.dependency priority.exclusive := by
  obtain ⟨t, heq, hsame, htree⟩ := maybeSetWeight_of_reweighs h
  refine ⟨t, hsame, htree, ?_⟩
  unfold setStreamPriority
  rw [heq]
  rfl

/-- Without a new weight, a failed call has changed nothing. -/
theorem setStreamPriority_error_of_not_reweighs {priority : Priority} {err : SchedulerError}
    (h : ¬ s.reweighs id priority.weight)
    (heq : s.setStreamPriority id priority = some (s', some err)) : s' = s := by
  obtain ⟨⟨t, err'⟩, hweight, heq⟩ := Option.bind_eq_some_iff.mp heq
  have ht := maybeSetWeight_of_not_reweighs h hweight
  subst ht
  cases err' with
  | some _ =>
    cases heq
    rfl
  | none => exact maybeSetParent_error heq

end StreamScheduler

theorem setStreamPriority_some {s : StreamScheduler} {id : ℕ} {priority : Priority}
    {r : Option StreamScheduler × Option SchedulerError} :
    setStreamPriority (some s) id priority = some r ↔
      ∃ s' err, s.setStreamPriority id priority = some (s', err) ∧ r = (some s', err) := by
  unfold setStreamPriority
  rw [Option.map_eq_some_iff]
  constructor
  · rintro ⟨⟨s', err⟩, heq, rfl⟩
    exact ⟨s', err, heq, rfl⟩
  · rintro ⟨s', err, heq, rfl⟩
    exact ⟨(s', err), heq, rfl⟩

open StreamScheduler (dependencyTree)

/-- **When a failed `SetStreamPriority` leaves the dependency tree as it was:** unless the stream
gets another weight, and then the dependency is refused. -/
theorem setStreamPriority_atomic_iff (streamScheduler : Option StreamScheduler) (id : ℕ)
    (priority : Priority) :
    (∀ scheduler' err,
      setStreamPriority streamScheduler id priority = some (scheduler', some err) →
        scheduler'.map dependencyTree = streamScheduler.map dependencyTree) ↔
      ∀ s ∈ streamScheduler, ¬ (s.reweighs id priority.weight ∧
        s.rejects id priority.dependency priority.exclusive) := by
  cases streamScheduler with
  | none =>
    constructor
    · intro _ s hs
      cases hs
    · intro _ scheduler' err heq
      cases heq
  | some s =>
    constructor
    · rintro h s ⟨⟩ ⟨hweight, hrejects⟩
      obtain ⟨t, hsame, htree, hcall⟩ := StreamScheduler.setStreamPriority_of_reweighs hweight
      obtain ⟨t', err, heq⟩ :=
        StreamScheduler.maybeSetParent_error_iff.mpr (hsame.rejects_iff.mpr hrejects)
      cases StreamScheduler.maybeSetParent_error heq
      have hkept := h (some t) err
        (setStreamPriority_some.mpr ⟨t, some err, hcall.trans heq, rfl⟩)
      exact htree (Option.some.inj hkept)
    · intro h scheduler' err heq
      obtain ⟨s', err', heq, hr⟩ := setStreamPriority_some.mp heq
      cases hr
      by_cases hweight : s.reweighs id priority.weight
      · obtain ⟨t, hsame, -, hcall⟩ := StreamScheduler.setStreamPriority_of_reweighs hweight
        rw [hcall] at heq
        have hrejects := StreamScheduler.maybeSetParent_error_iff.mp ⟨s', err, heq⟩
        exact absurd ⟨hweight, hsame.rejects_iff.mp hrejects⟩ (h s rfl)
      · rw [StreamScheduler.setStreamPriority_error_of_not_reweighs hweight heq]

/-- **Stream 7 cannot depend on stream 9, which is not open, but it gets its new weight,** and so does
the sum of stream 5. -/
theorem unknownDependency_reweighs :
    ∃ s s', SchedulerRun.run dependent = some s ∧
      setStreamPriority (some s) 7 ⟨9, 200, false⟩ = some (some s', some (.unknownParent 7 9)) ∧
      (s.node 2).weight = 15 ∧ (s'.node 2).weight = 200 ∧
      (s.node 1).childrensWeight = 16 ∧ (s'.node 1).childrensWeight = 201 := by
  obtain ⟨s, hs, r, hr, s', hs', herr, hbefore, hafter, hsum, hsum'⟩ :
      ∃ s ∈ SchedulerRun.run dependent, ∃ r ∈ setStreamPriority (some s) 7 ⟨9, 200, false⟩,
        ∃ s' ∈ r.1, r.2 = some (.unknownParent 7 9) ∧
          (s.node 2).weight = 15 ∧ (s'.node 2).weight = 200 ∧
          (s.node 1).childrensWeight = 16 ∧ (s'.node 1).childrensWeight = 201 := by
    decide +kernel
  have heq : r = (some s', some (.unknownParent 7 9)) := Prod.ext hs' herr
  exact ⟨s, s', hs, heq ▸ hr, hbefore, hafter, hsum, hsum'⟩

end MultipathQuic
