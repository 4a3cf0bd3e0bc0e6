import MultipathQuic.Scheduler.Priority
import MultipathQuic.Scheduler.RootDependency
import MultipathQuic.Stream.StreamsMap

/-!
# Priorities in the HTTP/2 server

The server gets the priority of a request in the HEADERS frame that starts it or in a PRIORITY frame.
Both handlers look the data stream up and set its priority, but the handler of PRIORITY frames
leaves the exclusive flag out. The flag matters as soon as the dependency is on a stream that can
have dependants.

## Main definitions

* `handlePriorityFrame`, `handleRequestPriority`: the handlers

## Main results

* `priorityFrame_eq_headers_iff`: when both have the same effect
-/

namespace MultipathQuic

open Function

namespace StreamScheduler

variable {s s' : StreamScheduler} {n c x q o child newParent fuel : ℕ}

/-! ## Moving an idle stream -/

theorem parent_addWeight (h : s.addWeight n c = some s') : s'.parent = s.parent :=
  addWeightUp_induction (P := fun t => t.parent = s.parent)
    (fun n c ht => (climbs_appendChild _ n c).parent_eq.trans ht) rfl h

theorem parent_adopt (h : s.adopt child newParent c = some s') : s'.parent c = some child := by
  unfold StreamScheduler.adopt at h
  split at h
  · obtain ⟨s₁, -, h⟩ := Option.bind_eq_some_iff.mp h
    obtain ⟨s₂, -, h⟩ := Option.bind_eq_some_iff.mp h
    cases h
    exact congrArg Node.parent (modify_node_self _ _ _)
  · cases h
    exact congrArg Node.parent (modify_node_self _ _ _)

/-- A node below a node without a parent does not depend on another one. -/
theorem moveIfDependent_of_root (hroot : s.parent q = none) (oldParent : Option ℕ) :
    moveIfDependent child newParent oldParent (fuel + 1) s q = some s := by
  have hroot' : (s.node q).parent = none := hroot
  rw [moveIfDependent, hroot']

/-- A stream that is in no list is cut off by its pointer alone. -/
theorem detachChild_of_idle (hidle : ¬ s.attached child) (ho : s.parent child = some o) :
    s.detachChild child = some (s.setPointer child none) := by
  have ho' : (s.node child).parent = some o := ho
  unfold StreamScheduler.detachChild
  rw [ho']
  dsimp only
  rw [if_neg hidle]
  rfl

theorem setParent_of_idle (hidle : ¬ s.attached child) (ho : s.parent child = some o)
    (hq : s.parent newParent = some q) (hroot : s.parent q = none) :
    s.setParent child newParent false =
      some ((s.setPointer child none).setPointer child (some newParent)) := by
  have hq' : (s.node newParent).parent = some q := hq
  have hattached : ¬ ((s.setPointer child none).setPointer child (some newParent)).attached child :=
    fun h => hidle (by simpa [attached, setPointer, modify_node_self] using h)
  unfold StreamScheduler.setParent
  rw [hq']
  simp only [Option.bind_eq_bind, Option.bind_some, moveIfDependent_of_root hroot,
    detachChild_of_idle hidle ho]
  exact if_neg hattached

/-- The only child of the new parent gets the stream as its parent. -/
theorem parent_setParent_exclusive (hidle : ¬ s.attached child) (ho : s.parent child = some o)
    (hq : s.parent newParent = some q) (hroot : s.parent q = none)
    (hchildren : (s.node newParent).children = [x]) (hxc : x ≠ child) (hxn : x ≠ newParent)
    (h : s.setParent child newParent true = some s') : s'.parent x = some child := by
  have hq' : (s.node newParent).parent = some q := hq
  have hlist : ((s.setPointer child none).node newParent).children = [x] := by
    rw [(sameLists_setPointer s child none).children_eq, hchildren]
  unfold StreamScheduler.setParent at h
  rw [hq'] at h
  simp only [Option.bind_eq_bind, Option.bind_some, moveIfDependent_of_root hroot,
    detachChild_of_idle hidle ho, if_true, hlist] at h
  obtain ⟨s₁, hadopt, hattach⟩ := Option.bind_eq_some_iff.mp h
  -- the loop has one round, which sets the pointer of `x`
  have hpointer : s₁.parent x = some child := by
    simp only [List.length_singleton, adoptFrom, List.getElem?_cons_zero, Option.bind_eq_bind,
      Option.bind_some, if_pos hxn] at hadopt
    obtain ⟨s₂, hround, hs₂⟩ := Option.bind_eq_some_iff.mp hadopt
    cases hs₂
    exact parent_adopt hround
  -- the stream itself is another node
  have hother : (s₁.setPointer child (some newParent)).parent x = some child :=
    (congrArg Node.parent (modify_node_of_ne hxc)).trans hpointer
  unfold StreamScheduler.attachChild at hattach
  dsimp only at hattach
  split at hattach
  · rw [parent_addWeight hattach]
    exact hother
  · cases hattach
    exact hother

end StreamScheduler

/-! ## The handlers -/

/-- `http2.PriorityParam`. -/
structure PriorityParam where
  streamDep : ℕ
  exclusive : Bool
  weight : UInt8

namespace StreamsMap

variable {E : Type} (m : StreamsMap E)

/-- What both handlers do: they get the data stream or open it, and set its priority. An error of the
scheduler is ignored. -/
def prioritise (streamID : ℕ) (priority : Option Priority) :
    Option (StreamsMap E × Option StreamsMapError) := do
  let (m, dataStream) ← m.getOrOpenStream streamID
  match dataStream, priority with
  | .error err, _ => some (m, some err)
  | .ok none, _ => some (m, none)
  | .ok (some _), none => some (m, none)
  | .ok (some id), some priority => do
    let (streamScheduler, _) ← setStreamPriority m.streamScheduler id priority
    some ({ m with streamScheduler := streamScheduler }, none)

/-- `handlePriorityFrame`. -/
def handlePriorityFrame (streamID : ℕ) (f : PriorityParam) :
    Option (StreamsMap E × Option StreamsMapError) :=
  m.prioritise streamID
    (some { dependency := f.streamDep, weight := f.weight, exclusive := false })

/-- The part of `handleRequest` that sets the priority of a HEADERS frame, if the frame has one. -/
def handleRequestPriority (streamID : ℕ) (priority : Option PriorityParam) :
    Option (StreamsMap E × Option StreamsMapError) :=
  m.prioritise streamID (priority.map fun f =>
    { dependency := f.streamDep, weight := f.weight, exclusive := f.exclusive })

/-- The dependency tree after a handler. -/
def treeAfter (r : Option (StreamsMap E × Option StreamsMapError)) :
    Option (Option (ℕ → UInt8 × ℕ × Option ℕ × List ℕ)) :=
  r.map fun r => r.1.streamScheduler.map StreamScheduler.dependencyTree

end StreamsMap

/-! ## A stream with a dependant -/

open SchedulerRun (run)
open SchedulerOp

/-- Stream `dep + 4` depends on stream `dep` and becomes active; stream `dep + 8` is idle. -/
def activeDependant (dep : ℕ) : List SchedulerOp :=
  [addNode dep, addNode (dep + 4), addNode (dep + 8), maybeSetParent (dep + 4) dep false,
    setActive (dep + 4)]

namespace StreamScheduler

/-- Node 2 is the only one in the list of node 1, the stream `dep`; the stream `other` is idle. -/
structure Branching (s : StreamScheduler) (dep other : ℕ) : Prop where
  known : s.nodeMap dep = some 1
  otherKnown : s.nodeMap other = some 3
  root : s.parent 0 = none
  root_id : (s.node 0).id = 0
  below : s.parent 1 = some 0
  dependant : s.parent 2 = some 1
  children : (s.node 1).children = [2]
  otherBelow : s.parent 3 = some 0
  idle : ¬ s.attached 3

theorem addNode_of_data {s : StreamScheduler} {id : ℕ} (h1 : id ≠ 1) (h3 : id ≠ 3) :
    s.addNode id = { s.allocate (newNode id (some id) (some 0)) with
      nodeMap := update s.nodeMap id (some s.size) } := by
  unfold StreamScheduler.addNode
  rw [if_neg h1, if_neg h3]
  rfl

/-- `maybeSetParent` for two known streams moves the child. -/
theorem maybeSetParent_of_known {s : StreamScheduler} {childID parentID child newParent : ℕ}
    {exclusive : Bool} (hne : childID ≠ parentID) (h1 : childID ≠ 1) (h3 : childID ≠ 3)
    (hp1 : parentID ≠ 1) (hp3 : parentID ≠ 3) (hchild : s.nodeMap childID = some child)
    (hnew : s.nodeMap parentID = some newParent)
    (hmoves : ((s.node child).parent.map fun p => (s.node p).id) ≠ some parentID) :
    s.maybeSetParent childID parentID exclusive =
      (s.setParent child newParent exclusive).map (·, none) := by
  unfold StreamScheduler.maybeSetParent
  rw [if_neg hne, if_neg h1, if_neg h3, if_neg hp1, if_neg hp3, hchild]
  dsimp only
  rw [if_neg fun h => hmoves h.2, hnew, Option.map_eq_bind]
  rfl

/-- The streams `dep`, `dep + 4` and `dep + 8` are below the root, and idle. -/
structure Flat (s : StreamScheduler) (dep : ℕ) : Prop where
  size_pos : 0 < s.size
  root : s.node 0 = newNode 0 none none
  node1 : s.node 1 = newNode dep (some dep) (some 0)
  node2 : s.node 2 = newNode (dep + 4) (some (dep + 4)) (some 0)
  node3 : s.node 3 = newNode (dep + 8) (some (dep + 8)) (some 0)
  known1 : s.nodeMap dep = some 1
  known2 : s.nodeMap (dep + 4) = some 2
  known3 : s.nodeMap (dep + 8) = some 3

theorem flat_addNode {dep : ℕ} (h2 : 2 ≤ dep) (h3 : dep ≠ 3) :
    Flat (((newStreamScheduler.addNode dep).addNode (dep + 4)).addNode (dep + 8)) dep := by
  rw [addNode_of_data (by omega) h3, addNode_of_data (by omega) (by omega),
    addNode_of_data (by omega) (by omega)]
  refine ⟨Nat.succ_pos _, rfl, rfl, rfl, rfl, ?_, ?_, ?_⟩ <;>
    simp [newStreamScheduler, StreamScheduler.allocate]

/-- Stream `dep + 4` is in no list when it is moved below stream `dep`. -/
theorem Flat.maybeSetParent {s : StreamScheduler} {dep : ℕ} (h : Flat s dep) (h2 : 2 ≤ dep)
    (h3 : dep ≠ 3) :
    s.maybeSetParent (dep + 4) dep false =
      some ((s.setPointer 2 none).setPointer 2 (some 1), none) := by
  have hmoves : ((s.node 2).parent.map fun p => (s.node p).id) ≠ some dep := by
    rw [h.node2, newNode, Option.map_some, h.root]
    exact fun h0 => absurd (Option.some.inj h0) (by dsimp only [newNode]; omega)
  have hidle : ¬ s.attached 2 := by
    unfold attached
    rw [h.node2]
    simp [newNode]
  rw [maybeSetParent_of_known (by omega) (by omega) (by omega) (by omega) h3 h.known2 h.known1
    hmoves, setParent_of_idle hidle (congrArg Node.parent h.node2) (congrArg Node.parent h.node1)
    (congrArg Node.parent h.root)]
  rfl

/-- The first child of an idle node below the root puts that node into the list of the root. -/
theorem addWeight_of_idle {s : StreamScheduler} {p q c : ℕ} (hp : s.parent p = some q)
    (hq : s.parent q = none) (hstate : (s.node p).state ≠ .active)
    (hchildren : (s.node p).activeChildren = 0) (hsize : 0 < s.size) :
    s.addWeight p c = some ((s.appendChild p c).appendChild q p) := by
  have hfirst : ((s.appendChild p c).node p).parent = some q :=
    (congrFun (climbs_appendChild s p c).parent_eq p).trans hp
  have hsecond : (((s.appendChild p c).appendChild q p).node q).parent = none :=
    (congrFun ((climbs_appendChild (s.appendChild p c) q p).parent_eq.trans
      (climbs_appendChild s p c).parent_eq) q).trans hq
  have hcount : ((s.appendChild p c).node p).activeChildren = 1 := by
    unfold appendChild
    rw [modify_node_self, hchildren]
    exact add16_of_lt (by decide)
  have hstate' : ((s.appendChild p c).node p).state ≠ .active := by
    unfold appendChild
    rwa [modify_node_self]
  obtain ⟨fuel, hfuel⟩ := Nat.exists_eq_succ_of_ne_zero hsize.ne'
  unfold addWeight
  rw [hfuel, addWeightUp, hfirst]
  dsimp only
  rw [if_pos ⟨hstate', hcount⟩, addWeightUp, hsecond]

/-- Then it becomes active, and with it the way from stream `dep` to the root. -/
theorem Flat.setActive {s : StreamScheduler} {dep : ℕ} (h : Flat s dep) (h2 : 2 ≤ dep) :
    ∃ s', ((s.setPointer 2 none).setPointer 2 (some 1)).setActive (dep + 4) = some (s', none) ∧
      Branching s' dep (dep + 8) := by
  obtain ⟨u, hu⟩ : ∃ u, u = ((s.setPointer 2 none).setPointer 2 (some 1)).modify 2
      fun node => { node with state := .active } := ⟨_, rfl⟩
  have hother : ∀ x, x ≠ 2 → u.node x = s.node x := by
    intro x hx
    rw [hu, modify_node_of_ne hx, setPointer, modify_node_of_ne hx, setPointer,
      modify_node_of_ne hx]
  have hparent2 : (u.node 2).parent = some 1 := by
    rw [hu, modify_node_self, setPointer, modify_node_self]
  have hnode0 := (hother 0 (by decide)).trans h.root
  have hnode1 := (hother 1 (by decide)).trans h.node1
  have hnode3 := (hother 3 (by decide)).trans h.node3
  have hadd : u.addWeight 1 2 = some ((u.appendChild 1 2).appendChild 0 1) := by
    refine addWeight_of_idle (congrArg Node.parent hnode1) (congrArg Node.parent hnode0) ?_ ?_ ?_
    · rw [hnode1]
      simp [newNode]
    · rw [hnode1]
      rfl
    · rw [hu]
      exact h.size_pos
  refine ⟨{ (u.appendChild 1 2).appendChild 0 1 with
    openStreams := ((u.appendChild 1 2).appendChild 0 1).openStreams + 1 }, ?_, ?_⟩
  · unfold StreamScheduler.setActive
    have hknown : ((s.setPointer 2 none).setPointer 2 (some 1)).nodeMap (dep + 4) = some 2 :=
      h.known2
    rw [if_neg (by omega), hknown]
    dsimp only
    rw [← hu, hparent2, Option.bind_eq_bind, Option.bind_some, hadd]
    rfl
  · have hparent : ((u.appendChild 1 2).appendChild 0 1).parent = u.parent :=
      (climbs_appendChild _ 0 1).parent_eq.trans (climbs_appendChild u 1 2).parent_eq
    have hmap : u.nodeMap = s.nodeMap := by rw [hu]; rfl
    have hlists : ∀ x, x ≠ 0 → x ≠ 1 →
        ((u.appendChild 1 2).appendChild 0 1).node x = u.node x := fun x h0 h1 =>
      (modify_node_of_ne h0).trans (modify_node_of_ne h1)
    refine ⟨?_, ?_, ?_, ?_, ?_, ?_, ?_, ?_, ?_⟩
    · exact (congrFun hmap dep).trans h.known1
    · exact (congrFun hmap (dep + 8)).trans h.known3
    · exact (congrFun hparent 0).trans (congrArg Node.parent hnode0)
    · have hid : (((u.appendChild 1 2).appendChild 0 1).node 0).id = (u.node 0).id :=
        (congrArg Node.id ((climbs_appendChild _ 0 1).fixed_eq 0) : _).trans
          (congrArg Node.id ((climbs_appendChild u 1 2).fixed_eq 0) : _)
      exact hid.trans (congrArg Node.id hnode0)
    · exact (congrFun hparent 1).trans (congrArg Node.parent hnode1)
    · exact (congrFun hparent 2).trans hparent2
    · have hlast : ((u.appendChild 1 2).appendChild 0 1).node 1 = (u.appendChild 1 2).node 1 :=
        modify_node_of_ne (by decide)
      rw [hlast, appendChild, modify_node_self, hnode1]
      rfl
    · exact (congrFun hparent 3).trans (congrArg Node.parent hnode3)
    · unfold attached
      rw [hlists 3 (by decide) (by decide), hnode3]
      simp [newNode]

end StreamScheduler

open StreamScheduler (Branching)

theorem branching_activeDependant {dep : ℕ} (h2 : 2 ≤ dep) (h3 : dep ≠ 3) :
    ∃ s, run (activeDependant dep) = some s ∧ Branching s dep (dep + 8) := by
  have hflat := StreamScheduler.flat_addNode h2 h3
  have hmove := hflat.maybeSetParent h2 h3
  obtain ⟨s, hactive, hs⟩ := hflat.setActive h2
  refine ⟨s, ?_, hs⟩
  simp only [activeDependant, run, SchedulerRun.step, SchedulerOp.apply, List.foldl_cons,
    List.foldl_nil, Option.bind_some, hmove, hactive, Option.map_some]

/-! ## The effect of both frames -/

namespace StreamScheduler

variable {s s' : StreamScheduler} {dep id : ℕ}

/-- A dependency on a stream that is unknown changes no parent, exclusive or not. -/
theorem setStreamPriority_of_unknown (hdep : s.nodeMap (if dep = 3 then 0 else dep) = none)
    (weight : UInt8) (exclusive : Bool) :
    (s.setStreamPriority id ⟨dep, weight, exclusive⟩).map Prod.fst =
      (s.maybeSetWeight id weight).map Prod.fst := by
  unfold setStreamPriority
  cases hweight : s.maybeSetWeight id weight with
  | none => rfl
  | some r =>
    obtain ⟨t, err⟩ := r
    cases err with
    | some err => rfl
    | none =>
      -- the nodes that are known stay the same
      have hrule : RewireRule fun t => t.nodeMap = s.nodeMap := ⟨fun _ h => h⟩
      have hmap : t.nodeMap = s.nodeMap := hrule.maybeSetWeight rfl hweight
      rcases t.maybeSetParent_cases id dep exclusive with
        ⟨err, heq⟩ | ⟨child, newParent, -, -, hnew, -, -⟩
      · change (t.maybeSetParent id dep exclusive).map Prod.fst = _
        rw [heq]
        rfl
      · rw [hmap, hdep] at hnew
        cases hnew

/-- An idle stream gets another weight. -/
theorem Branching.maybeSetWeight (h : Branching s dep id) (h1 : id ≠ 1) (h3 : id ≠ 3)
    (weight : UInt8) : ∃ t, s.maybeSetWeight id weight = some (t, none) ∧ Branching t dep id := by
  unfold StreamScheduler.maybeSetWeight
  rw [if_neg (not_or.mpr ⟨h1, h3⟩), h.otherKnown]
  dsimp only
  split
  · exact ⟨s, rfl, h⟩
  · rw [if_neg h.idle]
    have hother : ∀ x, x ≠ 3 →
        (s.modify 3 fun node => { node with weight := weight }).node x = s.node x :=
      fun x hx => modify_node_of_ne hx
    have hself : (s.modify 3 fun node => { node with weight := weight }).node 3 =
        { s.node 3 with weight := weight } := modify_node_self _ _ _
    refine ⟨_, rfl, h.known, h.otherKnown, ?_, ?_, ?_, ?_, ?_, ?_, ?_⟩
    · exact (congrArg Node.parent (hother 0 (by decide))).trans h.root
    · exact (congrArg Node.id (hother 0 (by decide))).trans h.root_id
    · exact (congrArg Node.parent (hother 1 (by decide))).trans h.below
    · exact (congrArg Node.parent (hother 2 (by decide))).trans h.dependant
    · exact (congrArg Node.children (hother 1 (by decide))).trans h.children
    · exact (congrArg Node.parent hself).trans h.otherBelow
    · exact h.idle

/-- The dependant of stream `dep` stays there, or is handed over, as the flag says. -/
theorem Branching.setStreamPriority (h : Branching s dep id) (hne : id ≠ dep) (h1 : id ≠ 1)
    (h3 : id ≠ 3) (hd0 : dep ≠ 0) (hd1 : dep ≠ 1) (hd3 : dep ≠ 3) (weight : UInt8) :
    (∃ r ∈ s.setStreamPriority id ⟨dep, weight, false⟩, r.1.parent 2 = some 1) ∧
      ∀ r ∈ s.setStreamPriority id ⟨dep, weight, true⟩, r.1.parent 2 = some 3 := by
  obtain ⟨t, hweight, ht⟩ := h.maybeSetWeight h1 h3 weight
  have hmoves : ((t.node 3).parent.map fun p => (t.node p).id) ≠ some dep := by
    have hbelow : (t.node 3).parent = some 0 := ht.otherBelow
    rw [hbelow, Option.map_some, ht.root_id]
    exact fun heq => hd0 (Option.some.inj heq).symm
  have hcall : ∀ exclusive, s.setStreamPriority id ⟨dep, weight, exclusive⟩ =
      (t.setParent 3 1 exclusive).map (·, none) := by
    intro exclusive
    rw [← maybeSetParent_of_known hne h1 h3 hd1 hd3 ht.otherKnown ht.known hmoves]
    unfold StreamScheduler.setStreamPriority
    rw [hweight]
    rfl
  constructor
  · rw [hcall, setParent_of_idle ht.idle ht.otherBelow ht.below ht.root]
    refine ⟨_, rfl, ?_⟩
    have hother : ∀ (u : StreamScheduler) (ptr : Option ℕ), (u.setPointer 3 ptr).parent 2 =
        u.parent 2 := fun u ptr => congrArg Node.parent (modify_node_of_ne (by decide))
    exact (hother _ _).trans ((hother _ _).trans ht.dependant)
  · intro r hr
    rw [hcall] at hr
    obtain ⟨t', hset, rfl⟩ := Option.map_eq_some_iff.mp hr
    exact parent_setParent_exclusive ht.idle ht.otherBelow ht.below ht.root ht.children
      (by decide) (by decide) hset

end StreamScheduler

open StreamsMap (treeAfter)

/-- The handlers do not touch an open stream; what they do is up to the scheduler. -/
theorem StreamsMap.treeAfter_prioritise {E : Type} {m : StreamsMap E} {s : StreamScheduler} {id : ℕ}
    (hid : id ∈ m.streams) (hs : m.streamScheduler = some s) (priority : Priority) :
    treeAfter (m.prioritise id (some priority)) =
      ((s.setStreamPriority id priority).map Prod.fst).map fun t => some t.dependencyTree := by
  have hget : m.getOrOpenStream id = some (m, .ok (some id)) := if_pos hid
  have hset : setStreamPriority (some s) id priority =
      (s.setStreamPriority id priority).map fun r => (some r.1, r.2) := rfl
  unfold treeAfter prioritise
  rw [hget, Option.bind_eq_bind, Option.bind_some]
  dsimp only
  rw [hs, hset]
  cases s.setStreamPriority id priority with
  | none => rfl
  | some r => rfl

/-- **For which parameters a PRIORITY frame has the effect of a HEADERS frame, whatever the state of
the scheduler:** those without the exclusive flag, and those that depend on the root or on the
crypto stream. -/
theorem priorityFrame_eq_headers_iff (E : Type) (f : PriorityParam) :
    (∀ (m : StreamsMap E) (ops : List SchedulerOp) (s : StreamScheduler), addNode 0 ∉ ops →
      run ops = some s → m.streamScheduler = some s → ∀ id ∈ m.streams, id ≠ 1 → id ≠ 3 →
        treeAfter (m.handlePriorityFrame id f) =
          treeAfter (m.handleRequestPriority id (some f))) ↔
      f.exclusive = false ∨ f.streamDep = 0 ∨ f.streamDep = 1 ∨ f.streamDep = 3 := by
  obtain ⟨dep, exclusive, weight⟩ := f
  unfold StreamsMap.handlePriorityFrame StreamsMap.handleRequestPriority
  dsimp only [Option.map_some]
  constructor
  · intro h
    by_contra hnot
    obtain ⟨hex, hd0, hd1, hd3⟩ : exclusive = true ∧ dep ≠ 0 ∧ dep ≠ 1 ∧ dep ≠ 3 := by
      simpa only [not_or, Bool.not_eq_false] using hnot
    obtain ⟨s, hs, hbranching⟩ := branching_activeDependant (by omega : 2 ≤ dep) hd3
    obtain ⟨⟨r, hr, hstays⟩, hhanded⟩ := hbranching.setStreamPriority (by omega) (by omega)
      (by omega) hd0 hd1 hd3 weight
    -- a map in which stream `dep + 8` is open
    have hopen : dep + 8 ∈ ({ newStreamsMap E .server ⟨0, 0, 0, 0, 0, 0, 0, 0⟩ (some s) with
      streams := {dep + 8} } : StreamsMap E).streams := Finset.mem_singleton_self _
    have hops : addNode 0 ∉ activeDependant dep := by
      simp only [activeDependant, List.mem_cons, List.not_mem_nil, addNode.injEq, reduceCtorEq,
        or_false]
      omega
    have heq := h _ _ s hops hs rfl _ hopen (by omega) (by omega)
    rw [StreamsMap.treeAfter_prioritise hopen rfl, StreamsMap.treeAfter_prioritise hopen rfl, hex,
      Option.mem_def.mp hr] at heq
    obtain ⟨t, ht, htree⟩ := Option.map_eq_some_iff.mp heq.symm
    obtain ⟨r', hr', rfl⟩ := Option.map_eq_some_iff.mp ht
    have hparent : r'.1.parent 2 = r.1.parent 2 :=
      congrArg (fun node => node.2.2.1) (congrFun (Option.some.inj htree) 2)
    rw [hhanded r' hr', hstays] at hparent
    cases hparent
  · intro hcond m ops s hops hs hm id hid _ _
    rw [StreamsMap.treeAfter_prioritise hid hm, StreamsMap.treeAfter_prioritise hid hm]
    rcases hcond with rfl | hdep
    · rfl
    · have hrooted := SchedulerRun.rooted hops hs
      have hunknown : s.nodeMap (if dep = 3 then 0 else dep) = none := by
        rcases hdep with rfl | rfl | rfl
        · exact hrooted.unnamed
        · exact hrooted.crypto
        · exact hrooted.unnamed
      rw [StreamScheduler.setStreamPriority_of_unknown hunknown,
        StreamScheduler.setStreamPriority_of_unknown hunknown]

/-- **Stream 13 shall become the only child of stream 5. A HEADERS frame hands stream 9 over to it, a
PRIORITY frame leaves stream 9 below stream 5.** -/
theorem exclusivePriority_differs :
    ∃ s, run (activeDependant 5) = some s ∧
      ∃ m : StreamsMap Unit, m.streamScheduler = some s ∧ 13 ∈ m.streams ∧
        (∃ r ∈ m.handlePriorityFrame 13 ⟨5, true, 15⟩, ∃ t ∈ r.1.streamScheduler,
          (t.dependencyTree 2).2.2.1 = some 1) ∧
        ∃ r ∈ m.handleRequestPriority 13 (some ⟨5, true, 15⟩), ∃ t ∈ r.1.streamScheduler,
          (t.dependencyTree 2).2.2.1 = some 3 := by
  obtain ⟨s, hs, hboth⟩ : ∃ s ∈ run (activeDependant 5),
      let m : StreamsMap Unit := { newStreamsMap Unit .server ⟨0, 0, 0, 0, 0, 0, 0, 0⟩ (some s) with
        streams := {13} }
      (∃ r ∈ m.handlePriorityFrame 13 ⟨5, true, 15⟩, ∃ t ∈ r.1.streamScheduler,
        (t.dependencyTree 2).2.2.1 = some 1) ∧
      ∃ r ∈ m.handleRequestPriority 13 (some ⟨5, true, 15⟩), ∃ t ∈ r.1.streamScheduler,
        (t.dependencyTree 2).2.2.1 = some 3 := by
    decide +kernel
  exact ⟨s, hs, _, rfl, Finset.mem_singleton_self 13, hboth⟩

end MultipathQuic
