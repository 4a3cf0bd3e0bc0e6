import MultipathQuic.Scheduler.StreamScheduler

/-!
# Updates of single nodes

Apart from `addNode`, the calls on a stream scheduler only change single nodes and the number of open
streams. What such updates preserve holds after every call, whatever has become of the tree.

## Main definitions

* `LinkRule`, `RewireRule`, `ScheduleRule`, `UpdateRule`: what such updates preserve

## Main results

* `traverse_cases`: all that `traverse` can do
* `ScheduleRule.traverse_returns`: the rule along a traversal
-/

namespace MultipathQuic

/-- The fields of a node that changes of the tree leave alone. -/
def Node.own (node : Node) : Node :=
  { node with
    weight := 0, childrensWeight := 0, activeChildren := 0, quantum := 0, parent := none
    children := [], nextChild := 0 }

/-- The fields of a node, the counters of the round robin apart. -/
def Node.uncounted (node : Node) : Node := { node with quantum := 0, nextChild := 0 }

@[simp] theorem Node.uncounted_setQuantum (node : Node) (q : ℕ) :
    { node with quantum := q }.uncounted = node.uncounted := rfl

theorem Node.own_eq_of_uncounted_eq {a b : Node} (h : a.uncounted = b.uncounted) : a.own = b.own :=
  (congrArg Node.own h : _)

namespace StreamScheduler

/-- What is preserved by changes of weights and of lists, and when a node gets a parent in `B`. -/
structure LinkRule (B : ℕ → Prop) (P : StreamScheduler → Prop) : Prop where
  modify : ∀ {s : StreamScheduler} {n : ℕ} {f : Node → Node},
    (f (s.node n)).own = (s.node n).own →
      (∀ p, (f (s.node n)).parent = some p → (s.node n).parent = some p ∨ B p) →
      P s → P (s.modify n f)

/-- What is preserved by changes of weights, of lists and of parents. -/
structure RewireRule (P : StreamScheduler → Prop) : Prop where
  modify : ∀ {s : StreamScheduler} {n : ℕ} {f : Node → Node},
    (f (s.node n)).own = (s.node n).own → P s → P (s.modify n f)

/-- What is preserved by what `traverse` does to nodes of `V`: it goes from a node to its children,
gives it a new quantum, uses it up, takes children out of lists and closes finished streams. -/
structure ScheduleRule (view : ℕ → StreamView) (V : ℕ → Prop) (P : StreamScheduler → Prop) :
    Prop where
  child : ∀ {s : StreamScheduler} {n c : ℕ}, P s → V n → c ∈ (s.node n).children → V c
  refresh : ∀ {s : StreamScheduler} {n : ℕ}, P s → V n → P (s.refresh n)
  count : ∀ {s : StreamScheduler} {n : ℕ} {f : Node → Node},
    (f (s.node n)).uncounted = (s.node n).uncounted → P s → P (s.modify n f)
  drop : ∀ {s : StreamScheduler} {n : ℕ} (c : ℕ),
    (s.node n).children ≠ [] → P s → P (s.dropChild n c)
  close : ∀ {s : StreamScheduler} {n : ℕ}, P s → V n → s.finished view n →
    P ({ s with openStreams := s.openStreams - 1 }.modify n fun node =>
      { node with state := .closed, stream := none })

/-- What is preserved when a node changes that keeps its stream or loses it. -/
structure UpdateRule (P : StreamScheduler → Prop) : Prop where
  modify : ∀ {s : StreamScheduler} {n : ℕ} {f : Node → Node},
    (f (s.node n)).stream = (s.node n).stream ∨ (f (s.node n)).stream = none →
      P s → P (s.modify n f)
  openStreams : ∀ {s : StreamScheduler} (k : ℤ), P s → P { s with openStreams := k }

section

variable {P : StreamScheduler → Prop} {s s' : StreamScheduler} {n c fuel id : ℕ}

/-- All that a call of `setActive` can do: it changes nothing, or the node of a data stream becomes
active, is added to its parent and counted. -/
theorem setActive_cases {err : Option SchedulerError} (h : s.setActive id = some (s', err)) :
    s' = s ∨ ∃ n p t, id ≠ 1 ∧ id ≠ 3 ∧ s.nodeMap id = some n ∧
      (s.modify n fun node => { node with state := .active }).addWeight p n = some t ∧
      s' = { t with openStreams := t.openStreams + 1 } := by
  unfold StreamScheduler.setActive at h
  split at h
  · cases h
    exact Or.inl rfl
  · next hid =>
    obtain ⟨h1, h3⟩ := not_or.mp hid
    split at h
    · cases h
      exact Or.inl rfl
    · next n hn =>
      obtain ⟨p, -, h⟩ := Option.bind_eq_some_iff.mp h
      obtain ⟨t, hadd, h⟩ := Option.bind_eq_some_iff.mp h
      cases h
      exact Or.inr ⟨n, p, t, h1, h3, hn, hadd, rfl⟩

/-- What the addition of a child preserves, `addWeight` preserves. -/
theorem addWeightUp_induction
    (happend : ∀ {s : StreamScheduler} (n c : ℕ), P s → P (s.appendChild n c))
    (hs : P s) (h : addWeightUp fuel s n c = some s') : P s' := by
  induction fuel generalizing s n c with
  | zero => cases h
  | succ fuel ih =>
    have happended := happend n c hs
    rw [StreamScheduler.addWeightUp] at h
    split at h
    · cases h
      exact happended
    · split at h
      · exact ih happended h
      · cases h
        exact happended

/-- What the removal of a child preserves, `removeWeight` preserves. -/
theorem removeWeightUp_induction
    (hdrop : ∀ {s : StreamScheduler} {n : ℕ} (c : ℕ), (s.node n).children ≠ [] → P s →
      P (s.dropChild n c))
    (hs : P s) (h : removeWeightUp fuel s n c = some s') : P s' := by
  induction fuel generalizing s n c with
  | zero => cases h
  | succ fuel ih =>
    rw [StreamScheduler.removeWeightUp] at h
    split at h
    · cases h
    · next hne =>
      have hdropped := hdrop c hne hs
      dsimp only at h
      split at h
      · cases h
      split at h
      · cases h
        exact hdropped
      · split at h
        · exact ih hdropped h
        · cases h
          exact hdropped

theorem advance_induction
    (hcount : ∀ {s : StreamScheduler} {n : ℕ} {f : Node → Node},
      (f (s.node n)).uncounted = (s.node n).uncounted → P s → P (s.modify n f))
    (hs : P s) (h : s.advance n = some s') : P s' := by
  unfold StreamScheduler.advance at h
  dsimp only at h
  split at h
  · cases h
  · cases h
    exact hcount rfl hs

end

namespace LinkRule

variable {B : ℕ → Prop} {P : StreamScheduler → Prop} (hP : LinkRule B P) {s s' : StreamScheduler}
  {n p c child newParent fuel : ℕ}
include hP

/-- A change that leaves the parent alone. -/
theorem keep {f : Node → Node} (hown : (f (s.node n)).own = (s.node n).own)
    (hparent : (f (s.node n)).parent = (s.node n).parent) (hs : P s) : P (s.modify n f) :=
  hP.modify hown (fun _ hp => .inl (hparent ▸ hp)) hs

/-- A change of the parent. -/
theorem link {o : Option ℕ} (ho : ∀ p, o = some p → B p) (hs : P s) :
    P (s.modify n fun node => { node with parent := o }) :=
  hP.modify rfl (fun p hp => .inr (ho p hp)) hs

/-! ## Weights -/

theorem addWeightUp (hs : P s) (h : addWeightUp fuel s n c = some s') : P s' :=
  addWeightUp_induction (fun _ _ hs => hP.keep rfl rfl hs) hs h

theorem removeWeightUp (hs : P s) (h : removeWeightUp fuel s n c = some s') : P s' := by
  refine removeWeightUp_induction (fun c _ hs => ?_) hs h
  unfold dropChild
  exact hP.keep (by simp only [Node.own]) rfl hs

theorem advance (hs : P s) (h : s.advance n = some s') : P s' :=
  advance_induction
    (fun hf => hP.keep (Node.own_eq_of_uncounted_eq hf) (congrArg Node.parent hf : _)) hs h

theorem skip (hs : P s) (h : s.skip n = some s') : P s' := by
  unfold StreamScheduler.skip at h
  generalize s.size + 1 = fuel at h
  induction fuel generalizing s n with
  | zero => cases h
  | succ fuel ih =>
    have hmodify : P (s.modify n fun node => { node with quantum := 0 }) := hP.keep rfl rfl hs
    rw [skipUp] at h
    split at h
    · cases h
      exact hmodify
    · obtain ⟨s₁, hadvance, h⟩ := Option.bind_eq_some_iff.mp h
      exact ih (hP.advance hmodify hadvance) h

/-! ## Priorities -/

theorem maybeSetWeight {id : ℕ} {weight : UInt8} {err : Option SchedulerError} (hs : P s)
    (h : s.maybeSetWeight id weight = some (s', err)) : P s' := by
  unfold StreamScheduler.maybeSetWeight at h
  iterate 3
    split at h
    · cases h
      exact hs
  split at h
  · obtain ⟨p, -, h⟩ := Option.bind_eq_some_iff.mp h
    cases h
    refine hP.keep ?_ ?_ (hP.keep ?_ ?_ hs) <;> exact rfl
  · cases h
    exact hP.keep rfl rfl hs

theorem moveNewParent {oldParent : Option ℕ} (hold : ∀ o, oldParent = some o → B o) (hs : P s)
    (h : s.moveNewParent newParent oldParent = some s') : P s' := by
  have hpointer : ∀ {s₁}, P s₁ →
      P (s₁.modify newParent fun node => { node with parent := oldParent }) := by
    intro s₁ hs₁
    exact hP.link hold hs₁
  unfold StreamScheduler.moveNewParent at h
  split at h
  · obtain ⟨p, -, h⟩ := Option.bind_eq_some_iff.mp h
    obtain ⟨s₁, hremove, h⟩ := Option.bind_eq_some_iff.mp h
    have hs₁ := hP.removeWeightUp hs hremove
    cases oldParent with
    | none =>
      cases h
      exact hpointer hs₁
    | some o =>
      obtain ⟨s₂, hadd, h⟩ := Option.bind_eq_some_iff.mp h
      cases h
      exact hpointer (hP.addWeightUp hs₁ hadd)
  · cases h
    exact hpointer hs

theorem moveIfDependent {oldParent : Option ℕ} (hold : ∀ o, oldParent = some o → B o) (hs : P s)
    (h : moveIfDependent child newParent oldParent fuel s n = some s') : P s' := by
  induction fuel generalizing s n with
  | zero => cases h
  | succ fuel ih =>
    rw [StreamScheduler.moveIfDependent] at h
    split at h
    · cases h
      exact hs
    · dsimp only at h
      split at h
      · obtain ⟨s₁, hmove, h⟩ := Option.bind_eq_some_iff.mp h
        obtain ⟨next, -, h⟩ := Option.bind_eq_some_iff.mp h
        exact ih (hP.moveNewParent hold hs hmove) h
      · rw [Option.bind_eq_bind, Option.bind_some] at h
        obtain ⟨next, -, h⟩ := Option.bind_eq_some_iff.mp h
        exact ih hs h

theorem detachChild (hs : P s) (h : s.detachChild child = some s') : P s' := by
  unfold StreamScheduler.detachChild at h
  split at h
  · cases h
    exact hs
  · split at h
    · obtain ⟨s₁, hremove, h⟩ := Option.bind_eq_some_iff.mp h
      cases h
      exact hP.link (fun _ hp => by cases hp) (hP.removeWeightUp hs hremove)
    · cases h
      exact hP.link (fun _ hp => by cases hp) hs

theorem adopt (hchild : B child) (hs : P s) (h : s.adopt child newParent c = some s') : P s' := by
  have hpointer : ∀ p, some child = some p → B p := fun p hp => Option.some.inj hp ▸ hchild
  unfold StreamScheduler.adopt at h
  split at h
  · obtain ⟨s₁, hadd, h⟩ := Option.bind_eq_some_iff.mp h
    obtain ⟨s₂, hremove, h⟩ := Option.bind_eq_some_iff.mp h
    cases h
    exact hP.link hpointer (hP.removeWeightUp (hP.addWeightUp hs hadd) hremove)
  · cases h
    exact hP.link hpointer hs

theorem adoptFrom (hchild : B child) {rounds i : ℕ} {array : List ℕ} (hs : P s)
    (h : adoptFrom child newParent rounds i array s = some s') : P s' := by
  induction rounds generalizing s i array with
  | zero =>
    cases h
    exact hs
  | succ rounds ih =>
    obtain ⟨c, -, h⟩ := Option.bind_eq_some_iff.mp h
    split at h
    · obtain ⟨s₁, hadopt, h⟩ := Option.bind_eq_some_iff.mp h
      exact ih (hP.adopt hchild hs hadopt) h
    · exact ih hs h

theorem attachChild (hnew : B newParent) (hs : P s)
    (h : s.attachChild child newParent = some s') : P s' := by
  unfold StreamScheduler.attachChild at h
  have hmodify : P (s.modify child fun node => { node with parent := some newParent }) :=
    hP.link (fun p hp => Option.some.inj hp ▸ hnew) hs
  dsimp only at h
  split at h
  · exact hP.addWeightUp hmodify h
  · cases h
    exact hmodify

theorem setParent {exclusive : Bool} (hchild : B child) (hnew : B newParent)
    (hold : ∀ o, (s.node child).parent = some o → B o) (hs : P s)
    (h : s.setParent child newParent exclusive = some s') : P s' := by
  obtain ⟨start, -, h⟩ := Option.bind_eq_some_iff.mp h
  obtain ⟨s₁, hmove, h⟩ := Option.bind_eq_some_iff.mp h
  obtain ⟨s₂, hdetach, h⟩ := Option.bind_eq_some_iff.mp h
  have hs₂ : P s₂ := hP.detachChild (hP.moveIfDependent hold hs hmove) hdetach
  cases exclusive with
  | true =>
    obtain ⟨s₃, hadopt, h⟩ := Option.bind_eq_some_iff.mp h
    exact hP.attachChild hnew (hP.adoptFrom hchild hs₂ hadopt) h
  | false => exact hP.attachChild hnew hs₂ h

theorem maybeSetParent {childID parentID : ℕ} {exclusive : Bool} {err : Option SchedulerError}
    (hknown : ∀ id n, s.nodeMap id = some n → B n)
    (hparent : ∀ n p, (s.node n).parent = some p → B p) (hs : P s)
    (h : s.maybeSetParent childID parentID exclusive = some (s', err)) : P s' := by
  unfold StreamScheduler.maybeSetParent at h
  -- the refusals change nothing
  iterate 4
    split at h
    · cases h
      exact hs
  dsimp only at h
  generalize (if parentID = 3 then 0 else parentID) = parentID at h
  split at h
  · cases h
    exact hs
  · next child hchild =>
    iterate 2
      split at h
      · cases h
        exact hs
    · next newParent hnew =>
      obtain ⟨s₁, hset, h⟩ := Option.bind_eq_some_iff.mp h
      cases h
      exact hP.setParent (hknown _ _ hchild) (hknown _ _ hnew) (hparent child) hs hset

end LinkRule

namespace RewireRule

variable {P : StreamScheduler → Prop} (hP : RewireRule P) {s s' : StreamScheduler} {n c fuel : ℕ}
include hP

theorem linkRule : LinkRule (fun _ => True) P := ⟨fun hown _ hs => hP.modify hown hs⟩

theorem addWeightUp (hs : P s) (h : addWeightUp fuel s n c = some s') : P s' :=
  hP.linkRule.addWeightUp hs h

theorem skip (hs : P s) (h : s.skip n = some s') : P s' := hP.linkRule.skip hs h

theorem maybeSetWeight {id : ℕ} {weight : UInt8} {err : Option SchedulerError} (hs : P s)
    (h : s.maybeSetWeight id weight = some (s', err)) : P s' := hP.linkRule.maybeSetWeight hs h

theorem maybeSetParent {childID parentID : ℕ} {exclusive : Bool} {err : Option SchedulerError}
    (hs : P s) (h : s.maybeSetParent childID parentID exclusive = some (s', err)) : P s' :=
  hP.linkRule.maybeSetParent (fun _ _ _ => trivial) (fun _ _ _ => trivial) hs h

end RewireRule

/-! ## Scheduling -/

/-- All that a call of `traverse` can do: the stream is finished and its node is closed; or the node is
returned, or what the loop over its children returns, or nothing, and the parent may turn. -/
theorem traverse_cases {view : ℕ → StreamView} {s s' : StreamScheduler} {n fuel : ℕ}
    {strm : Option ℕ} (h : traverse view (fuel + 1) s n = some (strm, s')) :
    ((s.refresh n).finished view n ∧ strm = none ∧
      { s.refresh n with openStreams := (s.refresh n).openStreams - 1 }.deactivateNode n = some s') ∨
    (¬ (s.refresh n).finished view n ∧ ∃ s₁, s₁.turn strm n = some s' ∧
      ((strm = some n ∧ ((s.refresh n).node n).id = 0 ∧ (s.refresh n).hasData view n ∧
          (s.refresh n).hasWindow view n ∧ s₁ = s.refresh n) ∨
        (strm = some n ∧ ((s.refresh n).node n).id ≠ 0 ∧ ((s.refresh n).node n).state = .active ∧
          (s.refresh n).hasWindow view n ∧ s₁ = (s.refresh n).spend n) ∨
        (¬ (((s.refresh n).node n).id = 0 ∧ (s.refresh n).hasData view n ∧
            (s.refresh n).hasWindow view n) ∧
          ¬ (((s.refresh n).node n).id ≠ 0 ∧ ((s.refresh n).node n).state = .active ∧
            ((s.refresh n).node n).quantum > 0 ∧ (s.refresh n).hasWindow view n) ∧
          visitChildren (traverse view fuel) n ((s.refresh n).node n).children.length 0
            (s.refresh n) = some (strm, s₁)) ∨
        (strm = none ∧ s₁ = s.refresh n))) := by
  rw [traverse] at h
  split at h
  · next hfin =>
    obtain ⟨s₁, hclose, h⟩ := Option.bind_eq_some_iff.mp h
    cases h
    exact Or.inl ⟨hfin, rfl, hclose⟩
  next hfin =>
  -- each branch ends with the same turn
  have hend : ∀ {r : Option (Option ℕ × StreamScheduler)},
      (r.bind fun p => (p.2.turn p.1 n).bind fun s => some (p.1, s)) = some (strm, s') →
        ∃ s₁, s₁.turn strm n = some s' ∧ r = some (strm, s₁) := by
    intro r hbind
    obtain ⟨⟨strm, s₁⟩, hr, hbind⟩ := Option.bind_eq_some_iff.mp hbind
    obtain ⟨s₂, hturn, hbind⟩ := Option.bind_eq_some_iff.mp hbind
    cases hbind
    exact ⟨s₁, hturn, hr⟩
  refine Or.inr ⟨hfin, ?_⟩
  split at h
  · next hheader =>
    obtain ⟨s₁, hturn, hr⟩ := hend h
    cases hr
    exact ⟨_, hturn, Or.inl ⟨rfl, hheader.1, hheader.2.1, hheader.2.2, rfl⟩⟩
  next hheader =>
  split at h
  · next hactive =>
    obtain ⟨s₁, hturn, hr⟩ := hend h
    cases hr
    exact ⟨_, hturn, Or.inr (Or.inl ⟨rfl, hactive.1, hactive.2.1, hactive.2.2.2, rfl⟩)⟩
  next hactive =>
  split at h
  · obtain ⟨s₁, hturn, hr⟩ := hend h
    exact ⟨s₁, hturn, Or.inr (Or.inr (Or.inl ⟨hheader, hactive, hr⟩))⟩
  · obtain ⟨s₁, hturn, hr⟩ := hend h
    cases hr
    exact ⟨_, hturn, Or.inr (Or.inr (Or.inr ⟨rfl, rfl⟩))⟩

namespace ScheduleRule

variable {view : ℕ → StreamView} {V : ℕ → Prop} {P : StreamScheduler → Prop}
  (hP : ScheduleRule view V P) {s s' : StreamScheduler} {n p c fuel : ℕ}
include hP

theorem deactivateNode (hs : P s) (hV : V n) (hfin : s.finished view n)
    (h : { s with openStreams := s.openStreams - 1 }.deactivateNode n = some s') : P s' := by
  have hclosed := hP.close hs hV hfin
  unfold StreamScheduler.deactivateNode at h
  dsimp only at h
  split at h
  · cases h
    exact hclosed
  · split at h
    · exact removeWeightUp_induction hP.drop hclosed h
    · cases h
      exact hclosed

theorem spend (hs : P s) : P (s.spend n) := hP.count (Node.uncounted_setQuantum _ _) hs

theorem turn {strm : Option ℕ} (hs : P s) (h : s.turn strm n = some s') : P s' := by
  unfold StreamScheduler.turn at h
  split at h
  · cases h
    exact hs
  · split at h
    · exact advance_induction hP.count hs h
    · cases h
      exact hs

/-- The nodes that the children return are nodes of `V`. -/
theorem visitChildren {visit : StreamScheduler → ℕ → Option (Option ℕ × StreamScheduler)}
    (hvisit : ∀ {s c strm s'}, P s → V c → visit s c = some (strm, s') → P s' ∧ ∀ m ∈ strm, V m)
    {rounds i : ℕ} {strm : Option ℕ} (hs : P s) (hV : V n)
    (h : visitChildren visit n rounds i s = some (strm, s')) : P s' ∧ ∀ m ∈ strm, V m := by
  have hnone : ∀ m ∈ (none : Option ℕ), V m := fun _ hm => by cases hm
  induction rounds generalizing s i with
  | zero =>
    rw [StreamScheduler.visitChildren] at h
    split at h
    · cases h
    · cases h
      exact ⟨hs, hnone⟩
  | succ rounds ih =>
    rw [StreamScheduler.visitChildren] at h
    split at h
    · obtain ⟨c, hc, h⟩ := Option.bind_eq_some_iff.mp h
      obtain ⟨⟨strm₁, s₁⟩, hchild, h⟩ := Option.bind_eq_some_iff.mp h
      obtain ⟨hs₁, hm⟩ := hvisit hs (hP.child hs hV (List.mem_of_getElem? hc)) hchild
      dsimp only at h
      split at h
      · cases h
        exact ⟨hP.spend hs₁, hm⟩
      · exact ih hs₁ h
    · cases h
      exact ⟨hs, hnone⟩

/-- What `traverse` returns is a node of `V`. -/
theorem traverse_returns {strm : Option ℕ} (hs : P s) (hV : V n)
    (h : StreamScheduler.traverse view fuel s n = some (strm, s')) :
    P s' ∧ ∀ m ∈ strm, V m := by
  induction fuel generalizing s n strm s' with
  | zero => cases h
  | succ fuel ih =>
    have hrefresh : P (s.refresh n) := hP.refresh hs hV
    have hself : ∀ m ∈ some n, V m := fun m hm => Option.some.inj hm ▸ hV
    have hnone : ∀ m ∈ (none : Option ℕ), V m := fun _ hm => by cases hm
    rcases traverse_cases h with ⟨hfin, rfl, hclose⟩ | ⟨-, s₁, hturn, hcases⟩
    · exact ⟨hP.deactivateNode hrefresh hV hfin hclose, hnone⟩
    · refine And.imp_left (fun hs₁ => hP.turn hs₁ hturn) ?_
      rcases hcases with ⟨rfl, -, -, -, rfl⟩ | ⟨rfl, -, -, -, rfl⟩ | ⟨-, -, hvisit⟩ |
        ⟨rfl, rfl⟩
      · exact ⟨hrefresh, hself⟩
      · exact ⟨hP.spend hrefresh, hself⟩
      · exact hP.visitChildren ih hrefresh hV hvisit
      · exact ⟨hrefresh, hnone⟩

theorem traverse {strm : Option ℕ} (hs : P s) (hV : V n)
    (h : traverse view fuel s n = some (strm, s')) : P s' :=
  (hP.traverse_returns hs hV h).1

theorem returns {m : ℕ} (hs : P s) (hV : V n)
    (h : StreamScheduler.traverse view fuel s n = some (some m, s')) : V m :=
  (hP.traverse_returns hs hV h).2 m rfl

end ScheduleRule

/-! ## Streams that stay -/

namespace UpdateRule

variable {P : StreamScheduler → Prop} (hP : UpdateRule P) {s s' : StreamScheduler}
include hP

theorem rewireRule : RewireRule P where
  modify := fun hf => hP.modify (.inl (congrArg Node.stream hf : _))

theorem scheduleRule (view : ℕ → StreamView) : ScheduleRule view (fun _ => True) P where
  child := fun _ _ _ => trivial
  refresh := by
    intro s n hs _
    refine hP.modify (.inl ?_) hs
    dsimp only
    split_ifs <;> split <;> rfl
  count := fun hf => hP.modify (.inl (congrArg Node.stream hf : _))
  drop := by
    intro s n c _ hs
    unfold dropChild
    exact hP.modify (.inl rfl) hs
  close := fun hs _ _ => hP.modify (.inr rfl) (hP.openStreams _ hs)

theorem setActive {id : ℕ} {err : Option SchedulerError} (hs : P s)
    (h : s.setActive id = some (s', err)) : P s' := by
  obtain rfl | ⟨n, p, t, -, -, -, hadd, rfl⟩ := setActive_cases h
  · exact hs
  · have hmodify : P (s.modify n fun node => { node with state := .active }) :=
      hP.modify (.inl rfl) hs
    exact hP.openStreams _ (hP.rewireRule.addWeightUp hmodify hadd)

end UpdateRule

end StreamScheduler

end MultipathQuic
