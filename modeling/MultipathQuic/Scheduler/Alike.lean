import Mathlib.Data.List.Rotate
import MultipathQuic.Scheduler.Retirement
import MultipathQuic.Scheduler.RoundRobin

/-!
# Schedulers that return the same streams

A quantum matters only when `traverse` decides whether the parent turns to its next child, and
turning makes no difference for a parent with a single child. So two schedulers whose trees agree,
and whose quanta agree wherever a node has siblings, return the same streams for ever, whatever the
streams do meanwhile.

## Main definitions

* `Alike Q s t`: the schedulers agree where it matters
* `Undisputed`: no turn is at stake

## Main results

* `Alike.schedules`: alike schedulers return the same streams
* `Tree.alike_schedule`: an undisputed call leaves a scheduler that is like the one before
-/

namespace MultipathQuic

open Function Forest

/-- The fields of a node that decide where `traverse` goes, the quantum apart. -/
def Node.layout (node : Node) : Node :=
  { node with
    quantum := 0, lowestQuantum := 0, numerator := 0, denominator := 0, waiting := 0 }

@[simp] theorem Node.layout_setQuantum (node : Node) (q : ℕ) :
    { node with quantum := q }.layout = node.layout := rfl

namespace StreamScheduler

variable {view : ℕ → StreamView} {Q Q' : ℕ → Prop} {s s' t t' u : StreamScheduler}
  {n p c x r fuel : ℕ}

/-- The node has siblings in the list of its parent. -/
def contested (s : StreamScheduler) (c : ℕ) : Prop :=
  ∃ p, s.parent c = some p ∧ 1 < (s.node p).children.length

/-- The trees agree, and so do the turns that are due to nodes with siblings; for the nodes of `Q`
the quanta agree. -/
structure Alike (Q : ℕ → Prop) (s t : StreamScheduler) : Prop where
  size_eq : t.size = s.size
  nodeMap_eq : t.nodeMap = s.nodeMap
  layout_eq : ∀ x, (t.node x).layout = (s.node x).layout
  narrow : ∀ x, (s.node x).children.length ≤ 1 → (s.node x).nextChild = 0
  due_eq : ∀ x, s.contested x → t.due x = s.due x
  quantum_eq : ∀ x, Q x → s.contested x → (t.node x).quantum = (s.node x).quantum

/-- Both calls return the same stream and leave schedulers that are alike. -/
def SameResult (Q : ℕ → Prop) (a b : Option ℕ × StreamScheduler) : Prop :=
  a.1 = b.1 ∧ Alike Q a.2 b.2

namespace Alike

theorem mono (h : Alike Q s t) (hQ : ∀ x, Q' x → Q x) : Alike Q' s t :=
  ⟨h.size_eq, h.nodeMap_eq, h.layout_eq, h.narrow, h.due_eq, fun x hx => h.quantum_eq x (hQ x hx)⟩

theorem parent_eq (h : Alike Q s t) : t.parent = s.parent :=
  funext fun x => (congrArg Node.parent (h.layout_eq x) : _)

theorem children_eq (h : Alike Q s t) (x : ℕ) : (t.node x).children = (s.node x).children :=
  (congrArg Node.children (h.layout_eq x) : _)

theorem nextChild_eq (h : Alike Q s t) (x : ℕ) : (t.node x).nextChild = (s.node x).nextChild :=
  (congrArg Node.nextChild (h.layout_eq x) : _)

theorem activeChildren_eq (h : Alike Q s t) (x : ℕ) :
    (t.node x).activeChildren = (s.node x).activeChildren :=
  (congrArg Node.activeChildren (h.layout_eq x) : _)

theorem id_eq (h : Alike Q s t) (x : ℕ) : (t.node x).id = (s.node x).id :=
  (congrArg Node.id (h.layout_eq x) : _)

theorem state_eq (h : Alike Q s t) (x : ℕ) : (t.node x).state = (s.node x).state :=
  (congrArg Node.state (h.layout_eq x) : _)

theorem stream_eq (h : Alike Q s t) (x : ℕ) : (t.node x).stream = (s.node x).stream :=
  (congrArg Node.stream (h.layout_eq x) : _)

theorem weight_eq (h : Alike Q s t) (x : ℕ) : (t.node x).weight = (s.node x).weight :=
  (congrArg Node.weight (h.layout_eq x) : _)

theorem contested_iff (h : Alike Q s t) (x : ℕ) : t.contested x ↔ s.contested x := by
  unfold contested
  rw [h.parent_eq]
  simp only [h.children_eq]

theorem attached_iff (h : Alike Q s t) (x : ℕ) : t.attached x ↔ s.attached x := by
  unfold attached
  rw [h.state_eq, h.activeChildren_eq]

theorem finished_iff (h : Alike Q s t) (x : ℕ) : t.finished view x ↔ s.finished view x := by
  unfold finished
  rw [h.stream_eq]

theorem hasWindow_iff (h : Alike Q s t) (x : ℕ) : t.hasWindow view x ↔ s.hasWindow view x := by
  unfold hasWindow
  rw [h.stream_eq]

theorem hasData_iff (h : Alike Q s t) (x : ℕ) : t.hasData view x ↔ s.hasData view x := by
  unfold hasData
  rw [h.stream_eq]

theorem ready_iff (h : Alike Q s t) (x : ℕ) : t.ready view x ↔ s.ready view x := by
  unfold ready
  rw [h.attached_iff, h.hasWindow_iff, h.hasData_iff, h.id_eq, h.state_eq]

theorem trans (h : Alike Q s t) (h' : Alike Q t u) : Alike Q s u where
  size_eq := h'.size_eq.trans h.size_eq
  nodeMap_eq := h'.nodeMap_eq.trans h.nodeMap_eq
  layout_eq x := (h'.layout_eq x).trans (h.layout_eq x)
  narrow := h.narrow
  due_eq x hx := (h'.due_eq x ((h.contested_iff x).mpr hx)).trans (h.due_eq x hx)
  quantum_eq x hQ hx :=
    (h'.quantum_eq x hQ ((h.contested_iff x).mpr hx)).trans (h.quantum_eq x hQ hx)

/-! ## The steps of `traverse` -/

theorem setOpenStreams (h : Alike Q s t) (a b : ℤ) :
    Alike Q { s with openStreams := a } { t with openStreams := b } :=
  ⟨h.size_eq, h.nodeMap_eq, h.layout_eq, h.narrow, h.due_eq, h.quantum_eq⟩

/-- A change of the same fields in both, which leaves quanta alone and lets no list grow. -/
theorem modify (h : Alike Q s t) {f g : Node → Node}
    (hlayout : (g (t.node n)).layout = (f (s.node n)).layout)
    (hparent : (f (s.node n)).parent = (s.node n).parent)
    (hlength : (f (s.node n)).children.length ≤ (s.node n).children.length)
    (hnarrow : (f (s.node n)).children.length ≤ 1 → (f (s.node n)).nextChild = 0)
    (hs : ((f (s.node n)).quantum, (f (s.node n)).weight) = ((s.node n).quantum, (s.node n).weight))
    (ht : ((g (t.node n)).quantum, (g (t.node n)).weight) =
      ((t.node n).quantum, (t.node n).weight)) :
    Alike Q (s.modify n f) (t.modify n g) := by
  have hquanta : ∀ {u : StreamScheduler} {f : Node → Node},
      ((f (u.node n)).quantum, (f (u.node n)).weight) = ((u.node n).quantum, (u.node n).weight) →
        ∀ x, ((u.modify n f).node x).quantum = (u.node x).quantum ∧
          (u.modify n f).due x = u.due x := by
    intro u f hf x
    have hpair := modify_field (fun node => (node.quantum, node.weight)) hf x
    obtain ⟨hq, hw⟩ := Prod.mk.inj hpair
    refine ⟨hq, ?_⟩
    unfold due RoundRobin.due share
    rw [hq, hw]
  have hcontested : ∀ x, (s.modify n f).contested x → s.contested x := by
    rintro x ⟨p, hp, hlen⟩
    refine ⟨p, (modify_field Node.parent hparent x).symm.trans hp, ?_⟩
    by_cases hpn : p = n
    · subst hpn
      rw [modify_node_self] at hlen
      omega
    · rwa [modify_node_of_ne hpn] at hlen
  refine ⟨h.size_eq, h.nodeMap_eq, fun x => ?_, fun x => ?_, fun x hx => ?_, fun x hQ hx => ?_⟩
  · by_cases hx : x = n
    · subst hx
      rw [modify_node_self, modify_node_self]
      exact hlayout
    · rw [modify_node_of_ne hx, modify_node_of_ne hx]
      exact h.layout_eq x
  · by_cases hx : x = n
    · subst hx
      rw [modify_node_self]
      exact hnarrow
    · rw [modify_node_of_ne hx]
      exact h.narrow x
  · rw [(hquanta hs x).2, (hquanta ht x).2]
    exact h.due_eq x (hcontested x hx)
  · rw [(hquanta hs x).1, (hquanta ht x).1]
    exact h.quantum_eq x hQ (hcontested x hx)

/-- A change of quanta and shares only. -/
theorem of_layout (h : Alike Q s t) (hsize : s'.size = s.size ∧ t'.size = t.size)
    (hmap : s'.nodeMap = s.nodeMap ∧ t'.nodeMap = t.nodeMap)
    (hs : ∀ x, (s'.node x).layout = (s.node x).layout)
    (ht : ∀ x, (t'.node x).layout = (t.node x).layout)
    (hdue : ∀ x, s.contested x → t'.due x = s'.due x)
    (hquantum : ∀ x, Q' x → s.contested x → (t'.node x).quantum = (s'.node x).quantum) :
    Alike Q' s' t' := by
  have hparent : s'.parent = s.parent := funext fun x => (congrArg Node.parent (hs x) : _)
  have hchildren : ∀ x, (s'.node x).children = (s.node x).children :=
    fun x => (congrArg Node.children (hs x) : _)
  have hnext : ∀ x, (s'.node x).nextChild = (s.node x).nextChild :=
    fun x => (congrArg Node.nextChild (hs x) : _)
  have hcontested : ∀ x, s'.contested x ↔ s.contested x := by
    intro x
    unfold contested
    simp only [hparent, hchildren]
  refine ⟨?_, ?_, fun x => ?_, fun x hx => ?_, fun x hx => ?_, fun x hQ hx => ?_⟩
  · rw [hsize.1, hsize.2, h.size_eq]
  · rw [hmap.1, hmap.2, h.nodeMap_eq]
  · rw [hs, ht, h.layout_eq]
  · rw [hchildren] at hx
    rw [hnext]
    exact h.narrow x hx
  · exact hdue x ((hcontested x).mp hx)
  · exact hquantum x hQ ((hcontested x).mp hx)

theorem layout_refresh (s : StreamScheduler) (n x : ℕ) :
    ((s.refresh n).node x).layout = (s.node x).layout := by
  refine modify_field Node.layout ?_ x
  dsimp only
  split_ifs <;> split <;> rfl

theorem due_refresh (s : StreamScheduler) (n x : ℕ) : (s.refresh n).due x = s.due x := by
  refine (sameShape_refresh s n).due_eq ?_
  by_cases hx : x = n
  · subst hx
    exact Or.inr (quantum_refresh_self s x)
  · exact Or.inl (quantum_refresh_of_ne hx)

theorem refresh (h : Alike Q s t) (n : ℕ) :
    Alike (fun x => x = n ∨ Q x) (s.refresh n) (t.refresh n) := by
  refine h.of_layout ⟨rfl, rfl⟩ ⟨rfl, rfl⟩ (layout_refresh s n) (layout_refresh t n)
    (fun x hx => ?_) fun x hQ hx => ?_
  · rw [due_refresh, due_refresh]
    exact h.due_eq x hx
  · by_cases hn : x = n
    · subst hn
      rw [quantum_refresh_self, quantum_refresh_self]
      exact h.due_eq x hx
    · rw [quantum_refresh_of_ne hn, quantum_refresh_of_ne hn]
      exact h.quantum_eq x (hQ.resolve_left hn) hx

theorem spend (h : Alike Q s t) (hn : Q n) : Alike Q (s.spend n) (t.spend n) := by
  have hquantum : ∀ x, s.contested x → (x = n ∨ Q x) →
      ((t.spend n).node x).quantum = ((s.spend n).node x).quantum := by
    intro x hx hQ
    by_cases hxn : x = n
    · subst hxn
      rw [quantum_spend_self, quantum_spend_self, h.quantum_eq x hn hx]
    · rw [quantum_spend_of_ne hxn, quantum_spend_of_ne hxn]
      exact h.quantum_eq x (hQ.resolve_left hxn) hx
  refine h.of_layout ⟨rfl, rfl⟩ ⟨rfl, rfl⟩ (modify_field Node.layout (Node.layout_setQuantum _ _))
    (modify_field Node.layout (Node.layout_setQuantum _ _)) (fun x hx => ?_)
    fun x hQ hx => hquantum x hx (Or.inr hQ)
  by_cases hxn : x = n
  · unfold due RoundRobin.due
    rw [hquantum x hx (Or.inl hxn), (sameShape_spend s n).share_eq, (sameShape_spend t n).share_eq]
    unfold share
    rw [h.weight_eq]
  · have hdue : ∀ u : StreamScheduler, (u.spend n).due x = u.due x := fun u =>
      (sameShape_spend u n).due_eq (Or.inl (quantum_spend_of_ne hxn))
    rw [hdue, hdue]
    exact h.due_eq x hx

theorem dropChild (h : Alike Q s t) (n c : ℕ) : Alike Q (s.dropChild n c) (t.dropChild n c) := by
  unfold StreamScheduler.dropChild
  refine h.modify ?_ rfl ?_ (fun hlen => ?_) rfl rfl
  · rw [h.children_eq n, h.weight_eq c]
    generalize (s.node n).children.eraseIdx (childIndex (s.node n).children c) = children
    generalize children.length % 2 ^ 16 = len
    exact congrArg (fun node : Node =>
      { node with
        children := children
        nextChild := if children.length = 0 then 0 else node.nextChild % len
        childrensWeight := sub32 node.childrensWeight (sub32 (s.node c).weight.toNat 1)
        activeChildren := sub16 node.activeChildren 1 }) (h.layout_eq n)
  · exact List.length_eraseIdx_le _ _
  · dsimp only at hlen ⊢
    split
    · rfl
    · next h0 =>
      have hone : ((s.node n).children.eraseIdx (childIndex (s.node n).children c)).length = 1 := by
        omega
      rw [hone, Nat.mod_eq_of_lt (by decide : 1 < 2 ^ 16), Nat.mod_one]

theorem removeWeightUp (h : Alike Q s t) (fuel n c : ℕ) :
    Option.Rel (Alike Q) (StreamScheduler.removeWeightUp fuel s n c)
      (StreamScheduler.removeWeightUp fuel t n c) := by
  induction fuel generalizing s t n c with
  | zero => exact .none
  | succ fuel ih =>
    have hdrop := h.dropChild n c
    rw [StreamScheduler.removeWeightUp, StreamScheduler.removeWeightUp]
    dsimp only
    rw [h.children_eq n, hdrop.children_eq n, hdrop.activeChildren_eq n]
    have hparent : ((t.dropChild n c).node n).parent = ((s.dropChild n c).node n).parent :=
      congrFun hdrop.parent_eq n
    rw [hparent]
    split
    · exact .none
    · split
      · exact .none
      · cases ((s.dropChild n c).node n).parent with
        | none => exact .some hdrop
        | some p =>
          dsimp only
          split
          · exact ih hdrop p n
          · exact .some hdrop

theorem removeWeight (h : Alike Q s t) (n c : ℕ) :
    Option.Rel (Alike Q) (s.removeWeight n c) (t.removeWeight n c) := by
  unfold StreamScheduler.removeWeight
  rw [h.size_eq]
  exact h.removeWeightUp _ n c

/-- A finished stream is closed. -/
theorem close (h : Alike Q s t) (n : ℕ) :
    Option.Rel (Alike Q) ({ s with openStreams := s.openStreams - 1 }.deactivateNode n)
      ({ t with openStreams := t.openStreams - 1 }.deactivateNode n) := by
  have hclosed : Alike Q
      ({ s with openStreams := s.openStreams - 1 }.modify n fun node =>
        { node with state := .closed, stream := none })
      ({ t with openStreams := t.openStreams - 1 }.modify n fun node =>
        { node with state := .closed, stream := none }) := by
    refine (h.setOpenStreams _ _).modify ?_ rfl le_rfl (h.narrow n) rfl rfl
    exact congrArg (fun node : Node => { node with state := .closed, stream := none })
      (h.layout_eq n)
  unfold StreamScheduler.deactivateNode
  dsimp only
  rw [hclosed.activeChildren_eq n]
  have hparent := congrFun hclosed.parent_eq n
  unfold parent at hparent
  rw [hparent]
  split
  · exact .some hclosed
  · next p _ =>
    split
    · exact hclosed.removeWeight p n
    · exact .some hclosed

theorem advance (h : Alike Q s t) (n : ℕ) : Option.Rel (Alike Q) (s.advance n) (t.advance n) := by
  unfold StreamScheduler.advance
  dsimp only
  rw [h.children_eq n]
  split_ifs with hlen
  · exact .none
  · refine .some (h.modify ?_ rfl le_rfl (fun hone => ?_) rfl rfl)
    · exact congrArg (fun node : Node =>
        { node with
          nextChild := add16 node.nextChild 1 % ((s.node n).children.length % 2 ^ 16) })
        (h.layout_eq n)
    · have hone : (s.node n).children.length = 1 := by
        dsimp only at hone
        omega
      rw [hone, Nat.mod_eq_of_lt (by decide : 1 < 2 ^ 16), Nat.mod_one]

end Alike

/-- A list of one child does not turn. -/
theorem advance_single (hlen : (s.node n).children.length = 1) (hnext : (s.node n).nextChild = 0) :
    s.advance n = some s := by
  have hmod : add16 (s.node n).nextChild 1 % (1 % 2 ^ 16) = (s.node n).nextChild := by
    rw [hnext, Nat.mod_eq_of_lt (by decide : 1 < 2 ^ 16), Nat.mod_one]
  unfold StreamScheduler.advance StreamScheduler.modify
  dsimp only
  rw [hlen, if_neg (by decide), hmod, update_eq_self]

theorem turn_single {strm : Option ℕ} (hp : (s.node n).parent = some p)
    (hlen : (s.node p).children.length ≤ 1) (hnext : (s.node p).nextChild = 0) :
    s.turn strm n = some s := by
  unfold StreamScheduler.turn
  rw [hp]
  dsimp only
  split
  · next hturn =>
    have hpos := List.length_pos_iff.mpr hturn.2
    exact advance_single (by omega) hnext
  · rfl

namespace Alike

theorem turn (h : Alike Q s t) (hn : Q n) (strm : Option ℕ) :
    Option.Rel (Alike Q) (s.turn strm n) (t.turn strm n) := by
  have hparent : (t.node n).parent = (s.node n).parent := congrFun h.parent_eq n
  cases hp : (s.node n).parent with
  | none =>
    unfold StreamScheduler.turn
    rw [hparent, hp]
    exact .some h
  | some p =>
    by_cases hlen : 1 < (s.node p).children.length
    · unfold StreamScheduler.turn
      rw [hparent, hp]
      dsimp only
      rw [h.children_eq p, h.quantum_eq n hn ⟨p, hp, hlen⟩]
      split
      · exact h.advance p
      · exact .some h
    · have hnext := h.narrow p (not_lt.mp hlen)
      rw [turn_single hp (not_lt.mp hlen) hnext, turn_single (hparent.trans hp)
        (by rw [h.children_eq]; exact not_lt.mp hlen) ((h.nextChild_eq p).trans hnext)]
      exact .some h

/-- The loop over the children, for visits that keep the schedulers alike. -/
theorem visitChildren {visit : StreamScheduler → ℕ → Option (Option ℕ × StreamScheduler)}
    (hvisit : ∀ c {s t}, Alike Q s t →
      Option.Rel (SameResult Q) (visit s c) (visit t c))
    (h : Alike Q s t) (hn : Q n) (rounds i : ℕ) :
    Option.Rel (SameResult Q)
      (StreamScheduler.visitChildren visit n rounds i s)
      (StreamScheduler.visitChildren visit n rounds i t) := by
  induction rounds generalizing s t i with
  | zero =>
    rw [StreamScheduler.visitChildren, StreamScheduler.visitChildren, h.children_eq n]
    split
    · exact .none
    · exact .some ⟨rfl, h⟩
  | succ rounds ih =>
    rw [StreamScheduler.visitChildren, StreamScheduler.visitChildren, h.children_eq n,
      h.nextChild_eq n]
    split
    · cases (s.node n).children[(s.node n).nextChild]? with
      | none => exact .none
      | some c =>
        dsimp only [Option.bind_eq_bind, Option.bind_some]
        refine Runs.rel_bind (hvisit c h) ?_
        rintro ⟨strm, s'⟩ ⟨_, t'⟩ ⟨rfl, h'⟩
        split
        · exact .some ⟨rfl, h'.spend hn⟩
        · exact ih h' (i + 1)
    · exact .some ⟨rfl, h⟩

/-- `traverse` returns the same stream and keeps the schedulers alike. -/
theorem traverse (h : Alike Q s t) (fuel n : ℕ) :
    Option.Rel (SameResult Q) (StreamScheduler.traverse view fuel s n)
      (StreamScheduler.traverse view fuel t n) := by
  induction fuel generalizing Q s t n with
  | zero => exact .none
  | succ fuel ih =>
    have hfresh := h.refresh n
    have hpos : ∀ u : StreamScheduler, ((u.refresh n).node n).quantum > 0 := by
      intro u
      rw [quantum_refresh_self]
      exact due_pos u n
    rw [StreamScheduler.traverse, StreamScheduler.traverse]
    simp only [hfresh.finished_iff, hfresh.id_eq, hfresh.hasData_iff, hfresh.hasWindow_iff,
      hfresh.state_eq, hfresh.activeChildren_eq, hfresh.children_eq, hpos, true_and, and_true]
    split
    · refine Runs.rel_bind (hfresh.close n) fun s' t' h' => ?_
      exact .some ⟨rfl, h'.mono fun _ => Or.inr⟩
    · -- each branch ends with the same turn
      have hturn : ∀ a b, SameResult (fun x => x = n ∨ Q x) a b → Option.Rel (SameResult Q)
          (do let s ← a.2.turn a.1 n; some (a.1, s)) (do let s ← b.2.turn b.1 n; some (b.1, s)) := by
        rintro ⟨strm, s'⟩ ⟨_, t'⟩ ⟨rfl, h'⟩
        refine Runs.rel_bind (h'.turn (Or.inl rfl) strm) fun s'' t'' h'' => ?_
        exact .some ⟨rfl, h''.mono fun _ => Or.inr⟩
      split
      · exact hturn _ _ ⟨rfl, hfresh⟩
      · split
        · exact hturn _ _ ⟨rfl, hfresh.spend (Or.inl rfl)⟩
        · split
          · exact Runs.rel_bind (visitChildren (fun c _ _ h => ih h c) hfresh (Or.inl rfl) _ _) hturn
          · exact hturn _ _ ⟨rfl, hfresh⟩

theorem schedule (h : Alike Q s t) :
    Option.Rel (SameResult Q) (s.schedule view) (t.schedule view) := by
  unfold StreamScheduler.schedule
  rw [h.size_eq]
  exact h.traverse _ 0

theorem schedule_fst (h : Alike Q s t) :
    (t.schedule view).map Prod.fst = (s.schedule view).map Prod.fst := by
  have hrel : Option.Rel (SameResult Q) (s.schedule view) (t.schedule view) := h.schedule
  generalize s.schedule view = a at hrel ⊢
  generalize t.schedule view = b at hrel ⊢
  cases hrel with
  | none => rfl
  | some hab => rw [Option.map_some, Option.map_some, hab.1]

end Alike

/-- Schedulers return the same streams if each call does and keeps a relation between them. -/
theorem schedules_rel {R : StreamScheduler → StreamScheduler → Prop} {V : (ℕ → StreamView) → Prop}
    (hstep : ∀ {s t view}, V view → R s t → Option.Rel
      (fun a b : Option ℕ × StreamScheduler => a.1 = b.1 ∧ R a.2 b.2) (s.schedule view)
      (t.schedule view))
    (h : R s t) {views : List (ℕ → StreamView)} (hV : ∀ view ∈ views, V view) :
    (t.schedules views).map Prod.fst = (s.schedules views).map Prod.fst := by
  induction views generalizing s t with
  | nil => rfl
  | cons view views ih =>
    have hrel := hstep (hV view List.mem_cons_self) h
    rw [schedules, schedules]
    generalize s.schedule view = a at hrel ⊢
    generalize t.schedule view = b at hrel ⊢
    cases hrel with
    | none => rfl
    | @some a b hab =>
      obtain ⟨r, s'⟩ := a
      obtain ⟨_, t'⟩ := b
      obtain ⟨rfl, h'⟩ := hab
      have hcons : ∀ u : StreamScheduler,
          ((u.schedules views).bind fun rest => some (r :: rest.1, rest.2)).map Prod.fst =
            ((u.schedules views).map Prod.fst).map (r :: ·) := by
        intro u
        cases u.schedules views <;> rfl
      have hrest := ih h' fun view hview => hV view (List.mem_cons_of_mem _ hview)
      exact (hcons t').trans ((congrArg _ hrest).trans (hcons s').symm)

/-- **Alike schedulers return the same streams**, whatever the streams do meanwhile. -/
theorem Alike.schedules (h : Alike Q s t) (views : List (ℕ → StreamView)) :
    (t.schedules views).map Prod.fst = (s.schedules views).map Prod.fst :=
  schedules_rel (R := Alike Q) (V := fun _ => True) (fun _ h => h.schedule) h fun _ _ => trivial

/-! ## Calls that leave a scheduler like the one before -/

/-- The node is the first one at which `traverse` stops, its stream is ready, and no node above it has
more than one child. -/
def leads (s : StreamScheduler) (view : ℕ → StreamView) (n : ℕ) : Prop :=
  s.ready view n ∧ ¬ s.finished view n ∧ ∀ x ∈ s.path n, x ≠ n →
    ¬ s.stops view x ∧ (s.node x).children.length ≤ 1

instance (s : StreamScheduler) (view : ℕ → StreamView) : DecidablePred (s.leads view) := fun _ =>
  inferInstanceAs (Decidable (_ ∧ _))

/-- `traverse` stops at no stream, or it comes to one that is ready without a choice. -/
def Undisputed (view : ℕ → StreamView) (s : StreamScheduler) : Prop :=
  (∀ x < s.size, ¬ s.stops view x) ∨ ∃ n < s.size, s.leads view n

instance (view : ℕ → StreamView) (s : StreamScheduler) : Decidable (Undisputed view s) :=
  inferInstanceAs (Decidable (_ ∨ _))

theorem Tree.narrow (h : Tree s) (x : ℕ) (hx : (s.node x).children.length ≤ 1) :
    (s.node x).nextChild = 0 := by
  rcases h.listing.next x with hlt | h0
  · omega
  · exact h0

theorem Tree.alike_refl (h : Tree s) : Alike Q s s :=
  ⟨rfl, rfl, fun _ => rfl, h.narrow, fun _ _ => rfl, fun _ _ _ => rfl⟩

/-- In trees, rings tell positions. -/
theorem SameShape.nextChild_eq (h : SameShape s t) (hs : Tree s) (ht : Tree t)
    (hring : 1 < (s.node x).children.length → t.ring x = s.ring x) :
    (t.node x).nextChild = (s.node x).nextChild := by
  have hchildren := h.children_eq x
  by_cases hlen : 1 < (s.node x).children.length
  · have hne : (s.node x).children ≠ [] := List.ne_nil_of_length_pos (by omega)
    have hrotate := hring hlen
    unfold ring at hrotate
    rw [hchildren] at hrotate
    have hmod := (hs.listing.nodup x).rotate_congr hne _ _ hrotate
    have hnext := hs.listing.next x
    have hnext' := ht.listing.next x
    rw [hchildren] at hnext'
    rwa [Nat.mod_eq_of_lt (by omega), Nat.mod_eq_of_lt (by omega)] at hmod
  · rw [hs.narrow x (not_lt.mp hlen), ht.narrow x]
    rw [hchildren]
    exact not_lt.mp hlen

theorem SameShape.layout_eq (h : SameShape s t)
    (hnext : (t.node x).nextChild = (s.node x).nextChild) :
    (t.node x).layout = (s.node x).layout := by
  have hshape := congrArg
    (fun node : Node => { node with nextChild := (s.node x).nextChild, waiting := 0 })
    (h.shape_eq x)
  calc (t.node x).layout
      = { (t.node x).shape with nextChild := (t.node x).nextChild, waiting := 0 } := rfl
    _ = { (t.node x).shape with nextChild := (s.node x).nextChild, waiting := 0 } := by rw [hnext]
    _ = (s.node x).layout := hshape

/-- Trees of the same shape are alike if nothing has changed for nodes with siblings. -/
theorem SameShape.alike (h : SameShape s t) (hs : Tree s) (ht : Tree t)
    (hring : ∀ x, 1 < (s.node x).children.length → t.ring x = s.ring x)
    (hquantum : ∀ x, s.contested x →
      (t.node x).quantum = (s.node x).quantum ∨ (t.node x).quantum = s.due x) :
    Alike (fun _ => False) s t :=
  ⟨h.size_eq, h.nodeMap_eq, fun x => h.layout_eq (h.nextChild_eq hs ht (hring x)), hs.narrow,
    fun x hx => h.due_eq (hquantum x hx), fun _ hx => hx.elim⟩

/-- A stream that leads is the first one. -/
theorem Tree.eq_of_leads (h : Tree s) (hlt : n < s.size) (hn : s.leads view n)
    (hr : StopsFirst view s r) : r = n := by
  by_contra hne
  rcases hr.first n (h.above_root hlt) ⟨Or.inl hn.1, Ne.symm hne⟩ with
    ⟨hrn, -⟩ | ⟨p, c, d, -, hdn, hsub⟩
  · exact (hn.2.2 r (h.mem_path.mpr hrn) hne).1 hr.stops
  · -- a node above `n` would have two children
    obtain ⟨-, hd, -⟩ := h.toWired.of_sublist hsub
    have hpn : p ≠ n := by
      rintro rfl
      exact h.forest.acyclic hd hdn
    have hone := (hn.2.2 p (h.mem_path.mpr ((above_parent hd).trans hdn)) hpn).2
    have htwo := hsub.length_le
    rw [length_ring] at htwo
    exact absurd (htwo.trans hone) (by simp)

/-- If nothing is disputed, `schedule` leaves a scheduler that is like the one before. -/
theorem Tree.alike_schedule (h : Tree s) (hd : Undisputed view s)
    {strm : Option ℕ} (heq : s.schedule view = some (strm, t)) :
    Alike (fun _ => False) s t ∧ ∀ r ∈ strm, ∀ x, Above s.parent x r → x ≠ r →
      (s.node x).children.length ≤ 1 := by
  rcases h.schedule_stops view with ⟨-, t', ht, hidle, heq'⟩ | ⟨r, hfirst, hcases⟩
  · cases heq.symm.trans heq'
    refine ⟨hidle.toSameShape.alike h ht (fun x _ => hidle.ring_eq x) fun x _ => ?_, nofun⟩
    exact (hidle.quantum x).imp_right And.right
  have hr : r < s.size := h.lt_size_of_above hfirst.above h.size_pos
  rcases hd with hnone | ⟨n, hn, hleads⟩
  · exact absurd hfirst.stops (hnone r hr)
  obtain rfl := h.eq_of_leads hn hleads hfirst
  rcases hcases with ⟨-, t', ht, hfound, heq'⟩ | ⟨hfin, -⟩
  · cases heq.symm.trans heq'
    have hnarrow : ∀ x, Above s.parent x r → x ≠ r → (s.node x).children.length ≤ 1 :=
      fun x hx hne => (hleads.2.2 x (h.mem_path.mpr hx) hne).2
    -- a node with siblings is not on the way
    have hoff : ∀ {c p}, s.parent c = some p → 1 < (s.node p).children.length →
        ¬ Above s.parent c r := by
      intro c p hp hlen hcr
      have hpr : p ≠ r := by
        rintro rfl
        exact h.forest.acyclic hp hcr
      exact absurd (hnarrow p ((above_parent hp).trans hcr) hpr) (not_le.mpr hlen)
    refine ⟨hfound.toSameShape.alike h ht (fun x hlen => ?_) fun x hx => ?_, ?_⟩
    · exact hfound.ring_off fun c hc _ => hoff hc hlen
    · obtain ⟨p, hp, hlen⟩ := hx
      have hunserved := hfound.unserved x fun hon => hoff hp hlen hon.2
      exact hunserved.imp_right fun hbarren => hbarren.2.2
    · rintro _ ⟨⟩
      exact hnarrow
  · exact absurd hfin hleads.2.1

theorem Alike.right (h : Alike Q s t) : Alike Q t t := by
  refine ⟨rfl, rfl, fun _ => rfl, fun x hx => ?_, fun _ _ => rfl, fun _ _ _ => rfl⟩
  rw [h.children_eq] at hx
  rw [h.nextChild_eq]
  exact h.narrow x hx

/-- Taking the quantum of a node without siblings makes no difference. -/
theorem Alike.clearQuantum (h : Alike Q s s) (hn : ¬ s.contested n) :
    Alike Q s (s.modify n fun node => { node with quantum := 0 }) := by
  refine h.of_layout ⟨rfl, rfl⟩ ⟨rfl, rfl⟩ (fun _ => rfl) (modify_field Node.layout rfl)
    (fun x hx => ?_) fun x _ hx => ?_
  · have hxn : x ≠ n := fun heq => hn (heq ▸ hx)
    unfold due RoundRobin.due share
    rw [modify_node_of_ne hxn]
  · have hxn : x ≠ n := fun heq => hn (heq ▸ hx)
    rw [modify_node_of_ne hxn]

/-- `skip` makes no difference if no node above has more than one child. -/
theorem Alike.skipUp (h : Alike Q s s) (hforest : IsForest s.parent s.pointers)
    (hnarrow : ∀ x, Above s.parent x n → x ≠ n → (s.node x).children.length ≤ 1)
    (heq : StreamScheduler.skipUp fuel s n = some t) : Alike Q s t := by
  induction fuel generalizing s n with
  | zero => cases heq
  | succ fuel ih =>
    have hparent : ∀ {p}, s.parent n = some p → (s.node p).children.length ≤ 1 := by
      intro p hp
      refine hnarrow p (above_parent hp) ?_
      rintro rfl
      exact hforest.acyclic hp (Above.refl p)
    -- the quantum is not that of a node with siblings, and turning a single child changes nothing
    have hclear := h.clearQuantum (n := n) fun ⟨p, hp, hlen⟩ => absurd (hparent hp) (not_le.mpr hlen)
    have hnode := congrFun hclear.parent_eq n
    rw [StreamScheduler.skipUp] at heq
    generalize s.modify n (fun node => { node with quantum := 0 }) = u at hclear hnode heq
    cases hp : s.parent n with
    | none =>
      have hu : (u.node n).parent = none := hnode.trans hp
      rw [hu] at heq
      cases heq
      exact hclear
    | some p =>
      have hu : (u.node n).parent = some p := hnode.trans hp
      rw [hu] at heq
      obtain ⟨v, hadvance, hskip⟩ := Option.bind_eq_some_iff.mp heq
      have hlen : (u.node p).children.length ≤ 1 := by
        rw [hclear.children_eq]
        exact hparent hp
      have hpos : (u.node p).children.length ≠ 0 := by
        intro h0
        unfold StreamScheduler.advance at hadvance
        rw [h0, if_pos (by decide)] at hadvance
        cases hadvance
      have hnext := hclear.right.narrow p hlen
      cases (advance_single (by omega) hnext).symm.trans hadvance
      refine hclear.trans (ih hclear.right ?_ (fun x hx hne => ?_) hskip)
      · rw [hclear.parent_eq, pointers, hclear.size_eq]
        exact hforest
      · rw [hclear.parent_eq] at hx
        rw [hclear.children_eq]
        refine hnarrow x (hx.trans (above_parent hp)) ?_
        rintro rfl
        exact hforest.acyclic hp hx

theorem Alike.skip (h : Alike Q s s) (htree : Tree s)
    (hnarrow : ∀ x, Above s.parent x n → x ≠ n → (s.node x).children.length ≤ 1)
    (heq : s.skip n = some t) : Alike Q s t :=
  h.skipUp htree.forest hnarrow heq

/-- The flags of the path scheduler make no difference. -/
theorem Alike.setWaiting (h : Alike Q s s) (n waiting : ℕ) :
    Alike Q s (s.modify n fun node => { node with waiting := waiting }) := by
  refine h.of_layout ⟨rfl, rfl⟩ ⟨rfl, rfl⟩ (fun _ => rfl) (modify_field Node.layout rfl)
    (fun x _ => ?_) fun x _ _ => modify_field Node.quantum rfl x
  unfold due RoundRobin.due share
  rw [modify_field Node.quantum rfl x, modify_field Node.weight rfl x]

theorem Alike.setToSend (h : Alike Q s s) (strm : Option ℕ) :
    Alike Q s { s with toSend := strm } :=
  ⟨rfl, rfl, fun _ => rfl, h.narrow, fun _ _ => rfl, fun _ _ _ => rfl⟩

/-! ## What alike schedulers have in common -/

theorem Alike.tree (h : Alike Q s t) (hs : Tree s) : Tree t := by
  have hl := hs.listing
  have hcanon : t.canon t.parent = s.canon s.parent := by
    rw [h.parent_eq]
    exact canon_congr h.attached_iff
  refine hs.of_listing h.parent_eq h.size_eq h.nodeMap_eq ?_
  rw [hcanon]
  refine ⟨fun p n => ?_, fun p => ?_, fun p => ?_, fun hn => ?_, ?_⟩
  · rw [h.children_eq]
    exact hl.count p n
  · rw [h.children_eq, h.activeChildren_eq]
    exact hl.active p
  · rw [h.children_eq, h.nextChild_eq]
    exact hl.next p
  · rw [h.size_eq]
    exact hl.bound hn
  · rw [h.size_eq]
    exact hl.size_le

theorem Alike.undisputed (h : Alike Q s t) (hs : Undisputed view s) : Undisputed view t := by
  unfold Undisputed leads stops path at hs ⊢
  simpa only [h.size_eq, h.parent_eq, h.children_eq, h.ready_iff, h.attached_iff, h.finished_iff]
    using hs

end StreamScheduler

end MultipathQuic
