import MultipathQuic.Scheduler.Membership
import MultipathQuic.Scheduler.Updates

/-!
# Dependencies on the root

The root of the tree has the identifier 0, but `nodeMap` knows it as the header stream, stream 3.
`maybeSetParent` rewrites a dependency on stream 3 to one on stream 0 and then looks the new parent
up as stream 0, which is not the identifier of any stream. A dependency on the root is therefore
accepted by the early exit only, for a stream that is below the root already.
-/

namespace MultipathQuic

open Function

namespace StreamScheduler

variable {view : ℕ → StreamView} {s s' : StreamScheduler} {n c k : ℕ}

/-- The root is the only node with the identifier 0, no stream 0 or 1 is known, and the nodes that
are named in `nodeMap` and as parents are in the heap. -/
structure Rooted (s : StreamScheduler) : Prop where
  size_pos : 0 < s.size
  root_id : (s.node 0).id = 0
  id_ne : ∀ n < s.size, n ≠ 0 → (s.node n).id ≠ 0
  known : ∀ id n, s.nodeMap id = some n → n < s.size
  unnamed : s.nodeMap 0 = none
  crypto : s.nodeMap 1 = none
  parent_lt : ∀ n p, (s.node n).parent = some p → p < s.size

theorem rooted_new : Rooted newStreamScheduler where
  size_pos := by decide
  root_id := rfl
  id_ne n hn h0 := absurd (Nat.lt_one_iff.mp hn) h0
  known _ _ h := by cases h
  unnamed := rfl
  crypto := rfl
  parent_lt _ _ h := by cases h

theorem Rooted.eq_zero_of_id (h : Rooted s) (hn : n < s.size) (hid : (s.node n).id = 0) :
    n = 0 := by
  by_contra h0
  exact h.id_ne n hn h0 hid

/-- A change of a node that leaves its identifier alone, and its parent in the heap. -/
theorem Rooted.modify (h : Rooted s) {f : Node → Node}
    (hid : (f (s.node n)).id = (s.node n).id)
    (hparent : ∀ p, (f (s.node n)).parent = some p → p < s.size) : Rooted (s.modify n f) where
  size_pos := h.size_pos
  root_id := (modify_field Node.id hid 0).trans h.root_id
  id_ne x hx h0 := by
    rw [modify_field Node.id hid x]
    exact h.id_ne x hx h0
  known := h.known
  unnamed := h.unnamed
  crypto := h.crypto
  parent_lt x p hp := by
    by_cases hx : x = n
    · subst hx
      rw [modify_node_self] at hp
      exact hparent p hp
    · rw [modify_node_of_ne hx] at hp
      exact h.parent_lt x p hp

theorem Rooted.openStreams (h : Rooted s) (i : ℤ) : Rooted { s with openStreams := i } :=
  ⟨h.size_pos, h.root_id, h.id_ne, h.known, h.unnamed, h.crypto, h.parent_lt⟩

/-! ## The calls -/

theorem linkRule_rooted (k : ℕ) : LinkRule (· < k) fun s => s.size = k ∧ Rooted s where
  modify := by
    rintro s n f hown hparent ⟨rfl, h⟩
    refine ⟨rfl, h.modify (congrArg Node.id hown : _) fun p hp => ?_⟩
    exact (hparent p hp).elim (h.parent_lt n p) id

theorem scheduleRule_rooted (view : ℕ → StreamView) :
    ScheduleRule view (fun _ => True) Rooted where
  child := fun _ _ _ => trivial
  refresh := by
    intro s n h _
    refine h.modify ?_ fun p hp => h.parent_lt n p ?_
    · dsimp only
      split_ifs <;> split <;> rfl
    · rw [← hp]
      dsimp only
      split_ifs <;> split <;> rfl
  count := by
    intro s n f hf h
    have hparent : (f (s.node n)).parent = (s.node n).parent := (congrArg Node.parent hf : _)
    exact h.modify (congrArg Node.id hf : _) fun p hp => h.parent_lt n p (hparent ▸ hp)
  drop := by
    intro s n c _ h
    unfold dropChild
    exact h.modify rfl (h.parent_lt n)
  close := by
    intro s n h _ _
    exact (h.openStreams _).modify rfl (h.parent_lt n)

theorem Rooted.addNode (h : Rooted s) {id : ℕ} (h0 : id ≠ 0) : Rooted (s.addNode id) := by
  unfold StreamScheduler.addNode
  split
  · exact h
  · next h1 =>
    split
    · next h3 =>
      -- the header stream becomes the stream of the root
      have hroot : Rooted (s.modify 0 fun node =>
          { node with stream := some id, state := .active }) :=
        h.modify rfl (h.parent_lt 0)
      refine ⟨hroot.size_pos, hroot.root_id, hroot.id_ne, fun i n hn => ?_, ?_, ?_,
        hroot.parent_lt⟩
      · dsimp only at hn
        by_cases hi : i = 3
        · rw [hi, update_self] at hn
          cases hn
          exact h.size_pos
        · rw [update_of_ne hi] at hn
          exact h.known i n hn
      · change update s.nodeMap 3 (some 0) 0 = none
        rw [update_of_ne (by decide), h.unnamed]
      · change update s.nodeMap 3 (some 0) 1 = none
        rw [update_of_ne (by decide), h.crypto]
    · have hold : ∀ n, n ≠ s.size →
          (s.allocate (newNode id (some id) (some 0))).node n = s.node n :=
        fun n hn => update_of_ne hn _ _
      have hnew : (s.allocate (newNode id (some id) (some 0))).node s.size =
          newNode id (some id) (some 0) := update_self _ _ _
      refine ⟨Nat.succ_pos _, ?_, fun n hn hn0 => ?_, fun i n hn => ?_, ?_, ?_, fun n p hp => ?_⟩
      · rw [hold 0 h.size_pos.ne]
        exact h.root_id
      · by_cases hself : n = s.size
        · rw [hself, hnew]
          exact h0
        · rw [hold n hself]
          exact h.id_ne n (Nat.lt_of_le_of_ne (Nat.lt_succ_iff.mp hn) hself) hn0
      · dsimp only at hn
        by_cases hi : i = id
        · rw [hi, update_self] at hn
          cases hn
          exact Nat.lt_succ_self _
        · rw [update_of_ne hi] at hn
          exact Nat.lt_succ_of_lt (h.known i n hn)
      · change update s.nodeMap id (some s.size) 0 = none
        rw [update_of_ne (Ne.symm h0), h.unnamed]
      · change update s.nodeMap id (some s.size) 1 = none
        rw [update_of_ne (Ne.symm h1), h.crypto]
      · by_cases hself : n = s.size
        · rw [hself, hnew] at hp
          cases hp
          exact Nat.succ_pos _
        · rw [hold n hself] at hp
          exact Nat.lt_succ_of_lt (h.parent_lt n p hp)

theorem Rooted.setActive (h : Rooted s) {id : ℕ} {err : Option SchedulerError}
    (heq : s.setActive id = some (s', err)) : Rooted s' := by
  obtain rfl | ⟨n, p, t, -, -, -, hadd, rfl⟩ := setActive_cases heq
  · exact h
  · have hactive : Rooted (s.modify n fun node => { node with state := .active }) :=
      h.modify rfl (h.parent_lt n)
    have hrule := linkRule_rooted (s.modify n fun node => { node with state := .active }).size
    exact (hrule.addWeightUp ⟨rfl, hactive⟩ hadd).2.openStreams _

end StreamScheduler

open StreamScheduler (Rooted)

theorem SchedulerOp.rooted_apply {s s' : StreamScheduler} (h : Rooted s) {op : SchedulerOp}
    (hop : op ≠ .addNode 0) (heq : op.apply s = some s') : Rooted s' := by
  have hrule := StreamScheduler.linkRule_rooted s.size
  cases op, s', heq using SchedulerOp.apply_cases with
  | addNode id =>
    exact h.addNode fun h0 => hop (congrArg _ h0)
  | maybeSetWeight id weight t err heq hcall =>
    exact (hrule.maybeSetWeight ⟨rfl, h⟩ hcall).2
  | maybeSetParent childID parentID exclusive t err heq hcall =>
    exact (hrule.maybeSetParent h.known h.parent_lt ⟨rfl, h⟩ hcall).2
  | setActive id t err heq hcall =>
    exact h.setActive hcall
  | schedule view strm t heq hcall =>
    exact (StreamScheduler.scheduleRule_rooted view).traverse h trivial hcall

/-- Every run keeps the root apart from the streams, as long as stream 0 is not opened. No peer can
open it: a client takes its identifier for one that has been used. -/
theorem SchedulerRun.rooted {ops : List SchedulerOp} (hops : SchedulerOp.addNode 0 ∉ ops)
    {s : StreamScheduler} (hs : run ops = some s) : Rooted s := by
  have hinv : ∀ {ops : List SchedulerOp} {o : Option StreamScheduler}, .addNode 0 ∉ ops →
      (∀ s ∈ o, Rooted s) → ∀ s ∈ ops.foldl step o, Rooted s := by
    intro ops
    induction ops with
    | nil => exact fun _ ho => ho
    | cons op ops ih =>
      intro o hops ho
      refine ih (fun hmem => hops (List.mem_cons_of_mem _ hmem)) fun s' hs' => ?_
      obtain ⟨s, hs, heq⟩ := Option.bind_eq_some_iff.mp hs'
      refine SchedulerOp.rooted_apply (ho s hs) (fun h0 => hops ?_) heq
      rw [h0]
      exact List.mem_cons_self
  refine hinv hops ?_ s hs
  rintro s ⟨⟩
  exact StreamScheduler.rooted_new

open SchedulerRun (run)
open SchedulerOp

/-- **A dependency on the root is accepted only where it changes nothing:** in the state of every
run that does not open stream 0, making the known stream `c` depend on the header stream or on
stream 0 succeeds and leaves `c` below the root if and only if the dependency is not exclusive and
`c` is below the root already. -/
theorem maybeSetParent_root_iff {ops : List SchedulerOp} (hops : addNode 0 ∉ ops)
    {s : StreamScheduler} (hs : run ops = some s) {c n : ℕ} (hc : c ≠ 3)
    (hn : s.nodeMap c = some n) {dependency : ℕ} (hdep : dependency = 3 ∨ dependency = 0)
    (e : Bool) :
    (∃ s', s.maybeSetParent c dependency e = some (s', none) ∧ (s'.node n).parent = some 0) ↔
      e = false ∧ (s.node n).parent = some 0 := by
  have hrooted := SchedulerRun.rooted hops hs
  have h0 : c ≠ 0 := by
    rintro rfl
    rw [hrooted.unnamed] at hn
    cases hn
  have h1 : c ≠ 1 := by
    rintro rfl
    rw [hrooted.crypto] at hn
    cases hn
  have hself : c ≠ dependency := by
    rcases hdep with rfl | rfl
    · exact hc
    · exact h0
  have hcrypto : dependency ≠ 1 := by omega
  have hrewrite : (if dependency = 3 then 0 else dependency) = 0 := by
    rcases hdep with rfl | rfl <;> rfl
  -- the early exit is taken below the root only
  have hexit : ((s.node n).parent.map fun p => (s.node p).id) = some 0 ↔
      (s.node n).parent = some 0 := by
    constructor
    · intro h
      obtain ⟨p, hp, hid⟩ := Option.map_eq_some_iff.mp h
      rw [hp, hrooted.eq_zero_of_id (hrooted.parent_lt n p hp) hid]
    · intro h
      rw [h, Option.map_some, hrooted.root_id]
  unfold StreamScheduler.maybeSetParent
  rw [if_neg hself, if_neg h1, if_neg hc, if_neg hcrypto, hrewrite, hn]
  dsimp only
  rw [hrooted.unnamed]
  split
  · next h =>
    rw [hexit] at h
    exact ⟨fun _ => h, fun h => ⟨s, rfl, h.2⟩⟩
  · next h =>
    rw [hexit] at h
    refine ⟨?_, fun h' => absurd h' h⟩
    rintro ⟨s', heq, -⟩
    cases heq

theorem dependent_five_root :
    ∃ s, run dependent = some s ∧
      ∃ s', s.maybeSetParent 5 0 false = some (s', none) ∧ (s'.node 1).parent = some 0 := by
  obtain ⟨s, hs, hmap, hparent⟩ : ∃ s ∈ run dependent, s.nodeMap 5 = some 1 ∧
      (s.node 1).parent = some 0 := by
    decide +kernel
  have hops : addNode 0 ∉ dependent := by simp [dependent]
  exact ⟨s, hs, (maybeSetParent_root_iff hops hs (by decide) hmap (.inr rfl) false).mpr
    ⟨rfl, hparent⟩⟩

/-- **Stream 7 cannot be moved to the root,** and stream 5 cannot become its exclusive child. -/
theorem dependent_refused :
    ∃ s, run dependent = some s ∧ s.nodeMap 7 = some 2 ∧
      (∀ dependency ∈ [3, 0], ∀ e, (s.maybeSetParent 7 dependency e).map Prod.snd =
        some (some (.unknownParent 7 0))) ∧
      ∀ dependency ∈ [3, 0], (s.maybeSetParent 5 dependency true).map Prod.snd =
        some (some (.unknownParent 5 0)) := by
  show ∃ s ∈ run dependent, _
  decide +kernel

end MultipathQuic
