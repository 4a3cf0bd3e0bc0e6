import MultipathQuic.Scheduler.Membership
import MultipathQuic.Scheduler.Search
import MultipathQuic.Scheduler.Updates

/-!
# Shares of the bandwidth

On its way from the root to the stream that it returns, `traverse` multiplies the weights of the
nodes into `numerator`, and the weights of the children of their parents into `denominator`. It may
come to other nodes before, and finished streams may leave the tree on these occasions; but what
happens in one branch of the tree does not reach the nodes outside of it as long as the branch keeps
its place. So when `traverse` is done, the two fields of every node on the way are the products of
the tree as it is then.
-/

namespace MultipathQuic

open Function Forest

namespace StreamScheduler

variable {view : ℕ → StreamView} {s s' s₀ t t' u : StreamScheduler} {n p q c x y a m fuel : ℕ}

/-! ## Branches -/

/-- From `s₀` to `s`, nodes outside of the branch of `n` have kept all but their place in the round
robin, and lists have only become shorter. -/
structure Outside (s₀ : StreamScheduler) (n : ℕ) (s : StreamScheduler) : Prop where
  parent_eq : s.parent = s₀.parent
  subset : ∀ x, (s.node x).children ⊆ (s₀.node x).children
  own_eq : ∀ x, ¬ Above s₀.parent n x → (s.node x).own = (s₀.node x).own

namespace Outside

theorem refl (s : StreamScheduler) (n : ℕ) : Outside s n s :=
  ⟨rfl, fun _ => List.Subset.refl _, fun _ _ => rfl⟩

theorem state_eq (h : Outside s₀ n s) (hx : ¬ Above s₀.parent n x) :
    (s.node x).state = (s₀.node x).state :=
  (congrArg Node.state (h.own_eq x hx) : _)

theorem numerator_eq (h : Outside s₀ n s) (hx : ¬ Above s₀.parent n x) :
    (s.node x).numerator = (s₀.node x).numerator :=
  (congrArg Node.numerator (h.own_eq x hx) : _)

theorem denominator_eq (h : Outside s₀ n s) (hx : ¬ Above s₀.parent n x) :
    (s.node x).denominator = (s₀.node x).denominator :=
  (congrArg Node.denominator (h.own_eq x hx) : _)

/-- A change of a node of the branch, or one that does not matter. -/
theorem modify (h : Outside s₀ n s) {f : Node → Node}
    (hparent : (f (s.node a)).parent = (s.node a).parent)
    (hsub : (f (s.node a)).children ⊆ (s.node a).children)
    (hown : ¬ Above s₀.parent n a → (f (s.node a)).own = (s.node a).own) :
    Outside s₀ n (s.modify a f) where
  parent_eq := (parent_modify hparent).trans h.parent_eq
  subset x := by
    by_cases hx : x = a
    · subst hx
      rw [modify_node_self]
      exact List.Subset.trans hsub (h.subset x)
    · rw [modify_node_of_ne hx]
      exact h.subset x
  own_eq x hxn := by
    by_cases hx : x = a
    · subst hx
      rw [modify_node_self, hown hxn]
      exact h.own_eq x hxn
    · rw [modify_node_of_ne hx]
      exact h.own_eq x hxn

end Outside

/-- `traverse` does not leave the branch where it starts. -/
theorem scheduleRule_outside (view : ℕ → StreamView) (hw : Wired s₀) (n : ℕ) :
    ScheduleRule view (Above s₀.parent n) (Outside s₀ n) where
  child := fun h hx hc => hx.trans (above_parent (hw.parent_of_mem (h.subset _ hc)))
  refresh := by
    intro s x h hx
    refine h.modify ?_ (List.Perm.of_eq ?_).subset fun hnot => absurd hx hnot <;>
    · dsimp only
      split_ifs <;> split <;> rfl
  count := fun hf h => h.modify (congrArg Node.parent hf : _)
    (List.Perm.of_eq (congrArg Node.children hf : _)).subset
    fun _ => Node.own_eq_of_uncounted_eq hf
  drop := by
    intro s x c _ h
    unfold dropChild
    refine h.modify ?_ ?_ fun _ => ?_
    · rfl
    · exact (List.eraseIdx_sublist _ _).subset
    · simp only [Node.own]
  close := by
    intro s x h hx _
    have h' : Outside s₀ n { s with openStreams := s.openStreams - 1 } :=
      ⟨h.parent_eq, h.subset, h.own_eq⟩
    exact h'.modify rfl (List.Subset.refl _) fun hnot => absurd hx hnot

/-- A branch that keeps its place leaves the nodes outside in the tree. -/
theorem Tree.attached_outside (h : Tree s) (h' : Tree t) (hprune : Prunes view s t)
    (hout : Outside s n t) (hatt : t.attached n) (hx : ¬ Above s.parent n x) :
    t.attached x ↔ s.attached x := by
  refine ⟨hprune.attached h.toWired h'.toWired, fun hsx => ?_⟩
  by_cases hxn : Above s.parent x n
  · refine h'.toWired.attached_of_above hatt ?_
    rwa [hprune.parent_eq]
  · -- the active node below `x` is outside as well
    obtain ⟨y, hy, hxy⟩ := h.toWired.exists_active hsx
    have hny : ¬ Above s.parent n y := by
      intro hny
      rcases hny.total hxy with hxn' | hnx
      · exact hxn hxn'
      · exact hx hnx
    rw [← hout.state_eq hny] at hy
    refine h'.toWired.attached_iff.mpr ⟨y, hy, ?_⟩
    rwa [hprune.parent_eq]

/-- **A branch that keeps its place leaves the weights outside alone.** -/
theorem Tree.childrensWeight_eq (h : Tree s) (h' : Tree t) (hprune : Prunes view s t)
    (hout : Outside s n t) (hatt : t.attached n) (hx : ¬ Above s.parent n x) :
    (t.node x).childrensWeight = (s.node x).childrensWeight := by
  have hmem : ∀ c, c ∈ (t.node x).children ↔ c ∈ (s.node x).children := by
    intro c
    rw [h'.toWired.mem_iff, h.toWired.mem_iff, hprune.parent_eq]
    refine and_congr_left fun hc => ?_
    by_cases hcn : c = n
    · subst hcn
      exact iff_of_true hatt (hprune.attached h.toWired h'.toWired hatt)
    · refine h.attached_outside h' hprune hout hatt fun hnc => ?_
      exact hx (hnc.above_parent_of_ne (Ne.symm hcn) hc)
  have hlen : (t.node x).children.length = (s.node x).children.length :=
    ((List.perm_ext_iff_of_nodup (h'.listing.nodup x) (h.listing.nodup x)).mpr hmem).length_eq
  rcases hprune.shrinks x with hsame | hlt
  · exact hsame.2
  · omega

/-! ## Shares on the way -/

/-- `traverse`, from `n` on, has found `m`, a node of the tree with a stream: `n` has the share that
it got at the start, and the other nodes on the way have the share of their parent times their own.
Nodes outside of the branch of `n` keep their shares. -/
structure Shares (s t : StreamScheduler) (n m : ℕ) : Prop where
  above : Above s.parent n m
  picked : m = 0 ∨ t.attached m
  stream : (t.node m).stream ≠ none
  numerator_self : (t.node n).numerator = ((s.refresh n).node n).numerator
  denominator_self : (t.node n).denominator = ((s.refresh n).node n).denominator
  numerator_below : ∀ {x p}, s.parent x = some p → Above s.parent n p → Above s.parent x m →
    (t.node x).numerator = mul64 ((t.node x).weight + 1).toNat (t.node p).numerator
  denominator_below : ∀ {x p}, s.parent x = some p → Above s.parent n p → Above s.parent x m →
    (t.node x).denominator = mul64 (t.node p).childrensWeight (t.node p).denominator

/-- The counters of the round robin do not matter. -/
theorem Shares.recount (h : Shares s t n m)
    (hcount : ∀ x, (t'.node x).uncounted = (t.node x).uncounted) : Shares s t' n m := by
  have hfield : ∀ {β : Type} (g : Node → β), (∀ node : Node, g node = g node.uncounted) → ∀ x,
      g (t'.node x) = g (t.node x) := by
    intro β g hg x
    rw [hg, hcount, ← hg]
  have hnum := hfield Node.numerator fun _ => rfl
  have hden := hfield Node.denominator fun _ => rfl
  refine ⟨h.above, h.picked.imp_right fun hatt => ?_, ?_, ?_, ?_, fun hp hn hm => ?_,
    fun hp hn hm => ?_⟩
  · unfold attached
    rw [hfield Node.state fun _ => rfl, hfield Node.activeChildren fun _ => rfl]
    exact hatt
  · rw [hfield Node.stream fun _ => rfl]
    exact h.stream
  · rw [hnum, h.numerator_self]
  · rw [hden, h.denominator_self]
  · rw [hnum, hnum, hfield Node.weight fun _ => rfl]
    exact h.numerator_below hp hn hm
  · rw [hden, hden, hfield Node.childrensWeight fun _ => rfl]
    exact h.denominator_below hp hn hm

theorem uncounted_spend (s : StreamScheduler) (n x : ℕ) :
    ((s.spend n).node x).uncounted = (s.node x).uncounted :=
  modify_field Node.uncounted (Node.uncounted_setQuantum _ _) x

theorem uncounted_turn {strm : Option ℕ} (h : s.turn strm n = some s') (x : ℕ) :
    (s'.node x).uncounted = (s.node x).uncounted := by
  have hmodify : ∀ {u : StreamScheduler} {a : ℕ} {f : Node → Node},
      (f (u.node a)).uncounted = (u.node a).uncounted →
        (u.node x).uncounted = (s.node x).uncounted →
          ((u.modify a f).node x).uncounted = (s.node x).uncounted := by
    intro u a f hf hu
    exact (modify_field Node.uncounted hf x).trans hu
  unfold StreamScheduler.turn at h
  split at h
  · cases h
    rfl
  · split at h
    · exact advance_induction (P := fun u => (u.node x).uncounted = (s.node x).uncounted) hmodify
        rfl h
    · cases h
      rfl

/-- The node where `traverse` starts is the one that it returns. -/
theorem shares_self (h : Tree s) (hatt : n = 0 ∨ s.attached n) (hstream : (s.node n).stream ≠ none) :
    Shares s (s.refresh n) n n := by
  have hshape := sameShape_refresh s n
  have hbelow : ∀ {x p}, s.parent x = some p → Above s.parent n p → ¬ Above s.parent x n :=
    fun hp hn hx => h.forest.acyclic hp (hx.trans hn)
  refine ⟨Above.refl n, ?_, ?_, rfl, rfl, fun hp hn hx => absurd hx (hbelow hp hn),
    fun hp hn hx => absurd hx (hbelow hp hn)⟩
  · rwa [hshape.attached_iff]
  · rwa [hshape.stream_eq]

theorem numerator_refresh (s : StreamScheduler) (hp : s.parent n = some p) :
    ((s.refresh n).node n).numerator =
      mul64 ((s.node n).weight + 1).toNat (s.node p).numerator := by
  have hp' : (s.node n).parent = some p := hp
  unfold StreamScheduler.refresh
  rw [modify_node_self]
  split_ifs <;> simp only [hp']

theorem denominator_refresh (s : StreamScheduler) (hp : s.parent n = some p) :
    ((s.refresh n).node n).denominator =
      mul64 (s.node p).childrensWeight (s.node p).denominator := by
  have hp' : (s.node n).parent = some p := hp
  unfold StreamScheduler.refresh
  rw [modify_node_self]
  split_ifs <;> simp only [hp']

/-- What a child of `n` has found, `n` has found. -/
theorem Shares.up (hs : Tree s) (hu : Tree u) (ht : Tree t) (hprune : Prunes view u t)
    (hout : Outside u c t) (hc : s.parent c = some n) (hparent : u.parent = s.parent)
    (hnum : (u.node n).numerator = ((s.refresh n).node n).numerator)
    (hden : (u.node n).denominator = ((s.refresh n).node n).denominator) (h : Shares u t c m) :
    Shares s t n m := by
  have hcm : Above s.parent c m := hparent ▸ h.above
  have hcu : u.parent c = some n := hparent ▸ hc
  have hn : ¬ Above u.parent c n := hu.forest.acyclic hcu
  have hm0 : m ≠ 0 := by
    rintro rfl
    exact hs.ne_zero hc (eq_of_above_of_none hs.root hcm)
  have hattc : t.attached c := by
    refine ht.toWired.attached_of_above (h.picked.resolve_left hm0) ?_
    rwa [hprune.parent_eq, hparent]
  have hweight := hu.childrensWeight_eq ht hprune hout hattc hn
  refine ⟨(above_parent hc).trans hcm, h.picked, h.stream, ?_, ?_, fun {x p} hp hnp hxm => ?_,
    fun {x p} hp hnp hxm => ?_⟩
  · rw [hout.numerator_eq hn, hnum]
  · rw [hout.denominator_eq hn, hden]
  · rcases hs.toWired.eq_or_above hc hcm hnp ((above_parent hp).trans hxm) with rfl | hcp
    · have hxc := hs.forest.eq_of_above hp hc hxm hcm
      subst hxc
      rw [h.numerator_self, numerator_refresh u hcu, hout.numerator_eq hn, hprune.weight_eq]
    · rw [← hparent] at hp hcp hxm
      exact h.numerator_below hp hcp hxm
  · rcases hs.toWired.eq_or_above hc hcm hnp ((above_parent hp).trans hxm) with rfl | hcp
    · have hxc := hs.forest.eq_of_above hp hc hxm hcm
      subst hxc
      rw [h.denominator_self, denominator_refresh u hcu, hout.denominator_eq hn, hweight]
    · rw [← hparent] at hp hcp hxm
      exact h.denominator_below hp hcp hxm

/-- The loop over the children, from a state on in which `n` still has the share that it got at the
start. -/
theorem Tree.visitChildren_shares
    {visit : StreamScheduler → ℕ → Option (Option ℕ × StreamScheduler)} (hs : Tree s)
    (hvisit : ∀ u c, Tree u → Prunes view (s.refresh n) u → c ∈ (u.node n).children → ∃ r t,
      visit u c = some (r, t) ∧ Pruned view u t ∧ Outside u c t ∧ ∀ m, r = some m → Shares u t c m)
    {rounds i : ℕ} (hu : Tree u) (hprune : Prunes view (s.refresh n) u)
    (hnum : (u.node n).numerator = ((s.refresh n).node n).numerator)
    (hden : (u.node n).denominator = ((s.refresh n).node n).denominator)
    (heq : StreamScheduler.visitChildren visit n rounds i u = some (some m, t)) :
    Shares s t n m := by
  induction rounds generalizing u i with
  | zero =>
    rw [StreamScheduler.visitChildren] at heq
    split at heq
    · cases heq
    · cases heq
  | succ rounds ih =>
    rw [StreamScheduler.visitChildren] at heq
    split at heq
    · obtain ⟨c, hc, heq⟩ := Option.bind_eq_some_iff.mp heq
      have hmem := List.mem_of_getElem? hc
      have hcu : u.parent c = some n := hu.toWired.parent_of_mem hmem
      have hn : ¬ Above u.parent c n := hu.forest.acyclic hcu
      obtain ⟨r, u', hcall, ⟨hu', hprune'⟩, hout, hshares⟩ := hvisit u c hu hprune hmem
      rw [hcall, Option.bind_eq_bind, Option.bind_some] at heq
      dsimp only at heq
      split at heq
      · cases heq
        have hparent : u.parent = s.parent :=
          hprune.parent_eq.trans (sameShape_refresh s n).parent_eq
        have hup := (hshares m rfl).up hs hu hu' hprune' hout (hparent ▸ hcu) hparent hnum hden
        exact hup.recount (uncounted_spend u' n)
      · refine ih hu' (hprune.trans hprune') ?_ ?_ heq
        · rw [hout.numerator_eq hn, hnum]
        · rw [hout.denominator_eq hn, hden]
    · cases heq

/-- **`traverse` computes the shares on the way to the node that it returns.** -/
theorem Tree.shares (h : Tree s) (hcalm : Calm view s)
    (hpass : ∀ p, s.parent n = some p → Passed view s p) (hatt : n ≠ 0 → s.attached n)
    (hfuel : s.size < rank s.parent s.pointers n + fuel)
    (heq : StreamScheduler.traverse view fuel s n = some (some m, t)) : Shares s t n m := by
  induction fuel generalizing s n m t with
  | zero => cases heq
  | succ fuel ih =>
    obtain ⟨h₀, hprune₀⟩ : Pruned view s (s.refresh n) := h.refresh n
    have hshape := sameShape_refresh s n
    have hpos := quantum_refresh_pos s n
    have hself : (s.refresh n).hasWindow view n → Shares s (s.refresh n) n n := by
      rintro ⟨id, hid, -⟩
      refine shares_self h (or_iff_not_imp_left.mpr hatt) ?_
      rw [← hshape.stream_eq, hid]
      exact Option.some_ne_none id
    rcases traverse_cases heq with ⟨-, hnone, -⟩ | ⟨hfin, u, hturn, hcases⟩
    · cases hnone
    refine Shares.recount ?_ (uncounted_turn hturn)
    rcases hcases with ⟨heq, -, -, hwindow, rfl⟩ | ⟨heq, -, -, hwindow, rfl⟩ |
      ⟨hheader, hstream, hvisit⟩ | ⟨hnone, -⟩
    · cases heq
      exact hself hwindow
    · cases heq
      exact (hself hwindow).recount (uncounted_spend _ n)
    · -- the node itself is not chosen, so a child returns the stream
      have hpass₀ : ∀ p, (s.refresh n).parent n = some p → Passed view (s.refresh n) p := by
        intro p hp
        rw [hprune₀.parent_eq] at hp
        exact (hpass p hp).of_prunes hprune₀
      have hpassn : Passed view (s.refresh n) n :=
        Passed.of_not_chosen hpass₀ hfin hheader hstream hpos
      have hcalm₀ := hcalm.of_prunes h.toWired h₀.toWired hprune₀
      have hstart : Prunes view (s.refresh n) (s.refresh n) := Prunes.rfl
      refine h.visitChildren_shares (fun u c hu hprune hc => ?_) h₀ hstart rfl rfl hvisit
      obtain ⟨hattc, hcn⟩ := hu.toWired.mem_iff.mp hc
      have hcalmu := hcalm₀.of_prunes h₀.toWired hu.toWired hprune
      have hpassc : ∀ p, u.parent c = some p → Passed view u p := by
        intro p hp
        rw [hcn] at hp
        cases hp
        exact hpassn.of_prunes hprune
      have hrank : u.size < rank u.parent u.pointers c + fuel := by
        have hlt := hu.forest.rank_lt hcn
        rw [hprune.parent_eq, hprune₀.parent_eq, pointers, hprune.size_eq] at hlt ⊢
        change rank s.parent s.pointers n < rank s.parent s.pointers c at hlt
        change s.size < rank s.parent s.pointers c + fuel
        omega
      obtain ⟨r, t', hcall, ht'⟩ := hu.traverse hcalmu hpassc (fun _ => hattc) hrank
      refine ⟨r, t', hcall, ht', (scheduleRule_outside view hu.toWired c).traverse
        (Outside.refl u c) (Above.refl c) hcall, fun m hr => ?_⟩
      subst hr
      exact ih hu hcalmu hpassc (fun _ => hattc) hrank hcall
    · cases hnone

end StreamScheduler

end MultipathQuic
