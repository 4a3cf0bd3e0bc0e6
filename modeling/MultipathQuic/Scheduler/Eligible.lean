import MultipathQuic.Scheduler.Membership
import MultipathQuic.Scheduler.Search
import MultipathQuic.Scheduler.Updates

/-!
# Streams that can send

A finished stream that `traverse` meets is taken out of the list of its parent, and the visit counts
as a round of the loop over that list, which has become shorter: a sibling gets no visit in this
call. So `schedule` may return no stream although there is one that can send. It does find one if the
first stream that can send comes before all finished ones, in the order in which `traverse` visits
the nodes.

## Main definitions

* `eligible`: the streams that can send
* `precedes`, `ReadyFirst`: the order of the visits

## Main results

* `schedule_eq_none`: none is returned only if no stream can send
-/

namespace MultipathQuic

open Function Forest Relation

namespace StreamScheduler

variable {view : ℕ → StreamView} {s s' u : StreamScheduler} {n p c d r f m x fuel : ℕ}

/-- The stream of the node is unfinished, it may send, and it is active; the header stream has
data. -/
def eligible (s : StreamScheduler) (view : ℕ → StreamView) (n : ℕ) : Prop :=
  ¬ s.finished view n ∧ s.hasWindow view n ∧
    if (s.node n).id = 0 then s.hasData view n else (s.node n).state = .active

instance (s : StreamScheduler) (view : ℕ → StreamView) : DecidablePred (s.eligible view) :=
  fun _ => inferInstanceAs (Decidable (_ ∧ _))

/-- `traverse` visits `r` before `f`: `f` is below `r`, or where the ways to the two part, the way to
`r` is the first one in the ring. -/
def precedes (s : StreamScheduler) (r f : ℕ) : Prop :=
  (r ∈ s.path f ∧ r ≠ f) ∨
    ∃ p < s.size, ∃ c ∈ s.path r, ∃ d ∈ s.path f, List.Sublist [c, d] (s.ring p)

instance (s : StreamScheduler) (r f : ℕ) : Decidable (s.precedes r f) :=
  inferInstanceAs (Decidable (_ ∨ _))

/-- If a stream of the tree can send, then one that can comes before all finished ones. -/
def ReadyFirst (view : ℕ → StreamView) (s : StreamScheduler) : Prop :=
  (∃ n < s.size, (n = 0 ∨ s.attached n) ∧ s.eligible view n) →
    ∃ r < s.size, s.ready view r ∧
      ∀ f < s.size, f = 0 ∨ s.attached f → s.finished view f → s.precedes r f

instance (view : ℕ → StreamView) (s : StreamScheduler) : Decidable (ReadyFirst view s) :=
  inferInstanceAs (Decidable (_ → _))

/-! ## What is returned -/

theorem eligible_modify {g : Node → Node} (hg : (g (s.node n)).uncounted = (s.node n).uncounted)
    (h : s.eligible view m) : (s.modify n g).eligible view m := by
  unfold eligible finished hasWindow hasData at h ⊢
  rwa [modify_field Node.id (congrArg Node.id hg : _) m,
    modify_field Node.state (congrArg Node.state hg : _) m,
    modify_field Node.stream (congrArg Node.stream hg : _) m]

theorem visitChildren_eligible {visit : StreamScheduler → ℕ → Option (Option ℕ × StreamScheduler)}
    (hvisit : ∀ {s c m s'}, visit s c = some (some m, s') → s'.eligible view m) {rounds i : ℕ}
    (h : visitChildren visit n rounds i s = some (some m, s')) : s'.eligible view m := by
  induction rounds generalizing s i with
  | zero =>
    rw [visitChildren] at h
    split at h <;> cases h
  | succ rounds ih =>
    rw [visitChildren] at h
    split at h
    · obtain ⟨c, -, h⟩ := Option.bind_eq_some_iff.mp h
      obtain ⟨⟨strm, s₁⟩, hchild, h⟩ := Option.bind_eq_some_iff.mp h
      dsimp only at h
      split at h
      · cases h
        exact eligible_modify (Node.uncounted_setQuantum _ _) (hvisit hchild)
      · exact ih h
    · cases h

/-- **What `traverse` returns can send.** -/
theorem traverse_eligible (h : traverse view fuel s n = some (some m, s')) :
    s'.eligible view m := by
  induction fuel generalizing s n m s' with
  | zero => cases h
  | succ fuel ih =>
    rcases traverse_cases h with ⟨-, hnone, -⟩ | ⟨hfin, s₁, hturn, hcases⟩
    · cases hnone
    have h₁ : s₁.eligible view m := by
      rcases hcases with ⟨heq, hid, hdata, hwindow, rfl⟩ | ⟨heq, hid, hactive, hwindow, rfl⟩ |
        ⟨-, -, hvisit⟩ | ⟨hnone, -⟩
      · cases heq
        exact ⟨hfin, hwindow, by rwa [if_pos hid]⟩
      · cases heq
        refine eligible_modify (Node.uncounted_setQuantum _ _) ⟨hfin, hwindow, ?_⟩
        rwa [if_neg hid]
      · exact visitChildren_eligible ih hvisit
      · cases hnone
    -- turning to the next child does not matter
    unfold StreamScheduler.turn at hturn
    split at hturn
    · cases hturn
      exact h₁
    split at hturn
    · exact advance_induction (P := fun s => s.eligible view m) eligible_modify h₁ hturn
    · cases hturn
      exact h₁

/-! ## The order of the visits -/

/-- The part of the order that the rings decide. -/
def Parted (s : StreamScheduler) (r f : ℕ) : Prop :=
  ∃ p c d, Above s.parent c r ∧ Above s.parent d f ∧ List.Sublist [c, d] (s.ring p)

theorem Wired.precedes_cases (h : Wired s) (hrf : s.precedes r f) :
    Above s.parent r f ∧ r ≠ f ∨ s.Parted r f := by
  rcases hrf with ⟨hmem, hne⟩ | ⟨p, -, c, hc, d, hd, hsub⟩
  · exact Or.inl ⟨h.mem_path.mp hmem, hne⟩
  · exact Or.inr ⟨p, c, d, h.mem_path.mp hc, h.mem_path.mp hd, hsub⟩

theorem Wired.precedes_of_cases (h : Wired s) (hrf : Above s.parent r f ∧ r ≠ f ∨ s.Parted r f) :
    s.precedes r f := by
  rcases hrf with ⟨hrf, hne⟩ | ⟨p, c, d, hcr, hdf, hsub⟩
  · exact Or.inl ⟨h.mem_path.mpr hrf, hne⟩
  · have hc : s.parent c = some p := h.parent_of_ring (hsub.subset List.mem_cons_self)
    exact Or.inr ⟨p, (h.lt_size hc).2, c, h.mem_path.mpr hcr, d, h.mem_path.mpr hdf, hsub⟩

theorem Wired.nodup_ring (h : Wired s) (p : ℕ) : (s.ring p).Nodup :=
  List.nodup_rotate.mpr (h.listing.nodup p)

/-- A child that is visited before `c` is another one. -/
theorem Wired.visited_before (h : Wired s) {before after : List ℕ}
    (hring : s.ring n = before ++ c :: after) (hd : d ∈ before) : s.parent d = some n ∧ c ≠ d := by
  have hnodup := h.nodup_ring n
  rw [hring] at hnodup
  constructor
  · refine h.parent_of_ring ?_
    rw [hring]
    exact List.mem_append_left _ hd
  · rintro rfl
    exact List.disjoint_of_nodup_append hnodup hd List.mem_cons_self

/-- Where ways part, two children of one node go separate ways. -/
theorem Wired.of_sublist (h : Wired s) (hsub : List.Sublist [c, d] (s.ring p)) :
    s.parent c = some p ∧ s.parent d = some p ∧ c ≠ d := by
  have hmem : ∀ x ∈ [c, d], s.parent x = some p := fun x hx => h.parent_of_ring (hsub.subset hx)
  have hnodup := hsub.nodup (h.nodup_ring p)
  simp only [List.nodup_cons, List.mem_singleton] at hnodup
  exact ⟨hmem c (by simp), hmem d (by simp), hnodup.1⟩

/-- Ways to a node and to one above it do not part. -/
theorem Wired.not_parted (h : Wired s) (hfr : Above s.parent f r) : ¬ s.Parted r f := by
  rintro ⟨p, c, d, hcr, hdf, hsub⟩
  obtain ⟨hc, hd, hne⟩ := h.of_sublist hsub
  exact hne (h.forest.eq_of_above hc hd hcr (hdf.trans hfr))

/-- Of two members of a list, the first one comes before the second one. -/
theorem mem_of_sublist_pair {l l' : List ℕ} (hnodup : (l ++ d :: l').Nodup)
    (hsub : List.Sublist [c, d] (l ++ d :: l')) : c ∈ l := by
  obtain ⟨l₁, l₂, heq, hl₁, hl₂⟩ := List.sublist_append_iff.mp hsub
  cases l₁ with
  | nil =>
    rw [List.nil_append] at heq
    rw [← heq] at hl₂
    have hd : d ∈ l' := hl₂.tail.subset List.mem_cons_self
    exact absurd hd (List.nodup_cons.mp hnodup.of_append_right).1
  | cons y l₁ =>
    rw [List.cons_append, List.cons.injEq] at heq
    rw [heq.1]
    exact hl₁.subset List.mem_cons_self

/-- Every node from `n` downwards with the property `G` is visited after `r`. -/
def FirstFor (G : ℕ → Prop) (s : StreamScheduler) (n r : ℕ) : Prop :=
  ∀ f, Above s.parent n f → G f → Above s.parent r f ∧ r ≠ f ∨ s.Parted r f

/-- Every finished stream from `n` downwards is visited after `r`. -/
def First (view : ℕ → StreamView) (s : StreamScheduler) (n r : ℕ) : Prop :=
  ∀ f, Above s.parent n f → f = 0 ∨ s.attached f → s.finished view f →
    Above s.parent r f ∧ r ≠ f ∨ s.Parted r f

theorem First.firstFor (h : First view s n r) :
    FirstFor (fun f => (f = 0 ∨ s.attached f) ∧ s.finished view f) s n r :=
  fun f hf hG => h f hf hG.1 hG.2

/-- A node above the first one does not have the property. -/
theorem FirstFor.not_above {G : ℕ → Prop} (h : FirstFor G s n r) (hw : Wired s)
    (hnr : Above s.parent n r) : ¬ G n := by
  intro hG
  rcases h n (Above.refl n) hG with ⟨hrn, hne⟩ | hparted
  · exact hne (hw.forest.antisymm hrn hnr)
  · exact hw.not_parted hnr hparted

/-- The children that are visited before the way to `r` have no such node below them. -/
theorem FirstFor.not_before {G : ℕ → Prop} (h : FirstFor G s n r) (hw : Wired s)
    (hc : s.parent c = some n) (hcr : Above s.parent c r) {before after : List ℕ}
    (hring : s.ring n = before ++ c :: after) (hd : d ∈ before) (hdf : Above s.parent d f) :
    ¬ G f := by
  intro hG
  have hnodup := hw.nodup_ring n
  rw [hring] at hnodup
  obtain ⟨hdn, hne⟩ := hw.visited_before hring hd
  rcases h f ((above_parent hdn).trans hdf) hG with
    ⟨hrf, -⟩ | ⟨p, c', d', hcr', hdf', hsub⟩
  · exact hne (hw.forest.eq_of_above hc hdn (hcr.trans hrf) hdf)
  · -- the ways part at `n`, where `d` comes first
    obtain ⟨hc', hd', hne'⟩ := hw.of_sublist hsub
    obtain ⟨rfl, rfl⟩ :=
      hw.forest.parting_unique hc hdn hne hcr hdf hc' hd' hne' hcr' hdf'
    have hp : p = n := Option.some.inj (hc'.symm.trans hc)
    subst hp
    obtain ⟨l, l', rfl⟩ := List.append_of_mem hd
    rw [List.append_assoc, List.cons_append] at hring hnodup
    rw [hring] at hsub
    exact List.disjoint_of_nodup_append hnodup (mem_of_sublist_pair hnodup hsub) (by simp)

/-- Below the child on the way to `r`, nothing has changed when `traverse` comes to it. -/
theorem FirstFor.child {G : ℕ → Prop} (h : FirstFor G s n r) (hw : Wired s)
    (hc : s.parent c = some n) (hcr : Above s.parent c r) (hloop : Loops view s u n) :
    FirstFor G u c r := by
  intro f hcf hG
  rw [hloop.parent_eq] at hcf
  rw [hloop.parent_eq]
  refine (h f ((above_parent hc).trans hcf) hG).imp_right ?_
  rintro ⟨p, c', d', hcr', hdf', hsub⟩
  obtain ⟨hc', hd', hne'⟩ := hw.of_sublist hsub
  have hpn : p ≠ n := by
    rintro rfl
    exact hne' ((hw.forest.eq_of_above hc' hc hcr' hcr).trans
      (hw.forest.eq_of_above hc hd' hcf hdf'))
  refine ⟨p, c', d', ?_, ?_, ?_⟩
  · rwa [hloop.parent_eq]
  · rwa [hloop.parent_eq]
  · rwa [hloop.ring_of_ne p hpn]

/-- A node above the first stream is not finished. -/
theorem First.not_finished (h : First view s n r) (hw : Wired s) (hnr : Above s.parent n r)
    (hatt : n = 0 ∨ s.attached n) : ¬ s.finished view n :=
  fun hfin => h.firstFor.not_above hw hnr ⟨hatt, hfin⟩

/-- The children that are visited before the way to `r` have no finished stream below them. -/
theorem First.lasts (h : First view s n r) (hw : Wired s) (hc : s.parent c = some n)
    (hcr : Above s.parent c r) {before after : List ℕ} (hring : s.ring n = before ++ c :: after)
    (hd : d ∈ before) : Lasts view s d :=
  fun _ hdf hatt hfin => h.firstFor.not_before hw hc hcr hring hd hdf ⟨hatt, hfin⟩

theorem First.child (h : First view s n r) (hw : Wired s) (hc : s.parent c = some n)
    (hcr : Above s.parent c r) (hloop : Loops view s u n) : First view u c r := by
  intro f hcf hatt hfin
  rw [hloop.attached_iff] at hatt
  rw [hloop.finished_iff] at hfin
  exact h.firstFor.child hw hc hcr hloop f hcf ⟨hatt, hfin⟩

/-! ## The first stream is found -/

/-- The loop over the children finds a stream if the visit of `c` does, and the visits before it are
searches. -/
theorem visitChildren_first {visit : StreamScheduler → ℕ → Option (Option ℕ × StreamScheduler)}
    (hs : Tree s) (hnot : ¬ s.ready view n) {before after : List ℕ}
    (hring : s.ring n = before ++ c :: after) (hlasts : ∀ d ∈ before, Lasts view s d)
    (hvisit : ∀ u d, Tree u → SameShape s u → d ∈ before → Searches view u d (visit u d))
    (hfind : ∀ u, Tree u → Loops view s u n → ∃ m t, Tree t ∧ Found view u t c m ∧
      ¬ u.finished view m ∧ visit u c = (t.turn (some m) c).map (Prod.mk (some m))) :
    ∃ m t, Tree t ∧ Found view s t n m ∧ ¬ s.finished view m ∧
      visitChildren visit n (s.node n).children.length 0 (s.refresh n) = some (some m, t) := by
  have hlen : (s.node n).children.length = before.length + (after.length + 1) := by
    rw [← length_ring, hring, List.length_append, List.length_cons]
  obtain ⟨htree, -⟩ : Pruned view s (s.refresh n) := hs.refresh n
  have hring' : (s.refresh n).ring n = before ++ c :: after := by
    rw [ring_refresh, hring]
  have hparent : ∀ d ∈ before ++ c :: after, s.parent d = some n := by
    intro d hd
    rw [← hring] at hd
    exact hs.toWired.parent_of_ring hd
  have htree_spend : ∀ {t : StreamScheduler}, Tree t → Tree (t.spend n) := by
    intro t ht
    have hpruned : Pruned view t (t.spend n) := ht.spend n
    exact hpruned.1
  rw [hlen]
  rcases visitChildren_search (i := 0) (k := after.length + 1) hs hvisit htree
    (loops_refresh view s n) hring' (by omega) with
    ⟨hbarren, u, hu, hloop, huring, heq⟩ |
    ⟨before', d, after', u, t, t', m, hbefore, hbarren, hloop, huring, hfound, hturned, heq⟩
  · -- now it is the turn of `c`
    obtain ⟨m, t, ht, hfound, hfin, hvisit⟩ := hfind u hu hloop
    rw [hloop.finished_iff] at hfin
    have hc : s.parent c = some n :=
      hparent c (List.mem_append_right _ List.mem_cons_self)
    have hshape := hloop.toSameShape.trans hfound.toSameShape
    have hi : 0 + before.length < (u.node n).children.length := by
      rw [hloop.children_eq]
      omega
    obtain ⟨t', hteq, hturned⟩ := ht.turned (by rw [hshape.parent_eq]; exact hc)
      (by rw [hshape.children_eq]; exact List.ne_nil_of_length_pos (by omega)) (some m)
    refine ⟨m, t'.spend n, htree_spend hturned.tree,
      Found.up hs hnot hc hloop hring huring hbarren hfound hturned, hfin, ?_⟩
    rw [heq, visitChildren, if_pos hi, hu.getElem_of_ring huring]
    simp [hvisit, hteq]
  · -- a search before it has found `m`
    have hring'' : s.ring n = before' ++ d :: (after' ++ c :: after) := by
      rw [hring, hbefore, List.append_assoc, List.cons_append]
    have hd : s.parent d = some n := by
      refine hparent d ?_
      rw [← hring, hring'']
      exact List.mem_append_right _ List.mem_cons_self
    refine ⟨m, t'.spend n, htree_spend hturned.tree,
      Found.up hs hnot hd hloop hring'' ?_ hbarren hfound hturned, ?_, heq⟩
    · rw [huring, List.append_assoc]
    · refine hlasts d (by simp [hbefore]) m ?_ ((hloop.ready_iff m).mp hfound.ready).1
      rw [← hloop.parent_eq]
      exact hfound.above

/-- The way from `n` down to another node of the tree goes through a child. -/
theorem Tree.exists_way (h : Tree s) (hne : n ≠ r) (hnr : Above s.parent n r)
    (hr : r = 0 ∨ s.attached r) :
    ∃ c before after, s.parent c = some n ∧ Above s.parent c r ∧ s.attached c ∧
      s.ring n = before ++ c :: after ∧ (s.node n).activeChildren > 0 := by
  obtain ⟨c, hc, hcr⟩ := hnr.exists_child hne
  have hr0 : r ≠ 0 := by
    rintro rfl
    exact hne (eq_of_above_of_none h.root hnr)
  have hattc : s.attached c := h.toWired.attached_of_above (hr.resolve_left hr0) hcr
  have hmem : c ∈ (s.node n).children := h.toWired.mem_iff.mpr ⟨hattc, hc⟩
  obtain ⟨before, after, hring⟩ := List.append_of_mem (mem_ring.mpr hmem)
  refine ⟨c, before, after, hc, hcr, hattc, hring, ?_⟩
  rw [h.listing.active]
  exact List.length_pos_of_mem hmem

/-- The visits of the children before the way are searches, if no stream below them is finished. -/
theorem Tree.searches_before (h : Tree s) {before after : List ℕ} (hring : s.ring n = before ++ after)
    (hlasts : ∀ d ∈ before, Lasts view s d)
    (hfuel : s.size < rank s.parent s.pointers n + (fuel + 1)) :
    ∀ u d, Tree u → SameShape s u → d ∈ before →
      Searches view u d (StreamScheduler.traverse view fuel u d) := by
  intro u d hu hsu hd
  have hdmem : d ∈ (s.node n).children := by
    rw [← mem_ring, hring]
    exact List.mem_append_left _ hd
  obtain ⟨hattd, hdn⟩ := h.toWired.mem_iff.mp hdmem
  exact hu.search (hsu.lasts (hlasts d hd)) (Or.inr ((hsu.attached_iff d).mpr hattd))
    (h.fuel_child hdn hsu hfuel)

/-- **`traverse` finds a stream if one that is ready comes before all finished ones.** -/
theorem Tree.traverse_first (h : Tree s) (hfirst : First view s n r) (hready : s.ready view r)
    (hnr : Above s.parent n r) (hatt : n = 0 ∨ s.attached n)
    (hfuel : s.size < rank s.parent s.pointers n + fuel) :
    ∃ m t, Tree t ∧ Found view s t n m ∧ ¬ s.finished view m ∧
      StreamScheduler.traverse view fuel s n = (t.turn (some m) n).map (Prod.mk (some m)) := by
  induction fuel generalizing s n with
  | zero =>
    have hlt := Wired.rank_lt_fuel s n
    omega
  | succ fuel ih =>
    have hfin := hfirst.not_finished h.toWired hnr hatt
    by_cases hn : s.ready view n
    · obtain ⟨htree, -⟩ : Pruned view s (s.refresh n) := h.refresh n
      refine ⟨n, _, ?_, found_self h hn, hfin, traverse_of_ready hfin hn⟩
      split
      · exact htree
      · obtain ⟨hspent, -⟩ : Pruned view (s.refresh n) ((s.refresh n).spend n) := htree.spend n
        exact hspent
    · -- the way to `r` goes through a child
      have hne : n ≠ r := by
        rintro rfl
        exact hn hready
      obtain ⟨c, before, after, hc, hcr, hattc, hring, hactive⟩ := h.exists_way hne hnr hready.1
      have hlasts : ∀ d ∈ before, Lasts view s d := fun d hd =>
        hfirst.lasts h.toWired hc hcr hring hd
      obtain ⟨m, t, ht, hfound, hunfinished, heq⟩ := visitChildren_first h hn hring hlasts
        (h.searches_before hring hlasts hfuel) fun u hu hloop =>
          ih hu (hfirst.child h.toWired hc hcr hloop) ((hloop.ready_iff r).mpr hready)
            (by rwa [hloop.parent_eq]) (Or.inr ((hloop.attached_iff c).mpr hattc))
            (h.fuel_child hc hloop.toSameShape hfuel)
      rw [traverse_of_not_ready hfin hatt hn, if_pos hactive, heq]
      exact ⟨m, t, ht, hfound, hunfinished, rfl⟩

/-- The same for `schedule`. -/
theorem Tree.schedule_of_first (h : Tree s) (hfirst : First view s 0 r) (hr : r < s.size)
    (hready : s.ready view r) :
    ∃ m t, Tree t ∧ Found view s t 0 m ∧ ¬ s.finished view m ∧
      s.schedule view = some (some m, t) := by
  have hfuel : s.size < rank s.parent s.pointers 0 + (s.size + 1) := by omega
  obtain ⟨m, t, ht, hfound, hfin, heq⟩ :=
    h.traverse_first hfirst hready (h.above_root hr) (Or.inl rfl) hfuel
  have hroot : (t.node 0).parent = none := by
    change t.parent 0 = none
    rw [hfound.parent_eq]
    exact h.root
  refine ⟨m, t, ht, hfound, hfin, ?_⟩
  rw [StreamScheduler.schedule, heq, StreamScheduler.turn, hroot]
  rfl

/-- `schedule` finds a stream if one that can send comes before all finished ones. -/
theorem Tree.schedule_first (h : Tree s) (hfirst : ReadyFirst view s) (hlt : n < s.size)
    (hatt : n = 0 ∨ s.attached n) (helig : s.eligible view n) :
    ∃ m t, Tree t ∧ Found view s t 0 m ∧ ¬ s.finished view m ∧
      s.schedule view = some (some m, t) := by
  obtain ⟨r, hr, hready, hprec⟩ := hfirst ⟨n, hlt, hatt, helig⟩
  have hfirst' : First view s 0 r := fun f hf hattf hfin =>
    h.toWired.precedes_cases (hprec f (h.lt_size_of_above hf h.size_pos) hattf hfin)
  exact h.schedule_of_first hfirst' hr hready

end StreamScheduler

open StreamScheduler (eligible ReadyFirst)
open SchedulerRun (run Sound)
open SchedulerOp

/-- **After a sound run, `schedule` returns nil only if no stream can send**, as long as a stream that
can send comes before all finished ones. -/
theorem schedule_eq_none {ops : List SchedulerOp} (h : Sound ops) :
    ∃ s, run ops = some s ∧ ∀ view t, ReadyFirst view s → s.schedule view = some (none, t) →
      ∀ n, ReflTransGen s.lists 0 n → ¬ s.eligible view n := by
  obtain ⟨s, heq, htree⟩ := SchedulerRun.tree h
  refine ⟨s, heq, fun view t hfirst hnone n hn helig => ?_⟩
  obtain ⟨hlt, hatt⟩ := htree.attached_of_reached hn
  obtain ⟨m, t', -, -, -, hsome⟩ := htree.schedule_first hfirst hlt hatt helig
  rw [hnone] at hsome
  cases hsome

/-- Two streams depend on the root. -/
def twoStreams : List SchedulerOp := [addNode 5, addNode 7, setActive 5, setActive 7]

/-- Stream 7 has finished, and stream 5 comes first. -/
theorem twoStreams_schedule_ne_none :
    Sound twoStreams ∧ ∃ s, run twoStreams = some s ∧ ReadyFirst (viewOf [7] [5]) s ∧
      s.finished (viewOf [7] [5]) 2 ∧ ∀ t, s.schedule (viewOf [7] [5]) ≠ some (none, t) := by
  have hsound : Sound twoStreams := by decide +kernel
  obtain ⟨s, heq, hnone⟩ := schedule_eq_none hsound
  obtain ⟨s', heq', hfirst, hfin, hmem, helig⟩ : ∃ s ∈ run twoStreams,
      ReadyFirst (viewOf [7] [5]) s ∧ s.finished (viewOf [7] [5]) 2 ∧ 1 ∈ (s.node 0).children ∧
        s.eligible (viewOf [7] [5]) 1 := by
    decide +kernel
  rw [Option.mem_def, heq] at heq'
  cases heq'
  exact ⟨hsound, s, heq, hfirst, hfin, fun t ht =>
    hnone _ t hfirst ht 1 (ReflTransGen.single hmem) helig⟩

/-- **Stream 5 has finished; `schedule` removes it and returns nil, although stream 7 can send.** -/
theorem twoStreams_schedule_none :
    Sound (twoStreams ++ [schedule (viewOf [5] [7])]) ∧ ∃ s, run twoStreams = some s ∧
      (∃ t, s.schedule (viewOf [5] [7]) = some (none, t)) ∧ ReflTransGen s.lists 0 2 ∧
        s.eligible (viewOf [5] [7]) 2 := by
  refine ⟨by decide +kernel, ?_⟩
  obtain ⟨s, heq, hnone, hmem, helig⟩ : ∃ s ∈ run twoStreams,
      (s.schedule (viewOf [5] [7])).map Prod.fst = some none ∧ 2 ∈ (s.node 0).children ∧
        s.eligible (viewOf [5] [7]) 2 := by
    decide +kernel
  obtain ⟨⟨r, t⟩, hcall, hr⟩ := Option.map_eq_some_iff.mp hnone
  cases hr
  exact ⟨s, heq, ⟨t, hcall⟩, ReflTransGen.single hmem, helig⟩

end MultipathQuic
