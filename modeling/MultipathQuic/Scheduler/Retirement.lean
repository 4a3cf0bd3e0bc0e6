import MultipathQuic.Scheduler.Eligible

/-!
# Streams that leave the scheduler

`traverse` closes the node of a stream when it meets it and the stream is finished, and in no other
place. A call of `schedule` that returns nothing meets the first finished stream of the tree, and so
does every call if no stream that is ready comes before it; a later one may be missed, since closing a
stream costs one of its siblings a visit.

## Main definitions

* `stops`: `traverse` stops at the node

## Main results

* `Tree.schedule_retires`: the first finished stream is closed
* `Tree.schedule_stops`: a call ends at the first node that stops it
-/

namespace MultipathQuic

open Function Forest

namespace StreamScheduler

variable {view : ℕ → StreamView} {s t u : StreamScheduler} {n f c d fuel : ℕ}

/-- Every finished stream of the tree other than that of `n` comes after `n`. -/
def FirstFinished (view : ℕ → StreamView) (s : StreamScheduler) (n : ℕ) : Prop :=
  ∀ f < s.size, f = 0 ∨ s.attached f → s.finished view f → f ≠ n → s.precedes n f

instance (view : ℕ → StreamView) (s : StreamScheduler) (n : ℕ) :
    Decidable (FirstFinished view s n) :=
  inferInstanceAs (Decidable (∀ _ < _, _))

/-! ## Scheduling only closes -/

/-- What holds of closed nodes, and of a node before, holds of it after scheduling. -/
theorem scheduleRule_state {Q : NodeState → Prop} (hQ : Q .closed) (view : ℕ → StreamView)
    (f : ℕ) : ScheduleRule view (fun _ => True) fun s => Q (s.node f).state where
  child := fun _ _ _ => trivial
  refresh := by
    intro s n hs _
    have hstate : ((s.refresh n).node f).state = (s.node f).state := by
      refine modify_field Node.state ?_ f
      dsimp only
      split_ifs <;> split <;> rfl
    rwa [hstate]
  count := by
    intro s n g hg hs
    rwa [modify_field Node.state (congrArg Node.state hg : _) f]
  drop := by
    intro s n c _ hs
    unfold StreamScheduler.dropChild
    rwa [modify_field Node.state rfl f]
  close := by
    intro s n hs _ _
    by_cases hf : f = n
    · subst hf
      rwa [modify_node_self]
    · rwa [modify_node_of_ne hf]

/-- A stream that is not finished is not closed. -/
theorem scheduleRule_unfinished {view : ℕ → StreamView} {f : ℕ} {state : NodeState}
    {strm : Option ℕ} (hunfinished : ∀ id ∈ strm, (view id).finishedWriteAndSentFin ≠ true) :
    ScheduleRule view (fun _ => True) fun s =>
      (s.node f).state = state ∧ (s.node f).stream = strm where
  child := fun _ _ _ => trivial
  refresh := by
    rintro s n ⟨hstate, hstrm⟩ _
    refine ⟨(modify_field Node.state ?_ f).trans hstate, (modify_field Node.stream ?_ f).trans hstrm⟩
    · dsimp only
      split_ifs <;> split <;> rfl
    · dsimp only
      split_ifs <;> split <;> rfl
  count := by
    rintro s n g hg ⟨hstate, hstrm⟩
    exact ⟨(modify_field Node.state (congrArg Node.state hg : _) f).trans hstate,
      (modify_field Node.stream (congrArg Node.stream hg : _) f).trans hstrm⟩
  drop := by
    rintro s n c _ ⟨hstate, hstrm⟩
    unfold StreamScheduler.dropChild
    exact ⟨(modify_field Node.state rfl f).trans hstate,
      (modify_field Node.stream rfl f).trans hstrm⟩
  close := by
    rintro s n ⟨hstate, hstrm⟩ _ ⟨id, hid, hfin⟩
    have hf : f ≠ n := by
      rintro rfl
      exact hunfinished id (hstrm.symm.trans hid) hfin
    rw [modify_node_of_ne hf]
    exact ⟨hstate, hstrm⟩

/-! ## The first finished stream is closed -/

theorem FirstFor.imp {G G' : ℕ → Prop} (h : FirstFor G s n f) (hG : ∀ g, G' g → G g) :
    FirstFor G' s n f :=
  fun g hg hg' => h g hg (hG g hg')

theorem deactivateNode_closed (h : s.deactivateNode n = some t) :
    (t.node n).state = .closed ∧ (t.node n).stream = none := by
  have hclosed : ((s.modify n fun node => { node with state := .closed, stream := none }).node
      n).state = .closed ∧
      ((s.modify n fun node => { node with state := .closed, stream := none }).node
        n).stream = none := by
    rw [modify_node_self]
    exact ⟨rfl, rfl⟩
  unfold StreamScheduler.deactivateNode at h
  dsimp only at h
  split at h
  · cases h
    exact hclosed
  · split at h
    · refine removeWeightUp_induction
        (P := fun s => (s.node n).state = .closed ∧ (s.node n).stream = none) ?_ hclosed h
      intro s p c _ hs
      unfold StreamScheduler.dropChild
      rwa [modify_field Node.state rfl n, modify_field Node.stream rfl n]
    · cases h
      exact hclosed

theorem traverse_of_finished {strm : Option ℕ} (hfin : s.finished view n)
    (heq : StreamScheduler.traverse view (fuel + 1) s n = some (strm, t)) :
    (t.node n).state = .closed ∧ (t.node n).stream = none := by
  rcases traverse_cases heq with ⟨-, -, hclose⟩ | ⟨hnot, -⟩
  · exact deactivateNode_closed hclose
  · exact absurd ((sameShape_refresh s n).finished_iff n |>.mpr hfin) hnot

/-- The loop over the children closes `f`, if the visit of `c` does and the visits before it are
searches that fail. -/
theorem visitChildren_retires {visit : StreamScheduler → ℕ → Option (Option ℕ × StreamScheduler)}
    (hs : Tree s) {before after : List ℕ} (hring : s.ring n = before ++ c :: after)
    (hvisit : ∀ u d, Tree u → SameShape s u → d ∈ before → Searches view u d (visit u d))
    {strm : Option ℕ} (hfails : strm = none ∨ ∀ d ∈ before, Barren view s d)
    (hclose : ∀ u strm' t, Tree u → Loops view s u n → (strm = none → strm' = none) →
      visit u c = some (strm', t) → (t.node f).state = .closed)
    (hkeep : ∀ {u d strm t}, (u.node f).state = .closed → True → visit u d = some (strm, t) →
      (t.node f).state = .closed)
    (heq : visitChildren visit n (s.node n).children.length 0 (s.refresh n) = some (strm, t)) :
    (t.node f).state = .closed := by
  have hlen : (s.node n).children.length = before.length + (after.length + 1) := by
    rw [← length_ring, hring, List.length_append, List.length_cons]
  obtain ⟨htree, -⟩ : Pruned view s (s.refresh n) := hs.refresh n
  have hring' : (s.refresh n).ring n = before ++ c :: after := by
    rw [ring_refresh, hring]
  rw [hlen] at heq
  rcases visitChildren_search (i := 0) (k := after.length + 1) hs hvisit htree
    (loops_refresh view s n) hring' (by omega) with
    ⟨-, u, hu, hloop, huring, heq'⟩ |
    ⟨before', d, _, _, _, _, m, hbefore, -, hloop, -, hfound, -, heq'⟩
  · -- now it is the turn of `c`
    have hi : 0 + before.length < (u.node n).children.length := by
      rw [hloop.children_eq]
      omega
    rw [heq', visitChildren, if_pos hi, hu.getElem_of_ring huring] at heq
    dsimp only [Option.bind_eq_bind, Option.bind_some] at heq
    obtain ⟨⟨strm', u'⟩, hcall, heq⟩ := Option.bind_eq_some_iff.mp heq
    have hrule := scheduleRule_state (Q := (· = .closed)) rfl view f
    cases strm' with
    | some m =>
      cases heq
      exact hrule.count rfl (hclose u _ u' hu hloop id hcall)
    | none =>
      exact (hrule.visitChildren (fun hs hV hv => ⟨hkeep hs hV hv, fun _ _ => trivial⟩)
        (hclose u _ u' hu hloop (fun _ => rfl) hcall) trivial heq).1
  · -- a search before it has found a stream
    rcases hfails with rfl | hbarren
    · cases heq'.symm.trans heq
    · refine absurd ((hloop.ready_iff m).mp hfound.ready) (hbarren d ?_ m ?_)
      · rw [hbefore]
        exact List.mem_append_right _ List.mem_cons_self
      · rw [← hloop.parent_eq]
        exact hfound.above

/-- **A call of `traverse` closes the first finished stream** if it returns nothing, or if no stream
that is ready comes before it. -/
theorem Tree.traverse_retires {strm : Option ℕ} (h : Tree s) (hfin : s.finished view f)
    (hattf : f = 0 ∨ s.attached f)
    (hfirst : FirstFor (fun g => (g = 0 ∨ s.attached g) ∧ s.finished view g ∧ g ≠ f) s n f)
    (hnone : strm = none ∨ FirstFor (fun g => s.ready view g ∧ g ≠ f) s n f)
    (hnf : Above s.parent n f) (hatt : n = 0 ∨ s.attached n)
    (hfuel : s.size < rank s.parent s.pointers n + fuel)
    (heq : StreamScheduler.traverse view fuel s n = some (strm, t)) :
    (t.node f).state = .closed := by
  induction fuel generalizing s n t strm with
  | zero => cases heq
  | succ fuel ih =>
    by_cases hne : n = f
    · subst hne
      exact (traverse_of_finished hfin heq).1
    have hnfin : ¬ s.finished view n := fun hnfin =>
      hfirst.not_above h.toWired hnf ⟨hatt, hnfin, hne⟩
    by_cases hready : s.ready view n
    · -- a node that is ready is returned
      rcases hnone with rfl | hbefore
      · rw [traverse_of_ready hnfin hready] at heq
        obtain ⟨t', -, ht'⟩ := Option.map_eq_some_iff.mp heq
        cases ht'
      · exact absurd ⟨hready, hne⟩ (hbefore.not_above h.toWired hnf)
    · -- the way to `f` goes through a child
      obtain ⟨c, before, after, hc, hcf, hattc, hring, hactive⟩ := h.exists_way hne hnf hattf
      -- a child before the one on the way has other nodes below it
      have hother : ∀ {d g}, d ∈ before → Above s.parent d g → g ≠ f := by
        rintro d g hd hdg rfl
        obtain ⟨hdn, hcd⟩ := h.toWired.visited_before hring hd
        exact hcd (h.forest.eq_of_above hc hdn hcf hdg)
      have hkeep := scheduleRule_state (Q := (· = .closed)) rfl view f
      rw [traverse_of_not_ready hnfin hatt hready, if_pos hactive] at heq
      obtain ⟨⟨strm, u⟩, hloop, heq⟩ := Option.bind_eq_some_iff.mp heq
      obtain ⟨t', hturn, heq⟩ := Option.map_eq_some_iff.mp heq
      cases heq
      have hlasts : ∀ d ∈ before, Lasts view s d := fun d hd g hdg hattg hgfin =>
        hfirst.not_before h.toWired hc hcf hring hd hdg ⟨hattg, hgfin, hother hd hdg⟩
      have hvisit := h.searches_before hring hlasts hfuel
      have hfails : strm = none ∨ ∀ d ∈ before, Barren view s d :=
        hnone.imp_right fun hbefore d hd g hdg hg =>
          hbefore.not_before h.toWired hc hcf hring hd hdg ⟨hg, hother hd hdg⟩
      have hclose : ∀ u strm' t, Tree u → Loops view s u n → (strm = none → strm' = none) →
          StreamScheduler.traverse view fuel u c = some (strm', t) →
            (t.node f).state = .closed := by
        intro u strm' t hu hloop hstrm hcall
        refine ih hu ((hloop.finished_iff f).mpr hfin) ?_ ?_ (hnone.imp hstrm fun hbefore => ?_) ?_ ?_
          (h.fuel_child hc hloop.toSameShape hfuel) hcall
        · rwa [hloop.attached_iff]
        · refine (hfirst.child h.toWired hc hcf hloop).imp fun g => ?_
          rw [hloop.attached_iff, hloop.finished_iff]
          exact id
        · refine (hbefore.child h.toWired hc hcf hloop).imp fun g => ?_
          rw [hloop.ready_iff]
          exact id
        · rwa [hloop.parent_eq]
        · exact Or.inr ((hloop.attached_iff c).mpr hattc)
      exact hkeep.turn (visitChildren_retires h hring hvisit hfails hclose hkeep.traverse hloop) hturn

/-- **A call of `schedule` that returns nothing closes the first finished stream.** -/
theorem Tree.schedule_retires (h : Tree s) (hlt : f < s.size) (hattf : f = 0 ∨ s.attached f)
    (hfin : s.finished view f) (hfirst : FirstFinished view s f)
    (heq : s.schedule view = some (none, t)) : (t.node f).state = .closed := by
  refine h.traverse_retires hfin hattf (fun g hg hG => ?_) (Or.inl rfl) (h.above_root hlt)
    (Or.inl rfl) (by omega) heq
  obtain ⟨hattg, hgfin, hne⟩ := hG
  exact h.toWired.precedes_cases
    (hfirst g (h.lt_size_of_above hg h.size_pos) hattg hgfin hne)

/-! ## The first stream -/

/-- `traverse` stops at the node: its stream is ready or finished. -/
def stops (s : StreamScheduler) (view : ℕ → StreamView) (n : ℕ) : Prop :=
  s.ready view n ∨ (n = 0 ∨ s.attached n) ∧ s.finished view n

instance (s : StreamScheduler) (view : ℕ → StreamView) : DecidablePred (s.stops view) :=
  fun _ => inferInstanceAs (Decidable (_ ∨ _))

theorem attached_of_stops (h : s.stops view n) : n = 0 ∨ s.attached n :=
  h.elim And.left And.left

open Classical in
/-- Of the nodes of the tree with the property `G`, one is visited first. The induction is on the depth
of the tree from `n` downwards. -/
theorem Tree.exists_first (h : Tree s) {G : ℕ → Prop} (hG : ∀ x, G x → x = 0 ∨ s.attached x)
    (hex : ∃ x, Above s.parent n x ∧ G x) :
    ∃ f, Above s.parent n f ∧ G f ∧ FirstFor (fun g => G g ∧ g ≠ f) s n f := by
  induction hk : s.size - rank s.parent s.pointers n using Nat.strong_induction_on
    generalizing n with
  | _ k ih =>
    by_cases hn : G n
    · exact ⟨n, Above.refl n, hn, fun g hg hne => Or.inl ⟨hg, Ne.symm hne.2⟩⟩
    -- every other node is reached through a child
    have hchild : ∀ {x}, Above s.parent n x → G x →
        ∃ c ∈ s.ring n, s.parent c = some n ∧ Above s.parent c x := by
      intro x hx hGx
      have hne : n ≠ x := by
        rintro rfl
        exact hn hGx
      obtain ⟨c, _, _, hc, hcx, -, hring, -⟩ := h.exists_way hne hx (hG x hGx)
      exact ⟨c, hring ▸ List.mem_append_right _ List.mem_cons_self, hc, hcx⟩
    obtain ⟨x, hx, hGx⟩ := hex
    obtain ⟨d, hd, -, hdx⟩ := hchild hx hGx
    have hsome : ((s.ring n).find? fun c => ∃ x, Above s.parent c x ∧ G x).isSome :=
      List.find?_isSome.mpr ⟨d, hd, decide_eq_true ⟨x, hdx, hGx⟩⟩
    obtain ⟨c, hfind⟩ := Option.isSome_iff_exists.mp hsome
    obtain ⟨hc, before, after, hring, hbefore⟩ := List.find?_eq_some_iff_append.mp hfind
    have hcn : s.parent c = some n := by
      refine h.toWired.parent_of_ring ?_
      rw [hring]
      exact List.mem_append_right _ List.mem_cons_self
    have hlt := h.forest.rank_lt hcn
    have hle := rank_le s.parent s.pointers c
    rw [pointers, Finset.card_range] at hle
    change rank s.parent s.pointers c ≤ s.size at hle
    obtain ⟨f, hcf, hGf, hfirst⟩ := ih _ (by omega) (of_decide_eq_true hc) rfl
    refine ⟨f, (above_parent hcn).trans hcf, hGf, fun g hg hne => ?_⟩
    obtain ⟨d, hd, hdn, hdg⟩ := hchild hg hne.1
    rw [hring, List.mem_append, List.mem_cons] at hd
    rcases hd with hd | rfl | hd
    · have hnot := hbefore d hd
      rw [Bool.not_eq_true', decide_eq_false_iff_not] at hnot
      exact absurd ⟨g, hdg, hne.1⟩ hnot
    · exact hfirst g hdg hne
    · refine Or.inr ⟨n, c, d, hcf, hdg, ?_⟩
      rw [hring]
      exact ((List.singleton_sublist.mpr hd).cons_cons c).trans (List.sublist_append_right _ _)

/-- A stream that is found is the first one. -/
theorem Found.eq_of_first (h : Found view s t 0 n) (hs : Tree s) (h0f : Above s.parent 0 f)
    (hfirst : FirstFor (fun g => s.stops view g ∧ g ≠ f) s 0 f) (hf : s.ready view f) : n = f := by
  by_contra hne
  rcases hfirst n h.above ⟨Or.inl h.ready, hne⟩ with ⟨hfn, hfne⟩ | ⟨p, c, d, hcf, hdn, hsub⟩
  · exact h.passed f h0f hfn hfne hf
  · -- the way to `f` would come first
    obtain ⟨-, hd, -⟩ := hs.toWired.of_sublist hsub
    obtain ⟨before, after, hring, hbarren, -⟩ :=
      h.ring_on hd (hs.above_root (hs.lt_size hd).2) hdn
    have hnodup := hs.toWired.nodup_ring p
    rw [hring] at hsub hnodup
    exact hbarren c (mem_of_sublist_pair hnodup hsub) f hcf hf

/-- `f` is the first node at which `traverse` stops. -/
structure StopsFirst (view : ℕ → StreamView) (s : StreamScheduler) (f : ℕ) : Prop where
  above : Above s.parent 0 f
  stops : s.stops view f
  first : FirstFor (fun g => s.stops view g ∧ g ≠ f) s 0 f

/-- `traverse` does not stop above the first stream. -/
theorem StopsFirst.passed (h : StopsFirst view s f) (hs : Tree s) (hx : Above s.parent n f)
    (hne : n ≠ f) : ¬ s.stops view n := by
  intro hstops
  have h0n : Above s.parent 0 n := by
    rcases h.above.total hx with hn0 | h0n
    · rw [eq_of_above_of_none hs.root hn0]
    · exact h0n
  rcases h.first n h0n ⟨hstops, hne⟩ with ⟨hfn, -⟩ | hparted
  · exact hne (hs.forest.antisymm hx hfn)
  · exact hs.toWired.not_parted hx hparted

/-- The first stream is returned if it is not finished. -/
theorem StopsFirst.schedule (h : StopsFirst view s f) (hs : Tree s) (hfin : ¬ s.finished view f) :
    ∃ t, Tree t ∧ Found view s t 0 f ∧ s.schedule view = some (some f, t) := by
  have hready : s.ready view f := h.stops.resolve_right fun hf => hfin hf.2
  have hlt : f < s.size := hs.lt_size_of_above h.above hs.size_pos
  have hfirst : First view s 0 f := by
    intro g hg hatt hgfin
    refine h.first g hg ⟨Or.inr ⟨hatt, hgfin⟩, ?_⟩
    rintro rfl
    exact hfin hgfin
  obtain ⟨m, t, ht, hfound, -, heq⟩ := hs.schedule_of_first hfirst hlt hready
  obtain rfl := hfound.eq_of_first hs h.above h.first hready
  exact ⟨t, ht, hfound, heq⟩

/-- **What a call of `schedule` does** depends on the first stream at which `traverse` stops: there is
none, or it is returned, or it is closed. -/
theorem Tree.schedule_stops (h : Tree s) (view : ℕ → StreamView) :
    ((∀ x < s.size, ¬ s.stops view x) ∧
      ∃ t, Tree t ∧ Idles s t 0 ∧ s.schedule view = some (none, t)) ∨
    ∃ f, StopsFirst view s f ∧
      (¬ s.finished view f ∧ (∃ t, Tree t ∧ Found view s t 0 f ∧
          s.schedule view = some (some f, t)) ∨
        s.finished view f ∧
          ∀ strm t, s.schedule view = some (strm, t) → (t.node f).state = .closed) := by
  by_cases hex : ∃ x, Above s.parent 0 x ∧ s.stops view x
  · obtain ⟨f, h0f, hstops, hfirst⟩ := h.exists_first (fun _ => attached_of_stops) hex
    refine Or.inr ⟨f, ⟨h0f, hstops, hfirst⟩, ?_⟩
    by_cases hfin : s.finished view f
    · refine Or.inr ⟨hfin, fun strm t heq => ?_⟩
      refine h.traverse_retires hfin (attached_of_stops hstops) (hfirst.imp fun g hg => ?_)
        (Or.inr (hfirst.imp fun g hg => ⟨Or.inl hg.1, hg.2⟩)) h0f (Or.inl rfl) (by omega) heq
      exact ⟨Or.inr ⟨hg.1, hg.2.1⟩, hg.2.2⟩
    · exact Or.inl ⟨hfin, StopsFirst.schedule ⟨h0f, hstops, hfirst⟩ h hfin⟩
  · have hnone : ∀ x < s.size, ¬ s.stops view x := fun x hlt hx => hex ⟨x, h.above_root hlt, hx⟩
    have hu : Unfinished view s := fun x hlt hatt hfin => hnone x hlt (Or.inr ⟨hatt, hfin⟩)
    rcases h.schedule_search hu with ⟨-, t, ht, hidles, heq⟩ | ⟨m, t, -, hfound, -⟩
    · exact Or.inl ⟨hnone, t, ht, hidles, heq⟩
    · exact absurd (Or.inl hfound.ready)
        (hnone m (h.lt_size_of_above hfound.above h.size_pos))

end StreamScheduler

end MultipathQuic
