import MultipathQuic.Scheduler.Alike
import MultipathQuic.Scheduler.Shares

/-!
# Calls of `schedule` that make no difference

A call of `schedule` whose result is thrown away makes no difference to later ones in two cases:
nothing is disputed, that is `traverse` comes to its stream without a choice; or everything is spent,
that is only the header stream can ever be returned again. In all other states the call uses up a
quantum for which siblings compete, or closes a finished stream while another stream is still open.

## Main results

* `Tree.disturbed_schedule`: what a call does in a state that is not settled
* `SpentPair.schedules`: if everything is spent, what is returned depends on the header stream only
-/

namespace MultipathQuic

open Function Forest

namespace StreamScheduler

variable {view view' : ℕ → StreamView} {s s' t u : StreamScheduler} {n x r : ℕ}

/-- Every active stream apart from the header stream is finished. -/
def Spent (view : ℕ → StreamView) (s : StreamScheduler) : Prop :=
  ∀ x < s.size, x ≠ 0 → (s.node x).state = .active → s.finished view x

instance (view : ℕ → StreamView) (s : StreamScheduler) : Decidable (Spent view s) :=
  inferInstanceAs (Decidable (∀ _ < _, _))

/-- Nothing is disputed, or everything is spent. -/
def Settled (view : ℕ → StreamView) (s : StreamScheduler) : Prop :=
  Undisputed view s ∨ Spent view s

instance (view : ℕ → StreamView) (s : StreamScheduler) : Decidable (Settled view s) :=
  inferInstanceAs (Decidable (_ ∨ _))

/-- In the second view, the finished streams of the first one are finished. -/
def Later (view view' : ℕ → StreamView) : Prop :=
  ∀ id, (view id).finishedWriteAndSentFin = true → (view' id).finishedWriteAndSentFin = true

theorem Later.finished (h : Later view view') (hx : s.finished view x) : s.finished view' x := by
  obtain ⟨id, hid, hfin⟩ := hx
  exact ⟨id, hid, h id hfin⟩

/-- **What a call of `schedule` does in a state that is not settled:** it uses up a quantum of a node
that has siblings, or closes a finished stream while another stream is open. -/
theorem Tree.disturbed_schedule (h : Tree s) (hid : ∀ x < s.size, x ≠ 0 → (s.node x).id ≠ 0)
    (hnot : ¬ Settled view s) {strm : Option ℕ} (heq : s.schedule view = some (strm, t)) :
    (∃ x, s.contested x ∧ (t.node x).quantum = sub16 (s.due x) 1) ∨
      ∃ f, s.finished view f ∧ (t.node f).state = .closed ∧
        ∃ x < s.size, x ≠ 0 ∧ (s.node x).state = .active ∧ ¬ s.finished view x := by
  obtain ⟨hdisputed, hunspent⟩ := not_or.mp hnot
  obtain ⟨hsome, hlead⟩ := not_or.mp hdisputed
  rcases h.schedule_stops view with ⟨hnone, -⟩ | ⟨r, hfirst, hcases⟩
  · exact absurd hnone hsome
  rcases hcases with ⟨hunfinished, t', ht, hfound, heq'⟩ | ⟨hfin, hclosed⟩
  · left
    cases heq.symm.trans heq'
    have hr : r < s.size := h.lt_size_of_above hfirst.above h.size_pos
    -- some node above has several children
    obtain ⟨x, hx, hxr, hlen⟩ : ∃ x, Above s.parent x r ∧ x ≠ r ∧
        1 < (s.node x).children.length := by
      by_contra! hnarrow
      refine hlead ⟨r, hr, hfound.ready, hunfinished, fun x hx hne => ?_⟩
      have hxr := h.mem_path.mp hx
      exact ⟨hfirst.passed h hxr hne, hnarrow x hxr hne⟩
    obtain ⟨c, hc, hcr⟩ := hx.exists_child hxr
    have hc' := h.lt_size hc
    exact ⟨c, ⟨x, hc, hlen⟩, hfound.served c (h.above_root hc'.1) hcr fun hcr' =>
      hcr' ▸ hid c hc'.1 (h.ne_zero hc)⟩
  · right
    unfold Spent at hunspent
    push Not at hunspent
    exact ⟨r, hfin, hclosed strm t heq, hunspent⟩

/-! ## Spent trees -/

/-- A tree of which only the header stream can be returned. -/
structure SpentTree (view : ℕ → StreamView) (s : StreamScheduler) : Prop where
  tree : Tree s
  id_ne : ∀ x < s.size, x ≠ 0 → (s.node x).id ≠ 0
  spent : Spent view s

/-- What the scheduler knows of the header stream. -/
def header (s : StreamScheduler) : ℕ × NodeState × Option ℕ :=
  ((s.node 0).id, (s.node 0).state, (s.node 0).stream)

/-- The header stream is finished, or the scheduler does not have it any more. -/
def headerDone (view : ℕ → StreamView) (s : StreamScheduler) : Prop :=
  ∀ id ∈ (s.node 0).stream, (view id).finishedWriteAndSentFin = true

theorem finished_congr_header (h : t.header = s.header) : t.finished view 0 ↔ s.finished view 0 := by
  have hstream : (t.node 0).stream = (s.node 0).stream := congrArg (fun p => p.2.2) h
  unfold finished
  rw [hstream]

theorem eligible_congr_header (h : t.header = s.header) : t.eligible view 0 ↔ s.eligible view 0 := by
  have hid : (t.node 0).id = (s.node 0).id := congrArg Prod.fst h
  have hstate : (t.node 0).state = (s.node 0).state := congrArg (fun p => p.2.1) h
  have hstream : (t.node 0).stream = (s.node 0).stream := congrArg (fun p => p.2.2) h
  unfold eligible hasWindow hasData
  rw [finished_congr_header h, hid, hstate, hstream]

theorem headerDone_congr (h : t.header = s.header) : headerDone view t ↔ headerDone view s := by
  have hstream : (t.node 0).stream = (s.node 0).stream := congrArg (fun p => p.2.2) h
  unfold headerDone
  rw [hstream]

theorem headerDone_of_none (h : (s.node 0).stream = none) : headerDone view s := by
  intro id hid
  cases h.symm.trans hid

theorem headerDone_of_finished (h : s.finished view 0) : headerDone view s := by
  obtain ⟨id, hid, hfin⟩ := h
  intro id' hid'
  cases hid.symm.trans hid'
  exact hfin

theorem headerDone.not_eligible (h : headerDone view s) (hlater : Later view view') :
    ¬ s.eligible view' 0 := by
  rintro ⟨hfin, ⟨id, hid, -⟩, -⟩
  exact hfin ⟨id, hid, hlater id (h id hid)⟩

/-- The header stream is the same, or there is none that matters any more. -/
def SameHeader (view : ℕ → StreamView) (s t : StreamScheduler) : Prop :=
  t.header = s.header ∨ headerDone view s ∧ headerDone view t

theorem SameHeader.trans (h : SameHeader view s t) (h' : SameHeader view t u) :
    SameHeader view s u := by
  rcases h with hst | ⟨hs, ht⟩ <;> rcases h' with htu | ⟨ht', hu⟩
  · exact Or.inl (htu.trans hst)
  · exact Or.inr ⟨(headerDone_congr hst).mp ht', hu⟩
  · exact Or.inr ⟨hs, (headerDone_congr htu).mpr ht⟩
  · exact Or.inr ⟨hs, hu⟩

namespace SpentTree

theorem calm (h : SpentTree view s) (hlater : Later view view') : Calm view' s := by
  intro p hp hparent hwaits
  refine absurd (hlater.finished (h.spent p hp ?_ hwaits.1)) hwaits.2.1
  rintro rfl
  exact hparent h.tree.root

theorem of_prunes (h : SpentTree view s) (ht : Tree t) (hprune : Prunes view' s t) :
    SpentTree view t := by
  refine ⟨ht, fun x hx h0 => ?_, fun x hx h0 hactive => ?_⟩
  · rw [hprune.size_eq] at hx
    rw [hprune.id_eq]
    exact h.id_ne x hx h0
  · rw [hprune.size_eq] at hx
    obtain ⟨hactive', hstream⟩ := hprune.state_of_active hactive
    obtain ⟨id, hid, hfin⟩ := h.spent x hx h0 hactive'
    exact ⟨id, hstream.trans hid, hfin⟩

/-- **A call of `schedule` returns the header stream or nothing**, and closes the header stream if it
is finished. -/
theorem schedule (h : SpentTree view s) (hlater : Later view view') :
    ∃ t, s.schedule view' = some (if s.eligible view' 0 then some 0 else none, t) ∧
      SpentTree view t ∧ t.header =
        if s.finished view' 0 then ((s.node 0).id, .closed, none) else s.header := by
  obtain ⟨strm, t, heq, ht, hprune⟩ := h.tree.schedule (h.calm hlater)
  have hspent := h.of_prunes ht hprune
  have hheader : t.header =
      if s.finished view' 0 then ((s.node 0).id, .closed, none) else s.header := by
    unfold header
    rw [hprune.id_eq]
    by_cases hfin : s.finished view' 0
    · obtain ⟨hstate, hstream⟩ := traverse_of_finished hfin heq
      rw [if_pos hfin, hstate, hstream]
    · obtain ⟨hstate, hstream⟩ := (hprune.closes 0).resolve_right fun hclosed => hfin hclosed.1
      rw [if_neg hfin, hstate, hstream]
  by_cases hel : s.eligible view' 0
  · rw [if_pos hel]
    unfold StreamScheduler.schedule at heq ⊢
    have heq' := heq
    rw [traverse_of_ready hel.1 ⟨Or.inl rfl, hel.2⟩] at heq'
    obtain ⟨t', -, heq'⟩ := Option.map_eq_some_iff.mp heq'
    cases heq'
    exact ⟨t, heq, hspent, hheader⟩
  rw [if_neg hel]
  cases strm with
  | none => exact ⟨t, heq, hspent, hheader⟩
  | some m =>
    -- it would be the node of a stream that is not finished
    have helt := traverse_eligible heq
    have h0m : Above s.parent 0 m := (scheduleRule_outside view' h.tree.toWired 0).returns
      (Outside.refl s 0) (Above.refl 0) heq
    have hm : m < s.size := h.tree.lt_size_of_above h0m h.tree.size_pos
    by_cases hm0 : m = 0
    · subst hm0
      split at hheader
      · obtain ⟨id, hid, -⟩ := helt.2.1
        have hnone : (t.node 0).stream = none := congrArg (fun p => p.2.2) hheader
        cases hid.symm.trans hnone
      · exact absurd ((eligible_congr_header hheader).mp helt) hel
    · obtain ⟨hfin, -, hpick⟩ := helt
      rw [hprune.id_eq, if_neg (h.id_ne m hm hm0)] at hpick
      have hfin' := hspent.spent m (by rwa [hprune.size_eq]) hm0 hpick
      exact absurd (hlater.finished hfin') hfin

end SpentTree

/-- Two spent trees with the same header stream. -/
structure SpentPair (view : ℕ → StreamView) (s t : StreamScheduler) : Prop where
  left : SpentTree view s
  right : SpentTree view t
  header : SameHeader view s t

namespace SpentPair

/-- Two calls return the same stream, and keep the header stream the same. -/
theorem schedule (h : SpentPair view s t) (hlater : Later view view') :
    Option.Rel (fun a b : Option ℕ × StreamScheduler => a.1 = b.1 ∧ SpentPair view a.2 b.2)
      (s.schedule view') (t.schedule view') := by
  obtain ⟨s', hs, hs', hsheader⟩ := h.left.schedule hlater
  obtain ⟨t', ht, ht', htheader⟩ := h.right.schedule hlater
  rw [hs, ht]
  rcases h.header with hsame | ⟨hdone, hdone'⟩
  · have hid : (t.node 0).id = (s.node 0).id := congrArg Prod.fst hsame
    refine .some ⟨?_, hs', ht', Or.inl ?_⟩
    · simp only [eligible_congr_header hsame]
    · rw [htheader, hsheader]
      simp only [finished_congr_header hsame, hid, hsame]
  · -- the stream stays as it is, or it is gone
    have hstays : ∀ {u u' : StreamScheduler}, headerDone view u → u'.header =
        (if u.finished view' 0 then ((u.node 0).id, .closed, none) else u.header) →
          headerDone view u' := by
      intro u u' hu hheader
      split at hheader
      · exact headerDone_of_none (congrArg (fun p => p.2.2) hheader)
      · exact (headerDone_congr hheader).mpr hu
    refine .some ⟨?_, hs', ht', Or.inr ⟨hstays hdone hsheader, hstays hdone' htheader⟩⟩
    simp only [hdone.not_eligible hlater, hdone'.not_eligible hlater]

/-- **Spent trees with the same header stream return the same streams**, whatever the streams do
meanwhile. -/
theorem schedules (h : SpentPair view s t) {views : List (ℕ → StreamView)}
    (hviews : ∀ view' ∈ views, Later view view') :
    (t.schedules views).map Prod.fst = (s.schedules views).map Prod.fst :=
  schedules_rel (R := SpentPair view) (V := Later view) (fun hlater h => h.schedule hlater) h hviews

/-- A change of the second tree that keeps its header stream. -/
theorem of_prunes (h : SpentPair view s t) (hu : Tree u) (hprune : Prunes view t u)
    (hheader : u.header = t.header) : SpentPair view s u :=
  ⟨h.left, h.right.of_prunes hu hprune, h.header.trans (Or.inl hheader)⟩

/-- A call for the second scheduler only makes no difference. -/
theorem schedule_right (h : SpentPair view s t) {strm : Option ℕ}
    (heq : t.schedule view = some (strm, u)) : SpentPair view s u ∧ ∀ n ∈ strm, n = 0 := by
  obtain ⟨u', heq', hu, hheader⟩ := h.right.schedule fun _ hfin => hfin
  cases heq.symm.trans heq'
  refine ⟨⟨h.left, hu, h.header.trans ?_⟩, fun n hn => ?_⟩
  · split at hheader
    · next hfin =>
      exact Or.inr ⟨headerDone_of_finished hfin,
        headerDone_of_none (congrArg (fun p => p.2.2) hheader)⟩
    · exact Or.inl hheader
  · split at hn
    · exact (Option.some.inj hn).symm
    · cases hn

theorem modify (h : SpentPair view s t) {f : Node → Node}
    (hf : (f (t.node n)).layout = (t.node n).layout) : SpentPair view s (t.modify n f) := by
  refine h.of_prunes (h.right.tree.modify (congrArg Node.children hf : _)
    (congrArg Node.activeChildren hf : _) (congrArg Node.nextChild hf : _)
    (congrArg Node.parent hf : _) fun _ => (congrArg Node.state hf : _)) (Prunes.of_modify
    (congrArg Node.parent hf : _) (congrArg Node.id hf : _) (congrArg Node.weight hf : _)
    (congrArg Node.state hf : _) (congrArg Node.stream hf : _) (congrArg Node.children hf : _)
    (congrArg Node.childrensWeight hf : _)) ?_
  unfold StreamScheduler.header
  rw [modify_field Node.id (congrArg Node.id hf : _), modify_field Node.state (congrArg Node.state hf : _),
    modify_field Node.stream (congrArg Node.stream hf : _)]

theorem setWaiting (h : SpentPair view s t) (n waiting : ℕ) :
    SpentPair view s (t.modify n fun node => { node with waiting := waiting }) :=
  h.modify rfl

/-- `skip` of the root uses up its quantum only. -/
theorem skip (h : SpentPair view s t) (heq : t.skip 0 = some u) : SpentPair view s u := by
  have hroot : ((t.modify 0 fun node => { node with quantum := 0 }).node 0).parent = none := by
    rw [modify_node_self]
    exact h.right.tree.root
  unfold StreamScheduler.skip at heq
  rw [skipUp, hroot] at heq
  cases heq
  exact h.modify rfl

theorem setToSend (h : SpentPair view s t) (strm : Option ℕ) :
    SpentPair view s { t with toSend := strm } :=
  h.of_prunes (h.right.tree.setToSend strm) ⟨rfl, rfl, rfl, fun _ => rfl, fun _ => rfl,
    fun _ => Or.inl ⟨rfl, rfl⟩, fun _ => Or.inl ⟨rfl, rfl⟩⟩ rfl

end SpentPair

end StreamScheduler

end MultipathQuic
