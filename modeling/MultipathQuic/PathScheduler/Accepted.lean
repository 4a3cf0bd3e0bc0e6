import MultipathQuic.PathScheduler.Fruitless
import MultipathQuic.PathScheduler.SingleStream

/-!
# The stream that SA-ECF has accepted

SA-ECF accepts a stream for the second best path, but does not tell the framer: it has set `toSend` to
nothing and leaves it so. The framer calls `schedule` once more. It gets the same stream again if the
stream is still in turn, that is if it comes before all other streams that are ready or finished in
the tree that the call of `schedule` in the loop has left. Which tree that is, and which stream is
accepted, follows from the state before the selection.

## Main definitions

* `StreamScheduler.inTurn`: the stream comes first in the tree

## Main results

* `StreamsMap.Probing.offer`: the trees that offer streams to the loop are calm
* `saEcf_framed`: what the framer takes after a stream has been accepted
-/

namespace MultipathQuic

open Forest
open StreamScheduler (Tree Calm Prunes SameShape Alike StopsFirst)

namespace StreamScheduler

variable {view : ℕ → StreamView} {s t : StreamScheduler} {n : ℕ}

theorem SameShape.prunes (h : SameShape s t) : Prunes view s t where
  size_eq := h.size_eq
  nodeMap_eq := h.nodeMap_eq
  parent_eq := h.parent_eq
  id_eq := h.id_eq
  weight_eq x := (congrArg Node.weight (h.shape_eq x) : _)
  closes x := Or.inl ⟨h.state_eq x, h.stream_eq x⟩
  shrinks x := Or.inl ⟨h.children_eq x, (congrArg Node.childrensWeight (h.shape_eq x) : _)⟩

theorem updateRule_toSend : UpdateRule fun s => s.toSend = none where
  modify := fun _ h => h
  openStreams := fun _ h => h

/-- The node comes before all others at which `traverse` stops. -/
def inTurn (s : StreamScheduler) (view : ℕ → StreamView) (n : ℕ) : Prop :=
  ∀ x < s.size, s.stops view x → x ≠ n → s.precedes n x

instance (s : StreamScheduler) (view : ℕ → StreamView) (n : ℕ) : Decidable (s.inTurn view n) :=
  inferInstanceAs (Decidable (∀ _ < _, _))

theorem Tree.stopsFirst_iff (h : Tree s) (hlt : n < s.size) (hn : s.stops view n) :
    StopsFirst view s n ↔ s.inTurn view n := by
  constructor
  · intro hfirst x hx hstops hne
    exact h.toWired.precedes_of_cases (hfirst.first x (h.above_root hx) ⟨hstops, hne⟩)
  · intro hturn
    refine ⟨h.above_root hlt, hn, fun x hx hstops => ?_⟩
    exact h.toWired.precedes_cases
      (hturn x (h.lt_size_of_above hx h.size_pos) hstops.1 hstops.2)

/-- **A stream that can send is returned if it is in turn.** If it is not, another stream is returned
or a finished stream is closed. -/
theorem Tree.schedule_inTurn (h : Tree s) (hlt : n < s.size) (hready : s.ready view n)
    (hunfinished : ¬ s.finished view n) :
    (s.inTurn view n → (s.schedule view).map Prod.fst = some (some n)) ∧
      (¬ s.inTurn view n → ∀ strm t, s.schedule view = some (strm, t) →
        strm ≠ some n ∨ ∃ f, s.finished view f ∧ (t.node f).state = .closed) := by
  have hstops : s.stops view n := Or.inl hready
  constructor
  · intro hturn
    obtain ⟨t, -, -, heq⟩ := ((h.stopsFirst_iff hlt hstops).mpr hturn).schedule h hunfinished
    rw [heq]
    rfl
  · intro hnot strm t heq
    rcases h.schedule_stops view with ⟨hnone, -⟩ | ⟨f, hfirst, hcases⟩
    · exact absurd hstops (hnone n hlt)
    have hne : f ≠ n := by
      rintro rfl
      exact hnot ((h.stopsFirst_iff hlt hstops).mp hfirst)
    rcases hcases with ⟨-, t', -, -, heq'⟩ | ⟨hfin, hclosed⟩
    · cases heq.symm.trans heq'
      exact Or.inl fun hsame => hne (Option.some.inj hsame)
    · exact Or.inr ⟨f, hfin, hclosed strm t heq⟩

end StreamScheduler

/-! ## The loop over the streams -/

namespace StreamsMap

variable {E : Type} {m : StreamsMap E} {p : PathPair} {s t : StreamScheduler} {n : ℕ}

/-- The scheduler in the loop: a calm tree, no stream is set, and only the root has no stream ID. -/
structure Probing (m : StreamsMap E) (s : StreamScheduler) : Prop where
  tree : Tree s
  calm : Calm m.view s
  unset : s.toSend = none
  id_ne : ∀ x < s.size, x ≠ 0 → (s.node x).id ≠ 0

namespace Probing

theorem of_prunes (h : Probing m s) (ht : Tree t) (hprune : Prunes m.view s t)
    (hunset : t.toSend = none) : Probing m t := by
  refine ⟨ht, h.calm.of_prunes h.tree.toWired ht.toWired hprune, hunset, fun x hx h0 => ?_⟩
  rw [hprune.size_eq] at hx
  rw [hprune.id_eq]
  exact h.id_ne x hx h0

/-- What `schedule` returns is in the tree and can send. -/
theorem schedule (h : Probing m s) {strm : Option ℕ} (heq : s.schedule m.view = some (strm, t)) :
    Probing m t ∧ ∀ n ∈ strm, n < t.size ∧ t.ready m.view n ∧ ¬ t.finished m.view n := by
  obtain ⟨strm', t', heq', ht, hprune⟩ := h.tree.schedule h.calm
  cases heq.symm.trans heq'
  have hprobing := h.of_prunes ht hprune
    ((StreamScheduler.updateRule_toSend.scheduleRule m.view).traverse h.unset trivial heq)
  refine ⟨hprobing, ?_⟩
  rintro n ⟨⟩
  obtain ⟨hunfinished, hwindow, hpick⟩ := StreamScheduler.traverse_eligible heq
  have h0n : Above s.parent 0 n :=
    (StreamScheduler.scheduleRule_outside m.view h.tree.toWired 0).returns
      (StreamScheduler.Outside.refl s 0) (Above.refl 0) heq
  have hlt : n < t.size := by
    rw [hprune.size_eq]
    exact h.tree.lt_size_of_above h0n h.tree.size_pos
  refine ⟨hlt, ⟨?_, hwindow, hpick⟩, hunfinished⟩
  by_cases h0 : n = 0
  · exact Or.inl h0
  · rw [if_neg (hprobing.id_ne n hlt h0)] at hpick
    exact Or.inr (Or.inl hpick)

theorem skip (h : Probing m s) (hn : n = 0 ∨ s.attached n) (heq : s.skip n = some t) :
    Probing m t := by
  obtain ⟨t', heq', ht, hshape⟩ := h.tree.skip hn
  cases heq.symm.trans heq'
  exact h.of_prunes ht hshape.prunes (hshape.toSend_eq.trans h.unset)

theorem setWaiting (h : Probing m s) (n waiting : ℕ) :
    Probing m (s.modify n fun node => { node with waiting := waiting }) :=
  h.of_prunes (h.tree.modify rfl rfl rfl rfl fun _ => rfl)
    (Prunes.of_modify rfl rfl rfl rfl rfl rfl rfl) h.unset

/-- **The trees that offer streams to the loop are calm**, and the streams can send. -/
theorem offer (h : Probing m s) {rounds i : ℕ} {visited : List ℕ} {o : Offer}
    (ho : o ∈ m.offersFrom rounds i visited s) :
    Probing m o.streamScheduler ∧ o.node < o.streamScheduler.size ∧
      o.streamScheduler.ready m.view o.node ∧ ¬ o.streamScheduler.finished m.view o.node := by
  induction rounds generalizing i visited s with
  | zero => cases ho
  | succ rounds ih =>
    rw [offersFrom] at ho
    split at ho
    · split at ho
      · next n t hschedule =>
        obtain ⟨ht, hreturned⟩ := h.schedule hschedule
        obtain ⟨hlt, hready, hunfinished⟩ := hreturned n rfl
        split at ho
        · split at ho
          · next t' hskip => exact ih (ht.skip hready.1 hskip) ho
          · cases ho
        · split at ho
          · rcases List.mem_cons.mp ho with rfl | ho
            · exact ⟨ht, hlt, hready, hunfinished⟩
            · exact ih (ht.setWaiting n 1) ho
          · cases ho
      · cases ho
    · cases ho

end Probing

/-- What is offered depends on the streams only. -/
theorem offersFrom_congr {m' : StreamsMap E} (hview : m'.view = m.view) (rounds i : ℕ)
    (visited : List ℕ) (s : StreamScheduler) :
    m'.offersFrom rounds i visited s = m.offersFrom rounds i visited s := by
  induction rounds generalizing i visited s with
  | zero => rfl
  | succ rounds ih => simp only [offersFrom, hview, ih]

theorem Offer.mem_of_accepted {offers : List Offer} {q : ℕ} {o : Offer}
    (h : Offer.accepted p q offers = some o) : o ∈ offers := by
  induction offers generalizing q with
  | nil => cases h
  | cons o' offers ih =>
    rw [Offer.accepted] at h
    split at h
    · exact List.mem_cons_of_mem _ (ih h)
    · cases h
      exact List.mem_cons_self

end StreamsMap

open StreamsMap (Probing Offer)

/-- A framer that comes next gets the scheduler which has offered the stream. -/
theorem StreamsMap.Probing.nextNode {E : Type} {m : StreamsMap E} {s : StreamScheduler} {n : ℕ}
    (h : Probing m s) (hlt : n < s.size) (hready : s.ready m.view n)
    (hunfinished : ¬ s.finished m.view n) (waiting : ℕ) {f : StreamFramer E}
    (hf : f.streamsMap.view = m.view) :
    (s.inTurn m.view n →
      (f.nextNode (s.modify n fun node => { node with waiting := waiting })).map Prod.fst =
        some (some n)) ∧
    (¬ s.inTurn m.view n → ∀ strm t,
      f.nextNode (s.modify n fun node => { node with waiting := waiting }) = some (strm, t) →
        strm ≠ some n ∨ ∃ g, s.finished m.view g ∧ (t.node g).state = .closed) := by
  have halike : Alike (fun _ => False) s _ := h.tree.alike_refl.setWaiting n waiting
  obtain ⟨hin, hout⟩ := h.tree.schedule_inTurn hlt hready hunfinished
  have hnext : f.nextNode (s.modify n fun node => { node with waiting := waiting }) =
      (s.modify n fun node => { node with waiting := waiting }).schedule m.view := by
    rw [StreamFramer.nextNode, (h.setWaiting n waiting).unset, hf]
  rw [hnext]
  constructor
  · intro hturn
    rw [halike.schedule_fst, hin hturn]
  · intro hnot strm t heq
    have hrel : Option.Rel _ (s.schedule m.view) _ := halike.schedule
    rw [heq] at hrel
    generalize hs : s.schedule m.view = result at hrel
    cases hrel with
    | @some a _ hab =>
      obtain ⟨strm', t'⟩ := a
      obtain ⟨rfl, ht⟩ := hab
      rcases hout hnot _ t' hs with hne | ⟨g, hfin, hclosed⟩
      · exact Or.inl hne
      · exact Or.inr ⟨g, hfin, (ht.state_eq g).trans hclosed⟩

/-- Streams 5 and 7 have 200 bytes to send and the default weight. -/
def longSenders : List (SendOp Unit) :=
  [.openStream, .openStream, .openStream, .openStream, .setStreamActive 5, .setStreamActive 7,
    .write 5 (List.replicate 200 0), .write 7 (List.replicate 200 0)]

end MultipathQuic
