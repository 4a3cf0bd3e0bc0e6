import Mathlib.Order.Interval.Finset.Nat
import MultipathQuic.Library.Forest
import MultipathQuic.Scheduler.StreamScheduler

/-!
# The lists of children

In which list a node stands is a partial function on nodes. In a consistent tree it is the list of
the parent for the nodes that are active or have children, and no list for the others; while an
operation is at work, one node may stand somewhere else.
-/

namespace MultipathQuic

open Function Forest

namespace StreamScheduler

variable {s s' s'' : StreamScheduler} {listed par : ℕ → Option ℕ} {n p c x : ℕ}

/-- The parent pointers. -/
def parent (s : StreamScheduler) (n : ℕ) : Option ℕ := (s.node n).parent

/-- The pointers to nodes of the heap. -/
def pointers (s : StreamScheduler) : Finset ℕ := Finset.range s.size

@[simp] theorem modify_node_self (s : StreamScheduler) (n : ℕ) (f : Node → Node) :
    (s.modify n f).node n = f (s.node n) :=
  update_self _ _ _

theorem modify_node_of_ne {f : Node → Node} (h : x ≠ n) : (s.modify n f).node x = s.node x :=
  update_of_ne h _ _

/-- What a change of one node keeps there, it keeps everywhere. -/
theorem modify_field {β : Type*} (g : Node → β) {f : Node → Node}
    (hf : g (f (s.node n)) = g (s.node n)) (x : ℕ) : g ((s.modify n f).node x) = g (s.node x) := by
  by_cases hx : x = n
  · subst hx
    rw [modify_node_self, hf]
  · rw [modify_node_of_ne hx]

@[simp] theorem modify_size (s : StreamScheduler) (n : ℕ) (f : Node → Node) :
    (s.modify n f).size = s.size := rfl

/-- The lists of children are those that `listed` tells, and what is stored about their length
agrees with them. -/
structure Listing (s : StreamScheduler) (listed : ℕ → Option ℕ) : Prop where
  count : ∀ p n, (s.node p).children.count n = if listed n = some p then 1 else 0
  active : ∀ p, (s.node p).activeChildren = (s.node p).children.length
  next : ∀ p, (s.node p).nextChild < (s.node p).children.length ∨ (s.node p).nextChild = 0
  bound : ∀ {n p}, listed n = some p → n ≠ 0 ∧ n < s.size ∧ p < s.size
  size_le : s.size ≤ 2 ^ 16

/-- The lists of a consistent tree: a node stands in the list of its parent iff it is active or has
children. -/
def canon (s : StreamScheduler) (par : ℕ → Option ℕ) (n : ℕ) : Option ℕ :=
  if s.attached n then par n else none

theorem canon_of_attached (h : s.attached n) : s.canon par n = par n := if_pos h

theorem canon_of_not_attached (h : ¬ s.attached n) : s.canon par n = none := if_neg h

theorem canon_eq_some : s.canon par n = some p ↔ s.attached n ∧ par n = some p := by
  by_cases h : s.attached n
  · simp [canon_of_attached h, h]
  · simp [canon_of_not_attached h, h]

/-- Only the attachment of a node matters. -/
theorem canon_apply_congr (h : s'.attached n ↔ s.attached n) : s'.canon par n = s.canon par n := by
  unfold canon
  simp only [h]

theorem canon_congr (h : ∀ n, s'.attached n ↔ s.attached n) : s'.canon par = s.canon par :=
  funext fun n => canon_apply_congr (h n)

namespace Listing

theorem mem_iff (h : Listing s listed) : n ∈ (s.node p).children ↔ listed n = some p := by
  rw [← List.count_pos_iff, h.count]
  split_ifs with hn
  · simp [hn]
  · simp [hn]

theorem nodup (h : Listing s listed) (p : ℕ) : (s.node p).children.Nodup := by
  rw [List.nodup_iff_count_le_one]
  intro n
  rw [h.count]
  split_ifs <;> omega

theorem attached_of_mem (h : Listing s listed) (hc : c ∈ (s.node p).children) : s.attached p := by
  refine Or.inr ?_
  rw [h.active]
  exact List.length_pos_of_mem hc

theorem attached_iff (h : Listing s listed) :
    s.attached p ↔ (s.node p).state = .active ∨ (s.node p).children ≠ [] := by
  unfold attached
  rw [h.active, gt_iff_lt, List.length_pos_iff]

end Listing

/-- Distinct pointers to nodes other than the root are fewer than the nodes. -/
theorem length_le_of_nodup {l : List ℕ} {k : ℕ} (hl : l.Nodup)
    (hmem : ∀ n ∈ l, n ≠ 0 ∧ n < k) : l.length ≤ k - 1 := by
  have hsub : l.toFinset ⊆ Finset.Ico 1 k := by
    intro n hn
    obtain ⟨hne, hlt⟩ := hmem n (List.mem_toFinset.mp hn)
    exact Finset.mem_Ico.mpr ⟨Nat.one_le_iff_ne_zero.mpr hne, hlt⟩
  have hcard := Finset.card_le_card hsub
  rwa [List.toFinset_card_of_nodup hl, Nat.card_Ico] at hcard

namespace Listing

theorem bound_of_mem (h : Listing s listed) (hn : n ∈ (s.node p).children) :
    n ≠ 0 ∧ n < s.size :=
  ⟨(h.bound (h.mem_iff.mp hn)).1, (h.bound (h.mem_iff.mp hn)).2.1⟩

theorem length_lt (h : Listing s listed) (p : ℕ) : (s.node p).children.length < 2 ^ 16 := by
  have hle := length_le_of_nodup (h.nodup p) fun n hn => h.bound_of_mem hn
  have hsize := h.size_le
  omega

theorem nextChild_lt (h : Listing s listed) (hne : (s.node p).children ≠ []) :
    (s.node p).nextChild < (s.node p).children.length := by
  rcases h.next p with hlt | hzero
  · exact hlt
  · rw [hzero]
    exact List.length_pos_iff.mpr hne

/-- Where a node stands that stands nowhere. -/
theorem not_mem_of_none (h : Listing s listed) (hc : listed c = none) (p : ℕ) :
    c ∉ (s.node p).children := by
  rw [h.mem_iff, hc]
  exact (Option.some_ne_none p).symm

/-! ### One list -/

/-- A node that stands nowhere is put into a list. -/
theorem appendChild (h : Listing s listed) (hc : listed c = none) (hc0 : c ≠ 0)
    (hcs : c < s.size) (hps : p < s.size) :
    Listing (s.appendChild p c) (update listed c (some p)) := by
  have hnew : ((s.appendChild p c).node p).children = (s.node p).children ++ [c] := by
    simp [StreamScheduler.appendChild]
  have hother : ∀ q ≠ p, (s.appendChild p c).node q = s.node q := fun q hq => modify_node_of_ne hq
  have hlen : (s.node p).children.length + 1 < 2 ^ 16 := by
    have hnodup : (c :: (s.node p).children).Nodup :=
      List.nodup_cons.mpr ⟨h.not_mem_of_none hc p, h.nodup p⟩
    have hle := length_le_of_nodup (k := s.size) hnodup fun n hn => by
      rcases List.mem_cons.mp hn with rfl | hn
      · exact ⟨hc0, hcs⟩
      · exact h.bound_of_mem hn
    have hsize := h.size_le
    rw [List.length_cons] at hle
    omega
  refine ⟨fun q n => ?_, fun q => ?_, fun q => ?_, fun {n q} hn => ?_, h.size_le⟩
  · by_cases hn : n = c
    · subst hn
      rw [update_self]
      by_cases hq : q = p
      · subst hq
        rw [hnew, List.count_append, List.count_eq_zero.mpr (h.not_mem_of_none hc q)]
        simp
      · rw [hother q hq, List.count_eq_zero.mpr (h.not_mem_of_none hc q),
          if_neg fun he => hq (Option.some.inj he).symm]
    · rw [update_of_ne hn, ← h.count]
      by_cases hq : q = p
      · subst hq
        rw [hnew, List.count_append, List.count_singleton, if_neg (by simpa using Ne.symm hn),
          Nat.add_zero]
      · rw [hother q hq]
  · by_cases hq : q = p
    · subst hq
      rw [hnew, List.length_append, List.length_singleton, ← h.active]
      rw [← h.active] at hlen
      exact (congrArg Node.activeChildren (modify_node_self _ _ _)).trans (add16_of_lt hlen)
    · rw [hother q hq]
      exact h.active q
  · by_cases hq : q = p
    · subst hq
      have hnext : ((s.appendChild q c).node q).nextChild = (s.node q).nextChild := by
        simp [StreamScheduler.appendChild]
      rw [hnew, hnext, List.length_append]
      rcases h.next q with hlt | hzero
      · exact Or.inl (Nat.lt_add_right _ hlt)
      · exact Or.inr hzero
    · rw [hother q hq]
      exact h.next q
  · by_cases hn' : n = c
    · subst hn'
      rw [update_self] at hn
      cases hn
      exact ⟨hc0, hcs, hps⟩
    · rw [update_of_ne hn'] at hn
      exact h.bound hn

end Listing

/-- If the child is in the list, `removeWeight` removes it. -/
theorem eraseIdx_childIndex {l : List ℕ} (hc : c ∈ l) : l.eraseIdx (childIndex l c) = l.erase c := by
  rw [List.erase_eq_eraseIdx, childIndex]
  cases hi : l.idxOf? c with
  | none => exact absurd hc (List.idxOf?_eq_none_iff.mp hi)
  | some i => rfl

theorem children_dropChild (hc : c ∈ (s.node p).children) :
    ((s.dropChild p c).node p).children = (s.node p).children.erase c := by
  rw [StreamScheduler.dropChild, modify_node_self]
  exact eraseIdx_childIndex hc

theorem dropChild_node_of_ne (h : x ≠ p) : (s.dropChild p c).node x = s.node x := by
  unfold StreamScheduler.dropChild
  exact modify_node_of_ne h

/-- A node is taken out of its list. -/
theorem Listing.dropChild (h : Listing s listed) (hc : listed c = some p) :
    Listing (s.dropChild p c) (update listed c none) := by
  have hmem : c ∈ (s.node p).children := h.mem_iff.mpr hc
  have hnew := children_dropChild hmem
  have hother : ∀ q ≠ p, (s.dropChild p c).node q = s.node q := fun q hq => dropChild_node_of_ne hq
  have hlen := List.length_erase_of_mem hmem
  have hpos := List.length_pos_of_mem hmem
  have hlt := h.length_lt p
  refine ⟨fun q n => ?_, fun q => ?_, fun q => ?_, fun {n q} hn => ?_, h.size_le⟩
  · by_cases hn : n = c
    · subst hn
      rw [update_self, if_neg (Option.some_ne_none q).symm]
      by_cases hq : q = p
      · subst hq
        rw [hnew, List.count_erase_self, h.count, if_pos hc]
      · rw [hother q hq, h.count, hc, if_neg fun he => hq (Option.some.inj he).symm]
    · rw [update_of_ne hn, ← h.count]
      by_cases hq : q = p
      · subst hq
        rw [hnew, List.count_erase_of_ne hn]
      · rw [hother q hq]
  · by_cases hq : q = p
    · subst hq
      have hactive : ((s.dropChild q c).node q).activeChildren =
          sub16 (s.node q).activeChildren 1 := by
        rw [StreamScheduler.dropChild, modify_node_self]
      rw [hnew, hlen, hactive, h.active, sub16_of_le (by omega) hlt]
    · rw [hother q hq]
      exact h.active q
  · by_cases hq : q = p
    · subst hq
      have hnext : ((s.dropChild q c).node q).nextChild =
          if ((s.node q).children.erase c).length = 0 then 0
          else (s.node q).nextChild % (((s.node q).children.erase c).length % 2 ^ 16) := by
        rw [StreamScheduler.dropChild, modify_node_self, eraseIdx_childIndex hmem]
      rw [hnew, hnext]
      split_ifs with hzero
      · exact Or.inr rfl
      · rw [Nat.mod_eq_of_lt (by omega : ((s.node q).children.erase c).length < 2 ^ 16)]
        exact Or.inl (Nat.mod_lt _ (by omega))
    · rw [hother q hq]
      exact h.next q
  · by_cases hn' : n = c
    · subst hn'
      rw [update_self] at hn
      cases hn
    · rw [update_of_ne hn'] at hn
      exact h.bound hn

end StreamScheduler

end MultipathQuic
