import Mathlib.Data.List.Rotate

/-!
# Scans of a ring

The elements of a ring are scanned for the first one that is wanted, again and again; each scan
starts one place after the one before. A place that is not wanted is passed over, and the scan that
starts there finds the same element as the next one.
-/

namespace MultipathQuic

variable {α : Type*} {p : α → Bool}

/-- What `k` scans find, the first of which starts at the head of the list. -/
def scans (p : α → Bool) : ℕ → List α → List α
  | 0, _ => []
  | k + 1, l => (l.find? p).toList ++ scans p k (l.rotate 1)

theorem scans_add (i j : ℕ) (l : List α) :
    scans p (i + j) l = scans p i l ++ scans p j (l.rotate i) := by
  induction i generalizing l with
  | zero => rw [Nat.zero_add, List.rotate_zero, scans, List.nil_append]
  | succ i ih =>
    rw [Nat.add_right_comm, scans, scans, ih, List.rotate_rotate, List.append_assoc,
      Nat.add_comm 1 i]

/-- **A scan that starts at an unwanted element finds the same as the next one.** -/
theorem scans_of_unwanted {x : α} (hx : p x = false) (l : List α) :
    scans p 2 (x :: l) = (l.find? p).toList ++ (l.find? p).toList := by
  have hnot : ¬ p x = true := by simp [hx]
  rw [scans, scans, scans, List.find?_cons_of_neg hnot, List.rotate_cons_succ, List.rotate_zero,
    List.find?_append, List.find?_cons_of_neg hnot, List.append_nil]
  cases l.find? p <;> rfl

/-- The scans from an unwanted element on find something twice, if there is something to find. -/
theorem not_nodup_scans {x : α} (hx : p x = false) {l : List α} {y : α} (hy : y ∈ l)
    (hwanted : p y = true) (k : ℕ) : ¬ (scans p (2 + k) (x :: l)).Nodup := by
  intro hnodup
  obtain ⟨d, hd⟩ : ∃ d, l.find? p = some d := by
    rw [← Option.isSome_iff_exists, List.find?_isSome]
    exact ⟨y, hy, hwanted⟩
  rw [scans_add, scans_of_unwanted hx, hd] at hnodup
  have htwice := (List.nodup_append.mp hnodup).1
  simp at htwice

/-- **Around a ring with unwanted elements**, as many scans in a row as there are wanted elements find
each of them once, wherever they start, iff there is at most one. -/
theorem scans_perm_iff {l : List α} (hnodup : l.Nodup) {x : α} (hx : x ∈ l) (hunwanted : p x = false) :
    (∀ i, (scans p (l.countP p) (l.rotate i)).Perm (l.filter p)) ↔ l.countP p ≤ 1 := by
  constructor
  · intro hperm
    by_contra hmany
    -- the scans that start at `x`
    obtain ⟨u, w, rfl⟩ := List.append_of_mem hx
    obtain ⟨k, hk⟩ := Nat.exists_eq_add_of_le (show 2 ≤ (u ++ x :: w).countP p by omega)
    have hscans := (hperm u.length).nodup_iff.mpr (hnodup.filter p)
    rw [hk, List.rotate_append_length_eq, List.cons_append] at hscans
    obtain ⟨y, hy, hwanted⟩ := List.countP_pos_iff.mp (show 0 < (u ++ x :: w).countP p by omega)
    have hne : y ≠ x := by
      rintro rfl
      exact absurd (hwanted.symm.trans hunwanted) Bool.noConfusion
    refine not_nodup_scans hunwanted (y := y) ?_ hwanted k hscans
    simp only [List.mem_append, List.mem_cons, hne, false_or] at hy ⊢
    exact hy.symm
  · intro hle i
    have hfilter := (List.rotate_perm l i).filter p
    rcases Nat.le_one_iff_eq_zero_or_eq_one.mp hle with hzero | hone
    · have hnil : l.filter p = [] := by
        rw [← List.length_eq_zero_iff, ← List.countP_eq_length_filter, hzero]
      rw [hzero, hnil, scans]
    · obtain ⟨d, hd⟩ := List.length_eq_one_iff.mp (List.countP_eq_length_filter ▸ hone)
      rw [hd, List.perm_singleton] at hfilter
      have hfind : (l.rotate i).find? p = some d := by rw [← List.head?_filter, hfilter]; rfl
      rw [hone, hd, scans, hfind]
      exact .refl _

end MultipathQuic
