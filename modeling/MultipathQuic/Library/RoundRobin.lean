import Mathlib.Data.List.Basic

/-!
# Weighted round robin

A wheel has a number of slots, of which one is the current one, and stores for each slot what is
left of its last share. A turn goes to the current slot; the wheel moves on when nothing is left of
the share of that slot, and a slot at which nothing is left gets its whole share with its next turn.
-/

namespace MultipathQuic.RoundRobin

variable {α : Type*} (share : α → ℕ)

/-- The slots from the current one on, with what is left of their shares. -/
abbrev Wheel (α : Type*) := List (α × ℕ)

/-- The turns that a slot gets in a row once it is the current one. -/
def due (slot : α × ℕ) : ℕ := if slot.2 = 0 then share slot.1 else slot.2

/-- The wheel after a turn. -/
def turn : Wheel α → Wheel α
  | [] => []
  | slot :: slots =>
    if due share slot - 1 = 0 then slots ++ [(slot.1, 0)] else (slot.1, due share slot - 1) :: slots

/-- The slots that get the next `n` turns. -/
def turns : ℕ → Wheel α → List α
  | 0, _ => []
  | _ + 1, [] => []
  | n + 1, slot :: slots => slot.1 :: turns n (turn share (slot :: slots))

/-- The turns of a round that starts with leftovers. -/
def firstRound (w : Wheel α) : List α := w.flatMap fun slot => List.replicate (due share slot) slot.1

/-- The turns of a round without leftovers. -/
def fullRound (w : Wheel α) : List α :=
  w.flatMap fun slot => List.replicate (share slot.1) slot.1

/-- The turns of a first round and of `k` full rounds. -/
def rounds (k : ℕ) (w : Wheel α) : List α :=
  firstRound share w ++ (List.replicate k (fullRound share w)).flatten

variable {share}

theorem due_pos (hshare : ∀ c, 0 < share c) (slot : α × ℕ) : 0 < due share slot := by
  unfold due
  split
  · exact hshare slot.1
  · next h => exact Nat.pos_of_ne_zero h

@[simp] theorem firstRound_cons (slot : α × ℕ) (w : Wheel α) :
    firstRound share (slot :: w) = List.replicate (due share slot) slot.1 ++ firstRound share w :=
  List.flatMap_cons

@[simp] theorem firstRound_append (v w : Wheel α) :
    firstRound share (v ++ w) = firstRound share v ++ firstRound share w :=
  List.flatMap_append

@[simp] theorem fullRound_cons (slot : α × ℕ) (w : Wheel α) :
    fullRound share (slot :: w) = List.replicate (share slot.1) slot.1 ++ fullRound share w :=
  List.flatMap_cons

@[simp] theorem fullRound_append (v w : Wheel α) :
    fullRound share (v ++ w) = fullRound share v ++ fullRound share w :=
  List.flatMap_append

/-- Repetitions of `a ++ b` are repetitions of `b ++ a` between an `a` and a `b`. -/
theorem flatten_replicate_swap (a b : List α) (k : ℕ) :
    (List.replicate (k + 1) (a ++ b)).flatten =
      a ++ ((List.replicate k (b ++ a)).flatten ++ b) := by
  induction k with
  | zero => simp
  | succ k ih =>
    rw [List.replicate_succ, List.flatten_cons, ih, List.replicate_succ, List.flatten_cons]
    simp only [List.append_assoc]

/-- What comes after a turn was due before it. -/
theorem exists_rounds_turn (hshare : ∀ c, 0 < share c) (slot : α × ℕ) (w : Wheel α) (k : ℕ) :
    ∃ k', slot.1 :: rounds share k (turn share (slot :: w)) <+: rounds share k' (slot :: w) := by
  obtain ⟨q, hq⟩ := Nat.exists_eq_add_of_lt (due_pos hshare slot)
  rw [Nat.zero_add] at hq
  rw [turn, hq, Nat.add_sub_cancel]
  by_cases hzero : q = 0
  · -- the share is used up: the slot goes to the end of the wheel, where its whole share is due
    subst hzero
    rw [if_pos rfl]
    refine ⟨k + 1, fullRound share w, ?_⟩
    have hwhole : due share (slot.1, 0) = share slot.1 := if_pos rfl
    simp only [rounds, firstRound_cons, firstRound_append, fullRound_cons, fullRound_append, hq,
      flatten_replicate_swap, hwhole]
    simp [firstRound, fullRound]
  · rw [if_neg hzero]
    refine ⟨k, [], ?_⟩
    have hleft : due share (slot.1, q) = q := if_neg hzero
    simp only [rounds, firstRound_cons, fullRound_cons, hq, hleft, List.replicate_succ,
      List.append_nil, List.cons_append]

/-- **The turns are those of a first round, followed by full rounds.** -/
theorem turns_isPrefix (hshare : ∀ c, 0 < share c) (n : ℕ) (w : Wheel α) :
    ∃ k, turns share n w <+: rounds share k w := by
  induction n generalizing w with
  | zero => exact ⟨0, List.nil_prefix⟩
  | succ n ih =>
    cases w with
    | nil => exact ⟨0, List.nil_prefix⟩
    | cons slot w =>
      obtain ⟨k, hk⟩ := ih (turn share (slot :: w))
      obtain ⟨k', hk'⟩ := exists_rounds_turn hshare slot w k
      refine ⟨k', List.IsPrefix.trans ?_ hk'⟩
      exact (List.prefix_cons_inj slot.1).mpr hk

/-- Every full stretch after the first round is a full round. -/
theorem window_eq {l first full : List α} {k j : ℕ}
    (h : l <+: first ++ (List.replicate k full).flatten)
    (hlen : first.length + (j + 1) * full.length ≤ l.length) :
    (l.drop (first.length + j * full.length)).take full.length = full := by
  rcases Nat.eq_zero_or_pos full.length with hnil | hpos
  · rw [hnil, List.take_zero, List.length_eq_zero_iff.mp hnil]
  have hflat : ∀ n, (List.replicate n full).flatten.length = n * full.length := by simp
  have hle := h.length_le
  rw [List.length_append, hflat] at hle
  have hjk : j + 1 ≤ k := Nat.le_of_mul_le_mul_right (by omega) hpos
  obtain ⟨i, rfl⟩ := Nat.exists_eq_add_of_le hjk
  obtain ⟨rest, hrest⟩ := h
  -- what stands in `l` stands in the whole list, since `l` is long enough
  have hwindow : (l.drop (first.length + j * full.length)).take full.length =
      ((l ++ rest).drop (first.length + j * full.length)).take full.length := by
    rw [Nat.add_mul, Nat.one_mul] at hlen
    rw [List.drop_append_of_le_length (by omega), List.take_append_of_le_length]
    rw [List.length_drop]
    omega
  have hsplit : (List.replicate (j + 1 + i) full).flatten =
      (List.replicate j full).flatten ++ (full ++ (List.replicate i full).flatten) := by
    rw [Nat.add_assoc, List.replicate_add, List.flatten_append, Nat.add_comm 1 i,
      List.replicate_succ, List.flatten_cons]
  rw [hwindow, hrest, List.drop_append, List.drop_of_length_le (Nat.le_add_right _ _),
    Nat.add_sub_cancel_left, List.nil_append, hsplit, ← hflat j, List.drop_left, List.take_left]

end MultipathQuic.RoundRobin
