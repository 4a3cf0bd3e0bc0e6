import Mathlib.Algebra.BigOperators.Ring.List
import MultipathQuic.Scheduler.Shares

/-!
# The completion of a stream

`bytesUntilCompletion` estimates how much the connection has to send before a stream is through. It
uses the fields that `traverse` has left in the node of the stream: `lowestQuantum`, which never
changes, and the share of the bandwidth, `numerator` to `denominator`. Both are products over the
way from the root to the stream, and they are computed in 64 bits from weights that have been
incremented in 8 bits.

## Main definitions

* `weightProduct`, `childrensProduct`: the products over the way

## Main results

* `Tree.estimable`: they are what `schedule` leaves
* `bytesUntilCompletion_isSome_iff`: when the estimate does not divide by zero
* `le_bytesUntilCompletion_iff`: when it is at least the data of the stream
-/

namespace MultipathQuic

open Function Forest

namespace StreamScheduler

variable {view : ℕ → StreamView} {s s' t : StreamScheduler} {n p x m : ℕ}

/-! ## What never changes -/

/-- `lowestQuantum` has its first value everywhere, and the root has the whole bandwidth. -/
structure Unscaled (s : StreamScheduler) : Prop where
  lowestQuantum : ∀ x, (s.node x).lowestQuantum = 256
  numerator_root : (s.node 0).numerator = 1
  denominator_root : (s.node 0).denominator = 1

theorem unscaled_new : Unscaled newStreamScheduler := ⟨fun _ => rfl, rfl, rfl⟩

theorem Unscaled.modify (h : Unscaled s) {f : Node → Node}
    (hlowest : (f (s.node n)).lowestQuantum = (s.node n).lowestQuantum)
    (hnum : n = 0 → (f (s.node n)).numerator = (s.node n).numerator)
    (hden : n = 0 → (f (s.node n)).denominator = (s.node n).denominator) :
    Unscaled (s.modify n f) where
  lowestQuantum x := (modify_field Node.lowestQuantum hlowest x).trans (h.lowestQuantum x)
  numerator_root := by
    by_cases h0 : 0 = n
    · subst h0
      rw [modify_node_self, hnum rfl, h.numerator_root]
    · rw [modify_node_of_ne h0, h.numerator_root]
  denominator_root := by
    by_cases h0 : 0 = n
    · subst h0
      rw [modify_node_self, hden rfl, h.denominator_root]
    · rw [modify_node_of_ne h0, h.denominator_root]

theorem rewireRule_unscaled : RewireRule Unscaled where
  modify := fun hf h => h.modify (congrArg Node.lowestQuantum hf : _)
    (fun _ => (congrArg Node.numerator hf : _)) fun _ => (congrArg Node.denominator hf : _)

/-- `traverse` gives a node the `lowestQuantum` of its parent, and the root has no parent. -/
theorem scheduleRule_unscaled (view : ℕ → StreamView) :
    ScheduleRule view (fun _ => True) fun s => Unscaled s ∧ s.parent 0 = none where
  child := fun _ _ _ => trivial
  refresh := by
    rintro s n ⟨h, hroot⟩ -
    have hroot' : n = 0 → (s.node n).parent = none := by
      rintro rfl
      exact hroot
    refine ⟨h.modify ?_ (fun h0 => ?_) fun h0 => ?_, ?_⟩
    · dsimp only
      split_ifs <;> split <;> simp only [lowestQuantumOf_eq, h.lowestQuantum]
    · dsimp only
      split_ifs <;> simp only [hroot' h0]
    · dsimp only
      split_ifs <;> simp only [hroot' h0]
    · rw [(sameShape_refresh s n).parent_eq, hroot]
  count := fun hf h => ⟨h.1.modify (congrArg Node.lowestQuantum hf : _)
    (fun _ => (congrArg Node.numerator hf : _)) fun _ => (congrArg Node.denominator hf : _),
    (congrFun (parent_modify (congrArg Node.parent hf : _)) 0).trans h.2⟩
  drop := by
    rintro s n c - ⟨h, hroot⟩
    refine ⟨?_, (congrFun (climbs_dropChild s n c).parent_eq 0).trans hroot⟩
    unfold dropChild
    exact h.modify rfl (fun _ => rfl) fun _ => rfl
  close := by
    rintro s n ⟨h, hroot⟩ - -
    have h' : Unscaled { s with openStreams := s.openStreams - 1 } := ⟨h.1, h.2, h.3⟩
    exact ⟨h'.modify rfl (fun _ => rfl) fun _ => rfl, (congrFun (parent_modify rfl) 0).trans hroot⟩

theorem Unscaled.addNode (h : Unscaled s) (hpos : 0 < s.size) (id : ℕ) :
    Unscaled (s.addNode id) := by
  unfold StreamScheduler.addNode
  split
  · exact h
  split
  · have h' := h.modify (n := 0)
      (f := fun node => { node with stream := some id, state := .active }) rfl (fun _ => rfl)
      fun _ => rfl
    exact ⟨h'.1, h'.2, h'.3⟩
  · have hroot : update s.node s.size (newNode id (some id) (some 0)) 0 = s.node 0 :=
      update_of_ne (by omega) _ _
    refine ⟨fun x => ?_, ?_, ?_⟩
    · change (update s.node s.size (newNode id (some id) (some 0)) x).lowestQuantum = 256
      by_cases hx : x = s.size
      · rw [hx, update_self]
        rfl
      · rw [update_of_ne hx, h.lowestQuantum]
    · change (update s.node s.size (newNode id (some id) (some 0)) 0).numerator = 1
      rw [hroot, h.numerator_root]
    · change (update s.node s.size (newNode id (some id) (some 0)) 0).denominator = 1
      rw [hroot, h.denominator_root]

theorem Unscaled.setActive (h : Unscaled s) {id : ℕ} {err : Option SchedulerError}
    (heq : s.setActive id = some (s', err)) : Unscaled s' := by
  obtain rfl | ⟨n, p, t, -, -, -, hadd, rfl⟩ := setActive_cases heq
  · exact h
  · have ht : Unscaled t := by
      refine rewireRule_unscaled.addWeightUp ?_ hadd
      exact h.modify rfl (fun _ => rfl) fun _ => rfl
    exact ⟨ht.1, ht.2, ht.3⟩

end StreamScheduler

open StreamScheduler (Unscaled Tree)

theorem SchedulerOp.unscaled_apply {s s' : StreamScheduler} (hs : Tree s) (h : Unscaled s)
    {op : SchedulerOp} (heq : op.apply s = some s') : Unscaled s' := by
  cases op, s', heq using SchedulerOp.apply_cases with
  | addNode id =>
    exact h.addNode hs.size_pos id
  | maybeSetWeight id weight t err heq hcall =>
    exact StreamScheduler.rewireRule_unscaled.maybeSetWeight h hcall
  | maybeSetParent childID parentID exclusive t err heq hcall =>
    exact StreamScheduler.rewireRule_unscaled.maybeSetParent h hcall
  | setActive id t err heq hcall =>
    exact h.setActive hcall
  | schedule view strm t heq hcall =>
    exact ((StreamScheduler.scheduleRule_unscaled view).traverse ⟨h, hs.root⟩ trivial hcall).1

/-- The state of a sound run. -/
theorem SchedulerRun.unscaled {ops : List SchedulerOp} (h : SchedulerRun.Sound ops) :
    ∃ s, SchedulerRun.run ops = some s ∧ Tree s ∧ Unscaled s := by
  refine Runs.Along.invariant (P := fun o => ∃ s, o = some s ∧ Tree s ∧ Unscaled s) h
    ⟨_, rfl, StreamScheduler.tree_new, StreamScheduler.unscaled_new⟩ ?_
  rintro o op ⟨s, rfl, htree, hunscaled⟩ hop
  obtain ⟨s', heq, htree'⟩ := SchedulerOp.tree_apply htree (hop s rfl)
  exact ⟨s', heq, htree', SchedulerOp.unscaled_apply htree hunscaled heq⟩

namespace StreamScheduler

variable {view : ℕ → StreamView} {s s' t : StreamScheduler} {n p x m : ℕ}

/-! ## Products over the way to a stream -/

/-- The product over the nodes on the way to `n`, the root apart. -/
def pathProduct (s : StreamScheduler) (g : ℕ → ℕ) (n : ℕ) : ℕ :=
  (((s.path n).filter (· ≠ 0)).map g).prod

/-- The product of the weights plus one, which the code computes in 8 bits. -/
def weightProduct (s : StreamScheduler) (n : ℕ) : ℕ :=
  s.pathProduct (fun x => ((s.node x).weight + 1).toNat) n

/-- The weight of the children of the parent of a node. -/
def levelWeight (s : StreamScheduler) (x : ℕ) : ℕ :=
  (s.parent x).elim 1 fun p => (s.node p).childrensWeight

/-- The product of the weights of the children of the parents. -/
def childrensProduct (s : StreamScheduler) (n : ℕ) : ℕ := s.pathProduct s.levelWeight n

theorem Wired.pathProduct_root (h : Wired s) (g : ℕ → ℕ) : s.pathProduct g 0 = 1 := by
  unfold pathProduct
  rw [h.path_root]
  rfl

theorem Wired.pathProduct_of_parent (h : Wired s) (g : ℕ → ℕ) (hp : s.parent n = some p) :
    s.pathProduct g n = g n * s.pathProduct g p := by
  unfold pathProduct
  rw [h.path_of_parent hp, List.filter_cons_of_pos (by simpa using h.ne_zero hp), List.map_cons,
    List.prod_cons]

theorem mul64_mod (a b : ℕ) : mul64 a (b % 2 ^ 64) = a * b % 2 ^ 64 := by
  unfold mul64
  exact Nat.mul_mod_mod a b _

/-- A value that is computed on the way from the root is the product, in 64 bits. -/
theorem Wired.eq_pathProduct (h : Wired s) (val : ℕ → ℕ) {g : ℕ → ℕ} (hroot : val 0 = 1)
    (hstep : ∀ {x p}, s.parent x = some p → Above s.parent x m → val x = mul64 (g x) (val p))
    (h0 : Above s.parent 0 n) (hnm : Above s.parent n m) :
    val n = s.pathProduct g n % 2 ^ 64 := by
  -- on the way from the root down to `n`
  induction h0 using Relation.ReflTransGen.head_induction_on with
  | refl =>
    rw [hroot, h.pathProduct_root]
    decide
  | @head x y hxy _ ih =>
    rw [hstep hxy hnm, ih ((above_parent hxy).trans hnm), mul64_mod, h.pathProduct_of_parent g hxy]

/-- What `schedule` leaves in the node that it returns. -/
structure Estimable (t : StreamScheduler) (n : ℕ) : Prop where
  stream : (t.node n).stream ≠ none
  lowestQuantum : (t.node n).lowestQuantum = 256
  numerator : (t.node n).numerator = t.weightProduct n % 2 ^ 64
  denominator : (t.node n).denominator = t.childrensProduct n % 2 ^ 64

/-- **The shares of the stream that `schedule` returns are the products over the way to it.** -/
theorem Tree.estimable (h : Tree s) (hcalm : Calm view s) (hunscaled : Unscaled s)
    (heq : s.schedule view = some (some n, t)) : Tree t ∧ Estimable t n := by
  obtain ⟨r, t', heq', htree, hprune⟩ := h.schedule hcalm
  rw [heq] at heq'
  cases heq'
  have hfuel : s.size < rank s.parent s.pointers 0 + (s.size + 1) := by omega
  have hpass : ∀ p, s.parent 0 = some p → Passed view s p := by
    intro p hp
    rw [h.root] at hp
    cases hp
  have hshares := h.shares hcalm hpass (fun hne => absurd rfl hne) hfuel heq
  have hfinal := ((scheduleRule_unscaled view).traverse ⟨hunscaled, h.root⟩ trivial heq).1
  have hparent : t.parent = s.parent := hprune.parent_eq
  have habove : Above t.parent 0 n := hparent ▸ hshares.above
  have hroot : ∀ {x p}, t.parent x = some p → Above t.parent x n → Above s.parent 0 p := by
    intro x p hp _
    rw [← hparent]
    exact htree.above_root (htree.lt_size hp).2
  refine ⟨htree, hshares.stream, hfinal.lowestQuantum n, ?_, ?_⟩
  · refine htree.toWired.eq_pathProduct (fun x => (t.node x).numerator)
      hfinal.numerator_root (fun {x p} hp hx => ?_) habove (Above.refl n)
    have h0 := hroot hp hx
    rw [hparent] at hp hx
    exact hshares.numerator_below hp h0 hx
  · refine htree.toWired.eq_pathProduct (fun x => (t.node x).denominator)
      hfinal.denominator_root (fun {x p} hp hx => ?_) habove (Above.refl n)
    have h0 := hroot hp hx
    have hlevel : t.levelWeight x = (t.node p).childrensWeight := by
      rw [levelWeight, hp]
      rfl
    rw [hlevel]
    rw [hparent] at hp hx
    exact hshares.denominator_below hp h0 hx

/-! ## The estimate -/

/-- What is left of the data of a stream after the next packet. -/
def remainder (len : ℕ) : ℕ := if maxPacketSize < len then sub64 len maxPacketSize else len

theorem bytesUntilCompletion_eq {id : ℕ} (hid : (s.node n).stream = some id) :
    s.bytesUntilCompletion view n =
      if mul64 (s.node n).lowestQuantum maxPacketSize ≥ remainder (view id).lenOfDataForWriting ∨
          s.openStreams = 1 then
        some (view id).lenOfDataForWriting
      else if (s.node n).numerator = 0 then none
      else some (add64
        (mul64 (sub64 (s.node n).denominator (s.node n).numerator)
          (remainder (view id).lenOfDataForWriting))
        ((view id).lenOfDataForWriting / (s.node n).numerator)) := by
  unfold bytesUntilCompletion
  rw [hid]
  rfl

/-- The estimate fails for some amount of data iff `numerator` is zero. -/
theorem Estimable.isSome_iff (h : Estimable t n) :
    (∀ view (k : ℤ), ({ t with openStreams := k }.bytesUntilCompletion view n).isSome) ↔
      (t.node n).numerator ≠ 0 := by
  obtain ⟨id, hid⟩ := Option.ne_none_iff_exists'.mp h.stream
  constructor
  · intro hall hzero
    -- more than the quanta cover, and two open streams
    have hfail := hall (fun _ => ⟨0, false, 400000⟩) 2
    have hlong : ¬ (mul64 256 maxPacketSize ≥ remainder 400000 ∨ (2 : ℤ) = 1) := by decide +kernel
    rw [bytesUntilCompletion_eq (s := { t with openStreams := 2 }) hid] at hfail
    dsimp only at hfail
    rw [h.lowestQuantum, if_neg hlong, if_pos hzero] at hfail
    cases hfail
  · intro hne view k
    rw [bytesUntilCompletion_eq (s := { t with openStreams := k }) hid]
    dsimp only
    rw [if_neg hne]
    split <;> rfl

end StreamScheduler

open SchedulerRun (run Sound)
open SchedulerOp

/-- **The estimate for the stream that `schedule` has returned divides by zero for some amount of data
iff the product of the weights on the way to it is a multiple of 2^64.** -/
theorem bytesUntilCompletion_isSome_iff {ops : List SchedulerOp} {view : ℕ → StreamView}
    (h : Sound (ops ++ [schedule view])) :
    ∃ s, run ops = some s ∧ ∀ n t, s.schedule view = some (some n, t) →
      ((0 < (t.node n).numerator ∧
        ∀ view' (k : ℤ), ({ t with openStreams := k }.bytesUntilCompletion view' n).isSome) ↔
          ¬ 2 ^ 64 ∣ t.weightProduct n) := by
  obtain ⟨hops, hcall, -⟩ := Runs.along_append.mp h
  obtain ⟨s, hs, htree, hunscaled⟩ := SchedulerRun.unscaled hops
  refine ⟨s, hs, fun n t heq => ?_⟩
  obtain ⟨-, hest⟩ := htree.estimable (hcall s hs) hunscaled heq
  have hzero : (t.node n).numerator ≠ 0 ↔ ¬ 2 ^ 64 ∣ t.weightProduct n := by
    rw [hest.numerator]
    exact not_congr Nat.dvd_iff_mod_eq_zero.symm
  rw [hest.isSome_iff, Nat.pos_iff_ne_zero, and_self, hzero]

/-- Stream 5 depends on the root, stream 7 on stream 5. -/
def nestedStreams : List SchedulerOp :=
  [addNode 5, addNode 7, maybeSetParent 7 5 false, maybeSetWeight 5 3, maybeSetWeight 7 254,
    setActive 7]

theorem nestedStreams_isSome :
    Sound (nestedStreams ++ [schedule (viewOf [] [7])]) ∧ ∃ s t, run nestedStreams = some s ∧
      s.schedule (viewOf [] [7]) = some (some 2, t) ∧ t.weightProduct 2 = 4 * 255 ∧
        0 < (t.node 2).numerator ∧ ∀ view (k : ℤ),
          ({ t with openStreams := k }.bytesUntilCompletion view 2).isSome := by
  have hsound : Sound (nestedStreams ++ [schedule (viewOf [] [7])]) := by decide +kernel
  obtain ⟨s, heq, hiff⟩ := bytesUntilCompletion_isSome_iff hsound
  obtain ⟨s', heq', r, hcall, hr, hprod⟩ : ∃ s ∈ run nestedStreams, ∃ r ∈
      s.schedule (viewOf [] [7]), r.1 = some 2 ∧ r.2.weightProduct 2 = 4 * 255 := by
    decide +kernel
  rw [Option.mem_def, heq] at heq'
  cases heq'
  obtain ⟨strm, t⟩ := r
  cases hr
  have hdvd : ¬ 2 ^ 64 ∣ t.weightProduct 2 := by
    rw [hprod]
    decide
  exact ⟨hsound, s, t, heq, hcall, hprod, (hiff 2 t hcall).mpr hdvd⟩

/-- Every stream has a window and 400000 bytes to send. -/
def longBacklog : ℕ → StreamView := fun _ => ⟨1000, false, 400000⟩

/-- Stream 5 has the largest weight. -/
def heaviestStream : List SchedulerOp :=
  [addNode 5, addNode 7, maybeSetWeight 5 255, setActive 5, setActive 7]

/-- **The weight 255 plus one is 0 in 8 bits,** and the estimate divides by zero. -/
theorem heaviestStream_isNone :
    Sound (heaviestStream ++ [schedule longBacklog]) ∧ ∃ s t, run heaviestStream = some s ∧
      s.schedule longBacklog = some (some 1, t) ∧ (t.node 1).numerator = 0 ∧ t.openStreams = 2 ∧
        t.bytesUntilCompletion longBacklog 1 = none := by
  refine ⟨by decide +kernel, ?_⟩
  obtain ⟨s, heq, ⟨strm, t⟩, hcall, hr, hnum, hopen, hnone⟩ : ∃ s ∈ run heaviestStream, ∃ r ∈
      s.schedule longBacklog, r.1 = some 1 ∧ (r.2.node 1).numerator = 0 ∧ r.2.openStreams = 2 ∧
        r.2.bytesUntilCompletion longBacklog 1 = none := by
    decide +kernel
  cases hr
  exact ⟨s, t, heq, hcall, hnum, hopen, hnone⟩

/-! ## The data of the stream itself -/

/-- Products of small factors with larger ones: a difference of one leaves only one factor. -/
theorem prod_le_of_forall_le {l : List ℕ} {f g : ℕ → ℕ} {b : ℕ}
    (h : ∀ x ∈ l, 0 < f x ∧ f x ≤ g x ∧ f x ≤ b) :
    0 < (l.map f).prod ∧ (l.map f).prod ≤ (l.map g).prod ∧
      ((l.map g).prod = (l.map f).prod + 1 → (l.map f).prod ≤ b) := by
  induction l with
  | nil => simp
  | cons x l ih =>
    obtain ⟨⟨hpos, hle, hb⟩, hl⟩ := List.forall_mem_cons.mp h
    obtain ⟨hpos', hle', hb'⟩ := ih hl
    rw [List.map_cons, List.prod_cons, List.map_cons, List.prod_cons]
    generalize (l.map f).prod = F at *
    generalize (l.map g).prod = G at *
    refine ⟨Nat.mul_pos hpos hpos', Nat.mul_le_mul hle hle', fun heq => ?_⟩
    rcases Nat.eq_or_lt_of_le hle with hsame | hlt
    · -- the difference is a multiple of `f x`
      rw [← hsame] at heq
      have hone : f x * (G - F) = 1 := by
        rw [Nat.mul_sub, heq]
        omega
      have hfx : f x = 1 := Nat.eq_one_of_dvd_one (Dvd.intro _ hone)
      have hGF : G - F = 1 := Nat.eq_one_of_dvd_one (Dvd.intro_left _ hone)
      rw [hfx, Nat.one_mul]
      exact hb' (by omega)
    · -- the difference is at least the product of the other factors
      have hmore : (f x + 1) * F ≤ g x * G := Nat.mul_le_mul hlt hle'
      rw [Nat.add_mul, Nat.one_mul, heq] at hmore
      have hF : F = 1 := by omega
      rw [hF, Nat.mul_one]
      exact hb

namespace StreamScheduler

variable {view : ℕ → StreamView} {t : StreamScheduler} {n : ℕ}

/-- The weights on the way to `n` have not been truncated, and nothing overflows in the estimate for
`len` bytes. -/
@[mk_iff]
structure Representable (t : StreamScheduler) (n len : ℕ) : Prop where
  len_lt : len < 2 ^ 64
  numerator_pos : 0 < t.weightProduct n
  level : ∀ x ∈ t.path n, x ≠ 0 → ((t.node x).weight + 1).toNat ≤ t.levelWeight x
  denominator_lt : t.childrensProduct n < 2 ^ 64
  estimate_lt : (t.childrensProduct n - t.weightProduct n) * remainder len +
    len / t.weightProduct n < 2 ^ 64

instance (t : StreamScheduler) (n len : ℕ) : Decidable (Representable t n len) :=
  decidable_of_iff' _ (representable_iff ..)

theorem Representable.products {len : ℕ} (h : Representable t n len) :
    t.weightProduct n ≤ t.childrensProduct n ∧
      (t.childrensProduct n = t.weightProduct n + 1 → t.weightProduct n ≤ 255) := by
  refine (prod_le_of_forall_le fun x hx => ?_).2
  obtain ⟨hpath, hx0⟩ := List.mem_filter.mp hx
  have hne : x ≠ 0 := by simpa using hx0
  have hlt := ((t.node x).weight + 1).toNat_lt
  refine ⟨Nat.pos_of_ne_zero fun hzero => ?_, h.level x hpath hne, by omega⟩
  -- a factor zero would make the product zero
  have hprod : t.weightProduct n = 0 := List.prod_eq_zero (List.mem_map.mpr ⟨x, hx, hzero⟩)
  have hpos := h.numerator_pos
  omega

/-- The bounds of the estimate, where the quanta do not cover what is left. -/
theorem le_estimate_iff {W C len : ℕ} (hW : 0 < W) (hle : W ≤ C)
    (hone : C = W + 1 → W ≤ 255) (hlong : 256 * maxPacketSize < len - maxPacketSize) :
    len ≤ (C - W) * (len - maxPacketSize) + len / W ↔ C ≠ W ∨ W = 1 := by
  unfold maxPacketSize at *
  constructor
  · intro hest
    by_contra hnot
    obtain ⟨hCW, hW1⟩ := not_or.mp hnot
    rw [not_not] at hCW
    rw [hCW, Nat.sub_self, Nat.zero_mul, Nat.zero_add] at hest
    exact absurd (Nat.div_lt_self (by omega) (by omega : 1 < W)) (Nat.not_lt.mpr hest)
  · intro hcond
    rcases Nat.eq_or_lt_of_le hle with hsame | hlt
    · have hW1 : W = 1 := hcond.resolve_left fun hne => hne hsame.symm
      rw [hW1, Nat.div_one]
      exact Nat.le_add_left _ _
    · by_cases hsucc : C = W + 1
      · have hW255 := hone hsucc
        have hdiv : 1350 ≤ len / W := by
          rw [Nat.le_div_iff_mul_le hW]
          have : 1350 * W ≤ 1350 * 255 := Nat.mul_le_mul_left _ hW255
          omega
        rw [hsucc, Nat.add_sub_cancel_left, Nat.one_mul]
        omega
      · have htwice : 2 * (len - 1350) ≤ (C - W) * (len - 1350) :=
          Nat.mul_le_mul_right _ (by omega)
        exact (by omega : len ≤ 2 * (len - 1350)).trans (htwice.trans (Nat.le_add_right _ _))

/-- The estimate covers the data of the stream unless the stream owns its whole branch. -/
theorem Estimable.le_iff (h : Estimable t n) {id : ℕ} (hid : (t.node n).stream = some id)
    (hrep : Representable t n (view id).lenOfDataForWriting) :
    ∃ b, t.bytesUntilCompletion view n = some b ∧
      ((view id).lenOfDataForWriting ≤ b ↔
        remainder (view id).lenOfDataForWriting ≤ 256 * maxPacketSize ∨ t.openStreams = 1 ∨
          t.childrensProduct n ≠ t.weightProduct n ∨ t.weightProduct n = 1) := by
  obtain ⟨hle, hone⟩ := hrep.products
  have hpos := hrep.numerator_pos
  have hden := hrep.denominator_lt
  have hnum : (t.node n).numerator = t.weightProduct n := by
    rw [h.numerator, Nat.mod_eq_of_lt (by omega)]
  have hden' : (t.node n).denominator = t.childrensProduct n := by
    rw [h.denominator, Nat.mod_eq_of_lt hden]
  have hquanta : mul64 256 maxPacketSize = 256 * maxPacketSize := by decide +kernel
  rw [bytesUntilCompletion_eq hid, h.lowestQuantum, hquanta, hnum, hden']
  have hlt := hrep.len_lt
  have hest := hrep.estimate_lt
  generalize (view id).lenOfDataForWriting = len at *
  generalize t.weightProduct n = W at *
  generalize t.childrensProduct n = C at *
  by_cases hshort : remainder len ≤ 256 * maxPacketSize ∨ t.openStreams = 1
  · rw [if_pos hshort]
    refine ⟨len, rfl, iff_of_true le_rfl ?_⟩
    exact hshort.imp_right Or.inl
  · rw [if_neg hshort, if_neg (by omega)]
    obtain ⟨hlong, hopen⟩ := not_or.mp hshort
    -- a long rest is that of more than one packet
    have hrem : remainder len = len - maxPacketSize := by
      unfold remainder at hlong ⊢
      split at hlong
      · next hmore =>
        rw [if_pos hmore]
        exact sub64_of_le hmore.le hlt
      · next hfew =>
        unfold maxPacketSize at *
        omega
    rw [hrem] at hlong hest ⊢
    have hmul : mul64 (C - W) (len - maxPacketSize) = (C - W) * (len - maxPacketSize) := by
      unfold mul64
      exact Nat.mod_eq_of_lt (lt_of_le_of_lt (Nat.le_add_right _ _) hest)
    refine ⟨_, rfl, ?_⟩
    rw [sub64_of_le hle hden, hmul, add64_of_lt hest,
      le_estimate_iff hpos hle hone (Nat.lt_of_not_le hlong)]
    exact ⟨fun hcond => Or.inr (Or.inr hcond),
      fun hcond => (hcond.resolve_left hlong).resolve_left hopen⟩

end StreamScheduler

open StreamScheduler (remainder)

/-- **The estimate for the stream that `schedule` has returned is at least the data of the stream
iff** the quanta cover what is left of it, or only one stream is open, or the stream shares the
bandwidth with others on its way, or `numerator` is one. -/
theorem le_bytesUntilCompletion_iff {ops : List SchedulerOp} {view : ℕ → StreamView}
    (h : Sound (ops ++ [schedule view])) :
    ∃ s, run ops = some s ∧ ∀ n t, s.schedule view = some (some n, t) → ∀ view' (k : ℤ) id,
      (t.node n).stream = some id → t.Representable n (view' id).lenOfDataForWriting →
        ∃ b, { t with openStreams := k }.bytesUntilCompletion view' n = some b ∧
          ((view' id).lenOfDataForWriting ≤ b ↔
            remainder (view' id).lenOfDataForWriting ≤ 256 * maxPacketSize ∨ k = 1 ∨
              t.childrensProduct n ≠ t.weightProduct n ∨ t.weightProduct n = 1) := by
  obtain ⟨hops, hcall, -⟩ := Runs.along_append.mp h
  obtain ⟨s, hs, htree, hunscaled⟩ := SchedulerRun.unscaled hops
  refine ⟨s, hs, fun n t heq view' k id hid hrep => ?_⟩
  obtain ⟨-, hest⟩ := htree.estimable (hcall s hs) hunscaled heq
  have hest' : { t with openStreams := k }.Estimable n :=
    ⟨hest.stream, hest.lowestQuantum, hest.numerator, hest.denominator⟩
  have hrep' : { t with openStreams := k }.Representable n (view' id).lenOfDataForWriting :=
    ⟨hrep.len_lt, hrep.numerator_pos, hrep.level, hrep.denominator_lt, hrep.estimate_lt⟩
  exact hest'.le_iff hid hrep'

/-- Both streams depend on the root and have data. -/
theorem siblings_estimate :
    Sound ([addNode 5, addNode 7, setActive 5, setActive 7] ++ [schedule longBacklog]) ∧
      ∃ s t b, run [addNode 5, addNode 7, setActive 5, setActive 7] = some s ∧
        s.schedule longBacklog = some (some 1, t) ∧
        t.bytesUntilCompletion longBacklog 1 = some b ∧ 400000 ≤ b := by
  have hsound :
      Sound ([addNode 5, addNode 7, setActive 5, setActive 7] ++ [schedule longBacklog]) := by
    decide +kernel
  obtain ⟨s, heq, hiff⟩ := le_bytesUntilCompletion_iff hsound
  obtain ⟨s', heq', ⟨strm, t⟩, hcall, hr, hid, hrep, hprod⟩ :
      ∃ s ∈ run [addNode 5, addNode 7, setActive 5, setActive 7], ∃ r ∈ s.schedule longBacklog,
        r.1 = some 1 ∧ (r.2.node 1).stream = some 5 ∧ r.2.Representable 1 400000 ∧
          r.2.childrensProduct 1 ≠ r.2.weightProduct 1 := by
    decide +kernel
  rw [Option.mem_def, heq] at heq'
  cases heq'
  cases hr
  obtain ⟨b, hb, hle⟩ := hiff 1 t hcall longBacklog t.openStreams 5 hid hrep
  exact ⟨hsound, s, t, b, heq, hcall, hb, hle.mpr (Or.inr (Or.inr (Or.inl hprod)))⟩

/-- Stream 7 depends on stream 5. -/
def ownBranch : List SchedulerOp :=
  [addNode 5, addNode 7, maybeSetParent 7 5 false, setActive 5, setActive 7]

/-- **Stream 5 owns the only branch of the tree, and the estimate for its 400000 bytes is 25000.** -/
theorem ownBranch_estimate :
    Sound (ownBranch ++ [schedule longBacklog]) ∧ ∃ s t, run ownBranch = some s ∧
      s.schedule longBacklog = some (some 1, t) ∧ t.Representable 1 400000 ∧ t.openStreams = 2 ∧
        t.bytesUntilCompletion longBacklog 1 = some 25000 := by
  refine ⟨by decide +kernel, ?_⟩
  obtain ⟨s, heq, ⟨strm, t⟩, hcall, hr, hrep, hopen, hest⟩ : ∃ s ∈ run ownBranch, ∃ r ∈
      s.schedule longBacklog, r.1 = some 1 ∧ r.2.Representable 1 400000 ∧ r.2.openStreams = 2 ∧
        r.2.bytesUntilCompletion longBacklog 1 = some 25000 := by
    decide +kernel
  cases hr
  exact ⟨s, t, heq, hcall, hrep, hopen, hest⟩

end MultipathQuic
