import Mathlib.Data.Finset.Card
import Mathlib.Logic.Function.Basic
import Mathlib.Logic.Relation

/-!
# Forests of parent pointers

A partial function gives each node its parent. It is a forest if no node lies above its own parent.
Trees of a forest are taken apart by cutting a node off its parent, and put together by hanging a
node without a parent below another tree.
-/

namespace MultipathQuic.Forest

open Function Relation

variable {α : Type*} {parent : α → Option α} {a b c n p : α}

/-- `a` is `n` or an ancestor of `n`. -/
def Above (parent : α → Option α) (a n : α) : Prop :=
  ReflTransGen (fun x y => parent x = some y) n a

@[refl] theorem Above.refl (n : α) : Above parent n n := ReflTransGen.refl

theorem Above.trans (hab : Above parent a b) (hbn : Above parent b n) : Above parent a n :=
  ReflTransGen.trans hbn hab

theorem Above.of_parent (hp : parent n = some p) (ha : Above parent a p) : Above parent a n :=
  ReflTransGen.head hp ha

theorem above_parent (hp : parent n = some p) : Above parent p n :=
  Above.of_parent hp (Above.refl p)

/-- What lies above a node is the node itself, or lies above its parent. -/
theorem above_iff : Above parent a n ↔ a = n ∨ ∃ p, parent n = some p ∧ Above parent a p := by
  constructor
  · intro h
    rcases ReflTransGen.cases_head h with rfl | ⟨p, hp, hrest⟩
    · exact Or.inl rfl
    · exact Or.inr ⟨p, hp, hrest⟩
  · rintro (rfl | ⟨p, hp, ha⟩)
    · exact Above.refl a
    · exact Above.of_parent hp ha

theorem eq_of_above_of_none (hn : parent n = none) (ha : Above parent a n) : a = n := by
  rcases above_iff.mp ha with rfl | ⟨p, hp, -⟩
  · rfl
  · rw [hn] at hp
    cases hp

/-- What lies properly above a node lies above its parent. -/
theorem Above.above_parent_of_ne (ha : Above parent a n) (hne : a ≠ n) (hp : parent n = some p) :
    Above parent a p := by
  rcases above_iff.mp ha with rfl | ⟨q, hq, ha⟩
  · exact absurd rfl hne
  · rw [hp] at hq
    rw [Option.some.inj hq]
    exact ha

/-- Two nodes above the same node lie on one path. -/
theorem Above.total (ha : Above parent a n) (hb : Above parent b n) :
    Above parent b a ∨ Above parent a b :=
  ReflTransGen.total_of_right_unique
    (fun _ _ _ hx hy => Option.some.inj (hx.symm.trans hy)) ha hb

/-- The way down from a node to another one starts with a child. -/
theorem Above.exists_child (ha : Above parent a n) (hne : a ≠ n) :
    ∃ c, parent c = some a ∧ Above parent c n := by
  rcases ReflTransGen.cases_tail ha with heq | ⟨c, hcn, hca⟩
  · exact absurd heq hne
  · exact ⟨c, hca, hcn⟩

/-- The ways to two nodes part somewhere, unless one of them is above the other. -/
theorem exists_parting {m : α} (hab : Above parent a b) (han : Above parent a n)
    (hbm : Above parent b m) (hbn : ¬ Above parent b n) (hnm : ¬ Above parent n m) :
    ∃ p c d, parent c = some p ∧ parent d = some p ∧ c ≠ d ∧ Above parent c m ∧
      Above parent d n := by
  -- from `b` upwards, to the first node that is above `n`
  induction hab using ReflTransGen.head_induction_on with
  | refl => exact absurd han hbn
  | @head x y hxy _ ih =>
    have hym := (above_parent hxy).trans hbm
    by_cases hyn : Above parent y n
    · have hne : y ≠ n := by
        rintro rfl
        exact hnm hym
      obtain ⟨d, hd, hdn⟩ := hyn.exists_child hne
      refine ⟨y, x, d, hxy, hd, ?_, hbm, hdn⟩
      rintro rfl
      exact hbn hdn
    · exact ih hym hyn

/-- No node lies above its own parent, and the nodes that have or are parents are those of `dom`. -/
structure IsForest (parent : α → Option α) (dom : Finset α) : Prop where
  mem : ∀ {n p}, parent n = some p → n ∈ dom ∧ p ∈ dom
  acyclic : ∀ {n p}, parent n = some p → ¬ Above parent n p

variable {dom : Finset α}

theorem IsForest.antisymm (hf : IsForest parent dom) (hab : Above parent a b)
    (hba : Above parent b a) : a = b := by
  rcases above_iff.mp hab with rfl | ⟨p, hp, hap⟩
  · rfl
  · exact absurd (hba.trans hap) (hf.acyclic hp)

theorem IsForest.parent_ne (hf : IsForest parent dom) (hp : parent n = some p) : p ≠ n := by
  rintro rfl
  exact hf.acyclic hp (Above.refl p)

/-- Only one child of a node is above `m`. -/
theorem IsForest.eq_of_above (hf : IsForest parent dom) (ha : parent a = some p)
    (hc : parent c = some p) (ham : Above parent a n) (hcn : Above parent c n) : a = c := by
  -- otherwise one of the two would be above the other, and so above their parent
  by_contra hne
  rcases ham.total hcn with hca | hac
  · exact hf.acyclic hc (hca.above_parent_of_ne (Ne.symm hne) ha)
  · exact hf.acyclic ha (hac.above_parent_of_ne hne hc)

/-- Two ways that part at a node have no other node in common below it. -/
theorem IsForest.eq_of_parting (hf : IsForest parent dom) {d m : α} (hc : parent c = some p)
    (hd : parent d = some p) (hne : c ≠ d) (hcn : Above parent c n) (hdm : Above parent d m)
    (hpa : Above parent p a) (han : Above parent a n) (ham : Above parent a m) : p = a := by
  by_contra hpne
  obtain ⟨e, he, hea⟩ := hpa.exists_child hpne
  exact hne ((hf.eq_of_above hc he hcn (hea.trans han)).trans
    (hf.eq_of_above he hd (hea.trans ham) hdm))

/-- Two ways part at one node only. -/
theorem IsForest.parting_unique (hf : IsForest parent dom) {d c' d' q m : α}
    (hc : parent c = some p) (hd : parent d = some p) (hne : c ≠ d) (hcn : Above parent c n)
    (hdm : Above parent d m) (hc' : parent c' = some q) (hd' : parent d' = some q) (hne' : c' ≠ d')
    (hcn' : Above parent c' n) (hdm' : Above parent d' m) : c' = c ∧ d' = d := by
  have hpn := (above_parent hc).trans hcn
  have hpm := (above_parent hd).trans hdm
  have hqn := (above_parent hc').trans hcn'
  have hqm := (above_parent hd').trans hdm'
  have hpq : p = q := by
    rcases hpn.total hqn with hqp | hpq
    · exact (hf.eq_of_parting hc' hd' hne' hcn' hdm' hqp hpn hpm).symm
    · exact hf.eq_of_parting hc hd hne hcn hdm hpq hqn hqm
  subst hpq
  exact ⟨hf.eq_of_above hc' hc hcn' hcn, hf.eq_of_above hd' hd hdm' hdm⟩

theorem IsForest.mono (hf : IsForest parent dom) {dom' : Finset α} (h : dom ⊆ dom') :
    IsForest parent dom' :=
  ⟨fun hp => ⟨h (hf.mem hp).1, h (hf.mem hp).2⟩, hf.acyclic⟩

/-! ## Rank -/

open Classical in
/-- The number of nodes above `n`. -/
noncomputable def rank (parent : α → Option α) (dom : Finset α) (n : α) : ℕ :=
  (dom.filter fun a => Above parent a n).card

theorem rank_le (parent : α → Option α) (dom : Finset α) (n : α) :
    rank parent dom n ≤ dom.card := by
  classical
  exact Finset.card_filter_le _ _

/-- The rank grows from a parent to its children. -/
theorem IsForest.rank_lt (hf : IsForest parent dom) (hp : parent n = some p) :
    rank parent dom p < rank parent dom n := by
  classical
  refine Finset.card_lt_card ⟨fun a ha => ?_, fun hsub => ?_⟩
  · rw [Finset.mem_filter] at ha ⊢
    exact ⟨ha.1, ha.2.of_parent hp⟩
  · have hn : n ∈ dom.filter fun a => Above parent a n :=
      Finset.mem_filter.mpr ⟨(hf.mem hp).1, Above.refl n⟩
    exact hf.acyclic hp (Finset.mem_filter.mp (hsub hn)).2

theorem rank_congr {parent' : α → Option α} (h : ∀ a, Above parent' a n ↔ Above parent a n) :
    rank parent' dom n = rank parent dom n := by
  classical
  exact congrArg Finset.card (Finset.filter_congr fun a _ => h a)

/-! ## Paths -/

/-- The node and its ancestors, climbing at most `fuel` nodes. -/
def path (parent : α → Option α) : ℕ → α → List α
  | 0, _ => []
  | fuel + 1, n =>
    match parent n with
    | none => [n]
    | some p => n :: path parent fuel p

/-- With enough fuel the path reaches everything above the node. -/
theorem IsForest.mem_path (hf : IsForest parent dom) {fuel : ℕ} (hfuel : rank parent dom n < fuel) :
    a ∈ path parent fuel n ↔ Above parent a n := by
  induction fuel generalizing n with
  | zero => omega
  | succ fuel ih =>
    rw [path, above_iff]
    cases hp : parent n with
    | none => simp
    | some p =>
      have hlt := hf.rank_lt hp
      simp [ih (by omega : rank parent dom p < fuel)]

/-- With enough fuel, the path does not depend on it. -/
theorem IsForest.path_eq (hf : IsForest parent dom) {fuel fuel' : ℕ}
    (hfuel : rank parent dom n < fuel) (hfuel' : rank parent dom n < fuel') :
    path parent fuel n = path parent fuel' n := by
  induction fuel generalizing n fuel' with
  | zero => omega
  | succ fuel ih =>
    cases fuel' with
    | zero => omega
    | succ fuel' =>
      rw [path, path]
      cases hp : parent n with
      | none => rfl
      | some p =>
        have hlt := hf.rank_lt hp
        exact congrArg (n :: ·) (ih (by omega) (by omega))

/-! ## Cutting and hanging -/

variable [DecidableEq α]

theorem Above.of_cut (ha : Above (update parent c none) a n) : Above parent a n := by
  refine ReflTransGen.mono (fun x y hxy => ?_) _ _ ha
  by_cases hx : x = c
  · rw [hx, update_self] at hxy
    cases hxy
  · rwa [update_of_ne hx] at hxy

/-- What lies above a node once another one is cut off: the way between the two must not go through
it. -/
theorem IsForest.above_cut_iff (hf : IsForest parent dom) (hac : a ≠ c) :
    Above (update parent c none) a n ↔
      Above parent a n ∧ ¬ (Above parent a c ∧ Above parent c n) := by
  constructor
  · intro ha
    refine ⟨ha.of_cut, ?_⟩
    rintro ⟨hac', hcn⟩
    induction ha using ReflTransGen.head_induction_on with
    | refl => exact hac (hf.antisymm hac' hcn)
    | @head x y hxy _ ih =>
      have hxc : x ≠ c := by
        rintro rfl
        rw [update_self] at hxy
        cases hxy
      rw [update_of_ne hxc] at hxy
      exact ih (hcn.above_parent_of_ne (Ne.symm hxc) hxy)
  · rintro ⟨ha, hnot⟩
    induction ha using ReflTransGen.head_induction_on with
    | refl => exact Above.refl a
    | @head x y hxy hya ih =>
      have hxc : x ≠ c := by
        rintro rfl
        exact hnot ⟨hya.head hxy, Above.refl x⟩
      refine Above.of_parent (p := y) ?_ (ih fun ⟨hac', hcy⟩ => hnot ⟨hac', hcy.of_parent hxy⟩)
      rw [update_of_ne hxc]
      exact hxy

/-- A node that is not below `a` may get any parent. -/
theorem Above.update_of_not_above (ha : Above parent a n) (hc : ¬ Above parent a c)
    (ptr : Option α) : Above (update parent c ptr) a n := by
  induction ha using ReflTransGen.head_induction_on with
  | refl => exact Above.refl a
  | @head x y hxy hya ih =>
    have hxc : x ≠ c := by
      rintro rfl
      exact hc (hya.head hxy)
    refine Above.of_parent (p := y) ?_ ih
    rw [update_of_ne hxc]
    exact hxy

/-- Cutting a node off its parent leaves a forest. -/
theorem IsForest.cut (hf : IsForest parent dom) (c : α) :
    IsForest (update parent c none) dom := by
  have hold : ∀ {n p}, update parent c none n = some p → parent n = some p := by
    intro n p hp
    by_cases hn : n = c
    · rw [hn, update_self] at hp
      cases hp
    · rwa [update_of_ne hn] at hp
  exact ⟨fun hp => hf.mem (hold hp), fun hp ha => hf.acyclic (hold hp) ha.of_cut⟩

/-- What lies above a node once `c` hangs below `p`. -/
theorem Above.of_hang (ha : Above (update parent c (some p)) a n) :
    Above parent a n ∨ Above parent c n ∧ Above (update parent c (some p)) a p := by
  induction ha using ReflTransGen.head_induction_on with
  | refl => exact Or.inl (Above.refl _)
  | @head x y hxy hya ih =>
    by_cases hx : x = c
    · subst hx
      rw [update_self] at hxy
      cases hxy
      exact Or.inr ⟨Above.refl x, hya⟩
    · rw [update_of_ne hx] at hxy
      rcases ih with h | ⟨hc, h⟩
      · exact Or.inl (h.of_parent hxy)
      · exact Or.inr ⟨hc.of_parent hxy, h⟩

/-- Away from the nodes below `c`, hanging `c` up changes nothing. -/
theorem above_hang_iff (hc : ¬ Above parent c n) :
    Above (update parent c (some p)) a n ↔ Above parent a n := by
  constructor
  · intro ha
    rcases ha.of_hang with h | ⟨h, -⟩
    · exact h
    · exact absurd h hc
  · intro ha
    induction ha using ReflTransGen.head_induction_on with
    | refl => exact Above.refl _
    | @head x y hxy _ ih =>
      have hne : x ≠ c := by
        rintro rfl
        exact hc (Above.refl x)
      exact Above.of_parent (by rwa [update_of_ne hne]) (ih fun h => hc (h.of_parent hxy))

/-- Hanging a node below another one that it does not lie above leaves a forest. -/
theorem IsForest.hang (hf : IsForest parent dom) (hcdom : c ∈ dom) (hpdom : p ∈ dom)
    (hcp : ¬ Above parent c p) : IsForest (update parent c (some p)) dom := by
  refine ⟨fun {n q} hq => ?_, fun {n q} hq ha => ?_⟩
  · by_cases hn : n = c
    · subst hn
      rw [update_self] at hq
      cases hq
      exact ⟨hcdom, hpdom⟩
    · rw [update_of_ne hn] at hq
      exact hf.mem hq
  · by_cases hn : n = c
    · subst hn
      rw [update_self] at hq
      cases hq
      exact hcp ((above_hang_iff hcp).mp ha)
    · rw [update_of_ne hn] at hq
      -- a cycle through `n` would pass `c`, and so lead from `p` up to `c`
      rcases ha.of_hang with h | ⟨hcq, h⟩
      · exact hf.acyclic hq h
      · have hnp := (above_hang_iff hcp).mp h
        exact hcp ((hcq.of_parent hq).trans hnp)

end MultipathQuic.Forest
