import Mathlib.Data.List.Chain
import Mathlib.Data.List.Induction
import Mathlib.Data.List.Perm.Subperm
import Mathlib.Logic.Relation

/-!
# The champion of a list

The elements of a list challenge the champion so far one after another, and one that beats it takes
its place. If of two elements one beats the other, ties allowed, then an element is the champion of
the list in some order iff chains of elements that beat the next one lead from it to all others. The
relation need not be transitive.

## Main definitions

* `champion r l`: the champion of the list `l`
* `Beaten r l a b`: a chain within `l` leads from `a` to `b`

## Main results

* `exists_isChain_cons`: such an element is the first one of a chain through the whole list
* `exists_perm_champion_iff`: the champions over all orders
-/

namespace MultipathQuic.Champion

open Relation

variable {α : Type} (r : α → α → Prop)

/-- A chain of elements of `l` leads from `a` to `b`, each of which beats the next one. -/
def Beaten (l : List α) : α → α → Prop := ReflTransGen fun a b => b ∈ l ∧ r a b

/-- An element challenges the champion so far. -/
def challenge [DecidableRel r] : Option α → α → Option α
  | none, a => some a
  | some b, a => if r a b then some a else some b

/-- The champion of a list. -/
def champion [DecidableRel r] (l : List α) : Option α := l.foldl (challenge r) none

variable {r} {l l' : List α} {a b c : α}

theorem Beaten.mono (h : Beaten r l a b) (hsub : l ⊆ l') : Beaten r l' a b :=
  ReflTransGen.mono (fun _ _ hstep => ⟨hsub hstep.1, hstep.2⟩) a b h

/-! ## Chains through a list -/

/-- An element that some element of a chain beats fits into the chain. -/
theorem exists_isChain_insert (htotal : ∀ a b, r a b ∨ r b a) (hchain : (a :: l).IsChain r)
    (hb : ∃ c ∈ a :: l, r c b) : ∃ l', l'.Perm (b :: l) ∧ (a :: l').IsChain r := by
  induction l generalizing a with
  | nil =>
    obtain ⟨c, hc, hr⟩ := hb
    rw [List.mem_singleton.mp hc] at hr
    exact ⟨[b], .refl _, List.isChain_pair.mpr hr⟩
  | cons d l ih =>
    obtain ⟨had, hl⟩ := List.isChain_cons_cons.mp hchain
    by_cases hlater : ∃ c ∈ d :: l, r c b
    · obtain ⟨l', hperm, hchain'⟩ := ih hl hlater
      exact ⟨d :: l', (hperm.cons d).trans (.swap b d l), List.isChain_cons_cons.mpr ⟨had, hchain'⟩⟩
    · -- the new element comes right after the first one, as it beats the second one
      obtain ⟨c, hc, hr⟩ := hb
      rcases List.mem_cons.mp hc with rfl | hc
      · have hbd : r b d := (htotal b d).resolve_right fun hdb =>
          hlater ⟨d, List.mem_cons_self, hdb⟩
        exact ⟨b :: d :: l, .refl _, List.isChain_cons_cons.mpr
          ⟨hr, List.isChain_cons_cons.mpr ⟨hbd, hl⟩⟩⟩
      · exact absurd ⟨c, hc, hr⟩ hlater

/-- A chain from an element of `l'` to another element leaves `l'` at some point. -/
theorem Beaten.exists_exit (h : Beaten r l a b) (ha : a ∈ l') (hb : b ∉ l') :
    ∃ c ∈ l', ∃ d ∈ l, d ∉ l' ∧ r c d := by
  induction h using ReflTransGen.head_induction_on with
  | refl => exact absurd ha hb
  | @head a d hstep hrest ih =>
    by_cases hd : d ∈ l'
    · exact ih hd
    · exact ⟨a, ha, d, hstep.1, hd, hstep.2⟩

/-- **A chain through the whole list**, from an element from which chains lead to all others. -/
theorem exists_isChain_cons (htotal : ∀ a b, r a b ∨ r b a) (hnodup : l.Nodup) (ha : a ∈ l)
    (hbeaten : ∀ b ∈ l, Beaten r l a b) : ∃ l', (a :: l').Perm l ∧ (a :: l').IsChain r := by
  -- a chain of any length up to that of the list, by one insertion after another
  have hlength : ∀ n < l.length, ∃ l', l'.length = n ∧ (a :: l').Nodup ∧ a :: l' ⊆ l ∧
      (a :: l').IsChain r := by
    intro n
    induction n with
    | zero => exact fun _ => ⟨[], rfl, by simp, by simpa using ha, .singleton a⟩
    | succ n ih =>
      intro hn
      obtain ⟨l', hlen, hnodup', hsub, hchain⟩ := ih (by omega)
      have hmissing : ∃ b ∈ l, b ∉ a :: l' := by
        by_contra hall
        push Not at hall
        have hle := (List.subperm_of_subset hnodup hall).length_le
        rw [List.length_cons] at hle
        omega
      obtain ⟨b, hb, hnew⟩ := hmissing
      obtain ⟨c, hc, d, hd, hnew, hr⟩ := (hbeaten b hb).exists_exit List.mem_cons_self hnew
      obtain ⟨l'', hperm, hchain'⟩ := exists_isChain_insert htotal hchain ⟨c, hc, hr⟩
      have hperm' : (a :: l'').Perm (d :: a :: l') := (hperm.cons a).trans (.swap d a l')
      refine ⟨l'', by rw [hperm.length_eq, List.length_cons, hlen], ?_, ?_, hchain'⟩
      · exact hperm'.nodup_iff.mpr (List.nodup_cons.mpr ⟨hnew, hnodup'⟩)
      · intro x hx
        rcases List.mem_cons.mp (hperm'.mem_iff.mp hx) with rfl | hx
        · exact hd
        · exact hsub hx
  have hpos := List.length_pos_of_mem ha
  obtain ⟨l', hlen, hnodup', hsub, hchain⟩ := hlength (l.length - 1) (by omega)
  refine ⟨l', (List.subperm_of_subset hnodup' hsub).perm_of_length_le ?_, hchain⟩
  rw [List.length_cons]
  omega

/-! ## Champions -/

variable [DecidableRel r]

theorem champion_concat (l : List α) (a : α) :
    champion r (l ++ [a]) = challenge r (champion r l) a := by
  rw [champion, List.foldl_append]
  rfl

theorem eq_nil_of_champion_eq_none (h : champion r l = none) : l = [] := by
  cases l using List.reverseRecOn with
  | nil => rfl
  | append_singleton l a =>
    rw [champion_concat] at h
    cases hl : champion r l with
    | none => rw [hl] at h; cases h
    | some b => rw [hl, challenge] at h; split_ifs at h

/-- In the order of a chain, from its end, every element becomes the champion. -/
theorem champion_reverse_of_isChain (h : l.IsChain r) : champion r l.reverse = l.head? := by
  induction l with
  | nil => rfl
  | cons a l ih =>
    rw [List.reverse_cons, champion_concat, ih h.tail, List.head?_cons]
    cases l with
    | nil => rfl
    | cons b l => exact if_pos (List.isChain_cons_cons.mp h).1

/-- Chains lead from the champion to all elements. -/
theorem beaten_of_champion_eq (htotal : ∀ a b, r a b ∨ r b a) (h : champion r l = some c) :
    c ∈ l ∧ ∀ b ∈ l, Beaten r l c b := by
  induction l using List.reverseRecOn generalizing c with
  | nil => cases h
  | append_singleton l a ih =>
    rw [champion_concat] at h
    have ha : a ∈ l ++ [a] := by simp
    cases hl : champion r l with
    | none =>
      rw [hl] at h
      obtain rfl : a = c := Option.some.inj h
      obtain rfl := eq_nil_of_champion_eq_none hl
      refine ⟨ha, fun b hb => ?_⟩
      rw [List.mem_singleton.mp hb]
      exact .refl
    | some d =>
      rw [hl, challenge] at h
      obtain ⟨hd, hall⟩ := ih hl
      have hall' : ∀ b ∈ l, Beaten r (l ++ [a]) d b := fun b hb =>
        (hall b hb).mono (List.subset_append_left l [a])
      split_ifs at h with had
      · obtain rfl : a = c := Option.some.inj h
        refine ⟨ha, fun b hb => ?_⟩
        rcases List.mem_append.mp hb with hb | hb
        · exact .head ⟨List.mem_append_left _ hd, had⟩ (hall' b hb)
        · rw [List.mem_singleton.mp hb]
          exact .refl
      · obtain rfl : d = c := Option.some.inj h
        refine ⟨List.mem_append_left _ hd, fun b hb => ?_⟩
        rcases List.mem_append.mp hb with hb | hb
        · exact hall' b hb
        · rw [List.mem_singleton.mp hb]
          exact .single ⟨ha, (htotal d a).resolve_right had⟩

/-- **The champions over all orders** are the elements from which chains lead to all others. -/
theorem exists_perm_champion_iff (htotal : ∀ a b, r a b ∨ r b a) (hnodup : l.Nodup) :
    (∃ l', l'.Perm l ∧ champion r l' = some c) ↔ c ∈ l ∧ ∀ b ∈ l, Beaten r l c b := by
  constructor
  · rintro ⟨l', hperm, hc⟩
    obtain ⟨hmem, hall⟩ := beaten_of_champion_eq htotal hc
    exact ⟨hperm.mem_iff.mp hmem, fun b hb => (hall b (hperm.mem_iff.mpr hb)).mono hperm.subset⟩
  · rintro ⟨hmem, hall⟩
    obtain ⟨l', hperm, hchain⟩ := exists_isChain_cons htotal hnodup hmem hall
    exact ⟨(c :: l').reverse, (List.reverse_perm _).trans hperm, champion_reverse_of_isChain hchain⟩

end MultipathQuic.Champion
