import Mathlib.Tactic.Common

/-!
# Programs that may panic

A program over a state returns a value or panics, and leaves a state behind in both cases: what a
program has done before it panics is not lost. `Ensures` is its weakest precondition: the first
postcondition is about a return, the second one about a panic. The rules of this module are
equivalences, so that they can also be used to show that a program does panic.
-/

namespace MultipathQuic

/-- A program over the states `σ` that may panic. -/
abbrev Program (σ : Type) : Type → Type := OptionT (StateM σ)

namespace Program

variable {σ α β ε : Type}

/-- The result of a program, `none` if it panics, and the state it leaves. -/
def exec (x : Program σ α) (s : σ) : Option α × σ := (OptionT.run x).run s

/-- A partial function, which panics where it has no value. -/
def ofOption (o : Option α) : Program σ α := OptionT.mk (pure o)

/-- Calls `f` on one element after the other, until a call has a result. -/
def untilSome (f : β → Program σ (Option ε)) : List β → Program σ (Option ε)
  | [] => pure none
  | b :: bs => do
    match ← f b with
    | some e => pure (some e)
    | none => untilSome f bs

/-- From `s`, the program returns with `Q`, or it panics with `R`. -/
def Ensures (x : Program σ α) (s : σ) (Q : α → σ → Prop) (R : σ → Prop) : Prop :=
  match x.exec s with
  | (some a, s') => Q a s'
  | (none, s') => R s'

variable {x : Program σ α} {f : α → Program σ β} {s : σ} {Q : α → σ → Prop} {R : σ → Prop}

/-! ## Execution -/

@[simp] theorem exec_pure (a : α) : (pure a : Program σ α).exec s = (some a, s) := rfl

@[simp] theorem exec_get : (get : Program σ σ).exec s = (some s, s) := rfl

@[simp] theorem exec_set (s' : σ) : (set s' : Program σ PUnit).exec s = (some ⟨⟩, s') := rfl

@[simp] theorem exec_ofOption (o : Option α) : (ofOption o : Program σ α).exec s = (o, s) := rfl

theorem exec_bind :
    (x >>= f).exec s =
      match x.exec s with
      | (some a, s') => (f a).exec s'
      | (none, s') => (none, s') := by
  unfold exec
  rw [OptionT.run_bind, Option.elimM, StateT.run_bind]
  rcases (OptionT.run x).run s with ⟨_ | a, s'⟩ <;> rfl

/-! ## Preconditions -/

@[simp] theorem ensures_pure {a : α} : (pure a : Program σ α).Ensures s Q R ↔ Q a s := Iff.rfl

@[simp] theorem ensures_get {Q : σ → σ → Prop} : (get : Program σ σ).Ensures s Q R ↔ Q s s := Iff.rfl

@[simp] theorem ensures_set {s' : σ} {Q : PUnit → σ → Prop} :
    (set s' : Program σ PUnit).Ensures s Q R ↔ Q ⟨⟩ s' :=
  Iff.rfl

@[simp] theorem ensures_modify {g : σ → σ} {Q : PUnit → σ → Prop} :
    (modify g : Program σ PUnit).Ensures s Q R ↔ Q ⟨⟩ (g s) :=
  Iff.rfl

theorem ensures_ofOption {o : Option α} :
    (ofOption o : Program σ α).Ensures s Q R ↔ (∀ a, o = some a → Q a s) ∧ (o = none → R s) := by
  cases o <;> simp [Ensures]

@[simp] theorem ensures_bind {Q : β → σ → Prop} :
    (x >>= f).Ensures s Q R ↔ x.Ensures s (fun a s' => (f a).Ensures s' Q R) R := by
  unfold Ensures
  rw [exec_bind]
  rcases x.exec s with ⟨_ | a, s'⟩ <;> rfl

/-- The postconditions may be weakened. -/
theorem Ensures.mono {Q' : α → σ → Prop} {R' : σ → Prop} (h : x.Ensures s Q R)
    (hQ : ∀ a s', Q a s' → Q' a s') (hR : ∀ s', R s' → R' s') : x.Ensures s Q' R' := by
  unfold Ensures at h ⊢
  generalize x.exec s = r at h ⊢
  rcases r with ⟨_ | a, s'⟩
  · exact hR s' h
  · exact hQ a s' h

/-- A program that does not panic returns. -/
theorem Ensures.exists_exec (h : x.Ensures s Q fun _ => False) :
    ∃ a s', x.exec s = (some a, s') ∧ Q a s' := by
  unfold Ensures at h
  generalize x.exec s = r at h
  rcases r with ⟨_ | a, s'⟩
  · exact h.elim
  · exact ⟨a, s', rfl, h⟩

theorem ensures_of_exec {a : α} {s' : σ} (h : x.exec s = (some a, s')) :
    x.Ensures s Q R ↔ Q a s' := by
  rw [Ensures, h]

/-- What holds of every result and every state. -/
theorem ensures_of_all (hQ : ∀ a s', Q a s') (hR : ∀ s', R s') : x.Ensures s Q R := by
  unfold Ensures
  rcases x.exec s with ⟨_ | a, s'⟩
  · exact hR s'
  · exact hQ a s'

/-! ## Programs that do not panic -/

/-- From `s`, the program returns. -/
def Returns (x : Program σ α) (s : σ) : Prop := x.Ensures s (fun _ _ => True) fun _ => False

theorem returns_iff_exec : x.Returns s ↔ ∃ a s', x.exec s = (some a, s') := by
  constructor
  · intro h
    obtain ⟨a, s', hexec, -⟩ := h.exists_exec
    exact ⟨a, s', hexec⟩
  · rintro ⟨a, s', hexec⟩
    exact (ensures_of_exec hexec).mpr trivial

/-- What a program ensures without a panic, it ensures when it returns. -/
theorem Ensures.returns (h : x.Ensures s Q fun _ => False) : x.Returns s :=
  h.mono (fun _ _ _ => trivial) fun _ h => h

/-- A program that returns meets its postcondition. -/
theorem Returns.exists_exec (hx : x.Returns s) (h : x.Ensures s Q R) :
    ∃ a s', x.exec s = (some a, s') ∧ Q a s' := by
  obtain ⟨a, s', hexec⟩ := returns_iff_exec.mp hx
  exact ⟨a, s', hexec, (ensures_of_exec hexec).mp h⟩

/-- What comes after `x` returns anyway. -/
theorem returns_bind_iff (hf : ∀ a s', (f a).Returns s') : (x >>= f).Returns s ↔ x.Returns s := by
  unfold Returns
  rw [ensures_bind]
  exact ⟨fun h => h.mono (fun _ _ _ => trivial) fun _ h => h,
    fun h => h.mono (fun a s' _ => hf a s') fun _ h => h⟩

theorem exec_untilSome_cons_none {body : β → Program σ (Option ε)} {b : β} {bs : List β} {s' : σ} :
    (untilSome body (b :: bs)).exec s = (some none, s') ↔
      ∃ s₁, (body b).exec s = (some none, s₁) ∧ (untilSome body bs).exec s₁ = (some none, s') := by
  rw [untilSome, exec_bind]
  rcases (body b).exec s with ⟨_ | _ | e, s₁⟩ <;> simp

/-- **A loop does not panic iff no call that it makes does:** each call is made in the state that the
calls before it leave, if none of these has a result. -/
theorem returns_untilSome_iff {body : β → Program σ (Option ε)} {ok : β → σ → Prop} {bs : List β}
    (hbody : ∀ b ∈ bs, ∀ s, (body b).Returns s ↔ ok b s) :
    (untilSome body bs).Returns s ↔ ∀ before b after s', bs = before ++ b :: after →
      (untilSome body before).exec s = (some none, s') → ok b s' := by
  induction bs generalizing s with
  | nil => simp [untilSome, Returns]
  | cons b bs ih =>
    obtain ⟨hb, hbs⟩ := List.forall_mem_cons.mp hbody
    have hcons : (untilSome body (b :: bs)).Returns s ↔
        (body b).Returns s ∧
          ∀ s₁, (body b).exec s = (some none, s₁) → (untilSome body bs).Returns s₁ := by
      unfold Returns
      rw [untilSome, ensures_bind]
      unfold Ensures
      rcases (body b).exec s with ⟨_ | _ | e, s₁⟩ <;> simp [exec_pure]
    rw [hcons, hb s]
    constructor
    · rintro ⟨hok, hrest⟩ before b' after s' hsplit hexec
      cases before with
      | nil =>
        cases hsplit
        cases hexec
        exact hok
      | cons c before =>
        cases hsplit
        obtain ⟨s₁, hfirst, hexec⟩ := exec_untilSome_cons_none.mp hexec
        exact (ih hbs).mp (hrest s₁ hfirst) before b' after s' rfl hexec
    · intro hall
      refine ⟨hall [] b bs s rfl rfl, fun s₁ hfirst => (ih hbs).mpr ?_⟩
      rintro before b' after s' rfl hexec
      exact hall (b :: before) b' after s' rfl (exec_untilSome_cons_none.mpr ⟨s₁, hfirst, hexec⟩)

end Program

/-! ## Maps -/

/-- An order in which a map is iterated over. -/
structure MapOrder (α : Type) where
  order : List α → List α
  perm : ∀ keys, (order keys).Perm keys

/-- The order in which the keys were inserted. -/
def MapOrder.inserted (α : Type) : MapOrder α := ⟨id, fun _ => .refl _⟩

/-- Some order of the given keys. -/
def MapOrder.ofPerm {α : Type} [DecidableEq α] {keys keys' : List α} (h : keys'.Perm keys) :
    MapOrder α where
  order l := if l = keys then keys' else l
  perm l := by
    split_ifs with heq
    · exact heq ▸ h
    · exact .refl l

theorem MapOrder.order_ofPerm {α : Type} [DecidableEq α] {keys keys' : List α}
    (h : keys'.Perm keys) : (MapOrder.ofPerm h).order keys = keys' :=
  if_pos rfl

theorem MapOrder.mem_order {α : Type} (o : MapOrder α) {keys : List α} {a : α} :
    a ∈ o.order keys ↔ a ∈ keys :=
  (o.perm keys).mem_iff

end MultipathQuic
