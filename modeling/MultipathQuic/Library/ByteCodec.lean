import Mathlib.Data.Nat.Bitwise
import Mathlib.Tactic.Ring
import Mathlib.Tactic.NormNum

/-!
# Fixed-width naturals on the wire

A natural is written as a fixed number of bytes, most or least significant byte first, and read
back by accumulating one shifted byte at a time. A reader consumes a byte sequence from the front
and either fails or returns a value and the bytes it has not consumed.
-/

namespace MultipathQuic.ByteCodec

/-! ## Bytes of a natural -/

/-- The `w` little-endian bytes of `n`. -/
def toLE : ℕ → ℕ → List UInt8
  | 0, _ => []
  | w + 1, n => UInt8.ofNat n :: toLE w (n / 256)

/-- The natural with the given little-endian bytes. -/
def ofLE : List UInt8 → ℕ
  | [] => 0
  | b :: bs => b.toNat + 256 * ofLE bs

/-- The `w` big-endian bytes of `n`. -/
def toBE (w n : ℕ) : List UInt8 := (toLE w n).reverse

@[simp] theorem length_toLE (w n : ℕ) : (toLE w n).length = w := by
  induction w generalizing n with
  | zero => rfl
  | succ w ih => simp [toLE, ih]

@[simp] theorem length_toBE (w n : ℕ) : (toBE w n).length = w := by
  simp [toBE]

theorem ofLE_toLE (w n : ℕ) : ofLE (toLE w n) = n % 256 ^ w := by
  induction w generalizing n with
  | zero => simp [toLE, ofLE, Nat.mod_one]
  | succ w ih =>
    have hb : (UInt8.ofNat n).toNat = n % 256 := UInt8.toNat_ofNat'
    have hm : n % (256 * 256 ^ w) = n % 256 + 256 * (n / 256 % 256 ^ w) := Nat.mod_mul
    rw [toLE, ofLE, ih, hb, pow_succ', hm]

theorem ofLE_lt (bs : List UInt8) : ofLE bs < 256 ^ bs.length := by
  induction bs with
  | nil => simp [ofLE]
  | cons b bs ih =>
    have hb : b.toNat < 256 := b.toNat_lt
    rw [ofLE, List.length_cons, pow_succ]
    omega

theorem ofLE_append (as bs : List UInt8) :
    ofLE (as ++ bs) = ofLE as + 256 ^ as.length * ofLE bs := by
  induction as with
  | nil => simp [ofLE]
  | cons a as ih =>
    rw [List.cons_append, ofLE, ofLE, ih, List.length_cons, pow_succ]
    ring

/-! ## Accumulating a value byte by byte -/

/-- Exclusive or with a number shifted above all bits is addition. -/
theorem xor_shiftLeft_of_lt {r k : ℕ} (hr : r < 2 ^ k) (b : ℕ) :
    r ^^^ b <<< k = r + b * 2 ^ k := by
  have hpos : 0 < 2 ^ k := Nat.two_pow_pos k
  have hdiv : (r ^^^ b <<< k) / 2 ^ k = b := by
    rw [Nat.xor_div_two_pow, Nat.div_eq_of_lt hr, Nat.zero_xor, Nat.shiftLeft_eq,
      Nat.mul_div_cancel b hpos]
  have hmod : (r ^^^ b <<< k) % 2 ^ k = r := by
    rw [Nat.xor_mod_two_pow, Nat.mod_eq_of_lt hr, Nat.shiftLeft_eq, Nat.mul_mod_left,
      Nat.xor_zero]
  calc r ^^^ b <<< k = (r ^^^ b <<< k) % 2 ^ k + 2 ^ k * ((r ^^^ b <<< k) / 2 ^ k) :=
        (Nat.mod_add_div _ _).symm
    _ = r + b * 2 ^ k := by rw [hdiv, hmod, Nat.mul_comm]

/-- The value accumulated from `bs`, the first byte at bit `8 * i`, each further byte eight bits
higher. -/
def accLE : ℕ → ℕ → List UInt8 → ℕ
  | _, res, [] => res
  | i, res, b :: bs => accLE (i + 1) (res ^^^ b.toNat <<< (8 * i)) bs

/-- The value accumulated from `bs`, the last byte at bit `0`, each earlier byte eight bits
higher. -/
def accBE : ℕ → List UInt8 → ℕ
  | res, [] => res
  | res, b :: bs => accBE (res ^^^ b.toNat <<< (8 * bs.length)) bs

theorem two_pow_eight_mul (i : ℕ) : 2 ^ (8 * i) = 256 ^ i := by
  rw [pow_mul]
  norm_num

theorem accLE_eq {i res : ℕ} (hres : res < 256 ^ i) (bs : List UInt8) :
    accLE i res bs = res + 256 ^ i * ofLE bs := by
  induction bs generalizing i res with
  | nil => simp [accLE, ofLE]
  | cons b bs ih =>
    have hb : b.toNat < 256 := b.toNat_lt
    have hstep : res ^^^ b.toNat <<< (8 * i) = res + b.toNat * 256 ^ i := by
      rw [xor_shiftLeft_of_lt (by rwa [two_pow_eight_mul]), two_pow_eight_mul]
    have hlt : res + b.toNat * 256 ^ i < 256 ^ (i + 1) := by
      have : b.toNat * 256 ^ i ≤ 255 * 256 ^ i := Nat.mul_le_mul_right _ (by omega)
      omega
    rw [accLE, hstep, ih hlt, ofLE, pow_succ]
    ring

theorem accBE_eq (v : ℕ) (bs : List UInt8) :
    accBE (v * 256 ^ bs.length) bs = v * 256 ^ bs.length + ofLE bs.reverse := by
  induction bs generalizing v with
  | nil => simp [accBE, ofLE]
  | cons b bs ih =>
    have hb : b.toNat < 256 := b.toNat_lt
    have hlt : b.toNat * 256 ^ bs.length < 2 ^ (8 * (bs.length + 1)) := by
      rw [two_pow_eight_mul, pow_succ']
      exact Nat.mul_lt_mul_of_pos_right hb (by positivity)
    have hstep : v * 256 ^ (b :: bs).length ^^^ b.toNat <<< (8 * bs.length) =
        (v * 256 + b.toNat) * 256 ^ bs.length := by
      have h := xor_shiftLeft_of_lt hlt v
      rw [Nat.shiftLeft_eq, two_pow_eight_mul] at h
      rw [Nat.shiftLeft_eq, two_pow_eight_mul, List.length_cons, Nat.xor_comm, h, pow_succ]
      ring
    rw [accBE, hstep, ih, List.reverse_cons, ofLE_append, List.length_reverse, List.length_cons,
      pow_succ]
    simp only [ofLE]
    ring

/-! ## Readers -/

/-- A reader of bytes: it consumes bytes from the front or fails with an `ε`. -/
abbrev Reader (ε α : Type) := StateT (List UInt8) (Except ε) α

/-- The next byte, or the failure `eof` at the end of the input. -/
def readByte {ε : Type} (eof : ε) : Reader ε UInt8 := fun
  | [] => .error eof
  | b :: bs => .ok (b, bs)

/-- The next `n` bytes, or the failure `eof` at the end of the input. -/
def readBytes {ε : Type} (eof : ε) : ℕ → Reader ε (List UInt8)
  | 0 => pure []
  | n + 1 => do
    let b ← readByte eof
    let bs ← readBytes eof n
    pure (b :: bs)

/-- The next `n` bytes at once. The failure tells whether there was a byte at all. -/
def readFull {ε : Type} (eof unexpectedEOF : ε) (n : ℕ) : Reader ε (List UInt8) := fun bs =>
  if n ≤ bs.length then .ok (bs.take n, bs.drop n)
  else .error (if bs = [] then eof else unexpectedEOF)

/-- The number of unread bytes. -/
def remaining {ε : Type} : Reader ε ℕ := fun bs => .ok (bs.length, bs)

section Run

variable {ε α β : Type}

@[simp] theorem run_remaining (bs : List UInt8) :
    (remaining : Reader ε ℕ).run bs = .ok (bs.length, bs) := rfl

theorem run_readFull_append (eof unexpectedEOF : ε) (as r : List UInt8) :
    (readFull eof unexpectedEOF as.length).run (as ++ r) = .ok (as, r) := by
  have hle : as.length ≤ (as ++ r).length := by
    rw [List.length_append]
    omega
  change (if as.length ≤ (as ++ r).length then _ else _) = _
  rw [if_pos hle, List.take_left, List.drop_left]

@[simp] theorem run_readByte_cons (eof : ε) (b : UInt8) (bs : List UInt8) :
    (readByte eof).run (b :: bs) = .ok (b, bs) := rfl

theorem run_readBytes_append (eof : ε) (as r : List UInt8) :
    (readBytes eof as.length).run (as ++ r) = .ok (as, r) := by
  induction as with
  | nil => rfl
  | cons a as ih =>
    change ((readBytes eof as.length >>= fun bs => pure (a :: bs)).run (as ++ r)) = _
    rw [StateT.run_bind, ih]
    rfl

/-- A reader that succeeds hands its value and the unread bytes to the next reader. -/
theorem run_bind_ok {r : Reader ε α} {k : α → Reader ε β} {bs bs' : List UInt8} {a : α}
    (h : r.run bs = .ok (a, bs')) : (r >>= k).run bs = (k a).run bs' := by
  rw [StateT.run_bind, h]
  rfl

/-- Two readers in a row that succeed have both succeeded. -/
theorem exists_of_run_bind {r : Reader ε α} {k : α → Reader ε β} {bs bs' : List UInt8} {b : β}
    (h : (r >>= k).run bs = .ok (b, bs')) :
    ∃ a bs₁, r.run bs = .ok (a, bs₁) ∧ (k a).run bs₁ = .ok (b, bs') := by
  rw [StateT.run_bind] at h
  cases hr : r.run bs with
  | error e =>
    rw [hr] at h
    cases h
  | ok p =>
    rw [hr] at h
    exact ⟨p.1, p.2, rfl, h⟩

/-- A writer that succeeds has succeeded in its first part. -/
theorem exists_of_bind_eq_ok {x : Except ε α} {k : α → Except ε β} {b : β}
    (h : x >>= k = .ok b) : ∃ a, x = .ok a ∧ k a = .ok b := by
  cases x with
  | error e => cases h
  | ok a => exact ⟨a, rfl, h⟩

end Run

/-! ## Readers consume bytes -/

section Shrinks

variable {ε α β : Type}

/-- The reader gives no bytes back. -/
def Shrinks (r : Reader ε α) : Prop :=
  ∀ bs a bs', r.run bs = .ok (a, bs') → bs'.length ≤ bs.length

namespace Shrinks

theorem pure (a : α) : Shrinks (Pure.pure a : Reader ε α) := by
  intro bs a' bs' h
  cases h
  exact le_rfl

theorem throw (e : ε) : Shrinks (MonadExcept.throw e : Reader ε α) := by
  intro bs a bs' h
  cases h

theorem bind {r : Reader ε α} {k : α → Reader ε β} (hr : Shrinks r) (hk : ∀ a, Shrinks (k a)) :
    Shrinks (r >>= k) := by
  intro bs b bs' h
  obtain ⟨a, bs₁, ha, hb⟩ := exists_of_run_bind h
  exact (hk a _ _ _ hb).trans (hr _ _ _ ha)

theorem ite {c : Prop} [Decidable c] {r r' : Reader ε α} (hr : Shrinks r) (hr' : Shrinks r') :
    Shrinks (if c then r else r') := by
  split
  · exact hr
  · exact hr'

theorem readByte (eof : ε) : Shrinks (ByteCodec.readByte eof) := by
  intro bs a bs' h
  cases bs with
  | nil => cases h
  | cons b bs =>
    cases h
    exact Nat.le_succ _

theorem readBytes (eof : ε) (n : ℕ) : Shrinks (ByteCodec.readBytes eof n) := by
  induction n with
  | zero => exact pure []
  | succ n ih => exact bind (readByte eof) fun b => bind ih fun bs => pure (b :: bs)

theorem remaining : Shrinks (ByteCodec.remaining : Reader ε ℕ) := by
  intro bs a bs' h
  cases h
  exact le_rfl

theorem readFull (eof unexpectedEOF : ε) (n : ℕ) :
    Shrinks (ByteCodec.readFull eof unexpectedEOF n) := by
  intro bs a bs' h
  change (if n ≤ bs.length then _ else _) = _ at h
  split at h
  · cases h
    rw [List.length_drop]
    omega
  · cases h

end Shrinks

/-- A reader that starts with a byte takes at least that one. -/
theorem length_lt_of_readByte_bind {eof : ε} {k : UInt8 → Reader ε β} (hk : ∀ b, Shrinks (k b))
    {bs bs' : List UInt8} {a : β} (h : (readByte eof >>= k).run bs = .ok (a, bs')) :
    bs'.length < bs.length := by
  obtain ⟨b, bs₁, hb, ha⟩ := exists_of_run_bind h
  cases bs with
  | nil => cases hb
  | cons c bs =>
    cases hb
    exact Nat.lt_succ_of_le (hk b _ _ _ ha)

end Shrinks

end MultipathQuic.ByteCodec
