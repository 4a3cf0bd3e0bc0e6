import MultipathQuic.Library.Runs
import MultipathQuic.Stream.Stream

/-!
# What `Write` reports

`Write` hands its buffer to the sender and waits until all of it was taken, the stream has an error,
or the write deadline has come. On its deadline it returns 0, whatever was taken, and leaves the rest
to be taken later. This module runs calls of `Write` in steps, as the mutex separates them, between
calls of `getDataForWriting`, new deadlines and errors.

## Main definitions

* `Writer.step`: the steps
* `Writer.Exact`: what was taken was reported

## Main results

* `write_exact_iff`: when this holds along a run
-/

namespace MultipathQuic

open Runs

variable {E : Type}

/-! ## Calls of `Write` -/

/-- The errors with which `Write` returns. -/
inductive WriteFailure (E : Type)
  /-- `errDeadline` -/
  | deadline
  | write (err : WriteError E)

/-- The text of an error. -/
def WriteFailure.text (streamText : E → String) : WriteFailure E → String
  | .deadline => "deadline exceeded"
  | .write err => err.text streamText

/-- A call of `Write` that has returned. -/
structure WriteCall (E : Type) where
  p : List UInt8
  n : ℕ
  err : Option (WriteFailure E)

/-- A stream with its write deadline, where `none` is the zero time. `waiting` is the buffer of the
call of `Write` that waits, `returned` are the calls that have returned, and `framed` is all that
`getDataForWriting` has returned. -/
structure Writer (E : Type) where
  stream : Stream E
  writeDeadline : Option ℕ
  waiting : Option (List UInt8)
  returned : List (WriteCall E)
  framed : List UInt8

/-- A new stream. -/
def newWriter (E : Type) (streamID : ℕ) : Writer E where
  stream := newStream E streamID
  writeDeadline := none
  waiting := none
  returned := []
  framed := []

namespace Writer

variable (w : Writer E)

/-- The deadline has come. -/
def expired (now : ℕ) : Bool := w.writeDeadline.any fun deadline => !decide (now < deadline)

/-- Return from `Write`. -/
def ret (p : List UInt8) (n : ℕ) (err : Option (WriteFailure E)) : Writer E :=
  { w with waiting := none, returned := w.returned ++ [⟨p, n, err⟩] }

/-- A round of the loop of `Write`, up to the point where it waits, and what follows the loop. -/
def loop (p : List UInt8) (now : ℕ) : Writer E :=
  if w.expired now then w.ret p 0 (some .deadline)
  else if w.stream.dataForWriting.isNone || w.stream.err.isSome then
    match w.stream.err with
    | some err =>
      w.ret p (p.length - (w.stream.dataForWriting.getD []).length) (some (.write (.stream err)))
    | none => w.ret p p.length none
  else { w with waiting := some p }

/-- `Write`, up to the point where it waits. -/
def write (p : List UInt8) (now : ℕ) : Writer E :=
  match w.stream.write p with
  | (s, some (n, err)) => { w with stream := s }.ret p n (err.map .write)
  | (s, none) => { w with stream := s }.loop p now

/-- `getDataForWriting`. -/
def getDataForWriting (maxBytes : ℕ) : Writer E :=
  { w with
    stream := (w.stream.getDataForWriting maxBytes).2
    framed := w.framed ++ (w.stream.getDataForWriting maxBytes).1.getD [] }

end Writer

/-- What happens to a stream. The calls of `Write` follow each other, and one that waits may wake up
at any time; the code wakes it up by a signal, or at the deadline. -/
inductive WriteOp (E : Type)
  | write (p : List UInt8) (now : ℕ)
  | wake (now : ℕ)
  | getDataForWriting (maxBytes : ℕ)
  | setWriteDeadline (deadline : Option ℕ)
  | close
  | cancel (err : E)
  | reset (err : E)
  | registerRemoteError (err : E)

/-- One step. -/
def Writer.step (w : Writer E) : WriteOp E → Writer E
  | .write p now => if w.waiting.isSome then w else w.write p now
  | .wake now =>
    match w.waiting with
    | none => w
    | some p => w.loop p now
  | .getDataForWriting maxBytes => w.getDataForWriting maxBytes
  | .setWriteDeadline deadline => { w with writeDeadline := deadline }
  | .close => { w with stream := w.stream.close }
  | .cancel err => { w with stream := w.stream.cancel err }
  | .reset err => { w with stream := (w.stream.reset err).1 }
  | .registerRemoteError err => { w with stream := (w.stream.registerRemoteError err).1 }

/-! ## What is reported -/

namespace Writer

variable (w : Writer E)

/-- The bytes that the calls of `Write` have reported. -/
def reported : List UInt8 := w.returned.flatMap fun call => call.p.take call.n

/-- What was framed is what was reported, and a prefix of the buffer of a call that waits. -/
def Exact : Prop := ∃ k, w.framed = w.reported ++ (w.waiting.getD []).take k

/-- A call that finds its deadline expired has its whole buffer left, and nothing is taken of a
buffer after its call. -/
def Clean : WriteOp E → Prop
  | .wake now => ∀ p ∈ w.waiting, w.expired now = true → w.stream.dataForWriting = some p
  | .getDataForWriting maxBytes =>
    w.waiting = none → w.stream.lenOfDataForWriting = 0 ∨ maxBytes = 0
  | _ => True

instance Clean.decidable : (op : WriteOp E) → Decidable (w.Clean op)
  | .wake _ => inferInstanceAs (Decidable (∀ _ ∈ _, _))
  | .getDataForWriting _ => inferInstanceAs (Decidable (_ → _))
  | .write .. | .setWriteDeadline _ | .close | .cancel _ | .reset _ | .registerRemoteError _ =>
    .isTrue trivial

/-! ## One step -/

/-- What was framed of the buffer of a call that waits, and what is left of it. -/
structure Accounted : Prop where
  idle : w.waiting = none → w.framed = w.reported
  busy : ∀ p, w.waiting = some p → p ≠ [] ∧
    ∃ taken, p = taken ++ w.stream.dataForWriting.getD [] ∧ w.framed = w.reported ++ taken

variable {w} {p : List UInt8} {now maxBytes : ℕ}

theorem exact_iff_of_idle (h : w.waiting = none) : w.Exact ↔ w.framed = w.reported := by
  simp [Exact, h]

theorem Accounted.exact (h : w.Accounted) : w.Exact := by
  cases hwaiting : w.waiting with
  | none => exact (exact_iff_of_idle hwaiting).mpr (h.idle hwaiting)
  | some p =>
    obtain ⟨-, taken, hp, hframed⟩ := h.busy p hwaiting
    refine ⟨taken.length, ?_⟩
    rw [hframed, hwaiting, Option.getD_some]
    conv_rhs => rw [hp, List.take_left]

@[simp] theorem reported_ret (n : ℕ) (err : Option (WriteFailure E)) :
    (w.ret p n err).reported = w.reported ++ p.take n := by
  simp [reported, ret]

/-- A call returns, and reports what was framed of its buffer. -/
theorem accounted_ret {n : ℕ} {err : Option (WriteFailure E)}
    (h : w.framed = w.reported ++ p.take n) : (w.ret p n err).Accounted where
  idle _ := h.trans (reported_ret n err).symm
  busy p' hp' := by cases hp'

/-- A round of the loop. If the deadline has expired, the call reports that nothing was taken. -/
theorem accounted_loop (taken : List UInt8) (hne : p ≠ [])
    (hp : p = taken ++ w.stream.dataForWriting.getD []) (hframed : w.framed = w.reported ++ taken)
    (hclean : w.expired now = true → w.stream.dataForWriting = some p) :
    (w.loop p now).Accounted := by
  unfold loop
  split
  · next hexpired =>
    rw [hclean hexpired, Option.getD_some] at hp
    have hnil : taken = [] := List.append_left_eq_self.mp hp.symm
    refine accounted_ret ?_
    rw [hframed, hnil, List.take_zero]
  · split
    · next hdone =>
      split
      · -- an error: the call reports what is not left
        refine accounted_ret ?_
        have htaken : p.take (p.length - (w.stream.dataForWriting.getD []).length) = taken := by
          conv_lhs => rw [hp, List.length_append, Nat.add_sub_cancel, List.take_left]
        rw [hframed, htaken]
      · next herr =>
        have hnone : w.stream.dataForWriting = none := by simpa [herr] using hdone
        rw [hnone, Option.getD_none, List.append_nil] at hp
        refine accounted_ret ?_
        rw [hframed, List.take_length, hp]
    · refine ⟨fun hidle => ?_, fun p' hp' => ?_⟩
      · cases hidle
      · cases hp'
        exact ⟨hne, taken, hp, hframed⟩

end Writer

/-- `Write` returns at once and reports nothing, or stores its buffer, which is not empty. -/
theorem Stream.write_cases (s : Stream E) (p : List UInt8) :
    (∃ err, s.write p = (s, some (0, err))) ∨
      (p ≠ [] ∧ s.write p = ({ s with dataForWriting := some p }, none)) := by
  unfold write
  split_ifs with herr hclosed hnil
  · exact Or.inl ⟨_, rfl⟩
  · exact Or.inl ⟨_, rfl⟩
  · exact Or.inl ⟨_, rfl⟩
  · exact Or.inr ⟨hnil, rfl⟩

/-- What is taken, and what is left, is what there was. -/
theorem Stream.getDataForWriting_append (s : Stream E) (maxBytes : ℕ) :
    (s.getDataForWriting maxBytes).1.getD [] ++
      (s.getDataForWriting maxBytes).2.dataForWriting.getD [] = s.dataForWriting.getD [] := by
  unfold getDataForWriting
  split
  · next data herr hdata =>
    split
    · exact (List.take_append_drop maxBytes data).trans (by rw [hdata]; rfl)
    · exact (List.append_nil data).trans (by rw [hdata]; rfl)
  · rfl

/-- As much is taken as there is and as is allowed. -/
theorem Stream.length_getDataForWriting (s : Stream E) (maxBytes : ℕ) :
    ((s.getDataForWriting maxBytes).1.getD []).length = min s.lenOfDataForWriting maxBytes := by
  by_cases hlen : s.lenOfDataForWriting = 0
  · rw [hlen, Nat.zero_min]
    cases herr : s.err with
    | some err => simp [Stream.getDataForWriting, herr]
    | none =>
      have hempty : s.dataForWriting.getD [] = [] := by
        simpa [lenOfDataForWriting, herr] using hlen
      have happend := s.getDataForWriting_append maxBytes
      rw [hempty] at happend
      exact List.length_eq_zero_iff.mpr (List.append_eq_nil_iff.mp happend).1
  · obtain ⟨data, htake, hlength⟩ := getDataForWriting_of_lenOfDataForWriting hlen maxBytes
    rw [htake, Option.getD_some, hlength]

/-- A reset leaves the data alone. -/
@[simp] theorem Stream.dataForWriting_maybeSendReset (s : Stream E) :
    s.maybeSendReset.1.dataForWriting = s.dataForWriting := by
  unfold maybeSendReset
  split <;> rfl

@[simp] theorem Stream.dataForWriting_reset (s : Stream E) (err : E) :
    (s.reset err).1.dataForWriting = s.dataForWriting := by
  unfold reset
  split
  · rfl
  · exact Stream.dataForWriting_maybeSendReset _

@[simp] theorem Stream.dataForWriting_registerRemoteError (s : Stream E) (err : E) :
    (s.registerRemoteError err).1.dataForWriting = s.dataForWriting := by
  unfold registerRemoteError
  split
  · rfl
  · exact Stream.dataForWriting_maybeSendReset _

namespace Writer

variable {w : Writer E} {p : List UInt8} {now maxBytes : ℕ}

/-- A new call overwrites what the call before has left. -/
theorem Accounted.write (h : w.Accounted) (hidle : w.waiting = none) (p : List UInt8) (now : ℕ) :
    (w.write p now).Accounted := by
  have hframed := h.idle hidle
  unfold Writer.write
  rcases w.stream.write_cases p with ⟨err, hwrite⟩ | ⟨hne, hwrite⟩
  · rw [hwrite]
    exact accounted_ret (by rw [List.take_zero, List.append_nil]; exact hframed)
  · rw [hwrite]
    exact accounted_loop [] hne rfl (by rw [List.append_nil]; exact hframed)
      fun _ => rfl

/-- Data is taken of the buffer of a call that waits. -/
theorem Accounted.getDataForWriting (h : w.Accounted)
    (hclean : w.Clean (.getDataForWriting maxBytes)) :
    (w.getDataForWriting maxBytes).Accounted where
  idle hidle := by
    have htaken : (w.stream.getDataForWriting maxBytes).1.getD [] = [] := by
      rw [← List.length_eq_zero_iff, w.stream.length_getDataForWriting maxBytes]
      have hnothing := hclean hidle
      omega
    change w.framed ++ _ = w.reported
    rw [htaken, List.append_nil]
    exact h.idle hidle
  busy p hp := by
    obtain ⟨hne, taken, hp, hframed⟩ := h.busy p hp
    refine ⟨hne, taken ++ (w.stream.getDataForWriting maxBytes).1.getD [], ?_, ?_⟩
    · rw [List.append_assoc]
      exact hp.trans (congrArg (taken ++ ·) (w.stream.getDataForWriting_append maxBytes).symm)
    · change w.framed ++ _ = w.reported ++ _
      rw [hframed, List.append_assoc]

/-- A step that leaves the calls and the data of the stream alone. -/
theorem Accounted.of_eq {w' : Writer E} (h : w.Accounted) (hwaiting : w'.waiting = w.waiting)
    (hreturned : w'.returned = w.returned) (hframed : w'.framed = w.framed)
    (hdata : w'.stream.dataForWriting = w.stream.dataForWriting) : w'.Accounted := by
  have hreported : w'.reported = w.reported := by rw [reported, hreturned, reported]
  constructor
  · rw [hwaiting, hframed, hreported]
    exact h.idle
  · rw [hwaiting, hframed, hreported, hdata]
    exact h.busy

/-- **What was framed stays accounted for in a clean step.** -/
theorem Accounted.step (h : w.Accounted) (op : WriteOp E) (hclean : w.Clean op) :
    (w.step op).Accounted := by
  cases op with
  | write p now =>
    rw [Writer.step]
    split
    · exact h
    · next hidle => exact h.write (by simpa using hidle) p now
  | wake now =>
    rw [Writer.step]
    split
    · exact h
    · next p hp =>
      obtain ⟨hne, taken, heq, hframed⟩ := h.busy p hp
      exact accounted_loop _ hne heq hframed (hclean p hp)
  | getDataForWriting maxBytes => exact h.getDataForWriting hclean
  | setWriteDeadline deadline => exact h.of_eq rfl rfl rfl rfl
  | close => exact h.of_eq rfl rfl rfl rfl
  | cancel err => exact h.of_eq rfl rfl rfl rfl
  | reset err => exact h.of_eq rfl rfl rfl (w.stream.dataForWriting_reset err)
  | registerRemoteError err =>
    exact h.of_eq rfl rfl rfl (w.stream.dataForWriting_registerRemoteError err)

/-- **A step that is not clean breaks the account**: what was taken, or is taken now, belongs to a
call that has reported nothing. -/
theorem Accounted.not_exact_step (h : w.Accounted) (op : WriteOp E) (hclean : ¬ w.Clean op) :
    ¬ (w.step op).Exact := by
  cases op with
  | wake now =>
    simp only [Clean, not_forall] at hclean
    obtain ⟨p, hp, hexpired, hdata⟩ := hclean
    obtain ⟨hne, taken, heq, hframed⟩ := h.busy p hp
    have hstep : w.step (.wake now) = w.ret p 0 (some .deadline) := by
      simp only [Writer.step, Option.mem_def.mp hp, loop, if_pos hexpired]
    rw [hstep, exact_iff_of_idle rfl, reported_ret, List.take_zero, List.append_nil]
    intro hexact
    have hnil : taken = [] := List.append_right_eq_self.mp (hframed.symm.trans hexact)
    rw [hnil, List.nil_append] at heq
    -- nothing was taken, so the buffer is whole
    cases hleft : w.stream.dataForWriting with
    | none => exact hne (by rw [heq, hleft, Option.getD_none])
    | some data => exact hdata (by rw [heq, hleft, Option.getD_some])
  | getDataForWriting maxBytes =>
    simp only [Clean, Classical.not_imp, not_or] at hclean
    obtain ⟨hidle, hlen, hmax⟩ := hclean
    have hlength := w.stream.length_getDataForWriting maxBytes
    have hidle' : (w.step (.getDataForWriting maxBytes)).waiting = none := hidle
    rw [exact_iff_of_idle hidle']
    intro hexact
    change w.framed ++ _ = w.reported at hexact
    rw [h.idle hidle] at hexact
    rw [List.append_right_eq_self.mp hexact, List.length_nil] at hlength
    omega
  | _ => exact absurd trivial hclean

end Writer

/-- **`Write` reports what was accepted iff deadlines are clean.** In every state of a run, the framed
bytes are those that the calls of `Write` have reported, and a prefix of the buffer of a call that
waits, iff each call that finds its deadline expired has its whole buffer left, and nothing is taken
of it before the next call. -/
theorem write_exact_iff (streamID : ℕ) (ops : List (WriteOp E)) :
    (∀ ops', ops' <+: ops → (ops'.foldl Writer.step (newWriter E streamID)).Exact) ↔
      Along Writer.step Writer.Clean (newWriter E streamID) ops := by
  have hnew : (newWriter E streamID).Accounted := ⟨fun _ => rfl, fun _ hp => by cases hp⟩
  refine forall_prefix_iff_along (fun w (hw : w.Accounted) => hw.exact) ?_ ?_ hnew
  · intro w op hw hclean
    exact hw.step op hclean
  · intro w op hw hclean
    exact hw.not_exact_step op hclean

/-- `Write` of two bytes with the deadline 10, of which one is taken before the deadline. The other
one is taken after `Write` has returned. -/
def lateWrite : List (WriteOp Unit) :=
  [.setWriteDeadline (some 10), .write [1, 2] 0, .getDataForWriting 1, .wake 10,
    .getDataForWriting 1]

/-- **Both bytes are framed, though `Write` has reported that none was accepted.** -/
theorem write_not_exact :
    let w := lateWrite.foldl Writer.step (newWriter Unit 5)
    w.framed = [1, 2] ∧ w.returned.map WriteCall.n = [0] ∧ ¬ w.Exact ∧
      ¬ ((lateWrite.take 4).foldl Writer.step (newWriter Unit 5)).Exact := by
  refine ⟨by decide +kernel, by decide +kernel, ?_, ?_⟩
  · rw [Writer.exact_iff_of_idle rfl]
    decide +kernel
  · rw [Writer.exact_iff_of_idle rfl]
    decide +kernel

/-- A call whose data is taken in time is reported, also if a deadline has passed before. -/
example : Along Writer.step Writer.Clean (newWriter Unit 5)
    [.setWriteDeadline (some 10), .write [1, 2] 11, .setWriteDeadline none, .write [3, 4, 5] 12,
      .getDataForWriting 2, .wake 13, .getDataForWriting 8, .wake 14] := by
  decide +kernel

end MultipathQuic
