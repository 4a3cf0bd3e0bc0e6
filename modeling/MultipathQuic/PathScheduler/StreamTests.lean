import MultipathQuic.PathScheduler.Selected
import MultipathQuic.Stream.SendRun

/-!
# The tests of SA-ECF

SA-ECF keeps one queue size for the whole loop over the streams. A stream that is about to finish
makes it small, and it stays small for the streams that are examined after it: they are tested as if
they were about to finish as well.

Which streams come up does not depend on the paths or on the queue size, as long as all of them are
left waiting. So these streams are a function of the state before the call.
-/

namespace MultipathQuic

theorem PathPair.snd_waitsForBest {p : PathPair} {queueSize waiting : ℕ}
    (h : (p.waitsForBest queueSize waiting).1 = true) : (p.waitsForBest queueSize waiting).2 = 1 := by
  unfold PathPair.waitsForBest at h ⊢
  dsimp only at h ⊢
  split_ifs at h ⊢ <;> rfl

namespace StreamsMap

/-- A stream that the stream scheduler offers to SA-ECF: its node, the bytes until it is completed,
its flag, and the scheduler that the call of `schedule` has left. -/
structure Offer where
  node : ℕ
  bytesUntilCompletion : ℕ
  waiting : ℕ
  streamScheduler : StreamScheduler

section

variable {E : Type} (m : StreamsMap E)

/-- The streams that the stream scheduler offers from round `i` on, if all of them are left
waiting. -/
def offersFrom : ℕ → ℕ → List ℕ → StreamScheduler → List Offer
  | 0, _, _, _ => []
  | rounds + 1, i, visited, s =>
    if visited.length < s.openStreams ∧ i < s.openStreams then
      match s.schedule m.view with
      | some (some n, s) =>
        if (s.node n).id ∈ visited then
          match s.skip n with
          | some s => offersFrom rounds (i + 1) visited s
          | none => []
        else
          match s.bytesUntilCompletion m.view n with
          | some k =>
            ⟨n, k, (s.node n).waiting, s⟩ :: offersFrom rounds (i + 1) ((s.node n).id :: visited)
              (s.modify n fun node => { node with waiting := 1 })
          | none => []
      | _ => []
    else []

/-- The streams that the stream scheduler offers, if all of them are left waiting. -/
def offers (s : StreamScheduler) : List Offer := m.offersFrom s.openStreams.toNat 0 [] s

end

namespace Offer

variable (p : PathPair) (total : ℕ) (o : Offer)

/-- The result of the inequality of ECF for the stream alone. -/
def ownResult : Bool × ℕ := p.waitsForBest (min total o.bytesUntilCompletion) o.waiting

/-- The test that is made of the stream, if the queue size has been `q`. -/
def test (q : ℕ) : StreamTest :=
  let queueSize := min q o.bytesUntilCompletion
  let result := p.waitsForBest queueSize o.waiting
  ⟨o.node, o.bytesUntilCompletion, queueSize, o.waiting, result.1, result.2⟩

/-- The tests that are made of the streams: they end with the first one that does not wait. -/
def tests (p : PathPair) : ℕ → List Offer → List StreamTest
  | _, [] => []
  | q, o :: offers =>
    let t := o.test p q
    t :: if t.waits then tests p t.queueSize offers else []

/-- The first stream whose test does not make it wait, if the queue size has been `q`. -/
def accepted (p : PathPair) : ℕ → List Offer → Option Offer
  | _, [] => none
  | q, o :: offers =>
    let t := o.test p q
    if t.waits then accepted p t.queueSize offers else some o

/-- Wherever all streams before a stream are left waiting by their own tests, the smallest number of
bytes of all of them gives the same result as the bytes of the stream alone. -/
def TestedAlone (p : PathPair) (total : ℕ) (offers : List Offer) : Prop :=
  ∀ i (h : i < offers.length), (∀ e ∈ offers.take i, (e.ownResult p total).1 = true) →
    p.waitsForBest ((offers.take i).foldl (fun q e => min q e.bytesUntilCompletion)
      (min total offers[i].bytesUntilCompletion)) offers[i].waiting = offers[i].ownResult p total

instance (p : PathPair) (total : ℕ) (offers : List Offer) : Decidable (TestedAlone p total offers) :=
  inferInstanceAs (Decidable (∀ i (_ : i < offers.length), _))

variable {p : PathPair} {total q : ℕ}

/-- The tests have the results of the streams alone iff the smaller queue sizes make no difference.
The induction is on the streams, with the queue size that is left. -/
theorem tests_own_iff (offers : List Offer) :
    (∀ t ∈ tests p q offers, (t.waits, t.newWaiting) =
      p.waitsForBest (min total t.bytesUntilCompletion) t.waiting) ↔
      ∀ i (h : i < offers.length), (∀ e ∈ offers.take i, (e.ownResult p total).1 = true) →
        p.waitsForBest ((offers.take i).foldl (fun q e => min q e.bytesUntilCompletion)
          (min q offers[i].bytesUntilCompletion)) offers[i].waiting =
            offers[i].ownResult p total := by
  induction offers generalizing q with
  | nil => simp [tests]
  | cons o offers ih =>
    have hmin : ∀ k, min (min q o.bytesUntilCompletion) k = min (min q k) o.bytesUntilCompletion :=
      fun k => min_right_comm q _ k
    constructor
    · intro htests i hi hwait
      have hfirst : p.waitsForBest (min q o.bytesUntilCompletion) o.waiting = o.ownResult p total :=
        htests _ List.mem_cons_self
      cases i with
      | zero => exact hfirst
      | succ i =>
        have hwaits : (o.test p q).waits = true :=
          (congrArg Prod.fst hfirst).trans (hwait o List.mem_cons_self)
        have hrest := ih.mp fun t ht => htests t (List.mem_cons_of_mem _ (by rwa [if_pos hwaits]))
        have hi' : i < offers.length := Nat.lt_of_succ_lt_succ hi
        have hresult := hrest i hi' fun e he => hwait e (List.mem_cons_of_mem _ he)
        change p.waitsForBest ((offers.take i).foldl _ (min (min q o.bytesUntilCompletion) _)) _ = _
          at hresult
        rw [hmin] at hresult
        exact hresult
    · intro hall t ht
      have hfirst := hall 0 (Nat.zero_lt_succ _) nofun
      rcases List.mem_cons.mp ht with rfl | ht
      · exact hfirst
      · split at ht
        · next hwaits =>
          refine ih.mpr (fun i hi hwait => ?_) t ht
          have hown : (o.ownResult p total).1 = true := (congrArg Prod.fst hfirst).symm.trans hwaits
          have hresult := hall (i + 1) (Nat.succ_lt_succ hi)
            (List.forall_mem_cons.mpr ⟨hown, hwait⟩)
          change p.waitsForBest ((offers.take i).foldl _ (min (min q o.bytesUntilCompletion) _)) _ = _
          rw [hmin]
          exact hresult
        · cases ht

end Offer

variable {E : Type} {m : StreamsMap E} {p : PathPair} {acc acc' : Examined}

/-- All that a round of the loop over the streams can do: the stream scheduler has no stream, or one
that is skipped since it has been visited, or one that is tested. -/
theorem examineStep_cases {result : Option Bool} (heq : m.examineStep p acc = some (result, acc')) :
    ∃ strm s, acc.streamScheduler.schedule m.view = some (strm, s) ∧
      (strm = none ∧ result = some false ∧ acc' = { acc with streamScheduler := s } ∨
      ∃ n, strm = some n ∧
        ((s.node n).id ∈ acc.visited ∧ result = none ∧
          (∃ s', s.skip n = some s' ∧ acc' = { acc with streamScheduler := s' }) ∨
        (s.node n).id ∉ acc.visited ∧ ∃ k, s.bytesUntilCompletion m.view n = some k ∧
          ∃ t, t = Offer.test p ⟨n, k, (s.node n).waiting, s⟩ acc.queueSize ∧
          result = (if t.waits then none else some true) ∧
          acc' = ⟨(s.node n).id :: acc.visited, t.queueSize,
            s.modify n fun node => { node with waiting := t.newWaiting }, acc.tests ++ [t]⟩)) := by
  obtain ⟨⟨strm, s⟩, hschedule, heq⟩ := Option.bind_eq_some_iff.mp heq
  refine ⟨strm, s, hschedule, ?_⟩
  cases strm with
  | none =>
    cases heq
    exact .inl ⟨rfl, rfl, rfl⟩
  | some n =>
    refine .inr ⟨n, rfl, ?_⟩
    dsimp only at heq
    split at heq
    · next hvisited =>
      obtain ⟨s', hskip, heq⟩ := Option.bind_eq_some_iff.mp heq
      cases heq
      exact .inl ⟨hvisited, rfl, s', hskip, rfl⟩
    · next hvisited =>
      obtain ⟨k, hk, heq⟩ := Option.bind_eq_some_iff.mp heq
      have hsize : (if acc.queueSize > k then k else acc.queueSize) = min acc.queueSize k := by
        split <;> omega
      rw [hsize] at heq
      cases heq
      exact .inr ⟨hvisited, k, hk, _, rfl, rfl, rfl⟩

/-- **The loop over the streams tests the streams that are offered**, up to the first one that does
not wait. It sends iff there is such a stream, and then leaves the scheduler that has offered it. -/
theorem examine_offers {rounds i : ℕ} {sends : Bool}
    (heq : m.examine p rounds i acc = some (sends, acc')) :
    acc'.tests = acc.tests ++
        Offer.tests p acc.queueSize (m.offersFrom rounds i acc.visited acc.streamScheduler) ∧
      (sends = true → ∃ o waiting, Offer.accepted p acc.queueSize
          (m.offersFrom rounds i acc.visited acc.streamScheduler) = some o ∧
        acc'.streamScheduler =
          o.streamScheduler.modify o.node fun node => { node with waiting := waiting }) := by
  induction rounds generalizing i acc with
  | zero =>
    rw [StreamsMap.examine] at heq
    split at heq
    · cases heq
    · cases heq
      exact ⟨(List.append_nil _).symm, nofun⟩
  | succ rounds ih =>
    rw [StreamsMap.examine] at heq
    rw [offersFrom]
    split at heq
    · next hgoes =>
      rw [if_pos hgoes]
      obtain ⟨⟨result, acc₁⟩, hround, heq⟩ := Option.bind_eq_some_iff.mp heq
      obtain ⟨strm, s, hschedule, ⟨rfl, rfl, rfl⟩ | ⟨n, rfl, ⟨hvisited, rfl, s', hskip, rfl⟩ |
        ⟨hvisited, k, hk, t, ht, rfl, rfl⟩⟩⟩ := examineStep_cases hround
      · rw [hschedule]
        cases heq
        exact ⟨(List.append_nil _).symm, nofun⟩
      · simp only [hschedule, if_pos hvisited, hskip]
        exact ih heq
      · simp only [hschedule, if_neg hvisited, hk]
        rw [Offer.tests, Offer.accepted, ← ht]
        cases hwaits : t.waits with
        | true =>
          -- the loop goes on with the queue size of this test
          have hflag : t.newWaiting = 1 := by
            rw [ht] at hwaits ⊢
            exact PathPair.snd_waitsForBest hwaits
          rw [hwaits, hflag] at heq
          obtain ⟨htests, haccepted⟩ := ih heq
          refine ⟨?_, haccepted⟩
          rw [htests, List.append_assoc]
          rfl
        | false =>
          rw [hwaits] at heq
          cases heq
          exact ⟨rfl, fun _ => ⟨_, _, rfl, rfl⟩⟩
    · next hends =>
      rw [if_neg hends]
      cases heq
      exact ⟨(List.append_nil _).symm, nofun⟩

/-- What a round of the loop over the streams preserves, the loop preserves. -/
theorem examine_rule {P : Examined → Prop}
    (hstep : ∀ {acc acc' result}, P acc → 0 < acc.streamScheduler.openStreams →
      m.examineStep p acc = some (result, acc') → P acc')
    {rounds i : ℕ} {sends : Bool} (h : P acc)
    (heq : m.examine p rounds i acc = some (sends, acc')) : P acc' := by
  induction rounds generalizing i acc with
  | zero =>
    rw [StreamsMap.examine] at heq
    split at heq
    · cases heq
    · cases heq
      exact h
  | succ rounds ih =>
    rw [StreamsMap.examine] at heq
    split at heq
    · next hgoes =>
      obtain ⟨⟨result, acc₁⟩, hround, heq⟩ := Option.bind_eq_some_iff.mp heq
      have h₁ := hstep h (by omega) hround
      cases result with
      | some sends =>
        cases heq
        exact h₁
      | none => exact ih h₁ heq
    · cases heq
      exact h

end StreamsMap

open StreamsMap (Offer)

/-- Path 1 is the best one, and may not send; path 2 has a tenth of its congestion window. -/
def unequalPaths : PathMap where
  ids := [0, 1, 2]
  nodup := by decide
  path := fun id =>
    { Path.setup id ⟨[], 0⟩ ⟨[], 0⟩ versionMP with
      smoothedRTT := if id = 1 then 10 else 15
      congestionWindow := if id = 1 then 146 else 14
      isOpen := id = 2 }

/-- Streams 5 and 7 take turns after every frame, and have so many bytes to send. -/
def twoSenders (first second : ℕ) : List (SendOp Unit) :=
  [.openStream, .openStream, .openStream, .openStream, .setStreamPriority 5 0 0 false,
    .setStreamPriority 7 0 0 false, .setStreamActive 5, .setStreamActive 7,
    .write 5 (List.replicate first 0), .write 7 (List.replicate second 0)]

end MultipathQuic
