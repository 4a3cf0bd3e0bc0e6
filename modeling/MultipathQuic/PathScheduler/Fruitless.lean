import MultipathQuic.PathScheduler.StreamTests
import MultipathQuic.Scheduler.Settled
import MultipathQuic.Stream.WorkConservation

/-!
# Fruitless selections

SA-ECF asks the stream scheduler for streams before it knows whether something can be sent. Every
call of `schedule` uses up quanta or closes finished streams, and every call of `skip` turns to other
streams, so a selection that ends without a path has changed whose turn it is. It has not if the
state is settled.
-/

namespace MultipathQuic

open StreamScheduler (Tree Undisputed Settled Later Alike SpentPair)

/-- A call of SA-ECF. -/
structure SelectCall where
  paths : PathMap
  pathScheduler : PathScheduler
  hasRetransmission : Bool
  hasStreamRetransmission : Bool
  fromPth : Option PathID
  unprobedOrder : List PathID
  order : List PathID

namespace SelectCall

variable {E : Type} (call : SelectCall) {m : StreamsMap E} {s u : StreamScheduler}
  {r : Selection E}

/-- The selection. -/
def apply (m : StreamsMap E) : Option (Selection E) :=
  call.paths.selectPathStreamAwareEarliestCompletionFirst call.pathScheduler m
    call.hasRetransmission call.hasStreamRetransmission call.fromPth call.unprobedOrder call.order

/-- The paths among which the selection chooses. -/
def candidates : PathMap.Candidates :=
  call.paths.candidates call.pathScheduler.quotas call.order

/-- The selection gets to the streams: the best path may not send, and there is a second best one. -/
def Probes : Prop :=
  call.paths.selectEarly call.pathScheduler call.hasRetransmission call.hasStreamRetransmission
      call.fromPth call.unprobedOrder = some none ∧
    ∃ best ∈ call.candidates.bestPath,
      (call.hasRetransmission || (call.paths.path best).sendingAllowed) = false ∧
        call.candidates.secondBestPath ≠ none

instance (call : SelectCall) : Decidable call.Probes :=
  inferInstanceAs (Decidable (_ ∧ _))

end SelectCall

namespace StreamsMap

variable {E : Type} {m : StreamsMap E} {p : PathPair} {s s' : StreamScheduler}
  {acc acc' : Examined}

/-- Calls in a row that select no path. -/
def fruitless : StreamsMap E → List SelectCall → Option (StreamsMap E)
  | m, [] => some m
  | m, call :: calls => do
    let r ← call.apply m
    if r.path = none then fruitless r.streamsMap calls else none

/-- One round of the loop over the streams leaves a scheduler that is like the one before. -/
theorem alike_examineStep (htree : Tree s) (hd : Undisputed m.view s)
    (h : Alike (fun _ => False) s acc.streamScheduler) {result : Option Bool}
    (heq : m.examineStep p acc = some (result, acc')) :
    Alike (fun _ => False) s acc'.streamScheduler := by
  obtain ⟨strm, t, hschedule, hcases⟩ := examineStep_cases heq
  obtain ⟨halike, hnarrow⟩ := (h.tree htree).alike_schedule (h.undisputed hd) hschedule
  have ht := h.trans halike
  rcases hcases with ⟨-, -, rfl⟩ | ⟨n, rfl, ⟨-, -, t', hskip, rfl⟩ | ⟨-, -, -, test, -, -, rfl⟩⟩
  · exact ht
  · refine ht.trans (ht.right.skip (ht.tree htree) (fun x hx hne => ?_) hskip)
    rw [halike.parent_eq] at hx
    rw [halike.children_eq]
    exact hnarrow n rfl x hx hne
  · exact ht.trans (ht.right.setWaiting n _)

/-- One round of the loop over the streams of a spent tree leaves the header stream the same. -/
theorem spentPair_examineStep (h : SpentPair m.view s acc.streamScheduler) {result : Option Bool}
    (heq : m.examineStep p acc = some (result, acc')) :
    SpentPair m.view s acc'.streamScheduler := by
  obtain ⟨strm, t, hschedule, hcases⟩ := examineStep_cases heq
  obtain ⟨ht, hroot⟩ := h.schedule_right hschedule
  rcases hcases with ⟨-, -, rfl⟩ | ⟨n, rfl, ⟨-, -, t', hskip, rfl⟩ | ⟨-, -, -, test, -, -, rfl⟩⟩
  · exact ht
  · obtain rfl := hroot n rfl
    exact ht.skip hskip
  · exact ht.setWaiting n _

end StreamsMap

namespace SelectCall

variable {E : Type} {call : SelectCall} {m : StreamsMap E} {s u : StreamScheduler}
  {r : Selection E}

/-- The streams when a selection with the stream scheduler `u` starts. -/
def reset (m : StreamsMap E) (u : StreamScheduler) : StreamsMap E :=
  { m with streamScheduler := some { u with toSend := none } }

/-- A selection resets `toSend`; if it gets to the streams, it does what the loop over them does. -/
theorem apply_cases (hu : m.streamScheduler = some u) (heq : call.apply m = some r) :
    ¬ call.Probes ∧ r.streamsMap = reset m u ∨
    call.Probes ∧ ∃ best second sends acc,
      call.candidates.bestPath = some best ∧ call.candidates.secondBestPath = some second ∧
      (reset m u).examineStreams (call.paths.pathPair call.candidates best second)
        { u with toSend := none } = some (sends, acc) ∧
      r.path = (if sends then some second else none) ∧
      r.streamsMap = { m with streamScheduler := some acc.streamScheduler } := by
  unfold apply PathMap.selectPathStreamAwareEarliestCompletionFirst at heq
  rw [hu] at heq
  obtain ⟨early, hearly, heq⟩ := Option.bind_eq_some_iff.mp heq
  cases early with
  | some pth =>
    cases heq
    refine Or.inl ⟨?_, rfl⟩
    rintro ⟨hnone, -⟩
    cases hearly.symm.trans hnone
  | none =>
    dsimp only at heq
    unfold PathMap.decideSaEcf at heq
    split at heq
    · next hbest =>
      cases heq
      refine Or.inl ⟨?_, rfl⟩
      rintro ⟨-, best, hbest', -⟩
      cases hbest.symm.trans hbest'
    · split at heq
      · next best hbest hallowed =>
        cases heq
        refine Or.inl ⟨?_, rfl⟩
        rintro ⟨-, best', hbest', hblocked, -⟩
        cases hbest.symm.trans hbest'
        exact absurd (hallowed.symm.trans hblocked) (by decide)
      · split at heq
        · next hsecond =>
          cases heq
          refine Or.inl ⟨?_, rfl⟩
          rintro ⟨-, _, -, -, hsecond'⟩
          exact hsecond' hsecond
        · next best hbest hblocked _ second hsecond =>
          obtain ⟨⟨sends, acc⟩, hexamine, hr⟩ := Option.bind_eq_some_iff.mp heq
          cases hr
          refine Or.inr ⟨⟨hearly, best, hbest, by simpa using hblocked, fun hnone => ?_⟩,
            best, second, sends, acc, hbest, hsecond, hexamine, rfl, rfl⟩
          exact Option.some_ne_none second (hsecond.symm.trans hnone)

end SelectCall

namespace StreamsMap

variable {E : Type} {m m' : StreamsMap E} {s u : StreamScheduler} {calls : List SelectCall}

/-- What setting `toSend` and the rounds of the loop over the streams preserve, fruitless selections
preserve. -/
theorem fruitless_rule {P : StreamScheduler → Prop}
    (hreset : ∀ {u}, P u → P { u with toSend := none })
    (hstep : ∀ {m₁ : StreamsMap E} {p acc acc' result}, m₁.view = m.view →
      (∃ call ∈ calls, call.Probes) → P acc.streamScheduler → 0 < acc.streamScheduler.openStreams →
        m₁.examineStep p acc = some (result, acc') → P acc'.streamScheduler)
    (hu : m.streamScheduler = some u) (h : P u) (heq : m.fruitless calls = some m') :
    ∃ u', m'.streamScheduler = some u' ∧ P u' := by
  induction calls generalizing m u with
  | nil =>
    cases heq
    exact ⟨u, hu, h⟩
  | cons call calls ih =>
    obtain ⟨r, hr, heq⟩ := Option.bind_eq_some_iff.mp heq
    split at heq
    · obtain ⟨hview, u', hu', h'⟩ : r.streamsMap.view = m.view ∧
          ∃ u', r.streamsMap.streamScheduler = some u' ∧ P u' := by
        rcases SelectCall.apply_cases hu hr with
          ⟨-, hr⟩ | ⟨hprobes, best, second, sends, acc, -, -, hexamine, -, hr⟩
        · rw [hr]
          exact ⟨rfl, _, rfl, hreset h⟩
        · rw [hr]
          refine ⟨rfl, _, rfl, examine_rule (P := fun acc => P acc.streamScheduler)
            (fun hacc hopen hround => ?_) (hreset h) hexamine⟩
          exact hstep rfl ⟨call, List.mem_cons_self, hprobes⟩ hacc hopen hround
      refine ih (fun hview' hprobes => hstep (hview'.trans hview) ?_) hu' h' heq
      obtain ⟨c, hc, hprobes⟩ := hprobes
      exact ⟨c, List.mem_cons_of_mem _ hc, hprobes⟩
    · cases heq

/-- **Fruitless selections in a settled state make no difference** to the streams that are returned
later. -/
theorem fruitless_settled (hs : m.streamScheduler = some s) (htree : Tree s)
    (hid : ∀ x < s.size, x ≠ 0 → (s.node x).id ≠ 0)
    (hcond : ∀ call ∈ calls, call.Probes → 0 < s.openStreams → Settled m.view s)
    (hcalls : m.fruitless calls = some m') :
    ∃ s', m'.streamScheduler = some s' ∧ ∀ views : List (ℕ → StreamView),
      (∀ view ∈ views, Later m.view view) →
        (s'.schedules views).map Prod.fst = (s.schedules views).map Prod.fst := by
  by_cases hloop : (∃ call ∈ calls, call.Probes) ∧ 0 < s.openStreams
  · obtain ⟨⟨call, hcall, hprobes⟩, hopen⟩ := hloop
    rcases hcond call hcall hprobes hopen with hd | hspent
    · obtain ⟨s', hs', halike⟩ := fruitless_rule (P := Alike (fun _ => False) s)
        (fun h => h.trans (h.right.setToSend none))
        (fun hview _ h _ heq => alike_examineStep htree (hview ▸ hd) h heq) hs htree.alike_refl hcalls
      exact ⟨s', hs', fun views _ => halike.schedules views⟩
    · have hpair : SpentPair m.view s s := ⟨⟨htree, hid, hspent⟩, ⟨htree, hid, hspent⟩, Or.inl rfl⟩
      obtain ⟨s', hs', hpair'⟩ := fruitless_rule (P := SpentPair m.view s)
        (fun h => h.setToSend none)
        (fun hview _ h _ heq => hview ▸ spentPair_examineStep (hview ▸ h) heq) hs hpair hcalls
      exact ⟨s', hs', fun views hviews => hpair'.schedules hviews⟩
  · -- no round of the loop is made
    obtain ⟨s', hs', halike, -⟩ := fruitless_rule
      (P := fun u => Alike (fun _ => False) s u ∧ u.openStreams = s.openStreams)
      (fun h => ⟨h.1.trans (h.1.right.setToSend none), h.2⟩)
      (fun _ hprobes h hopen _ => absurd ⟨hprobes, h.2 ▸ hopen⟩ hloop) hs ⟨htree.alike_refl, rfl⟩ hcalls
    exact ⟨s', hs', fun views _ => halike.schedules views⟩

end StreamsMap

/-- **Fruitless selections and the order of the streams:** if the state is settled, or no call gets to
the streams, then any number of fruitless selections in a row leaves a scheduler whose calls of
`schedule` return the same streams as if the selections had not been made, whatever the streams do
meanwhile. If the state is not settled, then already the first call of `schedule` that a selection
makes uses up a quantum for which siblings compete, or closes a stream while another one is open. -/
theorem fruitless_schedules {E : Type} {m m' : StreamsMap E} {s : StreamScheduler}
    (hs : m.streamScheduler = some s) (htree : Tree s)
    (hid : ∀ x < s.size, x ≠ 0 → (s.node x).id ≠ 0) {calls : List SelectCall}
    (hcalls : m.fruitless calls = some m') :
    ((∀ call ∈ calls, call.Probes → 0 < s.openStreams → Settled m.view s) →
      ∃ s', m'.streamScheduler = some s' ∧ ∀ views : List (ℕ → StreamView),
        (∀ view ∈ views, Later m.view view) →
          (s'.schedules views).map Prod.fst = (s.schedules views).map Prod.fst) ∧
    (¬ Settled m.view s → ∀ strm t, s.schedule m.view = some (strm, t) →
      (∃ x, s.contested x ∧ (t.node x).quantum = sub16 (s.due x) 1) ∨
        ∃ f, s.finished m.view f ∧ (t.node f).state = .closed ∧
          ∃ x < s.size, x ≠ 0 ∧ (s.node x).state = .active ∧ ¬ s.finished m.view x) :=
  ⟨fun hcond => StreamsMap.fruitless_settled hs htree hid hcond hcalls,
    fun hnot _ _ heq => htree.disturbed_schedule hid hnot heq⟩

/-- A selection between two unequal paths. -/
def unequalCall : SelectCall :=
  ⟨unequalPaths, ⟨fun _ => 0, 0⟩, false, false, none, [0, 1, 2], [0, 1, 2]⟩

/-- Stream 7 depends on stream 5, which has no data and is idle. -/
def dependentSender : List (SendOp Unit) :=
  [.openStream, .openStream, .openStream, .openStream, .setStreamPriority 7 15 5 false,
    .setStreamActive 7, .write 7 (List.replicate 30 0)]

/-- Streams 5 and 7 have a few bytes to send. -/
def shortSenders : List (SendOp Unit) :=
  [.openStream, .openStream, .openStream, .openStream, .setStreamActive 5, .setStreamActive 7,
    .write 5 (List.replicate 30 0), .write 7 (List.replicate 30 0)]

open SendRun in
theorem dependentSender_undisturbed :
    (∃ st ∈ run (start Unit .client smallWindows true) dependentSender,
      ∃ s ∈ st.streamsMap.streamScheduler, Settled st.streamsMap.view s ∧
        ∃ m' ∈ st.streamsMap.fruitless [unequalCall, unequalCall],
          ∃ s', m'.streamScheduler = some s' ∧ ∀ views : List (ℕ → StreamView),
            (∀ view ∈ views, Later st.streamsMap.view view) →
              (s'.schedules views).map Prod.fst = (s.schedules views).map Prod.fst) ∧
    ∃ st ∈ run (start Unit .client smallWindows true) shortSenders,
      ∃ s ∈ st.streamsMap.streamScheduler, ¬ Settled st.streamsMap.view s ∧
        ∀ strm t, s.schedule st.streamsMap.view = some (strm, t) →
          (∃ x, s.contested x ∧ (t.node x).quantum = sub16 (s.due x) 1) ∨
            ∃ f, s.finished st.streamsMap.view f ∧ (t.node f).state = .closed ∧
              ∃ x < s.size, x ≠ 0 ∧ (s.node x).state = .active ∧
                ¬ s.finished st.streamsMap.view x := by
  have htree : ∀ {ops st s}, Sound (start Unit .client smallWindows true) ops →
      st ∈ run (start Unit .client smallWindows true) ops →
        s ∈ st.streamsMap.streamScheduler → Tree s := by
    intro ops st s hsound hst hs
    exact (kept_run (kept_start .client smallWindows true) hsound st hst s hs).toTree
  constructor
  · obtain ⟨st, hst, s, hs, m', hm', hsettled, hid⟩ :
        ∃ st ∈ run (start Unit .client smallWindows true) dependentSender,
          ∃ s ∈ st.streamsMap.streamScheduler,
            ∃ m' ∈ st.streamsMap.fruitless [unequalCall, unequalCall],
              Settled st.streamsMap.view s ∧ ∀ x < s.size, x ≠ 0 → (s.node x).id ≠ 0 := by
      decide +kernel
    exact ⟨st, hst, s, hs, hsettled, m', hm',
      (fruitless_schedules hs (htree (by decide +kernel) hst hs) hid hm').1 fun _ _ _ _ => hsettled⟩
  · obtain ⟨st, hst, s, hs, m', hm', hnot, hid⟩ :
        ∃ st ∈ run (start Unit .client smallWindows true) shortSenders,
          ∃ s ∈ st.streamsMap.streamScheduler,
            ∃ m' ∈ st.streamsMap.fruitless [unequalCall],
              ¬ Settled st.streamsMap.view s ∧ ∀ x < s.size, x ≠ 0 → (s.node x).id ≠ 0 := by
      decide +kernel
    exact ⟨st, hst, s, hs, hnot,
      (fruitless_schedules hs (htree (by decide +kernel) hst hs) hid hm').2 hnot⟩

open SendRun in
/-- **A fruitless selection makes another stream come first.** -/
theorem shortSenders_disturbed :
    Sound (start Unit .client smallWindows true) shortSenders ∧
    ∃ st ∈ run (start Unit .client smallWindows true) shortSenders,
      ∃ s ∈ st.streamsMap.streamScheduler, ∃ m' ∈ st.streamsMap.fruitless [unequalCall],
        (s.schedules [st.streamsMap.view]).map Prod.fst = some [some 1] ∧
        ∃ s' ∈ m'.streamScheduler,
          (s'.schedules [st.streamsMap.view]).map Prod.fst = some [some 2] := by
  decide +kernel

end MultipathQuic
