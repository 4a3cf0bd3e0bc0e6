import MultipathQuic.PathScheduler.PathScheduler

/-!
# What the selectors select

Without retransmissions, and with more than one path, all four selectors return eligible paths: not
the initial one, not potentially failed, and allowed to send. ECF and SA-ECF do not ask the best path
whether it may send before the loop over the paths is over.

`selectPathLowLatency` keeps the lowest round-trip time so far in a variable that is 0 as long as
there is no candidate, and also as long as the candidate is unprobed. What the loop has found is
therefore told by the selected path, not by that variable.

## Main definitions

* `PathMap.Eligible`: the paths that may be selected

## Main results

* `select_eligible`: what is selected is eligible
* `selectPathLowLatency_minimal`: no eligible path has a lower round-trip time
-/

namespace MultipathQuic

namespace PathMap

variable {E : Type} (paths : PathMap) {sch : PathScheduler} {m : StreamsMap E}
  {order : List PathID} {id : PathID}

/-- New data may be sent on the path. -/
def Eligible (id : PathID) : Prop :=
  id ≠ initialPathID ∧ (paths.path id).potentiallyFailed = false ∧
    (paths.path id).sendingAllowed = true

instance : DecidablePred paths.Eligible := fun _ => inferInstanceAs (Decidable (_ ∧ _))

/-- A selector may return the path at the end of its loop. Retransmissions are sent even if the path
may not send. -/
def EligibleFor (hasRetransmission : Bool) (id : PathID) : Prop :=
  id ≠ initialPathID ∧ (paths.path id).potentiallyFailed = false ∧
    (hasRetransmission = true ∨ (paths.path id).sendingAllowed = true)

/-- The frames of the unprobed path `fromPth` may be sent again on the path. -/
def TakesOver (hasRetransmission : Bool) (fromPth : Option PathID) (order : List PathID)
    (id : PathID) : Prop :=
  hasRetransmission = true ∧ id ∈ order ∧ id ≠ initialPathID ∧
    ∃ id' ∈ fromPth, (paths.path id').smoothedRTT = 0

variable {paths}

/-! ## Eligible paths -/

section Steps

variable {quotas : PathID → ℕ} {hasRetransmission : Bool} {pathID : PathID} {Q : PathID → Prop}

theorem eligibleFor_of_not
    (hallowed : ¬(hasRetransmission = false ∧ (paths.path pathID).sendingAllowed = false))
    (hfailed : ¬(paths.path pathID).potentiallyFailed = true) (hinitial : pathID ≠ initialPathID) :
    paths.EligibleFor hasRetransmission pathID := by
  refine ⟨hinitial, by simpa using hfailed, ?_⟩
  by_contra hnot
  simp only [not_or, Bool.not_eq_true] at hnot
  exact hallowed hnot

theorem roundRobinStep_rule {acc : Option PathID × ℕ} (hacc : ∀ id ∈ acc.1, Q id)
    (hnew : paths.EligibleFor hasRetransmission pathID → Q pathID) :
    ∀ id ∈ (paths.roundRobinStep quotas hasRetransmission acc pathID).1, Q id := by
  unfold roundRobinStep
  dsimp only
  split
  · exact hacc
  next hallowed =>
  split
  · exact hacc
  next hfailed =>
  split
  · exact hacc
  next hinitial =>
  split
  · rintro id ⟨⟩
    exact hnew (eligibleFor_of_not hallowed hfailed hinitial)
  · exact hacc

theorem lowLatencyStep_rule {acc : Lowest} (hacc : ∀ id ∈ acc.selectedPath, Q id)
    (hnew : paths.EligibleFor hasRetransmission pathID → Q pathID) :
    ∀ id ∈ (paths.lowLatencyStep quotas hasRetransmission acc pathID).selectedPath, Q id := by
  unfold lowLatencyStep
  dsimp only
  split
  · exact hacc
  next hallowed =>
  split
  · exact hacc
  next hfailed =>
  split
  · exact hacc
  next hinitial =>
  iterate 3
    split
    · exact hacc
  rintro id ⟨⟩
  exact hnew (eligibleFor_of_not hallowed hfailed hinitial)

/-- The candidates are paths of the loop, and the second best one is eligible; the best one may still
be blocked. -/
structure Candidates.Usable (paths : PathMap) (order : List PathID) (c : Candidates) : Prop where
  best : ∀ id ∈ c.bestPath,
    id ∈ order ∧ id ≠ initialPathID ∧ (paths.path id).potentiallyFailed = false
  second : ∀ id ∈ c.secondBestPath, id ∈ order ∧ paths.Eligible id

theorem candidatesStep_usable {c : Candidates} (hc : c.Usable paths order)
    (hmem : pathID ∈ order) : (paths.candidatesStep quotas c pathID).Usable paths order := by
  unfold candidatesStep
  dsimp only
  split
  · exact hc
  next hfailed =>
  split
  · exact hc
  next hinitial =>
  have hfailed' : (paths.path pathID).potentiallyFailed = false := by simpa using hfailed
  have hsecond : (paths.considerSecond c pathID).Usable paths order := by
    unfold considerSecond
    dsimp only
    split
    · next h =>
      refine ⟨hc.best, ?_⟩
      rintro id ⟨⟩
      exact ⟨hmem, hinitial, hfailed', h.2.2⟩
    · exact hc
  iterate 2
    split
    · exact hc
  split
  · exact hsecond
  · refine ⟨?_, hsecond.second⟩
    rintro id ⟨⟩
    exact ⟨hmem, hinitial, hfailed'⟩

end Steps

theorem candidates_usable (quotas : PathID → ℕ) (order : List PathID) :
    (paths.candidates quotas order).Usable paths order := by
  refine List.foldlRecOn order _ ⟨?_, ?_⟩ fun c hc pathID hmem => candidatesStep_usable hc hmem
  · intro id h
    cases h
  · intro id h
    cases h

section Decide

variable {c : Candidates} {hasRetransmission : Bool}

/-- The best path is returned if it may send. -/
theorem Candidates.Usable.eligible_best (hc : c.Usable paths order) (hid : c.bestPath = some id)
    (hallowed : (hasRetransmission || (paths.path id).sendingAllowed) = true) :
    id ∈ order ∧ paths.EligibleFor hasRetransmission id := by
  obtain ⟨hmem, hinitial, hfailed⟩ := hc.best id hid
  exact ⟨hmem, hinitial, hfailed, Bool.or_eq_true_iff.mp hallowed⟩

theorem Candidates.Usable.eligible_second (hc : c.Usable paths order)
    (hid : c.secondBestPath = some id) : id ∈ order ∧ paths.EligibleFor hasRetransmission id := by
  obtain ⟨hmem, hinitial, hfailed, hallowed⟩ := hc.second id hid
  exact ⟨hmem, hinitial, hfailed, Or.inr hallowed⟩

theorem decideEcf_eligible (hc : c.Usable paths order)
    (h : (paths.decideEcf sch m hasRetransmission c).path = some id) :
    id ∈ order ∧ paths.EligibleFor hasRetransmission id := by
  unfold decideEcf at h
  cases hbest : c.bestPath with
  | none =>
    rw [hbest] at h
    exact hc.eligible_second h
  | some best =>
    rw [hbest] at h
    dsimp only at h
    split at h
    · next hallowed =>
      cases h
      exact hc.eligible_best hbest hallowed
    · cases hsecond : c.secondBestPath with
      | none =>
        rw [hsecond] at h
        cases h
      | some second =>
        rw [hsecond] at h
        dsimp only at h
        split at h
        · cases h
        · cases h
          exact hc.eligible_second hsecond

theorem decideSaEcf_eligible {streamScheduler : StreamScheduler} {r : Selection E}
    (hc : c.Usable paths order)
    (hr : paths.decideSaEcf sch m streamScheduler hasRetransmission c = some r)
    (h : r.path = some id) : id ∈ order ∧ paths.EligibleFor hasRetransmission id := by
  unfold decideSaEcf at hr
  cases hbest : c.bestPath with
  | none =>
    rw [hbest] at hr
    cases hr
    exact hc.eligible_second h
  | some best =>
    rw [hbest] at hr
    dsimp only at hr
    split at hr
    · next hallowed =>
      cases hr
      cases h
      exact hc.eligible_best hbest hallowed
    · cases hsecond : c.secondBestPath with
      | none =>
        rw [hsecond] at hr
        cases hr
        cases h
      | some second =>
        rw [hsecond] at hr
        obtain ⟨⟨sends, streamScheduler'⟩, -, hr⟩ := Option.bind_eq_some_iff.mp hr
        cases hr
        split at h
        · cases h
          exact hc.eligible_second hsecond
        · cases h

end Decide

/-! ## The first loop -/

section Early

variable {hasRetransmission hasStreamRetransmission : Bool} {fromPth : Option PathID}
  {unprobedOrder : List PathID}

theorem takesOver_of_selectUnprobed {quotas : PathID → ℕ}
    (h : paths.selectUnprobed quotas hasRetransmission hasStreamRetransmission fromPth
      unprobedOrder = some (some id)) :
    paths.TakesOver hasRetransmission fromPth unprobedOrder id := by
  unfold selectUnprobed at h
  split at h
  · next hboth =>
    obtain ⟨id', hfrom, hless⟩ := Option.bind_eq_some_iff.mp h
    split at hless
    · next hunprobed =>
      have hfound := Option.some_inj.mp hless
      have hother := List.find?_some hfound
      rw [decide_eq_true_eq] at hother
      exact ⟨(Bool.and_eq_true_iff.mp hboth).1, List.mem_of_find?_eq_some hfound, hother.1, id',
        hfrom, hunprobed⟩
    · cases hless
  · cases h

/-- A path is selected before the loop: it is the only one, or it takes frames over. -/
theorem of_selectEarly {pth : Option PathID}
    (h : paths.selectEarly sch hasRetransmission hasStreamRetransmission fromPth unprobedOrder =
      some (some pth)) (hid : pth = some id) :
    (paths.ids.length ≤ 1 ∧ paths.selectInitial hasRetransmission = some (some id)) ∨
      (1 < paths.ids.length ∧ paths.TakesOver hasRetransmission fromPth unprobedOrder id) := by
  unfold selectEarly at h
  split at h
  · next hfew =>
    obtain ⟨pth', hinitial, heq⟩ := Option.map_eq_some_iff.mp h
    cases heq
    exact Or.inl ⟨hfew, hid ▸ hinitial⟩
  · next hmany =>
    obtain ⟨early, hearly, heq⟩ := Option.map_eq_some_iff.mp h
    obtain ⟨id', rfl, rfl⟩ := Option.map_eq_some_iff.mp heq
    cases hid
    exact Or.inr ⟨Nat.lt_of_not_le hmany, takesOver_of_selectUnprobed hearly⟩

/-- Without such a path there are several. -/
theorem many_of_selectEarly
    (h : paths.selectEarly sch hasRetransmission hasStreamRetransmission fromPth unprobedOrder =
      some none) : 1 < paths.ids.length := by
  by_contra hfew
  unfold selectEarly at h
  rw [if_pos (Nat.le_of_not_lt hfew)] at h
  obtain ⟨pth, -, heq⟩ := Option.map_eq_some_iff.mp h
  cases heq

end Early

/-- **What the selectors may return:** the only path, a path that takes frames of an unprobed path
over, or a path that was found eligible in the loop. -/
theorem select_cases {selector : PathSelector} {hasRetransmission hasStreamRetransmission : Bool}
    {fromPth : Option PathID} {unprobedOrder order : List PathID} {r : Selection E}
    (hr : paths.select sch m selector hasRetransmission hasStreamRetransmission fromPth
      unprobedOrder order = some r) (hid : r.path = some id) :
    (paths.ids.length ≤ 1 ∧ paths.selectInitial hasRetransmission = some (some id)) ∨
      (1 < paths.ids.length ∧ paths.TakesOver hasRetransmission fromPth unprobedOrder id) ∨
      (1 < paths.ids.length ∧ id ∈ order ∧ paths.EligibleFor hasRetransmission id) := by
  have hcandidates : (paths.candidates sch.quotas order).Usable paths order :=
    candidates_usable ..
  -- SA-ECF does the same as ECF if there is no stream scheduler
  have hecf : ∀ {m : StreamsMap E} {r : Selection E},
      paths.selectPathEarliestCompletionFirst sch m hasRetransmission hasStreamRetransmission
        fromPth unprobedOrder order = some r → r.path = some id →
      (paths.ids.length ≤ 1 ∧ paths.selectInitial hasRetransmission = some (some id)) ∨
        (1 < paths.ids.length ∧ paths.TakesOver hasRetransmission fromPth unprobedOrder id) ∨
        (1 < paths.ids.length ∧ id ∈ order ∧ paths.EligibleFor hasRetransmission id) := by
    intro m r hr hid
    obtain ⟨early, hearly, hr⟩ := Option.bind_eq_some_iff.mp hr
    cases early with
    | some pth =>
      cases hr
      exact (of_selectEarly hearly hid).imp_right Or.inl
    | none =>
      cases hr
      exact Or.inr (Or.inr ⟨many_of_selectEarly hearly, decideEcf_eligible hcandidates hid⟩)
  cases selector with
  | roundRobin =>
    obtain ⟨pth, hpth, rfl⟩ := Option.map_eq_some_iff.mp hr
    unfold selectPathRoundRobin at hpth
    split at hpth
    · next hfew => exact Or.inl ⟨hfew, hid ▸ hpth⟩
    · next hmany =>
      cases hpth
      refine Or.inr (Or.inr ⟨Nat.lt_of_not_le hmany, ?_⟩)
      refine List.foldlRecOn order (motive := fun acc : Option PathID × ℕ => ∀ id ∈ acc.1,
        id ∈ order ∧ paths.EligibleFor hasRetransmission id) _ ?_
        (fun _ hacc _ hmem => roundRobinStep_rule hacc fun hnew => ⟨hmem, hnew⟩) id hid
      intro id h
      cases h
  | lowLatency =>
    obtain ⟨pth, hpth, rfl⟩ := Option.map_eq_some_iff.mp hr
    unfold selectPathLowLatency at hpth
    split at hpth
    · next hfew => exact Or.inl ⟨hfew, hid ▸ hpth⟩
    · next hmany =>
      have hmany := Nat.lt_of_not_le hmany
      obtain ⟨lessUsed, hless, hpth⟩ := Option.bind_eq_some_iff.mp hpth
      cases lessUsed with
      | some id' =>
        cases hpth
        cases hid
        exact Or.inr (Or.inl ⟨hmany, takesOver_of_selectUnprobed hless⟩)
      | none =>
        cases hpth
        refine Or.inr (Or.inr ⟨hmany, ?_⟩)
        refine List.foldlRecOn order (motive := fun acc : Lowest => ∀ id ∈ acc.selectedPath,
          id ∈ order ∧ paths.EligibleFor hasRetransmission id) _ ?_
          (fun _ hacc _ hmem => lowLatencyStep_rule hacc fun hnew => ⟨hmem, hnew⟩) id hid
        intro id h
        cases h
  | ecf => exact hecf hr hid
  | saEcf =>
    unfold select selectPathStreamAwareEarliestCompletionFirst at hr
    dsimp only at hr
    split at hr
    · exact hecf hr hid
    · obtain ⟨early, hearly, hr⟩ := Option.bind_eq_some_iff.mp hr
      cases early with
      | some pth =>
        cases hr
        exact (of_selectEarly hearly hid).imp_right Or.inl
      | none =>
        exact Or.inr (Or.inr ⟨many_of_selectEarly hearly, decideSaEcf_eligible hcandidates hr hid⟩)

end PathMap

open PathMap (Eligible)

/-- **New data goes to eligible paths only:** with more than one path and no retransmission, a path
that any of the selectors returns is not the initial path, is not potentially failed, and may send.
The order of the map does not matter. -/
theorem select_eligible {E : Type} {paths : PathMap} {sch : PathScheduler} {m : StreamsMap E}
    {selector : PathSelector} (hmany : 1 < paths.ids.length) {hasStreamRetransmission : Bool}
    {fromPth : Option PathID} {unprobedOrder order : List PathID} {r : Selection E} {id : PathID}
    (hr : paths.select sch m selector false hasStreamRetransmission fromPth unprobedOrder order =
      some r)
    (hid : r.path = some id) :
    id ≠ initialPathID ∧ (paths.path id).potentiallyFailed = false ∧
      (paths.path id).sendingAllowed = true := by
  rcases PathMap.select_cases hr hid with
    ⟨hfew, -⟩ | ⟨-, hnew, -⟩ | ⟨-, -, hinitial, hfailed, hallowed⟩
  · exact absurd hmany (Nat.not_lt.mpr hfew)
  · cases hnew
  · refine ⟨hinitial, hfailed, hallowed.resolve_left ?_⟩
    exact Bool.false_ne_true

/-- Paths 1, 2 and 3 besides the initial one, with the given round-trip times; those of `sending` may
send. -/
def threePaths (rtts : List ℤ) (sending : List PathID) : PathMap where
  ids := [0, 1, 2, 3]
  nodup := by decide
  path := fun id =>
    { Path.setup id ⟨[], 0⟩ ⟨[], 0⟩ versionMP with
      smoothedRTT := (rtts[id.toNat - 1]?).getD 0
      isOpen := sending.contains id }

/-- The best path, path 3, may not send, and ECF does not wait for it. -/
theorem select_eligible_threePaths :
    ∃ r, (threePaths [30, 20, 10] [1, 2]).select ⟨fun _ => 0, 0⟩
        (newStreamsMap Unit .server ⟨0, 0, 0, 0, 0, 0, 0, 0⟩ none) .ecf false false none []
        [1, 0, 3, 2] = some r ∧ r.path = some 2 ∧
      2 ≠ initialPathID ∧ ((threePaths [30, 20, 10] [1, 2]).path 2).potentiallyFailed = false ∧
        ((threePaths [30, 20, 10] [1, 2]).path 2).sendingAllowed = true := by
  obtain ⟨r, hr, hid⟩ : ∃ r ∈ (threePaths [30, 20, 10] [1, 2]).select ⟨fun _ => 0, 0⟩
      (newStreamsMap Unit .server ⟨0, 0, 0, 0, 0, 0, 0, 0⟩ none) .ecf false false none []
      [1, 0, 3, 2], r.path = some 2 := by
    decide +kernel
  have hmany : 1 < (threePaths [30, 20, 10] [1, 2]).ids.length := by decide
  exact ⟨r, hr, hid, select_eligible hmany hr hid⟩

/-! ## The lowest latency -/

namespace PathMap

variable {paths : PathMap} {quotas : PathID → ℕ} {seen : List PathID} {acc : Lowest}
  {pathID id : PathID}

/-- What the loop of `selectPathLowLatency` has found among the paths it has seen: nothing, an
eligible path with the lowest round-trip time that has been measured, or, if none has been measured,
one with the lowest quota. -/
structure Lowest.Of (paths : PathMap) (quotas : PathID → ℕ) (seen : List PathID) (acc : Lowest) :
    Prop where
  nothing : acc.selectedPath = none → acc.lowerRTT = 0 ∧ ∀ id ∈ seen, ¬ paths.Eligible id
  stored : ∀ id, acc.selectedPath = some id →
    acc.selectedPathID = id ∧ acc.lowerRTT = (paths.path id).smoothedRTT
  eligible : ∀ id, acc.selectedPath = some id → id ∈ seen ∧ paths.Eligible id
  probed : ∀ id, acc.selectedPath = some id → (paths.path id).smoothedRTT ≠ 0 →
    ∀ id' ∈ seen, paths.Eligible id' → (paths.path id').smoothedRTT ≠ 0 →
      (paths.path id).smoothedRTT ≤ (paths.path id').smoothedRTT
  unprobed : ∀ id, acc.selectedPath = some id → (paths.path id).smoothedRTT = 0 →
    ∀ id' ∈ seen, paths.Eligible id' →
      (paths.path id').smoothedRTT = 0 ∧ quotas id ≤ quotas id'

theorem Lowest.of_nil : Lowest.Of paths quotas [] ⟨none, 0, 255⟩ := by
  refine ⟨fun _ => ⟨rfl, by simp⟩, ?_, ?_, ?_, ?_⟩ <;>
  · intro id h
    cases h

/-- A path that is not eligible is passed over. -/
theorem lowLatencyStep_of_not_eligible (h : ¬ paths.Eligible pathID) :
    paths.lowLatencyStep quotas false acc pathID = acc := by
  unfold lowLatencyStep
  dsimp only
  split
  · rfl
  next hallowed =>
  split
  · rfl
  next hfailed =>
  rw [if_pos]
  by_contra hinitial
  exact h ⟨hinitial, by simpa using hfailed, by simpa using hallowed⟩

theorem lowLatencyStep_of_eligible (h : paths.Eligible pathID) :
    paths.lowLatencyStep quotas false acc pathID =
      if acc.lowerRTT ≠ 0 ∧ (paths.path pathID).smoothedRTT = 0 then acc
      else if (paths.path pathID).smoothedRTT = 0 ∧ acc.selectedPath ≠ none ∧
        quotas pathID > quotas acc.selectedPathID then acc
      else if (paths.path pathID).smoothedRTT ≠ 0 ∧ acc.lowerRTT ≠ 0 ∧ acc.selectedPath ≠ none ∧
        (paths.path pathID).smoothedRTT ≥ acc.lowerRTT then acc
      else ⟨some pathID, (paths.path pathID).smoothedRTT, pathID⟩ := by
  obtain ⟨hinitial, hfailed, hallowed⟩ := h
  unfold lowLatencyStep
  rw [if_neg (by simp [hallowed]), if_neg (by simp [hfailed]), if_neg hinitial]

/-- The selected path stays, since the new one is not eligible or not better. -/
theorem Lowest.Of.keep (h : Lowest.Of paths quotas seen acc)
    (hkeep : paths.Eligible pathID → ∃ id, acc.selectedPath = some id ∧
      ((paths.path id).smoothedRTT ≠ 0 → (paths.path pathID).smoothedRTT ≠ 0 →
        (paths.path id).smoothedRTT ≤ (paths.path pathID).smoothedRTT) ∧
      ((paths.path id).smoothedRTT = 0 →
        (paths.path pathID).smoothedRTT = 0 ∧ quotas id ≤ quotas pathID)) :
    Lowest.Of paths quotas (seen ++ [pathID]) acc where
  nothing hnone := by
    refine ⟨(h.nothing hnone).1, fun id' hid' helig => ?_⟩
    rcases List.mem_append.mp hid' with hid' | hid'
    · exact (h.nothing hnone).2 id' hid' helig
    · rw [List.mem_singleton.mp hid'] at helig
      obtain ⟨id, hid, -⟩ := hkeep helig
      rw [hnone] at hid
      cases hid
  stored := h.stored
  eligible id hid := ⟨List.mem_append_left _ (h.eligible id hid).1, (h.eligible id hid).2⟩
  probed id hid hrtt id' hid' helig hrtt' := by
    rcases List.mem_append.mp hid' with hid' | hid'
    · exact h.probed id hid hrtt id' hid' helig hrtt'
    · rw [List.mem_singleton.mp hid'] at helig hrtt' ⊢
      obtain ⟨id₁, hid₁, hprobed, -⟩ := hkeep helig
      rw [hid] at hid₁
      cases hid₁
      exact hprobed hrtt hrtt'
  unprobed id hid hrtt id' hid' helig := by
    rcases List.mem_append.mp hid' with hid' | hid'
    · exact h.unprobed id hid hrtt id' hid' helig
    · rw [List.mem_singleton.mp hid'] at helig ⊢
      obtain ⟨id₁, hid₁, -, hunprobed⟩ := hkeep helig
      rw [hid] at hid₁
      cases hid₁
      exact hunprobed hrtt

/-- The new path is selected, since there was none or it is better. -/
theorem Lowest.Of.replace (h : Lowest.Of paths quotas seen acc) (helig : paths.Eligible pathID)
    (hbetter : ∀ id, acc.selectedPath = some id →
      ((paths.path pathID).smoothedRTT ≠ 0 → (paths.path id).smoothedRTT ≠ 0 →
        (paths.path pathID).smoothedRTT ≤ (paths.path id).smoothedRTT) ∧
      ((paths.path pathID).smoothedRTT = 0 →
        (paths.path id).smoothedRTT = 0 ∧ quotas pathID ≤ quotas id)) :
    Lowest.Of paths quotas (seen ++ [pathID])
      ⟨some pathID, (paths.path pathID).smoothedRTT, pathID⟩ := by
  -- what has been selected before is better than everything seen before
  have hseen : ∀ id' ∈ seen, paths.Eligible id' →
      ((paths.path pathID).smoothedRTT ≠ 0 → (paths.path id').smoothedRTT ≠ 0 →
        (paths.path pathID).smoothedRTT ≤ (paths.path id').smoothedRTT) ∧
      ((paths.path pathID).smoothedRTT = 0 →
        (paths.path id').smoothedRTT = 0 ∧ quotas pathID ≤ quotas id') := by
    intro id' hid' helig'
    cases hsel : acc.selectedPath with
    | none => exact absurd helig' ((h.nothing hsel).2 id' hid')
    | some id =>
      obtain ⟨hprobed, hunprobed⟩ := hbetter id hsel
      constructor
      · intro hrtt hrtt'
        by_cases hid0 : (paths.path id).smoothedRTT = 0
        · exact absurd (h.unprobed id hsel hid0 id' hid' helig').1 hrtt'
        · exact (hprobed hrtt hid0).trans (h.probed id hsel hid0 id' hid' helig' hrtt')
      · intro hrtt
        obtain ⟨hid0, hquota⟩ := hunprobed hrtt
        obtain ⟨hrtt', hquota'⟩ := h.unprobed id hsel hid0 id' hid' helig'
        exact ⟨hrtt', hquota.trans hquota'⟩
  refine ⟨fun h => ?_, ?_, ?_, ?_, ?_⟩
  · cases h
  · rintro id ⟨⟩
    exact ⟨rfl, rfl⟩
  · rintro id ⟨⟩
    exact ⟨List.mem_append_right _ List.mem_cons_self, helig⟩
  · rintro id ⟨⟩ hrtt id' hid' helig' hrtt'
    rcases List.mem_append.mp hid' with hid' | hid'
    · exact (hseen id' hid' helig').1 hrtt hrtt'
    · rw [List.mem_singleton.mp hid']
  · rintro id ⟨⟩ hrtt id' hid' helig'
    rcases List.mem_append.mp hid' with hid' | hid'
    · exact (hseen id' hid' helig').2 hrtt
    · rw [List.mem_singleton.mp hid']
      exact ⟨hrtt, le_rfl⟩

theorem Lowest.Of.step (h : Lowest.Of paths quotas seen acc) (pathID : PathID) :
    Lowest.Of paths quotas (seen ++ [pathID]) (paths.lowLatencyStep quotas false acc pathID) := by
  by_cases helig : paths.Eligible pathID
  · rw [lowLatencyStep_of_eligible helig]
    cases hsel : acc.selectedPath with
    | none =>
      have hzero := (h.nothing hsel).1
      rw [if_neg (by simp [hzero]), if_neg (by simp), if_neg (by simp)]
      refine h.replace helig fun id hid => ?_
      rw [hsel] at hid
      cases hid
    | some id =>
      obtain ⟨hid, hlower⟩ := h.stored id hsel
      rw [hid, hlower]
      split
      · next hc =>
        exact h.keep fun _ =>
          ⟨id, hsel, fun _ h0 => absurd hc.2 h0, fun h0 => absurd h0 hc.1⟩
      next hc₁ =>
      split
      · next hc =>
        exact h.keep fun _ =>
          ⟨id, hsel, fun _ h0 => absurd hc.1 h0, fun _ => ⟨hc.1, hc.2.2.le⟩⟩
      next hc₂ =>
      split
      · next hc =>
        exact h.keep fun _ => ⟨id, hsel, fun _ _ => hc.2.2.2, fun h0 => absurd h0 hc.2.1⟩
      next hc₃ =>
      refine h.replace helig fun id' hid' => ?_
      rw [hsel] at hid'
      cases hid'
      refine ⟨fun hrtt hrtt' => ?_, fun hrtt => ⟨?_, ?_⟩⟩
      · by_contra hlt
        exact hc₃ ⟨hrtt, hrtt', by simp, (not_le.mp hlt).le⟩
      · by_contra h0
        exact hc₁ ⟨h0, hrtt⟩
      · by_contra hlt
        exact hc₂ ⟨hrtt, by simp, not_le.mp hlt⟩
  · rw [lowLatencyStep_of_not_eligible helig]
    exact h.keep fun h => absurd h helig

/-- The whole loop. -/
theorem Lowest.of_foldl (paths : PathMap) (quotas : PathID → ℕ) (order : List PathID) :
    Lowest.Of paths quotas order
      (order.foldl (paths.lowLatencyStep quotas false) ⟨none, 0, 255⟩) := by
  induction order using List.reverseRecOn with
  | nil => exact Lowest.of_nil
  | append_singleton seen pathID ih =>
    rw [List.foldl_append]
    exact ih.step pathID

end PathMap

/-- **`selectPathLowLatency` picks a true minimum:** with more than one path and no retransmission,
and for every order of the map, it returns an eligible path with the lowest round-trip time among
those that have been measured; if none has been measured, an eligible path with the lowest quota; and
nothing if no path is eligible. -/
theorem selectPathLowLatency_minimal (sch : PathScheduler) {paths : PathMap}
    (hmany : 1 < paths.ids.length) (hasStreamRetransmission : Bool) (fromPth : Option PathID)
    (unprobedOrder : List PathID) {order : List PathID} (horder : order.Perm paths.ids) :
    ∃ r, paths.selectPathLowLatency sch false hasStreamRetransmission fromPth unprobedOrder order =
        some r ∧
      ((∃ id ∈ paths.ids, paths.Eligible id ∧ (paths.path id).smoothedRTT ≠ 0) →
        ∃ id ∈ paths.ids, r = some id ∧ paths.Eligible id ∧ (paths.path id).smoothedRTT ≠ 0 ∧
          ∀ id' ∈ paths.ids, paths.Eligible id' → (paths.path id').smoothedRTT ≠ 0 →
            (paths.path id).smoothedRTT ≤ (paths.path id').smoothedRTT) ∧
      ((∀ id ∈ paths.ids, paths.Eligible id → (paths.path id).smoothedRTT = 0) →
        (∃ id ∈ paths.ids, paths.Eligible id) →
        ∃ id ∈ paths.ids, r = some id ∧ paths.Eligible id ∧
          ∀ id' ∈ paths.ids, paths.Eligible id' → sch.quotas id ≤ sch.quotas id') ∧
      ((∀ id ∈ paths.ids, ¬ paths.Eligible id) → r = none) := by
  have hof := PathMap.Lowest.of_foldl paths sch.quotas order
  obtain ⟨acc, hacc⟩ : ∃ acc, acc =
    order.foldl (paths.lowLatencyStep sch.quotas false) ⟨none, 0, 255⟩ := ⟨_, rfl⟩
  rw [← hacc] at hof
  have hmem : ∀ id, id ∈ order ↔ id ∈ paths.ids := fun id => horder.mem_iff
  -- a path is selected as soon as one is eligible
  have hsome : ∀ id ∈ paths.ids, paths.Eligible id → ∃ id', acc.selectedPath = some id' := by
    intro id hid helig
    cases hsel : acc.selectedPath with
    | none => exact absurd helig ((hof.nothing hsel).2 id ((hmem id).mpr hid))
    | some id' => exact ⟨id', rfl⟩
  refine ⟨acc.selectedPath, ?_, ?_, ?_, ?_⟩
  · unfold PathMap.selectPathLowLatency
    rw [if_neg (Nat.not_le.mpr hmany), hacc]
    rfl
  · rintro ⟨id, hid, helig, hrtt⟩
    obtain ⟨id', hsel⟩ := hsome id hid helig
    obtain ⟨hid', helig'⟩ := hof.eligible id' hsel
    -- an unprobed path is selected only if all are unprobed
    have hrtt' : (paths.path id').smoothedRTT ≠ 0 := fun h0 =>
      hrtt (hof.unprobed id' hsel h0 id ((hmem id).mpr hid) helig).1
    refine ⟨id', (hmem id').mp hid', hsel, helig', hrtt', fun id₁ hid₁ helig₁ hrtt₁ => ?_⟩
    exact hof.probed id' hsel hrtt' id₁ ((hmem id₁).mpr hid₁) helig₁ hrtt₁
  · rintro hunprobed ⟨id, hid, helig⟩
    obtain ⟨id', hsel⟩ := hsome id hid helig
    obtain ⟨hid', helig'⟩ := hof.eligible id' hsel
    have hrtt' := hunprobed id' ((hmem id').mp hid') helig'
    refine ⟨id', (hmem id').mp hid', hsel, helig', fun id₁ hid₁ helig₁ => ?_⟩
    exact (hof.unprobed id' hsel hrtt' id₁ ((hmem id₁).mpr hid₁) helig₁).2
  · intro hnone
    cases hsel : acc.selectedPath with
    | none => rfl
    | some id =>
      obtain ⟨hid, helig⟩ := hof.eligible id hsel
      exact absurd helig (hnone id ((hmem id).mp hid))

/-- Path 1 is unprobed, and path 3 has the lower one of the two round-trip times. -/
theorem selectPathLowLatency_threePaths :
    ∃ r, (threePaths [0, 30, 20] [1, 2, 3]).selectPathLowLatency ⟨fun _ => 0, 0⟩ false false none []
        [2, 1, 0, 3] = some r ∧
      ∃ id, r = some id ∧ ((threePaths [0, 30, 20] [1, 2, 3]).path id).smoothedRTT ≤ 20 := by
  have hmany : 1 < (threePaths [0, 30, 20] [1, 2, 3]).ids.length := by decide
  have horder : [2, 1, 0, 3].Perm (threePaths [0, 30, 20] [1, 2, 3]).ids := by decide
  obtain ⟨r, hr, hprobed, -, -⟩ :=
    selectPathLowLatency_minimal ⟨fun _ => 0, 0⟩ hmany false none [] horder
  obtain ⟨id, -, hid, -, -, hle⟩ := hprobed ⟨3, by decide, by decide +kernel, by decide⟩
  exact ⟨r, hr, id, hid, hle 3 (by decide) (by decide +kernel) (by decide)⟩

end MultipathQuic
