import MultipathQuic.Library.Scan
import MultipathQuic.Stream.StreamsMap

/-!
# Fairness of the iteration over the streams

`RoundRobinIterate` starts at an index of the open streams and adds one to the index for each stream
that it calls the lambda for. The crypto stream and the header stream stand in the same list, but they
are passed over without a change of the index. So the stream after one of them is served again when
the index comes to it.
-/

namespace MultipathQuic

theorem isData_iff {id : ℕ} : isData id = true ↔ ¬ (id = 1 ∨ id = 3) := by
  simp [isData]

namespace StreamsMap

variable {E : Type} {m : StreamsMap E} {served : List ℕ}

/-- A lambda that skips streams 1 and 3, serves the first data stream and stops. -/
def serveFirst : StreamLambda E (List ℕ) := fun p id =>
  if id = 1 ∨ id = 3 then (p, true, none) else ((p.1, p.2 ++ [id]), false, none)

/-- Some calls of `RoundRobinIterate`: the streams that are served. -/
def serveCalls : ℕ → StreamsMap E × List ℕ → Option (StreamsMap E × List ℕ)
  | 0, p => some p
  | calls + 1, p => do
    let (p, _) ← roundRobinIterate serveFirst p
    serveCalls calls p

/-- The streams of the map are those of the list, and no index wraps around. -/
structure Listed (m : StreamsMap E) : Prop where
  nodup : m.openStreams.Nodup
  streams : m.streams = m.openStreams.toFinset
  small : max m.roundRobinIndex m.openStreams.length + m.openStreams.length < 2 ^ 32

theorem Listed.card (hm : m.Listed) : m.streams.card = m.openStreams.length := by
  rw [hm.streams, List.toFinset_card_of_nodup hm.nodup]

/-- The map after a call that has found a stream, or none. -/
def serve (p : StreamsMap E × List ℕ) : Option ℕ → StreamsMap E × List ℕ
  | none => p
  | some id =>
    ({ p.1 with roundRobinIndex := (p.1.roundRobinIndex + 1) % p.1.openStreams.length }, p.2 ++ [id])

/-- The second loop finds the first data stream from the index on. -/
theorem Listed.iterateRest_serveFirst (hm : m.Listed) (served : List ℕ) {rounds i : ℕ}
    (hrounds : i + rounds = m.openStreams.length) :
    iterateRest serveFirst m.openStreams.length m.roundRobinIndex rounds i (m, served) =
      some (serve (m, served) (((m.openStreams.rotate m.roundRobinIndex).drop i).find? isData),
        none) := by
  have hsmall := hm.small
  induction rounds generalizing i with
  | zero =>
    rw [List.drop_of_length_le (by rw [List.length_rotate]; omega)]
    rfl
  | succ rounds ih =>
    have hi : i < m.openStreams.length := by omega
    have hi' : i < (m.openStreams.rotate m.roundRobinIndex).length := by rwa [List.length_rotate]
    have hget : m.openStreams[add32 i m.roundRobinIndex % m.openStreams.length]? =
        some (m.openStreams.rotate m.roundRobinIndex)[i] := by
      rw [add32_of_lt (by omega), ← List.getElem?_rotate hi, List.getElem?_eq_getElem hi']
    rw [List.drop_eq_getElem_cons hi']
    generalize (m.openStreams.rotate m.roundRobinIndex)[i] = next at hget
    rw [iterateRest]
    rw [hget, Option.bind_eq_bind, Option.bind_some]
    by_cases hskip : next = 1 ∨ next = 3
    · rw [List.find?_cons_of_neg (by rw [isData_iff]; exact not_not_intro hskip)]
      rw [if_pos hskip]
      exact ih (by omega)
    · rw [List.find?_cons_of_pos (isData_iff.mpr hskip)]
      have hmem : next ∈ m.streams := by
        rw [hm.streams, List.mem_toFinset]
        exact List.mem_of_getElem? hget
      rw [if_neg hskip, iterateFunc, if_pos hmem, serveFirst, if_neg hskip]
      dsimp only
      rw [add32_of_lt (by omega)]
      rfl

/-- Streams 1 and 3 are skipped in the first loop as well. -/
theorem iterateFirst_serveFirst (ids : List ℕ) (hids : ∀ id ∈ ids, id = 1 ∨ id = 3) :
    iterateFirst serveFirst ids (m, served) = ((m, served), true, none) := by
  induction ids with
  | nil => rfl
  | cons id ids ih =>
    obtain ⟨hid, hids⟩ := List.forall_mem_cons.mp hids
    rw [iterateFirst, iterateFunc, serveFirst, if_pos hid]
    split_ifs
    · exact ih hids
    · exact ih hids

/-- **A call serves the first data stream from the index on.** -/
theorem Listed.roundRobinIterate_serveFirst (hm : m.Listed) (served : List ℕ) :
    roundRobinIterate serveFirst (m, served) =
      some (serve (m, served) ((m.openStreams.rotate m.roundRobinIndex).find? isData), none) := by
  rw [roundRobinIterate, iterateFirst_serveFirst [1, 3] (by simp), hm.card]
  exact hm.iterateRest_serveFirst served (Nat.zero_add _)

/-- The index that a call leaves is one of the list. -/
theorem Listed.next (hm : m.Listed) (hpos : 0 < m.openStreams.length) :
    { m with roundRobinIndex := (m.roundRobinIndex + 1) % m.openStreams.length }.Listed where
  nodup := hm.nodup
  streams := hm.streams
  small := by
    have hsmall := hm.small
    have hlt := Nat.mod_lt (m.roundRobinIndex + 1) hpos
    dsimp only
    omega

/-- **The streams that are served are those that scans of the list find**, and the calls after them
go on where they have stopped. -/
theorem Listed.serveCalls_eq (hm : m.Listed) {id : ℕ} (hid : id ∈ m.openStreams)
    (hdata : isData id = true) (calls : ℕ) (served : List ℕ) :
    ∃ m', serveCalls calls (m, served) =
        some (m', served ++ scans isData calls (m.openStreams.rotate m.roundRobinIndex)) ∧
      m'.Listed ∧ m'.openStreams = m.openStreams ∧
      m.openStreams.rotate m'.roundRobinIndex =
        m.openStreams.rotate (m.roundRobinIndex + calls) := by
  induction calls generalizing m served with
  | zero =>
    refine ⟨m, ?_, hm, rfl, rfl⟩
    rw [scans, List.append_nil]
    rfl
  | succ calls ih =>
    obtain ⟨next, hnext⟩ :
        ∃ next, (m.openStreams.rotate m.roundRobinIndex).find? isData = some next := by
      rw [← Option.isSome_iff_exists, List.find?_isSome]
      exact ⟨id, List.mem_rotate.mpr hid, hdata⟩
    have hpos := List.length_pos_of_mem hid
    obtain ⟨m', hrest, hm', hstreams, hindex⟩ := ih (hm.next hpos) hid (served ++ [next])
    refine ⟨m', ?_, hm', hstreams, ?_⟩
    · rw [serveCalls, hm.roundRobinIterate_serveFirst, hnext, Option.bind_eq_bind, Option.bind_some]
      refine hrest.trans ?_
      rw [scans, hnext, List.rotate_mod, List.rotate_rotate, List.append_assoc]
      rfl
    · rw [hindex, ← List.rotate_rotate, List.rotate_mod, List.rotate_rotate, Nat.add_assoc,
        Nat.add_comm 1 calls]

/-- Without data streams nothing happens. -/
theorem Listed.serveCalls_of_none (hm : m.Listed) (hnone : ∀ id ∈ m.openStreams, isData id = false)
    (calls : ℕ) (served : List ℕ) : serveCalls calls (m, served) = some (m, served) := by
  induction calls with
  | zero => rfl
  | succ calls ih =>
    have hfind : (m.openStreams.rotate m.roundRobinIndex).find? isData = none := by
      rw [List.find?_eq_none]
      intro id hid
      simp [hnone id (List.mem_rotate.mp hid)]
    rw [serveCalls, hm.roundRobinIterate_serveFirst, hfind]
    exact ih

end StreamsMap

/-- **Calls in a row serve each of the data streams once, whenever they start, iff there is at most
one data stream**, if stream 1 or stream 3 is open. -/
theorem roundRobinIterate_fair_iff {E : Type} {m : StreamsMap E} (hm : m.Listed) {first : ℕ}
    (hfirst : first ∈ m.openStreams) (hskipped : isData first = false) :
    (∀ before, ∃ m₁ served₁ m₂ served,
      StreamsMap.serveCalls before (m, []) = some (m₁, served₁) ∧
      StreamsMap.serveCalls (m.openStreams.countP isData) (m₁, []) = some (m₂, served) ∧
      served.Perm (m.openStreams.filter isData)) ↔
    m.openStreams.countP isData ≤ 1 := by
  rcases Nat.eq_zero_or_pos (m.openStreams.countP isData) with hzero | hpos
  · rw [hzero]
    have hnone : ∀ id ∈ m.openStreams, isData id = false := by
      simpa using List.countP_eq_zero.mp hzero
    refine iff_of_true (fun before => ?_) (Nat.zero_le 1)
    refine ⟨m, [], m, [], hm.serveCalls_of_none hnone before [], rfl, ?_⟩
    rw [List.filter_eq_nil_iff.mpr (by simpa using hnone)]
  · obtain ⟨id, hid, hdata⟩ := List.countP_pos_iff.mp hpos
    -- a window of the calls is a row of scans of the list as it is turned by the index
    have hring : (m.openStreams.rotate m.roundRobinIndex).Perm m.openStreams := List.rotate_perm _ _
    have hscans := scans_perm_iff (hring.nodup_iff.mpr hm.nodup) (hring.mem_iff.mpr hfirst) hskipped
    rw [hring.countP_eq] at hscans
    rw [← hscans]
    refine forall_congr' fun before => ?_
    obtain ⟨m₁, hcalls₁, hm₁, hstreams, hindex⟩ := hm.serveCalls_eq hid hdata before []
    obtain ⟨m₂, hcalls₂, -⟩ := hm₁.serveCalls_eq (hstreams ▸ hid) hdata
      (m.openStreams.countP isData) []
    rw [hstreams, hindex, ← List.rotate_rotate, List.nil_append] at hcalls₂
    constructor
    · rintro ⟨_, _, _, _, hcalls₁', hcalls₂', hperm⟩
      cases hcalls₁.symm.trans hcalls₁'
      cases hcalls₂.symm.trans hcalls₂'
      exact hperm.trans (hring.filter _).symm
    · intro hperm
      exact ⟨m₁, _, m₂, _, hcalls₁, hcalls₂, hperm.trans (hring.filter _)⟩

/-- A client that has opened so many streams. -/
def openedStreams (n : ℕ) : StreamsMap Unit :=
  (fun m => m.openStream.1)^[n] (newStreamsMap Unit .client ⟨8, 10, 8, 10, 8, 10, 4, 4⟩ none)

/-- With the streams 1, 3 and 5, every call serves stream 5. -/
theorem roundRobinIterate_fair_threeStreams :
    (openedStreams 3).openStreams = [1, 3, 5] ∧ ∀ before, ∃ m₁ served₁ m₂ served,
      StreamsMap.serveCalls before (openedStreams 3, []) = some (m₁, served₁) ∧
      StreamsMap.serveCalls 1 (m₁, []) = some (m₂, served) ∧ served.Perm [5] := by
  have hlisted : (openedStreams 3).Listed := ⟨by decide +kernel, by decide +kernel, by decide +kernel⟩
  have hopen : (openedStreams 3).openStreams = [1, 3, 5] := by decide +kernel
  have hfirst : 1 ∈ (openedStreams 3).openStreams := by decide +kernel
  have hfair := roundRobinIterate_fair_iff hlisted hfirst (by decide)
  rw [hopen] at hfair
  exact ⟨hopen, hfair.mpr (by decide)⟩

/-- **With the streams 1, 3, 5 and 7, stream 5 is served three times before stream 7 is.** -/
theorem roundRobinIterate_unfair :
    (StreamsMap.serveCalls 2 (openedStreams 4, [])).map Prod.snd = some [5, 5] ∧
      (StreamsMap.serveCalls 4 (openedStreams 4, [])).map Prod.snd = some [5, 5, 5, 7] := by
  decide +kernel

end MultipathQuic
