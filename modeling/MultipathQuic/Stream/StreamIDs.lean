import MultipathQuic.Stream.AcceptStream

/-!
# The books of the streams map

The map keeps the open streams three times: as a map, as a list in the order in which they were
opened, and as two counters. Its three cursors tell which streams have been opened at all, so that a
stream that has been removed does not come back. A history records what the cursors are about: the
streams that have ever been in the map, those that were removed, and those that were accepted.

## Main definitions

* `MapHistory`: a map with its history
* `Consistent`: the books agree

## Main results

* `Ledger.apply`: a call keeps the books
* `streamsMap_consistent`: they agree after every run
-/

namespace MultipathQuic

variable {E : Type}

/-- The map, the streams that have ever been in it, those that `AcceptStream` has returned, in order,
and those that were removed. -/
structure MapHistory (E : Type) where
  map : StreamsMap E
  seen : Finset ℕ
  accepted : List ℕ
  removed : Finset ℕ

namespace MapHistory

/-- A new map. -/
def start (E : Type) (perspective : Perspective) (params : ConnectionParameters)
    (sch : Option StreamScheduler) : MapHistory E :=
  ⟨newStreamsMap E perspective params sch, ∅, [], ∅⟩

/-- The map has changed. -/
def setMap (h : MapHistory E) (m : StreamsMap E) : MapHistory E :=
  { h with map := m, seen := h.seen ∪ m.streams }

/-- A call. It has no result if it fails or waits. -/
def apply (h : MapHistory E) : MapCall E → Option (MapHistory E)
  | .getOrOpenStream id =>
    match h.map.getOrOpenStream id.toNat with
    | some (m, .ok _) => some (h.setMap m)
    | _ => none
  | .openStream =>
    match h.map.openStream with
    | (m, some _) => some (h.setMap m)
    | _ => none
  | .acceptStream =>
    match h.map.acceptStream with
    | some (m, .ok id) => some { h.setMap m with accepted := h.accepted ++ [id] }
    | _ => none
  | .removeStream id =>
    match h.map.removeStream id.toNat with
    | .ok m => some { h.setMap m with removed := insert id.toNat h.removed }
    | .error _ => none
  | .garbageCollectStreams =>
    let m := h.map.garbageCollectStreams
    some { h.setMap m with removed := h.removed ∪ h.map.streams \ m.streams }
  | call => some (h.setMap (call.apply h.map))

/-- A call of a run in which all calls have succeeded so far. -/
def step (o : Option (MapHistory E)) (call : MapCall E) : Option (MapHistory E) :=
  o.bind (·.apply call)

/-- A run. -/
def run (h : MapHistory E) (calls : List (MapCall E)) : Option (MapHistory E) :=
  calls.foldl step (some h)

/-- The stream that the call opens has an ID below 2^31. -/
def Below (h : MapHistory E) : MapCall E → Prop
  | .getOrOpenStream id => id.toNat < 2 ^ 31
  | .openStream => h.map.nextStream < 2 ^ 31
  | _ => True

instance (h : MapHistory E) : DecidablePred h.Below
  | .getOrOpenStream _ | .openStream => inferInstanceAs (Decidable (_ < _))
  | .acceptStream | .removeStream _ | .garbageCollectStreams | .reset .. | .registerRemoteError ..
  | .elsewhere .. => inferInstanceAs (Decidable True)

/-- The list of the open streams is that of the keys of the map, the counters are the numbers of the
open streams, the streams of the peer have been opened up to the highest one, they were accepted in
order, and no stream that was removed is open. -/
structure Consistent (h : MapHistory E) (perspective : Perspective) : Prop where
  nodup : h.map.openStreams.Nodup
  keys : h.map.openStreams.toFinset = h.map.streams
  incoming : h.map.numIncomingStreams = (h.map.streams.filter fun id => id % 2 = 1).card
  outgoing : h.map.numOutgoingStreams = (h.map.streams.filter fun id => id % 2 = 0).card
  byPeer : ∀ id, peerInitiated perspective id = true →
    (id ∈ h.seen ↔ 0 < id ∧ id ≤ h.map.highestStreamOpenedByPeer)
  acceptedByPeer : ∀ id ∈ h.accepted, peerInitiated perspective id = true
  accepted : h.accepted.Pairwise (· < ·)
  removed : ∀ id ∈ h.removed, id ∉ h.map.streams

end MapHistory

/-! ## Opening a stream -/

namespace StreamsMap

variable {m m' : StreamsMap E} {id sid : ℕ}

theorem openStreams_putStream (hmem : id ∉ m.streams) :
    (m.putStream id).openStreams = m.openStreams ++ [id] := by
  unfold putStream
  rw [if_neg hmem]

/-- What opening a stream for the first time changes in the books. -/
structure OpensNew (m : StreamsMap E) (id : ℕ) (m' : StreamsMap E) : Prop where
  fresh : m.wasOpened id = false
  lt : id + 2 < 2 ^ 32
  wasOpened : ∀ x, m'.wasOpened x = true ↔ m.wasOpened x = true ∨ x = id
  streams : m'.streams = insert id m.streams
  openStreams : id ∉ m.streams → m'.openStreams = m.openStreams ++ [id]
  incoming : m'.numIncomingStreams =
    if id % 2 = 1 then add32 m.numIncomingStreams 1 else m.numIncomingStreams
  outgoing : m'.numOutgoingStreams =
    if id % 2 = 0 then add32 m.numOutgoingStreams 1 else m.numOutgoingStreams
  perspective : m'.perspective = m.perspective
  nextStreamToAccept : m'.nextStreamToAccept = m.nextStreamToAccept

/-- A stream is counted by its parity, whoever opens it. -/
theorem countStream_of_peerInitiated {perspective : Perspective}
    (hid : peerInitiated perspective id = true) :
    (m.countStream perspective).numIncomingStreams =
        (if id % 2 = 1 then add32 m.numIncomingStreams 1 else m.numIncomingStreams) ∧
      (m.countStream perspective).numOutgoingStreams =
        if id % 2 = 0 then add32 m.numOutgoingStreams 1 else m.numOutgoingStreams := by
  cases perspective with
  | server =>
    have hodd : id % 2 = 1 := of_decide_eq_true hid
    exact ⟨(if_pos hodd).symm, (if_neg (by omega)).symm⟩
  | client =>
    have heven : id % 2 = 0 := of_decide_eq_true hid
    exact ⟨(if_neg (by omega)).symm, (if_pos heven).symm⟩

theorem peerInitiated_other (perspective : Perspective) (id : ℕ) :
    peerInitiated perspective.other id = !peerInitiated perspective id := by
  cases perspective <;> rcases Nat.mod_two_eq_zero_or_one id with hid | hid <;>
    simp [peerInitiated, Perspective.other, hid]

theorem Numbered.opensNew (h : m.Numbered) (hsid : m.Follows sid)
    (hopen : m.openRemoteStream sid = .ok m') : OpensNew m sid m' := by
  have ho := opens_of_openRemoteStream hopen
  obtain ⟨-, hhighest, -⟩ := h.opens ho hsid
  have hlt := h.sid_lt ho hsid
  rw [maxNewStreamIDDelta] at hlt
  obtain ⟨hincoming, houtgoing⟩ := countStream_of_peerInitiated (m := m) hsid.1
  exact {
    fresh := hsid.not_wasOpened
    lt := by omega
    wasOpened := hsid.wasOpened_iff ho hhighest
    streams := ho.streams
    openStreams := fun hmem => by
      unfold openRemoteStream at hopen
      split_ifs at hopen
      cases hopen
      cases m.perspective <;> exact openStreams_putStream hmem
    incoming := ho.incoming.trans hincoming
    outgoing := ho.outgoing.trans houtgoing
    perspective := ho.perspective
    nextStreamToAccept := ho.nextStreamToAccept }

/-- A call of `OpenStream` that succeeds. -/
theorem openStream_ok (hopen : m.openStream = (m', some id)) :
    OpensOwn m m' ∧ (m.nextStream ∉ m.streams → m'.openStreams = m.openStreams ++ [m.nextStream]) := by
  unfold openStream at hopen
  split at hopen
  · next m₁ id₁ _ himpl =>
    cases hopen
    refine ⟨opensOwn_of_openStreamImpl himpl, fun hmem => ?_⟩
    unfold openStreamImpl at himpl
    split_ifs at himpl
    cases himpl
    cases m.perspective <;> exact openStreams_putStream hmem
  · cases hopen

theorem Numbered.opensNew_own (h : m.Numbered) (hlt : m.nextStream + 2 < 2 ^ 32)
    (hopen : m.openStream = (m', some id)) : OpensNew m m.nextStream m' := by
  obtain ⟨ho, hlist⟩ := openStream_ok hopen
  have hown : peerInitiated m.perspective.other m.nextStream = true := by
    rw [peerInitiated_other, h.nextStream]
    rfl
  obtain ⟨hincoming, houtgoing⟩ := countStream_of_peerInitiated (m := m) hown
  exact {
    fresh := h.not_wasOpened_nextStream
    lt := hlt
    wasOpened := ho.wasOpened_iff h hlt
    streams := ho.streams
    openStreams := hlist
    incoming := ho.incoming.trans hincoming
    outgoing := ho.outgoing.trans houtgoing
    perspective := ho.perspective
    nextStreamToAccept := ho.nextStreamToAccept }

end StreamsMap

/-! ## The books -/

namespace MapHistory

variable {h h' : MapHistory E} {m' : StreamsMap E} {perspective : Perspective} {id : ℕ}

/-- What a run preserves: the books agree, and the cursors tell which streams have been opened and
which have been accepted. -/
structure Ledger (h : MapHistory E) (perspective : Perspective) : Prop
    extends StreamsMap.Numbered h.map where
  nodup : h.map.openStreams.Nodup
  keys : h.map.openStreams.toFinset = h.map.streams
  incoming : h.map.numIncomingStreams = (h.map.streams.filter fun id => id % 2 = 1).card
  outgoing : h.map.numOutgoingStreams = (h.map.streams.filter fun id => id % 2 = 0).card
  perspective_eq : h.map.perspective = perspective
  nextStream_pos : 0 < h.map.nextStream
  seen_iff : ∀ id, id ∈ h.seen ↔ id ≠ 0 ∧ h.map.wasOpened id = true
  open_lt : ∀ id ∈ h.map.streams, id ∈ h.seen ∧ id + 2 < 2 ^ 32
  removed : ∀ id ∈ h.removed, id ∈ h.seen ∧ id ∉ h.map.streams
  accept : peerInitiated perspective h.map.nextStreamToAccept = true
  accepted_lt : ∀ id ∈ h.accepted, peerInitiated perspective id = true ∧
    id < h.map.nextStreamToAccept
  accepted : h.accepted.Pairwise (· < ·)

theorem Ledger.consistent (hl : Ledger h perspective) : Consistent h perspective where
  nodup := hl.nodup
  keys := hl.keys
  incoming := hl.incoming
  outgoing := hl.outgoing
  byPeer := fun id hid => by
    rw [hl.seen_iff, StreamsMap.wasOpened, hl.perspective_eq, if_pos hid, decide_eq_true_eq,
      Nat.pos_iff_ne_zero]
  acceptedByPeer := fun id hmem => (hl.accepted_lt id hmem).1
  accepted := hl.accepted
  removed := fun id hmem => (hl.removed id hmem).2

theorem Ledger.start (perspective : Perspective) (params : ConnectionParameters)
    (sch : Option StreamScheduler) : Ledger (start E perspective params sch) perspective where
  toNumbered := .new perspective params sch
  nodup := List.nodup_nil
  keys := rfl
  incoming := rfl
  outgoing := rfl
  perspective_eq := rfl
  nextStream_pos := by cases perspective <;> simp [MapHistory.start, newStreamsMap]
  seen_iff := fun id => by
    refine ⟨fun hmem => absurd hmem (Finset.notMem_empty id), ?_⟩
    rintro ⟨h0, hopened⟩
    have hnone : (newStreamsMap E perspective params sch).wasOpened id = false := by
      cases perspective <;> rcases Nat.mod_two_eq_zero_or_one id with hid | hid <;>
        simp [newStreamsMap, StreamsMap.wasOpened, peerInitiated, hid] <;> omega
    change (newStreamsMap E perspective params sch).wasOpened id = true at hopened
    rw [hnone] at hopened
    cases hopened
  open_lt := fun id hmem => absurd hmem (Finset.notMem_empty id)
  removed := fun id hmem => absurd hmem (Finset.notMem_empty id)
  accept := by cases perspective <;> simp [MapHistory.start, newStreamsMap, peerInitiated]
  accepted_lt := fun _ hmem => absurd hmem List.not_mem_nil
  accepted := List.Pairwise.nil

/-- Fewer than 2^32 streams are open. -/
theorem card_lt_of_lt {s : Finset ℕ} (h : ∀ id ∈ s, id + 2 < 2 ^ 32) : s.card < 2 ^ 32 := by
  have hsub : s ⊆ Finset.range (2 ^ 32 - 2) := fun id hid => by
    have := h id hid
    exact Finset.mem_range.mpr (by omega)
  have hcard := Finset.card_le_card hsub
  rw [Finset.card_range] at hcard
  omega

/-- A counter after one more stream. -/
theorem card_filter_insert {s : Finset ℕ} {r n n' : ℕ} (hs : ∀ x ∈ insert id s, x + 2 < 2 ^ 32)
    (hid : id ∉ s) (hn : n = (s.filter fun x => x % 2 = r).card)
    (hn' : n' = if id % 2 = r then add32 n 1 else n) :
    n' = ((insert id s).filter fun x => x % 2 = r).card := by
  rw [hn', Finset.filter_insert]
  split_ifs with hr
  · have hnew : id ∉ s.filter fun x => x % 2 = r := fun hmem => hid (Finset.mem_filter.mp hmem).1
    have hcard := Finset.card_insert_of_notMem hnew
    have hlt : (insert id (s.filter fun x => x % 2 = r)).card < 2 ^ 32 := by
      refine card_lt_of_lt fun x hx => hs x ?_
      exact Finset.insert_subset_insert id (Finset.filter_subset _ s) hx
    rw [hcard, hn, add32_of_lt (by omega)]
  · exact hn

/-- A counter after one stream less. -/
theorem card_filter_erase {s : Finset ℕ} {r n n' : ℕ} (hs : ∀ x ∈ s, x + 2 < 2 ^ 32)
    (hid : id ∈ s) (hn : n = (s.filter fun x => x % 2 = r).card)
    (hn' : n' = if id % 2 = r then sub32 n 1 else n) :
    n' = ((s.erase id).filter fun x => x % 2 = r).card := by
  rw [hn', Finset.filter_erase]
  split_ifs with hr
  · have hmem : id ∈ s.filter fun x => x % 2 = r := Finset.mem_filter.mpr ⟨hid, hr⟩
    have hcard := Finset.card_erase_add_one hmem
    have hlt : (s.filter fun x => x % 2 = r).card < 2 ^ 32 :=
      card_lt_of_lt fun x hx => hs x (Finset.mem_filter.mp hx).1
    rw [sub32, hn]
    omega
  · have hnot : id ∉ s.filter fun x => x % 2 = r := fun hmem => hr (Finset.mem_filter.mp hmem).2
    rw [Finset.erase_eq_of_notMem hnot]
    exact hn

/-- There will be no stream 0. -/
theorem Ledger.wasOpened_zero (hl : Ledger h perspective) : h.map.wasOpened 0 = true := by
  have hpos := hl.nextStream_pos
  unfold StreamsMap.wasOpened
  split_ifs
  · exact decide_eq_true (Nat.zero_le _)
  · exact decide_eq_true hpos

/-- **What one opened stream does to the books.** -/
theorem Ledger.opensNew (hl : Ledger h perspective) (ho : StreamsMap.OpensNew h.map id m')
    (hnumbered : m'.Numbered) (hpos : 0 < m'.nextStream) :
    Ledger (h.setMap m') perspective := by
  have hseen : ∀ x, x ∈ (h.setMap m').seen ↔ x ∈ h.seen ∨ x = id := by
    intro x
    change x ∈ h.seen ∪ m'.streams ↔ _
    rw [ho.streams, Finset.mem_union, Finset.mem_insert]
    have := fun hx => (hl.open_lt x hx).1
    tauto
  -- the cursors tell that the stream has never been in the map
  have hfresh : id ∉ h.seen := fun hmem => by
    rw [hl.seen_iff, ho.fresh] at hmem
    exact Bool.false_ne_true hmem.2
  have h0 : id ≠ 0 := by
    rintro rfl
    exact Bool.false_ne_true (ho.fresh.symm.trans hl.wasOpened_zero)
  have hnew : id ∉ h.map.streams := fun hmem => hfresh (hl.open_lt id hmem).1
  have hlt : ∀ x ∈ insert id h.map.streams, x + 2 < 2 ^ 32 := by
    intro x hx
    rcases Finset.mem_insert.mp hx with rfl | hx
    · exact ho.lt
    · exact (hl.open_lt x hx).2
  have hlist := ho.openStreams hnew
  exact {
    toNumbered := hnumbered
    nodup := by
      change m'.openStreams.Nodup
      rw [hlist, List.nodup_append_comm, List.singleton_append, List.nodup_cons,
        ← List.mem_toFinset, hl.keys]
      exact ⟨hnew, hl.nodup⟩
    keys := by
      change m'.openStreams.toFinset = m'.streams
      rw [hlist, ho.streams, List.toFinset_append, hl.keys, Finset.insert_eq, Finset.union_comm]
      rfl
    incoming := by
      change m'.numIncomingStreams = (m'.streams.filter _).card
      rw [ho.streams]
      exact card_filter_insert hlt hnew hl.incoming ho.incoming
    outgoing := by
      change m'.numOutgoingStreams = (m'.streams.filter _).card
      rw [ho.streams]
      exact card_filter_insert hlt hnew hl.outgoing ho.outgoing
    perspective_eq := ho.perspective.trans hl.perspective_eq
    nextStream_pos := hpos
    seen_iff := fun x => by
      change _ ↔ x ≠ 0 ∧ m'.wasOpened x = true
      rw [hseen, hl.seen_iff, ho.wasOpened]
      refine ⟨?_, fun hx => hx.2.imp_left fun hopened => ⟨hx.1, hopened⟩⟩
      rintro (hx | rfl)
      · exact ⟨hx.1, .inl hx.2⟩
      · exact ⟨h0, .inr rfl⟩
    open_lt := fun x hx => by
      change x ∈ m'.streams at hx
      refine ⟨Finset.mem_union_right _ hx, hlt x ?_⟩
      rwa [ho.streams] at hx
    removed := fun x hx => by
      obtain ⟨hxseen, hxopen⟩ := hl.removed x hx
      refine ⟨Finset.mem_union_left _ hxseen, ?_⟩
      change x ∉ m'.streams
      rw [ho.streams, Finset.mem_insert, not_or]
      exact ⟨fun hxid => hfresh (hxid ▸ hxseen), hxopen⟩
    accept := by
      change peerInitiated perspective m'.nextStreamToAccept = true
      rw [ho.nextStreamToAccept]
      exact hl.accept
    accepted_lt := fun x hx => by
      change _ ∧ x < m'.nextStreamToAccept
      rw [ho.nextStreamToAccept]
      exact hl.accepted_lt x hx
    accepted := hl.accepted }

/-! ## The calls -/

theorem Ledger.setMap_of_subset (hl : Ledger h perspective) {m : StreamsMap E}
    (hsub : m.streams ⊆ h.map.streams) : h.setMap m = { h with map := m } := by
  unfold setMap
  rw [Finset.union_eq_left.mpr fun x hx => (hl.open_lt x (hsub hx)).1]

theorem Ledger.setMap_self (hl : Ledger h perspective) : h.setMap h.map = h :=
  hl.setMap_of_subset (Finset.Subset.refl _)

theorem setMap_setMap {m : StreamsMap E} (hsub : m.streams ⊆ m'.streams) :
    (h.setMap m).setMap m' = h.setMap m' := by
  unfold setMap
  rw [Finset.union_assoc, Finset.union_eq_right.mpr hsub]

theorem Ledger.getOrOpenStream (hl : Ledger h perspective)
    {r : Except StreamsMapError (Option ℕ)} (hget : h.map.getOrOpenStream id = some (m', r)) :
    Ledger (h.setMap m') perspective := by
  refine (hl.toNumbered.getOrOpenStream (P := fun m => Ledger (h.setMap m) perspective)
    (hl.setMap_self.symm ▸ hl) ?_ hget).2
  intro m₁ sid m₂ h₁ hl₁ hsid hopen
  have ho := StreamsMap.opens_of_openRemoteStream hopen
  have hpos : 0 < m₂.nextStream := by
    rw [ho.nextStream]
    exact hl₁.nextStream_pos
  have hl₂ := hl₁.opensNew (h₁.opensNew hsid hopen) (h₁.opens ho hsid).1 hpos
  rwa [setMap_setMap] at hl₂
  rw [ho.streams]
  exact Finset.subset_insert _ _

theorem Ledger.openStream (hl : Ledger h perspective) (hlt : h.map.nextStream < 2 ^ 31)
    (hopen : h.map.openStream = (m', some id)) : Ledger (h.setMap m') perspective := by
  have hlt' : h.map.nextStream + 2 < 2 ^ 32 := by omega
  obtain ⟨ho, -⟩ := StreamsMap.openStream_ok hopen
  refine hl.opensNew (hl.toNumbered.opensNew_own hlt' hopen) (hl.toNumbered.opensOwn ho) ?_
  rw [ho.nextStream, add32, Nat.mod_eq_of_lt hlt']
  omega

theorem Ledger.acceptStream (hl : Ledger h perspective)
    (haccept : h.map.acceptStream = some (m', .ok id)) :
    Ledger { h.setMap m' with accepted := h.accepted ++ [id] } perspective := by
  obtain ⟨_, -, hr⟩ | ⟨hmem, rfl, hr⟩ := StreamsMap.acceptStream_cases haccept
  · cases hr
  cases hr
  have hadd : add32 h.map.nextStreamToAccept 2 = h.map.nextStreamToAccept + 2 := by
    rw [add32_of_lt (hl.open_lt _ hmem).2]
  have hl' := hl.setMap_self.symm ▸ hl
  exact {
    hl' with
    accept := by
      change peerInitiated perspective (add32 h.map.nextStreamToAccept 2) = true
      rw [StreamsMap.peerInitiated_add32_two]
      exact hl.accept
    accepted_lt := fun x hx => by
      change _ ∧ x < add32 h.map.nextStreamToAccept 2
      rcases List.mem_append.mp hx with hx | hx
      · obtain ⟨hpeer, hxlt⟩ := hl.accepted_lt x hx
        exact ⟨hpeer, by omega⟩
      · rw [List.mem_singleton] at hx
        rw [hx]
        exact ⟨hl.accept, by omega⟩
    accepted := by
      refine List.pairwise_append.mpr ⟨hl.accepted, List.pairwise_singleton _ _, fun x hx y hy => ?_⟩
      rw [List.mem_singleton] at hy
      rw [hy]
      exact (hl.accepted_lt x hx).2 }

theorem Ledger.removeStream (hl : Ledger h perspective)
    (hremove : h.map.removeStream id = .ok m') :
    Ledger { h.setMap m' with removed := insert id h.removed } perspective := by
  have hr := StreamsMap.removes_of_removeStream hremove
  obtain ⟨-, -, -, haccept, -, houtgoing, hincoming⟩ := StreamsMap.removeStream_counters hremove
  have hlist : m'.openStreams = h.map.openStreams.erase id := by
    unfold StreamsMap.removeStream at hremove
    rw [if_pos hr.mem] at hremove
    cases hremove
    rfl
  have hlt : ∀ x ∈ h.map.streams, x + 2 < 2 ^ 32 := fun x hx => (hl.open_lt x hx).2
  -- the streams that have ever been in the map stay the same
  have hseen : h.seen ∪ m'.streams = h.seen := by
    rw [hr.streams]
    exact Finset.union_eq_left.mpr fun x hx => (hl.open_lt x (Finset.mem_of_mem_erase hx)).1
  exact {
    toNumbered := hl.toNumbered.removes hr
    nodup := by
      change m'.openStreams.Nodup
      rw [hlist]
      exact hl.nodup.erase id
    keys := by
      change m'.openStreams.toFinset = m'.streams
      ext x
      rw [hlist, hr.streams, List.mem_toFinset, hl.nodup.mem_erase_iff, Finset.mem_erase, ← hl.keys,
        List.mem_toFinset]
    incoming := by
      change m'.numIncomingStreams = (m'.streams.filter _).card
      rw [hr.streams]
      refine card_filter_erase hlt hr.mem hl.incoming ?_
      rw [hincoming]
      rcases Nat.mod_two_eq_zero_or_one id with hid | hid
      · rw [if_pos hid, if_neg (by omega)]
      · rw [if_neg (by omega), if_pos hid]
    outgoing := by
      change m'.numOutgoingStreams = (m'.streams.filter _).card
      rw [hr.streams]
      exact card_filter_erase hlt hr.mem hl.outgoing houtgoing
    perspective_eq := hr.perspective.trans hl.perspective_eq
    nextStream_pos := by
      change 0 < m'.nextStream
      rw [hr.nextStream]
      exact hl.nextStream_pos
    seen_iff := fun x => by
      change x ∈ h.seen ∪ m'.streams ↔ x ≠ 0 ∧ m'.wasOpened x = true
      rw [hseen, hr.wasOpened_eq]
      exact hl.seen_iff x
    open_lt := fun x hx => by
      change x ∈ m'.streams at hx
      rw [hr.streams] at hx
      obtain ⟨hxseen, hxlt⟩ := hl.open_lt x (Finset.mem_of_mem_erase hx)
      exact ⟨Finset.mem_union_left _ hxseen, hxlt⟩
    removed := fun x hx => by
      change x ∈ h.seen ∪ m'.streams ∧ x ∉ m'.streams
      rw [hseen, hr.streams, Finset.mem_erase, not_and]
      rcases Finset.mem_insert.mp hx with rfl | hx
      · exact ⟨(hl.open_lt x hr.mem).1, fun hne => absurd rfl hne⟩
      · exact ⟨(hl.removed x hx).1, fun _ => (hl.removed x hx).2⟩
    accept := by
      change peerInitiated perspective m'.nextStreamToAccept = true
      rw [haccept]
      exact hl.accept
    accepted_lt := fun x hx => by
      change _ ∧ x < m'.nextStreamToAccept
      rw [haccept]
      exact hl.accepted_lt x hx
    accepted := hl.accepted }

theorem Ledger.garbageCollectStreams (hl : Ledger h perspective) :
    Ledger { h.setMap h.map.garbageCollectStreams with
      removed := h.removed ∪ h.map.streams \ h.map.garbageCollectStreams.streams } perspective := by
  have hall := StreamsMap.garbageCollectStreams_invariant (m := h.map)
    (P := fun m => m.streams ⊆ h.map.streams ∧ Ledger { h with
      map := m
      removed := h.removed ∪ h.map.streams \ m.streams } perspective) ?_ ⟨Finset.Subset.refl _, ?_⟩
  · rw [hl.setMap_of_subset hall.1]
    exact hall.2
  · rintro m₁ id m₂ ⟨hsub, hl₁⟩ - hremove
    have hr := StreamsMap.removes_of_removeStream hremove
    have hsub₂ : m₂.streams ⊆ m₁.streams := hr.streams ▸ Finset.erase_subset _ _
    have hl₂ := hl₁.removeStream hremove
    rw [hl₁.setMap_of_subset hsub₂] at hl₂
    have hremoved : insert id (h.removed ∪ h.map.streams \ m₁.streams) =
        h.removed ∪ h.map.streams \ m₂.streams := by
      rw [hr.streams, Finset.sdiff_erase (hsub hr.mem), Finset.union_insert]
    refine ⟨hsub₂.trans hsub, ?_⟩
    rw [← hremoved]
    exact { hl₂ with }
  · rw [Finset.sdiff_self, Finset.union_empty]
    exact hl

/-- A call keeps the books. -/
theorem Ledger.apply (hl : Ledger h perspective) {call : MapCall E} (hbelow : h.Below call)
    (hcall : h.apply call = some h') : Ledger h' perspective := by
  have hl' := hl.setMap_self.symm ▸ hl
  unfold MapHistory.apply at hcall
  cases call with dsimp only at hcall
  | getOrOpenStream id =>
    split at hcall
    · next hget =>
      cases hcall
      exact hl.getOrOpenStream hget
    · cases hcall
  | openStream =>
    split at hcall
    · next hopen =>
      cases hcall
      exact hl.openStream hbelow hopen
    · cases hcall
  | acceptStream =>
    split at hcall
    · next haccept =>
      cases hcall
      exact hl.acceptStream haccept
    · cases hcall
  | removeStream id =>
    split at hcall
    · next hremove =>
      cases hcall
      exact hl.removeStream hremove
    · cases hcall
  | garbageCollectStreams =>
    cases hcall
    exact hl.garbageCollectStreams
  | reset | registerRemoteError | elsewhere =>
    cases hcall
    exact { hl' with }

end MapHistory

open MapHistory in
/-- **The books of the map agree after every run of calls that succeed,** for both perspectives and
as long as the IDs are below 2^31. -/
theorem streamsMap_consistent (perspective : Perspective) (params : ConnectionParameters)
    (sch : Option StreamScheduler) (calls : List (MapCall E))
    (hbelow : Runs.Along step (fun o call => ∀ h ∈ o, Below h call)
      (some (start E perspective params sch)) calls) :
    ∀ h ∈ run (start E perspective params sch) calls, Consistent h perspective := by
  have hledger : ∀ h ∈ run (start E perspective params sch) calls, Ledger h perspective := by
    refine hbelow.invariant (P := fun o => ∀ h ∈ o, Ledger h perspective) ?_ ?_
    · rintro _ ⟨⟩
      exact .start perspective params sch
    · intro o call ho hcall h' hh'
      obtain ⟨h, rfl, happly⟩ := Option.bind_eq_some_iff.mp hh'
      exact (ho h rfl).apply (hcall h rfl) happly
  exact fun h hh => (hledger h hh).consistent

/-- The client opens streams up to 5, two of them are accepted and one of these is removed; a late
frame for it opens nothing, and the client goes on with stream 9. -/
def removedOnce : List (MapCall Unit) :=
  [.getOrOpenStream 5, .openStream, .acceptStream, .acceptStream, .removeStream 3,
    .getOrOpenStream 3, .getOrOpenStream 9]

open MapHistory in
theorem removedOnce_consistent :
    ∃ h ∈ run (start Unit .server smallWindows none) removedOnce, h.accepted = [1, 3] ∧
      h.removed = {3} ∧ h.map.openStreams = [1, 5, 2, 7, 9] ∧ Consistent h .server := by
  obtain ⟨h, hrun, haccepted, hremoved, hopen⟩ :
      ∃ h ∈ run (start Unit .server smallWindows none) removedOnce, h.accepted = [1, 3] ∧
        h.removed = {3} ∧ h.map.openStreams = [1, 5, 2, 7, 9] := by
    decide +kernel
  exact ⟨h, hrun, haccepted, hremoved, hopen,
    streamsMap_consistent .server smallWindows none removedOnce (by decide +kernel) h hrun⟩

end MultipathQuic
