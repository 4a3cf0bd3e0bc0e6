import MultipathQuic.Library.Runs
import MultipathQuic.Stream.StreamsMap

/-!
# The limits on open streams

The runs of calls on a new map, and the limits they respect. The map checks the streams
of the peer against `numIncomingStreams` and its own ones against `numOutgoingStreams`, but both
endpoints count the streams of the client in `numIncomingStreams` and those of the server in
`numOutgoingStreams`. So the limits are those of the server; a client checks each of its two limits
against the number of the other streams.

## Main definitions

* `MapCall`: the calls on a map
* `StreamsMap.WithinLimits`: the limits are respected

## Main results

* `exists_getOrOpenStream`: `GetOrOpenStream` returns
* `streamLimits_iff`: they are respected in every run of a server, and only there
-/

namespace MultipathQuic

open Runs

/-- The stream is one that the peer opens. -/
def peerInitiated : Perspective → ℕ → Bool
  | .server, id => id % 2 = 1
  | .client, id => id % 2 = 0

namespace StreamsMap

variable {E : Type} {m m' : StreamsMap E} {id sid fuel : ℕ}

/-- `GetMaxIncomingStreams`. -/
abbrev maxIncoming (m : StreamsMap E) : ℕ :=
  m.flowControlManager.connectionParameters.maxIncomingStreams.toNat

/-- `GetMaxOutgoingStreams`. -/
abbrev maxOutgoing (m : StreamsMap E) : ℕ :=
  m.flowControlManager.connectionParameters.maxOutgoingStreams.toNat

/-! ## Opening one stream -/

/-- What opening a stream of the peer needs and changes. A stream that is in the map already is
counted once more. -/
structure Opens (m : StreamsMap E) (id : ℕ) (m' : StreamsMap E) : Prop where
  room : m.numIncomingStreams < m.maxIncoming
  near : m.highestStreamOpenedByPeer ≤ add32 id maxNewStreamIDDelta
  streams : m'.streams = insert id m.streams
  highest : m'.highestStreamOpenedByPeer = max m.highestStreamOpenedByPeer id
  incoming : m'.numIncomingStreams = (m.countStream m.perspective).numIncomingStreams
  outgoing : m'.numOutgoingStreams = (m.countStream m.perspective).numOutgoingStreams
  perspective : m'.perspective = m.perspective
  params : m'.flowControlManager.connectionParameters = m.flowControlManager.connectionParameters
  nextStream : m'.nextStream = m.nextStream
  nextStreamToAccept : m'.nextStreamToAccept = m.nextStreamToAccept
  closeErr : m'.closeErr = m.closeErr

theorem connectionParameters_newStream (fc : FlowControlManager) (id : ℕ) (contributes : Bool) :
    (fc.newStream id contributes).connectionParameters = fc.connectionParameters := by
  unfold FlowControlManager.newStream
  split <;> rfl

/-- What `putStream` changes, the stream itself and the scheduler apart. -/
theorem putStream_frame (m : StreamsMap E) (id : ℕ) :
    (m.putStream id).streams = insert id m.streams ∧
      (m.putStream id).flowControlManager.connectionParameters =
        m.flowControlManager.connectionParameters ∧
      (m.putStream id).highestStreamOpenedByPeer = m.highestStreamOpenedByPeer ∧
      (m.putStream id).numIncomingStreams = m.numIncomingStreams ∧
      (m.putStream id).numOutgoingStreams = m.numOutgoingStreams ∧
      (m.putStream id).perspective = m.perspective ∧ (m.putStream id).nextStream = m.nextStream ∧
      (m.putStream id).nextStreamToAccept = m.nextStreamToAccept ∧
      (m.putStream id).closeErr = m.closeErr := by
  have hparams := connectionParameters_newStream m.flowControlManager id (!(id == 1 || id == 3))
  unfold putStream
  dsimp only
  split
  · next hmem =>
    exact ⟨(Finset.insert_eq_of_mem hmem).symm, hparams, rfl, rfl, rfl, rfl, rfl, rfl, rfl⟩
  · exact ⟨rfl, hparams, rfl, rfl, rfl, rfl, rfl, rfl, rfl⟩

/-- What counting a stream leaves alone. -/
theorem countStream_frame (m : StreamsMap E) (perspective : Perspective) :
    (m.countStream perspective).streams = m.streams ∧
      (m.countStream perspective).flowControlManager = m.flowControlManager ∧
      (m.countStream perspective).highestStreamOpenedByPeer = m.highestStreamOpenedByPeer ∧
      (m.countStream perspective).perspective = m.perspective ∧
      (m.countStream perspective).nextStream = m.nextStream ∧
      (m.countStream perspective).nextStreamToAccept = m.nextStreamToAccept ∧
      (m.countStream perspective).closeErr = m.closeErr := by
  cases perspective <;> exact ⟨rfl, rfl, rfl, rfl, rfl, rfl, rfl⟩

theorem opens_of_openRemoteStream (h : m.openRemoteStream id = .ok m') : Opens m id m' := by
  unfold openRemoteStream at h
  split_ifs at h with hfull hfar
  cases h
  obtain ⟨hc_streams, hc_fc, hc_highest, hc_persp, hc_next, hc_accept, hc_close⟩ :=
    m.countStream_frame m.perspective
  obtain ⟨hstreams, hparams, hhighest, hincoming, houtgoing, hpersp, hnext, haccept, hclose⟩ :=
    putStream_frame ({ m.countStream m.perspective with
      highestStreamOpenedByPeer :=
        max (m.countStream m.perspective).highestStreamOpenedByPeer id }) id
  exact {
    room := Nat.lt_of_not_le hfull
    near := Nat.le_of_not_lt hfar
    streams := by rw [hstreams, hc_streams]
    highest := by rw [hhighest, hc_highest]
    incoming := hincoming
    outgoing := houtgoing
    perspective := by rw [hpersp, hc_persp]
    params := by rw [hparams, hc_fc]
    nextStream := by rw [hnext, hc_next]
    nextStreamToAccept := by rw [haccept, hc_accept]
    closeErr := by rw [hclose, hc_close] }

/-- What opening a stream of its own needs and changes in the map. -/
structure OpensOwn (m m' : StreamsMap E) : Prop where
  room : m.numOutgoingStreams < m.maxOutgoing
  streams : m'.streams = insert m.nextStream m.streams
  highest : m'.highestStreamOpenedByPeer = m.highestStreamOpenedByPeer
  incoming : m'.numIncomingStreams = (m.countStream m.perspective.other).numIncomingStreams
  outgoing : m'.numOutgoingStreams = (m.countStream m.perspective.other).numOutgoingStreams
  perspective : m'.perspective = m.perspective
  params : m'.flowControlManager.connectionParameters = m.flowControlManager.connectionParameters
  nextStream : m'.nextStream = add32 m.nextStream 2
  nextStreamToAccept : m'.nextStreamToAccept = m.nextStreamToAccept
  closeErr : m'.closeErr = m.closeErr

theorem opensOwn_of_openStreamImpl (hopen : m.openStreamImpl = .ok (m', id)) : OpensOwn m m' := by
  unfold openStreamImpl at hopen
  split_ifs at hopen with hfull
  cases hopen
  obtain ⟨hc_streams, hc_fc, hc_highest, hc_persp, hc_next, hc_accept, hc_close⟩ :=
    m.countStream_frame m.perspective.other
  obtain ⟨hstreams, hparams, hhighest, hincoming, houtgoing, hpersp, hnext, haccept, hcloseErr⟩ :=
    putStream_frame ({ m.countStream m.perspective.other with
      nextStream := add32 (m.countStream m.perspective.other).nextStream 2 }) m.nextStream
  exact {
    room := Nat.lt_of_not_le hfull
    streams := by rw [hstreams, hc_streams]
    highest := by rw [hhighest, hc_highest]
    incoming := hincoming
    outgoing := houtgoing
    perspective := by rw [hpersp, hc_persp]
    params := by rw [hparams, hc_fc]
    nextStream := by rw [hnext, hc_next]
    nextStreamToAccept := by rw [haccept, hc_accept]
    closeErr := by rw [hcloseErr, hc_close] }

theorem openStream_cases (m : StreamsMap E) : m.openStream.1 = m ∨ OpensOwn m m.openStream.1 := by
  unfold openStream
  split
  · next m' id hclose hopen => exact .inr (opensOwn_of_openStreamImpl hopen)
  · exact .inl rfl

/-! ## `GetOrOpenStream` returns -/

/-- The loop ends: `sid` grows, and once it has wrapped around, it is too far below the highest
opened stream. -/
theorem exists_openUpTo (m : StreamsMap E) (sid : ℕ) (hid : id < 2 ^ 32) (hpos : 0 < fuel)
    (hfuel : id + 1 < fuel + sid) : ∃ r, openUpTo id fuel m sid = some r := by
  induction fuel generalizing m sid with
  | zero => exact absurd hpos (Nat.lt_irrefl 0)
  | succ fuel ih =>
    rw [openUpTo]
    by_cases hle : sid ≤ id
    · rw [if_pos hle]
      cases hopen : m.openRemoteStream sid with
      | error err => exact ⟨_, rfl⟩
      | ok m₁ =>
        dsimp only
        by_cases hwrap : sid + 2 < 2 ^ 32
        · have hnext : add32 sid 2 = sid + 2 := by
            rw [add32_of_lt hwrap]
          rw [hnext]
          exact ih m₁ (sid + 2) (by omega) (by omega)
        · -- `sid` wraps around, and the next stream is refused
          have hhighest : sid ≤ m₁.highestStreamOpenedByPeer := by
            rw [(opens_of_openRemoteStream hopen).highest]
            exact le_max_right _ _
          have hnext : add32 sid 2 ≤ 1 := by
            rw [add32]
            omega
          obtain ⟨fuel, rfl⟩ : ∃ n, fuel = n + 1 := ⟨fuel - 1, by omega⟩
          rw [openUpTo]
          split_ifs
          · cases hopen' : m₁.openRemoteStream (add32 sid 2) with
            | error err => exact ⟨_, rfl⟩
            | ok m₂ =>
              have hnear := (opens_of_openRemoteStream hopen').near
              rw [add32, maxNewStreamIDDelta] at hnear
              omega
          · exact ⟨_, rfl⟩
    · rw [if_neg hle]
      exact ⟨_, rfl⟩

/-- **`GetOrOpenStream` returns**, in every state and for every stream of the peer's choice. -/
theorem exists_getOrOpenStream (m : StreamsMap E) (hid : id < 2 ^ 32) :
    ∃ m' r, m.getOrOpenStream id = some (m', r) := by
  unfold getOrOpenStream
  split_ifs
  · exact ⟨_, _, rfl⟩
  · cases m.refuses id with
    | some refusal => cases refusal <;> exact ⟨_, _, rfl⟩
    | none =>
      obtain ⟨⟨m', err⟩, hopen⟩ := exists_openUpTo m m.firstToOpen hid (Nat.succ_pos (id + 1))
        (by omega)
      rw [hopen]
      cases err <;> exact ⟨_, _, rfl⟩

/-! ## The counters of a server -/

/-- The number of the open streams that the peer has opened, or that the endpoint has opened itself
if `byPeer` is `false`. -/
def numOpen (m : StreamsMap E) (byPeer : Bool) : ℕ :=
  (m.streams.filter fun id => peerInitiated m.perspective id = byPeer).card

/-- The counters of a server bound the streams that are open, and they respect the limits. -/
structure Counted (m : StreamsMap E) : Prop where
  server : m.perspective = .server
  incoming : m.numOpen true ≤ m.numIncomingStreams
  incoming_le : m.numIncomingStreams ≤ m.maxIncoming
  outgoing : m.numOpen false ≤ m.numOutgoingStreams
  outgoing_le : m.numOutgoingStreams ≤ m.maxOutgoing
  highest : m.highestStreamOpenedByPeer = 0 ∨
    peerInitiated .server m.highestStreamOpenedByPeer = true
  nextStream : peerInitiated .server m.nextStream = false

theorem Counted.new (params : ConnectionParameters) (sch : Option StreamScheduler) :
    (newStreamsMap E .server params sch).Counted where
  server := rfl
  incoming := Nat.le_refl 0
  incoming_le := Nat.zero_le _
  outgoing := Nat.le_refl 0
  outgoing_le := Nat.zero_le _
  highest := .inl rfl
  nextStream := by simp [newStreamsMap, peerInitiated]

theorem add32_one_of_lt {n : ℕ} {limit : UInt32} (h : n < limit.toNat) : add32 n 1 = n + 1 := by
  have := limit.toNat_lt
  rw [add32_of_lt (by omega)]

/-- Adding two keeps the side that opens a stream. -/
theorem peerInitiated_add32_two (perspective : Perspective) (id : ℕ) :
    peerInitiated perspective (add32 id 2) = peerInitiated perspective id := by
  cases perspective <;> simp [peerInitiated, add32]

/-- One more stream is one more of the streams of its side, and of no others. -/
theorem numOpen_insert_le (byPeer : Bool) (hpersp : m'.perspective = m.perspective)
    (hstreams : m'.streams = insert id m.streams) :
    m'.numOpen byPeer ≤
      m.numOpen byPeer + if peerInitiated m.perspective id = byPeer then 1 else 0 := by
  unfold numOpen
  rw [hpersp, hstreams, Finset.filter_insert]
  split_ifs
  · exact Finset.card_insert_le _ _
  · exact Nat.le_refl _

theorem Counted.opens (h : m.Counted) (ho : Opens m id m') (hid : peerInitiated .server id = true) :
    m'.Counted ∧ m'.numIncomingStreams = m.numIncomingStreams + 1 := by
  have hincoming : m'.numIncomingStreams = m.numIncomingStreams + 1 := by
    rw [ho.incoming, h.server]
    exact add32_one_of_lt ho.room
  have houtgoing : m'.numOutgoingStreams = m.numOutgoingStreams := by
    rw [ho.outgoing, h.server]
    rfl
  have hpeer := numOpen_insert_le true ho.perspective ho.streams
  have hown := numOpen_insert_le false ho.perspective ho.streams
  rw [h.server, hid] at hpeer hown
  refine ⟨⟨ho.perspective.trans h.server, ?_, ?_, ?_, ?_, ?_, ?_⟩, hincoming⟩
  · rw [hincoming]
    exact hpeer.trans (Nat.succ_le_succ h.incoming)
  · rw [hincoming, maxIncoming, ho.params]
    exact ho.room
  · rw [houtgoing]
    exact hown.trans h.outgoing
  · rw [houtgoing, maxOutgoing, ho.params]
    exact h.outgoing_le
  · right
    rw [ho.highest]
    rcases h.highest with hzero | hpeer
    · rw [hzero, Nat.zero_max]
      exact hid
    · rcases max_choice m.highestStreamOpenedByPeer id with hmax | hmax <;> rw [hmax] <;> assumption
  · rw [ho.nextStream]
    exact h.nextStream

/-- Every round of the loop opens at most one stream, and counts it. -/
theorem Counted.openUpTo {err : Option StreamsMapError} (h : m.Counted)
    (hsid : peerInitiated .server sid = true) (hopen : openUpTo id fuel m sid = some (m', err)) :
    m'.Counted ∧ (m'.streams \ m.streams).card + m.numIncomingStreams ≤ m'.numIncomingStreams := by
  induction fuel generalizing m sid with
  | zero => cases hopen
  | succ fuel ih =>
    rw [StreamsMap.openUpTo] at hopen
    split_ifs at hopen
    · cases hone : m.openRemoteStream sid with
      | error e =>
        rw [hone] at hopen
        cases hopen
        exact ⟨h, by simp⟩
      | ok m₁ =>
        rw [hone] at hopen
        have ho := opens_of_openRemoteStream hone
        obtain ⟨h₁, hincoming⟩ := h.opens ho hsid
        obtain ⟨h', hle⟩ := ih h₁ (by rw [peerInitiated_add32_two]; exact hsid) hopen
        refine ⟨h', ?_⟩
        have hsub : m'.streams \ m.streams ⊆ insert sid (m'.streams \ m₁.streams) := by
          intro x hx
          rw [ho.streams]
          simp only [Finset.mem_sdiff, Finset.mem_insert] at hx ⊢
          tauto
        have hcard := (Finset.card_le_card hsub).trans (Finset.card_insert_le _ _)
        omega
    · cases hopen
      exact ⟨h, by simp⟩

theorem Counted.peerInitiated_firstToOpen (h : m.Counted) :
    peerInitiated .server m.firstToOpen = true := by
  unfold firstToOpen
  dsimp only
  split_ifs with hfirst
  · rfl
  · rw [peerInitiated_add32_two]
    rcases h.highest with hzero | hpeer
    · refine absurd ⟨?_, h.server⟩ hfirst
      rw [hzero, add32, Nat.zero_add, Nat.mod_eq_of_lt (by decide)]
    · exact hpeer

/-- Opening streams leaves the limits alone. -/
theorem maxIncoming_getOrOpenStream {r : Except StreamsMapError (Option ℕ)}
    (hget : m.getOrOpenStream id = some (m', r)) : m'.maxIncoming = m.maxIncoming := by
  have hrule : OpenRule fun m' : StreamsMap E => m'.maxIncoming = m.maxIncoming := {
    put := fun m₁ id h => by
      rw [maxIncoming, (m₁.putStream_frame id).2.1]
      exact h
    counters := fun _ _ _ _ _ h => h }
  exact hrule.getOrOpenStream rfl hget

/-- **A server opens no more streams for its peer than the limit says.** -/
theorem Counted.getOrOpenStream {r : Except StreamsMapError (Option ℕ)} (h : m.Counted)
    (hget : m.getOrOpenStream id = some (m', r)) :
    m'.Counted ∧ (m'.streams \ m.streams).card ≤ m'.numIncomingStreams := by
  unfold StreamsMap.getOrOpenStream at hget
  split_ifs at hget
  · cases hget
    exact ⟨h, by simp⟩
  · cases hrefuses : m.refuses id with
    | some refusal =>
      rw [hrefuses] at hget
      cases refusal <;> · cases hget; exact ⟨h, by simp⟩
    | none =>
      rw [hrefuses] at hget
      obtain ⟨⟨m₁, err⟩, hopen, hget⟩ := Option.bind_eq_some_iff.mp hget
      obtain ⟨h₁, hle⟩ := h.openUpTo h.peerInitiated_firstToOpen hopen
      cases err <;> · cases hget; exact ⟨h₁, by omega⟩

theorem Counted.openStream (h : m.Counted) : m.openStream.1.Counted := by
  rcases m.openStream_cases with hsame | ho
  · rw [hsame]
    exact h
  have hincoming : m.openStream.1.numIncomingStreams = m.numIncomingStreams := by
    rw [ho.incoming, h.server]
    rfl
  have houtgoing : m.openStream.1.numOutgoingStreams = m.numOutgoingStreams + 1 := by
    rw [ho.outgoing, h.server]
    exact add32_one_of_lt ho.room
  have hpeer := numOpen_insert_le true ho.perspective ho.streams
  have hown := numOpen_insert_le false ho.perspective ho.streams
  rw [h.server, h.nextStream] at hpeer hown
  refine ⟨ho.perspective.trans h.server, ?_, ?_, ?_, ?_, ?_, ?_⟩
  · rw [hincoming]
    exact hpeer.trans h.incoming
  · rw [hincoming, maxIncoming, ho.params]
    exact h.incoming_le
  · rw [houtgoing]
    exact hown.trans (Nat.succ_le_succ h.outgoing)
  · rw [houtgoing, maxOutgoing, ho.params]
    exact ho.room
  · rw [ho.highest]
    exact h.highest
  · rw [ho.nextStream, peerInitiated_add32_two]
    exact h.nextStream

/-- One stream less is one less of the streams of its side, and of no others. -/
theorem numOpen_erase (byPeer : Bool) (hmem : id ∈ m.streams)
    (hpersp : m'.perspective = m.perspective) (hstreams : m'.streams = m.streams.erase id) :
    m'.numOpen byPeer + (if peerInitiated m.perspective id = byPeer then 1 else 0) =
      m.numOpen byPeer := by
  unfold numOpen
  rw [hpersp, hstreams, Finset.filter_erase]
  split_ifs with hside
  · exact Finset.card_erase_add_one (Finset.mem_filter.mpr ⟨hmem, hside⟩)
  · have hnot : id ∉ m.streams.filter fun id => peerInitiated m.perspective id = byPeer :=
      fun hid => hside (Finset.mem_filter.mp hid).2
    rw [Finset.erase_eq_of_notMem hnot, Nat.add_zero]

/-- What removing a stream does to the counters. -/
theorem removeStream_counters (h : m.removeStream id = .ok m') :
    m'.perspective = m.perspective ∧ m'.nextStream = m.nextStream ∧
      m'.highestStreamOpenedByPeer = m.highestStreamOpenedByPeer ∧
      m'.nextStreamToAccept = m.nextStreamToAccept ∧ m'.closeErr = m.closeErr ∧
      m'.numOutgoingStreams =
        (if id % 2 = 0 then sub32 m.numOutgoingStreams 1 else m.numOutgoingStreams) ∧
      m'.numIncomingStreams =
        if id % 2 = 0 then m.numIncomingStreams else sub32 m.numIncomingStreams 1 := by
  unfold removeStream at h
  split at h
  · cases h
    exact ⟨rfl, rfl, rfl, rfl, rfl, rfl, rfl⟩
  · cases h

theorem sub32_one_of_le {n : ℕ} {limit : UInt32} (hpos : 0 < n) (h : n ≤ limit.toNat) :
    sub32 n 1 = n - 1 := by
  have := limit.toNat_lt
  rw [sub32]
  omega

/-- Removing a stream gives back what was counted for it. -/
theorem Counted.removeStream (h : m.Counted) (hremove : m.removeStream id = .ok m') :
    m'.Counted := by
  obtain ⟨hmem, hstreams, -, hfc, -⟩ := removes_of_removeStream hremove
  obtain ⟨hpersp, hnext, hhighest, -, -, houtgoing, hincoming⟩ := removeStream_counters hremove
  have hpeer := numOpen_erase true hmem hpersp hstreams
  have hown := numOpen_erase false hmem hpersp hstreams
  have hin := h.incoming
  have hout := h.outgoing
  have hin_le := h.incoming_le
  have hout_le := h.outgoing_le
  have hmaxIn : m'.maxIncoming = m.maxIncoming := by rw [maxIncoming, hfc]
  have hmaxOut : m'.maxOutgoing = m.maxOutgoing := by rw [maxOutgoing, hfc]
  rw [h.server] at hpeer hown
  rcases Nat.mod_two_eq_zero_or_one id with heven | hodd
  · have hside : peerInitiated .server id = false := by simp [peerInitiated, heven]
    rw [hside] at hpeer hown
    simp only [Bool.false_eq_true, if_true, if_false] at hpeer hown
    rw [if_pos heven] at houtgoing hincoming
    rw [sub32_one_of_le (by omega) hout_le] at houtgoing
    exact ⟨hpersp.trans h.server, by omega, by omega, by omega, by omega, hhighest ▸ h.highest,
      hnext ▸ h.nextStream⟩
  · have hside : peerInitiated .server id = true := by simp [peerInitiated, hodd]
    rw [hside] at hpeer hown
    simp only [Bool.true_eq_false, if_true, if_false] at hpeer hown
    rw [if_neg (by omega)] at houtgoing hincoming
    rw [sub32_one_of_le (by omega) hin_le] at hincoming
    exact ⟨hpersp.trans h.server, by omega, by omega, by omega, by omega, hhighest ▸ h.highest,
      hnext ▸ h.nextStream⟩

end StreamsMap

/-! ## Runs -/

/-- A call. The peer chooses the IDs of `GetOrOpenStream`. What else happens to the streams, to flow
control and to the scheduler is arbitrary, and the session may close. -/
inductive MapCall (E : Type)
  | getOrOpenStream (id : UInt32)
  | openStream
  | acceptStream
  | removeStream (id : UInt32)
  | garbageCollectStreams
  | reset (id : ℕ) (err : E)
  | registerRemoteError (id : ℕ) (err : E)
  | elsewhere (stream : ℕ → Stream E) (fc : FlowControlManager) (sch : Option StreamScheduler)
      (roundRobinIndex : ℕ) (closeErr : Option E)

namespace MapCall

variable {E : Type}

/-- A call. `GetOrOpenStream` returns (`StreamsMap.exists_getOrOpenStream`), an error leaves what was
done before it, and a call of `AcceptStream` that waits changes nothing and is made again. -/
def apply (m : StreamsMap E) : MapCall E → StreamsMap E
  | .getOrOpenStream id => ((m.getOrOpenStream id.toNat).map Prod.fst).getD m
  | .openStream => m.openStream.1
  | .acceptStream => (m.acceptStream.map Prod.fst).getD m
  | .removeStream id =>
    match m.removeStream id.toNat with
    | .ok m' => m'
    | .error _ => m
  | .garbageCollectStreams => m.garbageCollectStreams
  | .reset id err => m.modifyStream id fun s => (s.reset err).1
  | .registerRemoteError id err => m.modifyStream id fun s => (s.registerRemoteError err).1
  | .elsewhere stream fc sch roundRobinIndex closeErr =>
    { m with
      stream := stream
      flowControlManager := fc
      streamScheduler := sch
      roundRobinIndex := roundRobinIndex
      closeErr := closeErr }

/-- The call leaves the limits as they are. -/
def KeepsLimits (m : StreamsMap E) : MapCall E → Prop
  | .elsewhere _ fc .. => fc.connectionParameters = m.flowControlManager.connectionParameters
  | _ => True

theorem exists_getOrOpenStream_eq (m : StreamsMap E) (id : UInt32) :
    ∃ r, m.getOrOpenStream id.toNat = some (apply m (.getOrOpenStream id), r) := by
  obtain ⟨m', r, hget⟩ := m.exists_getOrOpenStream id.toNat_lt
  refine ⟨r, ?_⟩
  rw [apply, hget]
  rfl

theorem apply_acceptStream_cases (m : StreamsMap E) :
    apply m .acceptStream = m ∨ m.nextStreamToAccept ∈ m.streams ∧
      apply m .acceptStream = { m with nextStreamToAccept := add32 m.nextStreamToAccept 2 } := by
  rw [apply]
  cases haccept : m.acceptStream with
  | none => exact Or.inl rfl
  | some p =>
    obtain ⟨_, heq, -⟩ | ⟨hmem, heq, -⟩ := StreamsMap.acceptStream_cases haccept
    · exact Or.inl heq
    · exact Or.inr ⟨hmem, heq⟩

theorem apply_removeStream_cases (m : StreamsMap E) (id : UInt32) :
    apply m (.removeStream id) = m ∨ m.removeStream id.toNat = .ok (apply m (.removeStream id)) := by
  rw [apply]
  cases m.removeStream id.toNat with
  | ok m' => exact Or.inr rfl
  | error err => exact Or.inl rfl

end MapCall

theorem StreamsMap.Counted.apply {E : Type} {m : StreamsMap E} (h : m.Counted) (call : MapCall E)
    (hkeeps : call.KeepsLimits m) : (call.apply m).Counted := by
  cases call with
  | getOrOpenStream id =>
    obtain ⟨r, hget⟩ := MapCall.exists_getOrOpenStream_eq m id
    exact (h.getOrOpenStream hget).1
  | openStream => exact h.openStream
  | acceptStream =>
    obtain heq | ⟨-, heq⟩ := MapCall.apply_acceptStream_cases m <;> rw [heq]
    · exact h
    · exact { h with }
  | removeStream id =>
    obtain heq | hremove := MapCall.apply_removeStream_cases m id
    · rw [heq]
      exact h
    · exact h.removeStream hremove
  | garbageCollectStreams =>
    refine garbageCollectStreams_invariant (fun m₁ id m₂ hm _ hremove => ?_) h
    exact { hm.removeStream hremove with }
  | reset | registerRemoteError => exact { h with }
  | elsewhere stream fc sch roundRobinIndex closeErr =>
    refine { h with incoming_le := ?_, outgoing_le := ?_ }
    · exact h.incoming_le.trans (congrArg (·.maxIncomingStreams.toNat) hkeeps).ge
    · exact h.outgoing_le.trans (congrArg (·.maxOutgoingStreams.toNat) hkeeps).ge

/-- The limits are enforced after a run: those on the open streams, and that on the streams that one
more call of `GetOrOpenStream` opens, which returns. -/
def StreamsMap.WithinLimits {E : Type} (m : StreamsMap E) : Prop :=
  m.numOpen true ≤ m.maxIncoming ∧ m.numOpen false ≤ m.maxOutgoing ∧
    ∀ id : UInt32, ∃ m' r, m.getOrOpenStream id.toNat = some (m', r) ∧
      (m'.streams \ m.streams).card ≤ m.maxIncoming

/-- The peer may open one stream. -/
def oneIncomingStream : ConnectionParameters :=
  { smallWindows with maxOutgoingStreams := 0, maxIncomingStreams := 1 }

/-- A client counts the streams of its peer as outgoing ones, so that a frame on stream 4 opens the
streams 2 and 4. -/
theorem numOpen_client_oneIncomingStream (E : Type) :
    ((newStreamsMap E .client oneIncomingStream none).getOrOpenStream 4).map
      (fun r => (r.1.numOpen true, r.1.maxIncoming)) = some (2, 1) := by
  simp [StreamsMap.getOrOpenStream, StreamsMap.refuses, newStreamsMap,
    StreamsMap.openUpTo, StreamsMap.firstToOpen, StreamsMap.openRemoteStream,
    StreamsMap.countStream, StreamsMap.putStream, add32, maxNewStreamIDDelta, oneIncomingStream,
    newFlowControlManager, StreamsMap.connectionParameters_newStream, StreamsMap.lookup,
    StreamsMap.numOpen, StreamsMap.maxIncoming, peerInitiated]
  rfl

/-- **The limits on open streams are enforced in every run iff the endpoint is the server.** -/
theorem streamLimits_iff (E : Type) (perspective : Perspective) :
    (∀ params sch calls, Along MapCall.apply MapCall.KeepsLimits
        (newStreamsMap E perspective params sch) calls →
      (calls.foldl MapCall.apply (newStreamsMap E perspective params sch)).WithinLimits) ↔
      perspective = .server := by
  constructor
  · intro h
    cases perspective with
    | server => rfl
    | client =>
      obtain ⟨⟨m, r⟩, hget, hopen⟩ := Option.map_eq_some_iff.mp (numOpen_client_oneIncomingStream E)
      have happly : MapCall.apply (newStreamsMap E .client oneIncomingStream none)
          (.getOrOpenStream 4) = m := by
        rw [MapCall.apply, show (4 : UInt32).toNat = 4 from rfl, hget]
        rfl
      obtain ⟨hpeer, -, -⟩ := h oneIncomingStream none [.getOrOpenStream 4] ⟨trivial, trivial⟩
      rw [List.foldl_cons, List.foldl_nil, happly] at hpeer
      have hnum : m.numOpen true = 2 := congrArg Prod.fst hopen
      have hmax : m.maxIncoming = 1 := congrArg Prod.snd hopen
      omega
  · rintro rfl params sch calls hkeeps
    have hm := hkeeps.invariant (StreamsMap.Counted.new params sch (E := E))
      fun m call hm hcall => hm.apply call hcall
    generalize calls.foldl MapCall.apply _ = m at hm
    refine ⟨hm.incoming.trans hm.incoming_le, hm.outgoing.trans hm.outgoing_le, fun id => ?_⟩
    obtain ⟨m', r, hget⟩ := m.exists_getOrOpenStream id.toNat_lt
    obtain ⟨hm', hnew⟩ := hm.getOrOpenStream hget
    refine ⟨m', r, hget, hnew.trans ?_⟩
    rw [← StreamsMap.maxIncoming_getOrOpenStream hget]
    exact hm'.incoming_le

/-- A client that allows its peer one stream has two of them open. -/
theorem clientLimit_exceeded :
    ((newStreamsMap Unit .client oneIncomingStream none).getOrOpenStream 4).map
      (fun r => (r.1.numOpen true, r.1.maxIncoming)) = some (2, 1) :=
  numOpen_client_oneIncomingStream Unit

end MultipathQuic
