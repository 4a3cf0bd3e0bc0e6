import Mathlib.Data.Finset.Option
import MultipathQuic.Stream.StreamIDs

/-!
# Frames for streams that were never opened

A frame may name a stream of the endpoint that receives it. `GetOrOpenStream` tells the streams that
were removed from those that were never opened by a comparison with `nextStream`, the ID that
`OpenStream` uses next. That ID itself is taken for one that was opened, and so is stream 0, which no
endpoint opens first.
-/

namespace MultipathQuic

namespace MapCall

variable {E : Type} {m : StreamsMap E}

/-- The stream that the endpoint opens with the call. -/
def opens (m : StreamsMap E) : MapCall E → Option ℕ
  | .openStream => m.openStream.2
  | _ => none

/-- A call opens at most the stream it returns, and only `OpenStream` opens one of the endpoint. -/
structure Frame (m : StreamsMap E) (call : MapCall E) : Prop where
  numbered : (call.apply m).Numbered
  perspective : (call.apply m).perspective = m.perspective
  own : ∀ id ∈ (call.apply m).streams, peerInitiated m.perspective id = false →
    id ∈ m.streams ∨ call.opens m = some id
  opened : ∀ id, call.opens m = some id → id ∈ (call.apply m).streams

/-- `OpenStream` opens the stream it returns, or changes nothing. -/
theorem openStream_result (m : StreamsMap E) :
    m.openStream = (m, none) ∨
      ∃ m', m.openStream = (m', some m.nextStream) ∧ StreamsMap.OpensOwn m m' := by
  unfold StreamsMap.openStream
  split
  · next m' id _ himpl =>
    have ho := StreamsMap.opensOwn_of_openStreamImpl himpl
    unfold StreamsMap.openStreamImpl at himpl
    split_ifs at himpl
    cases himpl
    exact Or.inr ⟨_, rfl, ho⟩
  · exact Or.inl rfl

/-- A call that opens no stream of the endpoint. -/
theorem Frame.of_own {call : MapCall E} {m' : StreamsMap E} (happly : call.apply m = m')
    (hopens : call.opens m = none) (hnumbered : m'.Numbered)
    (hperspective : m'.perspective = m.perspective)
    (hown : ∀ id ∈ m'.streams, peerInitiated m.perspective id = false → id ∈ m.streams) :
    Frame m call := by
  subst happly
  refine ⟨hnumbered, hperspective, fun id hid hpeer => Or.inl (hown id hid hpeer), ?_⟩
  intro id hid
  rw [hopens] at hid
  cases hid

/-- A call that opens no stream and leaves the cursors as they are. -/
theorem Frame.of_subset {call : MapCall E} (m' : StreamsMap E) (hm : m.Numbered)
    (happly : call.apply m = m') (hopens : call.opens m = none)
    (hperspective : m'.perspective = m.perspective) (hnext : m'.nextStream = m.nextStream)
    (hhighest : m'.highestStreamOpenedByPeer = m.highestStreamOpenedByPeer)
    (hstreams : m'.streams ⊆ m.streams) : Frame m call := by
  refine .of_own happly hopens ⟨?_, ?_, ?_⟩ hperspective fun id hid _ => hstreams hid
  · rw [hperspective, hnext]
    exact hm.nextStream
  · rw [hperspective, hhighest]
    exact hm.highest
  · rw [hhighest]
    exact hm.highest_lt

/-- What the loop of `GetOrOpenStream` opens are streams of the peer. -/
theorem own_getOrOpenStream (hm : m.Numbered) {id : ℕ} {m' : StreamsMap E}
    {r : Except StreamsMapError (Option ℕ)} (hget : m.getOrOpenStream id = some (m', r)) :
    m'.Numbered ∧ m'.perspective = m.perspective ∧
      ∀ id ∈ m'.streams, peerInitiated m.perspective id = false → id ∈ m.streams := by
  refine hm.getOrOpenStream (P := fun m' => m'.perspective = m.perspective ∧
    ∀ id ∈ m'.streams, peerInitiated m.perspective id = false → id ∈ m.streams)
    ⟨rfl, fun _ hid _ => hid⟩ ?_ hget
  intro m₁ sid m₂ _ h₁ hsid hopen
  have ho := StreamsMap.opens_of_openRemoteStream hopen
  refine ⟨ho.perspective.trans h₁.1, fun x hx hpeer => ?_⟩
  rw [ho.streams, Finset.mem_insert] at hx
  rcases hx with rfl | hx
  · rw [← h₁.1, hsid.1] at hpeer
    cases hpeer
  · exact h₁.2 x hx hpeer

/-- **Only `OpenStream` opens a stream of the endpoint.** -/
theorem frame (hm : m.Numbered) (call : MapCall E) : Frame m call := by
  cases call with
  | getOrOpenStream id =>
    obtain ⟨r, hget⟩ := exists_getOrOpenStream_eq m id
    obtain ⟨hnumbered, hperspective, hown⟩ := own_getOrOpenStream hm hget
    exact .of_own rfl rfl hnumbered hperspective hown
  | openStream =>
    rcases openStream_result m with hsame | ⟨m', hopen, ho⟩
    · refine .of_subset m hm ?_ ?_ rfl rfl rfl (Finset.Subset.refl _)
      · rw [apply, hsame]
      · rw [opens, hsame]
    · have happly : apply m .openStream = m' := by rw [apply, hopen]
      have hopens : opens m .openStream = some m.nextStream := by rw [opens, hopen]
      refine ⟨?_, ?_, ?_, ?_⟩
      · rw [happly]
        exact hm.opensOwn ho
      · rw [happly]
        exact ho.perspective
      · rw [happly, ho.streams, hopens]
        intro id hid _
        rcases Finset.mem_insert.mp hid with rfl | hid
        · exact Or.inr rfl
        · exact Or.inl hid
      · rw [happly, ho.streams, hopens]
        rintro id ⟨⟩
        exact Finset.mem_insert_self _ _
  | acceptStream =>
    obtain heq | ⟨-, heq⟩ := apply_acceptStream_cases m
    all_goals exact .of_subset _ hm heq rfl rfl rfl rfl (Finset.Subset.refl _)
  | removeStream id =>
    obtain heq | hremove := apply_removeStream_cases m id
    · exact .of_subset m hm heq rfl rfl rfl rfl (Finset.Subset.refl _)
    · have hr := StreamsMap.removes_of_removeStream hremove
      refine .of_subset _ hm rfl rfl hr.perspective hr.nextStream hr.highest ?_
      rw [hr.streams]
      exact Finset.erase_subset _ _
  | garbageCollectStreams =>
    obtain ⟨hperspective, hnext, hhighest, -⟩ := m.garbageCollectStreams_frame
    exact .of_subset _ hm rfl rfl hperspective hnext hhighest m.mem_garbageCollectStreams.1
  | reset | registerRemoteError | elsewhere =>
    exact .of_subset _ hm rfl rfl rfl rfl rfl (Finset.Subset.refl _)

end MapCall

/-! ## Histories -/

/-- A map, the streams that the endpoint has opened, and those that have left the map. -/
structure OwnHistory (E : Type) where
  map : StreamsMap E
  opened : Finset ℕ
  removed : Finset ℕ

namespace OwnHistory

variable {E : Type} {h : OwnHistory E}

/-- A new map. -/
def start (E : Type) (perspective : Perspective) (params : ConnectionParameters)
    (sch : Option StreamScheduler) : OwnHistory E :=
  ⟨newStreamsMap E perspective params sch, ∅, ∅⟩

/-- A call. -/
def apply (h : OwnHistory E) (call : MapCall E) : OwnHistory E where
  map := call.apply h.map
  opened := h.opened ∪ (call.opens h.map).toFinset
  removed := h.removed ∪ h.map.streams \ (call.apply h.map).streams

/-- A run. -/
def run (h : OwnHistory E) (calls : List (MapCall E)) : OwnHistory E := calls.foldl apply h

/-- The streams of the endpoint that are in the map have been opened, and those that have been opened
are in the map or were removed. -/
structure Kept (h : OwnHistory E) (perspective : Perspective) : Prop extends
    StreamsMap.Numbered h.map where
  perspective_eq : h.map.perspective = perspective
  own : ∀ id ∈ h.map.streams, peerInitiated perspective id = false → id ∈ h.opened
  gone : ∀ id ∈ h.opened, id ∈ h.map.streams ∨ id ∈ h.removed

variable {perspective : Perspective}

theorem Kept.start (perspective : Perspective) (params : ConnectionParameters)
    (sch : Option StreamScheduler) : Kept (start E perspective params sch) perspective where
  toNumbered := .new perspective params sch
  perspective_eq := rfl
  own := fun id hid => absurd hid (Finset.notMem_empty id)
  gone := fun id hid => absurd hid (Finset.notMem_empty id)

theorem Kept.apply (hk : Kept h perspective) (call : MapCall E) :
    Kept (h.apply call) perspective := by
  have hframe := MapCall.frame hk.toNumbered call
  refine ⟨hframe.numbered, hframe.perspective.trans hk.perspective_eq, ?_, ?_⟩
  · intro id hid hpeer
    rw [OwnHistory.apply, Finset.mem_union, Option.mem_toFinset]
    refine (hframe.own id hid ?_).imp (fun hmem => hk.own id hmem hpeer) fun hopens => hopens
    rw [hk.perspective_eq]
    exact hpeer
  · intro id hid
    simp only [OwnHistory.apply, Finset.mem_union, Option.mem_toFinset, Finset.mem_sdiff] at hid ⊢
    by_cases hmem : id ∈ (call.apply h.map).streams
    · exact Or.inl hmem
    rcases hid with hid | hid
    · rcases hk.gone id hid with hbefore | hremoved
      · exact Or.inr (Or.inr ⟨hbefore, hmem⟩)
      · exact Or.inr (Or.inl hremoved)
    · exact Or.inl (hframe.opened id hid)

/-- **What a run leaves.** -/
theorem Kept.run (hk : Kept h perspective) (calls : List (MapCall E)) :
    Kept (h.run calls) perspective := by
  induction calls generalizing h with
  | nil => exact hk
  | cons call calls ih => exact ih (hk.apply call)

end OwnHistory

/-! ## Frames for streams of the endpoint -/

/-- The error with the code `InvalidStreamID` for a stream that only the endpoint may open. -/
def StreamsMapError.attempted : Perspective → ℕ → StreamsMapError
  | .server, id => .openedFromClientSide id
  | .client, id => .openedFromServerSide id

/-- A stream of the endpoint that is not in the map. -/
theorem StreamsMap.getOrOpenStream_own {E : Type} {m : StreamsMap E} {id : ℕ}
    (hmem : id ∉ m.streams) (hown : peerInitiated m.perspective id = false) :
    m.getOrOpenStream id = some (m, if id ≤ m.nextStream then .ok none
      else .error (.attempted m.perspective id)) := by
  unfold StreamsMap.getOrOpenStream
  rw [if_neg hmem]
  have hrefuses : m.refuses id = some (if id ≤ m.nextStream then .ok ()
      else .error (.attempted m.perspective id)) := by
    unfold refuses
    cases hperspective : m.perspective with
    | server =>
      rw [hperspective] at hown
      have heven : id % 2 = 0 := by simpa [peerInitiated] using hown
      dsimp only
      rw [if_pos heven]
      split <;> rfl
    | client =>
      rw [hperspective] at hown
      have hodd : id % 2 = 1 := by simpa [peerInitiated] using hown
      dsimp only
      rw [if_pos hodd]
      split <;> rfl
  rw [hrefuses]
  by_cases hle : id ≤ m.nextStream
  · rw [if_pos hle, if_pos hle]
  · rw [if_neg hle, if_neg hle]

/-- **A frame for a stream of the endpoint is answered as it should be iff the stream was opened or
its ID is above `nextStream`,** after every run: nil means that the stream was opened and has been
removed, and a stream that was never opened is an error. -/
theorem getOrOpenStream_own_iff {E : Type} (perspective : Perspective)
    (params : ConnectionParameters) (sch : Option StreamScheduler) (calls : List (MapCall E))
    (id : ℕ) (hown : peerInitiated perspective id = false) :
    ((((OwnHistory.start E perspective params sch).run calls).map.getOrOpenStream id).map Prod.snd =
          some (.ok none) →
        id ∈ ((OwnHistory.start E perspective params sch).run calls).opened ∧
          id ∈ ((OwnHistory.start E perspective params sch).run calls).removed) ∧
      (id ∉ ((OwnHistory.start E perspective params sch).run calls).opened →
        (((OwnHistory.start E perspective params sch).run calls).map.getOrOpenStream id).map
          Prod.snd = some (.error (.attempted perspective id))) ↔
    id ∈ ((OwnHistory.start E perspective params sch).run calls).opened ∨
      ((OwnHistory.start E perspective params sch).run calls).map.nextStream < id := by
  have hk := (OwnHistory.Kept.start (E := E) perspective params sch).run calls
  generalize (OwnHistory.start E perspective params sch).run calls = h at hk ⊢
  have hown' : peerInitiated h.map.perspective id = false := by rwa [hk.perspective_eq]
  by_cases hmem : id ∈ h.map.streams
  · -- an open stream is returned
    have hopened := hk.own id hmem hown
    have hget : h.map.getOrOpenStream id = some (h.map, .ok (some id)) := if_pos hmem
    rw [hget]
    refine iff_of_true ⟨fun hnil => ?_, fun hnot => absurd hopened hnot⟩ (Or.inl hopened)
    cases hnil
  · rw [StreamsMap.getOrOpenStream_own hmem hown', hk.perspective_eq]
    by_cases hopened : id ∈ h.opened
    · have hremoved := (hk.gone id hopened).resolve_left hmem
      exact iff_of_true ⟨fun _ => ⟨hopened, hremoved⟩, fun hnot => absurd hopened hnot⟩
        (Or.inl hopened)
    · by_cases hle : id ≤ h.map.nextStream
      · rw [if_pos hle]
        refine iff_of_false ?_ ?_
        · rintro ⟨hnil, -⟩
          exact hopened (hnil rfl).1
        · rintro (hyes | hlt)
          · exact hopened hyes
          · exact absurd hlt (Nat.not_lt.mpr hle)
      · rw [if_neg hle]
        refine iff_of_true ⟨fun hnil => ?_, fun _ => rfl⟩ (Or.inr (Nat.lt_of_not_le hle))
        cases hnil

/-- A server that has opened stream 2 and removed it. -/
def removedStream : OwnHistory Unit :=
  (OwnHistory.start Unit .server smallWindows none).run [.openStream, .removeStream 2]

/-- Nil is the right answer to a frame for that stream. -/
theorem getOrOpenStream_own_removedStream :
    (removedStream.map.getOrOpenStream 2).map Prod.snd = some (.ok none) ∧
      2 ∈ removedStream.opened ∧ 2 ∈ removedStream.removed := by
  have hnil : (removedStream.map.getOrOpenStream 2).map Prod.snd = some (.ok none) := by
    decide +kernel
  have hright := (getOrOpenStream_own_iff (E := Unit) .server smallWindows none
    [.openStream, .removeStream 2] 2 rfl).mpr (Or.inl (by decide +kernel))
  exact ⟨hnil, hright.1 hnil⟩

/-- **The next stream of an endpoint is taken for a closed one,** and so is stream 0 by a server,
although nothing was opened. -/
theorem nextStream_taken_for_closed :
    ((newStreamsMap Unit .client smallWindows none).getOrOpenStream 1).map Prod.snd =
      some (.ok none) ∧
    ((newStreamsMap Unit .server smallWindows none).getOrOpenStream 2).map Prod.snd =
      some (.ok none) ∧
    ((newStreamsMap Unit .server smallWindows none).getOrOpenStream 0).map Prod.snd =
      some (.ok none) := by
  decide +kernel

end MultipathQuic
