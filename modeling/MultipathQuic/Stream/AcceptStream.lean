import MultipathQuic.Stream.Lifecycle

/-!
# Accepting streams

`AcceptStream` waits for the stream `nextStreamToAccept` to be in the map and then goes on to the
next ID of the peer. Nothing but `AcceptStream` moves `nextStreamToAccept`, so that it waits for ever
once garbage collection has removed that stream: a stream that the peer opens and resets at once may
be removed before it was accepted.

As long as no stream is removed that is still to be accepted, the streams of the peer from `nextStreamToAccept` up to the highest one are all in the map.
-/

namespace MultipathQuic

open Runs

/-- No stream is removed that is still to be accepted, and the session is not closed. -/
def CollectsAccepted {E : Type} (m : StreamsMap E) : MapCall E → Prop
  | .removeStream id =>
    peerInitiated m.perspective id.toNat = true → id.toNat < m.nextStreamToAccept
  | .garbageCollectStreams =>
    ∀ id ∈ m.streams, peerInitiated m.perspective id = true → (m.stream id).finished = true →
      id < m.nextStreamToAccept
  | .elsewhere _ _ _ _ closeErr => closeErr.isNone = true
  | _ => True

instance {E : Type} (m : StreamsMap E) : (call : MapCall E) → Decidable (CollectsAccepted m call)
  | .removeStream _ => inferInstanceAs (Decidable (_ → _))
  | .garbageCollectStreams => inferInstanceAs (Decidable (∀ _ ∈ _, _))
  | .elsewhere .. => inferInstanceAs (Decidable (_ = _))
  | .getOrOpenStream _ | .openStream | .acceptStream | .reset .. | .registerRemoteError .. =>
    inferInstanceAs (Decidable True)

namespace StreamsMap

variable {E : Type} {m m' : StreamsMap E} {id sid fuel : ℕ}

/-- If a stream of the peer is open that is still to be accepted, `AcceptStream` returns a stream. -/
def AcceptReady (m : StreamsMap E) : Prop :=
  (∃ id ∈ m.streams, peerInitiated m.perspective id = true ∧ m.nextStreamToAccept ≤ id) →
    ∃ m' id, m.acceptStream = some (m', .ok id)

/-- The streams of the peer from `nextStreamToAccept` on, up to the highest one, are in the map. -/
structure Contiguous (m : StreamsMap E) : Prop extends Numbered m where
  closeErr : m.closeErr = none
  accept_pos : 0 < m.nextStreamToAccept
  accept : peerInitiated m.perspective m.nextStreamToAccept = true
  opened : ∀ id ∈ m.streams, peerInitiated m.perspective id = true →
    id ≤ m.highestStreamOpenedByPeer
  present : ∀ id, peerInitiated m.perspective id = true → m.nextStreamToAccept ≤ id →
    id ≤ m.highestStreamOpenedByPeer → id ∈ m.streams

theorem Contiguous.acceptReady (h : m.Contiguous) : m.AcceptReady := by
  rintro ⟨id, hmem, hpeer, hle⟩
  have hnext := h.present _ h.accept (Nat.le_refl _) (hle.trans (h.opened id hmem hpeer))
  unfold acceptStream
  rw [h.closeErr]
  rw [if_pos hnext]
  exact ⟨_, _, rfl⟩

theorem Contiguous.new (perspective : Perspective) (params : ConnectionParameters)
    (sch : Option StreamScheduler) : (newStreamsMap E perspective params sch).Contiguous where
  toNumbered := .new perspective params sch
  closeErr := rfl
  accept_pos := by cases perspective <;> simp [newStreamsMap]
  accept := by cases perspective <;> simp [newStreamsMap, peerInitiated]
  opened := fun id hmem => absurd hmem (Finset.notMem_empty id)
  present := fun id _ hle hhighest => by
    have hzero : id ≤ 0 := hhighest
    have hpos : 0 < (newStreamsMap E perspective params sch).nextStreamToAccept := by
      cases perspective <;> simp [newStreamsMap]
    omega

/-! ## Opening streams -/

theorem Contiguous.opens (h : m.Contiguous) (ho : Opens m sid m') (hsid : m.Follows sid) :
    m'.Contiguous := by
  obtain ⟨hnumbered, hhighest, -⟩ := h.toNumbered.opens ho hsid
  refine ⟨hnumbered, ?_, ?_, ?_, ?_, ?_⟩
  · rw [ho.closeErr, h.closeErr]
  · rw [ho.nextStreamToAccept]
    exact h.accept_pos
  · rw [ho.perspective, ho.nextStreamToAccept, h.accept]
  · intro id hmem hpeer
    rw [ho.streams, Finset.mem_insert] at hmem
    rw [ho.perspective] at hpeer
    rw [hhighest]
    rcases hmem with rfl | hmem
    · exact Nat.le_refl _
    · exact (h.opened id hmem hpeer).trans hsid.highest_lt.le
  · intro id hpeer hle hid
    rw [ho.perspective] at hpeer
    rw [ho.nextStreamToAccept] at hle
    rw [hhighest] at hid
    rw [ho.streams, Finset.mem_insert]
    rcases hsid.le_or_eq hpeer hid with hlow | heq
    · exact .inr (h.present id hpeer hle hlow)
    · exact .inl heq

theorem Contiguous.getOrOpenStream {r : Except StreamsMapError (Option ℕ)} (h : m.Contiguous)
    (hget : m.getOrOpenStream id = some (m', r)) : m'.Contiguous :=
  (h.toNumbered.getOrOpenStream h (fun _ _ _ _ hm hsid hopen =>
    hm.opens (opens_of_openRemoteStream hopen) hsid) hget).2

/-- The endpoint's own streams are none that are to be accepted. -/
theorem Contiguous.openStream (h : m.Contiguous) : m.openStream.1.Contiguous := by
  rcases m.openStream_cases with hsame | ho
  · rw [hsame]
    exact h
  refine ⟨h.toNumbered.opensOwn ho, ?_, ?_, ?_, ?_, ?_⟩
  · rw [ho.closeErr, h.closeErr]
  · rw [ho.nextStreamToAccept]
    exact h.accept_pos
  · rw [ho.perspective, ho.nextStreamToAccept, h.accept]
  · intro id hmem hpeer
    rw [ho.streams, Finset.mem_insert] at hmem
    rw [ho.perspective] at hpeer
    rw [ho.highest]
    rcases hmem with rfl | hmem
    · rw [h.nextStream] at hpeer
      cases hpeer
    · exact h.opened id hmem hpeer
  · rw [ho.perspective, ho.nextStreamToAccept, ho.highest, ho.streams]
    intro id hpeer hle hhighest
    exact Finset.mem_insert_of_mem (h.present id hpeer hle hhighest)

/-! ## Accepting and removing streams -/

theorem Contiguous.acceptStream (h : m.Contiguous) (hmem : m.nextStreamToAccept ∈ m.streams) :
    Contiguous { m with nextStreamToAccept := add32 m.nextStreamToAccept 2 } := by
  have hlt := h.highest_lt
  have hle := h.opened _ hmem h.accept
  have hadd : add32 m.nextStreamToAccept 2 = m.nextStreamToAccept + 2 := by
    rw [add32, Nat.mod_eq_of_lt]
    rw [maxNewStreamIDDelta] at hlt
    omega
  exact {
    h with
    accept_pos := by
      dsimp only
      omega
    accept := by
      rw [peerInitiated_add32_two, h.accept]
    present := fun id hpeer hid hhighest => by
      dsimp only at hid
      exact h.present id hpeer (by omega) hhighest }

/-- Accepted streams may leave the map. -/
theorem Contiguous.shrinks (h : m.Contiguous) (hnumbered : m'.Numbered)
    (hpersp : m'.perspective = m.perspective)
    (hhighest : m'.highestStreamOpenedByPeer = m.highestStreamOpenedByPeer)
    (haccept : m'.nextStreamToAccept = m.nextStreamToAccept) (hclose : m'.closeErr = m.closeErr)
    (hsub : m'.streams ⊆ m.streams)
    (hkept : ∀ id ∈ m.streams, peerInitiated m.perspective id = true →
      m.nextStreamToAccept ≤ id → id ∈ m'.streams) : m'.Contiguous := by
  refine ⟨hnumbered, ?_, ?_, ?_, ?_, ?_⟩
  · rw [hclose, h.closeErr]
  · rw [haccept]
    exact h.accept_pos
  · rw [hpersp, haccept, h.accept]
  · rw [hpersp, hhighest]
    exact fun id hmem => h.opened id (hsub hmem)
  · rw [hpersp, haccept, hhighest]
    exact fun id hpeer hle hid => hkept id (h.present id hpeer hle hid) hpeer hle

theorem Contiguous.garbageCollectStreams (h : m.Contiguous)
    (haccepted : CollectsAccepted m .garbageCollectStreams) :
    m.garbageCollectStreams.Contiguous := by
  obtain ⟨hsub, hkept⟩ := m.mem_garbageCollectStreams
  obtain ⟨hpersp, -, hhighest, haccept, hclose⟩ := m.garbageCollectStreams_frame
  refine h.shrinks h.toNumbered.garbageCollectStreams hpersp hhighest haccept hclose hsub ?_
  intro id hmem hpeer hle
  refine hkept id hmem (Bool.eq_false_iff.mpr fun hfinished => ?_)
  exact absurd (haccepted id hmem hpeer hfinished) (Nat.not_lt.mpr hle)

theorem Contiguous.removeStream (h : m.Contiguous) (hremove : m.removeStream id = .ok m')
    (haccepted : peerInitiated m.perspective id = true → id < m.nextStreamToAccept) :
    m'.Contiguous := by
  have hr := removes_of_removeStream hremove
  obtain ⟨hpersp, -, hhighest, haccept, hclose, -⟩ := removeStream_counters hremove
  refine h.shrinks (h.toNumbered.removes hr) hpersp hhighest haccept hclose ?_ ?_
  · rw [hr.streams]
    exact Finset.erase_subset _ _
  · intro x hmem hpeer hle
    rw [hr.streams]
    refine Finset.mem_erase.mpr ⟨?_, hmem⟩
    rintro rfl
    exact absurd (haccepted hpeer) (Nat.not_lt.mpr hle)

theorem Contiguous.apply (h : m.Contiguous) (call : MapCall E) (hcall : CollectsAccepted m call) :
    (call.apply m).Contiguous := by
  cases call with
  | getOrOpenStream id =>
    obtain ⟨r, hget⟩ := MapCall.exists_getOrOpenStream_eq m id
    exact h.getOrOpenStream hget
  | openStream => exact h.openStream
  | acceptStream =>
    obtain heq | ⟨hmem, heq⟩ := MapCall.apply_acceptStream_cases m <;> rw [heq]
    · exact h
    · exact h.acceptStream hmem
  | removeStream id =>
    obtain heq | hremove := MapCall.apply_removeStream_cases m id
    · rw [heq]
      exact h
    · exact h.removeStream hremove hcall
  | garbageCollectStreams => exact h.garbageCollectStreams hcall
  | reset | registerRemoteError => exact { h with }
  | elsewhere => exact { h with closeErr := Option.isNone_iff_eq_none.mp hcall }

end StreamsMap

/-- **In every run in which no stream is removed that is still to be accepted, `AcceptStream` does
not wait while a stream to accept is open,** unless the session is closed. -/
theorem acceptStream_ready {E : Type} (perspective : Perspective) (params : ConnectionParameters)
    (sch : Option StreamScheduler) (calls : List (MapCall E))
    (h : Along MapCall.apply CollectsAccepted (newStreamsMap E perspective params sch) calls) :
    (calls.foldl MapCall.apply (newStreamsMap E perspective params sch)).AcceptReady :=
  (h.invariant (P := StreamsMap.Contiguous) (.new perspective params sch)
    fun _ call hm hcall => hm.apply call hcall).acceptReady

/-- A server accepts stream 1. The peer opens the streams 3 and 5 and resets stream 3; then come the
calls `calls`. -/
def afterReset (calls : List (MapCall Unit)) : List (MapCall Unit) :=
  [.getOrOpenStream 1, .acceptStream, .getOrOpenStream 5, .registerRemoteError 3 ()] ++ calls

/-- If stream 3 is accepted before it is removed, stream 5 can be accepted as well. -/
theorem acceptedBeforeCollection_ready :
    ((afterReset [.acceptStream, .garbageCollectStreams]).foldl MapCall.apply
      (newStreamsMap Unit .server smallWindows none)).AcceptReady :=
  acceptStream_ready .server smallWindows none _ (by decide +kernel)

/-- If stream 3 is removed before it is accepted, `AcceptStream` waits although stream 5 is open. -/
theorem collectedBeforeAcceptance_waits :
    ¬((afterReset [.garbageCollectStreams]).foldl MapCall.apply
      (newStreamsMap Unit .server smallWindows none)).AcceptReady := by
  intro hready
  have hwaits : ((afterReset [.garbageCollectStreams]).foldl MapCall.apply
      (newStreamsMap Unit .server smallWindows none)).acceptStream.isNone = true := by
    decide +kernel
  obtain ⟨m', id, haccept⟩ :=
    hready ⟨5, by decide +kernel, by decide +kernel, by decide +kernel⟩
  rw [haccept] at hwaits
  cases hwaits

end MultipathQuic
