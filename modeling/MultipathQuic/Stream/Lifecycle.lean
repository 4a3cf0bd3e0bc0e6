import MultipathQuic.FlowControl.Credit
import MultipathQuic.Stream.StreamLimits

/-!
# The life of a stream

The streams of each side are opened in the order of their IDs, so that the counters of the map tell
which streams have been opened; the ones that are not in the map any more have been removed. The
highest stream of the peer never wraps around, since an ID that is close to 2^32 is refused; the IDs
of the endpoint's own streams do after 2^31 calls of `OpenStream`.
-/

namespace MultipathQuic

namespace StreamsMap

variable {E : Type} {m m' : StreamsMap E} {id sid fuel : ℕ}

/-! ## The order of the streams -/

/-- The stream of the peer that comes after the highest one. -/
def Follows (m : StreamsMap E) (sid : ℕ) : Prop :=
  peerInitiated m.perspective sid = true ∧
    (sid = m.highestStreamOpenedByPeer + 2 ∨ m.highestStreamOpenedByPeer = 0 ∧ sid = 1)

theorem Follows.le_or_eq (h : m.Follows sid) (hid : peerInitiated m.perspective id = true)
    (hle : id ≤ sid) : id ≤ m.highestStreamOpenedByPeer ∨ id = sid := by
  obtain ⟨hsid, hfollows⟩ := h
  cases hp : m.perspective <;> rw [hp] at hsid hid <;>
    simp only [peerInitiated, decide_eq_true_eq] at hsid hid <;> omega

theorem Follows.highest_lt (h : m.Follows sid) : m.highestStreamOpenedByPeer < sid := by
  rcases h.2 with hnext | ⟨hzero, hone⟩ <;> omega

/-- The next stream is one of the endpoint, the highest one is one of the peer, and it is far from
wrapping around. -/
structure Numbered (m : StreamsMap E) : Prop where
  nextStream : peerInitiated m.perspective m.nextStream = false
  highest : m.highestStreamOpenedByPeer = 0 ∨
    peerInitiated m.perspective m.highestStreamOpenedByPeer = true
  highest_lt : m.highestStreamOpenedByPeer + maxNewStreamIDDelta < 2 ^ 32

theorem Numbered.new (perspective : Perspective) (params : ConnectionParameters)
    (sch : Option StreamScheduler) : (newStreamsMap E perspective params sch).Numbered where
  nextStream := by cases perspective <;> simp [newStreamsMap, peerInitiated]
  highest := .inl rfl
  highest_lt := by simp [newStreamsMap, maxNewStreamIDDelta]

/-- An ID that is too large is refused, since adding `maxNewStreamIDDelta` to it wraps around. -/
theorem Numbered.sid_lt (h : m.Numbered) (ho : Opens m sid m') (hsid : m.Follows sid) :
    sid + maxNewStreamIDDelta < 2 ^ 32 := by
  have hlt := h.highest_lt
  have hnear := ho.near
  rw [add32] at hnear
  rw [maxNewStreamIDDelta] at hlt hnear ⊢
  rcases hsid.2 with hnext | ⟨-, hone⟩ <;> omega

theorem Numbered.opens (h : m.Numbered) (ho : Opens m sid m') (hsid : m.Follows sid) :
    m'.Numbered ∧ m'.highestStreamOpenedByPeer = sid ∧ m'.Follows (add32 sid 2) := by
  have hlt := h.sid_lt ho hsid
  have hhighest : m'.highestStreamOpenedByPeer = sid := by
    rw [ho.highest]
    exact max_eq_right hsid.highest_lt.le
  have hadd : add32 sid 2 = sid + 2 := by
    rw [maxNewStreamIDDelta] at hlt
    rw [add32_of_lt (by omega)]
  refine ⟨⟨?_, ?_, ?_⟩, hhighest, ?_, ?_⟩
  · rw [ho.perspective, ho.nextStream, h.nextStream]
  · rw [hhighest, ho.perspective]
    exact .inr hsid.1
  · rw [hhighest]
    exact hlt
  · rw [ho.perspective, peerInitiated_add32_two]
    exact hsid.1
  · rw [hhighest]
    exact .inl hadd

theorem Numbered.opensOwn (h : m.Numbered) (ho : OpensOwn m m') : m'.Numbered := by
  refine ⟨?_, ?_, ?_⟩
  · rw [ho.perspective, ho.nextStream, peerInitiated_add32_two, h.nextStream]
  · rw [ho.perspective, ho.highest]
    exact h.highest
  · rw [ho.highest]
    exact h.highest_lt

theorem Numbered.follows_firstToOpen (h : m.Numbered) : m.Follows m.firstToOpen := by
  have hlt := h.highest_lt
  have hadd : add32 m.highestStreamOpenedByPeer 2 = m.highestStreamOpenedByPeer + 2 := by
    rw [maxNewStreamIDDelta] at hlt
    rw [add32_of_lt (by omega)]
  unfold firstToOpen
  dsimp only
  rw [hadd]
  split_ifs with hfirst
  · refine ⟨?_, .inr ⟨by omega, rfl⟩⟩
    rw [hfirst.2]
    rfl
  · refine ⟨?_, .inl rfl⟩
    rw [← hadd, peerInitiated_add32_two]
    rcases h.highest with hzero | hpeer
    · cases hp : m.perspective with
      | server => exact absurd ⟨by omega, hp⟩ hfirst
      | client =>
        rw [hzero]
        rfl
    · exact hpeer

section PeerRule

variable {P : StreamsMap E → Prop}

/-- What the next stream of the peer preserves is preserved by the loop of `GetOrOpenStream`. -/
theorem Numbered.openUpTo {err : Option StreamsMapError} (h : m.Numbered) (hm : P m)
    (hP : ∀ m sid m', Numbered m → P m → m.Follows sid → m.openRemoteStream sid = .ok m' → P m')
    (hsid : m.Follows sid) (hopen : openUpTo id fuel m sid = some (m', err)) :
    m'.Numbered ∧ P m' := by
  induction fuel generalizing m sid with
  | zero => cases hopen
  | succ fuel ih =>
    rw [StreamsMap.openUpTo] at hopen
    split_ifs at hopen
    · cases hone : m.openRemoteStream sid with
      | error e =>
        rw [hone] at hopen
        cases hopen
        exact ⟨h, hm⟩
      | ok m₁ =>
        rw [hone] at hopen
        obtain ⟨h₁, -, hnext⟩ := h.opens (opens_of_openRemoteStream hone) hsid
        exact ih h₁ (hP m sid m₁ h hm hsid hone) hnext hopen
    · cases hopen
      exact ⟨h, hm⟩

/-- **What the next stream of the peer preserves is preserved by `GetOrOpenStream`.** -/
theorem Numbered.getOrOpenStream {r : Except StreamsMapError (Option ℕ)} (h : m.Numbered)
    (hm : P m)
    (hP : ∀ m sid m', Numbered m → P m → m.Follows sid → m.openRemoteStream sid = .ok m' → P m')
    (hget : m.getOrOpenStream id = some (m', r)) : m'.Numbered ∧ P m' := by
  unfold StreamsMap.getOrOpenStream at hget
  split_ifs at hget
  · cases hget
    exact ⟨h, hm⟩
  · cases hrefuses : m.refuses id with
    | some refusal =>
      rw [hrefuses] at hget
      cases refusal <;> · cases hget; exact ⟨h, hm⟩
    | none =>
      rw [hrefuses] at hget
      obtain ⟨⟨m₁, err⟩, hopen, hget⟩ := Option.bind_eq_some_iff.mp hget
      have h₁ := h.openUpTo hm hP h.follows_firstToOpen hopen
      cases err <;> · cases hget; exact h₁

end PeerRule

/-! ## Removing streams -/

/-- Garbage collection removes only finished streams. -/
theorem mem_garbageCollectStreams (m : StreamsMap E) :
    m.garbageCollectStreams.streams ⊆ m.streams ∧
      ∀ id ∈ m.streams, (m.stream id).finished = false → id ∈ m.garbageCollectStreams.streams := by
  have hall : m.garbageCollectStreams.stream = m.stream ∧
      m.garbageCollectStreams.streams ⊆ m.streams ∧ ∀ id ∈ m.streams,
        (m.stream id).finished = false → id ∈ m.garbageCollectStreams.streams := by
    refine garbageCollectStreams_rule (P := fun m' => m'.stream = m.stream ∧
      m'.streams ⊆ m.streams ∧ ∀ id ∈ m.streams, (m.stream id).finished = false →
        id ∈ m'.streams) ?_ ⟨rfl, Finset.Subset.refl _, fun _ hmem _ => hmem⟩
    rintro m₁ id m₂ ⟨hstream, hsub, hkept⟩ hfinished hremoves
    refine ⟨hremoves.stream.trans hstream, ?_, ?_⟩
    · rw [hremoves.streams]
      exact (Finset.erase_subset _ _).trans hsub
    · intro x hx hunfinished
      rw [hremoves.streams]
      refine Finset.mem_erase.mpr ⟨?_, hkept x hx hunfinished⟩
      rintro rfl
      rw [hstream, hunfinished] at hfinished
      cases hfinished
  exact hall.2

/-- What garbage collection leaves alone. -/
theorem garbageCollectStreams_frame (m : StreamsMap E) :
    m.garbageCollectStreams.perspective = m.perspective ∧
      m.garbageCollectStreams.nextStream = m.nextStream ∧
      m.garbageCollectStreams.highestStreamOpenedByPeer = m.highestStreamOpenedByPeer ∧
      m.garbageCollectStreams.nextStreamToAccept = m.nextStreamToAccept ∧
      m.garbageCollectStreams.closeErr = m.closeErr := by
  refine garbageCollectStreams_invariant (P := fun m' => m'.perspective = m.perspective ∧
    m'.nextStream = m.nextStream ∧ m'.highestStreamOpenedByPeer = m.highestStreamOpenedByPeer ∧
    m'.nextStreamToAccept = m.nextStreamToAccept ∧ m'.closeErr = m.closeErr) ?_
    ⟨rfl, rfl, rfl, rfl, rfl⟩
  intro m₁ id m₂ h _ hremove
  obtain ⟨hpersp, hnext, hhighest, haccept, hclose, -, -⟩ := removeStream_counters hremove
  rw [hpersp, hnext, hhighest, haccept, hclose]
  exact h

theorem Numbered.garbageCollectStreams (h : m.Numbered) : m.garbageCollectStreams.Numbered := by
  obtain ⟨hpersp, hnext, hhighest, -, -⟩ := m.garbageCollectStreams_frame
  refine ⟨?_, ?_, ?_⟩
  · rw [hpersp, hnext, h.nextStream]
  · rw [hpersp, hhighest]
    exact h.highest
  · rw [hhighest]
    exact h.highest_lt

/-! ## What was opened -/

/-- The stream has been opened, whether it is still in the map or not. -/
def wasOpened (m : StreamsMap E) (id : ℕ) : Bool :=
  if peerInitiated m.perspective id then id ≤ m.highestStreamOpenedByPeer else id < m.nextStream

theorem Follows.not_wasOpened (h : m.Follows sid) : m.wasOpened sid = false := by
  rw [wasOpened, if_pos h.1]
  exact decide_eq_false (Nat.not_le.mpr h.highest_lt)

theorem Numbered.not_wasOpened_nextStream (h : m.Numbered) :
    m.wasOpened m.nextStream = false := by
  rw [wasOpened, h.nextStream]
  exact decide_eq_false (Nat.lt_irrefl _)

/-- After the next stream of the peer, it is the only one that has been opened in addition. -/
theorem Follows.wasOpened_iff (hsid : m.Follows sid) (ho : Opens m sid m')
    (hhighest : m'.highestStreamOpenedByPeer = sid) (x : ℕ) :
    m'.wasOpened x = true ↔ m.wasOpened x = true ∨ x = sid := by
  rw [wasOpened, wasOpened, ho.perspective, hhighest, ho.nextStream]
  by_cases hpeer : peerInitiated m.perspective x = true
  · rw [if_pos hpeer, if_pos hpeer, decide_eq_true_eq, decide_eq_true_eq]
    refine ⟨hsid.le_or_eq hpeer, ?_⟩
    rintro (hle | rfl)
    · exact hle.trans hsid.highest_lt.le
    · exact le_rfl
  · rw [if_neg hpeer, if_neg hpeer]
    refine ⟨Or.inl, ?_⟩
    rintro (hlt | rfl)
    · exact hlt
    · exact absurd hsid.1 hpeer

/-- After `OpenStream`, `nextStream` has been opened in addition. -/
theorem OpensOwn.wasOpened_iff (ho : OpensOwn m m') (h : m.Numbered)
    (hlt : m.nextStream + 2 < 2 ^ 32) (x : ℕ) :
    m'.wasOpened x = true ↔ m.wasOpened x = true ∨ x = m.nextStream := by
  have hown := h.nextStream
  have hnext : m'.nextStream = m.nextStream + 2 := by
    rw [ho.nextStream, add32, Nat.mod_eq_of_lt hlt]
  rw [wasOpened, wasOpened, ho.perspective, ho.highest, hnext]
  by_cases hpeer : peerInitiated m.perspective x = true
  · rw [if_pos hpeer, if_pos hpeer]
    refine ⟨Or.inl, ?_⟩
    rintro (hle | rfl)
    · exact hle
    · rw [hown] at hpeer
      cases hpeer
  · rw [if_neg hpeer, if_neg hpeer, decide_eq_true_eq, decide_eq_true_eq]
    cases hp : m.perspective <;> rw [hp] at hown hpeer <;>
      simp only [peerInitiated, decide_eq_true_eq, decide_eq_false_iff_not] at hown hpeer <;>
      omega

/-- Removing a stream does not change what has been opened. -/
theorem Removes.wasOpened_eq (hr : Removes m id m') (x : ℕ) : m'.wasOpened x = m.wasOpened x := by
  rw [wasOpened, wasOpened, hr.perspective, hr.highest, hr.nextStream]

theorem Numbered.removes (h : m.Numbered) (hr : Removes m id m') : m'.Numbered := by
  refine ⟨?_, ?_, ?_⟩
  · rw [hr.perspective, hr.nextStream]
    exact h.nextStream
  · rw [hr.perspective, hr.highest]
    exact h.highest
  · rw [hr.highest]
    exact h.highest_lt

end StreamsMap

end MultipathQuic
