import MultipathQuic.Stream.StreamFramer

/-!
# The room that STREAM frames take

`PopStreamFrames` is given the bytes that are left of a packet. This module says that the frames it
returns fit in there, be they retransmitted, split or new, if each is written with its data length.
-/

namespace MultipathQuic

variable {E : Type}

/-- The bytes of a STREAM frame. -/
def StreamFrame.wireLen (frame : StreamFrame) : ℕ := frame.minLength + frame.dataLen

/-- The bytes of several STREAM frames. -/
def framesLen (frames : List StreamFrame) : ℕ := (frames.map StreamFrame.wireLen).sum

@[simp] theorem framesLen_nil : framesLen [] = 0 := rfl

@[simp] theorem framesLen_cons (frame : StreamFrame) (frames : List StreamFrame) :
    framesLen (frame :: frames) = frame.wireLen + framesLen frames := by
  simp [framesLen]

@[simp] theorem framesLen_append (frames frames' : List StreamFrame) :
    framesLen (frames ++ frames') = framesLen frames + framesLen frames' := by
  simp [framesLen]

/-- The frames have their data length, and fit in the bytes there are. -/
structure Fit (frames : List StreamFrame) (maxLen : ℕ) : Prop where
  dataLenPresent : ∀ frame ∈ frames, frame.dataLenPresent = true
  le : framesLen frames ≤ maxLen

namespace Fit

variable {frames frames' : List StreamFrame} {maxLen : ℕ}

theorem nil (maxLen : ℕ) : Fit [] maxLen := ⟨fun _ h => absurd h List.not_mem_nil, Nat.zero_le _⟩

/-- Frames fit after others if they fit in what is left. -/
theorem append (h : Fit frames maxLen) (h' : Fit frames' (maxLen - framesLen frames)) :
    Fit (frames ++ frames') maxLen where
  dataLenPresent frame hframe := by
    rcases List.mem_append.mp hframe with hframe | hframe
    · exact h.dataLenPresent frame hframe
    · exact h'.dataLenPresent frame hframe
  le := by
    have hle := h.le
    have hle' := h'.le
    rw [framesLen_append]
    omega

theorem singleton {frame : StreamFrame} (hlen : frame.dataLenPresent = true)
    (hle : frame.wireLen ≤ maxLen) : Fit [frame] maxLen where
  dataLenPresent := by
    intro frame' hframe'
    rw [List.mem_singleton.mp hframe']
    exact hlen
  le := by simpa using hle

/-- The last frame needs no data length, which saves two bytes. -/
theorem omit_last {frame : StreamFrame} (h : Fit (frames ++ [frame]) (maxLen + 2)) :
    framesLen (frames ++ [{ frame with dataLenPresent := false }]) ≤ maxLen := by
  have hlen := h.dataLenPresent frame (by simp)
  have hle := h.le
  have hsaved : frame.wireLen = { frame with dataLenPresent := false }.wireLen + 2 := by
    simp [StreamFrame.wireLen, StreamFrame.minLength, hlen, StreamFrame.calculateStreamIDLength,
      StreamFrame.getOffsetLength, StreamFrame.dataLen]
    omega
  simp only [framesLen_append, framesLen_cons, framesLen_nil] at hle ⊢
  omega

end Fit

namespace StreamFramer

/-! ## Retransmissions -/

/-- What is retransmitted has the length that is counted, and does not exceed what there is. -/
theorem popRetransmissions_fit (maxLen : ℕ) (queue : List StreamFrame) (currentLen : ℕ)
    (m : StreamsMap E) (hcur : currentLen ≤ maxLen) :
    (∀ frame ∈ (popRetransmissions maxLen queue currentLen m).2.1, frame.dataLenPresent = true) ∧
      currentLen + framesLen (popRetransmissions maxLen queue currentLen m).2.1 =
        (popRetransmissions maxLen queue currentLen m).2.2.1 ∧
      (popRetransmissions maxLen queue currentLen m).2.2.1 ≤ maxLen := by
  induction queue generalizing currentLen m with
  | nil => exact ⟨fun _ h => absurd h List.not_mem_nil, rfl, hcur⟩
  | cons frame queue ih =>
    rw [popRetransmissions]
    dsimp only
    set frame' : StreamFrame := { frame with dataLenPresent := true }
    by_cases hroom : currentLen + frame'.minLength ≥ maxLen
    · rw [if_pos hroom]
      exact ⟨fun _ h => absurd h List.not_mem_nil, rfl, hcur⟩
    · rw [if_neg hroom]
      by_cases hlen : maxLen - (currentLen + frame'.minLength) ≥ frame'.dataLen
      · rw [maybeSplitOffFrame, if_pos hlen]
        obtain ⟨hpresent, hcount, hle⟩ := ih (currentLen + frame'.minLength + frame'.dataLen)
          (countRetrans m frame') (by omega)
        refine ⟨?_, ?_, hle⟩
        · intro x hx
          rcases List.mem_cons.mp hx with rfl | hx
          · rfl
          · exact hpresent x hx
        · have hassoc : currentLen + frame'.wireLen =
              currentLen + frame'.minLength + frame'.dataLen := (Nat.add_assoc _ _ _).symm
          rw [framesLen_cons, ← Nat.add_assoc, hassoc]
          exact hcount
      · -- the frame is split, and fills what there is
        rw [maybeSplitOffFrame, if_neg hlen]
        set n := maxLen - (currentLen + frame'.minLength)
        have htake : (frame'.data.take n).length = n :=
          List.length_take_of_le (Nat.le_of_not_ge hlen)
        refine ⟨?_, ?_, ?_⟩
        · intro x hx
          rw [List.mem_singleton.mp hx]
        · rw [framesLen_cons, framesLen_nil, Nat.add_zero]
          exact (Nat.add_assoc _ _ _).symm
        · change currentLen + frame'.minLength + (frame'.data.take n).length ≤ maxLen
          omega

theorem maybePopFramesForRetransmission_fit (f : StreamFramer E) (maxLen : ℕ) :
    Fit (f.maybePopFramesForRetransmission maxLen).2.1 maxLen ∧
      framesLen (f.maybePopFramesForRetransmission maxLen).2.1 =
        (f.maybePopFramesForRetransmission maxLen).2.2 := by
  obtain ⟨hpresent, hcount, hle⟩ :=
    popRetransmissions_fit maxLen f.retransmissionQueue 0 f.streamsMap (Nat.zero_le _)
  rw [Nat.zero_add] at hcount
  exact ⟨⟨hpresent, hcount.le.trans hle⟩, hcount⟩

end StreamFramer

/-- The data that is taken of a stream is not longer than allowed. -/
theorem Stream.length_getDataForWriting_getD_le (s : Stream E) (maxLen : ℕ) :
    ((s.getDataForWriting maxLen).1.getD []).length ≤ maxLen := by
  cases hdata : (s.getDataForWriting maxLen).1 with
  | none => exact Nat.zero_le _
  | some data => exact length_getDataForWriting_le hdata

theorem StreamsMap.length_takeData_le {m : StreamsMap E} {id maxLen : ℕ} :
    ((m.takeData id maxLen).1.getD []).length ≤ maxLen := by
  unfold takeData
  split
  · exact (m.stream id).length_getDataForWriting_getD_le maxLen
  · exact Nat.zero_le _

/-- The frame has the data that was taken, and without data it has the FIN. -/
theorem StreamsMap.eq_of_finishFrame {m m' : StreamsMap E} {id sendWindowSize : ℕ}
    {data : Option (List UInt8)} {blocked : List BlockedFrame} {finBit : Bool} {bytes : List UInt8}
    (h : m.finishFrame id sendWindowSize data = (m', blocked, some (finBit, bytes))) :
    bytes = data.getD [] ∧ (data = none → finBit = true) := by
  unfold finishFrame at h
  dsimp only at h
  split at h
  · cases h
  · next hsome =>
    cases h
    refine ⟨rfl, fun hnone => ?_⟩
    cases hfin : (m.stream id).shouldSendFin with
    | true => rfl
    | false => exact absurd ⟨hnone, hfin⟩ hsome

/-- How a frame of a stream comes about: there is room for its header and for data. -/
theorem StreamsMap.exists_of_popFrame {m m' : StreamsMap E} {id maxBytes currentLen headerLen : ℕ}
    {blocked : List BlockedFrame} {frame : StreamFrame}
    (h : m.popFrame id maxBytes currentLen = (m', blocked, .frame frame headerLen)) :
    ∃ maxLen window finBit bytes, maxLen ≠ 0 ∧
      currentLen + (m.emptyFrame id).minLength + maxLen ≤ maxBytes ∧
      (m.takeData id maxLen).2.finishFrame id window (m.takeData id maxLen).1 =
        (m', blocked, some (finBit, bytes)) ∧
      frame = { m.emptyFrame id with finBit := finBit, data := bytes } ∧
      headerLen = (m.emptyFrame id).minLength := by
  unfold popFrame at h
  split at h
  · cases h
  · dsimp only at h
    split at h
    · cases h
    · next hroom =>
      generalize (if (m.stream id).lenOfDataForWriting ≠ 0 then
        (m.flowControlManager.sendWindowSize id).1 else 0) = window at h
      generalize hmax : (if (m.stream id).lenOfDataForWriting ≠ 0 then
        min (maxBytes - currentLen - (m.emptyFrame id).minLength) window
        else maxBytes - currentLen - (m.emptyFrame id).minLength) = maxLen at h
      have hle : maxLen ≤ maxBytes - currentLen - (m.emptyFrame id).minLength := by
        rw [← hmax]
        split
        · exact Nat.min_le_left _ _
        · exact le_rfl
      split at h
      · cases h
      · next hne =>
        split at h
        · cases h
        · next m₂ blocked' finBit bytes hfinish =>
          cases h
          exact ⟨maxLen, window, finBit, bytes, hne, by omega, hfinish, rfl, rfl⟩

/-- A frame of a stream fits in what is left, and has its data length. -/
theorem StreamsMap.popFrame_fit {m m' : StreamsMap E} {id maxBytes currentLen headerLen : ℕ}
    {blocked : List BlockedFrame} {frame : StreamFrame}
    (h : m.popFrame id maxBytes currentLen = (m', blocked, .frame frame headerLen)) :
    frame.dataLenPresent = true ∧ headerLen = frame.minLength ∧
      currentLen + frame.wireLen ≤ maxBytes := by
  obtain ⟨maxLen, window, finBit, bytes, -, hroom, hfinish, rfl, rfl⟩ := exists_of_popFrame h
  obtain ⟨rfl, -⟩ := eq_of_finishFrame hfinish
  have hdata : ((m.takeData id maxLen).1.getD []).length ≤ maxLen := length_takeData_le
  refine ⟨rfl, rfl, ?_⟩
  change currentLen + ((m.emptyFrame id).minLength + ((m.takeData id maxLen).1.getD []).length) ≤
    maxBytes
  omega

namespace StreamFramer

variable {f f' : StreamFramer E} {frames : List StreamFrame} {maxBytes maxLen : ℕ}

/-- The callback counts what its frames take. -/
theorem popRoundRobin_fit (h : f.popRoundRobin maxBytes = some (f', frames)) :
    Fit frames maxBytes := by
  obtain ⟨⟨⟨m, popped⟩, err⟩, hiterate, h⟩ := Option.bind_eq_some_iff.mp h
  cases h
  refine (StreamsMap.roundRobinIterate_rule
    (Q := fun p : StreamsMap E × Popped =>
      Fit p.2.res maxBytes ∧ p.2.currentLen = framesLen p.2.res)
    ?_ (fun _ _ hp => hp) ⟨Fit.nil _, rfl⟩ hiterate).1
  rintro ⟨m, popped⟩ id - ⟨hfit, hcount⟩
  unfold popFrom
  dsimp only
  split
  · exact ⟨hfit, hcount⟩
  · exact ⟨hfit, hcount⟩
  · next m' blocked frame headerLen heq =>
    obtain ⟨hpresent, rfl, hle⟩ := StreamsMap.popFrame_fit heq
    dsimp only at hfit hcount hle
    refine ⟨hfit.append (Fit.singleton hpresent (by omega)), ?_⟩
    simp only [framesLen_append, framesLen_cons, framesLen_nil, hcount, StreamFrame.wireLen]
    omega

theorem popScheduled_fit {sch : StreamScheduler}
    (h : f.popScheduled sch maxBytes = some (f', frames)) : Fit frames maxBytes := by
  obtain ⟨⟨strm, sch'⟩, -, h⟩ := Option.bind_eq_some_iff.mp h
  dsimp only at h
  split at h
  · cases h
    exact Fit.nil _
  · next id hid =>
    unfold StreamsMap.send at h
    split at h
    · next m' blocked frame headerLen heq =>
      cases h
      obtain ⟨hpresent, -, hle⟩ := StreamsMap.popFrame_fit heq
      rw [Nat.zero_add] at hle
      exact Fit.singleton hpresent hle
    · cases h
      exact Fit.nil _

/-- **The frames of `PopStreamFrames` fit in the bytes there are.** -/
theorem popStreamFrames_fit (h : f.popStreamFrames maxLen = some (f', frames)) :
    Fit frames maxLen := by
  obtain ⟨⟨f₂, res⟩, hnormal, h⟩ := Option.bind_eq_some_iff.mp h
  cases h
  obtain ⟨hfit, hcount⟩ := f.maybePopFramesForRetransmission_fit maxLen
  refine hfit.append ?_
  rw [hcount]
  unfold maybePopNormalFrames at hnormal
  split at hnormal
  · exact popRoundRobin_fit hnormal
  · exact popScheduled_fit hnormal

/-- The frame of the crypto stream fits, if there is room for its header. -/
theorem popCryptoStreamFrame_fit {frame : StreamFrame} (hmin : 15 ≤ maxLen) (hmax : maxLen < 2 ^ 64)
    (h : f.popCryptoStreamFrame maxLen = some (f', some frame)) : frame.wireLen ≤ maxLen := by
  obtain ⟨⟨f₁, has⟩, -, h⟩ := Option.bind_eq_some_iff.mp h
  dsimp only at h
  split at h
  · cases h
  · obtain ⟨⟨m, cs⟩, -, h⟩ := Option.bind_eq_some_iff.mp h
    obtain ⟨id, -, h⟩ := Option.bind_eq_some_iff.mp h
    cases h
    let empty : StreamFrame := ⟨1, false, false, (m.stream id).writeOffset, []⟩
    have hheader := empty.minLength_le
    have hroom : sub64 maxLen empty.minLength = maxLen - empty.minLength :=
      sub64_of_le (hheader.trans hmin) hmax
    have hdata := (m.stream id).length_getDataForWriting_getD_le (sub64 maxLen empty.minLength)
    change empty.minLength +
      (((m.stream id).getDataForWriting (sub64 maxLen empty.minLength)).1.getD []).length ≤ maxLen
    omega

end StreamFramer

end MultipathQuic
