import MultipathQuic.Stream.PoppedLength

/-!
# The retransmission queue of the framer

`maybePopFramesForRetransmission` takes frames off the queue, and splits the last one in place if it
does not fit. However often a frame is split, the pieces that are popped and what is left of the
queue stand for the same places of the streams, in the same order, and the FIN goes with the last
piece.

A queued frame is a value here, and its offset a natural number: the frames of a stream end below
`2 ^ 64`.

## Main definitions

* `items`, `Divides`: what frames carry, and how a queue of them is divided
* `popCalls`: successive calls

## Main results

* `retransmissionQueue_conserved`: nothing is lost, doubled or reordered
-/

namespace MultipathQuic

variable {E : Type}

/-! ## What frames carry -/

/-- What a STREAM frame carries for one place of a stream. -/
inductive StreamItem
  | byte (streamID offset : ℕ) (value : UInt8)
  | fin (streamID offset : ℕ)
  deriving DecidableEq

/-- The bytes of a frame. -/
def StreamFrame.bytes (frame : StreamFrame) : List StreamItem :=
  (frame.data.zipIdx frame.offset).map fun p => .byte frame.streamID p.2 p.1

/-- The bytes of a frame, and the end of the stream if it has the FIN bit. -/
def StreamFrame.items (frame : StreamFrame) : List StreamItem :=
  frame.bytes ++ if frame.finBit then [.fin frame.streamID (frame.offset + frame.dataLen)] else []

/-- What several frames carry, in their order. -/
def items (frames : List StreamFrame) : List StreamItem := frames.flatMap StreamFrame.items

@[simp] theorem items_nil : items [] = [] := rfl

@[simp] theorem items_cons (frame : StreamFrame) (frames : List StreamFrame) :
    items (frame :: frames) = frame.items ++ items frames :=
  List.flatMap_cons

@[simp] theorem items_append (frames frames' : List StreamFrame) :
    items (frames ++ frames') = items frames ++ items frames' :=
  List.flatMap_append

/-- A frame carries something. -/
def StreamFrame.CarriesItem (frame : StreamFrame) : Prop := frame.data ≠ [] ∨ frame.finBit = true

theorem StreamFrame.bytes_split (frame : StreamFrame) {n : ℕ} (hn : n ≤ frame.dataLen) :
    { frame with finBit := false, data := frame.data.take n }.bytes ++ (frame.cutHead n).bytes =
      frame.bytes := by
  have htake : (frame.data.take n).length = n := List.length_take_of_le hn
  have hzip : (frame.data.take n).zipIdx frame.offset ++
      (frame.data.drop n).zipIdx (frame.offset + n) = frame.data.zipIdx frame.offset := by
    conv_rhs => rw [← List.take_append_drop n frame.data, List.zipIdx_append, htake]
  unfold bytes
  rw [← hzip, List.map_append]
  rfl

/-- **The parts of a split frame carry what the frame carried**, and each carries something. -/
theorem items_split {frame splitFrame rest : StreamFrame} {n : ℕ} (hn : 0 < n)
    (h : maybeSplitOffFrame frame n = some (splitFrame, rest)) :
    splitFrame.items ++ rest.items = frame.items ∧ splitFrame.CarriesItem ∧ rest.CarriesItem := by
  unfold maybeSplitOffFrame at h
  split_ifs at h with hlong
  cases h
  have hlt : n < frame.data.length := Nat.lt_of_not_ge hlong
  refine ⟨?_, Or.inl ?_, Or.inl ?_⟩
  · -- the FIN is where it was: the second part ends where the frame ended
    have hend : frame.offset + n + (frame.dataLen - n) = frame.offset + frame.dataLen := by
      omega
    have hrest : (frame.cutHead n).items = (frame.cutHead n).bytes ++
        if frame.finBit then [.fin frame.streamID (frame.offset + frame.dataLen)] else [] := by
      rw [StreamFrame.items, StreamFrame.offset_cutHead, StreamFrame.dataLen_cutHead, hend]
      rfl
    rw [hrest, ← List.append_assoc, StreamFrame.items, if_neg Bool.false_ne_true, List.append_nil,
      frame.bytes_split (le_of_lt hlt)]
    rfl
  · intro hnil
    rcases List.take_eq_nil_iff.mp hnil with hzero | hempty
    · exact Nat.ne_of_gt hn hzero
    · rw [hempty] at hlt
      exact absurd hlt (Nat.not_lt_zero n)
  · intro hnil
    exact absurd (List.drop_eq_nil_iff.mp hnil) (Nat.not_le_of_lt hlt)

/-- A queue of frames is divided into those that are popped and those that are left. -/
structure Divides (queue popped left : List StreamFrame) : Prop where
  items_eq : items popped ++ items left = items queue
  popped_carry : ∀ frame ∈ popped, frame.CarriesItem
  left_carry : ∀ frame ∈ left, frame.CarriesItem

namespace Divides

variable {queue popped left popped' left' : List StreamFrame} {frame : StreamFrame}

/-- Nothing is popped. -/
theorem refl (h : ∀ frame ∈ queue, frame.CarriesItem) : Divides queue [] queue :=
  ⟨rfl, fun _ hframe => absurd hframe List.not_mem_nil, h⟩

/-- The first frame is popped. -/
theorem cons (hframe : frame.CarriesItem) (h : Divides queue popped left) :
    Divides (frame :: queue) (frame :: popped) left where
  items_eq := by rw [items_cons, items_cons, List.append_assoc, h.items_eq]
  popped_carry := List.forall_mem_cons.mpr ⟨hframe, h.popped_carry⟩
  left_carry := h.left_carry

/-- The first part of the first frame is popped. -/
theorem split {n : ℕ} {splitFrame rest : StreamFrame} (hn : 0 < n)
    (hsplit : maybeSplitOffFrame frame n = some (splitFrame, rest))
    (h : ∀ frame ∈ queue, frame.CarriesItem) :
    Divides (frame :: queue) [splitFrame] (rest :: queue) := by
  obtain ⟨hitems, hfirst, hrest⟩ := items_split hn hsplit
  refine ⟨?_, List.forall_mem_singleton.mpr hfirst, List.forall_mem_cons.mpr ⟨hrest, h⟩⟩
  rw [items_cons, items_cons, items_cons, items_nil, List.append_nil, ← List.append_assoc, hitems]

/-- What is left is divided again. -/
theorem trans (h : Divides queue popped left) (h' : Divides left popped' left') :
    Divides queue (popped ++ popped') left' where
  items_eq := by rw [items_append, List.append_assoc, h'.items_eq, h.items_eq]
  popped_carry frame hframe := by
    rcases List.mem_append.mp hframe with hframe | hframe
    · exact h.popped_carry frame hframe
    · exact h'.popped_carry frame hframe
  left_carry := h'.left_carry

end Divides

/-! ## One call -/

namespace StreamsMap

variable {m m' : StreamsMap E} {id maxLen : ℕ}

/-- If there is room for data, no data means that there is none, and not an empty slice. -/
theorem takeData_ne_nil (h : maxLen ≠ 0) : (m.takeData id maxLen).1 ≠ some [] := by
  intro hnil
  unfold takeData at hnil
  split at hnil
  · next hdata =>
    obtain ⟨data, htake, hlen⟩ := Stream.getDataForWriting_of_lenOfDataForWriting hdata maxLen
    rw [htake] at hnil
    cases hnil
    simp only [List.length_nil] at hlen
    omega
  · cases hnil

/-- A new frame carries something: data, or else the FIN. -/
theorem carriesItem_of_popFrame {maxBytes currentLen headerLen : ℕ} {blocked : List BlockedFrame}
    {frame : StreamFrame}
    (h : m.popFrame id maxBytes currentLen = (m', blocked, .frame frame headerLen)) :
    frame.CarriesItem := by
  obtain ⟨maxLen, window, finBit, bytes, hroom, -, hfinish, rfl, -⟩ := exists_of_popFrame h
  obtain ⟨rfl, hfin⟩ := eq_of_finishFrame hfinish
  have hne : (m.takeData id maxLen).1 ≠ some [] := takeData_ne_nil hroom
  cases hdata : (m.takeData id maxLen).1 with
  | none => exact Or.inr (hfin hdata)
  | some data =>
    left
    rw [hdata] at hne
    exact fun hnil => hne (congrArg some hnil)

end StreamsMap

namespace StreamFramer

/-- The loop divides the queue. -/
theorem divides_popRetransmissions (maxLen : ℕ) (queue : List StreamFrame) (currentLen : ℕ)
    (m : StreamsMap E) (hqueue : ∀ frame ∈ queue, frame.CarriesItem) :
    Divides queue (popRetransmissions maxLen queue currentLen m).2.1
      (popRetransmissions maxLen queue currentLen m).2.2.2 := by
  induction queue generalizing currentLen m with
  | nil => exact Divides.refl hqueue
  | cons frame queue ih =>
    obtain ⟨hframe, hrest⟩ := List.forall_mem_cons.mp hqueue
    rw [popRetransmissions]
    dsimp only
    -- from now on the frame has its data length, which changes nothing of what it carries
    set frame' : StreamFrame := { frame with dataLenPresent := true }
    have hframe' : frame'.CarriesItem := hframe
    suffices hdivides : Divides (frame' :: queue) _ _ from
      ⟨hdivides.items_eq, hdivides.popped_carry, hdivides.left_carry⟩
    split
    · exact Divides.refl (List.forall_mem_cons.mpr ⟨hframe', hrest⟩)
    · next hroom =>
      split
      · next splitFrame rest hsplit => exact Divides.split (by omega) hsplit hrest
      · exact (ih _ _ hrest).cons hframe'

section NewData

variable {f f' : StreamFramer E} {frames : List StreamFrame} {maxBytes maxLen : ℕ}

theorem carriesItem_of_popRoundRobin (h : f.popRoundRobin maxBytes = some (f', frames)) :
    f'.retransmissionQueue = f.retransmissionQueue ∧ ∀ frame ∈ frames, frame.CarriesItem := by
  obtain ⟨⟨⟨m, popped⟩, err⟩, hiterate, h⟩ := Option.bind_eq_some_iff.mp h
  cases h
  refine ⟨rfl, StreamsMap.roundRobinIterate_rule
    (Q := fun p : StreamsMap E × Popped => ∀ frame ∈ p.2.res, frame.CarriesItem)
    ?_ (fun _ _ hp => hp) (fun _ hframe => absurd hframe List.not_mem_nil) hiterate⟩
  rintro ⟨m, popped⟩ id - hcarry
  unfold popFrom
  dsimp only
  split
  · exact hcarry
  · exact hcarry
  · next m' blocked frame headerLen heq =>
    intro x hx
    rcases List.mem_append.mp hx with hx | hx
    · exact hcarry x hx
    · cases List.mem_singleton.mp hx
      exact StreamsMap.carriesItem_of_popFrame heq

theorem carriesItem_of_popScheduled {sch : StreamScheduler}
    (h : f.popScheduled sch maxBytes = some (f', frames)) :
    f'.retransmissionQueue = f.retransmissionQueue ∧ ∀ frame ∈ frames, frame.CarriesItem := by
  obtain ⟨⟨strm, sch'⟩, -, h⟩ := Option.bind_eq_some_iff.mp h
  dsimp only at h
  have hnil : ∀ frame ∈ ([] : List StreamFrame), frame.CarriesItem :=
    fun _ hframe => absurd hframe List.not_mem_nil
  split at h
  · cases h
    exact ⟨rfl, hnil⟩
  · unfold StreamsMap.send at h
    split at h
    · next m' blocked frame headerLen heq =>
      cases h
      exact ⟨rfl, List.forall_mem_singleton.mpr (StreamsMap.carriesItem_of_popFrame heq)⟩
    · cases h
      exact ⟨rfl, hnil⟩

/-- New data leaves the queue alone. -/
theorem carriesItem_of_maybePopNormalFrames
    (h : f.maybePopNormalFrames maxBytes = some (f', frames)) :
    f'.retransmissionQueue = f.retransmissionQueue ∧ ∀ frame ∈ frames, frame.CarriesItem := by
  unfold maybePopNormalFrames at h
  split at h
  · exact carriesItem_of_popRoundRobin h
  · exact carriesItem_of_popScheduled h

/-- One call: the queue is divided, and new frames follow the retransmitted ones. -/
theorem divides_popStreamFrames (hqueue : ∀ frame ∈ f.retransmissionQueue, frame.CarriesItem)
    (h : f.popStreamFrames maxLen = some (f', frames)) :
    Divides f.retransmissionQueue (f.maybePopFramesForRetransmission maxLen).2.1
        f'.retransmissionQueue ∧
      (f.maybePopFramesForRetransmission maxLen).2.1 <+: frames ∧
      ∀ frame ∈ frames, frame.CarriesItem := by
  obtain ⟨⟨f₂, res⟩, hnormal, h⟩ := Option.bind_eq_some_iff.mp h
  cases h
  have hdivides : Divides f.retransmissionQueue (f.maybePopFramesForRetransmission maxLen).2.1
      (f.maybePopFramesForRetransmission maxLen).1.retransmissionQueue :=
    divides_popRetransmissions maxLen f.retransmissionQueue 0 f.streamsMap hqueue
  obtain ⟨hkept, hcarry⟩ := carriesItem_of_maybePopNormalFrames hnormal
  rw [hkept]
  refine ⟨hdivides, List.prefix_append _ _, fun frame hframe => ?_⟩
  rcases List.mem_append.mp hframe with hframe | hframe
  · exact hdivides.popped_carry frame hframe
  · exact hcarry frame hframe

end NewData

/-! ## Successive calls -/

/-- What a call of `PopStreamFrames` has returned. -/
structure PopCall where
  maxLen : ℕ
  frames : List StreamFrame
  /-- The first of the frames, which are those of `maybePopFramesForRetransmission`. -/
  retransmitted : List StreamFrame
  deriving DecidableEq

/-- A call of `PopStreamFrames`. -/
def popCall (f : StreamFramer E) (maxLen : ℕ) : Option (StreamFramer E × PopCall) := do
  let (f', frames) ← f.popStreamFrames maxLen
  some (f', ⟨maxLen, frames, (f.maybePopFramesForRetransmission maxLen).2.1⟩)

/-- Successive calls of `PopStreamFrames`, with the streams as each call finds them. -/
def popCalls : List (StreamsMap E × ℕ) → StreamFramer E → Option (StreamFramer E × List PopCall)
  | [], f => some (f, [])
  | (m, maxLen) :: calls, f => do
    let (f, popped) ← { f with streamsMap := m }.popCall maxLen
    let (f, rest) ← popCalls calls f
    some (f, popped :: rest)

/-- What one call returns: frames that fit and all carry something, the retransmitted ones
first. -/
structure PopCall.Sound (call : PopCall) : Prop where
  retransmitted_prefix : call.retransmitted <+: call.frames
  carry : ∀ frame ∈ call.frames, frame.CarriesItem
  framesLen_le : framesLen call.frames ≤ call.maxLen

theorem divides_popCall {f f' : StreamFramer E} {maxLen : ℕ} {call : PopCall}
    (hqueue : ∀ frame ∈ f.retransmissionQueue, frame.CarriesItem)
    (h : f.popCall maxLen = some (f', call)) :
    Divides f.retransmissionQueue call.retransmitted f'.retransmissionQueue ∧ call.Sound := by
  obtain ⟨⟨f₁, frames⟩, hpop, h⟩ := Option.bind_eq_some_iff.mp h
  cases h
  obtain ⟨hdivides, hprefix, hcarry⟩ := divides_popStreamFrames hqueue hpop
  exact ⟨hdivides, hprefix, hcarry, (popStreamFrames_fit hpop).le⟩

theorem divides_popCalls {f f' : StreamFramer E} {sizes : List (StreamsMap E × ℕ)}
    {calls : List PopCall} (hqueue : ∀ frame ∈ f.retransmissionQueue, frame.CarriesItem)
    (h : popCalls sizes f = some (f', calls)) :
    Divides f.retransmissionQueue (calls.flatMap PopCall.retransmitted) f'.retransmissionQueue ∧
      ∀ call ∈ calls, call.Sound := by
  induction sizes generalizing f calls with
  | nil =>
    cases h
    exact ⟨Divides.refl hqueue, fun _ hcall => absurd hcall List.not_mem_nil⟩
  | cons size sizes ih =>
    obtain ⟨⟨f₁, call⟩, hcall, h⟩ := Option.bind_eq_some_iff.mp h
    obtain ⟨⟨f₂, rest⟩, hrest, h⟩ := Option.bind_eq_some_iff.mp h
    cases h
    obtain ⟨hfirst, hsound⟩ := divides_popCall (f := { f with streamsMap := size.1 }) hqueue hcall
    obtain ⟨hdivides, hsounds⟩ := ih hfirst.left_carry hrest
    exact ⟨hfirst.trans hdivides, List.forall_mem_cons.mpr ⟨hsound, hsounds⟩⟩

/-- **The retransmission queue is conserved.** After any calls of `PopStreamFrames`, the frames that
were retransmitted and those that are left carry what the queue carried, in its order. All frames of
a call carry something, and with the new ones they fit. -/
theorem retransmissionQueue_conserved {f f' : StreamFramer E} {sizes : List (StreamsMap E × ℕ)}
    {calls : List PopCall}
    (hqueue : ∀ frame ∈ f.retransmissionQueue, frame.data ≠ [] ∨ frame.finBit = true)
    (h : popCalls sizes f = some (f', calls)) :
    items (calls.flatMap PopCall.retransmitted ++ f'.retransmissionQueue) =
        items f.retransmissionQueue ∧
      ∀ call ∈ calls, call.retransmitted <+: call.frames ∧
        (∀ frame ∈ call.frames, frame.data ≠ [] ∨ frame.finBit = true) ∧
        framesLen call.frames ≤ call.maxLen := by
  obtain ⟨hdivides, hsound⟩ := divides_popCalls hqueue h
  refine ⟨(items_append _ _).trans hdivides.items_eq, fun call hcall => ?_⟩
  obtain ⟨hretransmitted, hcarry, hlen⟩ := hsound call hcall
  exact ⟨hretransmitted, hcarry, hlen⟩

/-- A client that has data for stream 5, and retransmits the end of stream 3. -/
def retransmittingFramer : StreamFramer Unit :=
  let m := newStreamsMap Unit .client ⟨8, 10, 8, 10, 8, 10, 4, 4⟩ none
  let m := m.openStream.1.openStream.1.openStream.1
  { newStreamFramer (m.modifyStream 5 fun s => (s.write [7, 8, 9]).1) with
    retransmissionQueue := [⟨3, true, false, 0, [1, 2, 3, 4, 5]⟩] }

/-- The frame of stream 3 is split twice, and its last piece leaves room for new data. -/
theorem retransmissionQueue_conserved_retransmittingFramer :
    ∃ f' calls,
      popCalls [(retransmittingFramer.streamsMap, 7), (retransmittingFramer.streamsMap, 7),
        (retransmittingFramer.streamsMap, 30)] retransmittingFramer = some (f', calls) ∧
      calls.map PopCall.frames =
        [[⟨3, false, true, 0, [1, 2, 3]⟩], [⟨3, false, true, 3, [4]⟩],
          [⟨3, true, true, 4, [5]⟩, ⟨5, false, true, 0, [7, 8, 9]⟩]] ∧
      items (calls.flatMap PopCall.retransmitted ++ f'.retransmissionQueue) =
        items retransmittingFramer.retransmissionQueue := by
  have hrun : (popCalls [(retransmittingFramer.streamsMap, 7), (retransmittingFramer.streamsMap, 7),
      (retransmittingFramer.streamsMap, 30)] retransmittingFramer).map
        (fun p => p.2.map PopCall.frames) =
      some [[⟨3, false, true, 0, [1, 2, 3]⟩], [⟨3, false, true, 3, [4]⟩],
        [⟨3, true, true, 4, [5]⟩, ⟨5, false, true, 0, [7, 8, 9]⟩]] := by decide +kernel
  obtain ⟨⟨f', calls⟩, hcalls, hframes⟩ := Option.map_eq_some_iff.mp hrun
  have hqueue : ∀ frame ∈ retransmittingFramer.retransmissionQueue,
      frame.data ≠ [] ∨ frame.finBit = true := by decide +kernel
  exact ⟨f', calls, hcalls, hframes, (retransmissionQueue_conserved hqueue hcalls).1⟩

end StreamFramer

end MultipathQuic
