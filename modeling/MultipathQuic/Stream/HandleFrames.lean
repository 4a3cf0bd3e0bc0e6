import MultipathQuic.Stream.StreamsMap

/-!
# Frames from the peer

How `session.go` handles the frames that concern streams. A handler returns an error or nothing; it
has no result if `GetOrOpenStream` does not return.
-/

namespace MultipathQuic

open Function

/-- The errors of the handlers, with their causes. -/
inductive HandleError
  | streamsMap (err : StreamsMapError)
  | stream (err : Stream.FrameError)
  | flowControl (err : FlowControlError)
  | rstStreamOnInvalidStream
  | windowUpdateOnClosedStream
  deriving DecidableEq

/-- The text of an error. -/
def HandleError.text : HandleError → String
  | .streamsMap err => err.text
  | .stream (.flowControl err) => err.text
  | .stream (.sorter err) => err.text
  | .flowControl err => err.text
  | .rstStreamOnInvalidStream => "RST_STREAM received for unknown stream"
  | .windowUpdateOnClosedStream => "WINDOW_UPDATE received for an already closed stream"

namespace StreamsMap

variable {E : Type} (m : StreamsMap E)

/-- `session.handleStreamFrame`. A frame on a stream that was removed is ignored. -/
def handleStreamFrame (frame : StreamFrame) : Option (StreamsMap E × Option HandleError) := do
  let (m, r) ← m.getOrOpenStream frame.streamID
  match r with
  | .error err => some (m, some (.streamsMap err))
  | .ok none => some (m, none)
  | .ok (some id) =>
    let (s, fc, err) := (m.stream id).addStreamFrame m.flowControlManager frame
    some ({ m with stream := update m.stream id s, flowControlManager := fc }, err.map .stream)

/-- `session.handleRstStreamFrame`, with the RST_STREAM frame that answers it. `remoteError` is the
error that the stream gets for an error code. -/
def handleRstStreamFrame (remoteError : ℕ → E) (frame : RstStreamFrame) :
    Option (StreamsMap E × Option RstStreamFrame × Option HandleError) := do
  let (m, r) ← m.getOrOpenStream frame.streamID
  match r with
  | .error err => some (m, none, some (.streamsMap err))
  | .ok none => some (m, none, some .rstStreamOnInvalidStream)
  | .ok (some id) =>
    let (s, rst) := (m.stream id).registerRemoteError (remoteError frame.errorCode)
    let (fc, err) := m.flowControlManager.resetStream frame.streamID frame.byteOffset
    some ({ m with stream := update m.stream id s, flowControlManager := fc }, rst,
      err.map .flowControl)

/-- `UpdateWindow` of `session.handleWindowUpdateFrame`. -/
def updateWindow (frame : WindowUpdateFrame) : StreamsMap E × Option HandleError :=
  let (fc, _, err) := m.flowControlManager.updateWindow frame.streamID frame.byteOffset
  ({ m with flowControlManager := fc }, err.map .flowControl)

/-- `session.handleWindowUpdateFrame`. Stream 0 stands for the connection. -/
def handleWindowUpdateFrame (frame : WindowUpdateFrame) :
    Option (StreamsMap E × Option HandleError) :=
  if frame.streamID ≠ 0 then do
    let (m, r) ← m.getOrOpenStream frame.streamID
    match r with
    | .error err => some (m, some (.streamsMap err))
    | .ok none => some (m, some .windowUpdateOnClosedStream)
    | .ok (some _) => some (m.updateWindow frame)
  else some (m.updateWindow frame)

end StreamsMap

/-- The window that a frame on a stream meets, whether the stream is open or is to be opened. -/
def FlowControlManager.windowOf (m : FlowControlManager) (id : ℕ) : ℕ :=
  match m.streamFlowController id with
  | some c => c.receiveWindow
  | none => (newFlowController id true m.connectionParameters).receiveWindow

theorem FlowControlManager.windowOf_newStream (m : FlowControlManager) (id : ℕ)
    (contributes : Bool) : (m.newStream id contributes).windowOf = m.windowOf := by
  unfold FlowControlManager.newStream
  split
  · rfl
  · next hnone =>
    funext id'
    unfold windowOf FlowControlManager.setController
    dsimp only
    by_cases hid : id' = id
    · rw [hid, update_self, hnone]
      rfl
    · rw [update_of_ne hid]

namespace StreamsMap

variable {E : Type} {m m' : StreamsMap E} {id : ℕ}

/-- A stream that `GetOrOpenStream` returns is the one asked for, and it is in the map. -/
theorem of_getOrOpenStream {sid : ℕ} (h : m.getOrOpenStream id = some (m', .ok (some sid))) :
    sid = id ∧ id ∈ m'.streams := by
  unfold getOrOpenStream at h
  split_ifs at h with hmem
  · cases h
    exact ⟨rfl, hmem⟩
  · cases hrefuses : m.refuses id with
    | some refusal =>
      rw [hrefuses] at h
      cases refusal <;> cases h
    | none =>
      rw [hrefuses] at h
      obtain ⟨⟨m₁, err⟩, -, h⟩ := Option.bind_eq_some_iff.mp h
      cases err with
      | some err => cases h
      | none =>
        simp only [Option.some.injEq, Prod.mk.injEq, Except.ok.injEq] at h
        obtain ⟨rfl, hlookup⟩ := h
        unfold lookup at hlookup
        split_ifs at hlookup with hmem'
        cases hlookup
        exact ⟨rfl, hmem'⟩

theorem eq_of_getOrOpenStream {sid : ℕ} (h : m.getOrOpenStream id = some (m', .ok (some sid))) :
    sid = id :=
  (of_getOrOpenStream h).1

theorem mem_of_getOrOpenStream {sid : ℕ} (h : m.getOrOpenStream id = some (m', .ok (some sid))) :
    sid ∈ m'.streams := by
  obtain ⟨rfl, hmem⟩ := of_getOrOpenStream h
  exact hmem

/-- Opening streams leaves the windows of the streams alone. -/
theorem windowOf_getOrOpenStream {r : Except StreamsMapError (Option ℕ)}
    (h : m.getOrOpenStream id = some (m', r)) :
    m'.flowControlManager.windowOf = m.flowControlManager.windowOf := by
  have hrule : OpenRule fun m' : StreamsMap E =>
      m'.flowControlManager.windowOf = m.flowControlManager.windowOf := {
    put := fun m₁ id h => by
      have hput : (m₁.putStream id).flowControlManager =
          m₁.flowControlManager.newStream id (!(id == 1 || id == 3)) := by
        unfold putStream
        dsimp only
        split <;> rfl
      rw [hput, FlowControlManager.windowOf_newStream]
      exact h
    counters := fun _ _ _ _ _ h => h }
  exact hrule.getOrOpenStream rfl h

variable {P : StreamsMap E → Prop}

/-- What opening streams preserves holds after a STREAM frame was handled, if it holds after the
frame was added to its stream. -/
theorem handleStreamFrame_rule (hP : OpenRule P) (hm : P m) {frame : StreamFrame}
    {err : Option HandleError} (h : m.handleStreamFrame frame = some (m', err))
    (hadd : ∀ m₁, P m₁ → m₁.flowControlManager.windowOf = m.flowControlManager.windowOf →
      P { m₁ with
        stream := update m₁.stream frame.streamID
          ((m₁.stream frame.streamID).addStreamFrame m₁.flowControlManager frame).1
        flowControlManager :=
          ((m₁.stream frame.streamID).addStreamFrame m₁.flowControlManager frame).2.1 }) :
    P m' := by
  obtain ⟨⟨m₁, r⟩, hopen, h⟩ := Option.bind_eq_some_iff.mp h
  have hm₁ := hP.getOrOpenStream hm hopen
  match r, hopen, h with
  | .error err, _, h =>
    cases h
    exact hm₁
  | .ok none, _, h =>
    cases h
    exact hm₁
  | .ok (some id), hopen, h =>
    cases eq_of_getOrOpenStream hopen
    cases h
    exact hadd m₁ hm₁ (windowOf_getOrOpenStream hopen)

/-- What opening streams preserves holds after a RST_STREAM frame was handled, if it holds after the
stream was reset. -/
theorem handleRstStreamFrame_rule (hP : OpenRule P) (hm : P m) {remoteError : ℕ → E}
    {frame : RstStreamFrame} {rst : Option RstStreamFrame} {err : Option HandleError}
    (h : m.handleRstStreamFrame remoteError frame = some (m', rst, err))
    (hreset : ∀ m₁, P m₁ → m₁.flowControlManager.windowOf = m.flowControlManager.windowOf →
      P { m₁ with
        stream := update m₁.stream frame.streamID
          ((m₁.stream frame.streamID).registerRemoteError (remoteError frame.errorCode)).1
        flowControlManager :=
          (m₁.flowControlManager.resetStream frame.streamID frame.byteOffset).1 }) :
    P m' := by
  obtain ⟨⟨m₁, r⟩, hopen, h⟩ := Option.bind_eq_some_iff.mp h
  have hm₁ := hP.getOrOpenStream hm hopen
  match r, hopen, h with
  | .error err, _, h =>
    cases h
    exact hm₁
  | .ok none, _, h =>
    cases h
    exact hm₁
  | .ok (some id), hopen, h =>
    cases eq_of_getOrOpenStream hopen
    cases h
    exact hreset m₁ hm₁ (windowOf_getOrOpenStream hopen)

end StreamsMap

end MultipathQuic
