import Mathlib.Logic.Function.Basic
import MultipathQuic.Protocol

/-!
# Flow control

`internal/flowcontrol`: a flow controller counts the bytes of one stream, or of the connection, in
both directions, and the manager keeps one of them for each stream and one for the connection. The
controller of the connection has the stream ID 0.

The clock and the round-trip times are inputs of the steps that read them. A point in time is an
integer, and `none` is the zero `time.Time`.

## Main definitions

* `FlowController`, `FlowControlManager`: the two levels
* `sendWindowSize`, `updateWindow`: sending
* `updateHighestReceived`, `addBytesRead`, `getWindowUpdates`: receiving
-/

namespace MultipathQuic

/-- What is read from the `ConnectionParametersManager`. -/
structure ConnectionParameters where
  sendStreamFlowControlWindow : UInt64
  sendConnectionFlowControlWindow : UInt64
  receiveStreamFlowControlWindow : UInt64
  receiveConnectionFlowControlWindow : UInt64
  maxReceiveStreamFlowControlWindow : UInt64
  maxReceiveConnectionFlowControlWindow : UInt64
  maxOutgoingStreams : UInt32
  maxIncomingStreams : UInt32
  deriving DecidableEq, Repr

/-- `flowController`. -/
structure FlowController where
  streamID : ℕ
  contributesToConnection : Bool
  bytesSent : ℕ
  sendWindow : ℕ
  bytesRetrans : ℕ
  lastWindowUpdateTime : Option ℤ
  bytesRead : ℕ
  highestReceived : ℕ
  receiveWindow : ℕ
  receiveWindowIncrement : ℕ
  maxReceiveWindowIncrement : ℕ
  deriving DecidableEq, Repr

/-- `newFlowController`. -/
def newFlowController (streamID : ℕ) (contributesToConnection : Bool)
    (params : ConnectionParameters) : FlowController where
  streamID := streamID
  contributesToConnection := contributesToConnection
  bytesSent := 0
  sendWindow := 0
  bytesRetrans := 0
  lastWindowUpdateTime := none
  bytesRead := 0
  highestReceived := 0
  receiveWindow :=
    if streamID = 0 then params.receiveConnectionFlowControlWindow.toNat
    else params.receiveStreamFlowControlWindow.toNat
  receiveWindowIncrement :=
    if streamID = 0 then params.receiveConnectionFlowControlWindow.toNat
    else params.receiveStreamFlowControlWindow.toNat
  maxReceiveWindowIncrement :=
    if streamID = 0 then params.maxReceiveConnectionFlowControlWindow.toNat
    else params.maxReceiveStreamFlowControlWindow.toNat

namespace FlowController

/-! ## Sending -/

/-- The window a controller starts with. -/
def initialSendWindow (c : FlowController) (params : ConnectionParameters) : ℕ :=
  if c.streamID = 0 then params.sendConnectionFlowControlWindow.toNat
  else params.sendStreamFlowControlWindow.toNat

/-- `getSendWindow`. A window of 0 stands for one that has never been updated. -/
def getSendWindow (c : FlowController) (params : ConnectionParameters) : ℕ :=
  if c.sendWindow = 0 then c.initialSendWindow params else c.sendWindow

/-- `AddBytesSent`. -/
def addBytesSent (c : FlowController) (n : ℕ) : FlowController :=
  { c with bytesSent := add64 c.bytesSent n }

/-- `AddBytesRetrans`. -/
def addBytesRetrans (c : FlowController) (n : ℕ) : FlowController :=
  { c with bytesRetrans := add64 c.bytesRetrans n }

/-- `UpdateSendWindow`. -/
def updateSendWindow (c : FlowController) (newOffset : ℕ) : FlowController × Bool :=
  if newOffset > c.sendWindow then ({ c with sendWindow := newOffset }, true) else (c, false)

/-- `SendWindowSize`. -/
def sendWindowSize (c : FlowController) (params : ConnectionParameters) : ℕ :=
  let sendWindow := c.getSendWindow params
  if c.bytesSent > sendWindow then 0 else sendWindow - c.bytesSent

/-! ## Receiving -/

/-- `UpdateHighestReceived`: the increment, unless the offset is smaller than one before. -/
def updateHighestReceived (c : FlowController) (byteOffset : ℕ) : FlowController × Option ℕ :=
  if byteOffset = c.highestReceived then (c, some 0)
  else if byteOffset > c.highestReceived then
    ({ c with highestReceived := byteOffset }, some (byteOffset - c.highestReceived))
  else (c, none)

/-- `IncrementHighestReceived`. -/
def incrementHighestReceived (c : FlowController) (increment : ℕ) : FlowController :=
  { c with highestReceived := add64 c.highestReceived increment }

/-- `AddBytesRead`, at the time `now`. -/
def addBytesRead (c : FlowController) (now : ℤ) (n : ℕ) : FlowController :=
  { c with
    lastWindowUpdateTime := if c.bytesRead = 0 then some now else c.lastWindowUpdateTime
    bytesRead := add64 c.bytesRead n }

/-- `maybeAdjustWindowIncrement`. `remoteRTTs` are the values of the map of that name. -/
def maybeAdjustWindowIncrement (c : FlowController) (now rtt : ℤ) (remoteRTTs : List ℤ) :
    FlowController :=
  match c.lastWindowUpdateTime with
  | none => c
  | some last =>
    if rtt = 0 then c
    else if now - last ≥ 2 * max rtt (remoteRTTs.foldl max 0) then c
    else
      { c with
        receiveWindowIncrement :=
          min (mul64 2 c.receiveWindowIncrement) c.maxReceiveWindowIncrement }

/-- `MaybeUpdateWindow`: whether an update is due, the new increment (0 if it has not changed), and
the offset of the window. -/
def maybeUpdateWindow (c : FlowController) (now rtt : ℤ) (remoteRTTs : List ℤ) :
    FlowController × Bool × ℕ × ℕ :=
  let diff := sub64 c.receiveWindow c.bytesRead
  if diff < c.receiveWindowIncrement / 2 then
    let oldWindowIncrement := c.receiveWindowIncrement
    let c := c.maybeAdjustWindowIncrement now rtt remoteRTTs
    let newWindowIncrement :=
      if c.receiveWindowIncrement ≠ oldWindowIncrement then c.receiveWindowIncrement else 0
    let c := { c with
      lastWindowUpdateTime := some now
      receiveWindow := add64 c.bytesRead c.receiveWindowIncrement }
    (c, true, newWindowIncrement, c.receiveWindow)
  else (c, false, c.receiveWindowIncrement, c.receiveWindow)

/-- `EnsureMinimumWindowIncrement`. -/
def ensureMinimumWindowIncrement (c : FlowController) (inc : ℕ) : FlowController :=
  if inc > c.receiveWindowIncrement then
    { c with
      receiveWindowIncrement := min inc c.maxReceiveWindowIncrement
      lastWindowUpdateTime := none }
  else c

/-- `CheckFlowControlViolation`. -/
def checkFlowControlViolation (c : FlowController) : Bool := c.highestReceived > c.receiveWindow

/-! ## What an update of the window changes -/

section Update

variable (c : FlowController) (now rtt : ℤ) (remoteRTTs : List ℤ)

/-- Tuning leaves the increment or doubles it, up to its maximum. -/
theorem exists_maybeAdjustWindowIncrement_eq :
    ∃ inc, c.maybeAdjustWindowIncrement now rtt remoteRTTs = { c with receiveWindowIncrement := inc } ∧
      (inc = c.receiveWindowIncrement ∨
        inc = min (mul64 2 c.receiveWindowIncrement) c.maxReceiveWindowIncrement) := by
  unfold maybeAdjustWindowIncrement
  split
  · exact ⟨_, rfl, Or.inl rfl⟩
  · split_ifs
    · exact ⟨_, rfl, Or.inl rfl⟩
    · exact ⟨_, rfl, Or.inl rfl⟩
    · exact ⟨_, rfl, Or.inr rfl⟩

/-- An update is not due, or the window is moved to the increment after what was read. -/
theorem maybeUpdateWindow_cases :
    ¬ sub64 c.receiveWindow c.bytesRead < c.receiveWindowIncrement / 2 ∧
        c.maybeUpdateWindow now rtt remoteRTTs =
          (c, false, c.receiveWindowIncrement, c.receiveWindow) ∨
      sub64 c.receiveWindow c.bytesRead < c.receiveWindowIncrement / 2 ∧
        ∃ inc, inc = (c.maybeAdjustWindowIncrement now rtt remoteRTTs).receiveWindowIncrement ∧
          c.maybeUpdateWindow now rtt remoteRTTs =
            ({ c with
              receiveWindowIncrement := inc
              lastWindowUpdateTime := some now
              receiveWindow := add64 c.bytesRead inc },
              true, if inc ≠ c.receiveWindowIncrement then inc else 0, add64 c.bytesRead inc) := by
  unfold maybeUpdateWindow
  by_cases hdue : sub64 c.receiveWindow c.bytesRead < c.receiveWindowIncrement / 2
  · refine Or.inr ⟨hdue, _, rfl, ?_⟩
    obtain ⟨inc, heq, -⟩ := c.exists_maybeAdjustWindowIncrement_eq now rtt remoteRTTs
    rw [if_pos hdue, heq]
  · exact Or.inl ⟨hdue, if_neg hdue⟩

variable {β : Type} {part : FlowController → β}

/-- `part` is not about what an update of the window changes. -/
def Untuned (part : FlowController → β) : Prop :=
  ∀ c inc window time, part { c with
    receiveWindowIncrement := inc, receiveWindow := window, lastWindowUpdateTime := time } = part c

theorem Untuned.maybeUpdateWindow (hpart : Untuned part) :
    part (c.maybeUpdateWindow now rtt remoteRTTs).1 = part c := by
  obtain ⟨-, heq⟩ | ⟨-, inc, -, heq⟩ := c.maybeUpdateWindow_cases now rtt remoteRTTs
  · rw [heq]
  · rw [heq]
    exact hpart c _ _ _

theorem Untuned.ensureMinimumWindowIncrement (hpart : Untuned part) (inc : ℕ) :
    part (c.ensureMinimumWindowIncrement inc) = part c := by
  unfold FlowController.ensureMinimumWindowIncrement
  split_ifs
  · exact hpart c _ _ _
  · rfl

end Update

end FlowController

/-- `flowControlManager`. -/
structure FlowControlManager where
  connectionParameters : ConnectionParameters
  streamFlowController : ℕ → Option FlowController
  connFlowController : FlowController

/-- `NewFlowControlManager`. -/
def newFlowControlManager (params : ConnectionParameters) : FlowControlManager where
  connectionParameters := params
  streamFlowController := fun _ => none
  connFlowController := newFlowController 0 false params

/-- The errors of flow control. -/
inductive FlowControlError
  | mapAccess
  | streamDataAfterTermination
  | receivedTooMuchDataOnStream (byteOffset streamID receiveWindow : ℕ)
  | receivedTooMuchData (highestReceived receiveWindow : ℕ)
  deriving DecidableEq, Repr

/-- The text of an error. -/
def FlowControlError.text : FlowControlError → String
  | .mapAccess => "Error accessing the flowController map."
  | .streamDataAfterTermination => "StreamDataAfterTermination"
  | .receivedTooMuchDataOnStream byteOffset streamID receiveWindow =>
    "FlowControlReceivedTooMuchData: Received " ++ toString byteOffset ++ " bytes on stream " ++
      toString streamID ++ ", allowed " ++ toString receiveWindow ++ " bytes"
  | .receivedTooMuchData highestReceived receiveWindow =>
    "FlowControlReceivedTooMuchData: Received " ++ toString highestReceived ++
      " bytes for the connection, allowed " ++ toString receiveWindow ++ " bytes"

/-- `flowcontrol.WindowUpdate`. -/
structure WindowUpdate where
  streamID : ℕ
  offset : ℕ
  deriving DecidableEq, Repr

namespace FlowControlManager

/-- Stores the controller of a stream. -/
def setController (m : FlowControlManager) (streamID : ℕ) (c : FlowController) :
    FlowControlManager :=
  { m with streamFlowController := Function.update m.streamFlowController streamID (some c) }

/-- `NewStream`. -/
def newStream (m : FlowControlManager) (streamID : ℕ) (contributesToConnection : Bool) :
    FlowControlManager :=
  match m.streamFlowController streamID with
  | some _ => m
  | none =>
    m.setController streamID
      (newFlowController streamID contributesToConnection m.connectionParameters)

/-- `RemoveStream`. -/
def removeStream (m : FlowControlManager) (streamID : ℕ) : FlowControlManager :=
  { m with streamFlowController := Function.update m.streamFlowController streamID none }

/-- Counts something at a stream, and at the connection if the stream contributes to it. -/
def charge (m : FlowControlManager) (streamID : ℕ) (count : FlowController → FlowController) :
    FlowControlManager × Option FlowControlError :=
  match m.streamFlowController streamID with
  | none => (m, some .mapAccess)
  | some fc =>
    let m := m.setController streamID (count fc)
    if fc.contributesToConnection then
      ({ m with connFlowController := count m.connFlowController }, none)
    else (m, none)

/-! ## Sending -/

/-- `AddBytesSent`. -/
def addBytesSent (m : FlowControlManager) (streamID n : ℕ) :
    FlowControlManager × Option FlowControlError :=
  m.charge streamID fun c => c.addBytesSent n

/-- `AddBytesRetrans`. -/
def addBytesRetrans (m : FlowControlManager) (streamID n : ℕ) :
    FlowControlManager × Option FlowControlError :=
  m.charge streamID fun c => c.addBytesRetrans n

/-- `SendWindowSize`. -/
def sendWindowSize (m : FlowControlManager) (streamID : ℕ) : ℕ × Option FlowControlError :=
  match m.streamFlowController streamID with
  | none => (0, some .mapAccess)
  | some fc =>
    let res := fc.sendWindowSize m.connectionParameters
    if fc.contributesToConnection then
      (min res (m.connFlowController.sendWindowSize m.connectionParameters), none)
    else (res, none)

/-- `RemainingConnectionWindowSize`. -/
def remainingConnectionWindowSize (m : FlowControlManager) : ℕ :=
  m.connFlowController.sendWindowSize m.connectionParameters

/-- `UpdateWindow`. -/
def updateWindow (m : FlowControlManager) (streamID offset : ℕ) :
    FlowControlManager × Bool × Option FlowControlError :=
  if streamID = 0 then
    let (fc, updated) := m.connFlowController.updateSendWindow offset
    ({ m with connFlowController := fc }, updated, none)
  else
    match m.streamFlowController streamID with
    | none => (m, false, some .mapAccess)
    | some fc =>
      let (fc, updated) := fc.updateSendWindow offset
      (m.setController streamID fc, updated, none)

/-! ## Receiving -/

/-- The end of `ResetStream` and of `UpdateHighestReceived`: check the windows. `fc` is the
controller of the stream with its new highest offset. -/
def checkReceived (m : FlowControlManager) (streamID byteOffset increment : ℕ)
    (fc : FlowController) : FlowControlManager × Option FlowControlError :=
  let m := m.setController streamID fc
  if fc.checkFlowControlViolation then
    (m, some (.receivedTooMuchDataOnStream byteOffset streamID fc.receiveWindow))
  else if fc.contributesToConnection then
    let conn := m.connFlowController.incrementHighestReceived increment
    let m := { m with connFlowController := conn }
    if conn.checkFlowControlViolation then
      (m, some (.receivedTooMuchData conn.highestReceived conn.receiveWindow))
    else (m, none)
  else (m, none)

/-- `ResetStream`. -/
def resetStream (m : FlowControlManager) (streamID byteOffset : ℕ) :
    FlowControlManager × Option FlowControlError :=
  match m.streamFlowController streamID with
  | none => (m, some .mapAccess)
  | some fc =>
    match fc.updateHighestReceived byteOffset with
    | (_, none) => (m, some .streamDataAfterTermination)
    | (fc, some increment) => m.checkReceived streamID byteOffset increment fc

/-- `UpdateHighestReceived`. Frames may be reordered, so a smaller offset is no error here. -/
def updateHighestReceived (m : FlowControlManager) (streamID byteOffset : ℕ) :
    FlowControlManager × Option FlowControlError :=
  match m.streamFlowController streamID with
  | none => (m, some .mapAccess)
  | some fc =>
    let (fc, increment) := fc.updateHighestReceived byteOffset
    m.checkReceived streamID byteOffset (increment.getD 0) fc

/-- `AddBytesRead`, at the time `now`. -/
def addBytesRead (m : FlowControlManager) (now : ℤ) (streamID n : ℕ) :
    FlowControlManager × Option FlowControlError :=
  m.charge streamID fun c => c.addBytesRead now n

/-- `GetReceiveWindow`. -/
def getReceiveWindow (m : FlowControlManager) (streamID : ℕ) : ℕ × Option FlowControlError :=
  if streamID = 0 then (m.connFlowController.receiveWindow, none)
  else
    match m.streamFlowController streamID with
    | none => (0, some .mapAccess)
    | some fc => (fc.receiveWindow, none)

/-- One round of the loop of `GetWindowUpdates`. The multiplier of 1.5 is applied to a `float64`,
which is exact for increments below 2^52. -/
def windowUpdateOf (force : Bool) (now rtt : ℤ) (remoteRTTs : List ℤ)
    (acc : FlowControlManager × List WindowUpdate) (id : ℕ) :
    FlowControlManager × List WindowUpdate :=
  match acc.1.streamFlowController id with
  | none => acc
  | some fc =>
    let (fc, necessary, newIncrement, offset) := fc.maybeUpdateWindow now rtt remoteRTTs
    let m := acc.1.setController id fc
    if force || necessary then
      let m :=
        if fc.contributesToConnection && newIncrement != 0 then
          { m with
            connFlowController :=
              m.connFlowController.ensureMinimumWindowIncrement (newIncrement * 3 / 2) }
        else m
      (m, acc.2 ++ [⟨id, offset⟩])
    else (m, acc.2)

/-- `GetWindowUpdates`. `order` lists the streams as the map is iterated over. -/
def getWindowUpdates (m : FlowControlManager) (force : Bool) (now rtt : ℤ) (remoteRTTs : List ℤ)
    (order : List ℕ) : FlowControlManager × List WindowUpdate :=
  let (m, res) := order.foldl (windowUpdateOf force now rtt remoteRTTs) (m, [])
  let (conn, necessary, _, offset) := m.connFlowController.maybeUpdateWindow now rtt remoteRTTs
  let m := { m with connFlowController := conn }
  if force || necessary then (m, res ++ [⟨0, offset⟩]) else (m, res)

end FlowControlManager

end MultipathQuic
