import MultipathQuic.Session.Session

/-!
# Handling the frames of a packet

`handleFrames` of `session.go`, with the parts of the path manager that it reaches. One frame is
handled after the other; the first error ends the loop, unless it is one of the three that are
ignored.
-/

namespace MultipathQuic

namespace Session

variable {E : Type}

/-! ## Streams -/

/-- Puts the streams back. -/
def setStreamsMap (m : StreamsMap E) : Program (Session E) PUnit :=
  modifyFramer fun f => { f with streamsMap := m }

/-- `handleStreamFrame`. -/
def handleStreamFrame (frame : StreamFrame) : Program (Session E) (Option SessionError) := do
  let s ← get
  let (m, err) ← Program.ofOption (s.streamsMap.handleStreamFrame frame)
  setStreamsMap m
  pure (err.map .handle)

/-- `handleWindowUpdateFrame`. -/
def handleWindowUpdateFrame (frame : WindowUpdateFrame) :
    Program (Session E) (Option SessionError) := do
  let s ← get
  let (m, err) ← Program.ofOption (s.streamsMap.handleWindowUpdateFrame frame)
  setStreamsMap m
  pure (err.map .handle)

/-- `handleRstStreamFrame`. The answer is queued on the initial path. -/
def handleRstStreamFrame (frame : RstStreamFrame) : Program (Session E) (Option SessionError) := do
  let s ← get
  let (m, rst, err) ← Program.ofOption (s.streamsMap.handleRstStreamFrame s.remoteError frame)
  setStreamsMap m
  match rst with
  | none => pure ()
  | some rst => modifyPacker fun p => p.queueControlFrame (.rstStream rst) initialPathID
  pure (err.map .handle)

/-! ## Paths -/

/-- The statistics of a path, as they are after an acknowledgement. -/
def updateStatistics (c : Choice) (pth : Path) : Path :=
  { pth with
    smoothedRTT := c.smoothedRTT
    meanDeviation := c.meanDeviation
    congestionWindow := c.congestionWindow }

/-- `handleAckFrame`. A path that does not exist is a nil pointer. -/
def handleAckFrame (frame : AckFrame) : Program (Session E) (Option SessionError) := do
  let c ← choose
  let s ← get
  let pth ← Program.ofOption (s.paths.lookup frame.pathID)
  let (h, err) := pth.sentPacketHandler.receivedAck frame pth.lastRcvdPacketNumber c.env
  modifyPath frame.pathID fun pth => updateStatistics c { pth with sentPacketHandler := h }
  pure (err.map .sent)

/-- `closePath`. The path manager asks the run loop of an open path to close it. -/
def closePath (pthID : PathID) (sendClosePathFrame : Bool) :
    Program (Session E) (Option SessionError) := do
  let s ← get
  match s.paths.lookup pthID with
  | none => pure (some .unknownPathID)
  | some pth =>
    if pthID ∈ s.closedPaths then pure none
    else do
      modifyPath pthID fun pth =>
        if s.hasPathManager ∧ pth.isOpen then { pth with closeChan := true } else pth
      modify fun s => { s with closedPaths := s.closedPaths ++ [pthID] }
      if sendClosePathFrame = false then pure none
      else do
        modifyPath pthID fun pth =>
          { pth with sentPacketHandler := pth.sentPacketHandler.setInflightAsLost }
        let closePathFrame ← Program.ofOption pth.getClosePathFrame
        modifyFramer fun f =>
          { f with closePathFrameQueue := f.closePathFrameQueue ++ [closePathFrame] }
        pure none

/-- `handleClosePathFrame`. After `closePath` has returned without an error, the path exists. -/
def handleClosePathFrame (frame : ClosePathFrame) : Program (Session E) (Option SessionError) := do
  match ← closePath frame.pathID false with
  | some err => pure (some err)
  | none =>
    let c ← choose
    let s ← get
    let pth ← Program.ofOption (s.paths.lookup frame.pathID)
    let (h, err) := pth.sentPacketHandler.receivedClosePath frame pth.lastRcvdPacketNumber
    modifyPath frame.pathID fun pth => updateStatistics c { pth with sentPacketHandler := h }
    pure (err.map .sent)

/-- Half an hour, in nanoseconds: the peer says of a path with such a round-trip time that it has
failed. -/
def failedRTT : ℤ := 1800000 * millisecond

/-- One path of a PATHS frame. -/
def handlePath (frame : PathsFrame) (i : ℕ) : Program (Session E) PUnit := do
  let pathID ← Program.ofOption frame.pathIDs[i]?
  let remoteRTT ← Program.ofOption frame.remoteRTTs[i]?
  modify fun s =>
    { s with remoteRTTs := (pathID, remoteRTT) :: s.remoteRTTs.filter fun p => p.1 ≠ pathID }
  let s ← get
  if remoteRTT ≥ failedRTT ∧ pathID ∈ s.paths.ids then
    modifyPath pathID fun pth => { pth with potentiallyFailed := true }

/-- The loop over the paths of a PATHS frame. -/
def handlePaths (frame : PathsFrame) : List ℕ → Program (Session E) PUnit
  | [] => pure ()
  | i :: is => do
    handlePath frame i
    handlePaths frame is

/-! ## Addresses -/

/-- `advertiseAddresses`. -/
def advertiseAddress (s : Session E) (locAddr : UDPAddr) : Session E :=
  if s.pathManager.advertisedLocAddrs.any locAddr.sameString then s
  else
    { s with
      pathManager := { s.pathManager with
        advertisedLocAddrs := s.pathManager.advertisedLocAddrs ++ [locAddr] }
      packer := { s.packer with
        streamFramer := { s.streamFramer with
          addAddressFrameQueue := s.streamFramer.addAddressFrameQueue ++
            [⟨UDPAddr.getIPVersion locAddr.ip, locAddr.ip, locAddr.port⟩] } } }

/-- `pathManager.createPath`. -/
def createPath (addrs : UDPAddr × UDPAddr) : Program (Session E) (Option SessionError) := do
  let s ← get
  match s.pathManager.createPath addrs.1 addrs.2 with
  | (_, none) => pure none
  | (pm, some id) => do
    set { s with pathManager := pm }
    sendPing id

/-- The pairs of a local and a remote address of the same IP version. -/
def addressPairs (localAddrs remoteAddrs4 remoteAddrs6 : List UDPAddr) : List (UDPAddr × UDPAddr) :=
  localAddrs.flatMap fun locAddr =>
    (if UDPAddr.getIPVersion locAddr.ip = 4 then remoteAddrs4 else remoteAddrs6).map
      fun remAddr => (locAddr, remAddr)

end Session

namespace PathManager

variable {E : Type}

/-- `createPaths`. A server only advertises its addresses. -/
def createPaths : Program (Session E) (Option SessionError) := do
  let s ← get
  match s.pathManager.perspective with
  | .server => do
    set (s.localAddrs.foldl Session.advertiseAddress s)
    pure none
  | .client =>
    match ← Program.untilSome Session.createPath (Session.addressPairs s.localAddrs
      s.pathManager.remoteAddrs4 s.pathManager.remoteAddrs6) with
    | some err => pure (some err)
    | none => do
      Session.schedulePathsFrame
      pure none

/-- Adds an address of the peer, if its IP version is known. -/
def addRemoteAddr (pm : PathManager) (f : AddAddressFrame) : Option PathManager :=
  if f.ipVersion = 4 then some { pm with remoteAddrs4 := pm.remoteAddrs4 ++ [⟨f.ip, f.port⟩] }
  else if f.ipVersion = 6 then some { pm with remoteAddrs6 := pm.remoteAddrs6 ++ [⟨f.ip, f.port⟩] }
  else none

/-- `handleAddAddressFrame`. -/
def handleAddAddressFrame (f : AddAddressFrame) : Program (Session E) (Option SessionError) := do
  let s ← get
  match s.pathManager.addRemoteAddr f with
  | none => pure (some .unknownIPVersion)
  | some pm => do
    set { s with pathManager := pm }
    if s.createPaths then createPaths else pure none

end PathManager

namespace Session

variable {E : Type}

/-! ## The loop -/

/-- `closeRemote`. -/
def closeRemote (frame : ConnectionCloseFrame) : Program (Session E) PUnit :=
  modify fun s => if s.closeOnce then s else { s with closeOnce := true, closeChan := some frame }

/-- The handler of a frame that was received on the path `p`, with its error. -/
def handleFrame (p : PathID) : Frame → Program (Session E) (Option SessionError)
  | .stream frame => handleStreamFrame frame
  | .ack frame => handleAckFrame frame
  | .connectionClose frame => do
    closeRemote frame
    pure none
  | .goaway _ => pure (some .goaway)
  | .stopWaiting frame => do
    modifyPath p fun pth =>
      { pth with
        receivedPacketHandler := pth.receivedPacketHandler.setLowerLimit
          (sub64 frame.leastUnacked 1) }
    pure none
  | .rstStream frame => handleRstStreamFrame frame
  | .windowUpdate frame => handleWindowUpdateFrame frame
  | .blocked _ => do
    modify fun s => { s with peerBlocked := true }
    pure none
  | .ping => pure none
  | .addAddress frame => do
    let s ← get
    if s.hasPathManager then
      let err ← PathManager.handleAddAddressFrame frame
      schedulePathsFrame
      pure err
    else pure none
  | .closePath frame => do
    -- the error is dropped
    let _ ← handleClosePathFrame frame
    pure none
  | .paths frame => do
    handlePaths frame (List.range frame.numPaths.toNat)
    pure none

/-- The errors that `handleFrames` ignores. -/
def ignored : SessionError → Bool
  | .sent .duplicateOrOutOfOrderAck => true
  | .handle .rstStreamOnInvalidStream => true
  | .handle .windowUpdateOnClosedStream => true
  | _ => false

/-- One round of `handleFrames`: the error that ends the loop. -/
def handleNextFrame (p : PathID) (ff : Frame) : Program (Session E) (Option SessionError) := do
  let err ← handleFrame p ff
  pure (err.filter fun err => !ignored err)

/-- `handleFrames`. -/
def handleFrames (fs : List Frame) (p : PathID) : Program (Session E) (Option SessionError) :=
  Program.untilSome (handleNextFrame p) fs

end Session

end MultipathQuic
