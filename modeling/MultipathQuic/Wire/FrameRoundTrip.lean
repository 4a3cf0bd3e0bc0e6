import MultipathQuic.Wire.AckRoundTrip
import MultipathQuic.Wire.FrameCodec

/-!
# Frames survive the wire

What `Write` writes of a frame is parsed back, whatever bytes follow. A STREAM frame without a length
takes the rest of the packet.

## Main results

* `StreamFrame.run_parseStreamFrame`, `StopWaitingFrame.run_parseStopWaitingFrame`, …: one for each
  type of frame
-/

namespace MultipathQuic

open ByteCodec

variable {version : VersionNumber} {bytes : List UInt8}

/-- Reading the bytes of a number that fits them. -/
theorem ByteOrder.run_readUintN_of_lt (bo : ByteOrder) {w n : ℕ} (h : n < 256 ^ w)
    (r : List UInt8) : (bo.readUintN w).run (bo.encode w n ++ r) = .ok (n, r) := by
  rw [bo.run_readUintN_encode, Nat.mod_eq_of_lt h]

/-! ## STREAM frames -/

/-- The lengths of a stream ID. -/
def streamIDLens : List ℕ := [1, 2, 3, 4]

/-- The lengths of an offset. -/
def offsetLens : List ℕ := [0, 2, 3, 4, 5, 6, 7, 8]

theorem StreamFrame.calculateStreamIDLength_mem (f : StreamFrame) :
    f.calculateStreamIDLength ∈ streamIDLens := by
  unfold calculateStreamIDLength
  split_ifs <;> decide

theorem StreamFrame.getOffsetLength_mem (f : StreamFrame) : f.getOffsetLength ∈ offsetLens := by
  unfold getOffsetLength
  split_ifs <;> decide

/-- The parser reads off a STREAM type byte what the writer put there. -/
theorem streamTypeByte_fields (finBit dataLenPresent : Bool) {offsetLength streamIDLen : ℕ}
    (ho : offsetLength ∈ offsetLens) (hi : streamIDLen ∈ streamIDLens) :
    let typeByte := streamTypeByte finBit dataLenPresent offsetLength streamIDLen
    decide (typeByte &&& 0x40 > 0) = finBit ∧ decide (typeByte &&& 0x20 > 0) = dataLenPresent ∧
      offsetLenOf ((typeByte &&& 0x1c) >>> 2) = offsetLength ∧
      (typeByte &&& 0x3).toNat + 1 = streamIDLen ∧ typeByte &&& 0x80 = 0x80 := by
  revert finBit dataLenPresent
  have hall : ∀ o ∈ offsetLens, ∀ i ∈ streamIDLens, ∀ finBit dataLenPresent : Bool,
      let typeByte := streamTypeByte finBit dataLenPresent o i
      decide (typeByte &&& 0x40 > 0) = finBit ∧ decide (typeByte &&& 0x20 > 0) = dataLenPresent ∧
        offsetLenOf ((typeByte &&& 0x1c) >>> 2) = o ∧
        (typeByte &&& 0x3).toNat + 1 = i ∧ typeByte &&& 0x80 = 0x80 := by decide +kernel
  exact hall offsetLength ho streamIDLen hi

theorem StreamFrame.writeStreamID_eq {f : StreamFrame} (h : f.streamID < 2 ^ 32) (bo : ByteOrder) :
    writeStreamID bo f.calculateStreamIDLength f.streamID =
        .ok (bo.encode f.calculateStreamIDLength f.streamID) ∧
      f.streamID < 256 ^ f.calculateStreamIDLength := by
  unfold calculateStreamIDLength
  split_ifs with h1 h2 h3
  · exact ⟨by rw [writeStreamID, ByteOrder.encode_one], by omega⟩
  · exact ⟨by rw [writeStreamID, ByteOrder.writeUint16_eq], by omega⟩
  · exact ⟨bo.writeUint24_eq h3, by omega⟩
  · exact ⟨by rw [writeStreamID, ByteOrder.writeUint32_eq], by omega⟩

theorem StreamFrame.writeOffset_eq {f : StreamFrame} (h : f.offset < 2 ^ 64) (bo : ByteOrder) :
    MultipathQuic.writeOffset bo f.getOffsetLength f.offset =
        .ok (bo.encode f.getOffsetLength f.offset) ∧
      f.offset < 256 ^ f.getOffsetLength := by
  unfold getOffsetLength
  split_ifs with h0 h2 h3 h4 h5 h6 h7
  · refine ⟨?_, by omega⟩
    cases bo <;> rfl
  · exact ⟨by rw [MultipathQuic.writeOffset, ByteOrder.writeUint16_eq], by omega⟩
  · exact ⟨bo.writeUint24_eq h3, by omega⟩
  · exact ⟨by rw [MultipathQuic.writeOffset, ByteOrder.writeUint32_eq], by omega⟩
  · exact ⟨bo.writeUint40_eq h5, by omega⟩
  · exact ⟨bo.writeUint48_eq h6, by omega⟩
  · exact ⟨bo.writeUint56_eq h7, by omega⟩
  · exact ⟨by rw [MultipathQuic.writeOffset, ByteOrder.writeUint64_eq], by omega⟩

theorem StreamFrame.exists_writeOffset (f : StreamFrame) (bo : ByteOrder) :
    ∃ bytes, MultipathQuic.writeOffset bo f.getOffsetLength f.offset = .ok bytes := by
  by_cases h : f.offset < 2 ^ 64
  · exact ⟨_, (writeOffset_eq h bo).1⟩
  · have hlen : f.getOffsetLength = 8 := by
      unfold getOffsetLength
      split_ifs <;> omega
    rw [hlen]
    exact ⟨_, rfl⟩

/-- Writing a STREAM frame does not panic. -/
theorem StreamFrame.error_of_write {f : StreamFrame} (h : f.streamID < 2 ^ 32)
    {version : VersionNumber} {err : WireError} (herr : f.write version = .error err) :
    err = .writeEmptyStreamFrame := by
  unfold StreamFrame.write at herr
  dsimp only at herr
  split at herr
  · cases herr
    rfl
  · obtain ⟨bytes, hoffset⟩ := f.exists_writeOffset (getByteOrder version)
    rw [(writeStreamID_eq h (getByteOrder version)).1, hoffset] at herr
    cases herr

theorem run_readDataLen (bo : ByteOrder) (dataLenPresent : Bool) {n : ℕ} (hn : n < 2 ^ 16)
    (r : List UInt8) :
    (readDataLen bo dataLenPresent).run ((if dataLenPresent then bo.writeUint16 n else []) ++ r) =
      .ok (if dataLenPresent then n else 0, r) := by
  cases dataLenPresent
  · rfl
  · simp only [readDataLen, if_true, ByteOrder.writeUint16_eq]
    exact bo.run_readUintN_of_lt (by omega) r

theorem run_readStreamData {dataLenPresent : Bool} {data r : List UInt8}
    (hlen : data.length < 2 ^ 16) (hr : dataLenPresent = false → r = []) :
    (readStreamData dataLenPresent (if dataLenPresent then data.length else 0)).run (data ++ r) =
      .ok (data, r) := by
  have hcount : (if dataLenPresent then (if dataLenPresent then data.length else 0)
      else (data ++ r).length % 2 ^ 16) = data.length := by
    cases dataLenPresent with
    | false =>
      rw [hr rfl, List.append_nil]
      exact Nat.mod_eq_of_lt hlen
    | true => rfl
  unfold readStreamData
  rw [run_bind_ok (run_remaining _)]
  dsimp only
  rw [hcount]
  split_ifs with hne
  · exact run_readFull_append _ _ data r
  · rw [List.eq_nil_of_length_eq_zero (not_not.mp hne)]
    rfl

/-- **A STREAM frame that `Write` accepts is parsed back.** -/
theorem StreamFrame.run_parseStreamFrame {f : StreamFrame} (hid : f.streamID < 2 ^ 32)
    (hend : f.offset + f.dataLen < 2 ^ 64) (hdata : f.dataLen ≤ maxPacketSize)
    (h : f.write version = .ok bytes) {rest : List UInt8}
    (hrest : f.dataLenPresent = false → rest = []) :
    (parseStreamFrame version).run (bytes ++ rest) = .ok (f, rest) := by
  have hsize : maxPacketSize < 2 ^ 16 := by decide
  have hlen : f.data.length = f.dataLen := rfl
  obtain ⟨hwid, hltid⟩ := StreamFrame.writeStreamID_eq hid (getByteOrder version)
  obtain ⟨hwoff, hltoff⟩ := StreamFrame.writeOffset_eq (f := f) (by omega) (getByteOrder version)
  obtain ⟨hfin, hpresent, holen, hilen, -⟩ := streamTypeByte_fields f.finBit f.dataLenPresent
    f.getOffsetLength_mem f.calculateStreamIDLength_mem
  unfold StreamFrame.write at h
  dsimp only at h
  have hempty : ¬ (f.data.length = 0 ∧ f.finBit = false) := fun hc => by
    rw [if_pos hc] at h
    cases h
  rw [if_neg hempty, hwid, hwoff] at h
  cases h
  rw [List.cons_append, parseStreamFrame]
  simp only [List.append_assoc]
  rw [run_bind_ok (run_readByte_cons _ _ _), hilen, holen, hfin, hpresent,
    run_bind_ok ((getByteOrder version).run_readUintN_of_lt hltid _),
    run_bind_ok ((getByteOrder version).run_readUintN_of_lt hltoff _),
    run_bind_ok (run_readDataLen _ _ (by omega) _), if_neg ?_,
    run_bind_ok (run_readStreamData (by omega) hrest), add64_of_lt (by omega), if_neg (by omega),
    if_neg (fun hc => hempty ⟨hc.2, hc.1⟩)]
  · rfl
  · split <;> omega

/-! ## STOP_WAITING frames -/

theorem writeLeastUnackedDelta_eq (bo : ByteOrder) {len : PacketNumberLen} {delta : ℕ}
    {bytes : List UInt8} (hlt : delta < 256 ^ len.bytes)
    (h : writeLeastUnackedDelta bo len delta = .ok bytes) : bytes = bo.encode len.bytes delta := by
  cases len with
  | invalid => cases h
  | len1 =>
    cases h
    exact (bo.encode_one delta).symm
  | len2 =>
    cases h
    exact bo.writeUint16_eq delta
  | len4 =>
    cases h
    exact bo.writeUint32_eq delta
  | len6 =>
    have hlt' : delta < 2 ^ 48 := by
      simp only [PacketNumberLen.bytes] at hlt
      omega
    rw [writeLeastUnackedDelta, mask48_eq delta hlt', bo.writeUint48_eq hlt'] at h
    cases h
    rfl

/-- **A STOP_WAITING frame that `Write` accepts is parsed back** in a packet with its packet number,
if it waits for a packet. -/
theorem StopWaitingFrame.run_parseStopWaitingFrame {f : StopWaitingFrame}
    (hpos : 1 ≤ f.leastUnacked) (hnum : f.packetNumber < 2 ^ 64)
    (hlt : f.packetNumber - f.leastUnacked < 256 ^ f.packetNumberLen.bytes)
    (h : f.write version = .ok bytes) (rest : List UInt8) :
    ∃ tail, bytes = 0x06 :: tail ∧
      (parseStopWaitingFrame version f.packetNumber f.packetNumberLen).run (bytes ++ rest) =
        .ok (⟨f.leastUnacked, .invalid, 0⟩, rest) := by
  unfold StopWaitingFrame.write at h
  split_ifs at h with hzero hgt
  have hle : f.leastUnacked ≤ f.packetNumber := Nat.le_of_not_lt hgt
  rw [sub64_of_le hle hnum] at h
  obtain ⟨delta, hdelta, h⟩ := exists_of_bind_eq_ok h
  cases h
  have hbytes := writeLeastUnackedDelta_eq _ hlt hdelta
  refine ⟨delta, rfl, ?_⟩
  rw [hbytes, List.cons_append, parseStopWaitingFrame, run_bind_ok (run_readByte_cons _ _ _),
    run_bind_ok ((getByteOrder version).run_readUintN_of_lt hlt _), if_neg (by omega),
    sub64_of_le (by omega) hnum, Nat.sub_sub_self hle]
  rfl

/-! ## Frames of a fixed length -/

theorem RstStreamFrame.run_parseRstStreamFrame (version : VersionNumber) {f : RstStreamFrame}
    (hid : f.streamID < 2 ^ 32) (hoff : f.byteOffset < 2 ^ 64) (hcode : f.errorCode < 2 ^ 32)
    (rest : List UInt8) :
    (parseRstStreamFrame version).run (f.write version ++ rest) = .ok (f, rest) := by
  unfold RstStreamFrame.write parseRstStreamFrame
  simp only [List.cons_append, List.append_assoc, ByteOrder.writeUint32_eq,
    ByteOrder.writeUint64_eq]
  rw [run_bind_ok (run_readByte_cons _ _ _),
    run_bind_ok ((getByteOrder version).run_readUintN_of_lt (by omega) _),
    run_bind_ok ((getByteOrder version).run_readUintN_of_lt (by omega) _),
    run_bind_ok ((getByteOrder version).run_readUintN_of_lt (by omega) _)]
  rfl

theorem WindowUpdateFrame.run_parseWindowUpdateFrame (version : VersionNumber) {f : WindowUpdateFrame}
    (hid : f.streamID < 2 ^ 32) (hoff : f.byteOffset < 2 ^ 64) (rest : List UInt8) :
    (parseWindowUpdateFrame version).run (f.write version ++ rest) = .ok (f, rest) := by
  unfold WindowUpdateFrame.write parseWindowUpdateFrame
  simp only [List.cons_append, List.append_assoc, ByteOrder.writeUint32_eq,
    ByteOrder.writeUint64_eq]
  rw [run_bind_ok (run_readByte_cons _ _ _),
    run_bind_ok ((getByteOrder version).run_readUintN_of_lt (by omega) _),
    run_bind_ok ((getByteOrder version).run_readUintN_of_lt (by omega) _)]
  rfl

theorem BlockedFrame.run_parseBlockedFrame (version : VersionNumber) {f : BlockedFrame}
    (hid : f.streamID < 2 ^ 32) (rest : List UInt8) :
    (parseBlockedFrame version).run (f.write version ++ rest) = .ok (f, rest) := by
  unfold BlockedFrame.write parseBlockedFrame
  rw [List.cons_append, ByteOrder.writeUint32_eq, run_bind_ok (run_readByte_cons _ _ _),
    run_bind_ok ((getByteOrder version).run_readUintN_of_lt (by omega) _)]
  rfl

/-! ## Frames with a reason phrase -/

theorem run_readReasonPhrase (bo : ByteOrder) {reason : List UInt8}
    (hlen : reason.length ≤ maxPacketSize) (rest : List UInt8) :
    (readReasonPhrase bo).run (bo.writeUint16 reason.length ++ (reason ++ rest)) =
      .ok (reason, rest) := by
  have hsize : maxPacketSize < 2 ^ 16 := by decide
  unfold readReasonPhrase
  rw [bo.writeUint16_eq, run_bind_ok (bo.run_readUintN_of_lt (by omega) _), if_neg (by omega)]
  exact run_readFull_append _ _ reason rest

theorem GoawayFrame.run_parseGoawayFrame (version : VersionNumber) {f : GoawayFrame}
    (hcode : f.errorCode < 2 ^ 32) (hstream : f.lastGoodStream < 2 ^ 32)
    (hlen : f.reasonPhrase.length ≤ maxPacketSize) (rest : List UInt8) :
    (parseGoawayFrame version).run (f.write version ++ rest) = .ok (f, rest) := by
  unfold GoawayFrame.write parseGoawayFrame
  simp only [List.cons_append, List.append_assoc, ByteOrder.writeUint32_eq]
  rw [run_bind_ok (run_readByte_cons _ _ _),
    run_bind_ok ((getByteOrder version).run_readUintN_of_lt (by omega) _),
    run_bind_ok ((getByteOrder version).run_readUintN_of_lt (by omega) _),
    run_bind_ok (run_readReasonPhrase _ hlen _)]
  rfl

theorem ConnectionCloseFrame.run_parseConnectionCloseFrame {f : ConnectionCloseFrame}
    (hcode : f.errorCode < 2 ^ 32) (hlen : f.reasonPhrase.length ≤ maxPacketSize)
    (h : f.write version = .ok bytes) (rest : List UInt8) :
    ∃ tail, bytes = 0x02 :: tail ∧
      (parseConnectionCloseFrame version).run (bytes ++ rest) = .ok (f, rest) := by
  unfold ConnectionCloseFrame.write at h
  split_ifs at h
  cases h
  refine ⟨_, rfl, ?_⟩
  unfold parseConnectionCloseFrame
  simp only [List.cons_append, List.append_assoc, ByteOrder.writeUint32_eq]
  rw [run_bind_ok (run_readByte_cons _ _ _),
    run_bind_ok ((getByteOrder version).run_readUintN_of_lt (by omega) _),
    run_bind_ok (run_readReasonPhrase _ hlen _)]
  rfl

/-! ## ADD_ADDRESS frames -/

theorem length_ipv4 {bytes : List UInt8} (h : bytes.length = 4) : (ipv4 bytes).length = 16 := by
  simp [ipv4, h]

/-- The bytes of an IPv4 address stand for the address, in either of its forms. -/
theorem ipTo16_of_ipTo4 {ip bytes : List UInt8} (h : ipTo4 ip = some bytes) :
    bytes.length = 4 ∧ ipTo16 ip = some (ipv4 bytes) := by
  unfold ipTo4 at h
  split_ifs at h with hshort hlong
  · cases h
    exact ⟨hshort, by rw [ipTo16, if_pos hshort]⟩
  · cases h
    obtain ⟨hlen, htake⟩ := hlong
    refine ⟨by rw [List.length_drop, hlen], ?_⟩
    rw [ipTo16, if_neg hshort, if_pos hlen, ipv4, ← htake, List.take_append_drop]

theorem length_of_ipTo16 {ip bytes : List UInt8} (h : ipTo16 ip = some bytes) :
    bytes.length = 16 := by
  unfold ipTo16 at h
  split_ifs at h with hshort hlong
  · cases h
    exact length_ipv4 hshort
  · cases h
    exact hlong

/-- **An ADD_ADDRESS frame that `Write` accepts is parsed back**, with its address in sixteen
bytes. -/
theorem AddAddressFrame.run_parseAddAddressFrame {f : AddAddressFrame} (hport : f.port < 2 ^ 16)
    (h : f.write version = .ok bytes) (rest : List UInt8) :
    ∃ tail ip, bytes = 0x10 :: tail ∧ ipTo16 f.ip = some ip ∧
      (parseAddAddressFrame version).run (bytes ++ rest) = .ok (⟨f.ipVersion, ip, f.port⟩, rest) := by
  have hportRun := (getByteOrder version).run_readUintN_of_lt (w := 2) (n := f.port) (by omega) rest
  unfold AddAddressFrame.write at h
  split_ifs at h with hfour hsix
  · split at h
    · cases h
    · next ip hip =>
      cases h
      obtain ⟨hlen, hto16⟩ := ipTo16_of_ipTo4 hip
      have hread := run_readBytes_append WireError.eof ip
        ((getByteOrder version).encode 2 f.port ++ rest)
      rw [hlen] at hread
      have hIP : (readIP f.ipVersion).run (ip ++ ((getByteOrder version).encode 2 f.port ++ rest)) =
          .ok (ipv4 ip, (getByteOrder version).encode 2 f.port ++ rest) := by
        rw [readIP, if_pos hfour, run_bind_ok hread]
        rfl
      refine ⟨_, ipv4 ip, rfl, hto16, ?_⟩
      unfold parseAddAddressFrame
      simp only [List.cons_append, List.append_assoc, ByteOrder.writeUint16_eq]
      rw [run_bind_ok (run_readByte_cons _ _ _), run_bind_ok (run_readByte_cons _ _ _),
        run_bind_ok hIP, run_bind_ok hportRun]
      rfl
  · split at h
    · cases h
    · next ip hip =>
      cases h
      have hread := run_readBytes_append WireError.eof ip
        ((getByteOrder version).encode 2 f.port ++ rest)
      rw [length_of_ipTo16 hip] at hread
      have hIP : (readIP f.ipVersion).run (ip ++ ((getByteOrder version).encode 2 f.port ++ rest)) =
          .ok (ip, (getByteOrder version).encode 2 f.port ++ rest) := by
        rw [readIP, if_neg hfour, if_pos hsix]
        exact hread
      refine ⟨_, ip, rfl, hip, ?_⟩
      unfold parseAddAddressFrame
      simp only [List.cons_append, List.append_assoc, ByteOrder.writeUint16_eq]
      rw [run_bind_ok (run_readByte_cons _ _ _), run_bind_ok (run_readByte_cons _ _ _),
        run_bind_ok hIP, run_bind_ok hportRun]
      rfl

/-! ## PATHS frames -/

/-- What the encoding leaves of a round-trip time. -/
def roundRTT (rtt : ℤ) : ℤ := (ByteOrder.roundUfloat16 (microseconds rtt) : ℤ) * 1000

theorem run_readPaths (bo : ByteOrder) (paths : List (PathID × ℤ)) (rest : List UInt8) :
    (readPaths bo paths.length).run
      (paths.flatMap (fun (pathID, rtt) => pathID :: bo.writeUfloat16 (microseconds rtt)) ++ rest) =
      .ok (paths.map fun (pathID, rtt) => (pathID, roundRTT rtt), rest) := by
  induction paths with
  | nil => rfl
  | cons path paths ih =>
    rw [List.length_cons, readPaths, List.flatMap_cons]
    simp only [List.cons_append, List.append_assoc]
    rw [run_bind_ok (run_readByte_cons _ _ _), run_bind_ok (bo.run_readUfloat16_round _ _),
      run_bind_ok ih]
    rfl

/-- **A PATHS frame that `Write` accepts is parsed back** with rounded times, if it has no more paths
than it allows. -/
theorem PathsFrame.run_parsePathsFrame {f : PathsFrame} (hnum : f.numPaths ≤ f.maxNumPaths)
    (h : f.write version = .ok bytes) (rest : List UInt8) :
    ∃ tail, bytes = 0x12 :: tail ∧
      (parsePathsFrame version).run (bytes ++ rest) =
        .ok ({ f with remoteRTTs := f.remoteRTTs.map roundRTT }, rest) := by
  unfold PathsFrame.write at h
  split_ifs at h with hpaths hrtts
  cases h
  rw [not_not] at hpaths hrtts
  have hread := run_readPaths (getByteOrder version) (f.pathIDs.zip f.remoteRTTs) rest
  rw [List.length_zip, ← hrtts, Nat.min_self, ← hpaths] at hread
  refine ⟨_, rfl, ?_⟩
  unfold parsePathsFrame
  rw [List.cons_append, List.cons_append, List.cons_append, run_bind_ok (run_readByte_cons _ _ _),
    run_bind_ok (run_readByte_cons _ _ _), run_bind_ok (run_readByte_cons _ _ _),
    if_neg (show ¬ f.numPaths > f.maxNumPaths from UInt8.not_lt.mpr hnum), run_bind_ok hread]
  have hfst : ((f.pathIDs.zip f.remoteRTTs).map fun (pathID, rtt) => (pathID, roundRTT rtt)).map
      Prod.fst = f.pathIDs := by
    rw [List.map_map]
    exact List.map_fst_zip hrtts.le
  have hsnd : ((f.pathIDs.zip f.remoteRTTs).map fun (pathID, rtt) => (pathID, roundRTT rtt)).map
      Prod.snd = f.remoteRTTs.map roundRTT := by
    rw [List.map_map]
    change (f.pathIDs.zip f.remoteRTTs).map (roundRTT ∘ Prod.snd) = _
    rw [← List.map_map, List.map_snd_zip hrtts.ge]
  rw [hfst, hsnd]
  rfl

end MultipathQuic
