import MultipathQuic.Stream.Endpoint

/-!
# The crypto stream

`HasCryptoStreamFrame` and `PopCryptoStreamFrame` ask for stream 1 and do not check that there is
one. Stream 1 is garbage collected like every other stream once it is finished. The session never
ends it itself, and a FIN of the peer does not finish it. But a RST_STREAM frame on stream 1 does: it
is answered with a RST_STREAM frame, and a stream that was reset by both sides is finished.

## Main definitions

* `CryptoOp`: the calls
* `KeepsCryptoStream`: the invariant

## Main results

* `cryptoStream_stays`: the stream stays unless it is reset or ended
-/

namespace MultipathQuic

open Function

/-! ## The calls -/

/-- The calls on an endpoint, with those that frame the crypto stream. -/
inductive CryptoOp (E : Type)
  | call (op : EndpointOp E)
  | hasCryptoStreamFrame
  | popCryptoStreamFrame (maxLen : ℕ)

namespace CryptoOp

variable {E : Type}

/-- A call. It has no result if it panics. -/
def apply (remoteError : ℕ → E) (e : Endpoint E) : CryptoOp E → Option (Endpoint E)
  | .call op => e.apply remoteError op
  | .hasCryptoStreamFrame => do
    let (framer, _) ← e.framer.hasCryptoStreamFrame
    some { e with framer := framer }
  | .popCryptoStreamFrame maxLen => do
    let (framer, frame) ← e.framer.popCryptoStreamFrame maxLen
    some { e with framer := framer, streamFrames := e.streamFrames ++ frame.toList }

/-- The run of some calls, unless one of them does not return. -/
def run (remoteError : ℕ → E) (e : Endpoint E) (ops : List (CryptoOp E)) : Option (Endpoint E) :=
  ops.foldlM (apply remoteError) e

/-- Neither the peer resets stream 1, nor is it closed, cancelled or reset locally. -/
def LeavesCryptoStream : CryptoOp E → Prop
  | .call (.rstStreamFrame frame) => frame.streamID ≠ 1
  | .call (.close id) | .call (.cancel id _) | .call (.reset id _) => id ≠ 1
  | _ => True

instance : (op : CryptoOp E) → Decidable op.LeavesCryptoStream
  | .call (.rstStreamFrame _) | .call (.close _) | .call (.cancel ..) | .call (.reset ..) =>
    inferInstanceAs (Decidable (_ ≠ _))
  | .hasCryptoStreamFrame | .popCryptoStreamFrame _ | .call .openStream | .call (.read ..)
  | .call (.proceed ..) | .call (.write ..) | .call (.setStreamPriority ..)
  | .call (.setStreamActive _) | .call .schedule | .call (.skip _)
  | .call (.addFrameForRetransmission _) | .call (.popStreamFrames _)
  | .call (.getWindowUpdates ..) | .call .garbageCollectStreams | .call (.streamFrame _)
  | .call (.windowUpdateFrame _) => inferInstanceAs (Decidable True)

end CryptoOp

/-! ## A stream that is not ended -/

/-- Nothing that finishes the stream has happened but a FIN of the peer. -/
structure Stream.Unended {E : Type} (s : Stream E) : Prop where
  cancelled : s.cancelled = false
  finishedWriting : s.finishedWriting = false
  resetRemotely : s.resetRemotely = false
  rstSent : s.rstSent = false

namespace Stream

variable {E : Type} {s : Stream E}

theorem Unended.new (id : ℕ) : (newStream E id).Unended := ⟨rfl, rfl, rfl, rfl⟩

theorem Unended.not_finished (h : s.Unended) : s.finished = false := by
  unfold finished finishedWriteAndSentFin
  rw [h.cancelled, h.finishedWriting, h.resetRemotely, h.rstSent]
  simp

theorem cancelled_loop (r : RecvStream E) (len n : ℕ) : (r.loop len n).cancelled = r.cancelled := by
  unfold RecvStream.loop
  split <;> rfl

theorem cancelled_await (r : RecvStream E) (len n : ℕ) (expired : Bool) :
    (r.await len n expired).cancelled = r.cancelled := by
  unfold RecvStream.await
  split
  · split <;> rfl
  · split
    · rfl
    · split <;> rfl

theorem Unended.read (h : s.Unended) (len : ℕ) : (s.read len).Unended := by
  have hrecv : (s.toRecvStream.step (.read len)).cancelled = s.cancelled := by
    unfold RecvStream.step RecvStream.read
    split_ifs
    · rfl
    · rfl
    · exact cancelled_loop _ len 0
    · rfl
  exact ⟨hrecv.trans h.cancelled, h.finishedWriting, h.resetRemotely, h.rstSent⟩

theorem Unended.proceed (h : s.Unended) (fc : FlowControlManager) (expired : Bool) (now : ℤ) :
    (s.proceed fc expired now).1.Unended := by
  have hrecv : (s.toRecvStream.proceed expired).cancelled = s.cancelled := by
    unfold RecvStream.proceed
    split
    · rfl
    · rfl
    · split
      · rfl
      · exact cancelled_await _ _ _ _
    · exact cancelled_await _ _ _ _
    · unfold RecvStream.copy
      split_ifs
      · rfl
      · rfl
      · rfl
      · dsimp only
        split_ifs
        · rfl
        · exact cancelled_loop _ _ _
    · unfold RecvStream.popFrame
      split_ifs
      · rfl
      · exact cancelled_loop _ _ _
  exact ⟨hrecv.trans h.cancelled, h.finishedWriting, h.resetRemotely, h.rstSent⟩

theorem Unended.write (h : s.Unended) (p : List UInt8) : (s.write p).1.Unended := by
  unfold Stream.write
  split_ifs
  · exact h
  · exact h
  · exact h
  · exact ⟨h.cancelled, h.finishedWriting, h.resetRemotely, h.rstSent⟩

theorem Unended.addStreamFrame (h : s.Unended) (fc : FlowControlManager) (frame : StreamFrame) :
    (s.addStreamFrame fc frame).1.Unended := by
  have hrecv : (s.toRecvStream.addStreamFrame frame true).1.cancelled = s.cancelled := by
    unfold RecvStream.addStreamFrame
    rw [if_pos rfl]
    dsimp only
    split <;> rfl
  unfold Stream.addStreamFrame
  split
  · exact h
  · split <;>
      · next heq =>
        rw [heq] at hrecv
        exact ⟨hrecv.trans h.cancelled, h.finishedWriting, h.resetRemotely, h.rstSent⟩

theorem Unended.getDataForWriting (h : s.Unended) (maxBytes : ℕ) :
    (s.getDataForWriting maxBytes).2.Unended := by
  unfold Stream.getDataForWriting
  split
  · split <;> exact ⟨h.cancelled, h.finishedWriting, h.resetRemotely, h.rstSent⟩
  · exact h

end Stream

/-! ## The invariant -/

namespace StreamsMap

variable {E : Type} {m : StreamsMap E} {opened : Prop}

/-- Stream 1 is in the map if it has been `opened`, and as long as it is in the map it is not ended. -/
structure KeepsCryptoStream (m : StreamsMap E) (opened : Prop) : Prop where
  mem : opened → 1 ∈ m.streams
  unended : 1 ∈ m.streams → (m.stream 1).Unended

/-- Only the streams matter. -/
theorem KeepsCryptoStream.congr {m' : StreamsMap E} (h : m.KeepsCryptoStream opened)
    (hstreams : m'.streams = m.streams) (hstream : m'.stream = m.stream) :
    m'.KeepsCryptoStream opened where
  mem := by
    rw [hstreams]
    exact h.mem
  unended := by
    rw [hstreams, hstream]
    exact h.unended

/-- A stream changes; if it is stream 1, it is not ended. -/
theorem KeepsCryptoStream.update (h : m.KeepsCryptoStream opened) {id : ℕ} {s : Stream E}
    {fc : FlowControlManager} (hs : id = 1 → (m.stream 1).Unended → s.Unended) :
    KeepsCryptoStream { m with stream := update m.stream id s, flowControlManager := fc } opened where
  mem := h.mem
  unended := by
    intro hmem
    show (Function.update m.stream id s 1).Unended
    by_cases hid : id = 1
    · rw [hid, update_self]
      exact hs hid (h.unended hmem)
    · rw [update_of_ne (Ne.symm hid)]
      exact h.unended hmem

theorem keepsCryptoStream_openRule :
    OpenRule fun m : StreamsMap E => m.KeepsCryptoStream opened where
  put := by
    intro m id h
    unfold putStream
    dsimp only
    split_ifs with hmem
    · exact h.congr rfl rfl
    · constructor
      · intro hopened
        exact Finset.mem_insert_of_mem (h.mem hopened)
      · intro hone
        show (Function.update m.stream id (newStream E id) 1).Unended
        by_cases hid : id = 1
        · rw [hid, update_self]
          exact .new 1
        · rw [update_of_ne (Ne.symm hid)]
          exact h.unended (Finset.mem_of_mem_insert_of_ne hone (Ne.symm hid))
  counters := fun _ _ _ _ _ h => h.congr rfl rfl

theorem KeepsCryptoStream.garbageCollectStreams (h : m.KeepsCryptoStream opened) :
    m.garbageCollectStreams.KeepsCryptoStream opened := by
  refine garbageCollectStreams_rule (P := fun m => m.KeepsCryptoStream opened) ?_ h
  intro m id m' h hfinished hremoves
  have hone : 1 ∈ m.streams → 1 ≠ id := by
    rintro hmem rfl
    rw [(h.unended hmem).not_finished] at hfinished
    cases hfinished
  constructor
  · intro hopened
    rw [hremoves.streams]
    exact Finset.mem_erase.mpr ⟨hone (h.mem hopened), h.mem hopened⟩
  · intro hmem
    rw [hremoves.streams] at hmem
    rw [hremoves.stream]
    exact h.unended (Finset.mem_of_mem_erase hmem)

theorem KeepsCryptoStream.withScheduler {m' : StreamsMap E}
    {call : StreamScheduler → Option StreamScheduler} (h : m.KeepsCryptoStream opened)
    (hcall : m.withScheduler call = some m') : m'.KeepsCryptoStream opened := by
  unfold StreamsMap.withScheduler at hcall
  split at hcall
  · cases hcall
    exact h
  · obtain ⟨sch, -, rfl⟩ := Option.map_eq_some_iff.mp hcall
    exact h.congr rfl rfl

end StreamsMap

/-! ## Framing -/

namespace StreamFramer

variable {E : Type} {f f' : StreamFramer E} {opened : Prop}

theorem keepsCryptoStream_popStreamFrames {maxLen : ℕ} {frames : List StreamFrame}
    (h : f.streamsMap.KeepsCryptoStream opened) (hpop : f.popStreamFrames maxLen = some (f', frames)) :
    f'.streamsMap.KeepsCryptoStream opened := by
  have hcount := popRetransmissions_rule
    (P := fun m : StreamsMap E => m.KeepsCryptoStream opened)
    (fun m frame hm => hm.congr rfl rfl) maxLen f.retransmissionQueue 0 f.streamsMap h
  obtain ⟨⟨framer, new⟩, hnew, hpop⟩ := Option.bind_eq_some_iff.mp hpop
  cases hpop
  refine maybePopNormalFrames_rule (Q := fun m _ => m.KeepsCryptoStream opened) (l := []) ?_
    (fun _ _ _ hm => hm.congr rfl rfl) (fun _ _ _ hm => hm.congr rfl rfl) hcount hnew
  intro m₁ id frame m₂ _ hm₁ hframes
  obtain ⟨s, rfl⟩ := hframes.eq
  exact hm₁.update fun hid => absurd hid hframes.notCrypto

/-- The crypto stream is there, so that it can be asked for. -/
theorem getOrOpenStream_one (h : f.streamsMap.KeepsCryptoStream True) :
    f.streamsMap.getOrOpenStream 1 = some (f.streamsMap, .ok (some 1)) :=
  if_pos (h.mem trivial)

theorem hasCryptoStreamFrame_eq (h : f.streamsMap.KeepsCryptoStream True) :
    f.hasCryptoStreamFrame = some (f, decide ((f.streamsMap.stream 1).lenOfDataForWriting > 0)) :=
  hasCryptoStreamFrame_of_mem (h.mem trivial)

theorem isSome_popCryptoStreamFrame (h : f.streamsMap.KeepsCryptoStream True) (maxLen : ℕ) :
    (f.popCryptoStreamFrame maxLen).isSome = true := by
  unfold popCryptoStreamFrame
  rw [hasCryptoStreamFrame_eq h, Option.bind_eq_bind, Option.bind_some]
  dsimp only
  split_ifs
  · rfl
  · rw [getOrOpenStream_one h]
    rfl

theorem keepsCryptoStream_hasCryptoStreamFrame {has : Bool}
    (h : f.streamsMap.KeepsCryptoStream opened) (hhas : f.hasCryptoStreamFrame = some (f', has)) :
    f'.streamsMap.KeepsCryptoStream opened := by
  obtain ⟨⟨m, r⟩, hget, hhas⟩ := Option.bind_eq_some_iff.mp hhas
  obtain ⟨cs, -, hhas⟩ := Option.bind_eq_some_iff.mp hhas
  cases hhas
  exact StreamsMap.keepsCryptoStream_openRule.getOrOpenStream h hget

theorem keepsCryptoStream_popCryptoStreamFrame {maxLen : ℕ} {frame : Option StreamFrame}
    (h : f.streamsMap.KeepsCryptoStream opened)
    (hpop : f.popCryptoStreamFrame maxLen = some (f', frame)) :
    f'.streamsMap.KeepsCryptoStream opened := by
  obtain ⟨⟨f₁, has⟩, hhas, hpop⟩ := Option.bind_eq_some_iff.mp hpop
  have h₁ := keepsCryptoStream_hasCryptoStreamFrame h hhas
  dsimp only at hpop
  split_ifs at hpop
  · cases hpop
    exact h₁
  · obtain ⟨⟨m, r⟩, hget, hpop⟩ := Option.bind_eq_some_iff.mp hpop
    obtain ⟨cs, -, hpop⟩ := Option.bind_eq_some_iff.mp hpop
    cases hpop
    refine (StreamsMap.keepsCryptoStream_openRule.getOrOpenStream h₁ hget).update ?_
    rintro rfl hs
    exact hs.getDataForWriting _

end StreamFramer

/-! ## Runs -/

namespace Endpoint

variable {E : Type} {e : Endpoint E} {opened : Prop}

theorem keepsCryptoStream_callStream (h : e.streamsMap.KeepsCryptoStream opened) (id : ℕ)
    {call : Stream E → Stream E × Option RstStreamFrame}
    (hcall : id = 1 → ∀ s : Stream E, s.Unended → (call s).1.Unended) :
    (e.callStream id call).streamsMap.KeepsCryptoStream opened := by
  unfold callStream
  split_ifs
  · have hkeeps : StreamsMap.KeepsCryptoStream
        { e.streamsMap with
          stream := Function.update e.streamsMap.stream id (call (e.streamsMap.stream id)).1
          flowControlManager := e.streamsMap.flowControlManager } opened := by
      refine h.update ?_
      rintro rfl hs
      exact hcall rfl _ hs
    exact hkeeps
  · exact h

end Endpoint

namespace CryptoOp

variable {E : Type} {remoteError : ℕ → E} {e e' : Endpoint E} {opened : Prop}

/-- **A call that leaves stream 1 alone keeps it.** -/
theorem keepsCryptoStream_apply {op : CryptoOp E} (h : e.streamsMap.KeepsCryptoStream opened)
    (hop : op.LeavesCryptoStream) (happly : op.apply remoteError e = some e') :
    e'.streamsMap.KeepsCryptoStream opened := by
  cases op with
  | hasCryptoStreamFrame =>
    obtain ⟨⟨framer, has⟩, hhas, happly⟩ := Option.bind_eq_some_iff.mp happly
    cases happly
    exact StreamFramer.keepsCryptoStream_hasCryptoStreamFrame h hhas
  | popCryptoStreamFrame maxLen =>
    obtain ⟨⟨framer, frame⟩, hpop, happly⟩ := Option.bind_eq_some_iff.mp happly
    cases happly
    exact StreamFramer.keepsCryptoStream_popCryptoStreamFrame h hpop
  | call op =>
    cases op with
    | openStream =>
      cases happly
      exact StreamsMap.keepsCryptoStream_openRule.openStream h
    | read id len =>
      cases happly
      exact Endpoint.keepsCryptoStream_callStream h id fun _ _ hs => hs.read len
    | write id p =>
      cases happly
      exact Endpoint.keepsCryptoStream_callStream h id fun _ _ hs => hs.write p
    | close | cancel | reset =>
      cases happly
      exact Endpoint.keepsCryptoStream_callStream h _ fun hid => absurd hid hop
    | proceed id expired now =>
      cases happly
      unfold Endpoint.proceed
      split_ifs
      · refine h.update ?_
        rintro rfl hs
        exact hs.proceed e.streamsMap.flowControlManager expired now
      · exact h
    | setStreamPriority id weight dependency exclusive =>
      obtain ⟨m, hcall, rfl⟩ := Option.map_eq_some_iff.mp happly
      rw [StreamsMap.setStreamPriority_eq] at hcall
      exact h.withScheduler hcall
    | setStreamActive | schedule | skip =>
      obtain ⟨m, hcall, rfl⟩ := Option.map_eq_some_iff.mp happly
      exact h.withScheduler hcall
    | addFrameForRetransmission frame =>
      change (if frame ∈ e.streamFrames then _ else _) = some e' at happly
      split_ifs at happly <;> cases happly <;> exact h
    | popStreamFrames maxLen =>
      obtain ⟨⟨framer, frames⟩, hpop, happly⟩ := Option.bind_eq_some_iff.mp happly
      cases happly
      exact StreamFramer.keepsCryptoStream_popStreamFrames h hpop
    | getWindowUpdates force now rtt remoteRTTs order =>
      cases happly
      exact h.congr rfl rfl
    | garbageCollectStreams =>
      cases happly
      exact h.garbageCollectStreams
    | streamFrame frame =>
      obtain ⟨⟨m, err⟩, hhandle, happly⟩ := Option.bind_eq_some_iff.mp happly
      cases happly
      refine StreamsMap.handleStreamFrame_rule StreamsMap.keepsCryptoStream_openRule h hhandle ?_
      intro m₁ h₁ _
      refine h₁.update ?_
      intro hid hs
      rw [hid]
      exact hs.addStreamFrame _ frame
    | rstStreamFrame frame =>
      obtain ⟨⟨m, rst, err⟩, hhandle, happly⟩ := Option.bind_eq_some_iff.mp happly
      cases happly
      refine StreamsMap.handleRstStreamFrame_rule StreamsMap.keepsCryptoStream_openRule h hhandle ?_
      intro m₁ h₁ _
      exact h₁.update fun hid => absurd hid hop
    | windowUpdateFrame frame =>
      obtain ⟨⟨m, err⟩, hhandle, happly⟩ := Option.bind_eq_some_iff.mp happly
      cases happly
      unfold StreamsMap.handleWindowUpdateFrame at hhandle
      split_ifs at hhandle
      · obtain ⟨⟨m₁, r⟩, hget, hhandle⟩ := Option.bind_eq_some_iff.mp hhandle
        have h₁ := StreamsMap.keepsCryptoStream_openRule.getOrOpenStream h hget
        rcases r with err | _ | id <;> cases hhandle
        · exact h₁
        · exact h₁
        · exact h₁.congr rfl rfl
      · cases hhandle
        exact h.congr rfl rfl

theorem keepsCryptoStream_run {ops : List (CryptoOp E)} (h : e.streamsMap.KeepsCryptoStream opened)
    (hops : ∀ op ∈ ops, op.LeavesCryptoStream) (hrun : run remoteError e ops = some e') :
    e'.streamsMap.KeepsCryptoStream opened := by
  induction ops generalizing e with
  | nil =>
    cases hrun
    exact h
  | cons op ops ih =>
    obtain ⟨hop, hops⟩ := List.forall_mem_cons.mp hops
    obtain ⟨e₁, happly, hrun⟩ := Option.bind_eq_some_iff.mp hrun
    exact ih (keepsCryptoStream_apply h hop happly) hops hrun

end CryptoOp

/-- **The crypto stream stays.** Once stream 1 is open, it stays in the map in every run in which it
is neither reset nor ended, and the framer can ask for its data. -/
theorem cryptoStream_stays {E : Type} (remoteError : ℕ → E) (perspective : Perspective)
    (params : ConnectionParameters) (wrr : Bool) {ops ops' : List (CryptoOp E)} {e e' : Endpoint E}
    (hops : ∀ op ∈ ops ++ ops', op.LeavesCryptoStream)
    (hrun : CryptoOp.run remoteError (newEndpoint E perspective params wrr) ops = some e)
    (hopened : 1 ∈ e.streamsMap.streams) (hrun' : CryptoOp.run remoteError e ops' = some e') :
    1 ∈ e'.streamsMap.streams ∧ e'.framer.hasCryptoStreamFrame.isSome = true ∧
      ∀ maxLen, (e'.framer.popCryptoStreamFrame maxLen).isSome = true := by
  have hnew : (newEndpoint E perspective params wrr).streamsMap.KeepsCryptoStream False :=
    ⟨False.elim, fun h => absurd h (Finset.notMem_empty 1)⟩
  have h := CryptoOp.keepsCryptoStream_run hnew (fun op h => hops op (List.mem_append_left _ h)) hrun
  have hopen : e.streamsMap.KeepsCryptoStream True := ⟨fun _ => hopened, h.unended⟩
  have h' := CryptoOp.keepsCryptoStream_run hopen
    (fun op h => hops op (List.mem_append_right _ h)) hrun'
  refine ⟨h'.mem trivial, ?_, StreamFramer.isSome_popCryptoStreamFrame h'⟩
  rw [StreamFramer.hasCryptoStreamFrame_eq h']
  rfl

/-- A client sends the first message of the handshake, and ends stream 1. -/
def clientHello : List (CryptoOp Unit) :=
  [.call (.streamFrame ⟨1, true, true, 0, [1, 2, 3]⟩), .hasCryptoStreamFrame,
    .call (.windowUpdateFrame ⟨1, 2000⟩), .call (.rstStreamFrame ⟨3, 0, 0⟩)]

/-- The server reads the message and writes its answer. -/
def serverHello : List (CryptoOp Unit) :=
  [.call (.read 1 10), .call (.proceed 1 false 0), .call (.proceed 1 false 0),
    .call (.proceed 1 false 0), .call (.write 1 [4, 5]), .call .garbageCollectStreams,
    .popCryptoStreamFrame 1000, .call .garbageCollectStreams]

theorem handshake_keepsCryptoStream :
    ∃ e e' : Endpoint Unit,
      CryptoOp.run (fun _ => ()) (newEndpoint Unit .server smallWindows false) clientHello = some e ∧
      CryptoOp.run (fun _ => ()) e serverHello = some e' ∧
      (e'.streamsMap.stream 1).finishedReading = true ∧ 1 ∈ e'.streamsMap.streams := by
  have hleaves : ∀ op ∈ clientHello ++ serverHello, op.LeavesCryptoStream := by
    decide
  obtain ⟨e, hrun, hmem, e', hrun', hfinished⟩ :
      ∃ e ∈ CryptoOp.run (fun _ => ()) (newEndpoint Unit .server smallWindows false) clientHello,
        1 ∈ e.streamsMap.streams ∧ ∃ e' ∈ CryptoOp.run (fun _ => ()) e serverHello,
          (e'.streamsMap.stream 1).finishedReading = true := by
    decide +kernel
  exact ⟨e, e', hrun, hrun', hfinished,
    (cryptoStream_stays _ _ _ _ hleaves hrun hmem hrun').1⟩

/-- A client sends the first message of the handshake and resets stream 1. -/
def resetHello : List (CryptoOp Unit) :=
  [.call (.streamFrame ⟨1, false, true, 0, [1, 2, 3]⟩), .hasCryptoStreamFrame,
    .call (.rstStreamFrame ⟨1, 0, 3⟩), .call .garbageCollectStreams]

/-- No handler reports an error, but stream 1 is gone, and `HasCryptoStreamFrame` panics. -/
theorem resetHello_removesCryptoStream :
    ∃ e e' : Endpoint Unit,
      CryptoOp.run (fun _ => ()) (newEndpoint Unit .server smallWindows false)
        (resetHello.take 2) = some e ∧ 1 ∈ e.streamsMap.streams ∧
      CryptoOp.run (fun _ => ()) e (resetHello.drop 2) = some e' ∧ e'.reported = [] ∧
      1 ∉ e'.streamsMap.streams ∧ e'.framer.hasCryptoStreamFrame.isSome = false := by
  obtain ⟨e, hrun, hmem, e', hrun', hgone⟩ :
      ∃ e ∈ CryptoOp.run (fun _ => ()) (newEndpoint Unit .server smallWindows false)
          (resetHello.take 2), 1 ∈ e.streamsMap.streams ∧
        ∃ e' ∈ CryptoOp.run (fun _ => ()) e (resetHello.drop 2), e'.reported = [] ∧
          1 ∉ e'.streamsMap.streams ∧ e'.framer.hasCryptoStreamFrame.isSome = false := by
    decide +kernel
  exact ⟨e, e', hrun, hmem, hrun', hgone⟩

end MultipathQuic
