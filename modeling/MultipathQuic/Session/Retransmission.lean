import MultipathQuic.Session.Session

/-!
# Retransmissions

`getRetransmission` of `path_scheduler.go`. It dequeues packets that have to be sent again, from any
path. The frames of a packet with forward-secure encryption are queued again, a packet of the
handshake is returned to be sent as it is. Once the handshake is complete, packets of the handshake
are dropped. But these are all the packets that are not forward-secure, and a client sends data of
its streams in such packets as soon as it has the keys of the server config.

## Main definitions

* `getRetransmission`: the function
* `Drained`: what its loop has done

## Main results

* `getRetransmission_keeps_iff`: when no stream data is dropped
-/

namespace MultipathQuic

/-- What `getRetransmission` returns. -/
structure Retransmission where
  hasRetransmission : Bool
  retransmitPacket : Option Packet
  pth : Option PathID

namespace Session

variable {E : Type}

/-- The packets of a path that wait to be retransmitted. -/
abbrev queue (s : Session E) (id : PathID) : List Packet :=
  (s.paths.path id).sentPacketHandler.retransmissionQueue

/-- How many packets wait to be retransmitted. -/
def numQueued (s : Session E) : ℕ := (s.paths.ids.map fun id => (s.queue id).length).sum

/-- Dequeues a packet of a path, if there is one. -/
def dequeue (id : PathID) : Program (Session E) (Option (PathID × Packet)) := do
  let s ← get
  let (h, packet) := (s.paths.path id).sentPacketHandler.dequeuePacketForRetransmission
  modifyPath id fun pth => { pth with sentPacketHandler := h }
  pure (packet.map fun packet => (id, packet))

/-- Queues a frame of a dequeued packet again. A WINDOW_UPDATE frame is not repeated if the window
has grown since, and a new PATHS frame replaces an old one. -/
def requeueFrame (pth : PathID) : Frame → Program (Session E) PUnit
  | .stream f => modifyFramer fun framer => framer.addFrameForRetransmission f
  | .windowUpdate f => do
    let s ← get
    let (currentOffset, err) := s.flowControlManager.getReceiveWindow f.streamID
    if err = none ∧ f.byteOffset ≥ currentOffset then
      modifyPacker fun p => p.queueControlFrame (.windowUpdate f) pth
    else pure ()
  | .paths _ => schedulePathsFrame
  | frame => modifyPacker fun p => p.queueControlFrame frame pth

/-- Queues frames again. -/
def requeueFrames (pth : PathID) : List Frame → Program (Session E) PUnit
  | [] => pure ()
  | frame :: frames => do
    requeueFrame pth frame
    requeueFrames pth frames

/-- The loop of `getRetransmission`. -/
def getRetransmissionLoop : ℕ → Retransmission → Program (Session E) Retransmission
  | 0, _ => Program.ofOption none
  | fuel + 1, r => do
    let c ← choose
    let s ← get
    match ← Program.untilSome dequeue (c.pathOrder.order s.paths.ids) with
    | none => pure { r with retransmitPacket := none }
    | some (pth, packet) =>
      if packet.encryptionLevel ≠ .forwardSecure then
        -- handshake packets are not retransmitted when the handshake is complete
        if s.handshakeComplete then getRetransmissionLoop fuel ⟨true, some packet, some pth⟩
        else pure ⟨true, some packet, some pth⟩
      else do
        requeueFrames pth packet.getFramesForRetransmission
        getRetransmissionLoop fuel ⟨true, some packet, some pth⟩

/-- `getRetransmission`. Each round but the last one dequeues a packet. -/
def getRetransmission : Program (Session E) Retransmission := do
  let s ← get
  getRetransmissionLoop (s.numQueued + 1) ⟨false, none, none⟩

/-! ## One round -/

section Round

variable {s : Session E} {id : PathID} {packet : Packet} {rest : List Packet} {R : Session E → Prop}

/-- The session after a packet of a path was dequeued. -/
def dequeued (s : Session E) (id : PathID) : Session E :=
  { s with
    pathManager := { s.pathManager with
      paths := s.paths.modify id fun pth =>
        { pth with sentPacketHandler := pth.sentPacketHandler.dequeuePacketForRetransmission.1 } } }

theorem dequeuePacket_of_nil {h : SentPacketHandler} (hqueue : h.retransmissionQueue = []) :
    h.dequeuePacketForRetransmission = (h, none) := by
  unfold SentPacketHandler.dequeuePacketForRetransmission
  rw [hqueue]

theorem dequeuePacket_of_cons {h : SentPacketHandler}
    (hqueue : h.retransmissionQueue = packet :: rest) :
    h.dequeuePacketForRetransmission =
      ({ h with retransmissionQueue := rest, retransmissions := h.retransmissions + 1 },
        some packet) := by
  unfold SentPacketHandler.dequeuePacketForRetransmission
  rw [hqueue]

theorem dequeued_of_nil (hqueue : s.queue id = []) : s.dequeued id = s := by
  have hpaths : s.paths.modify id (fun pth => { pth with
      sentPacketHandler := pth.sentPacketHandler.dequeuePacketForRetransmission.1 }) = s.paths := by
    refine PathMap.modify_eq_self _ ?_
    rw [dequeuePacket_of_nil hqueue]
  unfold dequeued
  rw [hpaths]

theorem queue_dequeued_self (hqueue : s.queue id = packet :: rest) :
    (s.dequeued id).queue id = rest := by
  unfold queue dequeued
  rw [PathMap.path_modify_self, dequeuePacket_of_cons hqueue]

theorem queue_dequeued_of_ne {id' : PathID} (h : id' ≠ id) :
    (s.dequeued id).queue id' = s.queue id' := by
  unfold queue dequeued
  rw [PathMap.path_modify_of_ne _ _ h]

theorem ensures_dequeue {Q : Option (PathID × Packet) → Session E → Prop} :
    (dequeue id).Ensures s Q R ↔
      Q ((s.queue id).head?.map fun packet => (id, packet)) (s.dequeued id) := by
  have hhead : (s.paths.path id).sentPacketHandler.dequeuePacketForRetransmission.2 =
      (s.queue id).head? := by
    cases hqueue : s.queue id with
    | nil => rw [dequeuePacket_of_nil hqueue, List.head?_nil]
    | cons packet rest => rw [dequeuePacket_of_cons hqueue, List.head?_cons]
  rw [← hhead]
  exact Iff.rfl

/-- A round finds the first packet of a path, if any of the paths has one. -/
theorem ensures_untilSome_dequeue (order : List PathID) :
    (Program.untilSome dequeue order).Ensures s
      (fun found s' =>
        (found = none → s' = s ∧ ∀ id ∈ order, s.queue id = []) ∧
        ∀ id packet, found = some (id, packet) →
          id ∈ order ∧ (∃ rest, s.queue id = packet :: rest) ∧ s' = s.dequeued id)
      R := by
  induction order with
  | nil =>
    refine ⟨fun _ => ⟨rfl, fun id h => absurd h List.not_mem_nil⟩, ?_⟩
    intro id packet h
    cases h
  | cons id order ih =>
    rw [Program.untilSome, Program.ensures_bind, ensures_dequeue]
    cases hqueue : s.queue id with
    | nil =>
      rw [dequeued_of_nil hqueue]
      refine ih.mono ?_ fun _ h => h
      intro found s' h
      refine ⟨?_, ?_⟩
      · intro hnone
        obtain ⟨hs', hempty⟩ := h.1 hnone
        exact ⟨hs', List.forall_mem_cons.mpr ⟨hqueue, hempty⟩⟩
      · intro id' packet hfound
        obtain ⟨hmem, hrest⟩ := h.2 id' packet hfound
        exact ⟨List.mem_cons_of_mem _ hmem, hrest⟩
    | cons packet rest =>
      refine ⟨fun h => absurd h (Option.some_ne_none _), ?_⟩
      intro id' packet' hfound
      cases hfound
      exact ⟨List.mem_cons_self, ⟨rest, hqueue⟩, rfl⟩

theorem numQueued_dequeued (hid : id ∈ s.paths.ids) (hqueue : s.queue id = packet :: rest) :
    (s.dequeued id).numQueued + 1 = s.numQueued := by
  obtain ⟨before, after, hids⟩ := List.append_of_mem hid
  have hnodup := s.paths.nodup
  rw [hids, List.nodup_append] at hnodup
  obtain ⟨-, hafter, hbefore⟩ := hnodup
  have hne : ∀ id' ∈ before ++ after, id' ≠ id := by
    intro id' hid' heq
    rcases List.mem_append.mp hid' with h | h
    · exact hbefore id' h id List.mem_cons_self heq
    · exact (List.nodup_cons.mp hafter).1 (heq ▸ h)
  have hsame : ∀ ids : List PathID, (∀ id' ∈ ids, id' ≠ id) →
      ids.map (fun id' => ((s.dequeued id).queue id').length) =
        ids.map fun id' => (s.queue id').length := by
    intro ids hids
    refine List.map_congr_left fun id' hid' => ?_
    rw [queue_dequeued_of_ne (hids id' hid')]
  have hids' : (s.dequeued id).paths.ids = before ++ id :: after := hids
  unfold numQueued
  rw [hids', hids, List.map_append, List.map_append, List.map_cons, List.map_cons,
    hsame before fun id' h => hne id' (List.mem_append_left _ h),
    hsame after fun id' h => hne id' (List.mem_append_right _ h),
    queue_dequeued_self hqueue, hqueue]
  simp only [List.sum_append, List.sum_cons, List.length_cons]
  omega

end Round

/-! ## What is queued again -/

section Requeue

variable {s : Session E} {R : Session E → Prop}

/-- The STREAM frames among some frames. -/
def streamFrames (frames : List Frame) : List StreamFrame :=
  frames.filterMap fun
    | .stream f => some f
    | _ => none

theorem mem_streamFrames {frames : List Frame} {f : StreamFrame} :
    f ∈ streamFrames frames ↔ .stream f ∈ frames := by
  unfold streamFrames
  rw [List.mem_filterMap]
  constructor
  · rintro ⟨frame, hmem, hframe⟩
    cases frame <;> cases hframe
    exact hmem
  · intro hmem
    exact ⟨_, hmem, rfl⟩

/-- All STREAM frames of a packet are retransmitted. -/
theorem mem_getFramesForRetransmission {packet : Packet} {f : StreamFrame} :
    .stream f ∈ packet.getFramesForRetransmission ↔ .stream f ∈ packet.frames := by
  unfold Packet.getFramesForRetransmission
  rw [List.mem_filter]
  exact and_iff_left rfl

/-- What queueing frames again leaves alone, and the STREAM frames that it queues. -/
structure Requeued (s : Session E) (fs : List StreamFrame) (s' : Session E) : Prop where
  pathManager : s'.pathManager = s.pathManager
  handshakeComplete : s'.handshakeComplete = s.handshakeComplete
  peerBlocked : s'.peerBlocked = s.peerBlocked
  streamsMap : s'.streamsMap = s.streamsMap
  retransmissionQueue :
    s'.streamFramer.retransmissionQueue = s.streamFramer.retransmissionQueue ++ fs

/-- A change of the queues of the packer alone. -/
theorem requeued_packer {p : PacketPacker E} (hp : p.streamFramer = s.packer.streamFramer) :
    Requeued s [] { s with packer := p } where
  pathManager := rfl
  handshakeComplete := rfl
  peerBlocked := rfl
  streamsMap := congrArg StreamFramer.streamsMap hp
  retransmissionQueue := by
    show p.streamFramer.retransmissionQueue = _
    rw [hp, List.append_nil]

theorem streamFramer_queueControlFrame (p : PacketPacker E) (frame : Frame) (pth : PathID) :
    (p.queueControlFrame frame pth).streamFramer = p.streamFramer := by
  cases frame <;> rfl

theorem ensures_requeueFrame (pth : PathID) (frame : Frame) :
    (requeueFrame pth frame).Ensures s (fun _ => Requeued s (streamFrames [frame])) R := by
  have hcontrol : Requeued s [] { s with packer := s.packer.queueControlFrame frame pth } :=
    requeued_packer (streamFramer_queueControlFrame ..)
  cases frame with
  | stream f => exact ⟨rfl, rfl, rfl, rfl, rfl⟩
  | windowUpdate f =>
    unfold requeueFrame
    rw [Program.ensures_bind, Program.ensures_get]
    rcases s.flowControlManager.getReceiveWindow f.streamID with ⟨currentOffset, err⟩
    dsimp only
    split
    · exact hcontrol
    · exact requeued_packer rfl
  | paths f =>
    unfold requeueFrame
    rw [ensures_schedulePathsFrame]
    exact ⟨rfl, rfl, rfl, rfl, (List.append_nil _).symm⟩
  | ack | stopWaiting | rstStream | blocked | ping | goaway | connectionClose | addAddress
  | closePath => exact hcontrol

theorem ensures_requeueFrames (pth : PathID) (frames : List Frame) :
    (requeueFrames pth frames).Ensures s (fun _ => Requeued s (streamFrames frames)) R := by
  induction frames generalizing s with
  | nil => exact ⟨rfl, rfl, rfl, rfl, (List.append_nil _).symm⟩
  | cons frame frames ih =>
    rw [requeueFrames, Program.ensures_bind]
    refine (ensures_requeueFrame pth frame).mono ?_ fun _ h => h
    intro _ s₁ h₁
    refine ih.mono ?_ fun _ h => h
    intro _ s₂ h₂
    refine ⟨h₂.pathManager.trans h₁.pathManager,
      h₂.handshakeComplete.trans h₁.handshakeComplete, h₂.peerBlocked.trans h₁.peerBlocked,
      h₂.streamsMap.trans h₁.streamsMap, ?_⟩
    have hcons : streamFrames ([frame] ++ frames) = streamFrames [frame] ++ streamFrames frames :=
      List.filterMap_append
    rw [List.singleton_append] at hcons
    rw [h₂.retransmissionQueue, h₁.retransmissionQueue, List.append_assoc, hcons]

end Requeue

/-! ## The loop -/

/-- What the loop of `getRetransmission` has done: the packets `taken` that it dequeued from each
path, and the STREAM frames it has queued again. -/
structure Drained (s : Session E) (taken : PathID → List Packet) (r : Retransmission)
    (s' : Session E) : Prop where
  queue : ∀ id ∈ s.paths.ids, s.queue id = taken id ++ s'.queue id
  requeued : ∀ f, f ∈ s'.streamFramer.retransmissionQueue ↔
    f ∈ s.streamFramer.retransmissionQueue ∨ ∃ id ∈ s.paths.ids, ∃ packet ∈ taken id,
      packet.encryptionLevel = .forwardSecure ∧ .stream f ∈ packet.frames
  handshake : ∀ id ∈ s.paths.ids, ∀ packet ∈ taken id, packet.encryptionLevel ≠ .forwardSecure →
    s.handshakeComplete = true ∨ r.retransmitPacket = some packet
  returned : r.retransmitPacket ≠ none → s.handshakeComplete = false
  emptied : r.retransmitPacket = none → ∀ id ∈ s.paths.ids, s'.queue id = []

section Loop

variable {s s₁ s' : Session E} {id : PathID} {packet : Packet} {rest : List Packet}
  {taken : PathID → List Packet} {r : Retransmission}

/-- Nothing is queued. -/
theorem Drained.nil (hempty : ∀ id ∈ s.paths.ids, s.queue id = []) {has : Bool}
    {pth : Option PathID} : Drained s (fun _ => []) ⟨has, none, pth⟩ s where
  queue := fun _ _ => rfl
  requeued := by
    intro f
    refine ⟨Or.inl, ?_⟩
    rintro (h | ⟨_, -, _, h, -⟩)
    · exact h
    · exact absurd h List.not_mem_nil
  handshake := fun _ _ _ h => absurd h List.not_mem_nil
  returned := fun h => absurd rfl h
  emptied := fun _ => hempty

/-- A packet of the handshake is returned. -/
theorem Drained.single (hqueue : s.queue id = packet :: rest)
    (hlevel : packet.encryptionLevel ≠ .forwardSecure) (hcomplete : s.handshakeComplete = false) :
    Drained s (Function.update (fun _ => []) id [packet]) ⟨true, some packet, some id⟩
      (s.dequeued id) where
  queue := by
    intro id' _
    by_cases hid : id' = id
    · rw [hid, Function.update_self, queue_dequeued_self hqueue, hqueue]
      rfl
    · rw [Function.update_of_ne hid, queue_dequeued_of_ne hid]
      rfl
  requeued := by
    intro f
    refine ⟨Or.inl, ?_⟩
    rintro (h | ⟨id', -, packet', hmem, hsecure, -⟩)
    · exact h
    · by_cases hid : id' = id
      · rw [hid, Function.update_self, List.mem_singleton] at hmem
        exact absurd (hmem ▸ hsecure) hlevel
      · rw [Function.update_of_ne hid] at hmem
        exact absurd hmem List.not_mem_nil
  handshake := by
    intro id' _ packet' hmem _
    by_cases hid : id' = id
    · rw [hid, Function.update_self, List.mem_singleton] at hmem
      exact Or.inr (congrArg some hmem.symm)
    · rw [Function.update_of_ne hid] at hmem
      exact absurd hmem List.not_mem_nil
  returned := fun _ => hcomplete
  emptied := fun h => absurd h (Option.some_ne_none _)

/-- A packet is dequeued before the rest: it is forward-secure and its STREAM frames `fs` are queued
again, or it is dropped. -/
theorem Drained.cons (hid : id ∈ s.paths.ids) (hqueue : s.queue id = packet :: rest)
    {fs : List StreamFrame} (hrequeued : Requeued (s.dequeued id) fs s₁)
    (hfs : ∀ f, f ∈ fs ↔ packet.encryptionLevel = .forwardSecure ∧ .stream f ∈ packet.frames)
    (hdropped : packet.encryptionLevel ≠ .forwardSecure → s.handshakeComplete = true)
    (h : Drained s₁ taken r s') :
    Drained s (Function.update taken id (packet :: taken id)) r s' := by
  have hids : s₁.paths.ids = s.paths.ids := by
    unfold paths
    rw [hrequeued.pathManager]
    rfl
  have hqueue₁ : s₁.queue = (s.dequeued id).queue := by
    unfold Session.queue paths
    rw [hrequeued.pathManager]
  have hcomplete : s₁.handshakeComplete = s.handshakeComplete := hrequeued.handshakeComplete
  have hmem : ∀ id' packet', packet' ∈ Function.update taken id (packet :: taken id) id' ↔
      packet' ∈ taken id' ∨ id' = id ∧ packet' = packet := by
    intro id' packet'
    by_cases hid' : id' = id
    · rw [hid', Function.update_self, List.mem_cons, or_comm]
      exact or_congr_right (and_iff_right rfl).symm
    · rw [Function.update_of_ne hid']
      exact (or_iff_left fun h => hid' h.1).symm
  have hqueue' := h.queue
  have hrequeued' := h.requeued
  have hhandshake := h.handshake
  rw [hids] at hqueue' hrequeued' hhandshake
  rw [hqueue₁] at hqueue'
  constructor
  · intro id' hid'
    have hrest := hqueue' id' hid'
    by_cases heq : id' = id
    · rw [heq, queue_dequeued_self hqueue] at hrest
      rw [heq, Function.update_self, hqueue, hrest]
      rfl
    · rw [Function.update_of_ne heq, ← hrest, queue_dequeued_of_ne heq]
  · intro f
    rw [hrequeued', hrequeued.retransmissionQueue, List.mem_append, hfs]
    constructor
    · rintro ((hf | hf) | ⟨id', hid', packet', hmem', hf⟩)
      · exact Or.inl hf
      · exact Or.inr ⟨id, hid, packet, (hmem _ _).mpr (Or.inr ⟨rfl, rfl⟩), hf⟩
      · exact Or.inr ⟨id', hid', packet', (hmem _ _).mpr (Or.inl hmem'), hf⟩
    · rintro (hf | ⟨id', hid', packet', hmem', hf⟩)
      · exact Or.inl (Or.inl hf)
      · rcases (hmem _ _).mp hmem' with hmem' | ⟨-, rfl⟩
        · exact Or.inr ⟨id', hid', packet', hmem', hf⟩
        · exact Or.inl (Or.inr hf)
  · intro id' hid' packet' hmem' hlevel
    rcases (hmem _ _).mp hmem' with hmem' | ⟨-, rfl⟩
    · rw [← hcomplete]
      exact hhandshake id' hid' packet' hmem' hlevel
    · exact Or.inl (hdropped hlevel)
  · rw [← hcomplete]
    exact h.returned
  · rw [← hids]
    exact h.emptied

/-- Nothing is queued again for a packet that is dropped. -/
theorem Requeued.refl (s : Session E) : Requeued s [] s :=
  ⟨rfl, rfl, rfl, rfl, (List.append_nil _).symm⟩

/-- The loop returns, since each round but the last one dequeues a packet. -/
theorem ensures_getRetransmissionLoop {fuel : ℕ} (hfuel : s.numQueued < fuel) :
    (getRetransmissionLoop fuel r).Ensures s (fun r' s' => ∃ taken, Drained s taken r' s')
      fun _ => False := by
  induction fuel generalizing s r with
  | zero => exact absurd hfuel (Nat.not_lt_zero _)
  | succ fuel ih =>
    rw [getRetransmissionLoop, Program.ensures_bind, ensures_choose, Program.ensures_bind,
      Program.ensures_get, Program.ensures_bind]
    -- the choice that is drawn is the only difference to `s`
    set s₀ : Session E := { s with choices := fun n => s.choices (n + 1) }
    have hdrained : ∀ {taken r' s'}, Drained s₀ taken r' s' → Drained s taken r' s' := fun h =>
      ⟨h.queue, h.requeued, h.handshake, h.returned, h.emptied⟩
    refine (ensures_untilSome_dequeue _).mono ?_ fun _ h => h
    rintro found s₁ ⟨hnone, hsome⟩
    rcases found with _ | ⟨id, packet⟩
    · obtain ⟨rfl, hempty⟩ := hnone rfl
      refine ⟨_, hdrained (Drained.nil ?_)⟩
      intro id hid
      exact hempty id ((MapOrder.mem_order _).mpr hid)
    · obtain ⟨horder, ⟨rest, hqueue⟩, rfl⟩ := hsome id packet rfl
      have hid : id ∈ s₀.paths.ids := (MapOrder.mem_order _).mp horder
      have hless : (s₀.dequeued id).numQueued < fuel := by
        have hcount := numQueued_dequeued hid hqueue
        have hsame : s₀.numQueued = s.numQueued := rfl
        omega
      dsimp only
      split_ifs with hlevel hcomplete
      · -- the handshake is complete: the packet is dropped
        refine (ih hless).mono ?_ fun _ h => h
        rintro r' s' ⟨taken, h⟩
        refine ⟨_, hdrained (h.cons hid hqueue (.refl _) ?_ fun _ => hcomplete)⟩
        intro f
        exact ⟨fun h => absurd h List.not_mem_nil, fun h => absurd h.1 hlevel⟩
      · exact ⟨_, hdrained (.single hqueue hlevel (Bool.eq_false_iff.mpr hcomplete))⟩
      · rw [Program.ensures_bind]
        refine (ensures_requeueFrames id _).mono ?_ fun _ h => h
        intro _ s₂ h₂
        have hless₂ : s₂.numQueued < fuel := by
          have hsame : s₂.numQueued = (s₀.dequeued id).numQueued := by
            unfold numQueued Session.queue paths
            rw [h₂.pathManager]
          rw [hsame]
          exact hless
        refine (ih hless₂).mono ?_ fun _ h => h
        rintro r' s' ⟨taken, h⟩
        refine ⟨_, hdrained (h.cons hid hqueue h₂ ?_ fun h => absurd h hlevel)⟩
        intro f
        rw [mem_streamFrames, mem_getFramesForRetransmission]
        exact (and_iff_right (not_not.mp hlevel)).symm

/-- Once the handshake is complete, all queues are emptied. -/
theorem Drained.taken_eq (h : Drained s taken r s') (hcomplete : s.handshakeComplete = true)
    (hid : id ∈ s.paths.ids) : r.retransmitPacket = none ∧ taken id = s.queue id := by
  have hnone : r.retransmitPacket = none := by
    by_contra hsome
    exact absurd (hcomplete.symm.trans (h.returned hsome)) Bool.noConfusion
  refine ⟨hnone, ?_⟩
  rw [h.queue id hid, h.emptied hnone id hid, List.append_nil]

theorem ensures_getRetransmission :
    getRetransmission.Ensures s (fun r s' => ∃ taken, Drained s taken r s') fun _ => False := by
  unfold getRetransmission
  rw [Program.ensures_bind, Program.ensures_get]
  exact ensures_getRetransmissionLoop (Nat.lt_succ_self _)

end Loop

end Session

/-! ## Stream data -/

/-- Each STREAM frame of a packet that was dequeued is queued again, or it is in the packet that is
returned. -/
def Retransmission.Keeps {E : Type} (s : Session E) (r : Retransmission) (s' : Session E) : Prop :=
  ∀ id ∈ s.paths.ids, ∃ taken, s.queue id = taken ++ s'.queue id ∧
    ∀ packet ∈ taken, ∀ f, .stream f ∈ packet.frames →
      f ∈ s'.streamFramer.retransmissionQueue ∨
        ∃ returned ∈ r.retransmitPacket, .stream f ∈ returned.frames

/-- The frame waits to be retransmitted: it is queued, or it is in a queued packet whose frames are
queued again. -/
def Session.WaitsForRetransmission {E : Type} (s : Session E) (f : StreamFrame) : Prop :=
  f ∈ s.streamFramer.retransmissionQueue ∨ ∃ id ∈ s.paths.ids, ∃ packet ∈ s.queue id,
    packet.encryptionLevel = .forwardSecure ∧ .stream f ∈ packet.frames

section StreamData

variable {E : Type}

open Session

/-- `getRetransmission` returns and keeps all stream data iff the handshake is not complete, or each
STREAM frame of a queued packet that is not forward-secure waits to be retransmitted besides. -/
theorem getRetransmission_keeps_iff (s : Session E) :
    (∃ r s', getRetransmission.exec s = (some r, s') ∧ r.Keeps s s') ↔
      (s.handshakeComplete = true → ∀ id ∈ s.paths.ids, ∀ packet ∈ s.queue id,
        packet.encryptionLevel ≠ .forwardSecure → ∀ f, .stream f ∈ packet.frames →
          s.WaitsForRetransmission f) := by
  obtain ⟨r, s', hexec, taken, h⟩ := (ensures_getRetransmission (s := s)).exists_exec
  constructor
  · rintro ⟨r', s'', hexec', hkeeps⟩ hcomplete id hid packet hpacket hlevel f hf
    cases hexec.symm.trans hexec'
    obtain ⟨hnone, -⟩ := h.taken_eq hcomplete hid
    obtain ⟨taken', hqueue, hkept⟩ := hkeeps id hid
    rw [h.emptied hnone id hid, List.append_nil] at hqueue
    rcases hkept packet (hqueue ▸ hpacket) f hf with hqueued | ⟨returned, hreturned, -⟩
    · rcases (h.requeued f).mp hqueued with hold | ⟨id', hid', packet', hmem, hpacket'⟩
      · exact Or.inl hold
      · exact Or.inr ⟨id', hid', packet', (h.taken_eq hcomplete hid').2 ▸ hmem, hpacket'⟩
    · rw [hnone] at hreturned
      cases hreturned
  · intro hwaits
    refine ⟨r, s', hexec, ?_⟩
    intro id hid
    refine ⟨taken id, h.queue id hid, ?_⟩
    intro packet hpacket f hf
    by_cases hlevel : packet.encryptionLevel = .forwardSecure
    · exact Or.inl ((h.requeued f).mpr (Or.inr ⟨id, hid, packet, hpacket, hlevel, hf⟩))
    rcases h.handshake id hid packet hpacket hlevel with hcomplete | hreturned
    · have hqueued : packet ∈ s.queue id := (h.taken_eq hcomplete hid).2 ▸ hpacket
      refine Or.inl ((h.requeued f).mpr ?_)
      rcases hwaits hcomplete id hid packet hqueued hlevel f hf with
        hold | ⟨id', hid', packet', hpacket', hf'⟩
      · exact Or.inl hold
      · exact Or.inr ⟨id', hid', packet', (h.taken_eq hcomplete hid').2 ▸ hpacket', hf'⟩
    · exact Or.inr ⟨packet, hreturned, hf⟩

/-- A client has sent data of stream 5 with the keys of the server config, and nothing was
acknowledged until the timer of the path expired. By then the handshake is complete. -/
def earlyDataLost : Session Unit :=
  let address : UDPAddr := ⟨[127, 0, 0, 1], 443⟩
  let env : SentEnv := ⟨0, 0, 0, 0, 0, false⟩
  let data : StreamFrame :=
    { streamID := 5, finBit := false, dataLenPresent := false, offset := 0, data := [1, 2, 3] }
  let packet : Packet :=
    { packetNumber := 1, frames := [.stream data], length := 30, encryptionLevel := .secure,
      sendTime := 0 }
  let pm := PathManager.setup .client versionMP address address
  let streams := newStreamsMap Unit .client ⟨0, 0, 0, 0, 0, 0, 0, 0⟩ none
  { pathManager := { pm with
      paths := pm.paths.modify initialPathID fun pth =>
        { pth with sentPacketHandler := (pth.sentPacketHandler.sentPacket packet env).1.onAlarm env } }
    packer :=
      { connectionID := 0
        perspective := .client
        version := versionMP
        cryptoSetup := ⟨plainSealer, some plainSealer, some plainSealer, []⟩
        truncateConnectionID := false
        streamFramer := newStreamFramer streams
        controlFrames := []
        stopWaiting := fun _ => none
        ackFrame := fun _ => none }
    handshakeComplete := true
    hasPathManager := true
    createPaths := false
    localAddrs := []
    closedPaths := []
    remoteRTTs := []
    peerBlocked := false
    closeOnce := false
    closeChan := none
    remoteError := fun _ => ()
    choices := fun _ => .quiet }

theorem earlyDataLost_dropsData :
    ∃ r s', getRetransmission.exec earlyDataLost = (some r, s') ∧ ¬ r.Keeps earlyDataLost s' := by
  have hreturns : (getRetransmission.exec earlyDataLost).1.map Retransmission.retransmitPacket =
      some none := by
    decide +kernel
  have hempty : (getRetransmission.exec earlyDataLost).2.queue initialPathID = [] := by
    decide +kernel
  have hlost :
      (getRetransmission.exec earlyDataLost).2.streamFramer.retransmissionQueue = [] := by
    decide +kernel
  have hqueued : ∃ packet ∈ earlyDataLost.queue initialPathID, ∃ f, .stream f ∈ packet.frames := by
    refine ⟨_, List.mem_cons_self, _, List.mem_cons_self⟩
  generalize getRetransmission.exec earlyDataLost = result at *
  obtain ⟨r, s'⟩ := result
  obtain ⟨r, rfl, hnone⟩ := Option.map_eq_some_iff.mp hreturns
  refine ⟨r, s', rfl, fun hkeeps => ?_⟩
  obtain ⟨packet, hpacket, f, hf⟩ := hqueued
  obtain ⟨taken, hqueue, hkept⟩ := hkeeps initialPathID (by decide +kernel)
  dsimp only at hempty hlost
  rw [hempty, List.append_nil] at hqueue
  rcases hkept packet (hqueue ▸ hpacket) f hf with h | ⟨returned, h, -⟩
  · rw [hlost] at h
    exact absurd h List.not_mem_nil
  · rw [hnone] at h
    cases h

end StreamData

end MultipathQuic
