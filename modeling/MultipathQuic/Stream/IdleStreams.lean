import MultipathQuic.Scheduler.Eligible
import MultipathQuic.Scheduler.RoundRobin
import MultipathQuic.Stream.Lifecycle
import MultipathQuic.Stream.WorkConservation

/-!
# Streams of idle nodes

A FIN is sent for the node that `schedule` returns, which is the root or an active one, and no node
becomes idle again. No two nodes have one stream, since a stream is opened once. So in every state of
a session the streams of idle nodes are unfinished, whatever has become of the tree: if interior
nodes are idle, it is enough that the leaves are unfinished.

## Main definitions

* `StreamScheduler.Quiet opened sent s`: the streams of idle nodes have not sent a FIN

## Main results

* `SendRun.idle_unfinished`: the streams of idle nodes are unfinished
* `SendRun.saturated_iff`: ready leaves are enough
-/

namespace MultipathQuic

open Function

/-! ## The scheduler -/

namespace StreamScheduler

variable {opened opened' sent sent' : ℕ → Prop} {view : ℕ → StreamView} {s s' : StreamScheduler}
  {n m id fuel : ℕ}

/-- The streams of the nodes have been opened, each of them belongs to one node, and those of idle
nodes have not sent a FIN. -/
structure Quiet (opened sent : ℕ → Prop) (s : StreamScheduler) : Prop where
  toSend : s.toSend = none
  header : ∀ n ≠ 0, (s.node n).id = 0 → (s.node n).stream = none
  opened : ∀ {n id}, (s.node n).stream = some id → opened id
  distinct : ∀ {n n' id}, (s.node n).stream = some id → (s.node n').stream = some id → n = n'
  idle : ∀ {n id}, n ≠ 0 → (s.node n).state = .idle → (s.node n).stream = some id → ¬ sent id

theorem quiet_new (opened sent : ℕ → Prop) : Quiet opened sent newStreamScheduler :=
  ⟨rfl, fun _ _ _ => rfl, nofun, nofun, nofun⟩

theorem Quiet.mono (h : Quiet opened sent s) (hopened : ∀ id, opened id → opened' id)
    (hsent : ∀ id, opened id → sent' id → sent id) : Quiet opened' sent' s where
  toSend := h.toSend
  header := h.header
  opened hid := hopened _ (h.opened hid)
  distinct := h.distinct
  idle h0 hidle hid hsent' := h.idle h0 hidle hid (hsent _ (h.opened hid) hsent')

/-- A node keeps its stream or loses it, and does not become idle. -/
theorem Quiet.modify (h : Quiet opened sent s) {f : Node → Node}
    (hid : (f (s.node n)).id = (s.node n).id)
    (hstream : (f (s.node n)).stream = (s.node n).stream ∨ (f (s.node n)).stream = none)
    (hstate : (f (s.node n)).state = .idle → (s.node n).state = .idle) :
    Quiet opened sent (s.modify n f) := by
  have hkept : ∀ {x id}, ((s.modify n f).node x).stream = some id → (s.node x).stream = some id := by
    intro x id hx
    by_cases hxn : x = n
    · subst hxn
      rw [modify_node_self] at hx
      rcases hstream with hsame | hnone
      · exact hsame.symm.trans hx
      · rw [hnone] at hx
        cases hx
    · rwa [modify_node_of_ne hxn] at hx
  have hidle : ∀ {x}, ((s.modify n f).node x).state = .idle → (s.node x).state = .idle := by
    intro x hx
    by_cases hxn : x = n
    · subst hxn
      rw [modify_node_self] at hx
      exact hstate hx
    · rwa [modify_node_of_ne hxn] at hx
  refine ⟨h.toSend, fun x h0 hx => ?_, fun hx => h.opened (hkept hx),
    fun hx hx' => h.distinct (hkept hx) (hkept hx'), fun h0 hx hid => h.idle h0 (hidle hx) (hkept hid)⟩
  rw [modify_field Node.id hid x] at hx
  cases hstream : ((s.modify n f).node x).stream with
  | none => rfl
  | some id =>
    have hnone := h.header x h0 hx
    rw [hkept hstream] at hnone
    cases hnone

theorem rewireRule_quiet : RewireRule (Quiet opened sent) where
  modify hf h := h.modify (congrArg Node.id hf : _) (Or.inl (congrArg Node.stream hf : _))
    fun hidle => (congrArg Node.state hf : _).symm.trans hidle

theorem scheduleRule_quiet (view : ℕ → StreamView) :
    ScheduleRule view (fun _ => True) (Quiet opened sent) where
  child := fun _ _ _ => trivial
  refresh := by
    intro s n h _
    refine h.modify ?_ (Or.inl ?_) ?_
    · dsimp only
      split_ifs <;> split <;> rfl
    · dsimp only
      split_ifs <;> split <;> rfl
    · dsimp only
      split_ifs <;> split <;> exact id
  count := fun hf h => h.modify (congrArg Node.id hf : _) (Or.inl (congrArg Node.stream hf : _))
    fun hidle => (congrArg Node.state hf : _).symm.trans hidle
  drop := by
    intro s n c _ h
    unfold StreamScheduler.dropChild
    exact h.modify rfl (Or.inl rfl) id
  close := by
    intro s n h _ _
    have hcounted : Quiet opened sent { s with openStreams := s.openStreams - 1 } :=
      ⟨h.toSend, h.header, h.opened, h.distinct, h.idle⟩
    refine hcounted.modify rfl (Or.inr rfl) ?_
    rintro ⟨⟩

/-- A stream that is opened gets a node. -/
theorem Quiet.addNode (h : Quiet opened sent s) (h0 : id ≠ 0) (hfresh : ¬ opened id)
    (hnot : ¬ sent id) : Quiet (fun x => opened x ∨ x = id) sent (s.addNode id) := by
  have hmono : Quiet (fun x => opened x ∨ x = id) sent s := h.mono (fun _ => Or.inl) fun _ _ h => h
  have hnew : ∀ n, (s.node n).stream ≠ some id := fun n hn => hfresh (h.opened hn)
  -- one node changes, and has the new stream then
  have hupdate : ∀ (t : StreamScheduler) (n : ℕ) (node : Node), t.toSend = s.toSend →
      t.node = update s.node n node → node.stream = some id → (n ≠ 0 → node.id ≠ 0) →
      Quiet (fun x => opened x ∨ x = id) sent t := by
    intro t n node htoSend hnode hstream hheader
    have hcases : ∀ {x i}, (t.node x).stream = some i →
        x = n ∧ i = id ∨ x ≠ n ∧ (s.node x).stream = some i := by
      intro x i hx
      by_cases hxn : x = n
      · subst hxn
        rw [hnode, update_self, hstream] at hx
        exact Or.inl ⟨rfl, (Option.some.inj hx).symm⟩
      · rw [hnode, update_of_ne hxn] at hx
        exact Or.inr ⟨hxn, hx⟩
    refine ⟨htoSend.trans h.toSend, fun x hx hxid => ?_, fun hx => ?_, fun hx hx' => ?_,
      fun hx hidle hstream => ?_⟩
    · by_cases hxn : x = n
      · subst hxn
        rw [hnode, update_self] at hxid
        exact absurd hxid (hheader hx)
      · rw [hnode, update_of_ne hxn] at hxid ⊢
        exact h.header x hx hxid
    · rcases hcases hx with ⟨-, rfl⟩ | ⟨-, hx⟩
      · exact Or.inr rfl
      · exact Or.inl (h.opened hx)
    · rcases hcases hx with ⟨rfl, rfl⟩ | ⟨-, hx⟩ <;> rcases hcases hx' with ⟨rfl, hi⟩ | ⟨-, hx'⟩
      · rfl
      · exact absurd hx' (hnew _)
      · exact absurd (hi ▸ hx) (hnew _)
      · exact h.distinct hx hx'
    · rcases hcases hstream with ⟨-, rfl⟩ | ⟨hxn, hstream⟩
      · exact hnot
      · rw [hnode, update_of_ne hxn] at hidle
        exact h.idle hx hidle hstream
  unfold StreamScheduler.addNode
  split
  · exact hmono
  split
  · next h3 => exact hupdate _ 0 _ rfl rfl (congrArg some h3.symm ▸ rfl) fun hne => absurd rfl hne
  · exact hupdate _ s.size _ rfl rfl rfl fun _ => h0

theorem Quiet.setActive (h : Quiet opened sent s) {err : Option SchedulerError}
    (heq : s.setActive id = some (s', err)) : Quiet opened sent s' := by
  obtain rfl | ⟨n, p, t, -, -, -, hadd, rfl⟩ := setActive_cases heq
  · exact h
  · have hactive : Quiet opened sent (s.modify n fun node => { node with state := .active }) :=
      h.modify rfl (Or.inl rfl) nofun
    have ht := rewireRule_quiet.addWeightUp hactive hadd
    exact ⟨ht.toSend, ht.header, ht.opened, ht.distinct, ht.idle⟩

/-- A stream may send its FIN when `schedule` has returned its node. -/
theorem Quiet.send (h : Quiet opened sent s) (hn : s.eligible view n)
    (hid : (s.node n).stream = some id) (hsent : ∀ x ≠ id, sent' x → sent x) : Quiet opened sent' s := by
  refine ⟨h.toSend, h.header, h.opened, h.distinct, fun {n' i} h0 hidle hi hsent' => ?_⟩
  by_cases hie : i = id
  · subst hie
    obtain rfl := h.distinct hid hi
    by_cases hheader : (s.node n).id = 0
    · have hnone := h.header n h0 hheader
      rw [hid] at hnone
      cases hnone
    · have hactive := hn.2.2
      rw [if_neg hheader, hidle] at hactive
      cases hactive
  · exact h.idle h0 hidle hi (hsent i hie hsent')

end StreamScheduler

/-! ## The session -/

namespace StreamsMap

variable {E : Type} {m m' : StreamsMap E} {id : ℕ}

/-- The FIN of a stream has been sent. -/
def sentFin (m : StreamsMap E) (id : ℕ) : Prop := (m.stream id).finSent = true

/-- The streams of idle nodes have not sent a FIN. -/
structure Quiet (m : StreamsMap E) : Prop extends Numbered m where
  pos : 0 < m.nextStream
  scheduler : ∀ sch ∈ m.streamScheduler, sch.Quiet (fun id => m.wasOpened id = true) m.sentFin

/-- A stream that is opened for the first time. -/
theorem quiet_putStream {opened : ℕ → Prop} (h : ∀ sch ∈ m.streamScheduler, sch.Quiet opened m.sentFin)
    (h0 : id ≠ 0) (hfresh : ¬ opened id) :
    ∀ sch ∈ (m.putStream id).streamScheduler,
      sch.Quiet (fun x => opened x ∨ x = id) (m.putStream id).sentFin := by
  intro sch hsch
  unfold putStream at hsch ⊢
  dsimp only at hsch ⊢
  split at hsch
  · next hmem =>
    rw [if_pos hmem]
    exact (h sch hsch).mono (fun _ => Or.inl) fun _ _ hsent => hsent
  · next hmem =>
    rw [if_neg hmem]
    obtain ⟨sch₀, hsch₀, rfl⟩ := Option.map_eq_some_iff.mp hsch
    refine StreamScheduler.Quiet.addNode ?_ h0 hfresh ?_
    · refine (h sch₀ hsch₀).mono (fun _ hx => hx) fun x hx hsent => ?_
      have hne : x ≠ id := fun heq => hfresh (heq ▸ hx)
      change (update m.stream id (newStream E id) x).finSent = true at hsent
      rwa [update_of_ne hne] at hsent
    · change ¬ (update m.stream id (newStream E id) id).finSent = true
      rw [update_self]
      exact Bool.false_ne_true

theorem Quiet.wasOpened_zero (h : m.Quiet) : m.wasOpened 0 = true := by
  have hpos := h.pos
  unfold wasOpened
  split_ifs
  · exact decide_eq_true (Nat.zero_le _)
  · exact decide_eq_true hpos

theorem Quiet.openRemoteStream (h : m.Quiet) (hsid : m.Follows id)
    (hopen : m.openRemoteStream id = .ok m') : m'.Quiet := by
  have ho := opens_of_openRemoteStream hopen
  obtain ⟨hnumbered, hhighest, -⟩ := h.toNumbered.opens ho hsid
  have hfresh : ¬ m.wasOpened id = true := by simp [hsid.not_wasOpened]
  have h0 : id ≠ 0 := by
    rintro rfl
    exact hfresh h.wasOpened_zero
  have hwas := hsid.wasOpened_iff ho hhighest
  refine ⟨hnumbered, ho.nextStream ▸ h.pos, fun sch hsch => ?_⟩
  unfold StreamsMap.openRemoteStream at hopen
  split_ifs at hopen
  cases hopen
  refine (quiet_putStream ?_ h0 hfresh sch hsch).mono (fun x => (hwas x).mpr)
    fun _ _ hsent => hsent
  cases m.perspective <;> exact h.scheduler

theorem Quiet.openStream (h : m.Quiet) (hlt : m.nextStream + 2 < 2 ^ 32) : m.openStream.1.Quiet := by
  unfold StreamsMap.openStream
  split
  · next m' id hclose hopen =>
    have ho := opensOwn_of_openStreamImpl hopen
    have hfresh : ¬ m.wasOpened m.nextStream = true := by simp [h.not_wasOpened_nextStream]
    refine ⟨h.toNumbered.opensOwn ho, ?_, fun sch hsch => ?_⟩
    · rw [ho.nextStream, add32_of_lt hlt]
      exact Nat.succ_pos _
    · have hwas := ho.wasOpened_iff h.toNumbered hlt
      have h0 := h.pos.ne'
      unfold openStreamImpl at hopen
      split_ifs at hopen
      cases hopen
      refine (quiet_putStream ?_ h0 hfresh sch hsch).mono (fun x => (hwas x).mpr)
        fun _ _ hsent => hsent
      cases m.perspective.other <;> exact h.scheduler
  · exact h

/-- A call that opens no stream and sends no FIN. -/
theorem Quiet.of_eq (h : m.Quiet) (hpersp : m'.perspective = m.perspective)
    (hnext : m'.nextStream = m.nextStream)
    (hhighest : m'.highestStreamOpenedByPeer = m.highestStreamOpenedByPeer)
    (hscheduler : ∀ sch ∈ m'.streamScheduler,
      sch.Quiet (fun id => m.wasOpened id = true) m'.sentFin) : m'.Quiet := by
  refine ⟨⟨?_, ?_, ?_⟩, hnext ▸ h.pos, fun sch hsch => ?_⟩
  · rw [hpersp, hnext]
    exact h.nextStream
  · rw [hpersp, hhighest]
    exact h.highest
  · rw [hhighest]
    exact h.highest_lt
  · refine (hscheduler sch hsch).mono (fun id hid => ?_) fun _ _ hsent => hsent
    rwa [wasOpened, hpersp, hnext, hhighest]

theorem Quiet.modifyStream (h : m.Quiet) {f : Stream E → Stream E}
    (hf : ∀ s, (f s).finSent = s.finSent) (id : ℕ) : (m.modifyStream id f).Quiet := by
  refine h.of_eq rfl rfl rfl fun sch hsch => (h.scheduler sch hsch).mono (fun _ hid => hid) ?_
  intro x _ hsent
  change (update m.stream id (f (m.stream id)) x).finSent = true at hsent
  by_cases hx : x = id
  · subst hx
    rwa [update_self, hf] at hsent
  · rwa [update_of_ne hx] at hsent

theorem Quiet.withScheduler (h : m.Quiet) {call : StreamScheduler → Option StreamScheduler}
    (hcall : ∀ {opened sent sch sch'}, StreamScheduler.Quiet opened sent sch → call sch = some sch' →
      StreamScheduler.Quiet opened sent sch')
    (heq : m.withScheduler call = some m') : m'.Quiet := by
  unfold StreamsMap.withScheduler at heq
  split at heq
  · cases heq
    exact h
  · next sch hsch =>
    obtain ⟨sch', hsch', rfl⟩ := Option.map_eq_some_iff.mp heq
    refine h.of_eq rfl rfl rfl ?_
    rintro _ ⟨⟩
    exact hcall (h.scheduler sch hsch) hsch'

theorem Quiet.garbageCollectStreams (h : m.Quiet) : m.garbageCollectStreams.Quiet := by
  refine garbageCollectStreams_rule (P := Quiet) (fun m₁ id m₂ hm _ hr => ?_) h
  refine hm.of_eq hr.perspective hr.nextStream hr.highest fun sch hsch => ?_
  have hsch' := hm.scheduler sch (hr.streamScheduler ▸ hsch)
  refine hsch'.mono (fun _ hid => hid) fun x _ hsent => ?_
  change (m₂.stream x).finSent = true at hsent
  rwa [hr.stream] at hsent

end StreamsMap

theorem Stream.finSent_maybeSendReset {E : Type} (s : Stream E) :
    s.maybeSendReset.1.finSent = s.finSent := by
  unfold Stream.maybeSendReset
  split_ifs <;> rfl

/-- A frame is sent for a node that is not idle. -/
theorem StreamFramer.quiet_popScheduled {E : Type} {f f' : StreamFramer E} {sch : StreamScheduler}
    {maxBytes : ℕ} {frames : List StreamFrame} (h : f.streamsMap.Quiet)
    (hsch : f.streamsMap.streamScheduler = some sch)
    (hpop : f.popScheduled sch maxBytes = some (f', frames)) : f'.streamsMap.Quiet := by
  have hquiet := h.scheduler sch hsch
  obtain ⟨⟨strm, sch'⟩, hnext, hpop⟩ := Option.bind_eq_some_iff.mp hpop
  rw [StreamFramer.nextNode, hquiet.toSend] at hnext
  have hquiet' := (StreamScheduler.scheduleRule_quiet _).traverse hquiet trivial hnext
  dsimp only at hpop
  have hm : ({ f.streamsMap with streamScheduler := some sch' } : StreamsMap E).Quiet := by
    refine h.of_eq rfl rfl rfl ?_
    rintro _ ⟨⟩
    exact hquiet'
  generalize hmap : ({ f.streamsMap with streamScheduler := some sch' } : StreamsMap E) = m
    at hpop hm
  split at hpop
  · cases hpop
    exact hm
  · next id hid =>
    obtain ⟨n, rfl, hn⟩ := Option.bind_eq_some_iff.mp hid
    have hnot := StreamScheduler.traverse_eligible hnext
    rcases m.send_cases id maxBytes with ⟨-, heq⟩ | ⟨-, m', blocked, frame, heq, hframes⟩
    · rw [heq] at hpop
      cases hpop
      exact hm
    · rw [heq] at hpop
      cases hpop
      obtain ⟨s, rfl⟩ := hframes.eq
      subst hmap
      refine hm.of_eq rfl rfl rfl ?_
      rintro _ ⟨⟩
      refine hquiet'.send hnot hn fun x hx hsent => ?_
      change (update f.streamsMap.stream id s x).finSent = true at hsent
      rwa [update_of_ne hx] at hsent

namespace SendRun

variable {E : Type} {st st' : SendState E}

theorem quiet_popStreamFrames {maxLen : ℕ} (h : st.streamsMap.Quiet)
    (hpop : st.popStreamFrames maxLen = some st') : st'.streamsMap.Quiet := by
  obtain ⟨⟨framer, frames⟩, hframes, hpop⟩ := Option.bind_eq_some_iff.mp hpop
  cases hpop
  obtain ⟨⟨framer', normal⟩, hnormal, hframes⟩ := Option.bind_eq_some_iff.mp hframes
  cases hframes
  -- retransmissions only count
  have hretrans : (st.framer.maybePopFramesForRetransmission maxLen).1.streamsMap.Quiet :=
    StreamFramer.popRetransmissions_rule (P := StreamsMap.Quiet)
      (fun m frame hm => hm.of_eq rfl rfl rfl hm.scheduler) maxLen _ 0 st.streamsMap h
  unfold StreamFramer.maybePopNormalFrames at hnormal
  split at hnormal
  · next hnone =>
    refine (StreamFramer.popRoundRobin_rule (l := [])
      (Q := fun m _ => m.Quiet ∧ m.streamScheduler = none) (fun m id frame m' _ hm hframes => ?_)
      (fun m i _ hm => ⟨hm.1.of_eq rfl rfl rfl hm.1.scheduler, hm.2⟩) ⟨hretrans, hnone⟩ hnormal).1
    obtain ⟨s, rfl⟩ := hframes.eq
    refine ⟨hm.1.of_eq rfl rfl rfl fun sch hsch => ?_, hm.2⟩
    exact absurd (hm.2.symm.trans hsch) nofun
  · next sch hsch => exact StreamFramer.quiet_popScheduled hretrans hsch hnormal

/-- Every call of the session keeps the idle nodes quiet, unless the IDs of streams wrap around. -/
theorem quiet_apply {op : SendOp E} (h : st.streamsMap.Quiet)
    (hlt : op = .openStream → st.streamsMap.nextStream + 2 < 2 ^ 32)
    (hop : op.apply st = some st') : st'.streamsMap.Quiet := by
  cases op with
  | openStream =>
    cases hop
    exact h.openStream (hlt rfl)
  | getOrOpenStream id =>
    obtain ⟨⟨m, r⟩, hopen, rfl⟩ := Option.map_eq_some_iff.mp hop
    exact (h.toNumbered.getOrOpenStream (P := StreamsMap.Quiet) h
      (fun _ _ _ _ hm hsid hopen => hm.openRemoteStream hsid hopen) hopen).2
  | write id p =>
    cases hop
    refine h.modifyStream (f := fun s => (s.write p).1) (fun s => ?_) id
    unfold Stream.write
    split_ifs <;> rfl
  | close id =>
    cases hop
    exact h.modifyStream (f := Stream.close) (fun _ => rfl) id
  | cancel id err =>
    cases hop
    exact h.modifyStream (f := fun s => s.cancel err) (fun _ => rfl) id
  | reset id err =>
    cases hop
    refine h.modifyStream (f := fun s => (s.reset err).1) (fun s => ?_) id
    unfold Stream.reset
    split_ifs
    · rfl
    · exact Stream.finSent_maybeSendReset _
  | registerRemoteError id err =>
    cases hop
    refine h.modifyStream (f := fun s => (s.registerRemoteError err).1) (fun s => ?_) id
    unfold Stream.registerRemoteError
    split_ifs
    · rfl
    · exact Stream.finSent_maybeSendReset _
  | setStreamPriority id weight dependency exclusive =>
    obtain ⟨m, hcall, rfl⟩ := Option.map_eq_some_iff.mp hop
    rw [StreamsMap.setStreamPriority_eq] at hcall
    refine h.withScheduler (fun hquiet heq => ?_) hcall
    obtain ⟨sch₁, err, hweight, hcases⟩ := StreamScheduler.setStreamPriority_cases heq
    have hquiet₁ := StreamScheduler.rewireRule_quiet.maybeSetWeight hquiet hweight
    rcases hcases with rfl | ⟨-, heq⟩
    · exact hquiet₁
    · obtain ⟨⟨sch₂, err⟩, hparent, rfl⟩ := Option.map_eq_some_iff.mp heq
      exact StreamScheduler.rewireRule_quiet.maybeSetParent hquiet₁ hparent
  | setStreamActive id =>
    obtain ⟨m, hcall, rfl⟩ := Option.map_eq_some_iff.mp hop
    refine h.withScheduler (fun hquiet heq => ?_) hcall
    obtain ⟨⟨sch₁, err⟩, hactive, rfl⟩ := Option.map_eq_some_iff.mp heq
    exact hquiet.setActive hactive
  | schedule =>
    obtain ⟨m, hcall, rfl⟩ := Option.map_eq_some_iff.mp hop
    refine h.withScheduler (fun hquiet heq => ?_) hcall
    obtain ⟨⟨strm, sch₁⟩, hschedule, rfl⟩ := Option.map_eq_some_iff.mp heq
    exact (StreamScheduler.scheduleRule_quiet _).traverse hquiet trivial hschedule
  | skip n =>
    obtain ⟨m, hcall, rfl⟩ := Option.map_eq_some_iff.mp hop
    exact h.withScheduler (fun hquiet heq => StreamScheduler.rewireRule_quiet.skip hquiet heq) hcall
  | updateWindow | addFrameForRetransmission =>
    cases hop
    exact h.of_eq rfl rfl rfl h.scheduler
  | popStreamFrames maxLen => exact quiet_popStreamFrames h hop
  | garbageCollectStreams =>
    cases hop
    exact h.garbageCollectStreams

/-- The IDs of the endpoint's own streams do not wrap around. -/
def NoWrap (st : SendState E) (ops : List (SendOp E)) : Prop :=
  Runs.Along step (fun o op => ∀ st ∈ o, op = .openStream → st.streamsMap.nextStream + 2 < 2 ^ 32)
    (some st) ops

/-- **The streams of idle nodes are unfinished**, in every state of a session. -/
theorem idle_unfinished {perspective : Perspective} {params : ConnectionParameters} {wrr : Bool}
    {ops : List (SendOp E)} (h : NoWrap (start E perspective params wrr) ops) :
    ∀ st ∈ run (start E perspective params wrr) ops, ∀ sch ∈ st.streamsMap.streamScheduler,
      ∀ n ≠ 0, (sch.node n).state = .idle → ¬ sch.finished st.streamsMap.view n := by
  have hstart : (start E perspective params wrr).streamsMap.Quiet := by
    have hpos : 0 < (start E perspective params wrr).streamsMap.nextStream := by
      cases perspective
      · exact Nat.two_pos
      · exact Nat.one_pos
    refine ⟨.new perspective params _, hpos, fun sch hsch => ?_⟩
    cases wrr with
    | true =>
      cases hsch
      exact StreamScheduler.quiet_new _ _
    | false => cases hsch
  have hrun : ∀ st ∈ run (start E perspective params wrr) ops, st.streamsMap.Quiet := by
    refine h.invariant (P := fun o => ∀ st ∈ o, st.streamsMap.Quiet) ?_ ?_
    · rintro _ ⟨⟩
      exact hstart
    · intro o op ho hop st' hst'
      obtain ⟨st₁, rfl, hst'⟩ := Option.bind_eq_some_iff.mp hst'
      exact quiet_apply (ho st₁ rfl) (hop st₁ rfl) hst'
  rintro st hst sch hsch n h0 hidle ⟨id, hid, hfin⟩
  refine ((hrun st hst).scheduler sch hsch).idle h0 hidle hid ?_
  exact (Bool.and_eq_true_iff.mp hfin).2

/-- **Ready leaves are enough** for hierarchical round robin, if interior nodes are idle. -/
theorem saturated_iff {perspective : Perspective} {params : ConnectionParameters} {wrr : Bool}
    {ops : List (SendOp E)} (h : NoWrap (start E perspective params wrr) ops) :
    ∀ st ∈ run (start E perspective params wrr) ops, ∀ sch ∈ st.streamsMap.streamScheduler,
      StreamScheduler.IdleInside sch → (StreamScheduler.Saturated st.streamsMap.view sch ↔
        StreamScheduler.LeavesReady st.streamsMap.view sch) := by
  intro st hst sch hsch hinside
  refine ⟨fun hsat => hsat.toLeavesReady, fun hleaves => ⟨hleaves, fun n hn h0 _ hchildren => ?_⟩⟩
  exact idle_unfinished h st hst sch hsch n h0 (hinside.idle n hn h0 hchildren)

end SendRun

end MultipathQuic
