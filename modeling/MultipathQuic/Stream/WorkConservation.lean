import MultipathQuic.Scheduler.Membership
import MultipathQuic.Scheduler.Search
import MultipathQuic.Scheduler.Updates
import MultipathQuic.Stream.SendRun

/-!
# Work conservation

With a stream scheduler, a packet takes new data from one stream only, the one that `schedule`
returns. That one is the first node on the way of `traverse` which is ready, and a stream is ready
if it is active and has a window; whether it has something to send does not matter. So a packet stays
empty although another stream has data if an active stream with a window has nothing to send, and
also if `traverse` meets a finished stream.

## Main definitions

* `SendRun.Sound`: the runs in which no defect is met
* `StreamFramer.Busy`: ready streams have something to send

## Main results

* `SendRun.scheduler_run`: what holds of the scheduler along a run
* `workConserving`: if a stream has data, there is a frame
-/

namespace MultipathQuic

open Function Forest
open StreamScheduler (Tree Calm Unfinished)

/-! ## The scheduler along a run -/

namespace StreamScheduler

variable {s s' : StreamScheduler}

/-- `toSend` is never set, and the crypto stream has no node. -/
def Unset (s : StreamScheduler) : Prop := s.toSend = none ∧ ∀ x, (s.node x).stream ≠ some 1

theorem unset_new : Unset newStreamScheduler := ⟨rfl, fun _ hnone => by cases hnone⟩

theorem updateRule_unset : UpdateRule Unset where
  modify := by
    intro s n f hf h
    refine ⟨h.1, fun x hx => ?_⟩
    by_cases hn : x = n
    · subst hn
      rw [modify_node_self] at hx
      rcases hf with hsame | hnone
      · exact h.2 x (hsame.symm.trans hx)
      · rw [hnone] at hx
        cases hx
    · rw [modify_node_of_ne hn] at hx
      exact h.2 x hx
  openStreams := fun _ h => h

theorem Unset.addNode (h : Unset s) (id : ℕ) : Unset (s.addNode id) := by
  unfold StreamScheduler.addNode
  split
  · exact h
  · next hid =>
    split
    · refine ⟨h.1, fun x hx => ?_⟩
      by_cases h0 : x = 0
      · subst h0
        exact hid (Option.some.inj hx)
      · rw [modify_node_of_ne h0] at hx
        exact h.2 x hx
    · refine ⟨h.1, fun x hx => ?_⟩
      change (update s.node s.size (newNode id (some id) (some 0)) x).stream = some 1 at hx
      by_cases hsize : x = s.size
      · subst hsize
        rw [update_self] at hx
        exact hid (Option.some.inj hx)
      · rw [update_of_ne hsize] at hx
        exact h.2 x hx

theorem Unset.apply (h : Unset s) {op : SchedulerOp} (heq : op.apply s = some s') : Unset s' := by
  cases op, s', heq using SchedulerOp.apply_cases with
  | addNode id =>
    exact h.addNode id
  | maybeSetWeight id weight t err heq hcall =>
    exact updateRule_unset.rewireRule.maybeSetWeight h hcall
  | maybeSetParent childID parentID exclusive t err heq hcall =>
    exact updateRule_unset.rewireRule.maybeSetParent h hcall
  | setActive id t err heq hcall =>
    exact updateRule_unset.setActive h hcall
  | schedule view strm t heq hcall =>
    exact (updateRule_unset.scheduleRule view).traverse h trivial hcall

/-- A tree without leftovers. -/
structure Kept (s : StreamScheduler) : Prop extends Tree s where
  unset : Unset s

theorem kept_new : Kept newStreamScheduler := ⟨tree_new, unset_new⟩

theorem size_addNode_le (s : StreamScheduler) (id : ℕ) : s.size ≤ (s.addNode id).size := by
  unfold StreamScheduler.addNode
  split
  · exact Nat.le_refl _
  · split
    · exact Nat.le_refl _
    · exact Nat.le_succ _

theorem Kept.apply (h : Kept s) (op : SchedulerOp) (hop : op.Sound s)
    (heq : op.apply s = some s') : Kept s' := by
  obtain ⟨t, heq', htree⟩ := SchedulerOp.tree_apply h.toTree hop
  rw [heq] at heq'
  cases heq'
  exact ⟨htree, h.unset.apply heq⟩

theorem Kept.addNode (h : Kept s) {id : ℕ} (hsize : (s.addNode id).size ≤ 2 ^ 16) :
    Kept (s.addNode id) := by
  refine h.apply (.addNode id) (fun h1 h3 => ?_) rfl
  rw [StreamScheduler.addNode, if_neg h1, if_neg h3] at hsize
  exact hsize

theorem Kept.skip (h : Kept s) {n : ℕ} (hn : n = 0 ∨ s.attached n) (heq : s.skip n = some s') :
    Kept s' := by
  obtain ⟨t, heq', htree, -⟩ := h.toTree.skip hn
  rw [heq] at heq'
  cases heq'
  exact ⟨htree, updateRule_unset.rewireRule.skip h.unset heq⟩

/-- What is preserved by the calls that a session makes on its scheduler, if they are sound and meet
`ok`. -/
structure CallRule (ok : StreamScheduler → SchedulerOp → Prop) (P : StreamScheduler → Prop) :
    Prop where
  kept : ∀ {s : StreamScheduler}, P s → s.Kept
  addNode : ∀ {s : StreamScheduler} {id : ℕ}, P s → (s.addNode id).size ≤ 2 ^ 16 →
    P (s.addNode id)
  apply : ∀ {s s' : StreamScheduler} (op : SchedulerOp), P s → op.Sound s → ok s op →
    op.apply s = some s' → P s'
  skip : ∀ {s s' : StreamScheduler} {n : ℕ}, P s → n = 0 ∨ s.attached n → s.skip n = some s' → P s'

theorem callRule_kept : CallRule (fun _ _ => True) Kept where
  kept := id
  addNode := fun h => h.addNode
  apply := fun op h hsound _ => h.apply op hsound
  skip := fun h => h.skip

end StreamScheduler

/-! ## Sound calls -/

namespace StreamsMap

variable {E : Type} {m m' : StreamsMap E}

/-- The scheduler, if there is one, keeps its tree. -/
def Kept (m : StreamsMap E) : Prop := ∀ sch ∈ m.streamScheduler, sch.Kept

/-- The 16-bit counters of the scheduler suffice for its nodes. -/
def Room (m : StreamsMap E) : Prop := ∀ sch ∈ m.streamScheduler, sch.size ≤ 2 ^ 16

instance (m : StreamsMap E) : Decidable m.Room := inferInstanceAs (Decidable (∀ _ ∈ _, _))

section Rule

variable {ok : StreamScheduler → SchedulerOp → Prop} {P : StreamScheduler → Prop}

theorem openRule_scheduler (hP : StreamScheduler.CallRule ok P) :
    OpenRule fun m : StreamsMap E => m.Room → ∀ sch ∈ m.streamScheduler, P sch where
  put := by
    intro m id h hroom sch hsch
    unfold putStream at hroom hsch
    dsimp only at hroom hsch
    split at hsch
    · next hmem =>
      rw [if_pos hmem] at hroom
      exact h hroom sch hsch
    · next hmem =>
      rw [if_neg hmem] at hroom
      have hsize := hroom sch hsch
      obtain ⟨sch₀, hsch₀, rfl⟩ := Option.map_eq_some_iff.mp hsch
      refine hP.addNode (h (fun sch₁ hsch₁ => ?_) sch₀ hsch₀) hsize
      -- the tree was smaller before
      rw [hsch₀] at hsch₁
      cases hsch₁
      exact (StreamScheduler.size_addNode_le sch₀ id).trans hsize
  counters := fun _ _ _ _ _ h => h

theorem scheduler_withScheduler (h : ∀ sch ∈ m.streamScheduler, P sch)
    {call : StreamScheduler → Option StreamScheduler}
    (hcall : ∀ sch ∈ m.streamScheduler, ∀ sch' ∈ call sch, P sch')
    (heq : m.withScheduler call = some m') : ∀ sch ∈ m'.streamScheduler, P sch := by
  unfold StreamsMap.withScheduler at heq
  split at heq
  · cases heq
    exact h
  · next sch hsch =>
    obtain ⟨sch', hsch', rfl⟩ := Option.map_eq_some_iff.mp heq
    rintro _ ⟨⟩
    exact hcall sch hsch sch' hsch'

theorem streamScheduler_garbageCollectStreams (m : StreamsMap E) :
    m.garbageCollectStreams.streamScheduler = m.streamScheduler := by
  refine garbageCollectStreams_rule (P := fun m' => m'.streamScheduler = m.streamScheduler)
    (fun m₁ id m₂ hm _ hremoves => ?_) rfl
  exact hremoves.streamScheduler.trans hm

/-- A frame does not touch the scheduler. -/
theorem scheduler_frames (h : ∀ sch ∈ m.streamScheduler, P sch) {id : ℕ} {frame : StreamFrame}
    (hframes : Frames m id frame m') : ∀ sch ∈ m'.streamScheduler, P sch := by
  obtain ⟨s, rfl⟩ := hframes.eq
  exact h

end Rule

end StreamsMap

/-- The call does not meet a defect of the scheduler: no counter overflows, the tree is not mixed up,
and only nodes of the tree are skipped. -/
def SendOp.Sound {E : Type} (st : SendState E) : SendOp E → Prop
  | .openStream => st.streamsMap.openStream.1.Room
  | .getOrOpenStream id => ∀ r ∈ st.streamsMap.getOrOpenStream id.toNat, r.1.Room
  | .setStreamPriority id weight dependency exclusive =>
    ∀ sch ∈ st.streamsMap.streamScheduler, ∀ r ∈ sch.maybeSetWeight id weight,
      (SchedulerOp.maybeSetParent id dependency exclusive).Sound r.1
  | .setStreamActive id =>
    ∀ sch ∈ st.streamsMap.streamScheduler, (SchedulerOp.setActive id).Sound sch
  | .schedule => ∀ sch ∈ st.streamsMap.streamScheduler, Calm st.streamsMap.view sch
  | .skip n => ∀ sch ∈ st.streamsMap.streamScheduler, n = 0 ∨ sch.attached n
  | .popStreamFrames _ => ∀ sch ∈ st.streamsMap.streamScheduler, Calm st.streamsMap.view sch
  | _ => True

instance {E : Type} (st : SendState E) : DecidablePred (SendOp.Sound st)
  | .openStream => inferInstanceAs (Decidable st.streamsMap.openStream.1.Room)
  | .getOrOpenStream _ | .setStreamPriority .. | .setStreamActive _ | .schedule
  | .popStreamFrames _ | .skip _ => inferInstanceAs (Decidable (∀ _ ∈ _, _))
  | .write .. | .close _ | .cancel .. | .reset .. | .registerRemoteError .. | .updateWindow ..
  | .addFrameForRetransmission _ | .garbageCollectStreams => inferInstanceAs (Decidable True)

namespace SendRun

variable {E : Type}

/-- No call of the run meets a defect of the scheduler. -/
def Sound (st : SendState E) (ops : List (SendOp E)) : Prop :=
  Runs.Along step (fun o op => ∀ st ∈ o, op.Sound st) (some st) ops

instance (st : SendState E) : DecidablePred (Sound st) := fun _ =>
  inferInstanceAs (Decidable (Runs.Along ..))

end SendRun

/-! ## Retransmissions leave the scheduler and its view alone -/

namespace StreamFramer

variable {E : Type} {f f' : StreamFramer E}

theorem view_countRetrans (m : StreamsMap E) (frame : StreamFrame) :
    (countRetrans m frame).view = m.view := by
  funext id
  unfold StreamsMap.view countRetrans
  rw [(m.flowControlManager.same_sendPart_addBytesRetrans _ _).sendWindowSize_eq]

theorem popRetransmissions_keeps (maxLen : ℕ) (queue : List StreamFrame) (currentLen : ℕ)
    (m : StreamsMap E) :
    (popRetransmissions maxLen queue currentLen m).1.view = m.view ∧
      (popRetransmissions maxLen queue currentLen m).1.streamScheduler = m.streamScheduler := by
  refine popRetransmissions_rule
    (P := fun m' => m'.view = m.view ∧ m'.streamScheduler = m.streamScheduler) ?_
    maxLen queue currentLen m ⟨rfl, rfl⟩
  rintro m' frame ⟨hview, hsch⟩
  exact ⟨(view_countRetrans m' frame).trans hview, hsch⟩

theorem maybePopFramesForRetransmission_nil (h : f.retransmissionQueue = []) (maxLen : ℕ) :
    f.maybePopFramesForRetransmission maxLen = (f, [], 0) := by
  cases f
  cases h
  rfl

/-- With nothing left in `toSend`, the next node is what `schedule` returns. -/
theorem nextNode_eq (f : StreamFramer E) {sch : StreamScheduler} (h : sch.Kept) :
    f.nextNode sch = sch.schedule f.streamsMap.view := by
  rw [nextNode, h.unset.1]

section Rule

variable {ok : StreamScheduler → SchedulerOp → Prop} {P : StreamScheduler → Prop}

theorem scheduler_popRoundRobin {maxBytes : ℕ} {frames : List StreamFrame}
    (h : ∀ sch ∈ f.streamsMap.streamScheduler, P sch)
    (hpop : f.popRoundRobin maxBytes = some (f', frames)) :
    ∀ sch ∈ f'.streamsMap.streamScheduler, P sch :=
  popRoundRobin_rule (l := []) (Q := fun m _ => ∀ sch ∈ m.streamScheduler, P sch)
    (fun _ _ _ _ _ hm hframes => StreamsMap.scheduler_frames hm hframes) (fun _ _ _ hm => hm) h hpop

theorem scheduler_popScheduled (hP : StreamScheduler.CallRule ok P) {sch : StreamScheduler}
    {maxBytes : ℕ} {frames : List StreamFrame} (h : P sch) (hcalm : Calm f.streamsMap.view sch)
    (hok : ok sch (.schedule f.streamsMap.view))
    (hpop : f.popScheduled sch maxBytes = some (f', frames)) :
    ∀ sch ∈ f'.streamsMap.streamScheduler, P sch := by
  refine popScheduled_rule (l := []) (Q := fun m _ => ∀ sch ∈ m.streamScheduler, P sch)
    (fun _ _ _ _ _ hm hframes => StreamsMap.scheduler_frames hm hframes) ?_ hpop
  rintro strm sch' hnext _ ⟨⟩
  rw [f.nextNode_eq (hP.kept h)] at hnext
  refine hP.apply (.schedule f.streamsMap.view) h hcalm hok ?_
  rw [SchedulerOp.apply, hnext]
  rfl

theorem scheduler_popStreamFrames (hP : StreamScheduler.CallRule ok P) {maxLen : ℕ}
    {frames : List StreamFrame} (h : ∀ sch ∈ f.streamsMap.streamScheduler, P sch)
    (hcalm : ∀ sch ∈ f.streamsMap.streamScheduler, Calm f.streamsMap.view sch ∧
      ok sch (.schedule f.streamsMap.view))
    (hpop : f.popStreamFrames maxLen = some (f', frames)) :
    ∀ sch ∈ f'.streamsMap.streamScheduler, P sch := by
  obtain ⟨⟨f₂, normal⟩, hnormal, hpop⟩ := Option.bind_eq_some_iff.mp hpop
  cases hpop
  obtain ⟨hview, hsch⟩ := popRetransmissions_keeps maxLen f.retransmissionQueue 0 f.streamsMap
  have hkept : ∀ sch ∈ (popRetransmissions maxLen f.retransmissionQueue 0
      f.streamsMap).1.streamScheduler, P sch := by
    intro sch hmem
    rw [hsch] at hmem
    exact h sch hmem
  unfold maybePopNormalFrames at hnormal
  split at hnormal
  · exact scheduler_popRoundRobin hkept hnormal
  · next sch heq =>
    have hcalls := hcalm sch (hsch.symm.trans heq)
    rw [← hview] at hcalls
    exact scheduler_popScheduled hP (hkept sch heq) hcalls.1 hcalls.2 hnormal

end Rule

end StreamFramer

/-- The calls on the scheduler meet `ok`, those for new streams apart. -/
def SendOp.Calls {E : Type} (ok : StreamScheduler → SchedulerOp → Prop) (st : SendState E) :
    SendOp E → Prop
  | .setStreamPriority id weight dependency exclusive => ∀ sch ∈ st.streamsMap.streamScheduler,
    ok sch (.maybeSetWeight id weight) ∧ ∀ r ∈ sch.maybeSetWeight id weight,
      ok r.1 (.maybeSetParent id dependency exclusive)
  | .setStreamActive id => ∀ sch ∈ st.streamsMap.streamScheduler, ok sch (.setActive id)
  | .schedule | .popStreamFrames _ =>
    ∀ sch ∈ st.streamsMap.streamScheduler, ok sch (.schedule st.streamsMap.view)
  | _ => True

namespace SendRun

variable {E : Type} {st st' : SendState E} {ok : StreamScheduler → SchedulerOp → Prop}
  {P : StreamScheduler → Prop}

/-- What sound calls preserve, a sound call of the session preserves. -/
theorem scheduler_apply (hP : StreamScheduler.CallRule ok P) {op : SendOp E}
    (h : ∀ sch ∈ st.streamsMap.streamScheduler, P sch) (hsound : op.Sound st)
    (hcalls : op.Calls ok st) (hop : op.apply st = some st') :
    ∀ sch ∈ st'.streamsMap.streamScheduler, P sch := by
  cases op with
  | openStream =>
    cases hop
    exact (StreamsMap.openRule_scheduler hP).openStream (fun _ => h) hsound
  | getOrOpenStream id =>
    obtain ⟨⟨m, r⟩, hopen, rfl⟩ := Option.map_eq_some_iff.mp hop
    exact (StreamsMap.openRule_scheduler hP).getOrOpenStream (fun _ => h) hopen
      (hsound (m, r) hopen)
  | write | close | cancel | reset | registerRemoteError | updateWindow
  | addFrameForRetransmission =>
    cases hop
    exact h
  | setStreamPriority id weight dependency exclusive =>
    obtain ⟨m, hcall, rfl⟩ := Option.map_eq_some_iff.mp hop
    rw [StreamsMap.setStreamPriority_eq] at hcall
    refine StreamsMap.scheduler_withScheduler h (fun sch hsch sch' hsch' => ?_) hcall
    obtain ⟨sch₁, err, hweight, hsch'⟩ := StreamScheduler.setStreamPriority_cases hsch'
    obtain ⟨hok, hok'⟩ := hcalls sch hsch
    have h₁ : P sch₁ := by
      refine hP.apply (.maybeSetWeight id weight) (h sch hsch) trivial hok ?_
      rw [SchedulerOp.apply, hweight]
      rfl
    rcases hsch' with rfl | ⟨-, hsch'⟩
    · exact h₁
    · exact hP.apply (.maybeSetParent id dependency exclusive) h₁ (hsound sch hsch _ hweight)
        (hok' _ hweight) hsch'
  | setStreamActive id =>
    obtain ⟨m, hcall, rfl⟩ := Option.map_eq_some_iff.mp hop
    exact StreamsMap.scheduler_withScheduler h (fun sch hsch sch' hsch' =>
      hP.apply (.setActive id) (h sch hsch) (hsound sch hsch) (hcalls sch hsch) hsch') hcall
  | schedule =>
    obtain ⟨m, hcall, rfl⟩ := Option.map_eq_some_iff.mp hop
    exact StreamsMap.scheduler_withScheduler h (fun sch hsch sch' hsch' =>
      hP.apply (.schedule st.streamsMap.view) (h sch hsch) (hsound sch hsch) (hcalls sch hsch)
        hsch') hcall
  | skip n =>
    obtain ⟨m, hcall, rfl⟩ := Option.map_eq_some_iff.mp hop
    exact StreamsMap.scheduler_withScheduler h (fun sch hsch sch' hsch' =>
      hP.skip (h sch hsch) (hsound sch hsch) hsch') hcall
  | popStreamFrames maxLen =>
    obtain ⟨⟨framer, frames⟩, hframes, hpop⟩ := Option.bind_eq_some_iff.mp hop
    cases hpop
    exact StreamFramer.scheduler_popStreamFrames hP h
      (fun sch hsch => ⟨hsound sch hsch, hcalls sch hsch⟩) hframes
  | garbageCollectStreams =>
    cases hop
    intro sch hsch
    rw [SendState.setStreamsMap] at hsch
    rw [StreamsMap.streamScheduler_garbageCollectStreams] at hsch
    exact h sch hsch

/-- The same along a run. -/
theorem scheduler_run (hP : StreamScheduler.CallRule ok P) {ops : List (SendOp E)}
    (h : ∀ sch ∈ st.streamsMap.streamScheduler, P sch)
    (hops : Runs.Along step (fun o op => ∀ st ∈ o, op.Sound st ∧ op.Calls ok st) (some st) ops) :
    ∀ st' ∈ run st ops, ∀ sch ∈ st'.streamsMap.streamScheduler, P sch := by
  refine Runs.Along.invariant
    (P := fun o => ∀ st' ∈ o, ∀ sch ∈ st'.streamsMap.streamScheduler, P sch) hops ?_ ?_
  · rintro _ ⟨⟩
    exact h
  · intro o op ho hop st' hst'
    obtain ⟨st₁, rfl, hst'⟩ := Option.bind_eq_some_iff.mp hst'
    exact scheduler_apply hP (ho st₁ rfl) (hop st₁ rfl).1 (hop st₁ rfl).2 hst'

theorem calls_true (st : SendState E) (op : SendOp E) : op.Calls (fun _ _ => True) st := by
  cases op with
  | setStreamPriority => exact fun _ _ => ⟨trivial, fun _ _ => trivial⟩
  | setStreamActive | schedule | popStreamFrames => exact fun _ _ => trivial
  | openStream | getOrOpenStream | write | close | cancel | reset | registerRemoteError | skip
  | updateWindow | addFrameForRetransmission | garbageCollectStreams => trivial

/-- **Along a sound run the scheduler keeps its tree.** -/
theorem kept_run {ops : List (SendOp E)} (h : st.streamsMap.Kept) (hsound : Sound st ops) :
    ∀ st' ∈ run st ops, st'.streamsMap.Kept := by
  refine scheduler_run StreamScheduler.callRule_kept h ?_
  refine Runs.Along.imp (P := fun _ => True) hsound trivial (fun _ _ _ _ => trivial) ?_
  intro o op _ hop st hst
  exact ⟨hop st hst, calls_true st op⟩

theorem kept_start (perspective : Perspective) (params : ConnectionParameters) (wrr : Bool) :
    (start E perspective params wrr).streamsMap.Kept := by
  intro sch hsch
  cases wrr with
  | true =>
    cases hsch
    exact StreamScheduler.kept_new
  | false => cases hsch

end SendRun

/-! ## Work conservation -/

namespace StreamFramer

variable {E : Type} {f : StreamFramer E} {sch : StreamScheduler} {n : ℕ}

/-- Every stream that is ready has something to send. -/
def Busy (f : StreamFramer E) (sch : StreamScheduler) : Prop :=
  ∀ n < sch.size, sch.ready f.streamsMap.view n → ∀ id ∈ (sch.node n).stream,
    (f.streamsMap.stream id).lenOfDataForWriting > 0 ∨ (f.streamsMap.stream id).shouldSendFin = true

instance (f : StreamFramer E) (sch : StreamScheduler) : Decidable (f.Busy sch) :=
  inferInstanceAs (Decidable (∀ _ < _, _))

/-- A ready stream that has something to send has a frame that fits 16 bytes. -/
theorem hasFrame_of_busy (hkept : sch.Kept) (hbusy : f.Busy sch) (hn : n < sch.size)
    (hready : sch.ready f.streamsMap.view n) {maxLen : ℕ} (hmax : 16 ≤ maxLen) :
    ∃ id, (sch.node n).stream = some id ∧ f.streamsMap.HasFrame id maxLen 0 := by
  obtain ⟨id, hid, hwindow⟩ := hready.2.1
  refine ⟨id, hid, ?_, ?_, ?_⟩
  · rintro rfl
    exact hkept.unset.2 n hid
  · have hlen := (f.streamsMap.emptyFrame id).minLength_le
    omega
  · split
    · exact Nat.pos_iff_ne_zero.mp hwindow
    · next hdata =>
      exact (hbusy n hn hready id hid).resolve_left fun hpos => hdata (Nat.pos_iff_ne_zero.mp hpos)

/-- An active node with data and a window is ready, so that the search finds something. -/
theorem ready_of_active (hactive : (sch.node n).state = .active)
    (hdata : sch.hasData f.streamsMap.view n) (hwindow : sch.hasWindow f.streamsMap.view n) :
    sch.ready f.streamsMap.view n := by
  refine ⟨Or.inr (Or.inl hactive), hwindow, ?_⟩
  split
  · exact hdata
  · exact hactive

theorem popScheduled_ne_nil (hkept : sch.Kept) (hunfinished : Unfinished f.streamsMap.view sch)
    (hbusy : f.Busy sch) (hn : n < sch.size) (hready : sch.ready f.streamsMap.view n) {maxLen : ℕ}
    (hmax : 16 ≤ maxLen) :
    ∃ f' frames, f.popScheduled sch maxLen = some (f', frames) ∧ frames ≠ [] := by
  rcases hkept.toTree.schedule_search hunfinished with
    ⟨hbarren, -⟩ | ⟨m, t, -, hfound, heq⟩
  · exact absurd hready (hbarren n (hkept.toTree.above_root hn))
  · have hm : m < sch.size := hkept.lt_size_of_above hfound.above hkept.size_pos
    obtain ⟨id, hid, hframe⟩ := hasFrame_of_busy hkept hbusy hm hfound.ready hmax
    have hid' : (t.node m).stream = some id := (hfound.stream_eq m).trans hid
    -- the stream that has been found sends its frame
    obtain ⟨m', blocked, frame, hsend⟩ : ∃ m' blocked frame,
        ({ f.streamsMap with streamScheduler := some t } : StreamsMap E).send id maxLen =
          (m', blocked, some frame) := by
      rcases StreamsMap.send_cases ({ f.streamsMap with streamScheduler := some t } : StreamsMap E)
        id maxLen with ⟨hnot, -⟩ | ⟨-, m', blocked, frame, hsend, -⟩
      · exact absurd hframe hnot
      · exact ⟨m', blocked, frame, hsend⟩
    refine ⟨{ f with streamsMap := m', blockedFrameQueue := f.blockedFrameQueue ++ blocked },
      [frame], ?_, List.cons_ne_nil _ _⟩
    unfold popScheduled
    rw [f.nextNode_eq hkept, heq]
    simp only [Option.bind_eq_bind, Option.bind_some, hid', hsend]
    rfl

end StreamFramer

open SendRun in
/-- **A stream with data makes `PopStreamFrames` return a frame.** This holds in every state of a
sound run in which there is nothing to retransmit, no stream of the tree is finished, and every
stream that is ready has something to send. -/
theorem workConserving {E : Type} {perspective : Perspective} {params : ConnectionParameters}
    {wrr : Bool} {ops : List (SendOp E)} (hsound : Sound (start E perspective params wrr) ops) :
    ∀ st ∈ run (start E perspective params wrr) ops, ∀ sch ∈ st.streamsMap.streamScheduler,
      st.framer.retransmissionQueue = [] → Unfinished st.streamsMap.view sch →
      st.framer.Busy sch → ∀ n < sch.size, (sch.node n).state = .active →
        sch.hasData st.streamsMap.view n → sch.hasWindow st.streamsMap.view n →
        ∀ maxLen ≥ 16, ∃ framer frames,
          st.framer.popStreamFrames maxLen = some (framer, frames) ∧ frames ≠ [] := by
  intro st hst sch hsch hqueue hunfinished hbusy n hn hactive hdata hwindow maxLen hmax
  have hkept : sch.Kept := kept_run (kept_start perspective params wrr) hsound st hst sch hsch
  obtain ⟨f', frames, hpop, hne⟩ := StreamFramer.popScheduled_ne_nil hkept hunfinished hbusy hn
    (StreamFramer.ready_of_active hactive hdata hwindow) hmax
  refine ⟨f', frames, ?_, hne⟩
  have hsch' : st.framer.streamsMap.streamScheduler = some sch := hsch
  rw [StreamFramer.popStreamFrames, StreamFramer.maybePopFramesForRetransmission_nil hqueue]
  simp only [Nat.sub_zero, StreamFramer.maybePopNormalFrames, hsch', hpop]
  rfl

/-- Stream 9 depends on stream 7. Streams 5 and 9 have data, and stream 7 has only its FIN left. -/
def threeSenders : List (SendOp Unit) :=
  [.openStream, .openStream, .openStream, .openStream, .openStream, .setStreamPriority 9 3 7 false,
    .setStreamActive 5, .setStreamActive 7, .setStreamActive 9, .write 5 [1, 2, 3], .write 9 [4, 5],
    .popStreamFrames 6, .close 7]

open SendRun in
theorem threeSenders_workConserving :
    ∃ st ∈ run (start Unit .client smallWindows true) threeSenders, ∀ maxLen ≥ 16,
      ∃ framer frames, st.framer.popStreamFrames maxLen = some (framer, frames) ∧ frames ≠ [] := by
  obtain ⟨st, hst, sch, hsch, hqueue, hunfinished, hbusy, n, hn, hactive, hdata, hwindow⟩ :
      ∃ st ∈ run (start Unit .client smallWindows true) threeSenders,
        ∃ sch ∈ st.streamsMap.streamScheduler, st.framer.retransmissionQueue = [] ∧
          Unfinished st.streamsMap.view sch ∧ st.framer.Busy sch ∧ ∃ n < sch.size,
            (sch.node n).state = .active ∧ sch.hasData st.streamsMap.view n ∧
              sch.hasWindow st.streamsMap.view n := by
    decide +kernel
  refine ⟨st, hst, fun maxLen hmax => ?_⟩
  exact workConserving (show Sound (start Unit .client smallWindows true) threeSenders by
    decide +kernel) st hst sch hsch hqueue hunfinished hbusy n hn hactive hdata hwindow maxLen hmax

/-- Stream 7 has data. Stream 5 is active and has a window, but nothing to send. -/
def idleActive : List (SendOp Unit) :=
  [.openStream, .openStream, .openStream, .openStream, .setStreamActive 5, .setStreamActive 7,
    .write 7 [1, 2, 3]]

open SendRun in
/-- **An idle active stream starves another one.** Although stream 7 has data and a window, sixteen
calls of `PopStreamFrames` in a row return no frame, since it is the turn of stream 5. -/
theorem idleActive_starves :
    Sound (start Unit .client smallWindows true) idleActive ∧
    ∃ st ∈ run (start Unit .client smallWindows true) idleActive,
      ∃ sch ∈ st.streamsMap.streamScheduler, st.framer.retransmissionQueue = [] ∧
        Unfinished st.streamsMap.view sch ∧
        (∃ n < sch.size, (sch.node n).state = .active ∧ sch.hasData st.streamsMap.view n ∧
          sch.hasWindow st.streamsMap.view n) ∧
        (∃ r ∈ st.framer.popStreamFrames 100, r.2 = []) ∧
        ∃ st' ∈ run st (List.replicate 16 (.popStreamFrames 100)), st'.framed = [] := by
  decide +kernel

end MultipathQuic
