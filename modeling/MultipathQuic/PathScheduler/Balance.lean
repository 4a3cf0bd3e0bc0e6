import MultipathQuic.PathScheduler.Selected
import MultipathQuic.PathScheduler.SendPacket
import MultipathQuic.Session.HarmlessFrames

/-!
# Balanced quotas

Round robin selects a path with the least quota, and `performPacketSending` increments the quota of
the path that the packet was sent on. So the quotas of the paths that stay eligible grow in step, in
whatever order the map of the paths is iterated over, and whatever other paths there are.

The first quota is compared with the largest number of 64 bits. A path whose quota is that number is
never selected, so no quota wraps around.
-/

namespace MultipathQuic

/-! ## Counters -/

/-- The counters of any two members of `P` differ by one at most. -/
def Balanced {ι : Type} (P : Set ι) (q : ι → ℕ) : Prop :=
  ∀ i ∈ P, ∀ j ∈ P, q i ≤ q j + 1

/-- A least counter may be incremented, and every counter outside. -/
theorem Balanced.increment {ι : Type} [DecidableEq ι] {P : Set ι} {q : ι → ℕ} (h : Balanced P q)
    {k : ι} (hleast : k ∈ P → ∀ j ∈ P, q k ≤ q j) :
    Balanced P (Function.update q k (q k + 1)) := by
  intro i hi j hj
  rcases eq_or_ne i k with rfl | hik
  · rcases eq_or_ne j i with rfl | hji
    · exact Nat.le_succ _
    · rw [Function.update_self, Function.update_of_ne hji]
      exact Nat.succ_le_succ (hleast hi j hj)
  · rw [Function.update_of_ne hik]
    rcases eq_or_ne j k with rfl | hjk
    · rw [Function.update_self]
      exact (h i hi j hj).trans (Nat.le_succ _)
    · rw [Function.update_of_ne hjk]
      exact h i hi j hj

/-! ## The loop over the paths -/

namespace PathMap

variable {paths : PathMap} {quotas : PathID → ℕ} {hasRetransmission : Bool} {id pathID : PathID}

/-- What the loop of `selectPathRoundRobin` has found when it has seen the paths `seen`. -/
structure Least (paths : PathMap) (quotas : PathID → ℕ) (seen : List PathID)
    (acc : Option PathID × ℕ) : Prop where
  selected : ∀ id ∈ acc.1, quotas id = acc.2 ∧ acc.2 < 2 ^ 64 - 1
  le : ∀ id ∈ seen, paths.Eligible id → acc.2 ≤ quotas id

theorem Least.step {seen : List PathID} {acc : Option PathID × ℕ}
    (h : Least paths quotas seen acc) (hbound : acc.2 ≤ 2 ^ 64 - 1) (hasRetransmission : Bool)
    (pathID : PathID) :
    Least paths quotas (seen ++ [pathID])
        (paths.roundRobinStep quotas hasRetransmission acc pathID) ∧
      (paths.roundRobinStep quotas hasRetransmission acc pathID).2 ≤ 2 ^ 64 - 1 := by
  -- a path that is passed over is not eligible, or its quota is not less
  have hpassed : (paths.Eligible pathID → acc.2 ≤ quotas pathID) →
      Least paths quotas (seen ++ [pathID]) acc ∧ acc.2 ≤ 2 ^ 64 - 1 := by
    intro hle
    refine ⟨⟨h.selected, fun id hid helig => ?_⟩, hbound⟩
    rcases List.mem_append.mp hid with hid | hid
    · exact h.le id hid helig
    · obtain rfl := List.mem_singleton.mp hid
      exact hle helig
  unfold roundRobinStep
  dsimp only
  split
  · next hblocked =>
    refine hpassed fun helig => ?_
    rw [helig.2.2] at hblocked
    exact absurd hblocked.2 Bool.noConfusion
  split
  · next hfailed =>
    refine hpassed fun helig => ?_
    rw [helig.2.1] at hfailed
    cases hfailed
  split
  · next hinitial => exact hpassed fun helig => absurd hinitial helig.1
  split
  · next hless =>
    refine ⟨⟨?_, fun id hid helig => ?_⟩, hless.le.trans hbound⟩
    · rintro id ⟨⟩
      exact ⟨rfl, hless.trans_le hbound⟩
    · rcases List.mem_append.mp hid with hid | hid
      · exact hless.le.trans (h.le id hid helig)
      · obtain rfl := List.mem_singleton.mp hid
        exact le_rfl
  · next hle => exact hpassed fun _ => Nat.le_of_not_lt hle

theorem least_foldl (hasRetransmission : Bool) (order : List PathID) {seen : List PathID} {acc : Option PathID × ℕ}
    (h : Least paths quotas seen acc) (hbound : acc.2 ≤ 2 ^ 64 - 1) :
    Least paths quotas (seen ++ order)
      (order.foldl (paths.roundRobinStep quotas hasRetransmission) acc) := by
  induction order generalizing seen acc with
  | nil =>
    rw [List.append_nil]
    exact h
  | cons pathID order ih =>
    obtain ⟨hstep, hbound⟩ := h.step hbound hasRetransmission pathID
    rw [List.append_cons]
    exact ih hstep hbound

theorem initial_of_selectInitial (h : paths.selectInitial hasRetransmission = some (some id)) :
    id = initialPathID := by
  unfold selectInitial at h
  split at h
  · obtain ⟨_, -, hid⟩ := Option.map_eq_some_iff.mp (Option.some_inj.mp h)
    exact hid.symm
  · obtain ⟨pth, -, hid⟩ := Option.map_eq_some_iff.mp h
    split at hid
    · exact (Option.some_inj.mp hid).symm
    · cases hid

/-- **The selected path has the least quota** among the eligible ones, and the quota may be
incremented. -/
theorem least_of_selectPathRoundRobin {sch : PathScheduler} {order : List PathID}
    (hselected : paths.selectPathRoundRobin sch hasRetransmission order = some (some id))
    (hinitial : id ≠ initialPathID) :
    sch.quotas id < 2 ^ 64 - 1 ∧
      ∀ id' ∈ order, paths.Eligible id' → sch.quotas id ≤ sch.quotas id' := by
  unfold selectPathRoundRobin at hselected
  split at hselected
  · exact absurd (initial_of_selectInitial hselected) hinitial
  · have hstart : Least paths sch.quotas [] (none, 2 ^ 64 - 1) := by
      constructor <;> intro id h <;> cases h
    have hend := least_foldl hasRetransmission order hstart le_rfl
    obtain ⟨hquota, hbound⟩ := hend.selected id (Option.some_inj.mp hselected)
    rw [hquota]
    exact ⟨hbound, hend.le⟩

end PathMap

/-! ## Iterations of the send loop -/

namespace Sender

open Program

variable {E α : Type} {st st' : Sender E} {P : Set PathID}

/-- The paths when the run loops have acted. -/
def settledPaths (st : Sender E) : PathMap :=
  ((st.runLoops 0).foldl Session.runPath st.session).paths

/-- An iteration of the send loop that sends one packet: round robin selects a path, and the packet is
sent on it. The paths of `P` are eligible when the path is selected. Whatever else happens before, and
between the two calls, leaves the path scheduler as it is. -/
structure Iteration (P : Set PathID) (st st' : Sender E) where
  selecting : Sender E
  hasRetransmission : Bool
  hasStreamRetransmission : Bool
  fromPth : Option PathID
  pth : PathID
  selected : Sender E
  sending : Sender E
  windowUpdateFrames : List WindowUpdateFrame
  packet : Packet
  before : selecting.pathScheduler = st.pathScheduler
  roundRobin : selecting.selector = .roundRobin
  eligible : ∀ id ∈ P, id ∈ selecting.settledPaths.ids ∧ selecting.settledPaths.Eligible id
  select : (selectPath hasRetransmission hasStreamRetransmission fromPth).exec selecting =
    (some (some pth), selected)
  between : sending.pathScheduler = selected.pathScheduler
  send : (performPacketSending windowUpdateFrames pth).exec sending =
    (some (.ok (some packet)), st')

theorem ensures_selectPath_roundRobin {hasRetransmission hasStreamRetransmission : Bool}
    {fromPth : Option PathID} (hselector : st.selector = .roundRobin) :
    (selectPath hasRetransmission hasStreamRetransmission fromPth).Ensures st
      (fun r st' => st'.pathScheduler = st.pathScheduler ∧
        ∃ order, order.Perm st.settledPaths.ids ∧
          st.settledPaths.selectPathRoundRobin st.pathScheduler hasRetransmission order = some r)
      fun _ => True := by
  unfold selectPath runPaths Session.choose
  simp only [ensures_bind, ensures_modify, ensures_onSession, ensures_get, ensures_set, ensures_pure,
    ensures_ofOption]
  refine ⟨fun sel hsel => ?_, fun _ => trivial⟩
  rw [hselector] at hsel
  obtain ⟨pth, hpth, rfl⟩ := Option.map_eq_some_iff.mp hsel
  exact ⟨rfl, _, MapOrder.perm _ _, hpth⟩

/-- Only `performPacketSending` itself changes the quotas. -/
theorem ensures_sendPackedPacket_pathScheduler (packet : Option PackedPacket) (id : PathID) :
    (sendPackedPacket packet id).Ensures st (fun _ st' => st'.pathScheduler = st.pathScheduler)
      fun _ => True := by
  unfold sendPackedPacket runPaths
  simp only [ensures_bind, ensures_modify, ensures_onSession, ensures_ofOption]
  refine ⟨fun packet _ => ?_, fun _ => trivial⟩
  exact ensures_of_all (fun _ _ => trivial) fun _ => trivial

/-- A packet that is sent adds one to the quota of its path. -/
theorem ensures_performPacketSending_quotas (frames : List WindowUpdateFrame) (id : PathID) :
    (performPacketSending frames id).Ensures st
      (fun r st' => ∀ packet, r = .ok (some packet) →
        st'.pathScheduler.quotas = Function.update st.pathScheduler.quotas id
          (add64 (st.pathScheduler.quotas id) 1))
      fun _ => True := by
  unfold performPacketSending
  simp only [ensures_bind, ensures_onSession]
  refine ensures_of_all (fun _ s₁ => ensures_of_all (fun packet s₂ => ?_) fun _ => trivial)
    fun _ => trivial
  rcases packet with err | _ | packet
  · exact fun _ h => by cases h
  · exact fun _ h => by cases h
  · rw [ensures_bind]
    refine (ensures_sendPackedPacket_pathScheduler _ id).mono (fun err st₃ hst₃ => ?_)
      fun _ _ => trivial
    cases err with
    | some err => exact fun _ h => by cases h
    | none =>
      simp only [ensures_bind, ensures_onSession, ensures_modify, ensures_pure]
      refine ensures_of_all (fun _ _ _ _ => ?_) fun _ => trivial
      rw [hst₃]

/-- **What an iteration does to the quotas:** that of one path is incremented, which is a least one if
the path belongs to `P`. -/
theorem Iteration.quotas (h : Iteration P st st') :
    ∃ id, st'.pathScheduler.quotas = Function.update st.pathScheduler.quotas id
        (add64 (st.pathScheduler.quotas id) 1) ∧
      (id ∈ P → st.pathScheduler.quotas id < 2 ^ 64 - 1 ∧
        ∀ id' ∈ P, st.pathScheduler.quotas id ≤ st.pathScheduler.quotas id') := by
  obtain ⟨hsame, order, hperm, hpth⟩ := (ensures_of_exec h.select).mp
    (ensures_selectPath_roundRobin h.roundRobin)
  have hsent := (ensures_of_exec h.send).mp
    (ensures_performPacketSending_quotas h.windowUpdateFrames h.pth) h.packet rfl
  rw [h.between, hsame, h.before] at hsent
  refine ⟨h.pth, hsent, fun hmem => ?_⟩
  obtain ⟨hbound, hleast⟩ := PathMap.least_of_selectPathRoundRobin hpth (h.eligible _ hmem).2.1
  rw [h.before] at hbound hleast
  refine ⟨hbound, fun id' hid' => ?_⟩
  obtain ⟨hids, helig⟩ := h.eligible id' hid'
  exact hleast id' (hperm.mem_iff.mpr hids) helig

theorem Iteration.balanced (h : Iteration P st st') (hst : Balanced P st.pathScheduler.quotas) :
    Balanced P st'.pathScheduler.quotas := by
  obtain ⟨id, hquotas, hleast⟩ := h.quotas
  rw [hquotas]
  by_cases hmem : id ∈ P
  · obtain ⟨hbound, hleast⟩ := hleast hmem
    rw [add64_of_lt (by omega)]
    exact hst.increment fun _ => hleast
  · -- whatever the quota of the other path becomes, it is not compared
    intro i hi j hj
    rw [Function.update_of_ne (ne_of_mem_of_not_mem hi hmem),
      Function.update_of_ne (ne_of_mem_of_not_mem hj hmem)]
    exact hst i hi j hj

end Sender

/-- **Round robin keeps paths balanced:** if the quotas of the paths of `P` are equal at first, and
these paths stay eligible, then any two of the quotas differ by one at most after any number of
iterations. -/
theorem roundRobin_balanced {E : Type} {P : Set PathID} {st st' : Sender E}
    (hequal : ∀ i ∈ P, ∀ j ∈ P, st.pathScheduler.quotas i = st.pathScheduler.quotas j)
    (hrun : Relation.ReflTransGen (fun st st' => Nonempty (Sender.Iteration P st st')) st st') :
    ∀ i ∈ P, ∀ j ∈ P, st'.pathScheduler.quotas i ≤ st'.pathScheduler.quotas j + 1 := by
  have hstart : Balanced P st.pathScheduler.quotas := fun i hi j hj =>
    (hequal i hi j hj).le.trans (Nat.le_succ _)
  have hend : Balanced P st'.pathScheduler.quotas := by
    induction hrun with
    | refl => exact hstart
    | tail _ hstep ih =>
      obtain ⟨iteration⟩ := hstep
      exact iteration.balanced ih
  exact hend

/-- A client with three paths and nothing to send. -/
def threePathClient : Sender Unit where
  session :=
    { multipathClient with
      pathManager := { multipathClient.pathManager with
        paths :=
          { ids := [0, 1, 3]
            nodup := by decide
            path := fun id =>
              { Path.setup id (localhost 0) (localhost 0) versionMP with smoothedRTT := 10 } } } }
  pathScheduler := ⟨fun _ => 0, 0⟩
  selector := .roundRobin
  runLoops := fun _ => []

namespace Sender

/-- A BLOCKED frame is queued. -/
def block (st : Sender Unit) : Sender Unit :=
  { st with session.packer.controlFrames := [.blocked ⟨5⟩] }

/-- The BLOCKED frame is sent on the path that is selected. -/
def sendBlocked (st : Sender Unit) (id : PathID) : Sender Unit :=
  ((performPacketSending [] id).exec ((selectPath false false none).exec st.block).2).2

/-- An iteration that sends a BLOCKED frame. -/
def blockedIteration {st : Sender Unit} {id : PathID} (packet : Packet)
    (hselector : st.selector = .roundRobin)
    (heligible : ∀ id ∈ [(1 : PathID), 3], id ∈ st.block.settledPaths.ids ∧
      st.block.settledPaths.Eligible id)
    (hselect : ((selectPath false false none).exec st.block).1 = some (some id))
    (hsend : ((performPacketSending [] id).exec
      ((selectPath false false none).exec st.block).2).1 = some (.ok (some packet))) :
    Iteration {1, 3} st (st.sendBlocked id) where
  selecting := st.block
  hasRetransmission := false
  hasStreamRetransmission := false
  fromPth := none
  pth := id
  selected := ((selectPath false false none).exec st.block).2
  sending := ((selectPath false false none).exec st.block).2
  windowUpdateFrames := []
  packet := packet
  before := rfl
  roundRobin := hselector
  eligible := fun id hid => heligible id (by simpa using hid)
  select := Prod.ext hselect rfl
  between := rfl
  send := Prod.ext hsend rfl

end Sender

open Sender in
/-- Three packets go on paths 1, 3 and 1; neither path is ahead by more than one packet. -/
theorem roundRobin_balanced_threePackets :
    (((threePathClient.sendBlocked 1).sendBlocked 3).sendBlocked 1).pathScheduler.quotas 1 ≤
      (((threePathClient.sendBlocked 1).sendBlocked 3).sendBlocked 1).pathScheduler.quotas 3 + 1 := by
  have h₁ : Iteration {1, 3} threePathClient (threePathClient.sendBlocked 1) :=
    blockedIteration ⟨1, [.blocked ⟨5⟩], 17, .forwardSecure, 0⟩ (by decide +kernel)
      (by decide +kernel) (by decide +kernel) (by decide +kernel)
  have h₂ : Iteration {1, 3} (threePathClient.sendBlocked 1)
      ((threePathClient.sendBlocked 1).sendBlocked 3) :=
    blockedIteration ⟨1, [.blocked ⟨5⟩], 17, .forwardSecure, 0⟩ (by decide +kernel)
      (by decide +kernel) (by decide +kernel) (by decide +kernel)
  have h₃ : Iteration {1, 3} ((threePathClient.sendBlocked 1).sendBlocked 3)
      (((threePathClient.sendBlocked 1).sendBlocked 3).sendBlocked 1) :=
    blockedIteration ⟨2, [.blocked ⟨5⟩], 17, .forwardSecure, 0⟩ (by decide +kernel)
      (by decide +kernel) (by decide +kernel) (by decide +kernel)
  exact roundRobin_balanced (P := {1, 3}) (fun _ _ _ _ => rfl)
    (((Relation.ReflTransGen.single ⟨h₁⟩).tail ⟨h₂⟩).tail ⟨h₃⟩)
    1 (Set.mem_insert 1 {3}) 3 (Set.mem_insert_of_mem 1 rfl)

end MultipathQuic
