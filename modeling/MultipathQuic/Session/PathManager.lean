import MultipathQuic.Library.Runs
import MultipathQuic.Session.Path

/-!
# The path manager

`path_manager.go`, with `path.setup`: the paths of a session and their OLIA senders, and how paths
are created. An endpoint takes the IDs of its own paths from an 8-bit counter that it advances by
two, and never compares with the paths it has. So the counter comes back to its start after 128 paths,
and the one of a server passes the ID of the initial path before that.

Other parts of the session work on the paths between the calls, but they neither add paths nor remove
them: a path that is closed stays in the map.

## Main definitions

* `PathManager`, `createPath`, `createPathFromRemote`: the path manager
* `PathOp`: what happens to the paths

## Main results

* `pathIDs_distinct_iff`: how many paths can be created before one is replaced
-/

namespace MultipathQuic

/-- `protocol.DefaultMaxCongestionWindow`. -/
def defaultMaxCongestionWindow : ℕ := 2500

/-- `pathManager`, with the paths, the perspective and the version of its session. -/
structure PathManager where
  perspective : Perspective
  version : VersionNumber
  nxtPathID : PathID
  remoteAddrs4 : List UDPAddr
  remoteAddrs6 : List UDPAddr
  advertisedLocAddrs : List UDPAddr
  paths : PathMap
  oliaSenders : OliaSenders

/-- What `createPathFromRemote` refuses. -/
inductive CreatePathError
  /-- trying to create already existing path -/
  | alreadyExisting
  /-- server tries to create odd pathID -/
  | oddPathID
  /-- client tries to create even pathID -/
  | evenPathID
  deriving DecidableEq, Repr

namespace PathManager

/-- Stores a new path after `path.setup`. Every path but the initial one has an OLIA sender. -/
def storePath (pm : PathManager) (pathID : PathID) (locAddr remAddr : UDPAddr) : PathManager :=
  { pm with
    paths := pm.paths.insert (.setup pathID locAddr remAddr pm.version)
    oliaSenders :=
      if pm.version ≥ versionMP ∧ pathID ≠ initialPathID then
        pm.oliaSenders.insert pathID
          (newOliaSender ⟨0, 0, 0⟩ initialCongestionWindow defaultMaxCongestionWindow)
      else pm.oliaSenders }

/-- The ID of the first path that an endpoint creates. -/
def firstPathID : Perspective → ℕ
  | .client => 1
  | .server => 2

/-- `setup`, with the addresses of the initial path. -/
def setup (perspective : Perspective) (version : VersionNumber) (locAddr remAddr : UDPAddr) :
    PathManager :=
  let pm : PathManager := {
    perspective := perspective
    version := version
    nxtPathID := UInt8.ofNat (firstPathID perspective)
    remoteAddrs4 := []
    remoteAddrs6 := []
    advertisedLocAddrs := []
    paths := ⟨[], List.nodup_nil, fun id => .setup id locAddr remAddr version⟩
    oliaSenders := ⟨[], List.nodup_nil, fun _ =>
      newOliaSender ⟨0, 0, 0⟩ initialCongestionWindow defaultMaxCongestionWindow⟩ }
  let pm := pm.storePath initialPathID locAddr remAddr
  if (ipTo4 remAddr.ip).isSome then { pm with remoteAddrs4 := [remAddr] }
  else { pm with remoteAddrs6 := [remAddr] }

variable (pm : PathManager)

/-- There is a path between the two addresses. -/
def hasPath (locAddr remAddr : UDPAddr) : Bool :=
  pm.paths.ids.any fun id => locAddr.sameString (pm.paths.path id).localAddr &&
    remAddr.sameString (pm.paths.path id).remoteAddr

/-- `createPath`, up to the PING that is sent on the new path: the path, if there was none. -/
def createPath (locAddr remAddr : UDPAddr) : PathManager × Option PathID :=
  if pm.hasPath locAddr remAddr then (pm, none)
  else
    ({ pm.storePath pm.nxtPathID locAddr remAddr with nxtPathID := pm.nxtPathID + 2 },
      some pm.nxtPathID)

/-- `createPathFromRemote`. -/
def createPathFromRemote (locAddr remAddr : UDPAddr) (pathID : PathID) :
    Except CreatePathError PathManager :=
  if pathID ∈ pm.paths.ids then .error .alreadyExisting
  else if pm.perspective = .client ∧ pathID % 2 ≠ 0 then .error .oddPathID
  else if pm.perspective = .server ∧ pathID % 2 = 0 then .error .evenPathID
  else .ok (pm.storePath pathID locAddr remAddr)

end PathManager

/-! ## What happens to the paths -/

/-- A path is created, or the session works on the paths and their senders. -/
inductive PathOp
  | createPath (locAddr remAddr : UDPAddr)
  | createPathFromRemote (locAddr remAddr : UDPAddr) (pathID : PathID)
  | work (path : PathID → Path → Path) (sender : PathID → OliaSender → OliaSender)

/-- The parity of the IDs of an endpoint's own paths. -/
def ownPathID : Perspective → PathID → Prop
  | .client, id => id % 2 = 1
  | .server, id => id % 2 = 0

instance : (perspective : Perspective) → (id : PathID) → Decidable (ownPathID perspective id)
  | .client, _ | .server, _ => inferInstanceAs (Decidable (_ = _))

/-- How many IDs an endpoint has for its own paths. -/
def numOwnPathIDs : Perspective → ℕ
  | .client => 128
  | .server => 127

namespace PathOp

/-- The paths afterwards. -/
def apply (pm : PathManager) : PathOp → PathManager
  | .createPath locAddr remAddr => (pm.createPath locAddr remAddr).1
  | .createPathFromRemote locAddr remAddr pathID =>
    match pm.createPathFromRemote locAddr remAddr pathID with
    | .ok pm => pm
    | .error _ => pm
  | .work path sender =>
    { pm with
      paths := { pm.paths with path := fun id => path id (pm.paths.path id) }
      oliaSenders := { pm.oliaSenders with sender := fun id => sender id (pm.oliaSenders.sender id) } }

/-- The call creates a path of the endpoint. -/
def CreatesOwn (pm : PathManager) : PathOp → Prop
  | .createPath locAddr remAddr => pm.hasPath locAddr remAddr = false
  | _ => False

instance (pm : PathManager) : DecidablePred (CreatesOwn pm)
  | .createPath .. => inferInstanceAs (Decidable (_ = _))
  | .createPathFromRemote .. | .work .. => inferInstanceAs (Decidable False)

/-- A new path replaces neither a path nor a sender, and a path of the endpoint has an ID of its
parity other than that of the initial path. -/
def Distinct (pm : PathManager) : PathOp → Prop
  | .createPath locAddr remAddr => ∀ id ∈ (pm.createPath locAddr remAddr).2,
    id ∉ pm.paths.ids ∧ id ∉ pm.oliaSenders.ids ∧ ownPathID pm.perspective id ∧ id ≠ initialPathID
  | .createPathFromRemote locAddr remAddr pathID =>
    (pm.createPathFromRemote locAddr remAddr pathID).isOk = true →
      pathID ∉ pm.paths.ids ∧ pathID ∉ pm.oliaSenders.ids
  | .work .. => True

end PathOp

namespace PathManager

variable {pm : PathManager} {perspective : Perspective} {k : ℕ} {id : PathID}

/-- The endpoint has created `k` paths: their IDs are the first ones of its parity. -/
structure Created (pm : PathManager) (perspective : Perspective) (k : ℕ) : Prop where
  perspective_eq : pm.perspective = perspective
  next : pm.nxtPathID.toNat = (firstPathID perspective + 2 * k) % 256
  initial : initialPathID ∈ pm.paths.ids
  first : 0 < k → UInt8.ofNat (firstPathID perspective) ∈ pm.paths.ids
  own : ∀ id ∈ pm.paths.ids, ownPathID perspective id → id.toNat < firstPathID perspective + 2 * k
  senders : pm.oliaSenders.ids ⊆ pm.paths.ids

theorem ids_storePath (pm : PathManager) (id : PathID) (locAddr remAddr : UDPAddr) (x : PathID) :
    x ∈ (pm.storePath id locAddr remAddr).paths.ids ↔ x ∈ pm.paths.ids ∨ x = id := by
  change x ∈ (if id ∈ pm.paths.ids then pm.paths.ids else pm.paths.ids ++ [id]) ↔ _
  split
  · next hmem =>
    refine ⟨Or.inl, ?_⟩
    rintro (hx | rfl)
    · exact hx
    · exact hmem
  · rw [List.mem_append, List.mem_singleton]

theorem path_storePath (pm : PathManager) (id : PathID) (locAddr remAddr : UDPAddr) :
    (pm.storePath id locAddr remAddr).paths.path =
      Function.update pm.paths.path id (.setup id locAddr remAddr pm.version) :=
  rfl

theorem path_setup (perspective : Perspective) (version : VersionNumber) (locAddr remAddr : UDPAddr)
    (id : PathID) : (setup perspective version locAddr remAddr).paths.path id =
      .setup id locAddr remAddr version := by
  unfold setup
  dsimp only
  split <;>
    · rw [path_storePath]
      by_cases hid : id = initialPathID
      · rw [hid, Function.update_self]
      · rw [Function.update_of_ne hid]

theorem senders_storePath (pm : PathManager) (id : PathID) (locAddr remAddr : UDPAddr) (x : PathID)
    (hx : x ∈ (pm.storePath id locAddr remAddr).oliaSenders.ids) :
    x ∈ pm.oliaSenders.ids ∨ x = id := by
  unfold storePath at hx
  split_ifs at hx
  · change x ∈ (if id ∈ pm.oliaSenders.ids then pm.oliaSenders.ids else id :: pm.oliaSenders.ids) at hx
    split_ifs at hx
    · exact Or.inl hx
    · exact (List.mem_cons.mp hx).symm
  · exact Or.inl hx

theorem ownPathID_iff : ownPathID perspective id ↔ id.toNat % 2 = firstPathID perspective % 2 := by
  cases perspective with
  | client =>
    change id % 2 = 1 ↔ _
    rw [← UInt8.toNat_inj, UInt8.toNat_mod]
    rfl
  | server =>
    change id % 2 = 0 ↔ _
    rw [← UInt8.toNat_inj, UInt8.toNat_mod]
    rfl

theorem Created.setup (perspective : Perspective) (version : VersionNumber)
    (locAddr remAddr : UDPAddr) :
    Created (setup perspective version locAddr remAddr) perspective 0 := by
  have hids : (PathManager.setup perspective version locAddr remAddr).paths.ids = [initialPathID] := by
    unfold PathManager.setup
    dsimp only
    split <;> rfl
  have hsenders : (PathManager.setup perspective version locAddr remAddr).oliaSenders.ids = [] := by
    unfold PathManager.setup
    dsimp only
    split <;> simp [storePath]
  refine ⟨?_, ?_, ?_, fun hpos => absurd hpos (Nat.lt_irrefl 0), ?_, ?_⟩
  · unfold PathManager.setup
    dsimp only
    split <;> rfl
  · unfold PathManager.setup
    dsimp only
    split <;> cases perspective <;> rfl
  · rw [hids]
    exact List.mem_singleton_self _
  · intro id hid _
    rw [hids, List.mem_singleton] at hid
    rw [hid]
    cases perspective <;> decide
  · rw [hsenders]
    exact List.nil_subset _

/-- The ID that a path gets below the limit is the next one of the parity. -/
theorem Created.nxtPathID_toNat (h : Created pm perspective k) (hk : k < numOwnPathIDs perspective) :
    pm.nxtPathID.toNat = firstPathID perspective + 2 * k := by
  rw [h.next, Nat.mod_eq_of_lt]
  cases perspective
  · change k < 127 at hk
    change 2 + 2 * k < 256
    omega
  · change k < 128 at hk
    change 1 + 2 * k < 256
    omega

theorem Created.nxtPathID_own (h : Created pm perspective k) (hk : k < numOwnPathIDs perspective) :
    ownPathID perspective pm.nxtPathID := by
  rw [ownPathID_iff, h.nxtPathID_toNat hk]
  omega

theorem Created.nxtPathID_notMem (h : Created pm perspective k) (hk : k < numOwnPathIDs perspective) :
    pm.nxtPathID ∉ pm.paths.ids := by
  intro hmem
  have hlt := h.own _ hmem (h.nxtPathID_own hk)
  rw [h.nxtPathID_toNat hk] at hlt
  exact Nat.lt_irrefl _ hlt

/-- At the limit the counter is at an ID that is in use. -/
theorem Created.nxtPathID_mem (h : Created pm perspective (numOwnPathIDs perspective)) :
    pm.nxtPathID ∈ pm.paths.ids := by
  have hnext := h.next
  cases perspective with
  | client =>
    have hone : pm.nxtPathID = UInt8.ofNat (firstPathID .client) := UInt8.toNat_inj.mp hnext
    rw [hone]
    exact h.first (by decide)
  | server =>
    have hzero : pm.nxtPathID = initialPathID := UInt8.toNat_inj.mp hnext
    rw [hzero]
    exact h.initial

/-- A path of the endpoint. -/
theorem Created.createOwn (h : Created pm perspective k) (hk : k < numOwnPathIDs perspective)
    (locAddr remAddr : UDPAddr) :
    Created { pm.storePath pm.nxtPathID locAddr remAddr with nxtPathID := pm.nxtPathID + 2 }
      perspective (k + 1) := by
  have hmem := pm.ids_storePath pm.nxtPathID locAddr remAddr
  refine ⟨h.perspective_eq, ?_, (hmem _).mpr (Or.inl h.initial), fun _ => (hmem _).mpr ?_, ?_, ?_⟩
  · rw [UInt8.toNat_add, h.next]
    change (_ % 256 + 2) % 256 = _
    omega
  · by_cases hzero : k = 0
    · right
      rw [← UInt8.toNat_inj, h.nxtPathID_toNat hk, hzero]
      cases perspective <;> rfl
    · exact Or.inl (h.first (Nat.pos_of_ne_zero hzero))
  · intro id hid hown
    rcases (hmem id).mp hid with hid | rfl
    · have := h.own id hid hown
      omega
    · rw [h.nxtPathID_toNat hk]
      omega
  · intro id hid
    refine (hmem id).mpr ?_
    rcases pm.senders_storePath _ locAddr remAddr id hid with hid | hid
    · exact Or.inl (h.senders hid)
    · exact Or.inr hid

/-- A path of the peer. -/
theorem Created.createRemote (h : Created pm perspective k) (hid : ¬ ownPathID perspective id)
    (locAddr remAddr : UDPAddr) : Created (pm.storePath id locAddr remAddr) perspective k := by
  have hmem := pm.ids_storePath id locAddr remAddr
  refine ⟨h.perspective_eq, h.next, (hmem _).mpr (Or.inl h.initial),
    fun hpos => (hmem _).mpr (Or.inl (h.first hpos)), ?_, ?_⟩
  · intro x hx hown
    rcases (hmem x).mp hx with hx | rfl
    · exact h.own x hx hown
    · exact absurd hown hid
  · intro x hx
    refine (hmem x).mpr ?_
    rcases pm.senders_storePath _ locAddr remAddr x hx with hx | hx
    · exact Or.inl (h.senders hx)
    · exact Or.inr hx

/-- What a path of the peer needs. -/
theorem createPathFromRemote_ok {pm' : PathManager} {locAddr remAddr : UDPAddr}
    (h : pm.createPathFromRemote locAddr remAddr id = .ok pm') :
    id ∉ pm.paths.ids ∧ ¬ ownPathID pm.perspective id ∧ pm' = pm.storePath id locAddr remAddr := by
  unfold createPathFromRemote at h
  split_ifs at h with hmem hodd heven
  cases h
  refine ⟨hmem, fun hown => ?_, rfl⟩
  cases hp : pm.perspective with
  | client =>
    rw [hp] at hown
    refine hodd ⟨hp, fun hzero => ?_⟩
    have hone : id % 2 = 1 := hown
    rw [hzero] at hone
    cases hone
  | server =>
    rw [hp] at hown
    exact heven ⟨hp, hown⟩

end PathManager

open PathManager PathOp Runs in
/-- **No path is replaced in a run iff the endpoint creates at most 128 paths of its own, or 127 if it
is a server.** -/
theorem pathIDs_distinct_iff (perspective : Perspective) (version : VersionNumber)
    (locAddr remAddr : UDPAddr) (ops : List PathOp) :
    Along apply Distinct (setup perspective version locAddr remAddr) ops ↔
      countAlong apply CreatesOwn (setup perspective version locAddr remAddr) ops ≤
        numOwnPathIDs perspective := by
  have hstart := Created.setup perspective version locAddr remAddr
  rw [← Nat.zero_add (countAlong apply CreatesOwn _ ops)]
  refine along_iff_countAlong_le (fun pm k => Created pm perspective k) ?_ ?_ ?_ hstart
    (Nat.zero_le _)
  · -- a path below the limit
    rintro pm k (⟨l, r⟩ | _ | _) h hk huse
    · have hcreate : pm.createPath l r = (_, some pm.nxtPathID) :=
        if_neg (Bool.eq_false_iff.mp huse)
      refine ⟨fun id hid => ?_, ?_⟩
      · rw [hcreate] at hid
        cases hid
        have hnotMem := h.nxtPathID_notMem hk
        refine ⟨hnotMem, fun hmem => hnotMem (h.senders hmem), ?_, ?_⟩
        · rw [h.perspective_eq]
          exact h.nxtPathID_own hk
        · intro hzero
          exact hnotMem (hzero ▸ h.initial)
      · rw [apply, hcreate]
        exact h.createOwn hk l r
    · cases huse
    · cases huse
  · -- the path after the last one
    rintro pm (⟨l, r⟩ | _ | _) h huse hdistinct
    · have hcreate : pm.createPath l r = (_, some pm.nxtPathID) :=
        if_neg (Bool.eq_false_iff.mp huse)
      exact (hdistinct pm.nxtPathID (by rw [hcreate]; rfl)).1 h.nxtPathID_mem
    · cases huse
    · cases huse
  · rintro pm k (⟨l, r⟩ | ⟨l, r, id⟩ | ⟨f, g⟩) h huse
    · have hexists : pm.createPath l r = (pm, none) := if_pos (by simpa [CreatesOwn] using huse)
      refine ⟨fun id hid => ?_, ?_⟩
      · rw [hexists] at hid
        cases hid
      · rw [apply, hexists]
        exact h
    · rw [apply, Distinct]
      cases hcreate : pm.createPathFromRemote l r id with
      | error err => exact ⟨fun hok => absurd hok Bool.false_ne_true, h⟩
      | ok pm' =>
        obtain ⟨hnotMem, hother, rfl⟩ := createPathFromRemote_ok hcreate
        rw [h.perspective_eq] at hother
        exact ⟨fun _ => ⟨hnotMem, fun hmem => hnotMem (h.senders hmem)⟩, h.createRemote hother l r⟩
    · exact ⟨trivial, { h with }⟩

/-- An address, for each port. -/
def localhost (port : ℕ) : UDPAddr := ⟨[127, 0, 0, 1], port⟩

/-- The endpoint changes its network `n` times, and creates a path each time. -/
def networkChanges (n : ℕ) : List PathOp :=
  (List.range n).map fun i => .createPath (localhost (i + 1)) (localhost 0)

namespace PathManager

/-- The paths after some changes of the network. -/
def afterChanges (perspective : Perspective) (n : ℕ) : PathManager :=
  (networkChanges n).foldl PathOp.apply (setup perspective versionMP (localhost 0) (localhost 0))

theorem afterChanges_succ (perspective : Perspective) (n : ℕ) : afterChanges perspective (n + 1) =
    ((afterChanges perspective n).createPath (localhost (n + 1)) (localhost 0)).1 := by
  rw [afterChanges, networkChanges, List.range_succ, List.map_append, List.foldl_append]
  rfl

/-- There is no path from an address that no path has had. -/
theorem hasPath_of_port_le {pm : PathManager} {n : ℕ}
    (h : ∀ id ∈ pm.paths.ids, (pm.paths.path id).localAddr.port ≤ n)
    (remAddr : UDPAddr) : pm.hasPath (localhost (n + 1)) remAddr = false := by
  rw [hasPath, List.any_eq_false]
  intro id hid hsame
  have hport : (localhost (n + 1)).port = (pm.paths.path id).localAddr.port := by
    simp only [UDPAddr.sameString, Bool.and_eq_true, decide_eq_true_eq] at hsame
    exact hsame.1.2
  have hle := h id hid
  rw [← hport, localhost] at hle
  exact absurd hle (by simp)

/-- Each change creates a path, as long as there are IDs. -/
theorem created_afterChanges (perspective : Perspective) {n : ℕ}
    (hn : n ≤ numOwnPathIDs perspective) :
    Created (afterChanges perspective n) perspective n ∧
      ∀ id ∈ (afterChanges perspective n).paths.ids,
        ((afterChanges perspective n).paths.path id).localAddr.port ≤ n := by
  induction n with
  | zero =>
    have hports : ∀ id, ((afterChanges perspective 0).paths.path id).localAddr.port = 0 := by
      intro id
      exact congrArg (fun p => p.localAddr.port)
        (path_setup perspective versionMP (localhost 0) (localhost 0) id)
    exact ⟨.setup perspective versionMP (localhost 0) (localhost 0), fun id _ => (hports id).le⟩
  | succ n ih =>
    obtain ⟨hcreated, hports⟩ := ih (Nat.le_of_succ_le hn)
    rw [afterChanges_succ, createPath, if_neg (Bool.eq_false_iff.mp (hasPath_of_port_le hports _))]
    refine ⟨hcreated.createOwn hn _ _, fun id hid => ?_⟩
    set pm := afterChanges perspective n
    have hmem := (pm.ids_storePath pm.nxtPathID (localhost (n + 1)) (localhost 0) id).mp hid
    rw [path_storePath]
    by_cases hnew : id = pm.nxtPathID
    · rw [hnew, Function.update_self]
      exact Nat.le_refl _
    · rw [Function.update_of_ne hnew]
      exact (hports id (hmem.resolve_right hnew)).trans (Nat.le_succ n)

end PathManager

open PathManager in
/-- **The 129th path of a client replaces the first one, and the 128th of a server the initial
path.** -/
theorem networkChanges_replace :
    ((afterChanges .client 128).createPath (localhost 129) (localhost 0)).2 = some 1 ∧
      1 ∈ (afterChanges .client 128).paths.ids ∧
    ((afterChanges .server 127).createPath (localhost 128) (localhost 0)).2 = some initialPathID ∧
      initialPathID ∈ (afterChanges .server 127).paths.ids := by
  obtain ⟨hclient, hports⟩ := created_afterChanges .client (Nat.le_refl 128)
  obtain ⟨hserver, hports'⟩ := created_afterChanges .server (Nat.le_refl 127)
  have hone : (afterChanges .client 128).nxtPathID = 1 := UInt8.toNat_inj.mp hclient.next
  have hzero : (afterChanges .server 127).nxtPathID = initialPathID :=
    UInt8.toNat_inj.mp hserver.next
  refine ⟨?_, hone ▸ hclient.nxtPathID_mem, ?_, hserver.initial⟩
  · rw [createPath, if_neg (Bool.eq_false_iff.mp (hasPath_of_port_le hports _)), hone]
  · rw [createPath, if_neg (Bool.eq_false_iff.mp (hasPath_of_port_le hports' _)), hzero]

end MultipathQuic
