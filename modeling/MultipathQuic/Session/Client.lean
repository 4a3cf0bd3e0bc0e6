import MultipathQuic.Handshake.HandshakeMessage
import MultipathQuic.Wire.HeaderRoundTrip

/-!
# The client and the version

`client.go`: a client offers the first of its versions. A server that does not support it answers with
a version negotiation packet, which lists the versions of the server; the client then chooses one and
starts a second session under a new connection ID. A server that does not know a connection answers with
a public reset, which ends the session of the client. Both packets are sent in the clear, so a client
may get them from anybody, in any order and any number of times.

## Main definitions

* `Client.handlePacket`, `Client.run`: the client

## Main results

* `chooseSupportedVersion_spec`: the choice of a version
* `client_switches_once`: there is at most one switch
-/

namespace MultipathQuic

open ByteCodec

/-! ## The packets in the clear -/

/-- `protocol.VersionUnsupported`. -/
def versionUnsupported : VersionNumber := -1

/-- `protocol.ChooseSupportedVersion`. -/
def chooseSupportedVersion (ours theirs : List VersionNumber) : VersionNumber :=
  (ours.find? fun ourVer => ourVer ∈ theirs).getD versionUnsupported

/-- The entry of a map, if it has one. -/
def TagMap.lookup (d : TagMap) (t : Tag) : Option (List UInt8) :=
  if t ∈ d.tags then some (d.value t) else none

def tagPRST : Tag := ⟨0x54535250, by decide⟩
def tagRSEQ : Tag := ⟨0x51455352, by decide⟩
def tagRNON : Tag := ⟨0x4e4f4e52, by decide⟩

/-- `PublicReset`. -/
structure PublicReset where
  rejectedPacketNumber : ℕ
  nonce : ℕ
  deriving DecidableEq

/-- The errors of `ParsePublicReset`. -/
inductive PublicResetError
  | handshake (err : HandshakeError)
  | wrongPublicResetTag
  | rseqMissing
  | invalidRSEQTag
  | rnonMissing
  | invalidRNONTag
  deriving DecidableEq

/-- The text of an error. -/
def PublicResetError.text : PublicResetError → String
  | .handshake err => err.text
  | .wrongPublicResetTag => "wrong public reset tag"
  | .rseqMissing => "RSEQ missing"
  | .invalidRSEQTag => "invalid RSEQ tag"
  | .rnonMissing => "RNON missing"
  | .invalidRNONTag => "invalid RNON tag"

/-- A value of 8 bytes. -/
def PublicReset.number (data : TagMap) (t : Tag) (missing invalid : PublicResetError) :
    Except PublicResetError ℕ :=
  match data.lookup t with
  | none => .error missing
  | some bytes => if bytes.length ≠ 8 then .error invalid else .ok (ofLE bytes)

/-- `ParsePublicReset`, after the message has been parsed. -/
def PublicReset.ofMessage (msg : HandshakeMessage) : Except PublicResetError PublicReset :=
  if msg.tag ≠ tagPRST then .error .wrongPublicResetTag
  else do
    let rseq ← PublicReset.number msg.data tagRSEQ .rseqMissing .invalidRSEQTag
    let rnon ← PublicReset.number msg.data tagRNON .rnonMissing .invalidRNONTag
    pure ⟨rseq, rnon⟩

/-- `ParsePublicReset`. -/
def parsePublicReset (bytes : List UInt8) : Except PublicResetError PublicReset :=
  match parseHandshakeMessage.run bytes with
  | .error err => .error (.handshake err)
  | .ok (msg, _) => PublicReset.ofMessage msg

/-! ## The client -/

/-- A session of a client, and the versions of the server if these are why it was started. -/
structure ClientSession where
  version : VersionNumber
  connectionID : UInt64
  negotiatedVersions : Option (List VersionNumber)
  deriving DecidableEq

/-- `client`: `sessions` are those that were created, the current one first. -/
structure Client where
  versions : List VersionNumber
  requestConnectionIDTruncation : Bool
  version : VersionNumber
  connectionID : UInt64
  versionNegotiated : Bool
  receivedVersionNegotiationPacket : Bool
  sessions : List ClientSession
  deriving DecidableEq

/-- A packet for a client. It comes from the address of the server or not; a new connection ID may be
generated for it, and a session may be created. -/
structure ClientPacket where
  data : List UInt8
  fromServer : Bool
  generated : Option UInt64
  newSessionSucceeds : Bool

/-- What a client does with a packet. -/
inductive ClientAction
  | invalidHeader (err : ParseHeaderError)
  | dropped
  | spoofedPublicReset
  | invalidPublicReset (err : PublicResetError)
  | closedRemote (rejectedPacketNumber : ℕ)
  | closedInvalidVersion
  | closedConnectionIDError
  /-- There is no session any more, and `Close` of a nil session panics. -/
  | panicsWithoutSession
  | switched (version : VersionNumber)
  | handled (hdr : PublicHeader)
  deriving DecidableEq

namespace Client

/-- The client of `DialNonFWSecure` and its first session, under the first of its versions. -/
def new (offered : VersionNumber) (others : List VersionNumber) (connID : UInt64)
    (requestConnectionIDTruncation : Bool) : Client where
  versions := offered :: others
  requestConnectionIDTruncation := requestConnectionIDTruncation
  version := offered
  connectionID := connID
  versionNegotiated := false
  receivedVersionNegotiationPacket := false
  sessions := [⟨offered, connID, none⟩]

/-- `handlePacketWithVersionFlag`, and `Close` after an error. A connection ID that could not be
generated is 0, and a session that could not be created is nil. -/
def handlePacketWithVersionFlag (c : Client) (supportedVersions : List VersionNumber)
    (p : ClientPacket) : Client × ClientAction :=
  if c.version ∈ supportedVersions then (c, .dropped)
  else
    let c := { c with receivedVersionNegotiationPacket := true }
    let newVersion := chooseSupportedVersion c.versions supportedVersions
    if newVersion = versionUnsupported then (c, .closedInvalidVersion)
    else
      match p.generated with
      | none => ({ c with version := newVersion, connectionID := 0 }, .closedConnectionIDError)
      | some connID =>
        let c := { c with version := newVersion, connectionID := connID }
        if p.newSessionSucceeds then
          ({ c with sessions := ⟨newVersion, connID, some supportedVersions⟩ :: c.sessions },
            .switched newVersion)
        else (c, .panicsWithoutSession)

/-- What `handlePacket` does with a public reset, the end of which is `rest`. -/
def handlePublicReset (c : Client) (hdr : PublicHeader) (rest : List UInt8) (fromServer : Bool) :
    ClientAction :=
  if fromServer = false ∨ hdr.connectionID ≠ c.connectionID then .spoofedPublicReset
  else
    match parsePublicReset rest with
    | .error err => .invalidPublicReset err
    | .ok pr => .closedRemote pr.rejectedPacketNumber

/-- `handlePacket`. -/
def handlePacket (c : Client) (p : ClientPacket) : Client × ClientAction :=
  match (parsePublicHeader .server c.version).run p.data with
  | .error err => (c, .invalidHeader err)
  | .ok ((hdr, supportedVersions), rest) =>
    if hdr.truncateConnectionID && !c.requestConnectionIDTruncation then (c, .dropped)
    else if hdr.truncateConnectionID = false ∧ hdr.connectionID ≠ c.connectionID then (c, .dropped)
    else if hdr.resetFlag then (c, c.handlePublicReset hdr rest p.fromServer)
    else if (c.receivedVersionNegotiationPacket || c.versionNegotiated) && hdr.versionFlag then
      (c, .dropped)
    else if hdr.versionFlag then c.handlePacketWithVersionFlag supportedVersions p
    else ({ c with versionNegotiated := true }, .handled hdr)

/-- The client after some packets. -/
def run (c : Client) (packets : List ClientPacket) : Client :=
  packets.foldl (fun c p => (c.handlePacket p).1) c

end Client

/-! ## The choice of a version -/

theorem chooseSupportedVersion_spec {ours theirs : List VersionNumber}
    (h : chooseSupportedVersion ours theirs ≠ versionUnsupported) :
    ∃ before after, ours = before ++ chooseSupportedVersion ours theirs :: after ∧
      chooseSupportedVersion ours theirs ∈ theirs ∧ ∀ v ∈ before, v ∉ theirs := by
  unfold chooseSupportedVersion at *
  cases hfind : ours.find? fun ourVer => ourVer ∈ theirs with
  | none =>
    rw [hfind] at h
    exact absurd rfl h
  | some v =>
    obtain ⟨hmem, before, after, hours, hbefore⟩ := List.find?_eq_some_iff_append.mp hfind
    exact ⟨before, after, hours, by simpa using hmem, by simpa using hbefore⟩

namespace Client

variable {c : Client} {p : ClientPacket}

/-! ## At most one switch -/

/-- A version has been settled, by a packet without versions or by one with versions. -/
def Settled (c : Client) : Prop :=
  c.versionNegotiated = true ∨ c.receivedVersionNegotiationPacket = true

/-- **What a packet can do.** It changes nothing, it settles the offered version, or it is the first one
with versions, among which the offered one is not. -/
theorem handlePacket_cases (c : Client) (p : ClientPacket) :
    (c.handlePacket p).1 = c ∨ (c.handlePacket p).1 = { c with versionNegotiated := true } ∨
      ¬ c.Settled ∧ ∃ supported, c.version ∉ supported ∧
        (c.handlePacket p).1 = (c.handlePacketWithVersionFlag supported p).1 := by
  unfold handlePacket
  split
  · exact Or.inl rfl
  · next hdr supported rest hparse =>
    split_ifs with htruncated hother hreset hsettled hversion
    · exact Or.inl rfl
    · exact Or.inl rfl
    · exact Or.inl rfl
    · exact Or.inl rfl
    · by_cases hmem : c.version ∈ supported
      · refine Or.inl ?_
        rw [handlePacketWithVersionFlag, if_pos hmem]
      · refine Or.inr (Or.inr ⟨fun h => hsettled ?_, supported, hmem, rfl⟩)
        rcases h with h | h
        · simp [h, hversion]
        · simp [h, hversion]
    · exact Or.inr (Or.inl rfl)

/-- The session that a client starts with. -/
def firstSession (offered : VersionNumber) (connID : UInt64) : ClientSession := ⟨offered, connID, none⟩

/-- The offered version has been kept, or another one has been chosen from the versions of a server. -/
structure Negotiated (offered : VersionNumber) (others : List VersionNumber) (connID : UInt64)
    (c : Client) : Prop where
  versions_eq : c.versions = offered :: others
  unsettled : ¬ c.Settled → c.version = offered ∧ c.sessions = [firstSession offered connID]
  version_mem : c.version ∈ offered :: others
  sessions : c.sessions = [firstSession offered connID] ∨ ∃ supported id, offered ∉ supported ∧
    c.version = chooseSupportedVersion (offered :: others) supported ∧ c.version ∈ supported ∧
    c.sessions = [⟨c.version, id, some supported⟩, firstSession offered connID]

variable {offered : VersionNumber} {others : List VersionNumber} {connID : UInt64}

theorem negotiated_new (trunc : Bool) :
    Negotiated offered others connID (new offered others connID trunc) where
  versions_eq := rfl
  unsettled := fun _ => ⟨rfl, rfl⟩
  version_mem := List.mem_cons_self
  sessions := Or.inl rfl

/-- What the first list of versions without the offered one does. -/
theorem handlePacketWithVersionFlag_cases {supported : List VersionNumber}
    (hversion : c.version ∉ supported) (p : ClientPacket) :
    (c.handlePacketWithVersionFlag supported p).1 = { c with receivedVersionNegotiationPacket := true } ∨
      chooseSupportedVersion c.versions supported ≠ versionUnsupported ∧
        ∃ id, (c.handlePacketWithVersionFlag supported p).1 =
            { c with
              receivedVersionNegotiationPacket := true
              version := chooseSupportedVersion c.versions supported
              connectionID := id } ∨
          (c.handlePacketWithVersionFlag supported p).1 =
            { c with
              receivedVersionNegotiationPacket := true
              version := chooseSupportedVersion c.versions supported
              connectionID := id
              sessions := ⟨chooseSupportedVersion c.versions supported, id, some supported⟩ ::
                c.sessions } := by
  rw [handlePacketWithVersionFlag, if_neg hversion]
  dsimp only
  by_cases hnone : chooseSupportedVersion c.versions supported = versionUnsupported
  · rw [if_pos hnone]
    exact Or.inl rfl
  · rw [if_neg hnone]
    refine Or.inr ⟨hnone, ?_⟩
    cases p.generated with
    | none => exact ⟨0, Or.inl rfl⟩
    | some id =>
      refine ⟨id, ?_⟩
      cases p.newSessionSucceeds with
      | false => exact Or.inl rfl
      | true => exact Or.inr rfl

theorem Negotiated.handlePacketWithVersionFlag (h : Negotiated offered others connID c)
    (hsettled : ¬ c.Settled) {supported : List VersionNumber} (hversion : c.version ∉ supported)
    (p : ClientPacket) :
    Negotiated offered others connID (c.handlePacketWithVersionFlag supported p).1 := by
  obtain ⟨hoffered, hsessions⟩ := h.unsettled hsettled
  rcases handlePacketWithVersionFlag_cases hversion p with heq | ⟨hchosen, id, heq⟩
  · rw [heq]
    exact ⟨h.versions_eq, fun hnot => absurd (Or.inr rfl) hnot, h.version_mem, h.sessions⟩
  · rw [h.versions_eq] at hchosen heq
    obtain ⟨before, after, hours, hmem, -⟩ := chooseSupportedVersion_spec hchosen
    have hmem' : chooseSupportedVersion (offered :: others) supported ∈ offered :: others := by
      have hsub := List.mem_append_right before
        (List.mem_cons_self (a := chooseSupportedVersion (offered :: others) supported) (l := after))
      rwa [← hours] at hsub
    rcases heq with heq | heq
    · rw [heq]
      exact ⟨rfl, fun hnot => absurd (Or.inr rfl) hnot, hmem', Or.inl hsessions⟩
    · rw [heq]
      refine ⟨rfl, fun hnot => absurd (Or.inr rfl) hnot, hmem',
        Or.inr ⟨supported, id, hoffered ▸ hversion, rfl, hmem, ?_⟩⟩
      exact congrArg _ hsessions

theorem Negotiated.handlePacket (h : Negotiated offered others connID c) (p : ClientPacket) :
    Negotiated offered others connID (c.handlePacket p).1 := by
  rcases handlePacket_cases c p with heq | heq | ⟨hsettled, supported, hversion, heq⟩
  · rw [heq]
    exact h
  · rw [heq]
    exact ⟨h.versions_eq, fun hnot => absurd (Or.inl rfl) hnot, h.version_mem, h.sessions⟩
  · rw [heq]
    exact h.handlePacketWithVersionFlag hsettled hversion p

theorem Negotiated.run (h : Negotiated offered others connID c) (packets : List ClientPacket) :
    Negotiated offered others connID (c.run packets) := by
  induction packets generalizing c with
  | nil => exact h
  | cons p packets ih => exact ih (h.handlePacket p)

/-- Nothing of the version changes any more when it has been settled. -/
theorem run_of_settled (hsettled : c.Settled) (packets : List ClientPacket) :
    (c.run packets).version = c.version ∧ (c.run packets).connectionID = c.connectionID ∧
      (c.run packets).sessions = c.sessions := by
  induction packets generalizing c with
  | nil => exact ⟨rfl, rfl, rfl⟩
  | cons p packets ih =>
    change ((c.handlePacket p).1.run packets).version = _ ∧
      ((c.handlePacket p).1.run packets).connectionID = _ ∧
      ((c.handlePacket p).1.run packets).sessions = _
    rcases handlePacket_cases c p with heq | heq | ⟨hnot, -⟩
    · rw [heq]
      exact ih hsettled
    · rw [heq]
      exact ih (Or.inl rfl)
    · exact absurd hsettled hnot

/-- **A client switches to another version once at most.** Whatever packets arrive, from the server or
from anybody else, a client uses one of its own versions. It has started one session, or a second one
for a list of versions without the offered one, under the version of its own that it prefers among
them. From the first packet on that settles the version, no packet changes it, starts a session or
changes the connection ID. -/
theorem client_switches_once (offered : VersionNumber) (others : List VersionNumber)
    (connID : UInt64) (trunc : Bool) (packets : List ClientPacket) :
    let c := (new offered others connID trunc).run packets
    c.version ∈ offered :: others ∧
    (c.sessions = [firstSession offered connID] ∨ ∃ supported id, offered ∉ supported ∧
      c.version = chooseSupportedVersion (offered :: others) supported ∧ c.version ∈ supported ∧
      c.sessions = [⟨c.version, id, some supported⟩, firstSession offered connID]) ∧
    ∀ packets', c.Settled → (c.run packets').version = c.version ∧
      (c.run packets').connectionID = c.connectionID ∧ (c.run packets').sessions = c.sessions := by
  intro c
  have h : Negotiated offered others connID c := (negotiated_new trunc).run packets
  exact ⟨h.version_mem, h.sessions, fun packets' hsettled => run_of_settled hsettled packets'⟩

end Client

end MultipathQuic
