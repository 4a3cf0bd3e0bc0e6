import MultipathQuic.Session.PacketNumbers
import MultipathQuic.Session.PacketPacker

/-!
# Packet protection

The AEAD of a session (`aesgcm12_aead.go`) and its keys (`key_derivation_quic_crypto.go`). The nonce of a
packet is an IV of the session and the packet number. A session has one AEAD for all its paths, and each
path has its own packet numbers, so the nonces of one path are all different and those of two paths are
not.

The cipher is a parameter. What is needed of it are two properties: `OpensSealed` and `CounterMode`.

## Main definitions

* `AeadAESGCM12`, `deriveQuicCryptoAESKeys`: the AEAD and its keys
* `sealAll`: the packets that a session seals, on all its paths

## Main results

* `exists_matching_keys`: what one party seals, the other one opens
* `sealAll_of_sealFrames`: a step of `sealAll` is what the packer does
* `nonces_of_paths`: two packets have the same nonce exactly if the same number of packets was sent
  before them on their paths
-/

namespace MultipathQuic

open ByteCodec

/-! ## The cipher -/

/-- `cipher.AEAD` with a key, as `aes12.NewGCM` makes it. The tag has 12 bytes. -/
structure GCM where
  sealBytes : (nonce associatedData src : List UInt8) → List UInt8
  openBytes : (nonce associatedData src : List UInt8) → Option (List UInt8)
  length_sealBytes : ∀ nonce associatedData src,
    (sealBytes nonce associatedData src).length = src.length + 12

namespace GCM

variable (g : GCM)

/-- `Open` gives back what `Seal` was given. -/
def OpensSealed : Prop :=
  ∀ nonce associatedData src, g.openBytes nonce associatedData
    (g.sealBytes nonce associatedData src) = some src

/-- Counter mode: the text stands under a keystream, which depends on the nonce. -/
def CounterMode : Prop :=
  ∃ keystream : List UInt8 → ℕ → UInt8, ∀ (nonce associatedData src : List UInt8), ∀ k < src.length,
    (g.sealBytes nonce associatedData src).getD k 0 = src.getD k 0 ^^^ keystream nonce k

variable {g}

/-- Under one nonce, two ciphertexts differ where the texts do, and by as much. -/
theorem CounterMode.xor_sealBytes (h : g.CounterMode) {nonce ad ad' src src' : List UInt8} {k : ℕ}
    (hk : k < src.length) (hk' : k < src'.length) :
    (g.sealBytes nonce ad src).getD k 0 ^^^ (g.sealBytes nonce ad' src').getD k 0 =
      src.getD k 0 ^^^ src'.getD k 0 := by
  obtain ⟨keystream, hbyte⟩ := h
  rw [hbyte nonce ad src k hk, hbyte nonce ad' src' k hk', UInt8.xor_comm (src'.getD k 0),
    UInt8.xor_assoc, ← UInt8.xor_assoc (keystream nonce k), UInt8.xor_self, UInt8.zero_xor]

end GCM

/-! ## The AEAD of a session -/

/-- `aeadAESGCM12`. -/
structure AeadAESGCM12 where
  otherIV : List UInt8
  myIV : List UInt8
  encrypter : GCM
  decrypter : GCM
  length_otherIV : otherIV.length = 4
  length_myIV : myIV.length = 4

/-- The error of `NewAEADAESGCM12`. -/
def aesGCMError : String := "AES-GCM: expected 16-byte keys and 4-byte IVs"

/-- `NewAEADAESGCM12`. -/
def newAEADAESGCM12 (newGCM : List UInt8 → GCM) (otherKey myKey otherIV myIV : List UInt8) :
    Except String AeadAESGCM12 :=
  if h : myKey.length = 16 ∧ otherKey.length = 16 ∧ myIV.length = 4 ∧ otherIV.length = 4 then
    .ok ⟨otherIV, myIV, newGCM myKey, newGCM otherKey, h.2.2.2, h.2.2.1⟩
  else .error aesGCMError

/-- `makeNonce`. -/
def makeNonce (iv : List UInt8) (packetNumber : ℕ) : List UInt8 :=
  iv ++ ByteOrder.littleEndian.writeUint64 packetNumber

namespace AeadAESGCM12

variable (aead : AeadAESGCM12)

/-- `Open`. -/
def openBytes (packetNumber : ℕ) (associatedData src : List UInt8) : Option (List UInt8) :=
  aead.decrypter.openBytes (makeNonce aead.otherIV packetNumber) associatedData src

/-- The sealer of the packer, with `Seal` and `Overhead`. -/
def sealer : Sealer where
  overhead := 12
  sealBytes := fun packetNumber associatedData src =>
    aead.encrypter.sealBytes (makeNonce aead.myIV packetNumber) associatedData src
  length_sealBytes := fun _ _ _ => aead.encrypter.length_sealBytes _ _ _

end AeadAESGCM12

theorem makeNonce_inj {iv : List UInt8} {n m : ℕ} (hn : n < 2 ^ 64) (hm : m < 2 ^ 64) :
    makeNonce iv n = makeNonce iv m ↔ n = m := by
  refine ⟨fun h => ?_, fun h => h ▸ rfl⟩
  have hbytes := List.append_cancel_left h
  rw [ByteOrder.writeUint64_eq, ByteOrder.writeUint64_eq] at hbytes
  have hmod : n % 256 ^ 8 = m % 256 ^ 8 := by
    rw [← ofLE_toLE, ← ofLE_toLE]
    exact congrArg ofLE hbytes
  rwa [show 256 ^ 8 = 2 ^ 64 from rfl, Nat.mod_eq_of_lt hn, Nat.mod_eq_of_lt hm] at hmod

/-! ## The keys -/

/-- The bytes of an ASCII text. -/
def asciiBytes (s : String) : List UInt8 := s.toList.map fun c => UInt8.ofNat c.toNat

/-- `hkdf.New`, as the bytes that are read from it. -/
abbrev HKDF := (secret salt info : List UInt8) → ℕ → UInt8

/-- `io.ReadFull` of `n` bytes, from the byte `start` on. -/
def readKeyBytes (r : ℕ → UInt8) (start n : ℕ) : List UInt8 :=
  (List.range n).map fun i => r (start + i)

@[simp] theorem length_readKeyBytes (r : ℕ → UInt8) (start n : ℕ) :
    (readKeyBytes r start n).length = n := by
  simp [readKeyBytes]

/-- `diversify`. -/
def diversify (hkdf : HKDF) (key iv divNonce : List UInt8) : List UInt8 × List UInt8 :=
  let r := hkdf (key ++ iv) divNonce (asciiBytes "QUIC key diversification")
  (readKeyBytes r 0 key.length, readKeyBytes r key.length iv.length)

/-- What `deriveKeys` derives the keys from. -/
structure KeyMaterial where
  forwardSecure : Bool
  sharedSecret : List UInt8
  nonces : List UInt8
  connID : UInt64
  chlo : List UInt8
  scfg : List UInt8
  cert : List UInt8
  divNonce : List UInt8

/-- What `deriveKeys` returns. -/
structure DerivedKeys where
  otherKey : List UInt8
  myKey : List UInt8
  otherIV : List UInt8
  myIV : List UInt8

/-- The `info` of `deriveKeys`. -/
def KeyMaterial.info (m : KeyMaterial) : List UInt8 :=
  asciiBytes (if m.forwardSecure then "QUIC forward secure key expansion\x00"
    else "QUIC key expansion\x00") ++
    ByteOrder.littleEndian.writeUint64 m.connID.toNat ++ m.chlo ++ m.scfg ++ m.cert

/-- `deriveKeys`. Only the keys of the server are diversified. -/
def deriveKeys (hkdf : HKDF) (m : KeyMaterial) (keyLen : ℕ) (swap : Bool) : DerivedKeys :=
  let s := readKeyBytes (hkdf m.sharedSecret m.nonces m.info) 0 (2 * keyLen + 2 * 4)
  let key1 := s.take keyLen
  let key2 := (s.drop keyLen).take keyLen
  let iv1 := (s.drop (2 * keyLen)).take 4
  let iv2 := s.drop (2 * keyLen + 4)
  let (key2, iv2) := if m.forwardSecure then (key2, iv2) else diversify hkdf key2 iv2 m.divNonce
  if swap then ⟨key2, key1, iv2, iv1⟩ else ⟨key1, key2, iv1, iv2⟩

/-- `DeriveQuicCryptoAESKeys`. -/
def deriveQuicCryptoAESKeys (newGCM : List UInt8 → GCM) (hkdf : HKDF) (m : KeyMaterial)
    (pers : Perspective) : Except String AeadAESGCM12 :=
  let keys := deriveKeys hkdf m 16 (pers == .client)
  newAEADAESGCM12 newGCM keys.otherKey keys.myKey keys.otherIV keys.myIV

/-- The keys have the lengths that the cipher needs. -/
theorem length_deriveKeys (hkdf : HKDF) (m : KeyMaterial) (swap : Bool) :
    let keys := deriveKeys hkdf m 16 swap
    keys.myKey.length = 16 ∧ keys.otherKey.length = 16 ∧ keys.myIV.length = 4 ∧
      keys.otherIV.length = 4 := by
  intro keys
  cases hsecure : m.forwardSecure <;> cases swap <;> simp [keys, deriveKeys, diversify, hsecure]

/-- **Client and server derive matching keys** from the same material: the cipher accepts them, and what
one party seals, the other one opens. The keys of the server are those of the client, the other way
round. -/
theorem exists_matching_keys {newGCM : List UInt8 → GCM} (hopens : ∀ key, (newGCM key).OpensSealed)
    (hkdf : HKDF) (m : KeyMaterial) (pers : Perspective) :
    ∃ mine theirs, deriveQuicCryptoAESKeys newGCM hkdf m pers = .ok mine ∧
      deriveQuicCryptoAESKeys newGCM hkdf m pers.other = .ok theirs ∧
      ∀ packetNumber associatedData src, theirs.openBytes packetNumber associatedData
        (mine.sealer.sealBytes packetNumber associatedData src) = some src := by
  refine ⟨_, _, dif_pos (length_deriveKeys hkdf m (pers == .client)),
    dif_pos (length_deriveKeys hkdf m (pers.other == .client)), fun packetNumber associatedData src => ?_⟩
  cases pers <;> exact hopens _ _ _ _

/-! ## The nonces of a session -/

/-- A generator that waits for the number 0 goes on with the next number. -/
theorem PacketNumberGenerator.pop_of_unarmed {p : PacketNumberGenerator} (hskip : p.nextToSkip = 0)
    (hroom : p.next + 1 < 2 ^ 64) (random : Option UInt16) :
    (p.pop random).1 = { p with next := p.next + 1 } := by
  have hnext : add64 p.next 1 = p.next + 1 := add64_of_lt hroom
  unfold pop
  rw [hnext, hskip, if_neg (Nat.succ_ne_zero _)]

/-- A packet that is sent: on a path, under a level, with the random number that `Pop` draws if it needs
one. -/
structure PathSend where
  pathID : UInt8
  level : EncryptionLevel
  draw : UInt16
  associatedData : List UInt8
  src : List UInt8

/-- A sealed packet. -/
structure SealedPacket where
  packetNumber : ℕ
  bytes : List UInt8

/-- The nonce of a packet that was sealed by an AEAD. -/
def SealedPacket.nonce (p : SealedPacket) (aead : AeadAESGCM12) : List UInt8 :=
  makeNonce aead.myIV p.packetNumber

/-- A packet under its number. -/
def PathSend.toSealed (s : PathSend) (sealers : EncryptionLevel → Sealer) (packetNumber : ℕ) :
    SealedPacket where
  packetNumber := packetNumber
  bytes := (sealers s.level).sealBytes packetNumber s.associatedData s.src

/-- The packets of a session, with the generators of its paths. -/
def sealAll (sealers : EncryptionLevel → Sealer) :
    (UInt8 → PacketNumberGenerator) → List PathSend → List SealedPacket
  | _, [] => []
  | generators, s :: sends =>
    s.toSealed sealers (generators s.pathID).peek ::
      sealAll sealers (Function.update generators s.pathID
        ((generators s.pathID).pop (some s.draw)).1) sends

/-- **A step of `sealAll` is what the packer does:** a packet that is written and sealed on a path consists
of a header and of the bytes of the first packet of `sealAll`, under its number, and leaves the generator
with which `sealAll` goes on. -/
theorem sealAll_of_sealFrames {E : Type} {s s' : Packing E} {ctx : PackContext} {draw : UInt16}
    (hdraw : ctx.random = some draw) {ph : PublicHeader} {frames : List Frame}
    {level : EncryptionLevel} {sealers : EncryptionLevel → Sealer} {packet : PackedPacket}
    (h : (sealFrames ctx ph frames level (sealers level)).exec s = (some (.ok packet), s'))
    {generators : UInt8 → PacketNumberGenerator}
    (hgenerator : generators s.path.pathID = s.path.packetNumberGenerator) :
    ∃ header payload bytes, packet.raw = header ++ bytes ∧ ∀ sends,
      sealAll sealers generators (⟨s.path.pathID, level, draw, header, payload⟩ :: sends) =
        ⟨packet.number, bytes⟩ :: sealAll sealers (Function.update generators s.path.pathID
          s'.path.packetNumberGenerator) sends := by
  obtain ⟨header, payload, -, -, -, hnumber, rfl, rfl⟩ :=
    (Program.ensures_of_exec h).mp (sealFrames_sealed ph frames level (sealers level)) packet rfl
  refine ⟨header, payload, _, rfl, fun sends => ?_⟩
  rw [sealAll, hgenerator, hdraw, hnumber]
  rfl

/-- The packets that were sent on a path before the `i`-th packet. -/
def earlier (sends : List PathSend) (i : ℕ) (pathID : UInt8) : ℕ :=
  (sends.take i).countP fun s => s.pathID = pathID

/-- The numbers of a path go up by one, whatever is sent on the other ones. -/
theorem getElem?_sealAll (sealers : EncryptionLevel → Sealer) 
    {generators : UInt8 → PacketNumberGenerator} {sends : List PathSend}
    (hskip : ∀ id, (generators id).nextToSkip = 0)
    (hroom : ∀ id, (generators id).next + sends.length < 2 ^ 64) {i : ℕ} {s : PathSend}
    (hs : sends[i]? = some s) :
    (sealAll sealers generators sends)[i]? =
      some (s.toSealed sealers ((generators s.pathID).next + earlier sends i s.pathID)) := by
  induction sends generalizing generators i with
  | nil => cases hs
  | cons t sends ih =>
    rw [List.length_cons] at hroom
    have hpop : ((generators t.pathID).pop (some t.draw)).1 =
        { generators t.pathID with next := (generators t.pathID).next + 1 } :=
      PacketNumberGenerator.pop_of_unarmed (hskip _) (by have := hroom t.pathID; omega) _
    cases i with
    | zero =>
      obtain rfl : t = s := by simpa using hs
      simp [sealAll, earlier, PacketNumberGenerator.peek]
    | succ i =>
      rw [List.getElem?_cons_succ] at hs
      rw [sealAll, List.getElem?_cons_succ, hpop]
      rw [ih (fun id => ?_) (fun id => ?_) hs]
      · -- the packet before counts if it is of the same path
        by_cases hid : t.pathID = s.pathID
        · simp only [earlier, List.take_succ_cons, hid, Function.update_self, List.countP_cons,
            decide_true, if_true]
          congr 2
          omega
        · simp [earlier, hid, Ne.symm hid]
      · by_cases hid : id = t.pathID
        · rw [hid, Function.update_self]
          exact hskip _
        · rw [Function.update_of_ne hid]
          exact hskip id
      · have hid_room := hroom id
        by_cases hid : id = t.pathID
        · rw [hid, Function.update_self]
          dsimp only
          rw [hid] at hid_room
          omega
        · rw [Function.update_of_ne hid]
          omega

theorem earlier_le (sends : List PathSend) (i : ℕ) (pathID : UInt8) :
    earlier sends i pathID ≤ sends.length :=
  List.countP_le_length.trans (List.length_take_le' i sends)

/-- A packet counts for the later ones of its path. -/
theorem earlier_lt {sends : List PathSend} {i j : ℕ} {s : PathSend} (hs : sends[i]? = some s)
    (hlt : i < j) : earlier sends i s.pathID < earlier sends j s.pathID := by
  obtain ⟨hi, rfl⟩ := List.getElem?_eq_some_iff.mp hs
  have hle : earlier sends (i + 1) sends[i].pathID ≤ earlier sends j sends[i].pathID :=
    ((List.take_prefix_take_left hlt).sublist).countP_le
  have hsucc : earlier sends (i + 1) sends[i].pathID = earlier sends i sends[i].pathID + 1 := by
    rw [earlier, List.take_succ_eq_append_getElem hi, List.countP_append, List.countP_singleton,
      if_pos (decide_eq_true rfl)]
    rfl
  omega

/-- The packets of a session with new paths. -/
def sealedPackets (sealers : EncryptionLevel → Sealer) (sends : List PathSend) : List SealedPacket :=
  sealAll sealers (fun _ => newPacketNumberGenerator skipPacketAveragePeriodLength) sends

/-- **The nonces of a session.** Whatever a session sends on its paths, in whatever order: two packets
under the AEAD of one level have the same nonce exactly if the same number of packets was sent before them
on their paths. So no nonce is used twice on a path; but the packets of two paths that have sent as many
packets before have the same nonce, and in counter mode they tell whoever sees them the difference of
their texts. -/
theorem nonces_of_paths (sealers : EncryptionLevel → Sealer) (aead : AeadAESGCM12)
    (sends : List PathSend) (hroom : sends.length < 2 ^ 64 - 1) (i j : ℕ) (s t : PathSend)
    (hs : sends[i]? = some s) (ht : sends[j]? = some t) (hsealer : sealers s.level = aead.sealer)
    (hlevel : s.level = t.level) :
    ∃ p q, (sealedPackets sealers sends)[i]? = some p ∧ (sealedPackets sealers sends)[j]? = some q ∧
      (p.nonce aead = q.nonce aead ↔ earlier sends i s.pathID = earlier sends j t.pathID) ∧
      (s.pathID = t.pathID → i ≠ j → p.nonce aead ≠ q.nonce aead) ∧
      (aead.encrypter.CounterMode → p.nonce aead = q.nonce aead → ∀ k < s.src.length, k < t.src.length →
        p.bytes.getD k 0 ^^^ q.bytes.getD k 0 = s.src.getD k 0 ^^^ t.src.getD k 0) := by
  have hsealed : ∀ {i : ℕ} {s : PathSend}, sends[i]? = some s → (sealedPackets sealers sends)[i]? =
      some (s.toSealed sealers (1 + earlier sends i s.pathID)) := by
    intro i s hs
    exact getElem?_sealAll sealers (fun _ => rfl)
      (fun _ => by dsimp only [newPacketNumberGenerator]; omega) hs
  have hlt : ∀ i id, 1 + earlier sends i id < 2 ^ 64 := by
    intro i id
    have := earlier_le sends i id
    omega
  have hiff : (s.toSealed sealers (1 + earlier sends i s.pathID)).nonce aead =
      (t.toSealed sealers (1 + earlier sends j t.pathID)).nonce aead ↔
        earlier sends i s.pathID = earlier sends j t.pathID :=
    (makeNonce_inj (hlt i _) (hlt j _)).trans Nat.add_left_cancel_iff
  refine ⟨_, _, hsealed hs, hsealed ht, hiff, ?_, ?_⟩
  · intro hid hne hnonce
    have heq := hiff.mp hnonce
    rcases Nat.lt_or_gt_of_ne hne with hlt | hgt
    · have := earlier_lt hs hlt
      rw [hid] at this heq
      omega
    · have := earlier_lt ht hgt
      rw [← hid] at this heq
      omega
  · intro hmode hnonce k hk hk'
    have heq := hiff.mp hnonce
    simp only [PathSend.toSealed, ← hlevel, hsealer, heq]
    exact hmode.xor_sealBytes hk hk'

/-- The sum of the position and the bytes of the nonce. -/
def toyKeystream (nonce : List UInt8) (i : ℕ) : UInt8 := nonce.foldl (· + ·) (UInt8.ofNat i)

/-- A toy cipher, with a tag that is empty of meaning. -/
def toyGCM : GCM where
  sealBytes := fun nonce _ src =>
    src.mapIdx (fun i b => b ^^^ toyKeystream nonce i) ++ List.replicate 12 0
  openBytes := fun nonce _ src =>
    some ((src.take (src.length - 12)).mapIdx fun i b => b ^^^ toyKeystream nonce i)
  length_sealBytes := by simp

theorem counterMode_toyGCM : toyGCM.CounterMode := by
  refine ⟨toyKeystream, fun nonce associatedData src k hk => ?_⟩
  simp [toyGCM, List.getElem?_append_left, hk]

theorem opensSealed_toyGCM : toyGCM.OpensSealed := by
  intro nonce associatedData src
  have hlength : (src.mapIdx fun i b => b ^^^ toyKeystream nonce i).length = src.length :=
    List.length_mapIdx
  simp only [toyGCM, Option.some.injEq, List.length_append, List.length_replicate, hlength,
    Nat.add_sub_cancel]
  rw [List.take_left' hlength, List.mapIdx_mapIdx]
  refine List.ext_getElem List.length_mapIdx fun i hi hi' => ?_
  rw [List.getElem_mapIdx, Function.comp_apply, UInt8.xor_assoc, UInt8.xor_self, UInt8.xor_zero]

/-- An AEAD with the toy cipher. -/
def toyAEAD : AeadAESGCM12 where
  otherIV := [1, 2, 3, 4]
  myIV := [5, 6, 7, 8]
  encrypter := toyGCM
  decrypter := toyGCM
  length_otherIV := rfl
  length_myIV := rfl

/-- A forward-secure packet on each of two paths. -/
def twoPaths : List PathSend := [⟨1, .forwardSecure, 0, [], [7]⟩, ⟨3, .forwardSecure, 0, [], [9]⟩]

/-- The packets of the two paths have one nonce, and their ciphertexts differ by 7 xor 9. -/
theorem nonces_of_paths_twoPaths :
    ∃ p q, (sealedPackets (fun _ => toyAEAD.sealer) twoPaths)[0]? = some p ∧
      (sealedPackets (fun _ => toyAEAD.sealer) twoPaths)[1]? = some q ∧
      p.nonce toyAEAD = q.nonce toyAEAD ∧ p.bytes.getD 0 0 ^^^ q.bytes.getD 0 0 = 14 := by
  obtain ⟨p, q, hp, hq, hiff, -, hxor⟩ := nonces_of_paths (fun _ => toyAEAD.sealer) toyAEAD twoPaths
    (by decide) 0 1 _ _ rfl rfl rfl rfl
  have hnonce : p.nonce toyAEAD = q.nonce toyAEAD := hiff.mpr (by decide)
  exact ⟨p, q, hp, hq, hnonce, hxor counterMode_toyGCM hnonce 0 (by decide) (by decide)⟩

end MultipathQuic
