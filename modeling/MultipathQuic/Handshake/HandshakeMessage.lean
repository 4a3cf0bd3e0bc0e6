import Mathlib.Data.Finset.Sort
import MultipathQuic.Wire.FrameLength

/-!
# Handshake messages

`internal/handshake/handshake_message.go`: a handshake message is a tag and a map from tags to
values. It is written as an index of the tags, in ascending order, with the end offsets of the
values, followed by the values. The parser takes the difference of two offsets, in 32 bits, as the
length of a value.

## Main definitions

* `HandshakeMessage.write`, `parseHandshakeMessage`: both directions
* `TagMap.Representable`: what can be written

## Main results

* `HandshakeMessage.read_back`: what is written is read back
-/

namespace MultipathQuic

open ByteCodec

/-- `Tag`. -/
abbrev Tag := Fin (2 ^ 32)

/-- `protocol.CryptoMaxParams`. -/
def cryptoMaxParams : ℕ := 128

/-- `protocol.CryptoParameterMaxLength`. -/
def cryptoParameterMaxLength : ℕ := 4000

/-- A map from tags to byte strings: its keys, and the value of each of them. -/
@[ext] structure TagMap where
  tags : Finset Tag
  value : Tag → List UInt8
  value_eq_nil : ∀ t, t ∉ tags → value t = []

namespace TagMap

/-- The map without entries. -/
def empty : TagMap := ⟨∅, fun _ => [], fun _ _ => rfl⟩

/-- Stores a value. -/
def insert (d : TagMap) (t : Tag) (v : List UInt8) : TagMap where
  tags := Insert.insert t d.tags
  value := Function.update d.value t v
  value_eq_nil := by
    intro t' ht'
    rw [Finset.mem_insert, not_or] at ht'
    rw [Function.update_of_ne ht'.1]
    exact d.value_eq_nil t' ht'.2

theorem value_insert (d : TagMap) (t : Tag) (v : List UInt8) (t' : Tag) :
    (d.insert t v).value t' = if t' = t then v else d.value t' :=
  Function.update_apply ..

end TagMap

/-- `HandshakeMessage`. -/
@[ext] structure HandshakeMessage where
  tag : Tag
  data : TagMap

/-- The errors of `ParseHandshakeMessage`. -/
inductive HandshakeError
  | eof
  | unexpectedEOF
  | cryptoTooManyEntries
  | cryptoInvalidValueLength
  deriving DecidableEq, Repr

/-- The text of an error. -/
def HandshakeError.text : HandshakeError → String
  | .eof => "EOF"
  | .unexpectedEOF => "unexpected EOF"
  | .cryptoTooManyEntries => "CryptoTooManyEntries"
  | .cryptoInvalidValueLength => "CryptoInvalidValueLength: value too long"

/-! ## Writing -/

namespace HandshakeMessage

/-- `getTagsSorted`. -/
def getTagsSorted (h : HandshakeMessage) : List Tag := h.data.tags.sort (· ≤ ·)

/-- The index of the tags, the first of whose values starts at `offset`. -/
def writeIndex (d : TagMap) : ℕ → List Tag → List UInt8
  | _, [] => []
  | offset, t :: tags =>
    let offset := add32 offset ((d.value t).length % 2 ^ 32)
    ByteOrder.littleEndian.writeUint32 t ++
      (ByteOrder.littleEndian.writeUint32 offset ++ writeIndex d offset tags)

/-- `Write`. -/
def write (h : HandshakeMessage) : List UInt8 :=
  ByteOrder.littleEndian.writeUint32 h.tag ++
    (ByteOrder.littleEndian.writeUint16 h.data.tags.card ++
      (ByteOrder.littleEndian.writeUint16 0 ++
        (writeIndex h.data 0 h.getTagsSorted ++ h.getTagsSorted.flatMap h.data.value)))

end HandshakeMessage

/-! ## Parsing -/

/-- What `ParseHandshakeMessage` reads with. -/
abbrev HandshakeReader := Reader HandshakeError

/-- `io.ReadFull`. -/
def HandshakeReader.full (n : ℕ) : HandshakeReader (List UInt8) := readFull .eof .unexpectedEOF n

/-- The value between two offsets. -/
def HandshakeReader.value (dataStart dataEnd : ℕ) : HandshakeReader (List UInt8) :=
  let dataLen := sub32 dataEnd dataStart
  if dataLen > cryptoParameterMaxLength then throw .cryptoInvalidValueLength
  else HandshakeReader.full dataLen

/-- The loop over the index, of which `n` entries are left. -/
def parseValues : ℕ → List UInt8 → ℕ → TagMap → HandshakeReader TagMap
  | 0, _, _, d => pure d
  | n + 1, index, dataStart, d => do
    let dataEnd := ofLE ((index.drop 4).take 4)
    let data ← HandshakeReader.value dataStart dataEnd
    parseValues n (index.drop 8) dataEnd (d.insert (Fin.ofNat _ (ofLE (index.take 4))) data)

/-- The index and the values. -/
def parseIndex (nPairs : ℕ) : HandshakeReader TagMap := do
  let index ← HandshakeReader.full (nPairs * 8)
  parseValues nPairs index 0 .empty

/-- The index and the values, unless there are too many of them. -/
def parseEntries (nPairs : ℕ) : HandshakeReader TagMap :=
  if nPairs > cryptoMaxParams then throw .cryptoTooManyEntries else parseIndex nPairs

/-- `ParseHandshakeMessage`. -/
def parseHandshakeMessage : HandshakeReader HandshakeMessage := do
  let messageTag ← HandshakeReader.full 4
  let nPairs ← HandshakeReader.full 4
  let data ← parseEntries (ofLE nPairs)
  pure ⟨Fin.ofNat _ (ofLE messageTag), data⟩

/-! ## What is accepted -/

/-- There are not too many entries, and no value is too long. -/
structure TagMap.Representable (d : TagMap) : Prop where
  card_le : d.tags.card ≤ cryptoMaxParams
  length_le : ∀ t, (d.value t).length ≤ cryptoParameterMaxLength

theorem length_of_run_value {dataStart dataEnd : ℕ} {v bs bs' : List UInt8}
    (h : (HandshakeReader.value dataStart dataEnd).run bs = .ok (v, bs')) :
    v.length ≤ cryptoParameterMaxLength := by
  unfold HandshakeReader.value at h
  dsimp only at h
  split at h
  · cases h
  · next hle =>
    change (if _ then _ else _) = _ at h
    split at h
    · cases h
      exact (List.length_take_le _ _).trans (Nat.not_lt.mp hle)
    · cases h

/-- Each round of the loop adds at most one entry, with a value that is not too long. -/
theorem length_of_run_parseValues {n : ℕ} {index : List UInt8} {dataStart : ℕ} {d d' : TagMap}
    {bs bs' : List UInt8} (h : (parseValues n index dataStart d).run bs = .ok (d', bs'))
    (hd : ∀ t, (d.value t).length ≤ cryptoParameterMaxLength) :
    d'.tags.card ≤ d.tags.card + n ∧ ∀ t, (d'.value t).length ≤ cryptoParameterMaxLength := by
  induction n generalizing index dataStart d bs with
  | zero =>
    cases h
    exact ⟨le_rfl, hd⟩
  | succ n ih =>
    obtain ⟨v, bs₁, hv, h⟩ := exists_of_run_bind h
    obtain ⟨hcard, hlen⟩ := ih h fun t => by
      rw [TagMap.value_insert]
      split_ifs
      · exact length_of_run_value hv
      · exact hd t
    refine ⟨hcard.trans ?_, hlen⟩
    have := Finset.card_insert_le (Fin.ofNat (2 ^ 32) (ofLE (index.take 4))) d.tags
    unfold TagMap.insert
    dsimp only
    omega

/-- What is accepted is representable. -/
theorem representable_of_run_parse {bs bs' : List UInt8} {h : HandshakeMessage}
    (hrun : parseHandshakeMessage.run bs = .ok (h, bs')) : h.data.Representable := by
  obtain ⟨tag, bs₁, -, hrun⟩ := exists_of_run_bind hrun
  obtain ⟨nPairs, bs₂, -, hrun⟩ := exists_of_run_bind hrun
  obtain ⟨data, bs₃, hdata, hrun⟩ := exists_of_run_bind hrun
  cases hrun
  unfold parseEntries at hdata
  split at hdata
  · cases hdata
  · next hle =>
    obtain ⟨index, bs₄, -, hdata⟩ := exists_of_run_bind hdata
    obtain ⟨hcard, hlen⟩ := length_of_run_parseValues hdata fun t => Nat.zero_le _
    rw [TagMap.empty, Finset.card_empty, Nat.zero_add] at hcard
    exact ⟨hcard.trans (Nat.not_lt.mp hle), hlen⟩

/-! ## The round trip -/

theorem run_full_append (as r : List UInt8) :
    (HandshakeReader.full as.length).run (as ++ r) = .ok (as, r) :=
  run_readFull_append _ _ as r

theorem ofLE_writeUint32 {n : ℕ} (h : n < 2 ^ 32) :
    ofLE (ByteOrder.littleEndian.writeUint32 n) = n := by
  rw [ByteOrder.writeUint32_eq]
  exact (ofLE_toLE 4 n).trans (Nat.mod_eq_of_lt h)

/-- The entries that are stored one after the other. -/
theorem TagMap.foldl_insert (d acc : TagMap) (tags : List Tag) :
    (tags.foldl (fun acc t => acc.insert t (d.value t)) acc).tags = acc.tags ∪ tags.toFinset ∧
      ∀ t, (tags.foldl (fun acc t => acc.insert t (d.value t)) acc).value t =
        if t ∈ tags then d.value t else acc.value t := by
  induction tags generalizing acc with
  | nil => simp
  | cons t tags ih =>
    obtain ⟨htags, hvalue⟩ := ih (acc.insert t (d.value t))
    rw [List.foldl_cons]
    refine ⟨?_, fun t' => ?_⟩
    · rw [htags, List.toFinset_cons, Finset.union_insert]
      exact Finset.insert_union t acc.tags _
    · rw [hvalue t', TagMap.value_insert]
      by_cases htail : t' ∈ tags
      · rw [if_pos htail, if_pos (List.mem_cons_of_mem t htail)]
      · by_cases hhead : t' = t
        · rw [if_neg htail, if_pos hhead, if_pos (hhead ▸ List.mem_cons_self), hhead]
        · rw [if_neg htail, if_neg hhead, if_neg (by simp [hhead, htail])]

/-- A map is what its entries are, in any order. -/
theorem TagMap.foldl_insert_empty {d : TagMap} {tags : List Tag} (h : tags.toFinset = d.tags) :
    tags.foldl (fun acc t => acc.insert t (d.value t)) .empty = d := by
  obtain ⟨htags, hvalue⟩ := d.foldl_insert .empty tags
  have hmem : ∀ t, t ∈ tags ↔ t ∈ d.tags := fun t => by rw [← h, List.mem_toFinset]
  ext t
  · rw [htags, h]
    simp [TagMap.empty]
  · rw [hvalue]
    split_ifs with ht
    · rfl
    · rw [d.value_eq_nil t (mt (hmem t).mpr ht)]
      rfl

/-- The loop reads the values back. -/
theorem run_parseValues (d acc : TagMap) {tags : List Tag} {offset : ℕ} (rest : List UInt8)
    (hlen : ∀ t ∈ tags, (d.value t).length ≤ cryptoParameterMaxLength)
    (hoffset : offset + tags.length * cryptoParameterMaxLength < 2 ^ 32) :
    (parseValues tags.length (HandshakeMessage.writeIndex d offset tags) offset acc).run
        (tags.flatMap d.value ++ rest) =
      .ok (tags.foldl (fun acc t => acc.insert t (d.value t)) acc, rest) := by
  induction tags generalizing offset acc with
  | nil => rfl
  | cons t tags ih =>
    obtain ⟨ht, htags⟩ := List.forall_mem_cons.mp hlen
    rw [List.length_cons, Nat.add_mul, Nat.one_mul] at hoffset
    have hbound : (d.value t).length ≤ 4000 := ht
    have hoffset' : add32 offset ((d.value t).length % 2 ^ 32) = offset + (d.value t).length := by
      rw [Nat.mod_eq_of_lt (by omega)]
      exact add32_of_lt (by unfold cryptoParameterMaxLength at hoffset; omega)
    have hread : (HandshakeReader.value offset (offset + (d.value t).length)).run
        (d.value t ++ (tags.flatMap d.value ++ rest)) =
        .ok (d.value t, tags.flatMap d.value ++ rest) := by
      have hdiff : sub32 (offset + (d.value t).length) offset = (d.value t).length := by
        unfold sub32 cryptoParameterMaxLength at *
        omega
      unfold HandshakeReader.value
      rw [hdiff, if_neg (Nat.not_lt.mpr ht)]
      exact run_full_append _ _
    have hindex : HandshakeMessage.writeIndex d offset (t :: tags) =
        ByteOrder.littleEndian.writeUint32 t ++ (ByteOrder.littleEndian.writeUint32
          (offset + (d.value t).length) ++
            HandshakeMessage.writeIndex d (offset + (d.value t).length) tags) := by
      rw [HandshakeMessage.writeIndex, hoffset']
    have hfour : ∀ n : ℕ, (ByteOrder.littleEndian.writeUint32 n).length = 4 :=
      ByteOrder.littleEndian.length_writeUint32
    rw [List.length_cons, parseValues, hindex, List.take_left' (hfour _), List.drop_left' (hfour _),
      List.take_left' (hfour _), ofLE_writeUint32 t.isLt, ofLE_writeUint32 (by
        unfold cryptoParameterMaxLength at hoffset; omega), List.flatMap_cons, List.append_assoc,
      run_bind_ok hread]
    have hdrop : (ByteOrder.littleEndian.writeUint32 t ++ (ByteOrder.littleEndian.writeUint32
        (offset + (d.value t).length) ++
          HandshakeMessage.writeIndex d (offset + (d.value t).length) tags)).drop 8 =
        HandshakeMessage.writeIndex d (offset + (d.value t).length) tags := by
      rw [← List.append_assoc]
      exact List.drop_left' (by rw [List.length_append, hfour, hfour])
    rw [hdrop, Fin.ofNat_val_eq_self]
    exact ih _ htags (by unfold cryptoParameterMaxLength at *; omega)

theorem HandshakeMessage.length_writeIndex (d : TagMap) (offset : ℕ) (tags : List Tag) :
    (writeIndex d offset tags).length = tags.length * 8 := by
  induction tags generalizing offset with
  | nil => rfl
  | cons t tags ih =>
    rw [writeIndex, List.length_append, List.length_append, ByteOrder.length_writeUint32,
      ByteOrder.length_writeUint32, ih, List.length_cons]
    omega

/-- A message is read back. -/
theorem HandshakeMessage.run_parse_write {h : HandshakeMessage} (hr : h.data.Representable)
    (rest : List UInt8) : parseHandshakeMessage.run (h.write ++ rest) = .ok (h, rest) := by
  have hcard := hr.card_le
  have hlength : h.getTagsSorted.length = h.data.tags.card := Finset.length_sort _
  have hcount : ∀ n < 129, ByteOrder.littleEndian.writeUint16 n ++
      ByteOrder.littleEndian.writeUint16 0 = ByteOrder.littleEndian.writeUint32 n := by
    decide
  have hwrite : h.write ++ rest = ByteOrder.littleEndian.writeUint32 h.tag ++
      (ByteOrder.littleEndian.writeUint32 h.data.tags.card ++ (writeIndex h.data 0 h.getTagsSorted ++
        (h.getTagsSorted.flatMap h.data.value ++ rest))) := by
    rw [← hcount _ (Nat.lt_succ_of_le hcard)]
    simp only [write, List.append_assoc]
  have hfull : ∀ (n : ℕ) (r : List UInt8), (HandshakeReader.full 4).run
      (ByteOrder.littleEndian.writeUint32 n ++ r) =
        .ok (ByteOrder.littleEndian.writeUint32 n, r) := fun n r =>
      run_full_append (ByteOrder.littleEndian.writeUint32 n) r
  have hindex : (HandshakeReader.full (h.data.tags.card * 8)).run
      (writeIndex h.data 0 h.getTagsSorted ++ (h.getTagsSorted.flatMap h.data.value ++ rest)) =
        .ok (writeIndex h.data 0 h.getTagsSorted, h.getTagsSorted.flatMap h.data.value ++ rest) := by
    rw [← hlength, ← length_writeIndex h.data 0]
    exact run_full_append _ _
  have hvalues : (parseValues h.data.tags.card (writeIndex h.data 0 h.getTagsSorted) 0 .empty).run
      (h.getTagsSorted.flatMap h.data.value ++ rest) = .ok (h.data, rest) := by
    have hrun := run_parseValues h.data .empty rest (fun t _ => hr.length_le t)
      (show 0 + h.getTagsSorted.length * cryptoParameterMaxLength < 2 ^ 32 by
        unfold cryptoParameterMaxLength cryptoMaxParams at *
        omega)
    have htags : h.getTagsSorted.toFinset = h.data.tags := Finset.sort_toFinset _ _
    rw [TagMap.foldl_insert_empty htags, hlength] at hrun
    exact hrun
  have hentries : (parseEntries h.data.tags.card).run (writeIndex h.data 0 h.getTagsSorted ++
      (h.getTagsSorted.flatMap h.data.value ++ rest)) = .ok (h.data, rest) := by
    unfold parseEntries
    rw [if_neg (Nat.not_lt.mpr hcard)]
    exact (run_bind_ok hindex).trans hvalues
  unfold parseHandshakeMessage
  rw [hwrite, run_bind_ok (hfull _ _), run_bind_ok (hfull _ _), ofLE_writeUint32 h.tag.isLt,
    ofLE_writeUint32 (by unfold cryptoMaxParams at hcard; omega), run_bind_ok hentries,
    Fin.ofNat_val_eq_self]
  rfl

/-- **A message is read back**, and what is accepted is representable. -/
theorem HandshakeMessage.read_back :
    (∀ h : HandshakeMessage, h.data.Representable → ∀ rest,
        parseHandshakeMessage.run (h.write ++ rest) = .ok (h, rest)) ∧
      ∀ bytes, (∃ err, parseHandshakeMessage.run bytes = .error err) ∨
        ∃ h rest, parseHandshakeMessage.run bytes = .ok (h, rest) ∧ h.data.Representable := by
  refine ⟨fun h hr => run_parse_write hr, fun bytes => ?_⟩
  cases hrun : parseHandshakeMessage.run bytes with
  | error err => exact Or.inl ⟨err, rfl⟩
  | ok res => exact Or.inr ⟨res.1, res.2, rfl, representable_of_run_parse hrun⟩

/-- A message with three entries, one of them empty. -/
def threeEntries : HandshakeMessage where
  tag := 0x4f4c4843
  data := ((TagMap.empty.insert 0x00524556 [0x51, 0x30]).insert 0x00444150 []).insert 0x00494e53
    [0x61, 0x62, 0x63]

theorem HandshakeMessage.read_back_threeEntries :
    threeEntries.data.Representable ∧ parseHandshakeMessage.run (threeEntries.write ++ [7]) =
      .ok (threeEntries, [7]) := by
  have hr : threeEntries.data.Representable := by
    refine ⟨by decide, fun t => ?_⟩
    rw [threeEntries, TagMap.value_insert, TagMap.value_insert, TagMap.value_insert]
    split_ifs
    · decide
    · decide
    · decide
    · exact Nat.zero_le _
  exact ⟨hr, read_back.1 threeEntries hr [7]⟩

end MultipathQuic
