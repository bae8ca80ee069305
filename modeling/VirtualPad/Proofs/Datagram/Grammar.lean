import VirtualPad.Datagram.Decode

/-!
# The grammar of datagrams

Which bytes are datagrams, said by the places of their fields, and the cause for which all others
are refused. Bytes can be read by these places without ever looking past their end.
-/
namespace VirtualPad.Datagram

/-! ## Places -/

def byteAt (bytes : List UInt8) (place : Nat) : UInt8 :=
  bytes.getD place 0

def word16At (bytes : List UInt8) (place : Nat) : UInt16 :=
  Word.ofBytes16 (byteAt bytes place) (byteAt bytes (place + 1))

def word32At (bytes : List UInt8) (place : Nat) : UInt32 :=
  Word.ofBytes32 (byteAt bytes place) (byteAt bytes (place + 1)) (byteAt bytes (place + 2))
    (byteAt bytes (place + 3))

def idAt (bytes : List UInt8) (place : Nat) : Int32 := (word32At bytes place).toInt32

def nameLength (bytes : List UInt8) : Int32 := (word32At bytes 6).toInt32

def nameBytes (bytes : List UInt8) : List UInt8 :=
  (bytes.drop 10).take (nameLength bytes).toInt.toNat

def controllerAt (bytes : List UInt8) : Controller where
  id := idAt bytes 1
  mapper := .ofWire (byteAt bytes 5).toInt8
  name := Utf8.decodeLossy (nameBytes bytes)

def sampleAt (bytes : List UInt8) : Sample where
  buttons := (word16At bytes 6).toBitVec
  dpad := (byteAt bytes 8).toInt8
  leftX := (word16At bytes 9).toInt16
  leftY := (word16At bytes 11).toInt16
  rightX := (word16At bytes 13).toInt16
  rightY := (word16At bytes 15).toInt16

def NameFits (bytes : List UInt8) : Prop :=
  0 ≤ (nameLength bytes).toInt ∧ (nameLength bytes).toInt ≤ bytes.length - 10

inductive Grammar (bytes : List UInt8) : Except DecodeError Datagram → Prop
  | empty (h : bytes = []) : Grammar bytes (.error .empty)
  | unknown {code : UInt8} (hcode : bytes[0]? = some code) (h8 : code ≠ 8) (h9 : code ≠ 9)
      (h10 : code ≠ 10) : Grammar bytes (.error (.unknownCode code))
  | shortId (hcode : bytes[0]? = some 8) (hlength : bytes.length < 5) :
      Grammar bytes (.error (.truncated .offer 5 bytes.length))
  | nothingOffered (hcode : bytes[0]? = some 8) (hlength : 5 ≤ bytes.length)
      (hid : idAt bytes 1 ≤ 0) : Grammar bytes (.ok (.offer none))
  | shortHeader (hcode : bytes[0]? = some 8) (hlength : 5 ≤ bytes.length)
      (hshort : bytes.length < 10) (hid : 0 < idAt bytes 1) :
      Grammar bytes (.error (.truncated .offer 10 bytes.length))
  | nameOutOfBounds (hcode : bytes[0]? = some 8) (hlength : 10 ≤ bytes.length)
      (hid : 0 < idAt bytes 1) (hname : ¬ NameFits bytes) :
      Grammar bytes (.error (.nameOutOfBounds (nameLength bytes) (bytes.length - 10)))
  | offered (hcode : bytes[0]? = some 8) (hlength : 10 ≤ bytes.length) (hid : 0 < idAt bytes 1)
      (hname : NameFits bytes) : Grammar bytes (.ok (.offer (some (controllerAt bytes))))
  | shortState (hcode : bytes[0]? = some 9) (hlength : bytes.length < 17) :
      Grammar bytes (.error (.truncated .state 17 bytes.length))
  | state (hcode : bytes[0]? = some 9) (hlength : 17 ≤ bytes.length) :
      Grammar bytes (.ok (.state (byteAt bytes 1) (idAt bytes 2) (sampleAt bytes)))
  | release (hcode : bytes[0]? = some 10) : Grammar bytes (.ok .release)

theorem exists_grammar (bytes : List UInt8) : ∃ result, Grammar bytes result := by
  cases hcode : bytes[0]? with
  | none => exact ⟨_, .empty (List.head?_eq_none_iff.1 (by simpa using hcode))⟩
  | some code =>
    by_cases h8 : code = 8
    · subst h8
      by_cases hlength : bytes.length < 5
      · exact ⟨_, .shortId hcode hlength⟩
      · by_cases hid : idAt bytes 1 ≤ 0
        · exact ⟨_, .nothingOffered hcode (Nat.not_lt.1 hlength) hid⟩
        · have hpos := Int32.not_le.1 hid
          by_cases hheader : bytes.length < 10
          · exact ⟨_, .shortHeader hcode (Nat.not_lt.1 hlength) hheader hpos⟩
          · by_cases hname : NameFits bytes
            · exact ⟨_, .offered hcode (Nat.not_lt.1 hheader) hpos hname⟩
            · exact ⟨_, .nameOutOfBounds hcode (Nat.not_lt.1 hheader) hpos hname⟩
    · by_cases h9 : code = 9
      · subst h9
        by_cases hlength : bytes.length < 17
        · exact ⟨_, .shortState hcode hlength⟩
        · exact ⟨_, .state hcode (Nat.not_lt.1 hlength)⟩
      · by_cases h10 : code = 10
        · subst h10
          exact ⟨_, .release hcode⟩
        · exact ⟨_, .unknown hcode h8 h9 h10⟩

/-! ## Decoding follows the grammar -/

theorem exists_byte {n : Nat} {bytes : List UInt8} (h : n + 1 ≤ bytes.length) :
    ∃ b rest, bytes = b :: rest ∧ n ≤ rest.length := by
  cases bytes with
  | nil => exact absurd h (Nat.not_succ_le_zero n)
  | cons b rest => exact ⟨b, rest, rfl, Nat.le_of_succ_le_succ h⟩

theorem exists_bytes16 {n : Nat} {bytes : List UInt8} (h : n + 2 ≤ bytes.length) :
    ∃ b0 b1 rest, bytes = b0 :: b1 :: rest ∧ n ≤ rest.length := by
  obtain ⟨b0, tail, rfl, htail⟩ := exists_byte h
  obtain ⟨b1, rest, rfl, hrest⟩ := exists_byte htail
  exact ⟨b0, b1, rest, rfl, hrest⟩

theorem exists_bytes32 {n : Nat} {bytes : List UInt8} (h : n + 4 ≤ bytes.length) :
    ∃ b0 b1 b2 b3 rest, bytes = b0 :: b1 :: b2 :: b3 :: rest ∧ n ≤ rest.length := by
  obtain ⟨b0, b1, tail, rfl, htail⟩ := exists_bytes16 h
  obtain ⟨b2, b3, rest, rfl, hrest⟩ := exists_bytes16 htail
  exact ⟨b0, b1, b2, b3, rest, rfl, hrest⟩

theorem exists_body {code : UInt8} {bytes : List UInt8} (h : bytes[0]? = some code) :
    ∃ body, bytes = code :: body := by
  cases bytes with
  | nil => cases h
  | cons b body =>
    cases h
    exact ⟨body, rfl⟩

theorem decode_offer (body : List UInt8) : decode (8 :: body) = decodeOffer body := rfl

theorem decode_state (body : List UInt8) : decode (9 :: body) = decodeState body := rfl

theorem decodeOffer_of_lt {body : List UInt8} (h : (8 :: body).length < 5) :
    decodeOffer body = .error (.truncated .offer 5 (8 :: body).length) := by
  rw [List.length_cons] at h ⊢
  simp only [decodeOffer]
  split
  · simp only [List.length_cons] at h
    omega
  · rw [Nat.add_comm]
    rfl

theorem decodeState_of_lt {body : List UInt8} (h : (9 :: body).length < 17) :
    decodeState body = .error (.truncated .state 17 (9 :: body).length) := by
  rw [List.length_cons] at h ⊢
  simp only [decodeState]
  split
  · simp only [List.length_cons] at h
    omega
  · rw [Nat.add_comm]
    rfl

theorem decodeState_of_le {body : List UInt8} (h : 17 ≤ (9 :: body).length) :
    decodeState body = .ok (.state (byteAt (9 :: body) 1) (idAt (9 :: body) 2)
      (sampleAt (9 :: body))) := by
  -- Field after field is there, up to what nobody looks at.
  obtain ⟨ack, _, rfl, h1⟩ := exists_byte (Nat.le_of_succ_le_succ h)
  obtain ⟨i0, i1, i2, i3, _, rfl, h2⟩ := exists_bytes32 h1
  obtain ⟨b0, b1, _, rfl, h3⟩ := exists_bytes16 h2
  obtain ⟨dpad, _, rfl, h4⟩ := exists_byte h3
  obtain ⟨lx0, lx1, _, rfl, h5⟩ := exists_bytes16 h4
  obtain ⟨ly0, ly1, _, rfl, h6⟩ := exists_bytes16 h5
  obtain ⟨rx0, rx1, _, rfl, h7⟩ := exists_bytes16 h6
  obtain ⟨ry0, ry1, _, rfl, -⟩ := exists_bytes16 h7
  rfl

theorem decodeOffer_of_not_pos {body : List UInt8} (h : 5 ≤ (8 :: body).length)
    (hid : idAt (8 :: body) 1 ≤ 0) : decodeOffer body = .ok (.offer none) := by
  obtain ⟨i0, i1, i2, i3, rest, rfl, -⟩ := exists_bytes32 (Nat.le_of_succ_le_succ h)
  exact if_pos hid

theorem decodeOffer_of_short {body : List UInt8} (h : 5 ≤ (8 :: body).length)
    (hshort : (8 :: body).length < 10) (hid : 0 < idAt (8 :: body) 1) :
    decodeOffer body = .error (.truncated .offer 10 (8 :: body).length) := by
  obtain ⟨i0, i1, i2, i3, rest, rfl, -⟩ := exists_bytes32 (Nat.le_of_succ_le_succ h)
  have hid : ¬ (Word.ofBytes32 i0 i1 i2 i3).toInt32 ≤ 0 := Int32.not_le.2 hid
  simp only [decodeOffer, if_neg hid]
  split
  · simp only [List.length_cons] at hshort
    omega
  · simp only [List.length_cons, idSize, headerSize]
    rw [Nat.add_comm]

theorem decodeOffer_of_header {body : List UInt8} (h : 10 ≤ (8 :: body).length)
    (hid : 0 < idAt (8 :: body) 1) :
    decodeOffer body = (decodeName (nameLength (8 :: body)) ((8 :: body).drop 10)).map fun name =>
      .offer (some ⟨idAt (8 :: body) 1, .ofWire (byteAt (8 :: body) 5).toInt8, name⟩) := by
  obtain ⟨i0, i1, i2, i3, _, rfl, h1⟩ := exists_bytes32 (Nat.le_of_succ_le_succ h)
  obtain ⟨mapper, _, rfl, h2⟩ := exists_byte h1
  obtain ⟨n0, n1, n2, n3, _, rfl, -⟩ := exists_bytes32 h2
  exact if_neg (Int32.not_le.2 hid)

theorem length_drop_header {bytes : List UInt8} (h : 10 ≤ bytes.length) :
    ((bytes.drop 10).length : Int) = bytes.length - 10 := by
  rw [List.length_drop]
  omega

theorem decodeName_of_fits {bytes : List UInt8} (h : 10 ≤ bytes.length) (hname : NameFits bytes) :
    decodeName (nameLength bytes) (bytes.drop 10) = .ok (Utf8.decodeLossy (nameBytes bytes)) := by
  rw [NameFits, ← length_drop_header h] at hname
  exact if_pos hname

theorem decodeName_of_not_fits {bytes : List UInt8} (h : 10 ≤ bytes.length)
    (hname : ¬ NameFits bytes) :
    decodeName (nameLength bytes) (bytes.drop 10) =
      .error (.nameOutOfBounds (nameLength bytes) (bytes.length - 10)) := by
  rw [NameFits, ← length_drop_header h] at hname
  rw [decodeName, if_neg hname, List.length_drop]

theorem Grammar.decode_eq {bytes : List UInt8} {result : Except DecodeError Datagram}
    (h : Grammar bytes result) : decode bytes = result := by
  cases h with
  | empty h =>
    subst h
    rfl
  | unknown hcode h8 h9 h10 =>
    obtain ⟨body, rfl⟩ := exists_body hcode
    exact (if_neg h8).trans ((if_neg h9).trans (if_neg h10))
  | shortId hcode hlength =>
    obtain ⟨body, rfl⟩ := exists_body hcode
    rw [decode_offer, decodeOffer_of_lt hlength]
  | nothingOffered hcode hlength hid =>
    obtain ⟨body, rfl⟩ := exists_body hcode
    rw [decode_offer, decodeOffer_of_not_pos hlength hid]
  | shortHeader hcode hlength hshort hid =>
    obtain ⟨body, rfl⟩ := exists_body hcode
    rw [decode_offer, decodeOffer_of_short hlength hshort hid]
  | nameOutOfBounds hcode hlength hid hname =>
    obtain ⟨body, rfl⟩ := exists_body hcode
    rw [decode_offer, decodeOffer_of_header hlength hid, decodeName_of_not_fits hlength hname]
    rfl
  | offered hcode hlength hid hname =>
    obtain ⟨body, rfl⟩ := exists_body hcode
    rw [decode_offer, decodeOffer_of_header hlength hid, decodeName_of_fits hlength hname]
    rfl
  | shortState hcode hlength =>
    obtain ⟨body, rfl⟩ := exists_body hcode
    rw [decode_state, decodeState_of_lt hlength]
  | state hcode hlength =>
    obtain ⟨body, rfl⟩ := exists_body hcode
    rw [decode_state, decodeState_of_le hlength]
  | release hcode =>
    obtain ⟨body, rfl⟩ := exists_body hcode
    rfl

theorem grammar_decode (bytes : List UInt8) : Grammar bytes (decode bytes) := by
  obtain ⟨result, h⟩ := exists_grammar bytes
  rwa [h.decode_eq]

/-! ## Reading by places

Bytes, slices and differences of lengths have to be there, or nothing is read at all. -/

def byteAt? (bytes : List UInt8) (place : Nat) : Option UInt8 :=
  bytes[place]?

def word16At? (bytes : List UInt8) (place : Nat) : Option UInt16 := do
  return Word.ofBytes16 (← byteAt? bytes place) (← byteAt? bytes (place + 1))

def word32At? (bytes : List UInt8) (place : Nat) : Option UInt32 := do
  return Word.ofBytes32 (← byteAt? bytes place) (← byteAt? bytes (place + 1))
    (← byteAt? bytes (place + 2)) (← byteAt? bytes (place + 3))

def slice? (bytes : List UInt8) (place size : Nat) : Option (List UInt8) :=
  if place + size ≤ bytes.length then some ((bytes.drop place).take size) else none

def difference? (a b : Nat) : Option Nat :=
  if b ≤ a then some (a - b) else none

def offeredAt? (bytes : List UInt8) (id : Int32) : Option (Except DecodeError Datagram) := do
  let mapper ← byteAt? bytes 5
  let length := (← word32At? bytes 6).toInt32
  let available ← difference? bytes.length headerSize
  if 0 ≤ length.toInt ∧ length.toInt ≤ available then
    (slice? bytes headerSize length.toInt.toNat).map fun name =>
      .ok (.offer (some ⟨id, .ofWire mapper.toInt8, Utf8.decodeLossy name⟩))
  else some (.error (.nameOutOfBounds length available))

/-- The id alone is looked for without knowing whether it is there. -/
def offerAt? (bytes : List UInt8) : Option (Except DecodeError Datagram) :=
  match word32At? bytes 1 with
  | none => some (.error (.truncated .offer idSize bytes.length))
  | some id =>
    if id.toInt32 ≤ 0 then some (.ok (.offer none))
    else if bytes.length < headerSize then
      some (.error (.truncated .offer headerSize bytes.length))
    else offeredAt? bytes id.toInt32

def stateAt? (bytes : List UInt8) : Option (Except DecodeError Datagram) :=
  if bytes.length < stateSize then
    some (.error (.truncated .state stateSize bytes.length))
  else do
    let buttons ← word16At? bytes 6
    let dpad ← byteAt? bytes 8
    let leftX ← word16At? bytes 9
    let leftY ← word16At? bytes 11
    let rightX ← word16At? bytes 13
    let rightY ← word16At? bytes 15
    let ack ← byteAt? bytes 1
    let id ← word32At? bytes 2
    return .ok (.state ack id.toInt32
      ⟨buttons.toBitVec, dpad.toInt8, leftX.toInt16, leftY.toInt16, rightX.toInt16,
        rightY.toInt16⟩)

def datagramAt? (bytes : List UInt8) : Option (Except DecodeError Datagram) :=
  match byteAt? bytes 0 with
  | none => some (.error .empty)
  | some code =>
    if code = offerCode then offerAt? bytes
    else if code = stateCode then stateAt? bytes
    else if code = releaseCode then some (.ok .release)
    else some (.error (.unknownCode code))

variable {bytes : List UInt8} {place : Nat}

theorem byteAt?_eq (h : place + 1 ≤ bytes.length) :
    byteAt? bytes place = some (byteAt bytes place) := by
  rw [byteAt?, byteAt, List.getD_eq_getElem?_getD, List.getElem?_eq_getElem h, Option.getD_some]

theorem word16At?_eq (h : place + 2 ≤ bytes.length) :
    word16At? bytes place = some (word16At bytes place) := by
  simp only [word16At?, byteAt?_eq (show place + 1 ≤ bytes.length by omega), byteAt?_eq h]
  rfl

theorem word32At?_eq (h : place + 4 ≤ bytes.length) :
    word32At? bytes place = some (word32At bytes place) := by
  simp only [word32At?, byteAt?_eq (show place + 1 ≤ bytes.length by omega),
    byteAt?_eq (show place + 1 + 1 ≤ bytes.length by omega),
    byteAt?_eq (show place + 2 + 1 ≤ bytes.length by omega), byteAt?_eq h]
  rfl

theorem word32At?_eq_none (h : bytes.length < place + 4) : word32At? bytes place = none := by
  have hlast : byteAt? bytes (place + 3) = none := List.getElem?_eq_none (by omega)
  simp only [word32At?, hlast]
  cases byteAt? bytes place <;> cases byteAt? bytes (place + 1) <;>
    cases byteAt? bytes (place + 2) <;> rfl

theorem offerAt?_of_le (h : 5 ≤ bytes.length) :
    offerAt? bytes =
      if idAt bytes 1 ≤ 0 then some (.ok (.offer none))
      else if bytes.length < 10 then some (.error (.truncated .offer 10 bytes.length))
      else offeredAt? bytes (idAt bytes 1) := by
  rw [offerAt?, word32At?_eq h]
  rfl

theorem offeredAt?_of_le (h : 10 ≤ bytes.length) (id : Int32) :
    offeredAt? bytes id =
      if 0 ≤ (nameLength bytes).toInt ∧ (nameLength bytes).toInt ≤ (bytes.length - 10 : Nat) then
        (slice? bytes 10 (nameLength bytes).toInt.toNat).map fun name =>
          .ok (.offer (some ⟨id, .ofWire (byteAt bytes 5).toInt8, Utf8.decodeLossy name⟩))
      else some (.error (.nameOutOfBounds (nameLength bytes) (bytes.length - 10))) := by
  have hdifference : difference? bytes.length headerSize = some (bytes.length - 10) := if_pos h
  rw [offeredAt?, byteAt?_eq (show 5 + 1 ≤ bytes.length by omega), word32At?_eq h, hdifference]
  rfl

theorem offeredAt?_of_fits (h : 10 ≤ bytes.length) (hname : NameFits bytes) :
    offeredAt? bytes (idAt bytes 1) = some (.ok (.offer (some (controllerAt bytes)))) := by
  obtain ⟨hnonneg, hle⟩ := hname
  have hslice : slice? bytes 10 (nameLength bytes).toInt.toNat = some (nameBytes bytes) :=
    if_pos (by omega)
  rw [offeredAt?_of_le h, if_pos (by omega), hslice]
  rfl

theorem offeredAt?_of_not_fits (h : 10 ≤ bytes.length) (hname : ¬ NameFits bytes) :
    offeredAt? bytes (idAt bytes 1) =
      some (.error (.nameOutOfBounds (nameLength bytes) (bytes.length - 10))) := by
  rw [NameFits] at hname
  rw [offeredAt?_of_le h, if_neg (by omega)]

theorem stateAt?_of_le (h : 17 ≤ bytes.length) :
    stateAt? bytes =
      some (.ok (.state (byteAt bytes 1) (idAt bytes 2) (sampleAt bytes))) := by
  have hlength : ¬ bytes.length < stateSize := Nat.not_lt.2 h
  rw [stateAt?, if_neg hlength, word16At?_eq (show 6 + 2 ≤ bytes.length by omega),
    byteAt?_eq (show 8 + 1 ≤ bytes.length by omega),
    word16At?_eq (show 9 + 2 ≤ bytes.length by omega),
    word16At?_eq (show 11 + 2 ≤ bytes.length by omega),
    word16At?_eq (show 13 + 2 ≤ bytes.length by omega),
    word16At?_eq (show 15 + 2 ≤ bytes.length by omega),
    byteAt?_eq (show 1 + 1 ≤ bytes.length by omega),
    word32At?_eq (show 2 + 4 ≤ bytes.length by omega)]
  rfl

theorem datagramAt?_of_code {code : UInt8} (h : bytes[0]? = some code) :
    datagramAt? bytes =
      if code = 8 then offerAt? bytes
      else if code = 9 then stateAt? bytes
      else if code = 10 then some (.ok .release)
      else some (.error (.unknownCode code)) := by
  rw [datagramAt?, byteAt?, h]
  rfl

theorem Grammar.datagramAt?_eq {result : Except DecodeError Datagram}
    (h : Grammar bytes result) : datagramAt? bytes = some result := by
  cases h with
  | empty h =>
    subst h
    rfl
  | unknown hcode h8 h9 h10 => rw [datagramAt?_of_code hcode, if_neg h8, if_neg h9, if_neg h10]
  | shortId hcode hlength =>
    rw [datagramAt?_of_code hcode, if_pos rfl, offerAt?, word32At?_eq_none hlength]
    rfl
  | nothingOffered hcode hlength hid =>
    rw [datagramAt?_of_code hcode, if_pos rfl, offerAt?_of_le hlength, if_pos hid]
  | shortHeader hcode hlength hshort hid =>
    rw [datagramAt?_of_code hcode, if_pos rfl, offerAt?_of_le hlength,
      if_neg (Int32.not_le.2 hid), if_pos hshort]
  | nameOutOfBounds hcode hlength hid hname =>
    rw [datagramAt?_of_code hcode, if_pos rfl, offerAt?_of_le (by omega),
      if_neg (Int32.not_le.2 hid), if_neg (by omega), offeredAt?_of_not_fits hlength hname]
  | offered hcode hlength hid hname =>
    rw [datagramAt?_of_code hcode, if_pos rfl, offerAt?_of_le (by omega),
      if_neg (Int32.not_le.2 hid), if_neg (by omega), offeredAt?_of_fits hlength hname]
  | shortState hcode hlength =>
    have h9 : ¬ (9 : UInt8) = 8 := by decide
    rw [datagramAt?_of_code hcode, if_neg h9, if_pos rfl]
    exact if_pos hlength
  | state hcode hlength =>
    have h9 : ¬ (9 : UInt8) = 8 := by decide
    rw [datagramAt?_of_code hcode, if_neg h9, if_pos rfl, stateAt?_of_le hlength]
  | release hcode => exact datagramAt?_of_code hcode

/-- Of any bytes. They are what the grammar says, and nothing else; they are a datagram exactly
when they have a known code and all the fields that go with it; and reading them by places never
looks past their end. -/
theorem decode_eq_iff_grammar (bytes : List UInt8) :
    (∀ result, decode bytes = result ↔ Grammar bytes result) ∧
    ((∃ datagram, decode bytes = .ok datagram) ↔
      (bytes[0]? = some 8 ∧ 5 ≤ bytes.length ∧ idAt bytes 1 ≤ 0) ∨
      (bytes[0]? = some 8 ∧ 10 ≤ bytes.length ∧ 0 < idAt bytes 1 ∧
        0 ≤ (nameLength bytes).toInt ∧ (nameLength bytes).toInt ≤ bytes.length - 10) ∨
      (bytes[0]? = some 9 ∧ 17 ≤ bytes.length) ∨
      bytes[0]? = some 10) ∧
    datagramAt? bytes = some (decode bytes) := by
  have h := grammar_decode bytes
  refine ⟨?_, ?_, h.datagramAt?_eq⟩
  · intro result
    constructor
    · rintro rfl
      exact h
    · exact Grammar.decode_eq
  · constructor
    · rintro ⟨datagram, hd⟩
      rw [hd] at h
      cases h with
      | nothingOffered hcode hlength hid => exact .inl ⟨hcode, hlength, hid⟩
      | offered hcode hlength hid hname => exact .inr (.inl ⟨hcode, hlength, hid, hname⟩)
      | state hcode hlength => exact .inr (.inr (.inl ⟨hcode, hlength⟩))
      | release hcode => exact .inr (.inr (.inr hcode))
    · rintro (⟨hcode, hlength, hid⟩ | ⟨hcode, hlength, hid, hname⟩ | ⟨hcode, hlength⟩ | hcode)
      · exact ⟨_, (Grammar.nothingOffered hcode hlength hid).decode_eq⟩
      · exact ⟨_, (Grammar.offered hcode hlength hid hname).decode_eq⟩
      · exact ⟨_, (Grammar.state hcode hlength).decode_eq⟩
      · exact ⟨_, (Grammar.release hcode).decode_eq⟩

end VirtualPad.Datagram
