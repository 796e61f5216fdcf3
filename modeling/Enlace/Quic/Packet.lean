import Mathlib.Tactic.IntervalCases
import Enlace.Lite.Frames

set_option autoImplicit false

/-! `packet.ts`: long headers and packet numbers. -/
namespace Enlace.Quic
open ByteString Fallible Enlace.Lite List

def quicMaxPacketNumber : ℕ := 0x3fffffffffffffff

inductive LongHeaderPacketType where
  | initial
  | zeroRtt
  | handshake
  | retry
  deriving DecidableEq

def LongHeaderPacketType.text : LongHeaderPacketType → String
  | .initial => "initial"
  | .zeroRtt => "0-rtt"
  | .handshake => "handshake"
  | .retry => "retry"

structure QuicLongHeader where
  firstByte : UInt8
  version : ℕ
  packetType : LongHeaderPacketType
  destinationConnectionId : Bytes
  sourceConnectionId : Bytes
  offset : ℕ
  deriving DecidableEq

def isLongHeader (firstByte : UInt8) : Bool := firstByte &&& 0x80 != 0

def fixedBit (firstByte : UInt8) : Bool := firstByte &&& 0x40 != 0

def longHeaderPacketType (firstByte : UInt8) : LongHeaderPacketType :=
  match ((firstByte &&& 0x30) >>> 4).toNat with
  | 0 => .initial
  | 1 => .zeroRtt
  | 2 => .handshake
  | _ => .retry

def readBytes (bytes : Bytes) (offset length : ℕ) (name : String) : Outcome Bytes := do
  throwIf (bytes.length < offset + length) ("not enough bytes for " ++ name)
  return subarray bytes offset (offset + length)

def parseQuicLongHeader (bytes : Bytes) (offset : ℕ) : Outcome QuicLongHeader := do
  let firstByte ← readU8 bytes offset
  throwIf (isLongHeader firstByte = false) "QUIC packet is not long header"
  throwIf (fixedBit firstByte = false) "QUIC fixed bit is not set"
  let version ← readU32BE bytes (offset + 1)
  let destinationConnectionIdLength ← readU8 bytes (offset + 5)
  let pos := offset + 6
  let destinationConnectionId ←
    readBytes bytes pos destinationConnectionIdLength.toNat "destination connection id"
  let pos := pos + destinationConnectionIdLength.toNat
  let sourceConnectionIdLength ← readU8 bytes pos
  let pos := pos + 1
  let sourceConnectionId ← readBytes bytes pos sourceConnectionIdLength.toNat "source connection id"
  let pos := pos + sourceConnectionIdLength.toNat
  return ⟨firstByte, version, longHeaderPacketType firstByte, destinationConnectionId, sourceConnectionId, pos⟩

/-- What the two prefix parsers return beyond the long header. Only an Initial packet has a token. -/
structure QuicPacketHeaderPrefix where
  header : QuicLongHeader
  token : Bytes
  length : ℕ
  packetNumberOffset : ℕ
  deriving DecidableEq

def parseQuicInitialPacketHeaderPrefix (bytes : Bytes) (offset : ℕ) : Outcome QuicPacketHeaderPrefix := do
  let header ← parseQuicLongHeader bytes offset
  throwIf (header.packetType ≠ .initial) "QUIC packet is not Initial"
  let tokenLength ← decodeVarIntNumber bytes header.offset
  let pos := header.offset + tokenLength.bytesRead
  let token ← readBytes bytes pos tokenLength.value "initial token"
  let pos := pos + tokenLength.value
  let encodedLength ← decodeVarIntNumber bytes pos
  return ⟨header, token, encodedLength.value, pos + encodedLength.bytesRead⟩

def parseQuicHandshakePacketHeaderPrefix (bytes : Bytes) (offset : ℕ) : Outcome QuicPacketHeaderPrefix := do
  let header ← parseQuicLongHeader bytes offset
  throwIf (header.packetType ≠ .handshake) "QUIC packet is not Handshake"
  let encodedLength ← decodeVarIntNumber bytes header.offset
  return ⟨header, [], encodedLength.value, header.offset + encodedLength.bytesRead⟩

def readQuicPacketNumber (bytes : Bytes) (offset length : ℕ) : Outcome ℕ := do
  throwIf (length < 1 ∨ length > 4) "QUIC packet number length out of range"
  throwIf (bytes.length < offset + length) "not enough bytes for QUIC packet number"
  return ofBeBytes (subarray bytes offset (offset + length))

def quicPacketNumberToBigInt (packetNumber : ℕ) : Outcome ℕ := do
  throwIf (packetNumber > quicMaxPacketNumber) "QUIC packet number out of range"
  return packetNumber

def encodeQuicTruncatedPacketNumber (packetNumber length : ℕ) : Outcome Bytes := do
  throwIf (length < 1 ∨ length > 4) "QUIC packet number length out of range"
  let remaining ← quicPacketNumberToBigInt packetNumber
  return beBytes length remaining

def recoverQuicPacketNumber (truncatedPacketNumber packetNumberLength expectedPacketNumber : ℕ) : Outcome ℕ := do
  throwIf (packetNumberLength < 1 ∨ packetNumberLength > 4) "QUIC packet number length out of range"
  throwIf (truncatedPacketNumber ≥ 2^(8*packetNumberLength)) "QUIC truncated packet number out of range"
  let expected ← quicPacketNumberToBigInt expectedPacketNumber
  let packetNumberWindow := 2^(packetNumberLength*8)
  let halfWindow := packetNumberWindow / 2
  let candidate := expected - expected % packetNumberWindow + truncatedPacketNumber
  let recovered :=
    if candidate + halfWindow ≤ expected ∧ candidate + packetNumberWindow < quicMaxPacketNumber + 1 then
      candidate + packetNumberWindow
    else if candidate > expected + halfWindow ∧ candidate ≥ packetNumberWindow then
      candidate - packetNumberWindow
    else candidate
  throwIf (recovered > quicMaxPacketNumber) "recovered QUIC packet number out of range"
  return recovered

def nextExpectedQuicPacketNumber : Option ℕ → Outcome ℕ
  | none => .ok 0
  | some largestReceived => do
    let largestReceived ← quicPacketNumberToBigInt largestReceived
    throwIf (largestReceived = quicMaxPacketNumber) "QUIC expected packet number out of range"
    return largestReceived + 1

def updateLargestReceivedQuicPacketNumber (largestReceivedPacketNumber : Option ℕ)
    (receivedPacketNumber : ℕ) : Outcome ℕ := do
  let received ← quicPacketNumberToBigInt receivedPacketNumber
  match largestReceivedPacketNumber with
  | none => return received
  | some largestReceived => do
    let largestReceived ← quicPacketNumberToBigInt largestReceived
    return if received > largestReceived then received else largestReceived

lemma updateLargestReceivedQuicPacketNumber_eq_ok {largest : Option ℕ} {n updated : ℕ}
    (h : updateLargestReceivedQuicPacketNumber largest n = .ok updated) :
    n ≤ quicMaxPacketNumber ∧ (some updated = largest ↔ ∃ l ∈ largest, n ≤ l) := by
 simp only [updateLargestReceivedQuicPacketNumber,quicPacketNumberToBigInt,bind_eq_ok,throwIf_eq_ok, pure_eq_ok] at h
 obtain ⟨_,⟨_,hn,rfl⟩,h⟩:=h
 refine ⟨by omega,?_⟩
 cases largest with
 | none => simp
 | some l =>
  simp only [bind_eq_ok,throwIf_eq_ok,pure_eq_ok] at h
  obtain ⟨_,⟨_,_,rfl⟩,rfl⟩:=h
  simp only [Option.some.injEq,Option.mem_def,exists_eq_left']
  split_ifs <;> omega

lemma quicPacketNumberToBigInt_of_le {n : ℕ} (hn : n ≤ quicMaxPacketNumber) : quicPacketNumberToBigInt n = .ok n := by
 rw [quicPacketNumberToBigInt,throwIf_neg (by omega)]
 rfl

/-- A number is recovered from its low bytes if the expected one is near, or if it fits into them. -/
lemma recoverQuicPacketNumber_of_near {n length expected : ℕ} (hl : 1 ≤ length ∧ length ≤ 4)
    (hn : n ≤ quicMaxPacketNumber) (he : expected ≤ quicMaxPacketNumber)
    (hlow : expected < n + 2^(8*length - 1)) (hh : n ≤ expected + 2^(8*length - 1) ∨ n < 2^(8*length)) :
    recoverQuicPacketNumber (n % 256^length) length expected = .ok n := by
 have hmax : quicMaxPacketNumber = 4611686018427387903 := rfl
 have hlt : n % 256^length < 2^(8*length) := by
  rw [pow_mul]
  exact Nat.mod_lt n (Nat.pow_pos (by decide))
 have hr : ∀ m msg, m = n → (do throwIf (m > quicMaxPacketNumber) msg; return m : Outcome ℕ) = .ok n := by
  rintro m msg rfl
  rw [throwIf_neg (by omega)]
  rfl
 rw [recoverQuicPacketNumber,throwIf_neg (by omega),throwIf_neg (by omega), quicPacketNumberToBigInt_of_le he]
 apply hr
 -- the window is one of four numerals
 obtain ⟨hf,hla⟩:=hl
 interval_cases length <;> norm_num only at hlow hh ⊢ <;> split_ifs <;> omega

lemma nextExpectedQuicPacketNumber_le {largest : Option ℕ} {n : ℕ}
    (h : nextExpectedQuicPacketNumber largest = .ok n) : n ≤ quicMaxPacketNumber := by
 cases largest with
 | none =>
  rw [← Except.ok.inj h]
  exact Nat.zero_le _
 | some largest =>
  simp only [nextExpectedQuicPacketNumber,quicPacketNumberToBigInt,bind_eq_ok,throwIf_eq_ok,pure_eq_ok] at h
  obtain ⟨_,⟨_,hle,rfl⟩,_,hne,rfl⟩:=h
  omega

/-! `relay-driver.ts`: the packets of a relayed datagram. -/

def checkedPacketEndOffset (contents : Bytes) (endOffset : ℕ) : Outcome ℕ := do
  throwIf (endOffset > contents.length) "not enough bytes for coalesced QUIC packet"
  return endOffset

def longHeaderPacketEndOffset (contents : Bytes) (offset : ℕ) : Outcome ℕ := do
  let header ← parseQuicLongHeader contents offset
  match header.packetType with
  | .initial => do
    let front ← parseQuicInitialPacketHeaderPrefix contents offset
    checkedPacketEndOffset contents (front.packetNumberOffset + front.length)
  | .handshake => do
    let front ← parseQuicHandshakePacketHeaderPrefix contents offset
    checkedPacketEndOffset contents (front.packetNumberOffset + front.length)
  | packetType => throwRange ("unsupported QUIC relay long-header packet type " ++ packetType.text)

/-- The loop of `splitQuicRelayDatagram` at an offset. Every packet takes a byte, so as many rounds as there are bytes
are enough. -/
def splitFrom (contents : Bytes) : ℕ → ℕ → Outcome (List Bytes)
  | 0, _ => .ok []
  | rounds + 1, offset =>
    match contents[offset]? with
    | none => .ok []
    | some firstByte =>
      if isLongHeader firstByte then do
        let endOffset ← longHeaderPacketEndOffset contents offset
        let packets ← splitFrom contents rounds endOffset
        return subarray contents offset endOffset :: packets
      else .ok [contents.drop offset]

lemma parseQuicLongHeader_offset {bytes : Bytes} {offset : ℕ} {header : QuicLongHeader}
    (h : parseQuicLongHeader bytes offset = .ok header) : offset < header.offset := by
 simp only [parseQuicLongHeader,bind_eq_ok,pure_eq_ok] at h
 obtain ⟨_,_,_,_,_,_,_,_,_,_,_,_,_,_,_,_,rfl⟩:=h
 dsimp only
 omega

variable {contents : Bytes}

lemma longHeaderPacketEndOffset_bounds {offset endOffset : ℕ}
    (h : longHeaderPacketEndOffset contents offset = .ok endOffset) :
    offset < endOffset ∧ endOffset ≤ contents.length := by
 obtain ⟨header,hh,h⟩:=bind_eq_ok.mp h
 have hlt:=parseQuicLongHeader_offset hh
 split at h
 · simp only [parseQuicInitialPacketHeaderPrefix,hh,ok_bind,checkedPacketEndOffset,bind_eq_ok,pure_eq_ok,
    throwIf_eq_ok] at h
   obtain ⟨_,⟨_,_,_,_,_,_,_,_,rfl⟩,_,hle,rfl⟩:=h
   dsimp only at hle ⊢
   omega
 · simp only [parseQuicHandshakePacketHeaderPrefix,hh,ok_bind,checkedPacketEndOffset,bind_eq_ok,pure_eq_ok,
    throwIf_eq_ok] at h
   obtain ⟨_,⟨_,_,_,_,rfl⟩,_,hle,rfl⟩:=h
   dsimp only at hle ⊢
   omega
 · cases h

lemma splitFrom_spec {rounds offset : ℕ} (h : contents.length ≤ offset + rounds) {pkts : List Bytes}
    (hp : splitFrom contents rounds offset = .ok pkts) : pkts.flatten = contents.drop offset ∧ [] ∉ pkts := by
 induction rounds generalizing offset pkts with
 | zero =>
  cases hp
  exact ⟨(drop_eq_nil_of_le h).symm,not_mem_nil⟩
 | succ rounds ih =>
  rw [splitFrom] at hp
  split at hp
  · rename_i hno
    cases hp
    exact ⟨(drop_eq_nil_of_le (List.getElem?_eq_none_iff.mp hno)).symm,not_mem_nil⟩
  · rename_i hs
    have hlt:=(List.getElem?_eq_some_iff.mp hs).1
    split at hp
    · simp only [bind_eq_ok,pure_eq_ok] at hp
      obtain ⟨endOffset,he,rest,hrest,rfl⟩:=hp
      have hb:=longHeaderPacketEndOffset_bounds he
      have hd : contents.drop endOffset = (contents.drop offset).drop (endOffset - offset) := by
       rw [drop_drop,Nat.add_sub_cancel' (by omega)]
      obtain ⟨hf,hn⟩:=ih (by omega) hrest
      refine ⟨by rw [flatten_cons,hf,hd,subarray,take_append_drop],
       not_mem_cons_of_ne_of_not_mem (ne_nil_of_length_pos ?_).symm hn⟩
      rw [subarray,length_take,length_drop]
      omega
    · cases hp
      exact ⟨flatten_singleton,fun hm=>absurd (drop_eq_nil_iff.mp (mem_singleton.mp hm).symm) (by omega)⟩

def splitQuicRelayDatagram (contents : Bytes) : Outcome (List Bytes) := do
  throwIf (contents.length = 0) "relay QUIC datagram is empty"
  splitFrom contents contents.length 0

/-- The packets of a datagram, one after the other, are the datagram. -/
theorem split_packets_tile {packets : List Bytes} (h : splitQuicRelayDatagram contents = .ok packets) :
    packets.flatten = contents ∧ [] ∉ packets := by
 obtain ⟨_,_,h⟩:=bind_eq_ok.mp h
 exact splitFrom_spec (Nat.le_add_left ..) h

theorem split_packets_tile_two : ∃ packets, splitQuicRelayDatagram [0xe0, 0, 0, 0, 1, 0, 0, 1, 9, 0x40] = .ok packets ∧
    packets.flatten = [0xe0, 0, 0, 0, 1, 0, 0, 1, 9, 0x40] ∧ [] ∉ packets :=
 exists_ok_and (P := (·.length = 2)) (by decide +kernel) fun _ h _=>split_packets_tile h

/-- The slices that the loop of `splitRelayDatagramPackets` takes, as many as there are bytes at the most. -/
def segments (segmentSize : ℕ) : ℕ → Bytes → List Bytes
  | 0, _ => []
  | rounds + 1, contents =>
    if contents.length = 0 then []
    else contents.take segmentSize :: segments segmentSize rounds (contents.drop segmentSize)

def splitRelayDatagramPackets (datagrams : Datagrams) : Outcome (List Bytes) :=
  match datagrams.segmentSize with
  | none => splitQuicRelayDatagram datagrams.contents
  | some segmentSize => do
    throwIf (segmentSize > maxSafeInteger ∨ segmentSize < 1) "relay QUIC datagram segment size out of range"
    throwIf (datagrams.contents.length = 0) "relay QUIC datagram is empty"
    let packets ← (segments segmentSize datagrams.contents.length datagrams.contents).mapM
      splitQuicRelayDatagram
    return packets.flatten

def isShortHeaderPacket (packet : Bytes) : Outcome Bool :=
  match packet[0]? with
  | none => throwRange "relay QUIC datagram is empty"
  | some firstByte => .ok (!isLongHeader firstByte)

lemma splitQuicRelayDatagram_of_short {pkt : Bytes} (h : isShortHeaderPacket pkt = .ok true) :
    splitQuicRelayDatagram pkt = .ok [pkt] := by
 cases pkt with
 | nil => cases h
 | cons first rest =>
  have hs : isLongHeader first = false := by
   rw [← Bool.not_eq_true',← Except.ok.inj h]
  rw [splitQuicRelayDatagram,throwIf_neg (by simp),length_cons,splitFrom]
  simp [hs]

end Enlace.Quic
