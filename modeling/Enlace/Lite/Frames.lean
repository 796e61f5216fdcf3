import Enlace.Crypto
import Enlace.Lib.Unicode
import Enlace.Quic.Varint

set_option autoImplicit false

/-! `relay/frames.ts`: what a client and the relay write to their socket. -/
namespace Enlace.Lite
open ByteString Fallible Unicode Enlace.Crypto Enlace.Quic

def maxPacketSize : ℕ := 64*1024

def endpointIdLength : ℕ := 32

inductive EcnCodepoint where
  | ect1
  | ect0
  | ce
  deriving DecidableEq

def EcnCodepoint.value : EcnCodepoint → UInt8
  | .ect1 => 1
  | .ect0 => 2
  | .ce => 3

structure Datagrams where
  endpointId : Bytes
  ecn : Option EcnCodepoint
  segmentSize : Option ℕ
  contents : Bytes
  deriving DecidableEq

inductive FrameType where
  | clientToRelayDatagram
  | clientToRelayDatagramBatch
  | relayToClientDatagram
  | relayToClientDatagramBatch
  | endpointGone
  | ping
  | pong
  | health
  | restarting
  | status
  deriving DecidableEq

def FrameType.value : FrameType → ℕ
  | .clientToRelayDatagram => 4
  | .clientToRelayDatagramBatch => 5
  | .relayToClientDatagram => 6
  | .relayToClientDatagramBatch => 7
  | .endpointGone => 8
  | .ping => 9
  | .pong => 10
  | .health => 11
  | .restarting => 12
  | .status => 13

variable (P : Primitives)

/-- The point check of the curve library throws an error of its own. -/
def validateEndpointId (endpointId : Bytes) : Outcome Bytes :=
  match toBlock 32 endpointId with
  | none => throwRange "endpoint id must be 32 bytes"
  | some id => if P.isPoint id then .ok endpointId else .error (.error "bad point")

def assertPayloadLimit (length : ℕ) : Outcome Unit :=
  throwIf (length > maxPacketSize) "relay frame exceeds 65536 bytes"

def encodeDatagrams (singleTag batchTag : FrameType) (datagrams : Datagrams) : Outcome Bytes := do
  let endpointId ← validateEndpointId P datagrams.endpointId
  let ecn := (datagrams.ecn.map EcnCodepoint.value).getD 0
  match datagrams.segmentSize with
  | some segmentSize => do
    throwIf (segmentSize < 1 ∨ segmentSize > 0xffff) "segment size out of range"
    let tagBytes ← encodeVarInt batchTag.value
    let payload := endpointId ++ ecn :: (beBytes 2 segmentSize ++ datagrams.contents)
    assertPayloadLimit (tagBytes.length + payload.length)
    return tagBytes ++ payload
  | none => do
    let tagBytes ← encodeVarInt singleTag.value
    let payload := endpointId ++ ecn :: datagrams.contents
    assertPayloadLimit (tagBytes.length + payload.length)
    return tagBytes ++ payload

/-- `encodeClientToRelayFrame` of a datagrams frame. -/
def encodeClientToRelayFrame (datagrams : Datagrams) : Outcome Bytes := do
  throwIf (datagrams.contents.length = 0) "relay datagram contents must not be empty"
  encodeDatagrams P .clientToRelayDatagram .clientToRelayDatagramBatch datagrams

inductive RelayStatusValue where
  | healthy
  | sameEndpointIdConnected
  | unknown (value : ℕ)

inductive RelayFrame where
  | ping (data : Bytes)
  | pong (data : Bytes)
  | status (status : RelayStatusValue)
  | health (problem : Text)
  | restarting (reconnectInMs tryForMs : ℕ)
  | endpointGone (endpointId : Bytes)
  | datagrams (datagrams : Datagrams)

inductive ClientRelayFrame where
  | ping (data : Bytes)
  | pong (data : Bytes)
  | datagrams (datagrams : Datagrams)

inductive RelayFrameProtocolVersion where
  | irohRelayV1
  | irohRelayV2
  deriving DecidableEq

def requireLength (bytes : Bytes) (length : ℕ) (name : String) : Outcome Unit :=
  throwIf (bytes.length ≠ length) (name ++ " must be " ++ toString length ++ " bytes")

def readU16BE (bytes : Bytes) (offset : ℕ) : Outcome ℕ :=
  match bytes[offset]?, bytes[offset + 1]? with
  | some hi, some lo => .ok (ofBeBytes [hi, lo])
  | _, _ => throwRange "not enough bytes for u16"

def writeU32BE (value : ℕ) : Outcome Bytes := do
  throwIf (value > 0xffffffff) "u32 out of range"
  return beBytes 4 value

def frameTag (tag : FrameType) : Outcome Bytes := encodeVarInt tag.value

def encodePingPong (tag : FrameType) (data : Bytes) : Outcome Bytes := do
  requireLength data 8 "ping/pong payload"
  return (← frameTag tag) ++ data

def encodeStatus : RelayStatusValue → Outcome Bytes
  | .healthy => return (← frameTag .status) ++ [0]
  | .sameEndpointIdConnected => return (← frameTag .status) ++ [1]
  | .unknown value => do
    throwIf (value > 0xff) "status value out of range"
    return (← frameTag .status) ++ [UInt8.ofNat value]

def encodeHealth (problem : Text) : Outcome Bytes := do
  let tagBytes ← frameTag .health
  let payload := encodeUtf8 problem
  assertPayloadLimit (tagBytes.length + payload.length)
  return tagBytes ++ payload

def encodeRelayToClientFrame : RelayFrame → Outcome Bytes
  | .ping data => encodePingPong .ping data
  | .pong data => encodePingPong .pong data
  | .status status => encodeStatus status
  | .health problem => encodeHealth problem
  | .restarting reconnectInMs tryForMs =>
    return (← frameTag .restarting) ++ (← writeU32BE reconnectInMs) ++ (← writeU32BE tryForMs)
  | .endpointGone endpointId => return (← frameTag .endpointGone) ++ (← validateEndpointId P endpointId)
  | .datagrams datagrams => encodeDatagrams P .relayToClientDatagram .relayToClientDatagramBatch datagrams

/-- `encodeClientToRelayFrame` of any frame. -/
def ClientRelayFrame.encode : ClientRelayFrame → Outcome Bytes
  | .ping data => encodePingPong .ping data
  | .pong data => encodePingPong .pong data
  | .datagrams sent => encodeClientToRelayFrame P sent

def decodeTaggedFrame (bytes : Bytes) : Outcome (ℕ × Bytes) := do
  let decoded ← decodeVarIntNumber bytes 0
  let payload := bytes.drop decoded.bytesRead
  assertPayloadLimit payload.length
  return (decoded.value, payload)

/-- The lower two bits; the code point of 0 is none. -/
def decodeEcn (ecnByte : UInt8) : Option EcnCodepoint :=
  if ecnByte &&& 3 = 0 then none else if ecnByte &&& 3 = 1 then some .ect1
  else if ecnByte &&& 3 = 2 then some .ect0 else some .ce

def decodeDatagrams (payload : Bytes) (isBatch : Bool) : Outcome Datagrams := do
  throwIf (payload.length < endpointIdLength + if isBatch then 3 else 1) "invalid datagrams frame"
  let endpointId ← validateEndpointId P (payload.take endpointIdLength)
  let ecnByte ← readU8 payload endpointIdLength
  if isBatch then
    let segmentSize ← readU16BE payload (endpointIdLength + 1)
    return ⟨endpointId, decodeEcn ecnByte, if segmentSize = 0 then none else some segmentSize,
      payload.drop (endpointIdLength + 3)⟩
  else return ⟨endpointId, decodeEcn ecnByte, none, payload.drop (endpointIdLength + 1)⟩

def parseStatus (payload : Bytes) : Outcome RelayStatusValue := do
  throwIf (payload.length < 1) "invalid status frame"
  let value ← readU8 payload 0
  return if value = 0 then .healthy else if value = 1 then .sameEndpointIdConnected else .unknown value.toNat

/-- The tags are the values of `FrameType`. `decodeHealth` is the text decoder, which throws for what is no UTF-8. -/
def decodeRelayToClientFrame (decodeHealth : Bytes → Outcome Text) (protocol : RelayFrameProtocolVersion)
    (bytes : Bytes) : Outcome RelayFrame := do
  let (tag, payload) ← decodeTaggedFrame bytes
  match tag with
  | 6 => return .datagrams (← decodeDatagrams P payload false)
  | 7 => return .datagrams (← decodeDatagrams P payload true)
  | 8 => do
    requireLength payload endpointIdLength "endpoint gone payload"
    return .endpointGone (← validateEndpointId P payload)
  | 9 => do
    requireLength payload 8 "ping payload"
    return .ping payload
  | 10 => do
    requireLength payload 8 "pong payload"
    return .pong payload
  | 11 => do
    throwIf (protocol ≠ .irohRelayV1) "relay frame not allowed for selected protocol"
    return .health (← decodeHealth payload)
  | 12 => do
    requireLength payload 8 "restarting payload"
    return .restarting (← readU32BE payload 0) (← readU32BE payload 4)
  | 13 => do
    throwIf (protocol ≠ .irohRelayV2) "relay frame not allowed for selected protocol"
    return .status (← parseStatus payload)
  | _ => throwRange ("invalid relay-to-client frame tag " ++ toString tag)

def decodeClientToRelayFrame (bytes : Bytes) : Outcome ClientRelayFrame := do
  let (tag, payload) ← decodeTaggedFrame bytes
  match tag with
  | 4 => return .datagrams (← decodeDatagrams P payload false)
  | 5 => return .datagrams (← decodeDatagrams P payload true)
  | 9 => do
    requireLength payload 8 "ping payload"
    return .ping payload
  | 10 => do
    requireLength payload 8 "pong payload"
    return .pong payload
  | _ => throwRange ("invalid client-to-relay frame tag " ++ toString tag)

variable {P}

def ValidEndpointId (P : Primitives) (endpointId : Bytes) : Prop :=
  ∃ id, toBlock 32 endpointId = some id ∧ P.isPoint id = true

lemma validateEndpointId_eq_ok {endpointId result : Bytes} :
    validateEndpointId P endpointId = .ok result ↔ ValidEndpointId P endpointId ∧ endpointId = result := by
 rw [validateEndpointId,ValidEndpointId]
 cases toBlock 32 endpointId with
 | none => simp [throwRange]
 | some id => cases h : P.isPoint id <;> simp [h]

lemma ValidEndpointId.length {endpointId : Bytes} (h : ValidEndpointId P endpointId) :
    endpointId.length = endpointIdLength := by
 obtain ⟨id,hid,_⟩:=h
 rw [toBlock] at hid
 split at hid
 · assumption
 · cases hid

lemma encodeClientToRelayFrame_single {endpointId contents frame : Bytes} {ecn : Option EcnCodepoint} :
    encodeClientToRelayFrame P ⟨endpointId, ecn, none, contents⟩ = .ok frame ↔
      contents ≠ [] ∧ ValidEndpointId P endpointId ∧ 1 + (endpointIdLength + (contents.length + 1)) ≤ maxPacketSize ∧
        [4] ++ (endpointId ++ (ecn.map EcnCodepoint.value).getD 0 :: contents) = frame := by
 have ht : encodeVarInt FrameType.clientToRelayDatagram.value = .ok [4] := rfl
 rw [encodeClientToRelayFrame,encodeDatagrams]
 simp only [bind_eq_ok,pure_eq_ok,throwIf_eq_ok,validateEndpointId_eq_ok,assertPayloadLimit,ht,
  List.length_append,List.length_cons,Except.ok.injEq,Nat.not_lt]
 constructor
 · rintro ⟨_,hne,_,⟨hv,rfl⟩,_,rfl,_,hlimit,hf⟩
   refine ⟨?_,hv,?_,hf⟩
   · intro hn
     exact hne (by rw [hn]; rfl)
   · rw [← hv.length]
     exact hlimit
 · rintro ⟨hne,hv,hlimit,hf⟩
   refine ⟨(),?_,endpointId,⟨hv,rfl⟩,[4],rfl,(),?_,hf⟩
   · exact fun hz=>hne (List.length_eq_zero_iff.mp hz)
   · rw [hv.length]
     exact hlimit

lemma decodeTaggedFrame_append {tag : FrameType} {tagBytes payload : Bytes} (ht : frameTag tag = .ok tagBytes)
    (hlimit : payload.length ≤ maxPacketSize) : decodeTaggedFrame (tagBytes ++ payload) = .ok (tag.value, payload) := by
 have hs : tag.value ≤ maxSafeInteger := by cases tag <;> decide
 have hr:=decodeVarIntNumber_of_drop ht hs (show (tagBytes ++ payload).drop 0 = tagBytes ++ payload from rfl)
 rw [decodeTaggedFrame,hr,ok_bind]
 simp only [List.drop_left]
 rw [assertPayloadLimit,throwIf_neg (Nat.not_lt.mpr hlimit)]
 rfl

lemma decodeEcn_value (ecn : Option EcnCodepoint) : decodeEcn ((ecn.map EcnCodepoint.value).getD 0) = ecn := by
 cases ecn with
 | none => rfl
 | some ecn => cases ecn <;> rfl

lemma encodeDatagrams_decodes {singleTag batchTag : FrameType} {d : Datagrams} {bytes : Bytes}
    (h : encodeDatagrams P singleTag batchTag d = .ok bytes) :
    ∃ payload, decodeTaggedFrame bytes = .ok ((if d.segmentSize.isSome then batchTag else singleTag).value, payload) ∧
      decodeDatagrams P payload d.segmentSize.isSome = .ok d := by
 obtain ⟨id,ecn,segmentSize,contents⟩:=d
 cases segmentSize with
 | none =>
  simp only [encodeDatagrams,bind_eq_ok,pure_eq_ok,validateEndpointId_eq_ok,assertPayloadLimit,throwIf_eq_ok] at h
  obtain ⟨_,⟨hv,rfl⟩,tagBytes,ht,_,hlimit,rfl⟩:=h
  refine ⟨_,decodeTaggedFrame_append ht (by omega),?_⟩
  rw [decodeDatagrams,← hv.length,List.take_left,validateEndpointId_eq_ok.mpr ⟨hv,rfl⟩]
  simp [readU8,throwIf_neg,decodeEcn_value]
 | some segmentSize =>
  simp only [encodeDatagrams,bind_eq_ok,pure_eq_ok,validateEndpointId_eq_ok,assertPayloadLimit,throwIf_eq_ok] at h
  obtain ⟨_,⟨hv,rfl⟩,_,hs,tagBytes,ht,_,hlimit,rfl⟩:=h
  refine ⟨_,decodeTaggedFrame_append ht (by omega),?_⟩
  have hr:=ofBeBytes_beBytes_of_lt 2 segmentSize (by omega)
  obtain ⟨hi,lo,hb⟩ : ∃ hi lo, beBytes 2 segmentSize = [hi,lo] := ⟨_,_,rfl⟩
  rw [hb] at hr
  rw [decodeDatagrams,← hv.length,List.take_left,validateEndpointId_eq_ok.mpr ⟨hv,rfl⟩,hb]
  simp [readU8,readU16BE,throwIf_neg,decodeEcn_value,hr,Nat.add_assoc,show segmentSize ≠ 0 by omega]

lemma encodePingPong_decodes {tag : FrameType} {data bytes : Bytes} (h : encodePingPong tag data = .ok bytes) :
    data.length = 8 ∧ decodeTaggedFrame bytes = .ok (tag.value, data) := by
 simp only [encodePingPong,requireLength,bind_eq_ok,pure_eq_ok,throwIf_eq_ok,not_not] at h
 obtain ⟨_,hl,tagBytes,ht,rfl⟩:=h
 exact ⟨hl,decodeTaggedFrame_append ht (by simp [hl,maxPacketSize])⟩

/-- Each decoder returns what its encoder was given, and takes no datagrams of the other direction. Statuses and health
problems are left out, which one protocol version each allows. -/
theorem decode_encode_relayFrame (P : Primitives) (decodeHealth : Bytes → Outcome Text)
    (protocol : RelayFrameProtocolVersion) :
    (∀ frame bytes, (∀ status, frame ≠ .status status) → (∀ problem, frame ≠ .health problem) →
      encodeRelayToClientFrame P frame = .ok bytes →
        decodeRelayToClientFrame P decodeHealth protocol bytes = .ok frame) ∧
    (∀ (frame : ClientRelayFrame) bytes, frame.encode P = .ok bytes → decodeClientToRelayFrame P bytes = .ok frame) ∧
    (∀ datagrams bytes, encodeRelayToClientFrame P (.datagrams datagrams) = .ok bytes →
      ∃ e, decodeClientToRelayFrame P bytes = .error e) ∧
    ∀ datagrams bytes, ClientRelayFrame.encode P (.datagrams datagrams) = .ok bytes →
      ∃ e, decodeRelayToClientFrame P decodeHealth protocol bytes = .error e := by
 refine ⟨?_,?_,?_,?_⟩
 · intro frame bytes hst hh h
   cases frame with
   | ping data | pong data =>
    obtain ⟨hl,ht⟩:=encodePingPong_decodes h
    rw [decodeRelayToClientFrame,ht]
    simp [FrameType.value,requireLength,throwIf_neg,hl]
   | status status => exact absurd rfl (hst status)
   | health problem => exact absurd rfl (hh problem)
   | restarting reconnectInMs tryForMs =>
    simp only [encodeRelayToClientFrame,writeU32BE,bind_eq_ok,pure_eq_ok,throwIf_eq_ok] at h
    obtain ⟨tagBytes,hta,_,⟨_,hf,rfl⟩,_,⟨_,hse,rfl⟩,rfl⟩:=h
    have hr:=ofBeBytes_beBytes_of_lt 4 reconnectInMs (by omega)
    have htr:=ofBeBytes_beBytes_of_lt 4 tryForMs (by omega)
    obtain ⟨_,_,_,_,hu⟩ : ∃ b0 b1 b2 b3, beBytes 4 reconnectInMs = [b0,b1,b2,b3] := ⟨_,_,_,_,rfl⟩
    obtain ⟨_,_,_,_,hu'⟩ : ∃ b0 b1 b2 b3, beBytes 4 tryForMs = [b0,b1,b2,b3] := ⟨_,_,_,_,rfl⟩
    rw [hu] at hr
    rw [hu'] at htr
    rw [List.append_assoc,decodeRelayToClientFrame,decodeTaggedFrame_append hta (by simp [maxPacketSize]),hu,hu']
    simp [FrameType.value,requireLength,throwIf_neg,readU32BE,hr,htr]
   | endpointGone endpointId =>
    simp only [encodeRelayToClientFrame,bind_eq_ok,pure_eq_ok,validateEndpointId_eq_ok] at h
    obtain ⟨tagBytes,hta,_,⟨hv,rfl⟩,rfl⟩:=h
    rw [decodeRelayToClientFrame,decodeTaggedFrame_append hta (by rw [hv.length]; decide)]
    simp [FrameType.value,requireLength,throwIf_neg,hv.length,validateEndpointId_eq_ok.mpr ⟨hv,rfl⟩]
   | datagrams datagrams =>
    obtain ⟨payload,ht,hd⟩:=encodeDatagrams_decodes h
    rw [decodeRelayToClientFrame,ht]
    cases hb : datagrams.segmentSize.isSome <;> rw [hb] at hd <;> simp [FrameType.value,hd]
 · intro frame bytes h
   cases frame with
   | ping data | pong data =>
    obtain ⟨hl,ht⟩:=encodePingPong_decodes h
    rw [decodeClientToRelayFrame,ht]
    simp [FrameType.value,requireLength,throwIf_neg,hl]
   | datagrams datagrams =>
    obtain ⟨_,_,hs⟩:=bind_eq_ok.mp h
    obtain ⟨payload,ht,hd⟩:=encodeDatagrams_decodes hs
    rw [decodeClientToRelayFrame,ht]
    cases hb : datagrams.segmentSize.isSome <;> rw [hb] at hd <;> simp [FrameType.value,hd]
 · intro datagrams bytes h
   obtain ⟨payload,ht,-⟩:=encodeDatagrams_decodes h
   rw [decodeClientToRelayFrame,ht]
   cases datagrams.segmentSize.isSome <;> exact ⟨_,rfl⟩
 · intro datagrams bytes h
   obtain ⟨_,_,hs⟩:=bind_eq_ok.mp h
   obtain ⟨payload,ht,-⟩:=encodeDatagrams_decodes hs
   rw [decodeRelayToClientFrame,ht]
   cases datagrams.segmentSize.isSome <;> exact ⟨_,rfl⟩

example : encodeRelayToClientFrame plainPrimitives (.restarting 1 2) = .ok [12, 0, 0, 0, 1, 0, 0, 0, 2] := rfl

end Enlace.Lite
