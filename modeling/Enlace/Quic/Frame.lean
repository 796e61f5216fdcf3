import Enlace.Quic.Packet

set_option autoImplicit false

/-! `frame.ts`: the frames of a packet. -/
namespace Enlace.Quic
open ByteString Fallible List Except

namespace QuicFrameType

def padding : ℕ := 0x00
def ping : ℕ := 0x01
def ack : ℕ := 0x02
def ackEcn : ℕ := 0x03
def crypto : ℕ := 0x06
def streamBase : ℕ := 0x08
def maxData : ℕ := 0x10
def maxStreamData : ℕ := 0x11
def newConnectionId : ℕ := 0x18
def connectionCloseTransport : ℕ := 0x1c
def connectionCloseApplication : ℕ := 0x1d
def handshakeDone : ℕ := 0x1e

end QuicFrameType

structure QuicAckRange where
  gap : ℕ
  length : ℕ
  deriving DecidableEq

structure QuicAckEcnCounts where
  ect0 : ℕ
  ect1 : ℕ
  ce : ℕ
  deriving DecidableEq

structure QuicAckFrame where
  largestAcknowledged : ℕ
  ackDelay : ℕ
  firstAckRange : ℕ
  ranges : List QuicAckRange
  deriving DecidableEq

structure QuicStreamFrame where
  streamId : ℕ
  streamOffset : ℕ
  data : Bytes
  fin : Bool
  deriving DecidableEq

/-- A connection close in the transport error space has the type of the frame that caused it. -/
inductive QuicFrameBody where
  | padding (length : ℕ)
  | ping
  | ack (frame : QuicAckFrame)
  | ackEcn (frame : QuicAckFrame) (ecnCounts : QuicAckEcnCounts)
  | crypto (cryptoOffset : ℕ) (data : Bytes)
  | stream (frame : QuicStreamFrame)
  | maxData (maximumData : ℕ)
  | maxStreamData (streamId maximumStreamData : ℕ)
  | newConnectionId (sequenceNumber retirePriorTo : ℕ) (connectionId statelessResetToken : Bytes)
  | connectionClose (errorCode : ℕ) (frameType : Option ℕ) (reasonPhrase : Bytes)
  | handshakeDone
  deriving DecidableEq

structure QuicFrame where
  body : QuicFrameBody
  offset : ℕ
  endOffset : ℕ
  deriving DecidableEq

structure QuicFramesParseResult where
  frames : List QuicFrame
  endOffset : ℕ
  deriving DecidableEq

structure QuicAckPacketRange where
  smallest : ℕ
  largest : ℕ
  deriving DecidableEq

/-- The loop of `buildAckPacketRanges`; the ranges found so far are listed from the last one. -/
def extendAckPacketRanges (ranges : List QuicAckPacketRange) (packetNumber : ℕ) : List QuicAckPacketRange :=
  match ranges with
  | current :: rest =>
    if packetNumber + 1 = current.smallest then { current with smallest := packetNumber } :: rest
    else ⟨packetNumber, packetNumber⟩ :: ranges
  | [] => [⟨packetNumber, packetNumber⟩]

def buildAckPacketRanges (receivedPacketNumbers : List ℕ) : Outcome (List QuicAckPacketRange) := do
  let packetNumbers ← receivedPacketNumbers.mapM quicPacketNumberToBigInt
  return ((packetNumbers.dedup.insertionSort (· ≥ ·)).foldl extendAckPacketRanges []).reverse

def encodeAckRanges (previousSmallest : ℕ) : List QuicAckPacketRange → Outcome Bytes
  | [] => .ok []
  | range :: ranges => do
    let gap ← encodeVarInt (previousSmallest - range.largest - 2)
    let length ← encodeVarInt (range.largest - range.smallest)
    let fields ← encodeAckRanges range.smallest ranges
    return gap ++ length ++ fields

def encodeQuicAckFrame (receivedPacketNumbers : List ℕ) (ackDelay : ℕ) : Outcome Bytes := do
  match ← buildAckPacketRanges receivedPacketNumbers with
  | [] => throwRange "QUIC ACK requires at least one packet number"
  | firstRange :: ranges => do
    throwIf (ackDelay > maxSafeInteger) "QUIC ACK delay out of range"
    let largest ← encodeVarInt firstRange.largest
    let delay ← encodeVarInt ackDelay
    let count ← encodeVarInt ranges.length
    let first ← encodeVarInt (firstRange.largest - firstRange.smallest)
    let fields ← encodeAckRanges firstRange.smallest ranges
    return UInt8.ofNat QuicFrameType.ack :: (largest ++ delay ++ count ++ first ++ fields)

def streamFrameType (hasOffset fin : Bool) : ℕ :=
  QuicFrameType.streamBase ||| (if hasOffset then 0x04 else 0) ||| 0x02 ||| (if fin then 0x01 else 0)

def encodeFlagged (flag : Bool) (n : ℕ) : Outcome Bytes := if flag then encodeVarInt n else .ok []

def encodeQuicStreamFrame (streamId streamOffset : ℕ) (data : Bytes) (fin : Bool) : Outcome Bytes := do
  let hasOffset := decide (streamOffset ≠ 0)
  let id ← encodeVarInt streamId
  let offset ← encodeFlagged hasOffset streamOffset
  let length ← encodeVarInt data.length
  return UInt8.ofNat (streamFrameType hasOffset fin) :: (id ++ offset ++ length ++ data)

def encodeQuicApplicationConnectionCloseFrame (errorCode : ℕ) (reasonPhrase : Bytes) : Outcome Bytes := do
  let code ← encodeVarInt errorCode
  let length ← encodeVarInt reasonPhrase.length
  return UInt8.ofNat QuicFrameType.connectionCloseApplication :: (code ++ length ++ reasonPhrase)

def parsePaddingFrame (bytes : Bytes) (offset : ℕ) : QuicFrame :=
  let length := ((bytes.drop offset).takeWhile (· = 0)).length
  ⟨.padding length, offset, offset + length⟩

def parseCryptoFrame (bytes : Bytes) (offset : ℕ) : Outcome QuicFrame := do
  let cryptoOffset ← decodeVarIntNumber bytes (offset + 1)
  let pos := offset + 1 + cryptoOffset.bytesRead
  let length ← decodeVarIntNumber bytes pos
  let pos := pos + length.bytesRead
  throwIf (bytes.length < pos + length.value) "not enough bytes for QUIC CRYPTO frame data"
  let endOffset := pos + length.value
  return ⟨.crypto cryptoOffset.value (subarray bytes pos endOffset), offset, endOffset⟩

def validateAckRange (previousSmallestAcknowledged gap length : ℕ) : Outcome ℕ := do
  throwIf (previousSmallestAcknowledged < gap + 2) "QUIC ACK range gap underflows packet number"
  let largestAcknowledged := previousSmallestAcknowledged - gap - 2
  throwIf (length > largestAcknowledged) "QUIC ACK range length underflows packet number"
  return largestAcknowledged - length

def parseAckRanges (bytes : Bytes) : ℕ → ℕ → ℕ → Outcome (List QuicAckRange × ℕ)
  | 0, pos, _ => .ok ([], pos)
  | count + 1, pos, smallestAcknowledged => do
    let gap ← decodeVarInt bytes pos
    let pos := pos + gap.bytesRead
    let length ← decodeVarInt bytes pos
    let pos := pos + length.bytesRead
    let smallestAcknowledged ← validateAckRange smallestAcknowledged gap.value length.value
    let (ranges, pos) ← parseAckRanges bytes count pos smallestAcknowledged
    return (⟨gap.value, length.value⟩ :: ranges, pos)

def parseAckEcnCounts (bytes : Bytes) (offset : ℕ) : Outcome (QuicAckEcnCounts × ℕ) := do
  let ect0 ← decodeVarIntNumber bytes offset
  let pos := offset + ect0.bytesRead
  let ect1 ← decodeVarIntNumber bytes pos
  let pos := pos + ect1.bytesRead
  let ce ← decodeVarIntNumber bytes pos
  return (⟨ect0.value, ect1.value, ce.value⟩, pos + ce.bytesRead)

def parseAckFrame (bytes : Bytes) (offset frameType : ℕ) : Outcome QuicFrame := do
  let largestAcknowledged ← decodeVarInt bytes (offset + 1)
  let pos := offset + 1 + largestAcknowledged.bytesRead
  let ackDelay ← decodeVarIntNumber bytes pos
  let pos := pos + ackDelay.bytesRead
  let ackRangeCount ← decodeVarIntNumber bytes pos
  let pos := pos + ackRangeCount.bytesRead
  let firstAckRange ← decodeVarInt bytes pos
  let pos := pos + firstAckRange.bytesRead
  throwIf (firstAckRange.value > largestAcknowledged.value)
    "QUIC ACK first range exceeds largest acknowledged"
  let (ranges, pos) ← parseAckRanges bytes ackRangeCount.value pos
    (largestAcknowledged.value - firstAckRange.value)
  let frame := ⟨largestAcknowledged.value, ackDelay.value, firstAckRange.value, ranges⟩
  if frameType = QuicFrameType.ack then return ⟨.ack frame, offset, pos⟩
  else do
    let (ecnCounts, endOffset) ← parseAckEcnCounts bytes pos
    return ⟨.ackEcn frame ecnCounts, offset, endOffset⟩

def decodeFlagged (flag : Bool) (bytes : Bytes) (pos : ℕ) : Outcome (Option ℕ × ℕ) :=
  if flag then do
    let decoded ← decodeVarIntNumber bytes pos
    return (some decoded.value, pos + decoded.bytesRead)
  else .ok (none, pos)

def parseStreamFrame (bytes : Bytes) (offset frameType : ℕ) : Outcome QuicFrame := do
  let streamId ← decodeVarIntNumber bytes (offset + 1)
  let (streamOffset, pos) ← decodeFlagged (frameType &&& 0x04 ≠ 0) bytes (offset + 1 + streamId.bytesRead)
  let (dataLength, pos) ← decodeFlagged (frameType &&& 0x02 ≠ 0) bytes pos
  let endOffset := pos + dataLength.getD (bytes.length - pos)
  throwIf (bytes.length < endOffset) "not enough bytes for QUIC STREAM frame data"
  return ⟨.stream ⟨streamId.value, streamOffset.getD 0, subarray bytes pos endOffset, frameType &&& 0x01 ≠ 0⟩,
    offset, endOffset⟩

def parseMaxDataFrame (bytes : Bytes) (offset : ℕ) : Outcome QuicFrame := do
  let maximumData ← decodeVarIntNumber bytes (offset + 1)
  return ⟨.maxData maximumData.value, offset, offset + 1 + maximumData.bytesRead⟩

def parseMaxStreamDataFrame (bytes : Bytes) (offset : ℕ) : Outcome QuicFrame := do
  let streamId ← decodeVarIntNumber bytes (offset + 1)
  let pos := offset + 1 + streamId.bytesRead
  let maximumStreamData ← decodeVarIntNumber bytes pos
  return ⟨.maxStreamData streamId.value maximumStreamData.value, offset, pos + maximumStreamData.bytesRead⟩

def parseNewConnectionIdFrame (bytes : Bytes) (offset : ℕ) : Outcome QuicFrame := do
  let sequenceNumber ← decodeVarInt bytes (offset + 1)
  let pos := offset + 1 + sequenceNumber.bytesRead
  let retirePriorTo ← decodeVarInt bytes pos
  let pos := pos + retirePriorTo.bytesRead
  let connectionIdLength ← readU8 bytes pos
  let pos := pos + 1
  throwIf (connectionIdLength.toNat > 20) "QUIC NEW_CONNECTION_ID connection id length out of range"
  throwIf (bytes.length < pos + (connectionIdLength.toNat + 16))
    "not enough bytes for QUIC NEW_CONNECTION_ID frame"
  let connectionIdEndOffset := pos + connectionIdLength.toNat
  let tokenEndOffset := connectionIdEndOffset + 16
  return ⟨.newConnectionId sequenceNumber.value retirePriorTo.value
    (subarray bytes pos connectionIdEndOffset) (subarray bytes connectionIdEndOffset tokenEndOffset),
    offset, tokenEndOffset⟩

def parseConnectionCloseFrame (bytes : Bytes) (offset frameType : ℕ) : Outcome QuicFrame := do
  let errorCode ← decodeVarIntNumber bytes (offset + 1)
  let (closedFrameType, pos) ← decodeFlagged (frameType = QuicFrameType.connectionCloseTransport) bytes
    (offset + 1 + errorCode.bytesRead)
  let reasonLength ← decodeVarIntNumber bytes pos
  let pos := pos + reasonLength.bytesRead
  throwIf (bytes.length < pos + reasonLength.value) "not enough bytes for QUIC CONNECTION_CLOSE reason"
  let endOffset := pos + reasonLength.value
  return ⟨.connectionClose errorCode.value closedFrameType (subarray bytes pos endOffset), offset, endOffset⟩

def readQuicFrameType (bytes : Bytes) (offset : ℕ) : Outcome ℕ := do
  let first ← readU8 bytes offset
  if first &&& 0xc0 = 0 then return first.toNat
  else do
    let decoded ← decodeVarIntNumber bytes offset
    throwIf (decoded.value ≤ 0x3f) "QUIC frame type must use shortest encoding"
    return decoded.value

def isStreamFrameType (frameType : ℕ) : Bool := frameType &&& 0xf8 = QuicFrameType.streamBase

def hexText (n : ℕ) : String := String.ofList (Nat.toDigits 16 n)

/-- One round of the loop of `parseQuicFrames`. -/
def parseQuicFrame (bytes : Bytes) (pos : ℕ) : Outcome QuicFrame := do
  let frameType ← readQuicFrameType bytes pos
  if frameType = QuicFrameType.padding then return parsePaddingFrame bytes pos
  else if frameType = QuicFrameType.ping then return ⟨.ping, pos, pos + 1⟩
  else if frameType = QuicFrameType.crypto then parseCryptoFrame bytes pos
  else if frameType = QuicFrameType.ack ∨ frameType = QuicFrameType.ackEcn then
    parseAckFrame bytes pos frameType
  else if isStreamFrameType frameType then parseStreamFrame bytes pos frameType
  else if frameType = QuicFrameType.maxData then parseMaxDataFrame bytes pos
  else if frameType = QuicFrameType.maxStreamData then parseMaxStreamDataFrame bytes pos
  else if frameType = QuicFrameType.newConnectionId then parseNewConnectionIdFrame bytes pos
  else if frameType = QuicFrameType.connectionCloseTransport ∨
      frameType = QuicFrameType.connectionCloseApplication then
    parseConnectionCloseFrame bytes pos frameType
  else if frameType = QuicFrameType.handshakeDone then return ⟨.handshakeDone, pos, pos + 1⟩
  else throwRange ("unsupported QUIC frame type 0x" ++ hexText frameType)

/-- The loop of `parseQuicFrames`. Every frame takes a byte, so as many rounds as there are bytes are enough. -/
def parseFramesFrom (bytes : Bytes) : ℕ → ℕ → Outcome QuicFramesParseResult
  | 0, pos => .ok ⟨[], pos⟩
  | rounds + 1, pos =>
    if pos < bytes.length then do
      let frame ← parseQuicFrame bytes pos
      let result ← parseFramesFrom bytes rounds frame.endOffset
      return ⟨frame :: result.frames, result.endOffset⟩
    else .ok ⟨[], pos⟩

/-- The smallest and the largest packet number of every range below `smallest`, which the fields of a frame could
take below zero. -/
def ackRangesFrom (smallest : ℤ) : List QuicAckRange → List (ℤ × ℤ)
  | [] => []
  | range :: ranges =>
    (smallest - range.gap - 2 - range.length, smallest - range.gap - 2) ::
      ackRangesFrom (smallest - range.gap - 2 - range.length) ranges

def QuicAckFrame.packetRanges (frame : QuicAckFrame) : List (ℤ × ℤ) :=
  (frame.largestAcknowledged - frame.firstAckRange, frame.largestAcknowledged) ::
    ackRangesFrom (frame.largestAcknowledged - frame.firstAckRange) frame.ranges

structure Descends (ranges : List (ℤ × ℤ)) : Prop where
  nonneg : ∀ r ∈ ranges, 0 ≤ r.1 ∧ r.1 ≤ r.2
  apart : ranges.Pairwise fun above below => below.2 + 2 ≤ above.1

def QuicFrameBody.ack? : QuicFrameBody → Option QuicAckFrame
  | .ack frame | .ackEcn frame _ => some frame
  | _ => none

/-- What holds of every frame that is read at `pos`. -/
structure QuicFrame.ReadAt (frame : QuicFrame) (bytes : Bytes) (pos : ℕ) : Prop where
  offset : frame.offset = pos
  nonempty : pos < frame.endOffset
  within : frame.endOffset ≤ bytes.length
  descends : ∀ ack ∈ frame.body.ack?, Descends ack.packetRanges

variable {bytes : Bytes} {frame : QuicFrame} {offset frameType pos : ℕ}

lemma readAt_of_lt {body : QuicFrameBody} {last : ℕ} (hb : body.ack? = none) (h : pos < last)
    (hl : last ≤ bytes.length) : QuicFrame.ReadAt ⟨body, pos, last⟩ bytes pos :=
 ⟨rfl,h,hl,by simp [hb]⟩

lemma Descends.cons {r : ℤ × ℤ} {ranges : List (ℤ × ℤ)} (hr : 0 ≤ r.1 ∧ r.1 ≤ r.2)
    (h : Descends ranges) (hb : ∀ below ∈ ranges, below.2 + 2 ≤ r.1) : Descends (r :: ranges) :=
 ⟨forall_mem_cons.mpr ⟨hr,h.nonneg⟩,pairwise_cons.mpr ⟨hb,h.apart⟩⟩

lemma parseAckRanges_spec {count smallest : ℕ} {result : List QuicAckRange × ℕ}
    (h : parseAckRanges bytes count pos smallest = .ok result) :
    pos ≤ result.2 ∧ (pos ≤ bytes.length → result.2 ≤ bytes.length) ∧ Descends (ackRangesFrom smallest result.1) ∧
      ∀ r ∈ ackRangesFrom smallest result.1, r.2 + 2 ≤ smallest := by
 induction count generalizing pos smallest result with
 | zero =>
  cases h
  exact ⟨le_refl _,id,⟨forall_mem_nil _,.nil⟩,forall_mem_nil _⟩
 | succ count ih =>
  simp only [parseAckRanges,validateAckRange,bind_eq_ok,throwIf_eq_ok,pure_eq_ok] at h
  obtain ⟨gap,_,length,hre,after,⟨_,hg,_,hl,rfl⟩,tail,ht,rfl⟩:=h
  obtain ⟨hle,hw,hd,hb⟩:=ih ht
  have ha : ((smallest - gap.value - 2 - length.value : ℕ) : ℤ) = smallest - gap.value - 2 - length.value := by omega
  rw [ha] at hd hb
  refine ⟨by dsimp only; omega,fun _=>hw (decodeVarInt_within hre),
   .cons (by dsimp only; omega) hd hb,forall_mem_cons.mpr ⟨?_,?_⟩⟩
  · omega
  · intro r hr
    have hr:=hb r hr
    omega

lemma parseAckFrame_readAt (h : parseAckFrame bytes offset frameType = .ok frame) : frame.ReadAt bytes offset := by
 simp only [parseAckFrame,bind_eq_ok,throwIf_eq_ok] at h
 obtain ⟨largest,_,_,_,_,_,first,hre,_,hf,ranges,hr,h⟩:=h
 obtain ⟨hle,hw,hd,hb⟩:=parseAckRanges_spec hr
 have he:=hw (decodeVarInt_within hre)
 have hs : ((largest.value - first.value : ℕ) : ℤ) = largest.value - first.value := by omega
 rw [hs] at hd hb
 have ha : Descends ((↑largest.value - ↑first.value,↑largest.value) ::
   ackRangesFrom (largest.value - first.value) ranges.1) := .cons (by dsimp only; omega) hd hb
 split_ifs at h
 · cases h
   exact ⟨rfl,by dsimp only; omega,he,fun _ h=>by cases h; exact ha⟩
 · simp only [parseAckEcnCounts,bind_eq_ok,pure_eq_ok] at h
   obtain ⟨_,⟨_,_,_,_,_,hl,rfl⟩,rfl⟩:=h
   exact ⟨rfl,by dsimp only; omega,decodeVarIntNumber_within hl,fun _ h=>by cases h; exact ha⟩

variable {b data rest : Bytes} {fin flag : Bool} {result : QuicFramesParseResult} {rounds : ℕ}

lemma decodeFlagged_pos {result : Option ℕ × ℕ} (h : decodeFlagged flag bytes pos = .ok result) : pos ≤ result.2 := by
 rw [decodeFlagged] at h
 split at h
 · simp only [bind_eq_ok,pure_eq_ok] at h
   obtain ⟨_,_,rfl⟩:=h
   exact Nat.le_add_right _ _
 · rw [← ok.inj h]

lemma readQuicFrameType_eq_ok (h : readQuicFrameType bytes pos = .ok frameType) :
    ∃ first, bytes[pos]? = some first ∧ (frameType = first.toNat ∨ 0x3f < frameType ∧ 0x3f < first.toNat) := by
 simp only [readQuicFrameType,bind_eq_ok] at h
 obtain ⟨first,hf,h⟩:=h
 have hg : bytes[pos]? = some first := by
  rw [readU8] at hf
  split at hf
  · rename_i hg
    rw [hg,ok.inj hf]
  · cases hf
 refine ⟨first,hg,?_⟩
 split_ifs at h with hb
 · exact .inl (ok.inj h).symm
 · simp only [bind_eq_ok,throwIf_eq_ok,pure_eq_ok] at h
   obtain ⟨decoded,_,_,hl,rfl⟩:=h
   refine .inr ⟨by omega,Nat.lt_of_not_le fun hs=>hb ?_⟩
   have hm : ∀ n ≤ 0x3f, n &&& 0xc0 = 0 := by decide
   exact UInt8.toNat_inj.mp (hm _ hs)

lemma parsePaddingFrame_readAt (h : bytes[pos]? = some 0) : (parsePaddingFrame bytes pos).ReadAt bytes pos := by
 have hp:=(List.getElem?_eq_some_iff.mp h).1
 have hz : ((bytes.drop pos).takeWhile (· = 0)).length ≤ (bytes.drop pos).length := (takeWhile_sublist _).length_le
 rw [length_drop] at hz
 have hd : bytes.drop pos = 0 :: bytes.drop (pos+1) := drop_eq_getElem?_toList_append.trans (by rw [h]; rfl)
 refine readAt_of_lt rfl ?_ (by omega)
 rw [hd]
 simp

namespace QuicFrameType

def oneByte : List ℕ :=
  [padding, ping, ack, ackEcn, crypto, maxData, maxStreamData, newConnectionId, connectionCloseTransport,
    connectionCloseApplication, handshakeDone]

end QuicFrameType

lemma parseQuicFrame_spec (h : parseQuicFrame bytes pos = .ok frame) :
    frame.ReadAt bytes pos ∧ ∃ frameType, readQuicFrameType bytes pos = .ok frameType ∧
      (frameType ∈ QuicFrameType.oneByte ∨ isStreamFrameType frameType = true) := by
 simp only [parseQuicFrame,bind_eq_ok,ite_eq_iff,pure_eq_ok] at h
 obtain ⟨frameType,ht,h⟩:=h
 suffices hs : frame.ReadAt bytes pos ∧ (frameType ∈ QuicFrameType.oneByte ∨ isStreamFrameType frameType = true) from
  ⟨hs.1,frameType,ht,hs.2⟩
 obtain ⟨first,hf,hv⟩:=readQuicFrameType_eq_ok ht
 have hp:=(List.getElem?_eq_some_iff.mp hf).1
 obtain ⟨rfl,rfl⟩|⟨_,⟨rfl,rfl⟩|⟨_,⟨rfl,h⟩|⟨_,⟨ha,h⟩|⟨_,⟨hst,h⟩|⟨_,⟨rfl,h⟩|⟨_,⟨rfl,h⟩ |
  ⟨_,⟨rfl,h⟩ | ⟨_,⟨hc,h⟩ | ⟨_,⟨rfl,rfl⟩ | ⟨_,h⟩⟩⟩⟩⟩⟩⟩⟩⟩⟩ := h
 · rcases hv with hz|⟨hla,_⟩
   · obtain rfl : first = 0:=UInt8.toNat_inj.mp hz.symm
     exact ⟨parsePaddingFrame_readAt hf,.inl (by decide)⟩
   · exact absurd hla (by decide)
 · exact ⟨readAt_of_lt rfl (by omega) hp,.inl (by decide)⟩
 · simp only [parseCryptoFrame,bind_eq_ok,throwIf_eq_ok,pure_eq_ok] at h
   obtain ⟨_,_,_,_,_,hl,rfl⟩:=h
   exact ⟨readAt_of_lt rfl (by omega) (Nat.not_lt.mp hl),.inl (by decide)⟩
 · refine ⟨parseAckFrame_readAt h,.inl ?_⟩
   rcases ha with rfl|rfl <;> decide
 · simp only [parseStreamFrame,bind_eq_ok,throwIf_eq_ok,pure_eq_ok] at h
   obtain ⟨_,_,_,ho,_,hlh,_,hl,rfl⟩:=h
   have hle:=decodeFlagged_pos ho
   have hl' := decodeFlagged_pos hlh
   exact ⟨readAt_of_lt rfl (by omega) (Nat.not_lt.mp hl),.inr hst⟩
 · simp only [parseMaxDataFrame,bind_eq_ok,pure_eq_ok] at h
   obtain ⟨_,hr,rfl⟩:=h
   exact ⟨readAt_of_lt rfl (by omega) (decodeVarIntNumber_within hr),.inl (by decide)⟩
 · simp only [parseMaxStreamDataFrame,bind_eq_ok,pure_eq_ok] at h
   obtain ⟨_,_,_,hr,rfl⟩:=h
   exact ⟨readAt_of_lt rfl (by omega) (decodeVarIntNumber_within hr),.inl (by decide)⟩
 · simp only [parseNewConnectionIdFrame,bind_eq_ok,throwIf_eq_ok,pure_eq_ok] at h
   obtain ⟨_,_,_,_,_,_,_,_,_,hl,rfl⟩:=h
   exact ⟨readAt_of_lt rfl (by omega) (by omega),.inl (by decide)⟩
 · simp only [parseConnectionCloseFrame,bind_eq_ok,throwIf_eq_ok,pure_eq_ok] at h
   obtain ⟨_,_,_,hfl,_,_,_,hl,rfl⟩:=h
   have hle:=decodeFlagged_pos hfl
   refine ⟨readAt_of_lt rfl (by omega) (Nat.not_lt.mp hl),.inl ?_⟩
   rcases hc with rfl|rfl <;> decide
 · exact ⟨readAt_of_lt rfl (by omega) hp,.inl (by decide)⟩
 · cases h

def parseQuicFrames (bytes : Bytes) (offset : ℕ) : Outcome QuicFramesParseResult := do
  throwIf (offset > bytes.length) "QUIC frame offset out of range"
  parseFramesFrom bytes bytes.length offset

/-- The frames are not empty, every one starts where the one before it ends, and the last ends with the bytes. -/
theorem parsed_frames_tile (h : parseQuicFrames bytes offset = .ok result) :
    result.frames.map (·.offset) ++ [result.endOffset] = offset :: result.frames.map (·.endOffset) ∧
      (∀ frame ∈ result.frames, frame.offset < frame.endOffset) ∧ result.endOffset = bytes.length := by
 suffices hl : ∀ rounds, offset ≤ bytes.length → bytes.length ≤ offset + rounds →
   parseFramesFrom bytes rounds offset = .ok result → _ by
  simp only [parseQuicFrames,bind_eq_ok,throwIf_eq_ok] at h
  obtain ⟨_,ho,h⟩:=h
  exact hl _ (Nat.not_lt.mp ho) (Nat.le_add_left ..) h
 clear h
 intro rounds ho hr h
 induction rounds generalizing offset result with
 | zero =>
  cases h
  exact ⟨rfl,forall_mem_nil _,Nat.le_antisymm ho hr⟩
 | succ rounds ih =>
  rw [parseFramesFrom] at h
  split_ifs at h with hm
  · simp only [bind_eq_ok,pure_eq_ok] at h
    obtain ⟨first,hf,rest,hrest,rfl⟩:=h
    obtain ⟨rfl,hlt,hw,_⟩:=(parseQuicFrame_spec hf).1
    obtain ⟨ht,hn,he⟩:=ih hw (by omega) hrest
    exact ⟨congrArg (first.offset :: ·) ht,forall_mem_cons.mpr ⟨hlt,hn⟩,he⟩
  · cases h
    exact ⟨rfl,forall_mem_nil _,Nat.le_antisymm ho (Nat.not_lt.mp hm)⟩

theorem two_frames_tile : ∃ result, parseQuicFrames [0x01, 0x0a, 0x04, 0x01, 0x61, 0x01] 1 = .ok result ∧
    result.frames.map (·.offset) ++ [result.endOffset] = 1 :: result.frames.map (·.endOffset) ∧
    (∀ frame ∈ result.frames, frame.offset < frame.endOffset) ∧ result.endOffset = 6 :=
 exists_ok_and (P := (·.frames.length = 2)) (by decide) fun _ h _=>parsed_frames_tile h

lemma mem_parseFramesFrom (h : parseFramesFrom bytes rounds pos = .ok result) (hf : frame ∈ result.frames) :
    parseQuicFrame bytes frame.offset = .ok frame := by
 induction rounds generalizing pos result with
 | zero =>
  cases h
  cases hf
 | succ rounds ih =>
  rw [parseFramesFrom] at h
  split_ifs at h
  · simp only [bind_eq_ok,pure_eq_ok] at h
    obtain ⟨first,hfi,rest,hrest,rfl⟩:=h
    rcases mem_cons.mp hf with rfl|hf
    · rwa [(parseQuicFrame_spec hfi).1.offset]
    · exact ih hrest hf
  · cases h
    cases hf

lemma parseQuicFrames_single (hf : parseQuicFrame bytes 0 = .ok frame)
    (he : frame.endOffset = bytes.length) : parseQuicFrames bytes 0 = .ok ⟨[frame], bytes.length⟩ := by
 have hlt:=(parseQuicFrame_spec hf).1.nonempty
 rw [he] at hlt
 obtain ⟨rounds,hr⟩ : ∃ rounds, bytes.length = rounds+1:=⟨bytes.length - 1,by omega⟩
 have hrest : ∀ rounds, parseFramesFrom bytes rounds bytes.length = .ok ⟨[],bytes.length⟩ := by
  intro rounds
  cases rounds with
  | zero => rfl
  | succ rounds => rw [parseFramesFrom,if_neg (lt_irrefl _)]
 rw [parseQuicFrames,throwIf_neg (by omega),ok_bind]
 conv_lhs => rw [hr]
 rw [parseFramesFrom,if_pos hlt,hf,ok_bind,he,hrest]
 rfl

lemma readQuicFrameType_of_drop {first : UInt8} (h : bytes.drop pos = first :: rest) (hf : first &&& 0xc0 = 0) :
    readQuicFrameType bytes pos = .ok first.toNat := by
 rw [readQuicFrameType,readU8_of_drop h,ok_bind,if_pos hf]
 rfl

lemma decodeFlagged_of_drop {n : ℕ} (hn : n ≤ maxSafeInteger)
    (hb : encodeFlagged flag n = .ok b) (h : bytes.drop pos = b ++ rest) :
    decodeFlagged flag bytes pos = .ok (if flag then some n else none, pos + b.length) := by
 cases flag with
 | true =>
  rw [decodeFlagged,decodeVarIntNumber_of_drop hb hn h]
  rfl
 | false =>
  rw [← ok.inj hb]
  rfl

lemma streamFrameType_spec (hasOffset fin : Bool) :
    (UInt8.ofNat (streamFrameType hasOffset fin)).toNat = streamFrameType hasOffset fin ∧
      UInt8.ofNat (streamFrameType hasOffset fin) &&& 0xc0 = 0 ∧
      decide (streamFrameType hasOffset fin &&& 0x04 ≠ 0) = hasOffset ∧
      decide (streamFrameType hasOffset fin &&& 0x02 ≠ 0) = true ∧
      decide (streamFrameType hasOffset fin &&& 0x01 ≠ 0) = fin := by
 revert hasOffset fin
 decide

lemma parseQuicFrame_of_stream {hasOffset : Bool}
    (h : bytes.drop pos = UInt8.ofNat (streamFrameType hasOffset fin) :: rest) :
    parseQuicFrame bytes pos = parseStreamFrame bytes pos (streamFrameType hasOffset fin) := by
 obtain ⟨ht,hb,_⟩:=streamFrameType_spec hasOffset fin
 rw [parseQuicFrame,readQuicFrameType_of_drop h hb]
 revert hasOffset fin
 intro hasOffset fin _ _ _ _
 cases hasOffset <;> cases fin <;> rfl

lemma parseQuicFrame_encodeQuicStreamFrame {frame : QuicStreamFrame}
    (hb : encodeQuicStreamFrame frame.streamId frame.streamOffset frame.data frame.fin = .ok b)
    (hid : frame.streamId ≤ maxSafeInteger) (hof : frame.streamOffset ≤ maxSafeInteger)
    (hle : frame.data.length ≤ maxSafeInteger) (h : bytes.drop pos = b ++ rest) :
    parseQuicFrame bytes pos = .ok ⟨.stream frame, pos, pos + b.length⟩ := by
 simp only [encodeQuicStreamFrame,bind_eq_ok,pure_eq_ok] at hb
 obtain ⟨id,hi,offset,ho,length,hl,rfl⟩:=hb
 generalize hha : decide (frame.streamOffset ≠ 0) = hasOffset at ho h ⊢
 obtain ⟨_,_,h4,h2,h1⟩:=streamFrameType_spec hasOffset frame.fin
 have hh : bytes.drop pos = [UInt8.ofNat (streamFrameType hasOffset frame.fin)] ++
   (id ++ (offset ++ (length ++ (frame.data ++ rest)))) := by
  rw [h]
  simp
 have hi' := drop_add_of_drop (n := 1) hh rfl
 have ho' := drop_add_of_drop hi' rfl
 have hl' := drop_add_of_drop ho' rfl
 have hdata:=drop_add_of_drop hl' rfl
 have ha : bytes.drop (pos+1) = (id ++ (offset ++ (length ++ frame.data))) ++ rest := by
  rw [hi']
  simp
 have hlen:=length_of_drop ha (by simp [encodeVarInt_ne_nil hi])
 have hs : (if hasOffset = true then some frame.streamOffset else none).getD 0 = frame.streamOffset := by
  cases hasOffset with
  | true => rfl
  | false => exact (by simpa using hha : frame.streamOffset = 0).symm
 have hf : encodeFlagged true frame.data.length = .ok length := hl
 simp only [length_append] at hlen
 rw [parseQuicFrame_of_stream hh,parseStreamFrame,h4,h2,h1,
  decodeVarIntNumber_of_drop hi hid hi',ok_bind,decodeFlagged_of_drop hof ho ho',ok_bind]
 dsimp only
 rw [decodeFlagged_of_drop hle hf hl',if_pos rfl,ok_bind]
 dsimp only [Option.getD_some]
 rw [throwIf_neg (by omega),subarray_of_drop hdata rfl,hs]
 refine congrArg (fun n=>ok (QuicFrame.mk (.stream frame) pos n)) ?_
 simp only [length_cons,length_append]
 omega

def streamFrameLength (streamId streamOffset length : ℕ) : ℕ :=
  1 + varIntLength streamId + (if streamOffset = 0 then 0 else varIntLength streamOffset) + varIntLength length + length

lemma encodeQuicStreamFrame_length {id : ℕ} (hb : encodeQuicStreamFrame id offset data fin = .ok b) :
    b.length = streamFrameLength id offset data.length := by
 simp only [encodeQuicStreamFrame,bind_eq_ok,pure_eq_ok] at hb
 obtain ⟨idb,hi,offsetb,ho,lengthb,hl,rfl⟩:=hb
 have hof : offsetb.length = if offset = 0 then 0 else varIntLength offset := by
  by_cases hz : offset = 0
  · rw [hz] at ho ⊢
    rw [← ok.inj ho]
    rfl
  · rw [encodeFlagged,if_pos (by simpa using hz)] at ho
    rw [encodeVarInt_length ho,if_neg hz]
 simp only [length_cons,length_append,encodeVarInt_length hi,encodeVarInt_length hl,hof,streamFrameLength]
 omega

lemma streamFrameLength_ge (sid streamOffset length : ℕ) : 3 ≤ streamFrameLength sid streamOffset length := by
 have hid:=varIntLength_pos sid
 have hl:=varIntLength_pos length
 unfold streamFrameLength
 omega

lemma encodeQuicStreamFrame_of_le {sid streamOffset : ℕ} (fin : Bool)
    (hid : sid ≤ maxSafeInteger) (he : streamOffset + data.length ≤ maxSafeInteger) :
    ∃ b, encodeQuicStreamFrame sid streamOffset data fin = .ok b := by
 have hmax : maxSafeInteger ≤ maxQuicVarint := by decide
 obtain ⟨id,hi,_⟩:=encodeVarInt_of_le (show sid ≤ maxQuicVarint by omega)
 obtain ⟨offset,ho,_⟩:=encodeVarInt_of_le (show streamOffset ≤ maxQuicVarint by omega)
 obtain ⟨length,hl,_⟩:=encodeVarInt_of_le (show data.length ≤ maxQuicVarint by omega)
 obtain ⟨flagged,hf⟩ : ∃ b, encodeFlagged (decide (streamOffset ≠ 0)) streamOffset = .ok b:=by
  rw [encodeFlagged]
  split
  · exact ⟨offset,ho⟩
  · exact ⟨[],rfl⟩
 rw [encodeQuicStreamFrame,hi,hf,hl]
 exact ⟨_,rfl⟩

end Enlace.Quic
