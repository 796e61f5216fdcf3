import Enlace.Lib.Sparse
import Enlace.Quic.Frame
import Enlace.Lib.Throwing

set_option autoImplicit false

/-! `streams.ts`: the bytes received on each stream and the credit for sending. -/
namespace Enlace.Quic
open ByteString Fallible Function Sparse
open Throwing (lift)

inductive QuicEndpointRole where
  | client
  | server
  deriving DecidableEq

structure QuicTransportParameters where
  initialMaxData : ℕ
  initialMaxStreamDataBidiLocal : ℕ
  initialMaxStreamDataBidiRemote : ℕ
  initialMaxStreamDataUni : ℕ
  deriving DecidableEq

def quicTransportParameterToSaturatingSafeNumber (value : ℕ) : ℕ :=
  if value > maxSafeInteger then maxSafeInteger else value

def validateStreamId (streamId : ℕ) : Outcome Unit :=
  throwIf (streamId > maxSafeInteger) "QUIC stream id out of range"

def validateStreamOffset (streamOffset : ℕ) : Outcome Unit :=
  throwIf (streamOffset > maxSafeInteger) "QUIC stream offset out of range"

def checkedStreamEndOffset (streamOffset length : ℕ) : Outcome ℕ := do
  validateStreamOffset streamOffset
  throwIf (length > maxSafeInteger) "QUIC STREAM length out of range"
  throwIf (streamOffset + length > maxSafeInteger) "QUIC STREAM final size out of range"
  return streamOffset + length

lemma checkedStreamEndOffset_eq_ok {streamOffset length endOffset : ℕ} :
    checkedStreamEndOffset streamOffset length = .ok endOffset ↔
      streamOffset + length = endOffset ∧ endOffset ≤ maxSafeInteger := by
 simp only [checkedStreamEndOffset,validateStreamOffset,bind_eq_ok,throwIf_eq_ok,pure_eq_ok]
 constructor
 · rintro ⟨_,_,_,_,_,hle,heq⟩
   omega
 · rintro ⟨heq,hle⟩
   exact ⟨(),by omega,(),by omega,(),by omega,heq⟩

structure QuicStreamReceiveOutput where
  streamId : ℕ
  streamOffset : ℕ
  data : Bytes
  fin : Bool
  finalSize : Option ℕ
  complete : Bool
  deriving DecidableEq

structure QuicStreamReceiveBuffer where
  bytes : Sparse UInt8
  readOffset : ℕ
  finalSize : Option ℕ
  finEmitted : Bool
  deriving DecidableEq

variable {buffer : QuicStreamReceiveBuffer}

variable {after : QuicStreamReceiveBuffer} {data : Bytes} {fin : Bool} {finalSize : Option ℕ}
  {output : Option QuicStreamReceiveOutput}

namespace QuicStreamReceiveBuffer

def empty : QuicStreamReceiveBuffer := ⟨∅, 0, none, false⟩

def complete (buffer : QuicStreamReceiveBuffer) : Bool := buffer.finalSize = some buffer.readOffset

def contiguousOutput (streamId : ℕ) (buffer : QuicStreamReceiveBuffer) :
    Option QuicStreamReceiveOutput × QuicStreamReceiveBuffer :=
  let data := buffer.bytes.contiguous buffer.bytes.keys.card buffer.readOffset
  let read := { buffer with readOffset := buffer.readOffset + data.length }
  let fin := read.complete && !buffer.finEmitted
  (if data.length = 0 ∧ fin = false then none
    else some ⟨streamId, buffer.readOffset, data, fin, read.finalSize, read.complete⟩,
    { read with finEmitted := buffer.finEmitted || fin })

def nextFinalSize (buffer : QuicStreamReceiveBuffer) (frame : QuicStreamFrame) (endOffset : ℕ) : Option ℕ :=
  if frame.fin then some endOffset else buffer.finalSize

/-- The checks that the source makes before it changes the buffer; they give the final size after the
frame. -/
def check (buffer : QuicStreamReceiveBuffer) (frame : QuicStreamFrame) : Outcome (Option ℕ) := do
  validateStreamOffset frame.streamOffset
  let endOffset ← checkedStreamEndOffset frame.streamOffset frame.data.length
  let nextFinalSize := buffer.nextFinalSize frame endOffset
  throwIf (frame.fin = true ∧ ∃ size ∈ buffer.finalSize, size ≠ endOffset) "conflicting QUIC STREAM final size"
  throwIf (∃ size ∈ nextFinalSize, endOffset > size) "QUIC STREAM data exceeds final size"
  throwIf (buffer.bytes.agrees frame.streamOffset frame.data = false) "conflicting QUIC STREAM data"
  return nextFinalSize

def store (buffer : QuicStreamReceiveBuffer) (frame : QuicStreamFrame) (finalSize : Option ℕ) :
    QuicStreamReceiveBuffer :=
  { buffer with bytes := buffer.bytes.write frame.streamOffset frame.data, finalSize := finalSize }

def receive (buffer : QuicStreamReceiveBuffer) (frame : QuicStreamFrame) :
    Outcome (Option QuicStreamReceiveOutput × QuicStreamReceiveBuffer) := do
  let finalSize ← buffer.check frame
  return contiguousOutput frame.streamId (buffer.store frame finalSize)

/-- All bytes below the read offset have arrived and the next one has not; the end was reported just when it was
reached. -/
structure Valid (buffer : QuicStreamReceiveBuffer) : Prop where
  filled : ∀ offset < buffer.readOffset, offset ∈ buffer.bytes
  gap : buffer.bytes.lookup buffer.readOffset = none
  emitted : buffer.finEmitted = buffer.complete

lemma valid_empty : empty.Valid := ⟨fun _ h=>absurd h (Nat.not_lt_zero _),rfl,rfl⟩

variable {frame : QuicStreamFrame}

lemma check_eq_ok (h : buffer.check frame = .ok finalSize) :
    (frame.fin = true → finalSize = some (frame.streamOffset + frame.data.length) ∧
        ∀ size ∈ buffer.finalSize, size = frame.streamOffset + frame.data.length) ∧
      (frame.fin = false → finalSize = buffer.finalSize) ∧
      (∀ size ∈ finalSize, frame.streamOffset + frame.data.length ≤ size) ∧
      buffer.bytes.Agrees frame.streamOffset frame.data := by
 simp only [check,bind_eq_ok,throwIf_eq_ok,pure_eq_ok,checkedStreamEndOffset_eq_ok] at h
 obtain ⟨_,_,_,⟨rfl,_⟩,_,hc,_,he,_,ha,rfl⟩:=h
 refine ⟨?_,?_,?_,agrees_iff.mp (by simpa using ha)⟩
 · intro hf
   refine ⟨by rw [nextFinalSize,if_pos hf],?_⟩
   intro size hs
   by_contra hne
   exact hc ⟨hf,size,hs,hne⟩
 · intro hf
   rw [nextFinalSize,hf]
   rfl
 · intro size hs
   by_contra hlt
   exact he ⟨size,hs,by omega⟩

lemma check_finalSize (h : buffer.check frame = .ok finalSize) {size : ℕ} (hs : buffer.finalSize = some size) :
    finalSize = some size := by
 obtain ⟨hfi,hn,_,_⟩:=check_eq_ok h
 cases hf : frame.fin with
 | true =>
  obtain ⟨heq,ha⟩:=hfi hf
  rw [heq,ha size hs]
 | false => rw [hn hf,hs]

lemma contiguousOutput_snd (streamId : ℕ) (buffer : QuicStreamReceiveBuffer) :
    (contiguousOutput streamId buffer).2.bytes = buffer.bytes ∧
      (contiguousOutput streamId buffer).2.finalSize = buffer.finalSize ∧
      (contiguousOutput streamId buffer).2.readOffset = buffer.readOffset +
        (buffer.bytes.contiguous buffer.bytes.keys.card buffer.readOffset).length ∧
      (contiguousOutput streamId buffer).2.finEmitted =
        (buffer.finEmitted || (contiguousOutput streamId buffer).2.complete) := by
 refine ⟨rfl,rfl,rfl,?_⟩
 change (buffer.finEmitted || (_ && !buffer.finEmitted)) = (buffer.finEmitted || _)
 cases buffer.finEmitted with
 | true => rfl
 | false => exact Bool.and_true _

lemma receive_eq_ok (h : buffer.receive frame = .ok (output, after)) :
    ∃ finalSize, buffer.check frame = .ok finalSize ∧
      after.bytes = buffer.bytes.write frame.streamOffset frame.data ∧ after.finalSize = finalSize ∧
      after.readOffset = buffer.readOffset +
        ((buffer.store frame finalSize).bytes.contiguous (buffer.store frame finalSize).bytes.keys.card
          buffer.readOffset).length ∧
      after.finEmitted = (buffer.finEmitted || after.complete) := by
 simp only [receive,bind_eq_ok,pure_eq_ok] at h
 obtain ⟨finalSize,hc,ha⟩:=h
 obtain ⟨hb,hs,hr,he⟩ := contiguousOutput_snd frame.streamId (buffer.store frame finalSize)
 rw [ha] at hb hs hr he
 exact ⟨finalSize,hc,hb,hs,hr,he⟩

lemma Valid.receive (hv : buffer.Valid) (h : buffer.receive frame = .ok (output, after)) : after.Valid := by
 obtain ⟨finalSize,hc,hb,hs,hr,he⟩:=receive_eq_ok h
 refine ⟨?_,?_,?_⟩
 · intro offset ho
   rw [hb]
   by_cases hlt : offset < buffer.readOffset
   · exact mem_write.mpr (Or.inl (hv.filled offset hlt))
   · obtain ⟨i,rfl⟩:=Nat.exists_eq_add_of_le (show buffer.readOffset ≤ offset by omega)
     rw [hr] at ho
     exact mem_of_lt_contiguous (Nat.lt_of_add_lt_add_left ho)
 · rw [hr,hb]
   exact lookup_gap _ _
 · rw [he]
   cases hfi : buffer.finEmitted with
   | false => exact Bool.false_or _
   | true =>
    -- Nothing can be stored at or past a final size that was reached, so the read offset stays.
    have hf : buffer.finalSize = some buffer.readOffset := of_decide_eq_true (hv.emitted.symm.trans hfi)
    have hk:=check_finalSize hc hf
    have hen:=(check_eq_ok hc).2.2.1 buffer.readOffset hk
    have hg : (buffer.store frame finalSize).bytes.lookup buffer.readOffset = none := by
     rw [store,lookup_write_of_le hen,hv.gap]
    have hst : after.readOffset = buffer.readOffset := by
     rw [hr]
     rw [contiguous_of_gap hg]
     rfl
    have hco : after.complete = true := by
     rw [complete,hs,hst]
     exact decide_eq_true hk
    rw [hco,Bool.or_true]

end QuicStreamReceiveBuffer

structure QuicStreamReceiveState where
  streams : ℕ → QuicStreamReceiveBuffer
  valid : ∀ streamId, (streams streamId).Valid

variable {streamId : ℕ}

namespace QuicStreamReceiveState

def empty : QuicStreamReceiveState := ⟨fun _ => .empty, fun _ => QuicStreamReceiveBuffer.valid_empty⟩

lemma valid_update (state : QuicStreamReceiveState)
    (h : buffer.Valid) (other : ℕ) : (update state.streams streamId buffer other).Valid :=
 (forall_update_iff state.streams fun _ buffer=>buffer.Valid).mpr ⟨h,fun other _=>state.valid other⟩ other

def receiveOn (state : QuicStreamReceiveState) (frame : QuicStreamFrame) :
    Outcome (Option QuicStreamReceiveOutput × QuicStreamReceiveState) :=
  match h : (state.streams frame.streamId).receive frame with
  | .error e => .error e
  | .ok (output, buffer) => .ok (output, ⟨Function.update state.streams frame.streamId buffer,
      state.valid_update ((state.valid frame.streamId).receive h)⟩)

lemma receiveOn_of_error {state : QuicStreamReceiveState} {frame : QuicStreamFrame} {e : Thrown}
    (h : (state.streams frame.streamId).receive frame = .error e) : state.receiveOn frame = .error e := by
 unfold receiveOn
 split
 · rename_i heq
   rw [h] at heq
   cases heq
   rfl
 · rename_i heq
   rw [h] at heq
   cases heq

lemma receiveOn_of_ok {state : QuicStreamReceiveState} {frame : QuicStreamFrame}
    {result : Option QuicStreamReceiveOutput × QuicStreamReceiveBuffer}
    (h : (state.streams frame.streamId).receive frame = .ok result) :
    ∃ after, state.receiveOn frame = .ok (result.1, after) ∧
      after.streams = update state.streams frame.streamId result.2 := by
 unfold receiveOn
 split
 · rename_i heq
   rw [h] at heq
   cases heq
 · rename_i heq
   rw [h] at heq
   cases heq
   exact ⟨_,rfl,rfl⟩

def receive (frame : QuicStreamFrame) : EStateM Thrown QuicStreamReceiveState (Option QuicStreamReceiveOutput) := do
  lift (validateStreamId frame.streamId)
  let state ← get
  let (output, after) ← lift (state.receiveOn frame)
  set after
  return output

def receiveFrame (frame : QuicFrame) : EStateM Thrown QuicStreamReceiveState (Option QuicStreamReceiveOutput) :=
  match frame.body with
  | .stream streamFrame => receive streamFrame
  | _ => return none

def receiveFrames : List QuicFrame → EStateM Thrown QuicStreamReceiveState (List QuicStreamReceiveOutput)
  | [] => return []
  | frame :: frames => do
    let output ← receiveFrame frame
    let outputs ← receiveFrames frames
    return output.toList ++ outputs

end QuicStreamReceiveState

structure QuicStreamSendResult where
  streamId : ℕ
  streamOffset : ℕ
  data : Bytes
  fin : Bool
  frameBytes : Bytes
  nextStreamOffset : ℕ
  deriving DecidableEq

structure QuicStreamSendCursor where
  offset : ℕ
  finished : Bool
  deriving DecidableEq

def QuicStreamSendCursor.send (cursor : QuicStreamSendCursor) (streamId : ℕ) (data : Bytes) (fin : Bool) :
    Outcome (QuicStreamSendResult × QuicStreamSendCursor) := do
  throwIf (cursor.finished = true) "QUIC stream is already finished"
  let nextOffset ← checkedStreamEndOffset cursor.offset data.length
  let frameBytes ← encodeQuicStreamFrame streamId cursor.offset data fin
  return (⟨streamId, cursor.offset, data, fin, frameBytes, nextOffset⟩, ⟨nextOffset, cursor.finished || fin⟩)

def validateStreamLimit (value : ℕ) (name : String) : Outcome ℕ := do
  throwIf (value > maxSafeInteger) (name ++ " limit out of range")
  return value

def validateOptionalStreamLimit (value : Option ℕ) (name : String) : Outcome (Option ℕ) :=
  match value with
  | none => .ok none
  | some value => some <$> validateStreamLimit value name

def maxLimit (current : Option ℕ) (next : ℕ) (name : String) : Outcome ℕ := do
  let validated ← validateStreamLimit next name
  match current with
  | none => return validated
  | some current => return if validated > current then validated else current

lemma maxLimit_of_le {next : ℕ} (h : next ≤ maxSafeInteger) (current : Option ℕ) (name : String) :
    maxLimit current next name = .ok (max (current.getD 0) next) := by
 rw [maxLimit,validateStreamLimit,throwIf_neg (by omega)]
 cases current with
 | none => simp [pure,Except.pure,Except.bind,bind]
 | some current =>
  refine congrArg Except.ok ?_
  dsimp only [Option.getD_some]
  split_ifs <;> omega

def isLocalInitiatedStream (streamId : ℕ) (localRole : QuicEndpointRole) : Bool :=
  match localRole with
  | .client => streamId &&& 0x01 = 0
  | .server => streamId &&& 0x01 = 1

def initialStreamLimitForSend (streamId : ℕ) (localRole : QuicEndpointRole)
    (bidiLocal bidiRemote uni : Option ℕ) : Outcome (Option ℕ) :=
  if streamId &&& 0x02 = 0x02 then
    if isLocalInitiatedStream streamId localRole then .ok uni
    else throwRange "QUIC cannot send on peer-initiated unidirectional stream"
  else .ok (if isLocalInitiatedStream streamId localRole then bidiRemote else bidiLocal)

structure QuicStreamSendState where
  streams : ℕ → QuicStreamSendCursor
  streamLimits : ℕ → Option ℕ
  maxData : Option ℕ
  sentData : ℕ
  localRole : Option QuicEndpointRole
  initialMaxStreamDataBidiLocal : Option ℕ
  initialMaxStreamDataBidiRemote : Option ℕ
  initialMaxStreamDataUni : Option ℕ

structure QuicStreamSendStateOptions where
  maxData : Option ℕ
  peerTransportParameters : Option QuicTransportParameters
  localRole : Option QuicEndpointRole

namespace QuicStreamSendState

def applyPeerTransportParameters (state : QuicStreamSendState) (params : QuicTransportParameters)
    (localRole : QuicEndpointRole) : Outcome QuicStreamSendState := do
  let maxData ← maxLimit state.maxData
    (quicTransportParameterToSaturatingSafeNumber params.initialMaxData) "QUIC MAX_DATA"
  return { state with
    localRole := some localRole
    maxData := some maxData
    initialMaxStreamDataBidiLocal :=
      some (quicTransportParameterToSaturatingSafeNumber params.initialMaxStreamDataBidiLocal)
    initialMaxStreamDataBidiRemote :=
      some (quicTransportParameterToSaturatingSafeNumber params.initialMaxStreamDataBidiRemote)
    initialMaxStreamDataUni := some (quicTransportParameterToSaturatingSafeNumber params.initialMaxStreamDataUni) }

def create (options : QuicStreamSendStateOptions) : Outcome QuicStreamSendState := do
  let maxData ← validateOptionalStreamLimit options.maxData "QUIC MAX_DATA"
  let state : QuicStreamSendState := ⟨fun _ => ⟨0, false⟩, fun _ => none, maxData, 0, none, none, none, none⟩
  match options.peerTransportParameters with
  | none => return state
  | some params => state.applyPeerTransportParameters params (options.localRole.getD .client)

def maxStreamDataForSend (state : QuicStreamSendState) (streamId : ℕ) : Outcome (Option ℕ) :=
  match state.streamLimits streamId with
  | some limit => .ok (some limit)
  | none =>
    match state.localRole with
    | none => .ok none
    | some localRole =>
      initialStreamLimitForSend streamId localRole state.initialMaxStreamDataBidiLocal
        state.initialMaxStreamDataBidiRemote state.initialMaxStreamDataUni

lemma maxStreamDataForSend_update_self (state : QuicStreamSendState) (streamId limit : ℕ) :
    maxStreamDataForSend { state with streamLimits := update state.streamLimits streamId (some limit) }
      streamId = .ok (some limit) := by
 rw [maxStreamDataForSend]
 dsimp only
 rw [update_self]

lemma maxStreamDataForSend_update_of_ne (state : QuicStreamSendState) {other : ℕ} (limit : ℕ) (h : other ≠ streamId) :
    maxStreamDataForSend { state with streamLimits := update state.streamLimits streamId (some limit) }
      other = state.maxStreamDataForSend other := by
 rw [maxStreamDataForSend,maxStreamDataForSend]
 dsimp only
 rw [update_of_ne h]

def validateCredit (state : QuicStreamSendState) (streamId length : ℕ) : Outcome Unit := do
  let nextStreamOffset ← checkedStreamEndOffset (state.streams streamId).offset length
  let maxStreamData ← state.maxStreamDataForSend streamId
  throwIf (∃ limit ∈ maxStreamData, nextStreamOffset > limit) "QUIC STREAM data exceeds MAX_STREAM_DATA"
  let nextSentData ← checkedStreamEndOffset state.sentData length
  throwIf (∃ limit ∈ state.maxData, nextSentData > limit) "QUIC STREAM data exceeds MAX_DATA"

def send (state : QuicStreamSendState) (streamId : ℕ) (data : Bytes) (fin : Bool) :
    Outcome (QuicStreamSendResult × QuicStreamSendState) := do
  validateStreamId streamId
  throwIf (data.length = 0 ∧ fin = false) "QUIC STREAM frame requires data or FIN"
  state.validateCredit streamId data.length
  let (result, cursor) ← (state.streams streamId).send streamId data fin
  return (result, { state with
    streams := Function.update state.streams streamId cursor
    sentData := state.sentData + data.length })

def applyMaxData (state : QuicStreamSendState) (maximumData : ℕ) : Outcome QuicStreamSendState := do
  let maxData ← maxLimit state.maxData maximumData "QUIC MAX_DATA"
  return { state with maxData := some maxData }

def applyMaxStreamData (state : QuicStreamSendState) (streamId maximumStreamData : ℕ) :
    Outcome QuicStreamSendState := do
  validateStreamId streamId
  let current ← state.maxStreamDataForSend streamId
  let limit ← maxLimit current maximumStreamData "QUIC MAX_STREAM_DATA"
  return { state with streamLimits := Function.update state.streamLimits streamId (some limit) }

def applyFlowControlFrame (frame : QuicFrame) : EStateM Thrown QuicStreamSendState Unit :=
  match frame.body with
  | .maxData maximumData => do
    let state ← get
    let raised ← lift (state.applyMaxData maximumData)
    set raised
  | .maxStreamData streamId maximumStreamData => do
    let state ← get
    let raised ← lift (state.applyMaxStreamData streamId maximumStreamData)
    set raised
  | _ => return

def applyFlowControlFrames : List QuicFrame → EStateM Thrown QuicStreamSendState Unit
  | [] => return
  | frame :: frames => do
    applyFlowControlFrame frame
    applyFlowControlFrames frames

lemma send_eq_ok {state after : QuicStreamSendState} {result : QuicStreamSendResult}
    (h : state.send streamId data fin = .ok (result, after)) :
    ∃ fb, encodeQuicStreamFrame streamId (state.streams streamId).offset data fin = .ok fb ∧
      result = ⟨streamId, (state.streams streamId).offset, data, fin, fb,
        (state.streams streamId).offset + data.length⟩ ∧
      after = { state with
        streams := update state.streams streamId
          ⟨(state.streams streamId).offset + data.length, (state.streams streamId).finished || fin⟩
        sentData := state.sentData + data.length } := by
 simp only [send,QuicStreamSendCursor.send,bind_eq_ok,pure_eq_ok,throwIf_eq_ok, checkedStreamEndOffset_eq_ok] at h
 obtain ⟨_,_,_,_,_,_,_,⟨_,_,_,⟨rfl,_⟩,fb,hf,rfl⟩,h⟩:=h
 cases h
 exact ⟨fb,hf,rfl,rfl⟩

lemma send_inRange {state after : QuicStreamSendState} {result : QuicStreamSendResult}
    (h : state.send streamId data fin = .ok (result, after)) :
    streamId ≤ maxSafeInteger ∧ (state.streams streamId).offset + data.length ≤ maxSafeInteger := by
 simp only [send,validateStreamId,validateCredit,bind_eq_ok,throwIf_eq_ok,checkedStreamEndOffset_eq_ok] at h
 obtain ⟨_,hid,_,_,_,⟨_,⟨rfl,he⟩,_⟩,_⟩:=h
 exact ⟨Nat.not_lt.mp hid,he⟩

lemma send_of_credit {state : QuicStreamSendState}
    (hid : streamId ≤ maxSafeInteger) (hdata : ¬ (data.length = 0 ∧ fin = false))
    (hc : state.validateCredit streamId data.length = .ok ())
    (hopen : (state.streams streamId).finished = false) : ∃ sent, state.send streamId data fin = .ok sent := by
 have he : (state.streams streamId).offset+data.length ≤ maxSafeInteger := by
  simp only [validateCredit,bind_eq_ok,checkedStreamEndOffset_eq_ok] at hc
  obtain ⟨_,⟨rfl,he⟩,_⟩:=hc
  exact he
 obtain ⟨fb,hf⟩:=encodeQuicStreamFrame_of_le fin hid he
 have hch : checkedStreamEndOffset (state.streams streamId).offset data.length = .ok _ :=
  checkedStreamEndOffset_eq_ok.mpr ⟨rfl,he⟩
 rw [send,validateStreamId,throwIf_neg (by omega),throwIf_neg hdata,hc,QuicStreamSendCursor.send,
  throwIf_neg (by simp [hopen]),hch,hf]
 exact ⟨_,rfl⟩

end QuicStreamSendState

end Enlace.Quic
