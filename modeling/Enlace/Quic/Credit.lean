import Enlace.Quic.AllOrNothing

set_option autoImplicit false

/-! What the credit for sending depends on. -/
namespace Enlace.Quic
open ByteString Fallible List QuicOneRttState QuicStreamSendState QuicStreamReceiveState
open Throwing (outcome zoom bind_error bind_ok zoom_eq_ok)

def OutOfCredit (e : Thrown) : Prop :=
  e = .rangeError "QUIC STREAM data exceeds MAX_STREAM_DATA" ∨ e = .rangeError "QUIC STREAM data exceeds MAX_DATA"

instance (e : Thrown) : Decidable (OutOfCredit e) := inferInstanceAs (Decidable (_ ∨ _))

def LacksCredit {α : Type} (x : Outcome α) : Prop := ∃ e, x = .error e ∧ OutOfCredit e

variable {frames : List QuicFrame} {message : String} {received : QuicOneRttPacketReceiveResult} {α : Type}

@[simp] lemma lacksCredit_ok (a : α) : LacksCredit (.ok a : Outcome α) ↔ False := by
 simp [LacksCredit]

@[simp] lemma lacksCredit_throwRange :
    LacksCredit (throwRange message : Outcome α) ↔ OutOfCredit (.rangeError message) := by
 simp [LacksCredit,throwRange]

@[simp] lemma lacksCredit_throwIf {c : Prop} [Decidable c] :
    LacksCredit (throwIf c message) ↔ c ∧ OutOfCredit (.rangeError message) := by
 by_cases h : c <;> simp [throwIf,h]

@[simp] lemma lacksCredit_error {e : Thrown} : LacksCredit (.error e : Outcome α) ↔ OutOfCredit e := by
 simp [LacksCredit]

lemma lacksCredit_bind {β : Type} {x : Outcome α} {f : α → Outcome β} :
    LacksCredit (x >>= f) ↔ LacksCredit x ∨ ∃ a, x = .ok a ∧ LacksCredit (f a) := by
 cases x with
 | error e => simp [LacksCredit]
 | ok a => simp

lemma not_lacksCredit_checkedStreamEndOffset (streamOffset length : ℕ) :
    ¬ LacksCredit (checkedStreamEndOffset streamOffset length) := by
 simp only [checkedStreamEndOffset,validateStreamOffset,lacksCredit_bind,lacksCredit_throwIf]
 rintro (⟨_,h⟩|⟨_,_,⟨_,h⟩|⟨_,_,⟨_,h⟩|⟨_,_,h⟩⟩⟩)
 · exact absurd h (by decide)
 · exact absurd h (by decide)
 · exact absurd h (by decide)
 · exact (lacksCredit_ok _).mp h

/-- A peer does not send on the unidirectional streams of the other one. -/
def MaySendOn (role : QuicEndpointRole) (streamId : ℕ) : Prop :=
  ¬ (streamId &&& 0x02 = 0x02 ∧ isLocalInitiatedStream streamId role = false)

instance (role : QuicEndpointRole) (streamId : ℕ) : Decidable (MaySendOn role streamId) :=
  inferInstanceAs (Decidable (¬ _))

namespace QuicStreamSendState

/-- No limit was ever raised, and what was sent respects them. -/
structure Granted (role : QuicEndpointRole) (limit : ℕ) (state : QuicStreamSendState) : Prop where
  localRole : state.localRole = some role
  streamLimits : ∀ streamId, state.streamLimits streamId = none
  maxData : state.maxData = some limit
  bidiLocal : state.initialMaxStreamDataBidiLocal = some limit
  bidiRemote : state.initialMaxStreamDataBidiRemote = some limit
  uni : state.initialMaxStreamDataUni = some limit
  offset_le : ∀ streamId, (state.streams streamId).offset ≤ state.sentData
  sentData_le : state.sentData ≤ limit

variable {role : QuicEndpointRole} {limit streamId : ℕ} {data : Bytes} {fin : Bool}
  {state after : QuicStreamSendState}

lemma create_granted (hlimit : limit ≤ maxSafeInteger)
    (h : create ⟨none, some ⟨limit, limit, limit, limit⟩, some role⟩ = .ok state) :
    state.Granted role limit ∧ state.sentData = 0 := by
 have hs : quicTransportParameterToSaturatingSafeNumber limit = limit := if_neg (by omega)
 simp only [create,validateOptionalStreamLimit,applyPeerTransportParameters,maxLimit,validateStreamLimit,
  hs,bind_eq_ok,pure_eq_ok,throwIf_eq_ok] at h
 obtain ⟨_,hn,_,⟨_,⟨_,_,rfl⟩,h⟩,rfl⟩:=h
 cases hn
 cases h
 exact ⟨⟨rfl,fun _=>rfl,rfl,rfl,rfl,rfl,fun _=>le_refl _,Nat.zero_le _⟩,rfl⟩

section
variable (h : state.Granted role limit)
include h

lemma Granted.maxStreamDataForSend (streamId : ℕ) :
    state.maxStreamDataForSend streamId = if MaySendOn role streamId then .ok (some limit)
      else throwRange "QUIC cannot send on peer-initiated unidirectional stream" := by
 rw [QuicStreamSendState.maxStreamDataForSend,h.streamLimits,h.localRole]
 dsimp only
 rw [initialStreamLimitForSend,h.bidiLocal,h.bidiRemote,h.uni]
 unfold MaySendOn
 by_cases hu : streamId &&& 0x02 = 0x02
 · by_cases hl : isLocalInitiatedStream streamId role = true
   · simp [hu,hl]
   · simp [hu,hl]
 · simp [hu]

lemma Granted.lacksCredit_validateCredit_iff (hlimit : 2*limit ≤ maxSafeInteger) (streamId length : ℕ) :
    LacksCredit (state.validateCredit streamId length) ↔
      (state.streams streamId).offset + length ≤ maxSafeInteger ∧ MaySendOn role streamId ∧
        limit < state.sentData + length := by
 have ho:=h.offset_le streamId
 have hse:=h.sentData_le
 have hs : OutOfCredit (.rangeError "QUIC STREAM data exceeds MAX_STREAM_DATA") := .inl rfl
 have ha : OutOfCredit (.rangeError "QUIC STREAM data exceeds MAX_DATA") := .inr rfl
 rw [validateCredit,h.maxStreamDataForSend,h.maxData]
 by_cases hm : MaySendOn role streamId
 · rw [if_pos hm]
   simp only [lacksCredit_bind,not_lacksCredit_checkedStreamEndOffset,checkedStreamEndOffset_eq_ok,ok_bind,
    false_or,hm,lacksCredit_throwIf,throwIf_eq_ok,hs,ha,and_true,true_and,Option.mem_some_iff,
    exists_eq_left']
   constructor
   · rintro ⟨_,⟨rfl,hen⟩,hgt|⟨_,_,_,⟨rfl,_⟩,hgt⟩⟩
     · omega
     · omega
   · rintro ⟨hen,hgt⟩
     refine ⟨_,⟨rfl,hen⟩,?_⟩
     by_cases hl : limit < (state.streams streamId).offset+length
     · exact .inl hl
     · exact .inr ⟨(),hl,_,⟨rfl,by omega⟩,hgt⟩
 · rw [if_neg hm]
   simp only [lacksCredit_bind,not_lacksCredit_checkedStreamEndOffset,throwRange,error_bind,
    false_or,hm,false_and,and_false,iff_false]
   rintro ⟨_,_,_,he,h⟩
   cases he
   exact absurd h (by decide)

lemma Granted.validateCredit_of_le (hlimit : limit ≤ maxSafeInteger) {length : ℕ}
    (hm : MaySendOn role streamId) (hle : state.sentData + length ≤ limit) :
    state.validateCredit streamId length = .ok () := by
 have ho:=h.offset_le streamId
 rw [validateCredit,h.maxStreamDataForSend,h.maxData,if_pos hm,
  checkedStreamEndOffset_eq_ok.mpr ⟨rfl,by omega⟩,ok_bind,ok_bind,
  throwIf_neg (by simp; omega),ok_bind,checkedStreamEndOffset_eq_ok.mpr ⟨rfl,by omega⟩,ok_bind,
  throwIf_neg (by simp; omega)]

end

lemma not_lacksCredit_cursor_send (cursor : QuicStreamSendCursor) (hid : streamId ≤ maxSafeInteger) :
    ¬ LacksCredit (cursor.send streamId data fin) := by
 simp only [QuicStreamSendCursor.send,lacksCredit_bind,lacksCredit_throwIf,not_lacksCredit_checkedStreamEndOffset,
  checkedStreamEndOffset_eq_ok,false_or]
 rintro (⟨_,h⟩|⟨_,_,_,⟨rfl,he⟩,h⟩)
 · exact absurd h (by decide)
 · obtain ⟨frameBytes,hf⟩:=encodeQuicStreamFrame_of_le fin hid he
   rw [hf] at h
   rcases h with h|⟨_,_,h⟩
   · exact (lacksCredit_ok _).mp h
   · exact (lacksCredit_ok _).mp h

lemma Granted.lacksCredit_send_iff (h : state.Granted role limit) (hlimit : 2*limit ≤ maxSafeInteger)
    (streamId : ℕ) (data : Bytes) (fin : Bool) :
    LacksCredit (state.send streamId data fin) ↔ streamId ≤ maxSafeInteger ∧ ¬ (data.length = 0 ∧ fin = false) ∧
        (state.streams streamId).offset + data.length ≤ maxSafeInteger ∧ MaySendOn role streamId ∧
        limit < state.sentData + data.length := by
 simp only [send,validateStreamId,lacksCredit_bind,lacksCredit_throwIf,throwIf_eq_ok,
  h.lacksCredit_validateCredit_iff hlimit]
 constructor
 · rintro (⟨_,he⟩|⟨_,hid,⟨_,he⟩|⟨_,hdata,hc|⟨_,_,hcu|⟨_,_,hok⟩⟩⟩⟩)
   · exact absurd he (by decide)
   · exact absurd he (by decide)
   · exact ⟨by omega,hdata,hc⟩
   · exact absurd hcu (not_lacksCredit_cursor_send _ (by omega))
   · exact absurd hok (lacksCredit_ok _).mp
 · rintro ⟨hid,hdata,hc⟩
   exact .inr ⟨(),by omega,.inr ⟨(),hdata,.inl hc⟩⟩

lemma Granted.send (h : state.Granted role limit) {result : QuicStreamSendResult}
    (hs : state.send streamId data fin = .ok (result, after)) :
    after.Granted role limit ∧ after.sentData = state.sentData + data.length := by
 have hc : state.sentData+data.length ≤ limit := by
  simp only [QuicStreamSendState.send,validateCredit,h.maxData,bind_eq_ok,throwIf_eq_ok,
   checkedStreamEndOffset_eq_ok,Option.mem_some_iff,exists_eq_left'] at hs
  obtain ⟨_,_,_,_,_,⟨_,_,_,_,_,_,_,⟨rfl,_⟩,hle⟩,_⟩:=hs
  omega
 obtain ⟨_,_,_,rfl⟩:=send_eq_ok hs
 refine ⟨{ h with offset_le := ?_,sentData_le := hc },rfl⟩
 intro other
 have ho:=h.offset_le other
 by_cases heq : other = streamId
 · rw [heq] at ho ⊢
   dsimp only
   rw [Function.update_self]
   exact Nat.add_le_add_right ho _
 · dsimp only
   rw [Function.update_of_ne heq]
   omega

end QuicStreamSendState

def raisesCredit (frame : QuicFrame) : Bool :=
  match frame.body with
  | .maxData _ | .maxStreamData _ _ => true
  | _ => false

lemma applyFlowControlFrames_of_silent (h : ∀ frame ∈ frames, raisesCredit frame = false)
    (state : QuicStreamSendState) : applyFlowControlFrames frames state = .ok () state := by
 induction frames with
 | nil => rfl
 | cons frame frames ih =>
  have hf : applyFlowControlFrame frame state = .ok () state := by
   have hsilent:=h frame mem_cons_self
   cases frame with
   | mk body offset endOffset =>
    cases body with
    | maxData maximumData | maxStreamData streamId maximumStreamData => cases hsilent
    | _ => rfl
  rw [applyFlowControlFrames,bind_ok hf]
  exact ih fun other ho=>h other (mem_cons_of_mem _ ho)

variable {C : Ciphers}

namespace QuicConnectionState

lemma receive_of_silent {connection : QuicConnectionState} {packet : Bytes}
    (hd : connection.decode C packet = .ok (received, frames))
    (hsilent : ∀ frame ∈ frames, raisesCredit frame = false) :
    ∃ result tracker, result.frames = frames ∧ result.ackFrame.isSome = frames.any isQuicAckElicitingFrame ∧
      (∀ b ∈ result.ackFrame, tracker.ackFrame 0 = .ok b) ∧
      receive C packet 0 connection = onOneRtt (fun _ => do
        let streamOutputs ← onReceiveState (QuicStreamReceiveState.receiveFrames frames)
        let ackPacket ← connection.acknowledge C result.ackFrame
        return ⟨⟨received, result, streamOutputs⟩, ackPacket, frames.any isConnectionClose⟩)
        { connection with oneRtt := { connection.oneRtt with
          ackTracker := tracker
          largestReceivedPacketNumber := some received.largestReceivedPacketNumber } } := by
 obtain ⟨result,tracker,hf,_,has,ha,hb⟩:=receive_of_decode hd
 refine ⟨result,tracker,hf,has,ha,?_⟩
 rw [receive,onOneRtt,onOneRtt,zoom,zoom]
 cases hs : onReceiveState (QuicStreamReceiveState.receiveFrames frames)
   { connection.oneRtt with
    ackTracker := tracker
    largestReceivedPacketNumber := some received.largestReceivedPacketNumber } with
 | error e after => rw [bind_error (hb.trans (bind_error hs)),bind_error hs]
 | ok outputs after =>
  have hl : onSendState (applyFlowControlFrames result.frames) after = .ok () after := by
   rw [onSendState,zoom_eq_ok]
   exact ⟨_,applyFlowControlFrames_of_silent (hf ▸ hsilent) _,rfl⟩
  rw [bind_ok (hb.trans (bind_ok hs)),bind_ok hs,bind_ok hl, hf]

/-- Nothing that sending depends on has changed, but the packet number. -/
structure SameSending (before after : QuicConnectionState) : Prop where
  role : after.role = before.role
  keys : after.keys = before.keys
  localConnectionId : after.localConnectionId = before.localConnectionId
  peerConnectionId : after.peerConnectionId = before.peerConnectionId
  sendState : after.oneRtt.sendState = before.oneRtt.sendState
  inRange : before.oneRtt.nextPacketNumber ≤ quicMaxPacketNumber → after.oneRtt.nextPacketNumber ≤ quicMaxPacketNumber

lemma SameSending.refl (connection : QuicConnectionState) : SameSending connection connection :=
 ⟨rfl,rfl,rfl,rfl,rfl,id⟩

end QuicConnectionState

def SilentPacket (C : Ciphers) (keys : QuicDirectionalKeys) (id packet : Bytes) : Prop :=
  ∃ n length payload, encryptQuicOneRttPacket C keys id n length payload = .ok packet ∧
    ∀ parsed, parseQuicFrames payload 0 = .ok parsed → ∀ frame ∈ parsed.frames, raisesCredit frame = false

section
variable {keys : QuicDirectionalKeys} {id packet : Bytes} {n length : ℕ}

lemma silentPacket_of_single {payload : Bytes} (h : encryptQuicOneRttPacket C keys id n length payload = .ok packet)
    (hfr : ∀ frame, parseQuicFrame payload 0 = .ok frame →
      frame.endOffset = payload.length ∧ raisesCredit frame = false) : SilentPacket C keys id packet := by
 refine ⟨n,length,payload,h,?_⟩
 intro parsed hp frame hm
 cases hf : parseQuicFrame payload 0 with
 | ok first =>
  obtain ⟨he,hsilent⟩:=hfr first hf
  rw [parseQuicFrames_single hf he] at hp
  cases hp
  rw [mem_singleton.mp hm]
  exact hsilent
 | error e =>
  rw [parseQuicFrames,throwIf_neg (Nat.not_lt_zero _)] at hp
  cases hl : payload.length with
  | zero =>
   rw [hl] at hp
   cases hp
   cases hm
  | succ rounds =>
   rw [hl,parseFramesFrom,if_pos (by omega),hf] at hp
   cases hp

lemma silentPacket_of_ack {numbers : List ℕ} {ackDelay : ℕ} {ackFrame : Bytes}
    (ha : encodeQuicAckFrame numbers ackDelay = .ok ackFrame)
    (h : encryptQuicOneRttPacket C keys id n length ackFrame = .ok packet) : SilentPacket C keys id packet := by
 refine silentPacket_of_single h ?_
 intro frame hf
 obtain ⟨_,_,_,_,_,hp⟩:=parseQuicFrame_encodeQuicAckFrame ha
  (show ackFrame.drop 0 = ackFrame ++ [] by rw [append_nil]; rfl)
 rw [hp] at hf
 split_ifs at hf
 · cases hf
   exact ⟨Nat.zero_add _,rfl⟩
 · cases hf

lemma silentPacket_of_stream (frame : QuicStreamFrame) {frameBytes : Bytes}
    (hs : encodeQuicStreamFrame frame.streamId frame.streamOffset frame.data frame.fin = .ok frameBytes)
    (hid : frame.streamId ≤ maxSafeInteger) (he : frame.streamOffset + frame.data.length ≤ maxSafeInteger)
    (h : encryptQuicOneRttPacket C keys id n length frameBytes = .ok packet) : SilentPacket C keys id packet := by
 refine silentPacket_of_single h ?_
 intro other ho
 rw [parseQuicFrame_encodeQuicStreamFrame hs hid (by omega) (by omega)
  (show frameBytes.drop 0 = frameBytes ++ [] by rw [append_nil]; rfl)] at ho
 cases ho
 exact ⟨Nat.zero_add _,rfl⟩

lemma SilentPacket.silent (hC : C.Authentic) {connection : QuicConnectionState}
    (h : SilentPacket C connection.receiveKeys connection.localConnectionId packet)
    (hid : connection.localConnectionId.length ≤ maxSafeInteger)
    (hd : connection.decode C packet = .ok (received, frames)) :
    ∀ frame ∈ frames, raisesCredit frame = false := by
 obtain ⟨n,length,payload,he,hsilent⟩:=h
 simp only [QuicConnectionState.decode,receiveQuicOneRttPacket,bind_eq_ok,pure_eq_ok,Prod.mk.injEq] at hd
 obtain ⟨_,⟨_,_,_,hde,_,_,rfl⟩,parsed,hp,_,rfl⟩:=hd
 rw [decryptQuicOneRttPacket_payload hC hid he hde] at hp
 exact hsilent parsed hp

end

namespace QuicConnectionState

variable {connection : QuicConnectionState}

lemma acknowledge_eq_ok {ackFrame : Option Bytes}
    {sent : Option QuicOneRttPacketSendResult} {state after : QuicOneRttState}
    (h : connection.acknowledge C ackFrame state = .ok sent after) : after.sendState = state.sendState ∧
      (state.nextPacketNumber ≤ quicMaxPacketNumber → after.nextPacketNumber ≤ quicMaxPacketNumber) ∧
      ∀ packet ∈ sent, ∃ b ∈ ackFrame, ∃ n length,
        encryptQuicOneRttPacket C connection.sendKeys connection.peerConnectionId n length b = .ok packet.packet := by
 cases ackFrame with
 | none =>
  cases h
  exact ⟨rfl,id,fun _ hp=>by cases hp⟩
 | some ackFrame =>
  obtain ⟨packet,_,hs,h⟩:=Throwing.bind_eq_ok.mp h
  cases h
  obtain ⟨⟨length,_,he⟩,hlt,_,rfl⟩:=send_eq_ok hs
  refine ⟨rfl,fun _=>hlt,?_⟩
  intro other ho
  cases ho
  exact ⟨ackFrame,rfl,_,length,he⟩

/-- A packet that raises no limit leaves the credit alone, and so does its acknowledgement. -/
theorem receive_of_silentPacket (hC : C.Authentic) {packet : Bytes}
    (hp : SilentPacket C connection.receiveKeys connection.localConnectionId packet)
    (hid : connection.localConnectionId.length ≤ maxSafeInteger) :
    match receive C packet 0 connection with
    | .error _ after => SameSending connection after
    | .ok result after => SameSending connection after ∧
      ∀ sent ∈ result.ackPacket, SilentPacket C connection.sendKeys connection.peerConnectionId sent.packet := by
 cases hd : connection.decode C packet with
 | error e =>
  rw [receive_of_decode_error hd]
  exact .refl connection
 | ok decoded =>
  obtain ⟨received,frames⟩:=decoded
  obtain ⟨result,tracker,_,_,ha,hr⟩:=receive_of_silent hd (hp.silent hC hid hd)
  rw [hr,onOneRtt,zoom]
  cases hs : onReceiveState (QuicStreamReceiveState.receiveFrames frames)
    { connection.oneRtt with
     ackTracker := tracker
     largestReceivedPacketNumber := some received.largestReceivedPacketNumber } with
  | error e after =>
   rw [bind_error hs]
   obtain ⟨streams,_,rfl⟩:=Throwing.zoom_eq_error.mp hs
   exact ⟨rfl,rfl,rfl,rfl,rfl,id⟩
  | ok outputs after =>
   rw [bind_ok hs]
   obtain ⟨streams,_,rfl⟩:=zoom_eq_ok.mp hs
   cases hac : acknowledge C _ result.ackFrame _ with
   | error e last =>
    rw [bind_error hac,acknowledge_error hac]
    exact ⟨rfl,rfl,rfl,rfl,rfl,id⟩
   | ok sent last =>
    rw [bind_ok hac]
    obtain ⟨hl,hra,hse⟩:=acknowledge_eq_ok hac
    refine ⟨⟨rfl,rfl,rfl,rfl,hl,hra⟩,?_⟩
    intro packet hp
    obtain ⟨b,hb,n,length,he⟩:=hse packet hp
    exact silentPacket_of_ack (ha b hb) he

lemma lacksCredit_sendStream_iff (hC : C.AddsTag) {streamId : ℕ} {data : Bytes}
    {fin : Bool} (hn : connection.oneRtt.nextPacketNumber ≤ quicMaxPacketNumber) :
    LacksCredit (outcome (sendStream C streamId data fin connection)) ↔
      connection.oneRtt.nextPacketNumber ≠ quicMaxPacketNumber ∧
        LacksCredit (connection.oneRtt.sendState.send streamId data fin) := by
 by_cases hmax : connection.oneRtt.nextPacketNumber = quicMaxPacketNumber
 · rw [sendStream_error (sendStream_of_exhausted hmax)]
   exact iff_of_false (fun h=>absurd (lacksCredit_error.mp h) (by decide)) fun h=>h.1 hmax
 · rw [and_iff_right hmax]
   cases hs : connection.oneRtt.sendState.send streamId data fin with
   | error e =>
    rw [sendStream_error (sendStream_of_refused hmax hs)]
    exact Iff.rfl.trans (lacksCredit_error.trans lacksCredit_error.symm)
   | ok accepted =>
    obtain ⟨result,after⟩:=accepted
    obtain ⟨packet,_,hse⟩:=sendStream_of_accepted connection.sendKeys
     connection.peerConnectionId hs hC (Nat.lt_of_le_of_ne hn hmax)
    rw [sendStream_ok hse]
    exact (lacksCredit_ok _).trans (lacksCredit_ok _).symm

end QuicConnectionState

/-! A packet with the next piece of a stream that comes when it is expected. -/

open Throwing (zoom)

lemma updateLargestReceivedQuicPacketNumber_of_expected {largest : Option ℕ} {n : ℕ}
    (h : nextExpectedQuicPacketNumber largest = .ok n) : updateLargestReceivedQuicPacketNumber largest n = .ok n := by
 have hn:=nextExpectedQuicPacketNumber_le h
 cases largest with
 | none =>
  rw [updateLargestReceivedQuicPacketNumber,quicPacketNumberToBigInt_of_le hn]
  rfl
 | some largest =>
  simp only [nextExpectedQuicPacketNumber,quicPacketNumberToBigInt,bind_eq_ok,throwIf_eq_ok,pure_eq_ok] at h
  obtain ⟨_,⟨_,hle,rfl⟩,_,_,rfl⟩:=h
  rw [updateLargestReceivedQuicPacketNumber,quicPacketNumberToBigInt_of_le hn,ok_bind]
  dsimp only
  rw [quicPacketNumberToBigInt_of_le (by omega),ok_bind,if_pos (by omega)]
  rfl

namespace QuicStreamReceiveBuffer

structure Drained (buffer : QuicStreamReceiveBuffer) (readOffset : ℕ) : Prop where
  readOffset_eq : buffer.readOffset = readOffset
  ahead : ∀ i, buffer.bytes.lookup (readOffset + i) = none
  unfinished : buffer.finalSize = none

lemma drained_empty : empty.Drained 0 := ⟨rfl,fun _=>rfl,rfl⟩

lemma Drained.receive {buffer : QuicStreamReceiveBuffer} {readOffset : ℕ} {data : Bytes}
    (h : buffer.Drained readOffset) (streamId : ℕ) (hdata : data ≠ [])
    (hen : readOffset + data.length ≤ maxSafeInteger) :
    ∃ after, buffer.receive ⟨streamId, readOffset, data, false⟩ =
        .ok (some ⟨streamId, readOffset, data, false, none, false⟩, after) ∧
      after.Drained (readOffset + data.length) := by
 have ha : buffer.Accepts ⟨streamId,readOffset,data,false⟩ := by
  refine ⟨hen,fun hf=>Bool.noConfusion hf,?_,?_⟩
  · intro size hs
    rw [h.unfinished] at hs
    cases hs
  · intro i a b _ hb
    rw [h.ahead i] at hb
    cases hb
 obtain ⟨fs,hc⟩:=check_of_accepts ha
 have hs : fs = none := ((check_eq_ok hc).2.1 rfl).trans h.unfinished
 have hr : (buffer.bytes.write readOffset data).contiguous (buffer.bytes.write readOffset data).keys.card
   buffer.readOffset = data := by
  rw [h.readOffset_eq]
  exact Sparse.contiguous_write h.ahead data
 have hne : data.length ≠ 0 := by simpa using hdata
 rw [QuicStreamReceiveBuffer.receive,hc,ok_bind,hs,store,contiguousOutput]
 rw [hr,h.readOffset_eq,if_neg (fun he=>hne he.1)]
 refine ⟨_,rfl,rfl,?_,rfl⟩
 intro i
 dsimp only
 rw [Sparse.lookup_write_of_le (by omega),Nat.add_assoc,h.ahead]

end QuicStreamReceiveBuffer

variable {C : Ciphers}

open Throwing

namespace QuicConnectionState

variable {connection : QuicConnectionState} {packet frameBytes : Bytes} {n length : ℕ} {frame : QuicStreamFrame}

variable (frame) in
lemma decode_of_expected (hC : C.Decrypts) (hid : connection.localConnectionId.length ≤ maxSafeInteger)
    (he : nextExpectedQuicPacketNumber connection.oneRtt.largestReceivedPacketNumber = .ok n)
    (hpa : encryptQuicOneRttPacket C connection.receiveKeys connection.localConnectionId n length frameBytes =
      .ok packet)
    (hf : encodeQuicStreamFrame frame.streamId frame.streamOffset frame.data frame.fin = .ok frameBytes)
    (hs : frame.streamId ≤ maxSafeInteger) (hen : frame.streamOffset + frame.data.length ≤ maxSafeInteger) :
    ∃ received, received.largestReceivedPacketNumber = n ∧
      connection.decode C packet = .ok (received, [⟨.stream frame, 0, 0 + frameBytes.length⟩]) := by
 obtain ⟨result,hd,hn,hp⟩:=decryptQuicOneRttPacket_of_near hC hid hpa
  (nextExpectedQuicPacketNumber_le he) (Nat.lt_add_of_pos_right (Nat.two_pow_pos _)) (.inl (Nat.le_add_right _ _))
 have hpe:=parseQuicFrame_encodeQuicStreamFrame hf hs (by omega) (by omega)
  (show frameBytes.drop 0 = frameBytes ++ [] by rw [List.append_nil]; rfl)
 rw [decode,receiveQuicOneRttPacket,he,ok_bind,hd,ok_bind,hn,
  updateLargestReceivedQuicPacketNumber_of_expected he,ok_bind,pure_bind,hp,
  parseQuicFrames_single hpe (Nat.zero_add _)]
 exact ⟨_,rfl,rfl⟩

lemma receive_of_expected (hC : C.AddsTag) {output : QuicStreamReceiveOutput} {buffer : QuicStreamReceiveBuffer}
    {received : QuicOneRttPacketReceiveResult} {first last : ℕ} (hsm : frame.streamId ≤ maxSafeInteger)
    (hd : connection.decode C packet = .ok (received, [⟨.stream frame, first, last⟩]))
    (hb : (connection.oneRtt.receiveState.streams frame.streamId).receive frame = .ok (some output, buffer))
    (hn : connection.oneRtt.nextPacketNumber < quicMaxPacketNumber) :
    ∃ result after, receive C packet 0 connection = .ok result after ∧ result.streamOutputs = [output] ∧
      result.connectionClosed = false ∧ SameSending connection after ∧
      after.oneRtt.nextPacketNumber = connection.oneRtt.nextPacketNumber + 1 ∧
      after.oneRtt.largestReceivedPacketNumber = some received.largestReceivedPacketNumber ∧
      after.oneRtt.receiveState.streams =
        Function.update connection.oneRtt.receiveState.streams frame.streamId buffer := by
 obtain ⟨result,tracker,_,has,ha,hr⟩:=receive_of_silent hd (by simp [raisesCredit])
 obtain ⟨ackFrame,hso⟩:=Option.isSome_iff_exists.mp has
 have hl:=encodeQuicAckFrame_length_ge (ha ackFrame hso)
 obtain ⟨streams,hst,hs⟩:=receiveOn_of_ok hb
 have hf : receiveFrames [⟨.stream frame,first,last⟩] connection.oneRtt.receiveState = .ok [output] streams := by
  have hfr : receiveFrame ⟨.stream frame,first,last⟩ connection.oneRtt.receiveState = .ok (some output) streams := by
   change QuicStreamReceiveState.receive frame _ = _
   rw [QuicStreamReceiveState.receive,validateStreamId,throwIf_neg (by omega),bind_ok (lift_ok () _),get_bind,hst]
   rfl
  rw [receiveFrames,bind_ok hfr]
  rfl
 let stored : QuicOneRttState := { connection.oneRtt with
  ackTracker := tracker
  largestReceivedPacketNumber := some received.largestReceivedPacketNumber
  receiveState := streams }
 have hse : QuicOneRttState.onReceiveState
   (receiveFrames [⟨.stream frame,first,last⟩]) { connection.oneRtt with
    ackTracker := tracker
    largestReceivedPacketNumber := some received.largestReceivedPacketNumber } = .ok [output] stored :=
  zoom_eq_ok.mpr ⟨streams,hf,rfl⟩
 obtain ⟨ackPacket,_,hsd⟩:=QuicOneRttState.send_of_lt connection.sendKeys connection.peerConnectionId hC
  (show stored.nextPacketNumber < quicMaxPacketNumber from hn) (show 4 ≤ ackFrame.length+_ by omega)
 have hac : connection.acknowledge C result.ackFrame stored =
   .ok (some ⟨ackPacket,stored.nextPacketNumber,stored.nextPacketNumber+1⟩)
    { stored with nextPacketNumber := stored.nextPacketNumber+1 } := by
  rw [hso]
  exact bind_ok hsd
 rw [hr,onOneRtt,zoom]
 rw [bind_ok hse,bind_ok hac]
 exact ⟨_,_,rfl,rfl,rfl,⟨rfl,rfl,rfl,rfl,rfl,fun _=>hn⟩,rfl,rfl,hs⟩

end QuicConnectionState

end Enlace.Quic
