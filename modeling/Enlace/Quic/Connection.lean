import Enlace.Quic.Ack
import Enlace.Quic.OneRtt
import Enlace.Quic.Streams

set_option autoImplicit false

/-! The connected state of `one-rtt.ts` and `connection.ts`. -/
namespace Enlace.Quic
open ByteString Fallible
open Throwing (lift zoom bind_error bind_ok get_bind lift_bind_eq_error lift_bind_eq_ok lift_ok zoom_eq_error
 zoom_eq_ok)

structure QuicOneRttState where
  nextPacketNumber : ℕ
  ackTracker : QuicAckReceiveTracker
  largestReceivedPacketNumber : Option ℕ
  receiveState : QuicStreamReceiveState
  sendState : QuicStreamSendState

structure QuicOneRttPacketSendResult where
  packet : Bytes
  packetNumber : ℕ
  nextPacketNumber : ℕ
  deriving DecidableEq

structure QuicOneRttStreamPacketSendResult extends QuicOneRttPacketSendResult where
  stream : QuicStreamSendResult
  deriving DecidableEq

structure QuicOneRttPacketStreamReceiveResult extends QuicOneRttPacketReceiveResult,
    QuicOneRttFrameReceiveResult where
  streamOutputs : List QuicStreamReceiveOutput
  deriving DecidableEq

variable (C : Ciphers) {e : Thrown} {packet payload : Bytes}

namespace QuicOneRttState

def create (nextPacketNumber : ℕ) (largestReceivedPacketNumber : Option ℕ)
    (streamSendOptions : QuicStreamSendStateOptions) : Outcome QuicOneRttState := do
  let nextPacketNumber ← quicPacketNumberToBigInt nextPacketNumber
  let largestReceivedPacketNumber ← largestReceivedPacketNumber.mapM quicPacketNumberToBigInt
  let sendState ← QuicStreamSendState.create streamSendOptions
  return ⟨nextPacketNumber, .empty, largestReceivedPacketNumber, .empty, sendState⟩

def send (keys : QuicDirectionalKeys) (destinationConnectionId payload : Bytes) :
    EStateM Thrown QuicOneRttState QuicOneRttPacketSendResult := do
  let state ← get
  let packetNumber ← lift (quicPacketNumberToBigInt state.nextPacketNumber)
  lift (throwIf (packetNumber = quicMaxPacketNumber) "QUIC next packet number out of range")
  let length ← lift (selectQuicOneRttPacketNumberLength packetNumber)
  let packet ← lift (encryptQuicOneRttPacket C keys destinationConnectionId packetNumber length payload)
  set { state with nextPacketNumber := packetNumber + 1 }
  return ⟨packet, packetNumber, packetNumber + 1⟩

def sendStream (keys : QuicDirectionalKeys) (destinationConnectionId : Bytes) (streamId : ℕ) (data : Bytes)
    (fin : Bool) : EStateM Thrown QuicOneRttState QuicOneRttStreamPacketSendResult := do
  let state ← get
  lift (throwIf (state.nextPacketNumber = quicMaxPacketNumber) "QUIC next packet number out of range")
  let (stream, sendState) ← lift (state.sendState.send streamId data fin)
  set { state with sendState := sendState }
  let sent ← send C keys destinationConnectionId stream.frameBytes
  return ⟨sent, stream⟩

def onTracker {α : Type} : EStateM Thrown QuicAckReceiveTracker α → EStateM Thrown QuicOneRttState α :=
  zoom ackTracker fun state tracker => { state with ackTracker := tracker }

def onReceiveState {α : Type} : EStateM Thrown QuicStreamReceiveState α → EStateM Thrown QuicOneRttState α :=
  zoom receiveState fun state streams => { state with receiveState := streams }

def onSendState {α : Type} : EStateM Thrown QuicStreamSendState α → EStateM Thrown QuicOneRttState α :=
  zoom sendState fun state streams => { state with sendState := streams }

def receive (packet : Bytes) (keys : QuicDirectionalKeys) (destinationConnectionIdLength offset ackDelay : ℕ) :
    EStateM Thrown QuicOneRttState QuicOneRttPacketStreamReceiveResult := do
  let state ← get
  let received ← lift (receiveQuicOneRttPacket C packet keys destinationConnectionIdLength
    state.largestReceivedPacketNumber offset)
  let result ← onTracker (receiveQuicOneRttPlaintextFrames received.packetNumber received.payload ackDelay)
  let state ← get
  set { state with largestReceivedPacketNumber := some received.largestReceivedPacketNumber }
  let streamOutputs ← onReceiveState (QuicStreamReceiveState.receiveFrames result.frames)
  return ⟨received, result, streamOutputs⟩

variable {C} in
lemma send_error {keys : QuicDirectionalKeys} {id : Bytes} {state after : QuicOneRttState}
    (h : send C keys id payload state = .error e after) : after = state := by
 simp only [send,get_bind,lift_bind_eq_error] at h
 rcases h with ⟨_,rfl⟩|⟨_,_,⟨_,rfl⟩|⟨_,_,⟨_,rfl⟩|⟨_,_,⟨_,rfl⟩|⟨_,_,h⟩⟩⟩⟩
 · rfl
 · rfl
 · rfl
 · rfl
 · cases h

end QuicOneRttState

structure QuicConnectionDirectionalKeys where
  client : QuicDirectionalKeys
  server : QuicDirectionalKeys

structure QuicConnectionState where
  role : QuicEndpointRole
  keys : QuicConnectionDirectionalKeys
  localConnectionId : Bytes
  peerConnectionId : Bytes
  oneRtt : QuicOneRttState

structure QuicConnectionReceiveResult extends QuicOneRttPacketStreamReceiveResult where
  ackPacket : Option QuicOneRttPacketSendResult
  connectionClosed : Bool
  deriving DecidableEq

def isConnectionClose (frame : QuicFrame) : Bool :=
  match frame.body with
  | .connectionClose _ _ _ => true
  | _ => false

open QuicOneRttState

namespace QuicConnectionState

def sendKeys (connection : QuicConnectionState) : QuicDirectionalKeys :=
  match connection.role with
  | .client => connection.keys.client
  | .server => connection.keys.server

def receiveKeys (connection : QuicConnectionState) : QuicDirectionalKeys :=
  match connection.role with
  | .client => connection.keys.server
  | .server => connection.keys.client

def onOneRtt {α : Type} (m : QuicConnectionState → EStateM Thrown QuicOneRttState α) :
    EStateM Thrown QuicConnectionState α := fun connection =>
  zoom oneRtt (fun connection state => { connection with oneRtt := state }) (m connection) connection

def sendFrames (frameBytes : Bytes) : EStateM Thrown QuicConnectionState QuicOneRttPacketSendResult :=
  onOneRtt fun connection => QuicOneRttState.send C connection.sendKeys connection.peerConnectionId frameBytes

def sendApplicationClose (errorCode : ℕ) (reasonPhrase : Bytes) :
    EStateM Thrown QuicConnectionState QuicOneRttPacketSendResult := do
  let frameBytes ← lift (encodeQuicApplicationConnectionCloseFrame errorCode reasonPhrase)
  sendFrames C frameBytes

def sendStream (streamId : ℕ) (data : Bytes) (fin : Bool) :
    EStateM Thrown QuicConnectionState QuicOneRttStreamPacketSendResult :=
  onOneRtt fun connection =>
    QuicOneRttState.sendStream C connection.sendKeys connection.peerConnectionId streamId data fin

/-- The ACK packet that answers a received one, if it asks for one. -/
def acknowledge (connection : QuicConnectionState) :
    Option Bytes → EStateM Thrown QuicOneRttState (Option QuicOneRttPacketSendResult)
  | none => return none
  | some ackFrame => do
    let sent ← QuicOneRttState.send C connection.sendKeys connection.peerConnectionId ackFrame
    return some sent

def receive (packet : Bytes) (ackDelay : ℕ) : EStateM Thrown QuicConnectionState QuicConnectionReceiveResult :=
  onOneRtt fun connection => do
    let result ← QuicOneRttState.receive C packet connection.receiveKeys connection.localConnectionId.length 0
      ackDelay
    QuicOneRttState.onSendState (QuicStreamSendState.applyFlowControlFrames result.frames)
    let ackPacket ← connection.acknowledge C result.ackFrame
    return ⟨result, ackPacket, result.frames.any isConnectionClose⟩

/-- What can be read off a packet before anything is changed. -/
def decode (connection : QuicConnectionState) (packet : Bytes) :
    Outcome (QuicOneRttPacketReceiveResult × List QuicFrame) := do
  let received ← receiveQuicOneRttPacket C packet connection.receiveKeys connection.localConnectionId.length
    connection.oneRtt.largestReceivedPacketNumber 0
  let parsed ← parseQuicFrames received.payload 0
  return (received, parsed.frames)

variable {C}

variable {connection : QuicConnectionState}

lemma receive_of_decode_error
    (h : connection.decode C packet = .error e) : receive C packet 0 connection = .error e connection := by
 have hb : QuicOneRttState.receive C packet connection.receiveKeys connection.localConnectionId.length 0 0
   connection.oneRtt = .error e connection.oneRtt := by
  rw [QuicOneRttState.receive,get_bind,lift_bind_eq_error]
  rw [decode] at h
  cases hr : receiveQuicOneRttPacket C packet connection.receiveKeys connection.localConnectionId.length
    connection.oneRtt.largestReceivedPacketNumber 0 with
  | error e' =>
   rw [hr] at h
   cases h
   exact .inl ⟨rfl,rfl⟩
  | ok rec =>
   rw [hr,ok_bind] at h
   refine .inr ⟨rec,rfl,bind_error (zoom_eq_error.mpr ⟨_,?_,rfl⟩)⟩
   rw [receiveQuicOneRttPlaintextFrames,lift_bind_eq_error]
   cases hp : parseQuicFrames rec.payload 0 with
   | error e' =>
    rw [hp] at h
    cases h
    exact .inl ⟨rfl,rfl⟩
   | ok parsed =>
    rw [hp] at h
    cases h
 rw [receive,onOneRtt,zoom_eq_error]
 exact ⟨connection.oneRtt,bind_error hb,rfl⟩

lemma receive_of_decode {rec : QuicOneRttPacketReceiveResult} {frames : List QuicFrame}
    (hd : connection.decode C packet = .ok (rec, frames)) :
    ∃ result tracker, result.frames = frames ∧ tracker.numbers = (if frames.any isQuicAckElicitingFrame then
        connection.oneRtt.ackTracker.numbers.insert rec.packetNumber else connection.oneRtt.ackTracker.numbers) ∧
      result.ackFrame.isSome = frames.any isQuicAckElicitingFrame ∧
      (∀ b ∈ result.ackFrame, tracker.ackFrame 0 = .ok b) ∧
      QuicOneRttState.receive C packet connection.receiveKeys connection.localConnectionId.length 0 0
        connection.oneRtt = (do
          let streamOutputs ← QuicOneRttState.onReceiveState (QuicStreamReceiveState.receiveFrames frames)
          return (⟨rec, result, streamOutputs⟩ : QuicOneRttPacketStreamReceiveResult))
        { connection.oneRtt with
          ackTracker := tracker
          largestReceivedPacketNumber := some rec.largestReceivedPacketNumber } := by
 simp only [decode,bind_eq_ok,pure_eq_ok,Prod.mk.injEq] at hd
 obtain ⟨rec,hr,parsed,hp,rfl,rfl⟩:=hd
 obtain ⟨hn,_⟩:=receiveQuicOneRttPacket_eq_ok hr
 obtain ⟨result,tracker,hre,hf,hnu,has,ha⟩ :=
  receiveQuicOneRttFrames_of_le hn (Nat.zero_le _) parsed.frames connection.oneRtt.ackTracker
 have hpl : onTracker
   (receiveQuicOneRttPlaintextFrames rec.packetNumber rec.payload 0) connection.oneRtt =
    .ok result { connection.oneRtt with ackTracker := tracker } := by
  rw [onTracker,zoom_eq_ok]
  exact ⟨tracker,lift_bind_eq_ok.mpr ⟨parsed,hp,hre⟩,rfl⟩
 refine ⟨result,tracker,hf,hnu,has,ha,?_⟩
 rw [QuicOneRttState.receive,get_bind,bind_ok (Throwing.lift_eq_ok.mpr ⟨hr,rfl⟩),
  bind_ok hpl,get_bind,Throwing.set_bind,hf]

lemma acknowledge_error {ackFrame : Option Bytes} {state after : QuicOneRttState}
    (h : connection.acknowledge C ackFrame state = .error e after) : after = state := by
 cases ackFrame with
 | none => cases h
 | some ackFrame =>
  rcases Throwing.bind_eq_error.mp h with h|⟨_,_,_,h⟩
  · exact send_error h
  · cases h

end QuicConnectionState

def plainKeys : QuicDirectionalKeys :=
  ⟨List.Vector.replicate 16 1, List.Vector.replicate 12 2, List.Vector.replicate 16 3⟩

def clientConnectionId : Bytes := List.replicate 8 0x0c

def serverConnectionId : Bytes := List.replicate 8 0x05

variable {C}

namespace QuicOneRttState

variable {keys : QuicDirectionalKeys} {id : Bytes} {streamId : ℕ} {data : Bytes} {fin : Bool}
  {state : QuicOneRttState}

lemma create_nextPacketNumber_le {nextPacketNumber : ℕ} {largest : Option ℕ} {options : QuicStreamSendStateOptions}
    (h : create nextPacketNumber largest options = .ok state) : state.nextPacketNumber ≤ quicMaxPacketNumber := by
 simp only [create,quicPacketNumberToBigInt,bind_eq_ok,throwIf_eq_ok,pure_eq_ok] at h
 obtain ⟨_,⟨_,hn,rfl⟩,_,_,_,_,rfl⟩:=h
 exact Nat.not_lt.mp hn

lemma send_eq_ok {sent : QuicOneRttPacketSendResult} {after : QuicOneRttState}
    (h : send C keys id payload state = .ok sent after) :
    (∃ length, selectQuicOneRttPacketNumberLength state.nextPacketNumber = .ok length ∧
        encryptQuicOneRttPacket C keys id state.nextPacketNumber length payload = .ok sent.packet) ∧
      state.nextPacketNumber < quicMaxPacketNumber ∧ sent.packetNumber = state.nextPacketNumber ∧
      after = { state with nextPacketNumber := state.nextPacketNumber + 1 } := by
 simp only [send,get_bind,lift_bind_eq_ok,quicPacketNumberToBigInt,bind_eq_ok,throwIf_eq_ok, pure_eq_ok] at h
 obtain ⟨_,⟨_,hn,rfl⟩,_,hmax,length,hs,packet,hp,h⟩:=h
 cases h
 exact ⟨⟨length,hs,hp⟩,by omega,rfl,rfl⟩

lemma sendStream_of_exhausted (h : state.nextPacketNumber = quicMaxPacketNumber) :
    sendStream C keys id streamId data fin state =
      .error (.rangeError "QUIC next packet number out of range") state := by
 rw [sendStream,get_bind]
 exact bind_error (Throwing.lift_eq_error.mpr ⟨if_pos h,rfl⟩)

lemma sendStream_of_refused (hn : state.nextPacketNumber ≠ quicMaxPacketNumber)
    (h : state.sendState.send streamId data fin = .error e) :
    sendStream C keys id streamId data fin state = .error e state := by
 rw [sendStream,get_bind,throwIf_neg hn,bind_ok (lift_ok () state),h]
 exact bind_error (Throwing.lift_error e state)

variable (keys id) in
lemma send_of_lt (hC : C.AddsTag) (hn : state.nextPacketNumber < quicMaxPacketNumber)
    (hpa : 4 ≤ payload.length + packetNumberLength state.nextPacketNumber) :
    ∃ packet, encryptQuicOneRttPacket C keys id state.nextPacketNumber (packetNumberLength state.nextPacketNumber)
        payload = .ok packet ∧
      send C keys id payload state = .ok ⟨packet, state.nextPacketNumber, state.nextPacketNumber + 1⟩
          { state with nextPacketNumber := state.nextPacketNumber + 1 } := by
 obtain ⟨packet,hp⟩:=encryptQuicOneRttPacket_of_le hC keys id (Nat.le_of_lt hn)
  (packetNumberLength_bounds state.nextPacketNumber) hpa
 refine ⟨packet,hp,?_⟩
 rw [send,get_bind,quicPacketNumberToBigInt_of_le (Nat.le_of_lt hn),
  bind_ok (lift_ok _ state),throwIf_neg (Nat.ne_of_lt hn),
  bind_ok (lift_ok () state),selectQuicOneRttPacketNumberLength_eq (Nat.le_of_lt hn),
  bind_ok (lift_ok _ state),hp]
 rfl

lemma near_packetNumberLength {n expected : ℕ} (hlow : n ≤ expected + 2^31) (hh : expected ≤ n + 127) :
    expected < n + 2^(8*packetNumberLength n - 1) ∧
      (n ≤ expected + 2^(8*packetNumberLength n - 1) ∨ n < 2^(8*packetNumberLength n)) := by
 unfold packetNumberLength
 split_ifs <;> norm_num only <;> omega

/-- The truncated number of a packet is recovered near the expected one. With the length that the sender selects the
packet is read back, and a payload too short for the sample is not sent. -/
theorem packet_number_recovered (htag : C.AddsTag) (hdecrypts : C.Decrypts) (keys : QuicDirectionalKeys) (id : Bytes)
    (hid : id.length ≤ maxSafeInteger) :
    (∀ n < 2^62, ∀ length, 1 ≤ length → length ≤ 4 → ∀ expected < 2^62,
      expected < n + 2^(8*length - 1) → n ≤ expected + 2^(8*length - 1) →
        ∃ b, encodeQuicTruncatedPacketNumber n length = .ok b ∧
          recoverQuicPacketNumber (ofBeBytes b) length expected = .ok n) ∧
    (∀ n < 2^62, ∃ length, selectQuicOneRttPacketNumberLength n = .ok length ∧
      ∀ payload : Bytes, 4 ≤ payload.length + length →
        ∃ packet, encryptQuicOneRttPacket C keys id n length payload = .ok packet ∧
          ∀ expected < 2^62, n ≤ expected + 2^31 → expected ≤ n + 127 →
            ∃ result, decryptQuicOneRttPacket C packet keys id.length 0 (some expected) = .ok result ∧
              result.packetNumber = n ∧ result.payload = payload) ∧
    ∀ (state : QuicOneRttState) (payload : Bytes) (length : ℕ),
      selectQuicOneRttPacketNumberLength state.nextPacketNumber = .ok length → payload.length + length < 4 →
        ∃ e, send C keys id payload state = .error e state := by
 have hle : ∀ n < 2^62, n ≤ quicMaxPacketNumber := fun n hn=>Nat.le_of_lt_succ hn
 refine ⟨?_,?_,?_⟩
 · intro n hn length hm hmax expected he hlow hh
   refine ⟨beBytes length n,?_,?_⟩
   · rw [encodeQuicTruncatedPacketNumber,throwIf_neg (by omega), quicPacketNumberToBigInt_of_le (hle n hn)]
     rfl
   · rw [ofBeBytes_beBytes]
     exact recoverQuicPacketNumber_of_near ⟨hm,hmax⟩ (hle n hn) (hle expected he) hlow (.inl hh)
 · intro n hn
   refine ⟨packetNumberLength n,selectQuicOneRttPacketNumberLength_eq (hle n hn),fun payload hpa=>?_⟩
   obtain ⟨packet,hp⟩:=encryptQuicOneRttPacket_of_le htag keys id (hle n hn) (packetNumberLength_bounds n) hpa
   refine ⟨packet,hp,fun expected he hlow hh=>?_⟩
   obtain ⟨hb,ha⟩:=near_packetNumberLength hlow hh
   exact decryptQuicOneRttPacket_of_near hdecrypts hid hp (hle expected he) hb ha
 · intro state payload length hse hsh
   cases hs : send C keys id payload state with
   | error e after => exact ⟨e,by rw [send_error hs]⟩
   | ok sent after =>
    obtain ⟨⟨length',hs',hp⟩,_⟩:=send_eq_ok hs
    cases hse.symm.trans hs'
    have hl:=four_le_of_encrypt htag hp
    omega

theorem packet_300_recovered : ∃ length packet result, selectQuicOneRttPacketNumberLength 300 = .ok length ∧
      encryptQuicOneRttPacket plainCiphers plainKeys clientConnectionId 300 length [1, 2, 3] = .ok packet ∧
      decryptQuicOneRttPacket plainCiphers packet plainKeys clientConnectionId.length 0 (some 427) = .ok result ∧
      result.packetNumber = 300 ∧ result.payload = [1, 2, 3] := by
 obtain ⟨length,hs,h⟩:=(packet_number_recovered plainCiphers.addsTag plainCiphers.decrypts plainKeys clientConnectionId
  (by decide)).2.1 300 (by decide)
 cases hs
 obtain ⟨packet,hp,h⟩:=h [1,2,3] (by decide)
 obtain ⟨result,hr⟩:=h 427 (by decide) (by decide) (by decide)
 exact ⟨_,packet,result,rfl,hp,hr⟩

section
variable {result : QuicStreamSendResult} {after : QuicStreamSendState}
  (h : state.sendState.send streamId data fin = .ok (result, after))
include h

lemma sendStream_eq (hn : state.nextPacketNumber ≠ quicMaxPacketNumber) :
    sendStream C keys id streamId data fin state = (do
      let sent ← send C keys id result.frameBytes
      return (⟨sent, result⟩ : QuicOneRttStreamPacketSendResult)) { state with sendState := after } := by
 rw [sendStream,get_bind,throwIf_neg hn,h]
 rfl

variable (keys id) in
lemma sendStream_of_accepted (hC : C.AddsTag) (hn : state.nextPacketNumber < quicMaxPacketNumber) :
    ∃ packet, encryptQuicOneRttPacket C keys id state.nextPacketNumber (packetNumberLength state.nextPacketNumber)
        result.frameBytes = .ok packet ∧
      sendStream C keys id streamId data fin state =
        .ok ⟨⟨packet, state.nextPacketNumber, state.nextPacketNumber + 1⟩, result⟩
          { state with sendState := after, nextPacketNumber := state.nextPacketNumber + 1 } := by
 obtain ⟨fb,hfr,rfl,_⟩:=QuicStreamSendState.send_eq_ok h
 have hp : 4 ≤ fb.length+packetNumberLength state.nextPacketNumber := by
  have hl:=packetNumberLength_bounds state.nextPacketNumber
  have hf:=streamFrameLength_ge streamId (state.sendState.streams streamId).offset data.length
  rw [← encodeQuicStreamFrame_length hfr] at hf
  omega
 obtain ⟨packet,hpa,hs⟩:=send_of_lt keys id hC
  (show ({ state with sendState := after } : QuicOneRttState).nextPacketNumber < quicMaxPacketNumber from hn) hp
 refine ⟨packet,hpa,?_⟩
 rw [sendStream_eq h (Nat.ne_of_lt hn),bind_ok hs]
 rfl

end

end QuicOneRttState

namespace QuicConnectionState

variable {connection : QuicConnectionState} {streamId : ℕ} {data : Bytes} {fin : Bool}

lemma sendStream_ok {sent : QuicOneRttStreamPacketSendResult} {after : QuicOneRttState}
    (h : QuicOneRttState.sendStream C connection.sendKeys connection.peerConnectionId streamId data fin
      connection.oneRtt = .ok sent after) :
    sendStream C streamId data fin connection = .ok sent { connection with oneRtt := after } := by
 rw [sendStream,onOneRtt,zoom_eq_ok]
 exact ⟨after,h,rfl⟩

lemma sendStream_error {after : QuicOneRttState}
    (h : QuicOneRttState.sendStream C connection.sendKeys connection.peerConnectionId streamId data fin
      connection.oneRtt = .error e after) :
    sendStream C streamId data fin connection = .error e { connection with oneRtt := after } := by
 rw [sendStream,onOneRtt,zoom_eq_error]
 exact ⟨after,h,rfl⟩

end QuicConnectionState

def establishedConnection (role : QuicEndpointRole) : Outcome QuicConnectionState := do
  let oneRtt ← QuicOneRttState.create 0 none ⟨none, some ⟨65536, 65536, 65536, 65536⟩, some role⟩
  match role with
  | .client => return ⟨role, ⟨plainKeys, plainKeys⟩, clientConnectionId, serverConnectionId, oneRtt⟩
  | .server => return ⟨role, ⟨plainKeys, plainKeys⟩, serverConnectionId, clientConnectionId, oneRtt⟩

lemma establishedConnection_client :
    ∃ connection, establishedConnection .client = .ok connection ∧ connection.oneRtt.nextPacketNumber = 0 ∧
      connection.peerConnectionId.length = 8 ∧
      connection.oneRtt.sendState = ⟨fun _ => ⟨0, false⟩, fun _ => none, some 65536, 0, some .client, some 65536,
        some 65536, some 65536⟩ :=
 ⟨_,rfl,rfl,rfl,rfl⟩

end Enlace.Quic
