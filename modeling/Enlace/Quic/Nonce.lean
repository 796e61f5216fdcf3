import Enlace.Lib.Transition
import Enlace.Quic.Connection

set_option autoImplicit false

/-! The packets that a connection emits and the nonces that they are sealed with. -/
namespace Enlace.Quic
open ByteString Fallible Transition List QuicOneRttState QuicOneRttPacketSendResult QuicStreamSendState
open Throwing (Keeps final zoom bind_error bind_ok lift_ok)

variable (C : Ciphers)

inductive ConnectionCall where
  | sendStream (streamId : ℕ) (data : Bytes) (fin : Bool)
  | sendFrames (frameBytes : Bytes)
  | sendApplicationClose (errorCode : ℕ) (reasonPhrase : Bytes)
  | receive (packet : Bytes) (ackDelay : ℕ)

namespace QuicConnectionState

def perform : ConnectionCall → EStateM Thrown QuicConnectionState (List QuicOneRttPacketSendResult)
  | .sendStream streamId data fin => do
    let sent ← sendStream C streamId data fin
    return [sent.toQuicOneRttPacketSendResult]
  | .sendFrames frameBytes => do
    let sent ← sendFrames C frameBytes
    return [sent]
  | .sendApplicationClose errorCode reasonPhrase => do
    let sent ← sendApplicationClose C errorCode reasonPhrase
    return [sent]
  | .receive packet ackDelay => do
    let received ← receive C packet ackDelay
    return received.ackPacket.toList

end QuicConnectionState

structure Emission where
  connection : QuicConnectionState
  emitted : List QuicOneRttPacketSendResult

def Emission.step (emission : Emission) (call : ConnectionCall) : Option Emission :=
  match emission.connection.perform C call with
  | .ok sent after => some ⟨after, emission.emitted ++ sent⟩
  | .error _ after => some ⟨after, emission.emitted⟩

variable {C}

def SealedWith (C : Ciphers) (keys : QuicDirectionalKeys) (nonce : Block 12) (packet : Bytes) : Prop :=
  ∃ mask first id number payload, packet = maskedPacket mask first id number
    (C.gcmEncrypt keys.packetKey nonce (first :: (id ++ number)) payload)

variable {payload : Bytes} {α : Type}

lemma sealedWith_of_encrypt {keys : QuicDirectionalKeys} {id pkt : Bytes} {n length : ℕ}
    (h : encryptQuicOneRttPacket C keys id n length payload = .ok pkt) :
    ∃ nonce, quicPacketNonce keys.packetIv n = .ok nonce ∧ SealedWith C keys nonce pkt := by
 obtain ⟨nonce,sample,ciphertext,_,_,hn,rfl,_,rfl⟩:=encryptQuicOneRttPacket_eq_ok C h
 exact ⟨nonce,hn,_,_,_,_,_,rfl⟩

/-- Below 2^62 the nonces of different packet numbers differ. -/
theorem quicPacketNonce_injective {packetIv nonce : Block 12} {n m : ℕ}
    (hn : quicPacketNonce packetIv n = .ok nonce) (hm : quicPacketNonce packetIv m = .ok nonce) : n = m := by
 simp only [quicPacketNonce,quicPacketNumberToBigInt,bind_eq_ok,throwIf_eq_ok,pure_eq_ok] at hn hm
 obtain ⟨_,⟨_,hle,rfl⟩,hn⟩:=hn
 obtain ⟨_,⟨_,hl',rfl⟩,hm⟩:=hm
 have hu : ∀ b : Bytes, b.length = 12 →
   zipWith (· ^^^ ·) (zipWith (· ^^^ ·) packetIv.toList b) packetIv.toList = b := by
  intro b hb
  have hc : zipWith (· ^^^ ·) packetIv.toList b = zipWith (· ^^^ ·) b packetIv.toList :=
   zipWith_comm_of_comm fun x y=>UInt8.xor_comm x y
  rw [hc]
  exact zipWith_xor_xor (Nat.le_of_eq (hb.trans packetIv.toList_length.symm))
 have hs : zipWith (· ^^^ ·) packetIv.toList (beBytes 12 n) =
   zipWith (· ^^^ ·) packetIv.toList (beBytes 12 m) := congrArg List.Vector.toList (hn.trans hm.symm)
 have hby : beBytes 12 n = beBytes 12 m := by
  rw [← hu _ (beBytes_length 12 n),hs,hu _ (beBytes_length 12 m)]
 have hmax : quicMaxPacketNumber < 256^12 := by decide
 rw [← ofBeBytes_beBytes_of_lt 12 n (by omega),hby,ofBeBytes_beBytes_of_lt 12 m (by omega)]

/-- Calls that emit `sent`, numbered from where the connection stood. -/
structure Emits (C : Ciphers) (before : QuicConnectionState) (sent : List QuicOneRttPacketSendResult)
    (after : QuicConnectionState) : Prop where
  sendKeys : after.sendKeys = before.sendKeys
  numbers : sent.map QuicOneRttPacketSendResult.packetNumber = List.range' before.oneRtt.nextPacketNumber sent.length
  next : after.oneRtt.nextPacketNumber = before.oneRtt.nextPacketNumber + sent.length
  encrypted : ∀ packet ∈ sent, ∃ id length payload,
    encryptQuicOneRttPacket C before.sendKeys id packet.packetNumber length payload = .ok packet.packet

namespace Emits

variable {before between after : QuicConnectionState} {sent sent' : List QuicOneRttPacketSendResult}

lemma none (hk : after.sendKeys = before.sendKeys)
    (hn : after.oneRtt.nextPacketNumber = before.oneRtt.nextPacketNumber) : Emits C before [] after :=
 ⟨hk,rfl,hn,forall_mem_nil _⟩

lemma append (h : Emits C before sent between) (h' : Emits C between sent' after) :
    Emits C before (sent ++ sent') after where
 sendKeys := h'.sendKeys.trans h.sendKeys
 numbers := by
  rw [map_append,h.numbers,h'.numbers,h.next,length_append,range'_append_1]
 next := by
  rw [h'.next,h.next,length_append,Nat.add_assoc]
 encrypted := by
  intro pkt hp
  rcases mem_append.mp hp with hp|hp
  · exact h.encrypted pkt hp
  · rw [← h.sendKeys]
    exact h'.encrypted pkt hp

end Emits

namespace QuicOneRttState

lemma keeps_onTracker (m : EStateM Thrown QuicAckReceiveTracker α) : Keeps nextPacketNumber (onTracker m) := by
 apply Keeps.zoom
 intro _ _
 rfl

lemma keeps_onReceiveState (m : EStateM Thrown QuicStreamReceiveState α) :
    Keeps nextPacketNumber (onReceiveState m) := by
 apply Keeps.zoom
 intro _ _
 rfl

lemma keeps_onSendState (m : EStateM Thrown QuicStreamSendState α) : Keeps nextPacketNumber (onSendState m) := by
 apply Keeps.zoom
 intro _ _
 rfl

lemma keeps_receive (pkt : Bytes) (keys : QuicDirectionalKeys) (length offset ackDelay : ℕ) :
    Keeps nextPacketNumber (receive C pkt keys length offset ackDelay) := by
 refine Keeps.get_bind fun state=>?_
 refine (show Keeps nextPacketNumber _ from Keeps.bind (.lift _) fun rec=>
  Keeps.bind (keeps_onTracker _) fun result=>Keeps.get_bind fun state=>?_) state
 exact (show Keeps nextPacketNumber _ from Keeps.bind (keeps_onReceiveState _) fun _=>.pure _) _

end QuicOneRttState

namespace QuicConnectionState

variable {connection : QuicConnectionState}

lemma emits_send {state after : QuicOneRttState}
    {sent : QuicOneRttPacketSendResult} (hne : state.nextPacketNumber = connection.oneRtt.nextPacketNumber)
    (h : send C connection.sendKeys connection.peerConnectionId payload state = .ok sent after) :
    Emits C connection [sent] { connection with oneRtt := after } := by
 obtain ⟨⟨length,_,he⟩,_,hn,rfl⟩:=send_eq_ok h
 refine ⟨rfl,?_,congrArg (· + 1) hne,?_⟩
 · rw [map_singleton,hn,hne]
   rfl
 · refine forall_mem_singleton.mpr ⟨connection.peerConnectionId,length,payload,?_⟩
   rw [hn]
   exact he

/-- A computation of the connection emits the packets of what it returns, and none if it throws. -/
def Emitting {α : Type} (C : Ciphers) (packets : α → List QuicOneRttPacketSendResult)
    (connection : QuicConnectionState) :
    EStateM.Result Thrown QuicConnectionState α → Prop
  | .ok a after => Emits C connection (packets a) after
  | .error _ after => Emits C connection [] after

lemma emitting_return {pkts : α → List QuicOneRttPacketSendResult}
    {m : EStateM Thrown QuicConnectionState α} (h : Emitting C pkts connection (m connection)) :
    Emitting C id connection ((do let a ← m; return pkts a) connection) := by
 cases hm : m connection with
 | ok a after =>
  rw [hm] at h
  rw [bind_ok hm]
  exact h
 | error e after =>
  rw [hm] at h
  rw [bind_error hm]
  exact h

lemma emitting_sendFrames (fb : Bytes) (connection : QuicConnectionState) :
    Emitting C (fun sent => [sent]) connection (sendFrames C fb connection) := by
 rw [sendFrames,onOneRtt,zoom]
 cases h : send C connection.sendKeys connection.peerConnectionId fb connection.oneRtt with
 | ok sent after => exact emits_send rfl h
 | error e after => exact .none rfl (by rw [send_error h])

lemma emitting_sendApplicationClose (errorCode : ℕ) (reasonPhrase : Bytes) (connection : QuicConnectionState) :
    Emitting C (fun sent => [sent]) connection (sendApplicationClose C errorCode reasonPhrase connection) := by
 rw [sendApplicationClose]
 cases encodeQuicApplicationConnectionCloseFrame errorCode reasonPhrase with
 | ok fb =>
  exact emitting_sendFrames fb connection
 | error e => exact .none rfl rfl

lemma emitting_sendStream (sid : ℕ) (data : Bytes) (fin : Bool) (connection : QuicConnectionState) :
    Emitting C (fun sent => [sent.toQuicOneRttPacketSendResult]) connection
      (sendStream C sid data fin connection) := by
 rw [sendStream,onOneRtt,zoom]
 by_cases hmax : connection.oneRtt.nextPacketNumber = quicMaxPacketNumber
 · rw [sendStream_of_exhausted hmax]
   exact .none rfl rfl
 · cases hst : connection.oneRtt.sendState.send sid data fin with
   | error e =>
    rw [sendStream_of_refused hmax hst]
    exact .none rfl rfl
   | ok accepted =>
    obtain ⟨stream,sendState⟩:=accepted
    rw [sendStream_eq hst hmax]
    cases hs : send C connection.sendKeys connection.peerConnectionId stream.frameBytes
      { connection.oneRtt with sendState := sendState } with
    | ok sent after =>
     rw [bind_ok hs]
     have hn : ({ connection.oneRtt with sendState := sendState } : QuicOneRttState).nextPacketNumber =
      connection.oneRtt.nextPacketNumber := rfl
     exact emits_send hn hs
    | error e after =>
     rw [bind_error hs]
     exact .none rfl (by rw [send_error hs])

lemma emitting_acknowledge {state : QuicOneRttState} (ackFrame : Option Bytes)
    (hn : state.nextPacketNumber = connection.oneRtt.nextPacketNumber) :
    match connection.acknowledge C ackFrame state with
    | .ok ackPacket after => Emits C connection ackPacket.toList { connection with oneRtt := after }
    | .error _ after => Emits C connection [] { connection with oneRtt := after } := by
 cases ackFrame with
 | none => exact .none rfl hn
 | some ackFrame =>
  rw [acknowledge]
  cases hs : send C connection.sendKeys connection.peerConnectionId ackFrame state with
  | ok sent after =>
   rw [bind_ok hs]
   exact emits_send hn hs
  | error e after =>
   rw [bind_error hs]
   exact .none rfl (by rw [send_error hs]; exact hn)

lemma emitting_receive (pkt : Bytes) (ackDelay : ℕ) (connection : QuicConnectionState) :
    Emitting C (fun rec => rec.ackPacket.toList) connection (receive C pkt ackDelay connection) := by
 rw [receive,onOneRtt,zoom]
 have hr:=keeps_receive (C := C) pkt connection.receiveKeys
  connection.localConnectionId.length 0 ackDelay connection.oneRtt
 cases hre : QuicOneRttState.receive C pkt connection.receiveKeys connection.localConnectionId.length 0 ackDelay
   connection.oneRtt with
 | error e after =>
  rw [hre] at hr
  rw [bind_error hre]
  exact .none rfl hr
 | ok result after =>
  rw [hre] at hr
  rw [bind_ok hre]
  have hl:=keeps_onSendState
   (applyFlowControlFrames result.frames) after
  cases hra : onSendState (applyFlowControlFrames result.frames) after with
  | error e raised =>
   rw [hra] at hl
   rw [bind_error hra]
   exact .none rfl (hl.trans hr)
  | ok _ raised =>
   rw [hra] at hl
   rw [bind_ok hra]
   have hn : raised.nextPacketNumber = connection.oneRtt.nextPacketNumber := hl.trans hr
   have ha:=emitting_acknowledge (C := C) result.ackFrame hn
   cases hs : connection.acknowledge C result.ackFrame raised with
   | error e last =>
    rw [hs] at ha
    rw [bind_error hs]
    exact ha
   | ok ackPacket last =>
    rw [hs] at ha
    rw [bind_ok hs]
    exact ha

lemma emitting_perform (call : ConnectionCall) (connection : QuicConnectionState) :
    Emitting C id connection (connection.perform C call) := by
 cases call with
 | sendStream sid data fin => exact emitting_return (emitting_sendStream sid data fin connection)
 | sendFrames fb => exact emitting_return (emitting_sendFrames fb connection)
 | sendApplicationClose errorCode reasonPhrase =>
  exact emitting_return (emitting_sendApplicationClose errorCode reasonPhrase connection)
 | receive pkt ackDelay => exact emitting_return (emitting_receive pkt ackDelay connection)

end QuicConnectionState

open Emission

lemma Emission.emits {connection : QuicConnectionState} {emission : Emission} {calls : List ConnectionCall}
    (h : Runs (step C) ⟨connection, []⟩ calls emission) :
    Emits C connection emission.emitted emission.connection := by
 refine h.invariant (fun emission=>Emits C connection emission.emitted emission.connection) (.none rfl rfl) ?_
 intro before call after hbefore hs
 have hc:=QuicConnectionState.emitting_perform (C := C) call before.connection
 rw [step] at hs
 cases hp : before.connection.perform C call with
 | ok sent next =>
  rw [hp] at hs hc
  cases hs
  exact hbefore.append hc
 | error e next =>
  rw [hp] at hs hc
  cases hs
  have ha:=hbefore.append hc
  rwa [append_nil] at ha

/-- The packets of a connection are numbered one after the other, so no nonce is used twice with its key. -/
theorem nonces_never_reused {connection : QuicConnectionState} {emission : Emission} {calls : List ConnectionCall}
    (h : Runs (Emission.step C) ⟨connection, []⟩ calls emission) :
    emission.emitted.map QuicOneRttPacketSendResult.packetNumber =
        List.range' connection.oneRtt.nextPacketNumber emission.emitted.length ∧
      (∀ packetIv nonce n m, quicPacketNonce packetIv n = .ok nonce → quicPacketNonce packetIv m = .ok nonce → n = m) ∧
      (∀ sent ∈ emission.emitted, ∃ nonce, quicPacketNonce connection.sendKeys.packetIv sent.packetNumber = .ok nonce ∧
        SealedWith C connection.sendKeys nonce sent.packet) ∧
      emission.emitted.Pairwise fun sent other => ∀ nonce,
        quicPacketNonce connection.sendKeys.packetIv sent.packetNumber = .ok nonce →
          quicPacketNonce connection.sendKeys.packetIv other.packetNumber ≠ .ok nonce := by
 have he:=emits h
 refine ⟨he.numbers,fun _ _ _ _=>quicPacketNonce_injective,?_,?_⟩
 · intro sent hs
   obtain ⟨id,length,payload,hen⟩:=he.encrypted sent hs
   exact sealedWith_of_encrypt hen
 · have hn : (emission.emitted.map packetNumber).Nodup := by
    rw [he.numbers]
    exact nodup_range'
   refine (pairwise_map.mp hn).imp ?_
   intro sent other hne nonce hno ho
   exact hne (quicPacketNonce_injective hno ho)

theorem three_packets_three_nonces : ∃ connection emission, establishedConnection .client = .ok connection ∧
      Runs (Emission.step plainCiphers) ⟨connection, []⟩
        [.sendStream 0 [0x61] false, .sendFrames [], .sendFrames [1, 1, 1], .sendApplicationClose 0 []] emission ∧
      emission.emitted.map QuicOneRttPacketSendResult.packetNumber = [0, 1, 2] ∧
      emission.emitted.Pairwise fun sent other => ∀ nonce,
        quicPacketNonce connection.sendKeys.packetIv sent.packetNumber = .ok nonce →
          quicPacketNonce connection.sendKeys.packetIv other.packetNumber ≠ .ok nonce := by
 exact exists₂_and₃ (by decide +kernel) fun connection emission _ hr _=>(nonces_never_reused hr).2.2.2

end Enlace.Quic
