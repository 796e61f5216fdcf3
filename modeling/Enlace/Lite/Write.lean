import Enlace.Lite.Connection

set_option autoImplicit false

/-! What becomes of a stream write on its way to the relay socket. -/
namespace Enlace.Lite
open ByteString Enlace.Crypto Enlace.Quic List Throwing ReconnectingRelayTransport QuicConnectionState QuicOneRttState
open QuicStreamSendState Connection Wired

variable {C : Ciphers} {P : Primitives} {η θ : Type} {streamId : ℕ} {data : Bytes} {fin : Bool}

namespace Wired

def progress (streamId : ℕ) (wired : Wired η θ) : Option (ℕ × ℕ × ℕ) :=
  wired.connection.driver.connection.map fun connection =>
    ((connection.oneRtt.sendState.streams streamId).offset, connection.oneRtt.sendState.sentData,
      connection.oneRtt.nextPacketNumber)

/-- A write that throws has sent nothing, one that returns has given one frame to the socket, and neither costs the
client. -/
def SentOrRefused (P : Primitives) (streamId : ℕ) (before : Wired η θ) :
    EStateM.Result Thrown (Wired η θ) QuicRelayStreamSendResult → Prop
  | .error _ after =>
    after.progress streamId = before.progress streamId ∧ after.transport.client = before.transport.client
  | .ok sent after => after.transport.client = before.transport.client ∧
    ∃ client frame, before.transport.client = some client ∧ encodeClientToRelayFrame P sent.datagrams = .ok frame ∧
      after.transport.written = before.transport.written ++ [(client.socket, frame)]

end Wired

def relayFrameSize (connection : QuicConnectionState) (streamId : ℕ) (data : Bytes) : ℕ :=
  1 + (endpointIdLength + ((1 + connection.peerConnectionId.length +
    packetNumberLength connection.oneRtt.nextPacketNumber +
    streamFrameLength streamId (connection.oneRtt.sendState.streams streamId).offset data.length +
    quicAes128GcmTagLength) + 1))

variable {after : QuicConnectionState} {sent : QuicOneRttStreamPacketSendResult}

section
variable {wired : Wired η θ} {connection : QuicConnectionState} {peer : Bytes}
  (hconnection : wired.connection.driver.connection = some connection)
  (hpeer : wired.connection.driver.peerEndpointId = some peer) (hopen : wired.connection.closed = false)
include hconnection hpeer hopen

lemma sendStream_refused {e : Thrown} (h : sendStream C streamId data fin connection = .error e connection) :
    wired.SentOrRefused P streamId (sendStream C P streamId data fin wired) := by
 have hw : onConnection (write C streamId data fin) wired = .error e _ :=
  zoom_eq_error.mpr ⟨_,write_error hconnection hpeer hopen h,rfl⟩
 rw [Wired.sendStream,bind_error hw]
 refine ⟨?_,rfl⟩
 rw [Wired.progress,Wired.progress,hconnection,EndpointConnectionDriver.connection_withConnection]

lemma sendStream_accepted {tr : ReconnectingRelayTransport}
    (h : sendStream C streamId data fin connection = .ok sent after) (ht : sendDatagrams P
      (packetToRelayDatagrams peer wired.connection.driver.ecn sent.packet) wired.transport = .ok () tr) :
    sendStream C P streamId data fin wired =
      .ok ⟨packetToRelayDatagrams peer wired.connection.driver.ecn sent.packet, sent.packetNumber, sent.stream⟩
        ⟨{ wired.connection with driver := wired.connection.driver.withConnection after }, tr⟩ := by
 have hw : onConnection (write C streamId data fin) wired = .ok _ _ :=
  zoom_eq_ok.mpr ⟨_,write_ok hconnection hpeer hopen h,rfl⟩
 rw [Wired.sendStream,bind_ok hw]
 exact bind_ok (zoom_eq_ok.mpr ⟨tr,ht,rfl⟩)

lemma sendStream_accepted_iff {client : RelayWebSocketClient} (ht : wired.transport.closed = false)
    (hc : wired.transport.client = some client) (hr : client.ready = true)
    (h : sendStream C streamId data fin connection = .ok sent after) :
    wired.SentOrRefused P streamId (sendStream C P streamId data fin wired) ↔
      ∃ frame, encodeClientToRelayFrame P (packetToRelayDatagrams peer wired.connection.driver.ecn sent.packet) =
        .ok frame := by
 cases hf : encodeClientToRelayFrame P
   (packetToRelayDatagrams peer wired.connection.driver.ecn sent.packet) with
 | ok frame =>
  rw [sendStream_accepted hconnection hpeer hopen h (sendDatagrams_of_encoded ht hc hr hf)]
  exact iff_of_true ⟨rfl,client,frame,hc,hf,rfl⟩ ⟨frame,rfl⟩
 | error e =>
  obtain ⟨lost,hl,hn,_⟩:=sendDatagrams_of_error ht hc hf
  rw [sendStream_accepted hconnection hpeer hopen h hl]
  refine iff_of_false ?_ (by rintro ⟨_,h⟩; cases h)
  rintro ⟨hs,_⟩
  cases hc.symm.trans (hs.symm.trans hn)

end

/-- A write that the stream state accepts is sent just if a relay frame can carry it. -/
theorem write_sent_iff (hC : C.AddsTag) {wired : Wired η θ} {connection : QuicConnectionState}
    {client : RelayWebSocketClient} {peer : Bytes} (hconnection : wired.connection.driver.connection = some connection)
    (hnumber : connection.oneRtt.nextPacketNumber ≤ quicMaxPacketNumber)
    (hpeer : wired.connection.driver.peerEndpointId = some peer) (hopen : wired.connection.closed = false)
    (htransport : wired.transport.closed = false) (hclient : wired.transport.client = some client)
    (hready : client.ready = true) :
    wired.SentOrRefused P streamId (Wired.sendStream C P streamId data fin wired) ↔
      (∃ e, connection.oneRtt.sendState.send streamId data fin = .error e) ∨
        connection.oneRtt.nextPacketNumber = quicMaxPacketNumber ∨
        (ValidEndpointId P peer ∧ relayFrameSize connection streamId data ≤ maxPacketSize) := by
 by_cases hmax : connection.oneRtt.nextPacketNumber = quicMaxPacketNumber
 · exact iff_of_true (sendStream_refused hconnection hpeer hopen
    (sendStream_error (sendStream_of_exhausted hmax))) (.inr (.inl hmax))
 · rw [or_iff_right hmax]
   cases hs : connection.oneRtt.sendState.send streamId data fin with
   | error e =>
    exact iff_of_true (sendStream_refused hconnection hpeer hopen
     (sendStream_error (sendStream_of_refused hmax hs))) (.inl ⟨e,rfl⟩)
   | ok accepted =>
    obtain ⟨result,after⟩:=accepted
    rw [or_iff_right (by rintro ⟨_,h⟩; cases h)]
    obtain ⟨packet,hp,hse⟩:=sendStream_of_accepted connection.sendKeys
     connection.peerConnectionId hs hC (Nat.lt_of_le_of_ne hnumber hmax)
    obtain ⟨frameBytes,hf,rfl,_⟩:=send_eq_ok hs
    have hl:=encryptQuicOneRttPacket_length hC hp
    rw [encodeQuicStreamFrame_length hf] at hl
    rw [sendStream_accepted_iff hconnection hpeer hopen htransport hclient hready
     (sendStream_ok hse),packetToRelayDatagrams]
    simp only [encodeClientToRelayFrame_single,exists_and_left]
    have hsi : relayFrameSize connection streamId data = 1+(endpointIdLength+(packet.length+1)) := by
     rw [hl]
     rfl
    have hne : packet ≠ [] := ne_nil_of_length_pos (by omega)
    rw [hsi]
    constructor
    · rintro ⟨_,hv,hlimit,_⟩
      exact ⟨hv,hlimit⟩
    · rintro ⟨hv,hlimit⟩
      exact ⟨hne,hv,hlimit,_,rfl⟩

def wiredClient (connection : QuicConnectionState) : Wired Unit Unit :=
  ⟨⟨.client (clientDriver (some connection)), fun _ => none, [], [], false⟩,
    ⟨some ⟨0, true⟩, false, false, none, relayReconnectMinDelayMs, false, false, [], []⟩⟩

lemma relayPeer_valid : ValidEndpointId plainPrimitives relayPeer := ⟨List.Vector.replicate 32 9,rfl,rfl⟩

theorem write_sent_one_byte : ∃ connection, establishedConnection .client = .ok connection ∧
      (wiredClient connection).SentOrRefused plainPrimitives 0
        (Wired.sendStream plainCiphers plainPrimitives 0 [0x61] false (wiredClient connection)) := by
 obtain ⟨connection,hconnection,hn,hid,hs⟩:=establishedConnection_client
 refine ⟨connection,hconnection,(write_sent_iff plainCiphers.addsTag rfl ?_ rfl rfl rfl rfl rfl).mpr ?_⟩
 · rw [hn]
   exact Nat.zero_le _
 · refine .inr (.inr ⟨relayPeer_valid,?_⟩)
   rw [relayFrameSize,hn,hid,hs]
   decide

/-- Flow control lets through in one write what no relay frame can carry. -/
theorem oversized_write_is_lost : ∃ connection sent after, establishedConnection .client = .ok connection ∧
      Wired.sendStream plainCiphers plainPrimitives 0 (List.replicate 65536 0x61) false (wiredClient connection) =
        .ok sent after ∧
      (wiredClient connection).progress 0 = some (0, 0, 0) ∧ after.progress 0 = some (65536, 65536, 1) ∧
      after.transport.written = [] ∧ after.transport.client = none ∧
      ¬ (wiredClient connection).SentOrRefused plainPrimitives 0 (.ok sent after) := by
 obtain ⟨connection,hconnection,hn,hid,hs⟩:=establishedConnection_client
 have hl : (replicate 65536 (0x61 : UInt8)).length = 65536 := length_replicate
 obtain ⟨⟨result,state⟩,hse⟩ : ∃ sent, connection.oneRtt.sendState.send 0 (replicate 65536 0x61) false =
   .ok sent := by
  rw [hs]
  refine send_of_credit (Nat.zero_le _) ?_ ?_ rfl
  · rw [hl]
    decide
  · rw [hl]
    decide
 obtain ⟨packet,hpa,hst⟩:=sendStream_of_accepted connection.sendKeys
  connection.peerConnectionId hse plainCiphers.addsTag (by rw [hn]; decide)
 obtain ⟨frameBytes,hf,rfl,rfl⟩:=QuicStreamSendState.send_eq_ok hse
 have hp:=encryptQuicOneRttPacket_length plainCiphers.addsTag hpa
 have ht : maxPacketSize < 1+(endpointIdLength+(packet.length+1)) := by
  rw [hp,encodeQuicStreamFrame_length hf,streamFrameLength]
  have hmax : maxPacketSize = 65536 := rfl
  omega
 cases he : encodeClientToRelayFrame plainPrimitives (packetToRelayDatagrams relayPeer none packet) with
 | ok frame =>
  obtain ⟨_,_,hlimit,_⟩:=encodeClientToRelayFrame_single.mp he
  omega
 | error e =>
  have hopen : (wiredClient connection).transport.closed = false := rfl
  obtain ⟨lost,hlo,hno,hw⟩:=sendDatagrams_of_error hopen rfl he
  have hd : (wiredClient connection).connection.driver.connection = some connection := rfl
  have hwr:=sendStream_accepted hd rfl rfl (sendStream_ok hst) hlo
  refine ⟨connection,_,_,hconnection,hwr,?_,?_,hw,hno,?_⟩
  · change some ((connection.oneRtt.sendState.streams 0).offset,connection.oneRtt.sendState.sentData,
     connection.oneRtt.nextPacketNumber) = _
    rw [hn,hs]
  · rw [Wired.progress,EndpointConnectionDriver.connection_withConnection]
    simp only [Option.map_some,Function.update_self,hn,hs,hl]
  · rintro ⟨hsa,_⟩
    cases hno.symm.trans hsa

end Enlace.Lite
