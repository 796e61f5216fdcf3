import Enlace.Quic.RelayDriver

set_option autoImplicit false

/-! What an unreadable packet takes with it from the datagram it came in. -/
namespace Enlace.Quic
open ByteString Fallible Enlace.Lite QuicRelayClientDriver QuicConnectionState
open Throwing (untilTrue untilTrue_cons_error outcome final Simulates bind_error bind_ok final_zoom lift_ok
 outcome_zoom)

variable {C : Ciphers} {σ η θ : Type}

/-- A datagram and the same with one more packet, which the connection cannot read. -/
structure Inserts (C : Ciphers) (connection : QuicConnectionState) (datagrams inserted : Datagrams)
    (ahead : List Bytes) (packet : Bytes) (behind : List Bytes) : Prop where
  sender : inserted.endpointId = datagrams.endpointId
  split : splitRelayDatagramPackets datagrams = .ok (ahead ++ behind)
  splitInserted : splitRelayDatagramPackets inserted = .ok (ahead ++ packet :: behind)
  short : isShortHeaderPacket packet = .ok true
  unreadable : ∀ reached, untilTrue (QuicConnectionState.take C) ahead connection = .ok false reached →
    ∃ e, receiveQuicOneRttPacket C packet reached.receiveKeys reached.localConnectionId.length
      reached.oneRtt.largestReceivedPacketNumber 0 = .error e

def SameYield {τ : Type} (connection : τ → Option QuicConnectionState)
    (first second : EStateM.Result Thrown τ QuicRelayReceiveResult) : Prop :=
  (outcome first).toOption = (outcome second).toOption ∧ connection (final first) = connection (final second)

namespace QuicRelayDriver

variable {step : HandshakeStep σ} {peerEndpointId : Bytes} {ecn : Option EcnCodepoint} {driver : QuicRelayDriver σ}
  {datagrams : Datagrams}

section
variable {connection : QuicConnectionState} {packets : List Bytes} {after : ConnectedCall}
  (hconnection : driver.connection = some connection) (hsplit : splitRelayDatagramPackets datagrams = .ok packets)
include hconnection hsplit

lemma receive_connected_ok {closed : Bool}
    (h : untilTrue (receiveConnectedPacket C peerEndpointId ecn) packets ⟨connection, [], [], driver.taken⟩ =
      .ok closed after) :
    receive C step peerEndpointId ecn datagrams driver = .ok ⟨after.outgoing, after.streamOutputs, true, closed⟩
        { driver with connection := some after.connection, taken := after.taken } := by
 rw [receive_of_split hsplit,collecting,receivePackets_connected hconnection (by simp)]
 rw [DriverCall.onConnection_ok h]
 rfl

lemma receive_connected_error {e : Thrown}
    (h : untilTrue (receiveConnectedPacket C peerEndpointId ecn) packets ⟨connection, [], [], driver.taken⟩ =
      .error e after) : receive C step peerEndpointId ecn datagrams driver =
      .error e { driver with connection := some after.connection, taken := after.taken } := by
 rw [receive_of_split hsplit,collecting,receivePackets_connected hconnection (by simp)]
 rw [DriverCall.onConnection_error h]
 rfl

end

lemma receiveConnectedPacket_unreadable {call : ConnectedCall} {pkt : Bytes} {e : Thrown}
    (hs : isShortHeaderPacket pkt = .ok true)
    (h : receiveQuicOneRttPacket C pkt call.connection.receiveKeys call.connection.localConnectionId.length
      call.connection.oneRtt.largestReceivedPacketNumber 0 = .error e) :
    receiveConnectedPacket C peerEndpointId ecn pkt call = .error e call := by
 have hd : call.connection.decode C pkt = .error e := by
  rw [decode,h,error_bind]
 rw [receiveConnectedPacket,hs,bind_ok (lift_ok true call),if_pos rfl]
 exact bind_error (Throwing.zoom_eq_error.mpr ⟨call.connection,receive_of_decode_error hd,rfl⟩)

lemma receive_sameYield_iff {inserted : Datagrams} {connection : QuicConnectionState} {ahead behind : List Bytes}
    {pkt : Bytes} (h : Inserts C connection datagrams inserted ahead pkt behind)
    (hconnection : driver.connection = some connection) :
    SameYield QuicRelayDriver.connection (receive C step peerEndpointId ecn inserted driver)
        (receive C step peerEndpointId ecn datagrams driver) ↔
      ∀ reached, untilTrue (take C) ahead connection = .ok false reached →
        ∃ e, untilTrue (take C) behind reached = .error e reached := by
 have ht:=Simulates.untilTrue (receiveConnectedPacket_simulates (C := C) peerEndpointId ecn)
 have hl : ∀ rest, untilTrue (receiveConnectedPacket C peerEndpointId ecn) (ahead ++ rest)
   ⟨connection,[],[],driver.taken⟩ = _ := fun rest=>Throwing.untilTrue_append
 cases ha : untilTrue (receiveConnectedPacket C peerEndpointId ecn) ahead ⟨connection,[],[],driver.taken⟩ with
 | error e after =>
  rw [ha] at hl
  rw [receive_connected_error hconnection h.split (hl behind),
   receive_connected_error hconnection h.splitInserted (hl (pkt :: behind))]
  refine iff_of_true ⟨rfl,rfl⟩ ?_
  intro reached hr
  cases ((ht ahead).eq_error ha).symm.trans hr
 | ok closed after =>
  rw [ha] at hl
  cases closed with
  | true =>
   rw [receive_connected_ok hconnection h.split (hl behind),
    receive_connected_ok hconnection h.splitInserted (hl (pkt :: behind))]
   refine iff_of_true ⟨rfl,rfl⟩ ?_
   intro reached hr
   cases ((ht ahead).eq_ok ha).symm.trans hr
  | false =>
   have hr:=(ht ahead).eq_ok ha
   obtain ⟨e,hu⟩:=h.unreadable after.connection hr
   have hst : untilTrue (receiveConnectedPacket C peerEndpointId ecn) (pkt :: behind) after = .error e after :=
    untilTrue_cons_error (receiveConnectedPacket_unreadable h.short hu)
   rw [receive_connected_error hconnection h.splitInserted ((hl (pkt :: behind)).trans hst)]
   -- only a datagram that throws at the same state anyway yields the same
   cases hb : untilTrue (receiveConnectedPacket C peerEndpointId ecn) behind after with
   | ok closed last =>
    rw [receive_connected_ok hconnection h.split ((hl behind).trans hb)]
    refine iff_of_false (fun hs=>by cases hs.1) ?_
    intro hth
    obtain ⟨e',he'⟩:=hth _ hr
    cases ((ht behind).eq_ok hb).symm.trans he'
   | error e' last =>
    have htn:=(ht behind).eq_error hb
    rw [receive_connected_error hconnection h.split ((hl behind).trans hb)]
    constructor
    · rintro ⟨_,hs⟩ reached hp
      cases hr.symm.trans hp
      refine ⟨e',htn.trans ?_⟩
      rw [← Option.some.inj hs]
    · intro hth
      obtain ⟨e'',he''⟩:=hth _ hr
      refine ⟨rfl,congrArg some ?_⟩
      exact congrArg final (he''.symm.trans htn)

end QuicRelayDriver

section
variable {H : ClientHandshake η} {S : ServerHandshake θ} {datagrams : Datagrams}

/-- A packet that cannot be read is dropped alone just where the packets ahead of it end the call, or those behind it
throw before they have changed the connection. -/
theorem unreadable_packet_dropped_iff (H : ClientHandshake η) (S : ServerHandshake θ)
    {inserted : Datagrams} {connection : QuicConnectionState} {ahead behind : List Bytes} {packet : Bytes}
    (h : Inserts C connection datagrams inserted ahead packet behind) :
    (∀ driver : QuicRelayClientDriver η, driver.connection = some connection →
      (SameYield (fun driver => driver.connection) (QuicRelayClientDriver.receive C H inserted driver)
          (QuicRelayClientDriver.receive C H datagrams driver) ↔
        (datagrams.endpointId = driver.peerEndpointId →
          ∀ reached, untilTrue (QuicConnectionState.take C) ahead connection = .ok false reached →
            ∃ e, untilTrue (QuicConnectionState.take C) behind reached = .error e reached))) ∧
    ∀ driver : QuicRelayServerDriver θ, driver.connection = some connection →
      (SameYield (fun driver => driver.connection) (QuicRelayServerDriver.receive C S inserted driver)
          (QuicRelayServerDriver.receive C S datagrams driver) ↔
        (driver.Expects datagrams →
          ∀ reached, untilTrue (QuicConnectionState.take C) ahead connection = .ok false reached →
            ∃ e, untilTrue (QuicConnectionState.take C) behind reached = .error e reached)) := by
 constructor
 · intro driver hconnection
   by_cases hpeer : datagrams.endpointId = driver.peerEndpointId
   · rw [receive_of_peer hpeer,receive_of_peer (h.sender.trans hpeer), SameYield,onDriver,outcome_zoom,
      outcome_zoom,final_zoom,final_zoom,forall_prop_of_true hpeer]
     exact QuicRelayDriver.receive_sameYield_iff h hconnection
   · rw [receive_of_stranger hpeer, receive_of_stranger (by rwa [h.sender])]
     exact iff_of_true ⟨rfl,rfl⟩ fun hs=>absurd hs hpeer
 · intro driver hconnection
   by_cases hpeer : driver.Expects datagrams
   · have hp' : driver.Expects inserted := by
      rwa [QuicRelayServerDriver.Expects,h.sender]
     rw [QuicRelayServerDriver.receive_of_peer hpeer,QuicRelayServerDriver.receive_of_peer hp',h.sender,
      SameYield,QuicRelayServerDriver.onDriver,outcome_zoom,
      outcome_zoom,final_zoom,final_zoom,forall_prop_of_true hpeer]
     exact QuicRelayDriver.receive_sameYield_iff h hconnection
   · have hp' : ¬ driver.Expects inserted := by
      rwa [QuicRelayServerDriver.Expects,h.sender]
     rw [QuicRelayServerDriver.receive_of_stranger hpeer,QuicRelayServerDriver.receive_of_stranger hp']
     exact iff_of_true ⟨rfl,rfl⟩ fun hs=>absurd hs hpeer

end

lemma receiveQuicOneRttPacket_unset (keys : QuicDirectionalKeys) (length : ℕ) (largest : Option ℕ) :
    ∃ e, receiveQuicOneRttPacket C [0x00] keys length largest 0 = .error e := by
 rw [receiveQuicOneRttPacket]
 cases nextExpectedQuicPacketNumber largest with
 | error e => exact ⟨e,rfl⟩
 | ok expected =>
  rw [ok_bind,decryptQuicOneRttPacket,parseQuicOneRttPacketHeaderPrefix]
  by_cases hl : length > maxSafeInteger
  · rw [throwIf,if_pos hl]
    exact ⟨_,rfl⟩
  · rw [throwIf_neg hl]
    exact ⟨_,rfl⟩

/-- Of two unreadable packets one more or less makes no difference. -/
theorem unreadable_packet_dropped_beside_another : ∃ connection, establishedConnection .client = .ok connection ∧
      SameYield (fun driver => driver.connection)
        (QuicRelayClientDriver.receive plainCiphers (handshakeTo connection)
          ⟨relayPeer, none, some 1, [0x00, 0x00]⟩ (clientDriver (some connection)))
        (QuicRelayClientDriver.receive plainCiphers (handshakeTo connection)
          ⟨relayPeer, none, none, [0x00]⟩ (clientDriver (some connection))) := by
 have hes : (establishedConnection .client).isOk = true := by decide +kernel
 cases hconnection : establishedConnection .client with
 | error e =>
  rw [hconnection] at hes
  cases hes
 | ok connection =>
  have hi : Inserts plainCiphers connection ⟨relayPeer,none,none,[0x00]⟩
    ⟨relayPeer,none,some 1,[0x00,0x00]⟩ [] [0x00] [[0x00]] :=
   ⟨rfl,rfl,rfl,rfl,fun _ _=>receiveQuicOneRttPacket_unset _ _ _⟩
  have hd:=unreadable_packet_dropped_iff (handshakeTo connection)
   (⟨fun _=>return ([],[]),fun _=>return connection⟩ : ServerHandshake Unit) hi
  refine ⟨connection,rfl,(hd.1 (clientDriver (some connection)) rfl).mpr ?_⟩
  intro _ reached _
  obtain ⟨e,he⟩:=receiveQuicOneRttPacket_unset (C := plainCiphers) reached.receiveKeys
   reached.localConnectionId.length reached.oneRtt.largestReceivedPacketNumber
  have hde : reached.decode plainCiphers [0x00] = .error e := by
   rw [decode,he,error_bind]
  have ht : take plainCiphers [0x00] reached = .error e reached := (bind_ok (lift_ok true reached)).trans
    (bind_error (receive_of_decode_error hde))
  exact ⟨e,untilTrue_cons_error ht⟩

def forgedPacket : Bytes := 0x40 :: (clientConnectionId ++ List.replicate 21 0)

def delivered (driver : QuicRelayClientDriver Unit) : Option ℕ :=
  driver.connection.map fun connection => (connection.oneRtt.receiveState.streams 0).readOffset

lemma exists_error_of_isOk {ε α : Type} {x : Except ε α} (h : x.isOk = false) : ∃ e, x = .error e := by
 cases x with
 | error e => exact ⟨e,rfl⟩
 | ok a => cases h

/-- Behind a packet with one byte of data comes a forged one, and the byte is lost. -/
theorem forged_packet_withholds_data : ∃ connection packet, establishedConnection .client = .ok connection ∧
      encryptQuicOneRttPacket plainCiphers plainKeys clientConnectionId 0 1 [0x0a, 0x00, 0x01, 0x61] = .ok packet ∧
      let datagrams := packetToRelayDatagrams relayPeer none packet
      let inserted : Datagrams := ⟨relayPeer,none,some packet.length,packet ++ forgedPacket⟩
      let driver := clientDriver (some connection)
      let receive := receive plainCiphers (handshakeTo connection)
      Inserts plainCiphers connection datagrams inserted [packet] forgedPacket [] ∧
        (outcome (receive datagrams driver)).toOption.map (fun result => result.streamOutputs.map (·.data)) =
          some [[0x61]] ∧
        delivered (final (receive datagrams driver)) = some 1 ∧
        (outcome (receive inserted driver)).isOk = false ∧ delivered (final (receive inserted driver)) = some 1 ∧
        ¬ SameYield (fun driver => driver.connection) (receive inserted driver) (receive datagrams driver) := by
 have hev : (do
   let connection ← establishedConnection .client
   let packet ← encryptQuicOneRttPacket plainCiphers plainKeys clientConnectionId 0 1 [0x0a,0x00,0x01,0x61]
   let packets ← splitRelayDatagramPackets (packetToRelayDatagrams relayPeer none packet)
   let withForged ← splitRelayDatagramPackets ⟨relayPeer,none,some packet.length,packet ++ forgedPacket⟩
   let driver:=clientDriver (some connection)
   let receive:=receive plainCiphers (handshakeTo connection)
   let alone:=receive (packetToRelayDatagrams relayPeer none packet) driver
   let beside:=receive ⟨relayPeer,none,some packet.length,packet ++ forgedPacket⟩ driver
   let reached:=final (untilTrue (take plainCiphers) [packet] connection)
   return decide (packets = [packet] ∧ withForged = [packet,forgedPacket] ∧
    (outcome alone).toOption.map (fun result=>result.streamOutputs.map (·.data)) = some [[0x61]] ∧
    delivered (final alone) = some 1 ∧ (outcome beside).isOk = false ∧ delivered (final beside) = some 1 ∧
    (receiveQuicOneRttPacket plainCiphers forgedPacket reached.receiveKeys reached.localConnectionId.length
     reached.oneRtt.largestReceivedPacketNumber 0).isOk = false)) = (.ok true : Outcome _) := by
  decide +kernel
 simp only [bind_eq_ok,pure_eq_ok,decide_eq_true_eq] at hev
 obtain ⟨connection,hconnection,packet,hp,packets,hsplit,withForged,hs,rfl,rfl,ho,hc,ht,hl,hf⟩ := hev
 have hi : Inserts plainCiphers connection (packetToRelayDatagrams relayPeer none packet)
   ⟨relayPeer,none,some packet.length,packet ++ forgedPacket⟩ [packet] forgedPacket [] := by
  refine ⟨rfl,hsplit,hs,rfl,?_⟩
  intro reached hr
  rw [hr] at hf
  exact exists_error_of_isOk hf
 refine ⟨connection,packet,hconnection,hp,hi,ho,hc,ht,hl,?_⟩
 intro hsa
 obtain ⟨e,he⟩:=exists_error_of_isOk ht
 rw [← hsa.1,he] at ho
 cases ho

end Enlace.Quic
