import Enlace.Quic.RelayDriver

set_option autoImplicit false

/-! Which packets a driver's `receive` hands to the connection, and what it reports of a close. -/
namespace Enlace.Quic
open ByteString Fallible Enlace.Lite List QuicRelayClientDriver DriverCall
open Throwing (lift zoom untilTrue untilTrue_cons_false untilTrue_cons_true untilTrue_cons_error outcome final
  Simulates)

variable {C : Ciphers} {σ η θ : Type}

/-- The packets taken leave the connection open, but for the last one if a close is reported. -/
def Took (before after : List (Bytes × Bool)) (closed : Option Bool) : Prop :=
  ∃ front, (∀ packet ∈ front, packet.2 = false) ∧ ((closed ≠ some true ∧ after = before ++ front) ∨
      (closed = some true ∧ ∃ packet, after = before ++ front ++ [(packet, true)]))

/-- A close that was found among the packets taken is reported, and nothing was taken after it. -/
def NeverMissed (before after : List (Bytes × Bool)) (closed : Option Bool) : Prop :=
  ∀ front packet rest, after = before ++ front ++ (packet, true) :: rest → rest = [] ∧ closed = some true

variable {closed : Option Bool}

lemma Took.refl {taken : List (Bytes × Bool)} (h : closed ≠ some true) : Took taken taken closed :=
 ⟨[],nofun,.inl ⟨h,(append_nil taken).symm⟩⟩

variable {after before middle : List (Bytes × Bool)} {e : Thrown} {α : Type}

lemma Took.trans
    (hf : Took before middle (some false)) (hrest : Took middle after closed) : Took before after closed := by
 obtain ⟨front,hfr,⟨_,rfl⟩|⟨hc,_⟩⟩:=hf
 · obtain ⟨more,hm,hca⟩:=hrest
   refine ⟨front ++ more,?_,?_⟩
   · intro packet hme
     rcases mem_append.mp hme with hme|hme
     · exact hfr packet hme
     · exact hm packet hme
   · simpa only [append_assoc] using hca
 · cases hc

lemma Took.neverMissed (h : Took before after closed) : NeverMissed before after closed := by
 obtain ⟨front,hf,⟨hopen,rfl⟩|⟨hc,last,rfl⟩⟩:=h
 · intro first packet rest heq
   rw [append_assoc,append_cancel_left_eq] at heq
   have hm : (packet,true) ∈ front := by simp [heq]
   cases hf _ hm
 · intro first packet rest heq
   refine ⟨?_,hc⟩
   rw [append_assoc,append_assoc,append_cancel_left_eq] at heq
   -- a `true` that is not at the end would be in the front
   rcases eq_nil_or_concat rest with hn|⟨rest,x,rfl⟩
   · exact hn
   · have hi : front = first ++ (packet,true) :: rest := by
      have hs : front ++ [(last,true)] = (first ++ (packet,true) :: rest) ++ [x] := by simpa using heq
      exact (append_inj' hs rfl).1
     have hm : (packet,true) ∈ front := by simp [hi]
     cases hf _ hm

lemma Took.missed (hf : Took before middle (some true)) (hrest : Took middle after closed) :
    ¬ NeverMissed before after closed := by
 intro h
 obtain ⟨front,_,⟨hopen,_⟩|⟨_,packet,rfl⟩⟩:=hf
 · exact hopen rfl
 · obtain ⟨more,_,⟨hopen,rfl⟩|⟨_,last,rfl⟩⟩:=hrest
   · exact hopen (h front packet more (by simp)).2
   · have hn:=(h front packet (more ++ [(last,true)]) (by simp)).1
     simp at hn

open Throwing (bind_congr bind_error bind_ok final_zoom get_bind lift_ok outcome_zoom zoom_eq_error zoom_eq_ok)

open Took

lemma receiveConnectedPacket_took (peerEndpointId : Bytes) (ecn : Option EcnCodepoint) (packet : Bytes)
    (call : ConnectedCall) : Took call.taken (final (receiveConnectedPacket C peerEndpointId ecn packet call)).taken
      (outcome (receiveConnectedPacket C peerEndpointId ecn packet call)).toOption := by
 rw [receiveConnectedPacket]
 cases isShortHeaderPacket packet with
 | error e => exact refl (show none ≠ some true by decide)
 | ok short =>
  rw [bind_ok (lift_ok short _)]
  cases short with
  | false => exact refl (show some false ≠ some true by decide)
  | true =>
   rw [if_pos rfl]
   cases h : ConnectedCall.onConnection (QuicConnectionState.receive C packet 0) call with
   | error e after =>
    obtain ⟨_,_,rfl⟩:=zoom_eq_error.mp h
    rw [bind_error h]
    exact refl (show none ≠ some true by decide)
   | ok rec after =>
    obtain ⟨_,_,rfl⟩:=zoom_eq_ok.mp h
    rw [bind_ok h]
    change Took call.taken (call.taken ++ [(packet,rec.connectionClosed)])
     (some rec.connectionClosed)
    cases rec.connectionClosed with
    | false => exact ⟨[(packet,false)],by simp,.inl ⟨by decide,rfl⟩⟩
    | true => exact ⟨[],by simp,.inr ⟨rfl,packet,by simp⟩⟩

lemma untilTrue_took (peerEndpointId : Bytes) (ecn : Option EcnCodepoint) (pkts : List Bytes)
    (call : ConnectedCall) :
    Took call.taken (final (untilTrue (receiveConnectedPacket C peerEndpointId ecn) pkts call)).taken
      (outcome (untilTrue (receiveConnectedPacket C peerEndpointId ecn) pkts call)).toOption := by
 induction pkts generalizing call with
 | nil => exact refl (show some false ≠ some true by decide)
 | cons packet pkts ih =>
  have hr:=receiveConnectedPacket_took (C := C) peerEndpointId ecn packet call
  cases h : receiveConnectedPacket C peerEndpointId ecn packet call with
  | error e after =>
   rw [untilTrue_cons_error h]
   rwa [h] at hr
  | ok closed after =>
   rw [h] at hr
   cases closed with
   | true => rwa [untilTrue_cons_true h]
   | false =>
    rw [untilTrue_cons_false h]
    exact hr.trans (ih after)

/-- The handshake on its own: it is done with the packets it needs and holds the 1-RTT packets back. -/
def awaitHandshake (step : HandshakeStep σ) :
    List Bytes → EStateM Thrown (σ × List Bytes) (Option (QuicConnectionState × List Bytes))
  | [] => return none
  | packet :: packets => do
    let short ← lift (isShortHeaderPacket packet)
    if short then do
      modify fun (handshake, held) => (handshake, held ++ [packet])
      awaitHandshake step packets
    else do
      let (_, connection) ← zoom Prod.fst (fun state handshake => (handshake, state.2)) (step packet)
      match connection with
      | none => awaitHandshake step packets
      | some connection => return some (connection, packets)

section
variable {step : HandshakeStep σ} {peerEndpointId : Bytes} {ecn : Option EcnCodepoint}

variable {call : DriverCall σ} {connection : QuicConnectionState}

lemma receivePackets_took {closed : Bool}
    {pkts : List Bytes} (h : call.driver.connection = some connection) (hc : closed = true → pkts ≠ []) :
    Took call.driver.taken (final (receivePackets C step peerEndpointId ecn closed pkts call)).driver.taken
      (outcome (receivePackets C step peerEndpointId ecn closed pkts call)).toOption := by
 have ht:=untilTrue_took (C := C) peerEndpointId ecn pkts (call.connected connection)
 rw [receivePackets_connected h hc]
 cases hl : untilTrue (receiveConnectedPacket C peerEndpointId ecn) pkts (call.connected connection) with
 | error e after =>
  rw [hl] at ht
  rw [onConnection_error hl]
  exact ht
 | ok result after =>
  rw [hl] at ht
  rw [onConnection_ok hl]
  exact ht

lemma DriverCall.onHandshake_ok {m : EStateM Thrown σ α} {a : α} {handshake : σ}
    (h : m call.driver.handshake = .ok a handshake) :
    onHandshake m call = .ok a { call with driver := { call.driver with handshake := handshake } } :=
 zoom_eq_ok.mpr ⟨handshake,h,rfl⟩

lemma DriverCall.onHandshake_error {m : EStateM Thrown σ α}
    {handshake : σ} (h : m call.driver.handshake = .error e handshake) :
    onHandshake m call = .error e { call with driver := { call.driver with handshake := handshake } } :=
 zoom_eq_error.mpr ⟨handshake,h,rfl⟩

def DriverCall.stepped (peerEndpointId : Bytes) (ecn : Option EcnCodepoint) (sent : List Bytes) (handshake : σ)
    (call : DriverCall σ) : DriverCall σ :=
  DriverCall.send peerEndpointId ecn sent { call with driver := { call.driver with handshake := handshake } }

section
variable {call : DriverCall σ} {packet : Bytes} {closed : Bool} {sent : List Bytes} {handshake : σ}
  (hshort : isShortHeaderPacket packet = .ok false)
include hshort

lemma receiveHandshakePacket_error (hs : step packet call.driver.handshake = .error e handshake) :
    receiveHandshakePacket C step peerEndpointId ecn closed packet call =
      .error e { call with driver := { call.driver with handshake := handshake } } := by
 rw [receiveHandshakePacket,hshort,bind_ok (lift_ok false call),if_neg Bool.false_ne_true,
  bind_error (onHandshake_error hs)]

lemma receiveHandshakePacket_none (hs : step packet call.driver.handshake = .ok (sent, none) handshake) :
    receiveHandshakePacket C step peerEndpointId ecn closed packet call =
      .ok closed (call.stepped peerEndpointId ecn sent handshake) := by
 rw [receiveHandshakePacket,hshort,bind_ok (lift_ok false call),if_neg Bool.false_ne_true,bind_ok (onHandshake_ok hs)]
 rfl

lemma receiveHandshakePacket_some
    (hs : step packet call.driver.handshake = .ok (sent, some connection) handshake) :
    receiveHandshakePacket C step peerEndpointId ecn closed packet call = onConnection connection
        (drainPendingConnectedPackets C peerEndpointId ecn call.driver.pendingConnectedPackets)
        (call.stepped peerEndpointId ecn sent handshake).release := by
 rw [receiveHandshakePacket,hshort,bind_ok (lift_ok false call),if_neg Bool.false_ne_true,bind_ok (onHandshake_ok hs)]
 rfl

end

variable (C step peerEndpointId ecn) in
lemma receivePackets_await (pkts : List Bytes) (h : call.driver.connection = none) :
    match awaitHandshake step pkts (call.driver.handshake, call.driver.pendingConnectedPackets) with
    | .ok (some (connection, rest)) (_, held) =>
      ∃ later : DriverCall σ, later.driver.taken = call.driver.taken ∧
        receivePackets C step peerEndpointId ecn false pkts call = (do
          let closed ← onConnection connection (drainPendingConnectedPackets C peerEndpointId ecn held)
          receivePackets C step peerEndpointId ecn closed rest) later
    | .ok none _ => ∃ after : DriverCall σ, after.driver.taken = call.driver.taken ∧
        receivePackets C step peerEndpointId ecn false pkts call = .ok false after
    | .error e _ => ∃ after : DriverCall σ, after.driver.taken = call.driver.taken ∧
        receivePackets C step peerEndpointId ecn false pkts call = .error e after := by
 induction pkts generalizing call with
 | nil => exact ⟨call,rfl,rfl⟩
 | cons packet pkts ih =>
  have hr : receivePackets C step peerEndpointId ecn false (packet :: pkts) call =
    (receiveHandshakePacket C step peerEndpointId ecn false packet >>= fun closed=>
     receivePackets C step peerEndpointId ecn closed pkts) call := by
   rw [receivePackets,get_bind,h]
   apply Throwing.bind_congr
   rw [receivePacket,get_bind,h]
  rw [hr,awaitHandshake]
  cases hshort : isShortHeaderPacket packet with
  | error e =>
   rw [receiveHandshakePacket,hshort]
   exact ⟨call,rfl,rfl⟩
  | ok short =>
   cases short with
   | true =>
    rw [receiveHandshakePacket,hshort]
    exact @ih (call.hold packet) h
   | false =>
    rw [bind_ok (lift_ok false (call.driver.handshake,call.driver.pendingConnectedPackets)),if_neg Bool.false_ne_true]
    cases hs : step packet call.driver.handshake with
    | error e handshake =>
     have ha : zoom Prod.fst (fun state handshake=>(handshake,state.2)) (step packet)
       (call.driver.handshake,call.driver.pendingConnectedPackets) =
        .error e (handshake,call.driver.pendingConnectedPackets) :=
      zoom_eq_error.mpr ⟨handshake,hs,rfl⟩
     rw [bind_error ha]
     exact ⟨{ call with driver := { call.driver with handshake := handshake } },rfl,
      bind_error (receiveHandshakePacket_error hshort hs)⟩
    | ok result handshake =>
     have ha : zoom Prod.fst (fun state handshake=>(handshake,state.2)) (step packet)
       (call.driver.handshake,call.driver.pendingConnectedPackets) =
        .ok result (handshake,call.driver.pendingConnectedPackets) :=
      zoom_eq_ok.mpr ⟨handshake,hs,rfl⟩
     rw [bind_ok ha]
     obtain ⟨sent,connection⟩:=result
     cases connection with
     | none =>
      rw [bind_ok (receiveHandshakePacket_none hshort hs)]
      exact @ih (call.stepped peerEndpointId ecn sent handshake) h
     | some connection =>
      exact ⟨(call.stepped peerEndpointId ecn sent handshake).release,rfl,
       bind_congr (receiveHandshakePacket_some hshort hs)⟩

/-- The packets held back are drained, then the loop goes on whatever came of it. -/
theorem drain_neverMissed_iff {held rest : List Bytes} {result : EStateM.Result Thrown (DriverCall σ) Bool}
    (h : (onConnection connection (drainPendingConnectedPackets C peerEndpointId ecn held) >>=
      fun closed => receivePackets C step peerEndpointId ecn closed rest) call = result) :
    NeverMissed call.driver.taken (final result).driver.taken (outcome result).toOption ↔
      rest = [] ∨ ¬ ∃ closed, untilTrue (QuicConnectionState.take C) held connection = .ok true closed := by
 rw [← h,drainPendingConnectedPackets]
 have ht:=untilTrue_took (C := C) peerEndpointId ecn held (call.connected connection)
 have hs:=Simulates.untilTrue (receiveConnectedPacket_simulates (C := C) peerEndpointId ecn) held
 cases hd : untilTrue (receiveConnectedPacket C peerEndpointId ecn) held (call.connected connection) with
 | error e after =>
  rw [hd] at ht
  rw [bind_error (onConnection_error hd)]
  refine iff_of_true ht.neverMissed (.inr ?_)
  rintro ⟨closed,hc⟩
  cases (hs.eq_error hd).symm.trans hc
 | ok result after =>
  rw [hd] at ht
  rw [bind_ok (onConnection_ok hd)]
  cases result with
  | false =>
   refine iff_of_true (ht.trans (receivePackets_took rfl (by simp))).neverMissed (.inr ?_)
   rintro ⟨closed,hc⟩
   cases (hs.eq_ok hd).symm.trans hc
  | true =>
   have hcl : ∃ closed, untilTrue (QuicConnectionState.take C) held connection = .ok true closed :=
    ⟨after.connection,hs.eq_ok hd⟩
   rw [or_iff_left (not_not_intro hcl)]
   by_cases hrest : rest = []
   · rw [hrest]
     exact iff_of_true ht.neverMissed rfl
   · exact iff_of_false (ht.missed (receivePackets_took rfl fun _=>hrest)) hrest

end

def reported {τ : Type} (result : EStateM.Result Thrown τ QuicRelayReceiveResult) : Option Bool :=
  (outcome result).toOption.map QuicRelayReceiveResult.closed

namespace QuicRelayDriver

/-- If a datagram completes the handshake, no packet held back until then closes the connection, or no packet of the
datagram is left. -/
def NothingAfterClose (C : Ciphers) (step : HandshakeStep σ) (driver : QuicRelayDriver σ) (datagrams : Datagrams) :
    Prop :=
  ∀ packets connection rest handshake held, driver.connection = none →
    splitRelayDatagramPackets datagrams = .ok packets →
    awaitHandshake step packets (driver.handshake, driver.pendingConnectedPackets) =
      .ok (some (connection, rest)) (handshake, held) →
    rest = [] ∨ ¬ ∃ closed, untilTrue (QuicConnectionState.take C) held connection = .ok true closed

variable {step : HandshakeStep σ} {peerEndpointId : Bytes} {ecn : Option EcnCodepoint} {driver : QuicRelayDriver σ}
  {datagrams : Datagrams}

lemma final_collecting (m : EStateM Thrown (DriverCall σ) Bool) :
    final (collecting m driver) = (final (m ⟨driver, [], []⟩)).driver := by
 rw [collecting]
 cases m ⟨driver,[],[]⟩ with
 | ok closed call => rfl
 | error e call => rfl

lemma reported_collecting (m : EStateM Thrown (DriverCall σ) Bool) :
    reported (collecting m driver) = (outcome (m ⟨driver, [], []⟩)).toOption := by
 rw [collecting]
 cases m ⟨driver,[],[]⟩ with
 | ok closed call => rfl
 | error e call => rfl

lemma receive_neverMissed_iff :
    NeverMissed driver.taken (final (receive C step peerEndpointId ecn datagrams driver)).taken
        (reported (receive C step peerEndpointId ecn datagrams driver)) ↔
      driver.NothingAfterClose C step datagrams := by
 cases hs : splitRelayDatagramPackets datagrams with
 | error e =>
  rw [receive_of_split_error hs]
  refine iff_of_true (refl (show none ≠ some true by decide)).neverMissed ?_
  intro pkts _ _ _ _ _ hp
  cases hs.symm.trans hp
 | ok pkts =>
  rw [receive_of_split hs,final_collecting,reported_collecting]
  cases hc : driver.connection with
  | some connection =>
   refine iff_of_true (receivePackets_took hc (by simp)).neverMissed ?_
   intro _ _ _ _ _ hn
   cases hc.symm.trans hn
  | none =>
   have ha:=@receivePackets_await C σ step peerEndpointId ecn ⟨driver,[],[]⟩ pkts hc
   cases he : awaitHandshake step pkts (driver.handshake,driver.pendingConnectedPackets) with
   | error e state =>
    rw [he] at ha
    obtain ⟨after,ht,hl⟩:=ha
    rw [hl]
    refine iff_of_true ?_ ?_
    · change NeverMissed driver.taken after.driver.taken none
      rw [ht]
      exact (Took.refl (by decide)).neverMissed
    · intro _ _ _ _ _ _ hp hco
      cases hs.symm.trans hp
      cases he.symm.trans hco
   | ok complete state =>
    rw [he] at ha
    cases complete with
    | none =>
     obtain ⟨after,ht,hl⟩:=ha
     rw [hl]
     refine iff_of_true ?_ ?_
     · change NeverMissed driver.taken after.driver.taken (some false)
       rw [ht]
       exact (Took.refl (by decide)).neverMissed
     · intro _ _ _ _ _ _ hp hco
       cases hs.symm.trans hp
       cases he.symm.trans hco
    | some complete =>
     obtain ⟨later,ht,hl⟩:=ha
     have hd:=drain_neverMissed_iff hl.symm
     rw [ht] at hd
     rw [hd]
     constructor
     · intro hsa _ _ _ _ _ _ hp hco
       cases hs.symm.trans hp
       cases he.symm.trans hco
       exact hsa
     · intro hsa
       exact hsa pkts _ _ _ _ hc hs he

end QuicRelayDriver

/-- A close is missed only if it is among the packets held back and more of the datagram that completed the handshake is
to come. -/
theorem close_never_missed_iff (C : Ciphers) (H : ClientHandshake η) (S : ServerHandshake θ) (datagrams : Datagrams) :
    (∀ driver : QuicRelayClientDriver η,
      NeverMissed driver.taken (final (QuicRelayClientDriver.receive C H datagrams driver)).taken
          (reported (QuicRelayClientDriver.receive C H datagrams driver)) ↔
        (datagrams.endpointId = driver.peerEndpointId →
          driver.NothingAfterClose C (ClientFlights.step H) datagrams)) ∧
    ∀ driver : QuicRelayServerDriver θ,
      NeverMissed driver.taken (final (QuicRelayServerDriver.receive C S datagrams driver)).taken
          (reported (QuicRelayServerDriver.receive C S datagrams driver)) ↔
        (driver.Expects datagrams → driver.NothingAfterClose C (ServerFlights.step S) datagrams) := by
 constructor
 · intro driver
   by_cases hpeer : datagrams.endpointId = driver.peerEndpointId
   · rw [receive_of_peer hpeer,reported,onDriver, outcome_zoom,final_zoom,forall_prop_of_true hpeer]
     exact QuicRelayDriver.receive_neverMissed_iff
   · rw [receive_of_stranger hpeer]
     exact iff_of_true (refl (show none ≠ some true by decide)).neverMissed fun h=>absurd h hpeer
 · intro driver
   by_cases hpeer : driver.Expects datagrams
   · rw [QuicRelayServerDriver.receive_of_peer hpeer,reported,QuicRelayServerDriver.onDriver,
      outcome_zoom,final_zoom,forall_prop_of_true hpeer]
     exact QuicRelayDriver.receive_neverMissed_iff
   · rw [QuicRelayServerDriver.receive_of_stranger hpeer]
     exact iff_of_true (refl (show none ≠ some true by decide)).neverMissed fun h=>absurd h hpeer

def serverFlights : Bytes := [0xc0, 0, 0, 0, 1, 0, 0, 0, 1, 0] ++ [0xe0, 0, 0, 0, 1, 0, 0, 1, 0]

/-- A CONNECTION_CLOSE comes too early; the datagram that completes the handshake has a PING at its end. -/
theorem held_back_close_is_missed : ∃ connection close ping, establishedConnection .client = .ok connection ∧
      encryptQuicOneRttPacket plainCiphers plainKeys clientConnectionId 0 1 [0x1d, 0x00, 0x00] = .ok close ∧
      encryptQuicOneRttPacket plainCiphers plainKeys clientConnectionId 1 1 [0x01, 0x01, 0x01] = .ok ping ∧
      let receive := receive plainCiphers (handshakeTo connection)
      let first := receive (packetToRelayDatagrams relayPeer none close) (clientDriver none)
      let second := receive (packetToRelayDatagrams relayPeer none (serverFlights ++ ping)) (final first)
      reported first = some false ∧ (final first).taken = [] ∧
        reported second = some false ∧ (final second).taken = [(close,true),(ping,false)] ∧
        ¬ NeverMissed (final first).taken (final second).taken (reported second) := by
 have he : (do
   let connection ← establishedConnection .client
   let close ← encryptQuicOneRttPacket plainCiphers plainKeys clientConnectionId 0 1 [0x1d,0x00,0x00]
   let ping ← encryptQuicOneRttPacket plainCiphers plainKeys clientConnectionId 1 1 [0x01,0x01,0x01]
   let receive:=receive plainCiphers (handshakeTo connection)
   let first:=receive (packetToRelayDatagrams relayPeer none close) (clientDriver none)
   let second:=receive (packetToRelayDatagrams relayPeer none (serverFlights ++ ping)) (final first)
   return (reported first,(final first).taken,reported second,
    decide ((final second).taken = [(close,true),(ping,false)]))) =
    (.ok (some false,[],some false,true) : Outcome _) := by
  decide +kernel
 simp only [bind_eq_ok,pure_eq_ok,Prod.mk.injEq,decide_eq_true_eq] at he
 obtain ⟨connection,hc,close,hcl,ping,hp,hf,ht,hs,hto⟩:=he
 refine ⟨connection,close,ping,hc,hcl,hp,hf,ht,hs,hto,?_⟩
 intro h
 rw [ht,hto] at h
 cases (h [] close [(ping,false)] rfl).1

end Enlace.Quic
