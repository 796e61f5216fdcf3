import Enlace.Quic.Connection

set_option autoImplicit false

/-! `relay-driver.ts`: what stands between relayed datagrams and a connection. The two drivers differ in their
handshake only, so their loop is one definition over a step of the handshake. -/
namespace Enlace.Quic
open ByteString Enlace.Lite Throwing QuicConnectionState
open Throwing (lift zoom untilTrue untilTrue_cons_false untilTrue_cons_true untilTrue_cons_error Simulates)

structure QuicRelayReceiveResult where
  outgoing : List Datagrams
  streamOutputs : List QuicStreamReceiveOutput
  connected : Bool
  closed : Bool
  deriving DecidableEq

structure QuicRelayStreamSendResult where
  datagrams : Datagrams
  packetNumber : ℕ
  stream : QuicStreamSendResult
  deriving DecidableEq

def packetToRelayDatagrams (endpointId : Bytes) (ecn : Option EcnCodepoint) (packet : Bytes) : Datagrams :=
  ⟨endpointId, ecn, none, packet⟩

def quicRelayPacketType (packet : Bytes) : Outcome LongHeaderPacketType := do
  let header ← parseQuicLongHeader packet 0
  return header.packetType

/-- A connection and the arrays that a call fills. `taken`, not in the source, lists the packets taken, each with
whether it closed the connection. -/
structure ConnectedCall where
  connection : QuicConnectionState
  outgoing : List Datagrams
  streamOutputs : List QuicStreamReceiveOutput
  taken : List (Bytes × Bool)

namespace ConnectedCall

def onConnection {α : Type} : EStateM Thrown QuicConnectionState α → EStateM Thrown ConnectedCall α :=
  zoom connection fun call connection => { call with connection := connection }

def collect (peerEndpointId : Bytes) (ecn : Option EcnCodepoint) (packet : Bytes)
    (received : QuicConnectionReceiveResult) (call : ConnectedCall) : ConnectedCall :=
  { call with
    streamOutputs := call.streamOutputs ++ received.streamOutputs
    outgoing := call.outgoing ++
      received.ackPacket.toList.map fun sent => packetToRelayDatagrams peerEndpointId ecn sent.packet
    taken := call.taken ++ [(packet, received.connectionClosed)] }

end ConnectedCall

variable (C : Ciphers)

def receiveConnectedPacket (peerEndpointId : Bytes) (ecn : Option EcnCodepoint) (packet : Bytes) :
    EStateM Thrown ConnectedCall Bool := do
  let short ← lift (isShortHeaderPacket packet)
  if short then do
    let received ← ConnectedCall.onConnection (QuicConnectionState.receive C packet 0)
    modify (ConnectedCall.collect peerEndpointId ecn packet received)
    return received.connectionClosed
  else return false

def drainPendingConnectedPackets (peerEndpointId : Bytes) (ecn : Option EcnCodepoint) (packets : List Bytes) :
    EStateM Thrown ConnectedCall Bool :=
  untilTrue (receiveConnectedPacket C peerEndpointId ecn) packets

structure QuicRelayDriver (σ : Type) where
  handshake : σ
  pendingConnectedPackets : List Bytes
  connection : Option QuicConnectionState
  taken : List (Bytes × Bool)

structure DriverCall (σ : Type) where
  driver : QuicRelayDriver σ
  outgoing : List Datagrams
  streamOutputs : List QuicStreamReceiveOutput

abbrev HandshakeStep (σ : Type) := Bytes → EStateM Thrown σ (List Bytes × Option QuicConnectionState)

variable {σ α : Type}

namespace DriverCall

def connected (call : DriverCall σ) (connection : QuicConnectionState) : ConnectedCall :=
  ⟨connection, call.outgoing, call.streamOutputs, call.driver.taken⟩

def withConnected (call : DriverCall σ) (connected : ConnectedCall) : DriverCall σ :=
  ⟨{ call.driver with connection := some connected.connection, taken := connected.taken },
    connected.outgoing, connected.streamOutputs⟩

def onConnection (connection : QuicConnectionState) (m : EStateM Thrown ConnectedCall α) :
    EStateM Thrown (DriverCall σ) α :=
  zoom (fun call => call.connected connection) withConnected m

def onHandshake (m : EStateM Thrown σ α) : EStateM Thrown (DriverCall σ) α :=
  zoom (fun call => call.driver.handshake)
    (fun call handshake => { call with driver := { call.driver with handshake := handshake } }) m

def hold (packet : Bytes) (call : DriverCall σ) : DriverCall σ :=
  { call with driver :=
    { call.driver with pendingConnectedPackets := call.driver.pendingConnectedPackets ++ [packet] } }

def release (call : DriverCall σ) : DriverCall σ :=
  { call with driver := { call.driver with pendingConnectedPackets := [] } }

def send (peerEndpointId : Bytes) (ecn : Option EcnCodepoint) (packets : List Bytes) (call : DriverCall σ) :
    DriverCall σ :=
  { call with outgoing := call.outgoing ++ packets.map (packetToRelayDatagrams peerEndpointId ecn) }

end DriverCall

/-- A round before there is a connection. `closed` changes only if the handshake is completed and the packets held back
are drained. -/
def receiveHandshakePacket (step : HandshakeStep σ) (peerEndpointId : Bytes) (ecn : Option EcnCodepoint)
    (closed : Bool) (packet : Bytes) : EStateM Thrown (DriverCall σ) Bool := do
  let short ← lift (isShortHeaderPacket packet)
  if short then do
    modify (DriverCall.hold packet)
    return closed
  else do
    let (packets, connection) ← DriverCall.onHandshake (step packet)
    modify (DriverCall.send peerEndpointId ecn packets)
    match connection with
    | none => return closed
    | some connection => do
      let call ← get
      set call.release
      DriverCall.onConnection connection
        (drainPendingConnectedPackets C peerEndpointId ecn call.driver.pendingConnectedPackets)

def receivePacket (step : HandshakeStep σ) (peerEndpointId : Bytes) (ecn : Option EcnCodepoint) (closed : Bool)
    (packet : Bytes) : EStateM Thrown (DriverCall σ) Bool := do
  let call ← get
  match call.driver.connection with
  | some connection => DriverCall.onConnection connection (receiveConnectedPacket C peerEndpointId ecn packet)
  | none => receiveHandshakePacket C step peerEndpointId ecn closed packet

/-- The loop is left early only by a packet that closes a connection which was there before it. -/
def receivePackets (step : HandshakeStep σ) (peerEndpointId : Bytes) (ecn : Option EcnCodepoint) :
    Bool → List Bytes → EStateM Thrown (DriverCall σ) Bool
  | closed, [] => return closed
  | closed, packet :: packets => do
    let call ← get
    let closed ← receivePacket C step peerEndpointId ecn closed packet
    if call.driver.connection.isSome && closed then return true
    else receivePackets step peerEndpointId ecn closed packets

namespace QuicRelayDriver

/-- The arrays are local to a call and lost if it throws. -/
def collecting (m : EStateM Thrown (DriverCall σ) Bool) :
    EStateM Thrown (QuicRelayDriver σ) QuicRelayReceiveResult := fun driver =>
  match m ⟨driver, [], []⟩ with
  | .ok closed call => .ok ⟨call.outgoing, call.streamOutputs, call.driver.connection.isSome, closed⟩ call.driver
  | .error e call => .error e call.driver

def receiveConnectedDatagram (connection : QuicConnectionState) (peerEndpointId : Bytes)
    (ecn : Option EcnCodepoint) (datagrams : Datagrams) :
    EStateM Thrown (QuicRelayDriver σ) QuicRelayReceiveResult := do
  let packets ← lift (splitRelayDatagramPackets datagrams)
  collecting (DriverCall.onConnection connection (untilTrue (receiveConnectedPacket C peerEndpointId ecn) packets))

/-- `receive` after the check of the peer. -/
def receive (step : HandshakeStep σ) (peerEndpointId : Bytes) (ecn : Option EcnCodepoint) (datagrams : Datagrams) :
    EStateM Thrown (QuicRelayDriver σ) QuicRelayReceiveResult := do
  let driver ← get
  match driver.connection with
  | some connection => receiveConnectedDatagram C connection peerEndpointId ecn datagrams
  | none => do
    let packets ← lift (splitRelayDatagramPackets datagrams)
    collecting (receivePackets C step peerEndpointId ecn false packets)

def requireConnection : Option QuicConnectionState → Outcome QuicConnectionState
  | none => throwRange "QUIC relay driver is not connected"
  | some connection => .ok connection

def onConnection (connection : QuicConnectionState) (m : EStateM Thrown QuicConnectionState α) :
    EStateM Thrown (QuicRelayDriver σ) α :=
  zoom (fun _ => connection) (fun driver connection => { driver with connection := some connection }) m

def sendStream (connection : QuicConnectionState) (peerEndpointId : Bytes) (ecn : Option EcnCodepoint)
    (streamId : ℕ) (data : Bytes) (fin : Bool) : EStateM Thrown (QuicRelayDriver σ) QuicRelayStreamSendResult := do
  let sent ← onConnection connection (QuicConnectionState.sendStream C streamId data fin)
  return ⟨packetToRelayDatagrams peerEndpointId ecn sent.packet, sent.packetNumber, sent.stream⟩

end QuicRelayDriver

/-- `QuicClientHandshakeDriver` as the driver uses it. -/
structure ClientHandshake (η : Type) where
  receiveServerFlights : Bytes → Bytes → EStateM Thrown η (Bytes × QuicConnectionState)

/-- `QuicServerHandshakeDriver` as the driver uses it; the flight is an Initial and a Handshake packet. -/
structure ServerHandshake (η : Type) where
  receiveClientInitial : Bytes → EStateM Thrown η (Bytes × Bytes)
  receiveClientHandshake : Bytes → EStateM Thrown η QuicConnectionState

variable {η : Type}

def unsupportedPacketType (packetType : LongHeaderPacketType) : Thrown :=
  .rangeError ("unsupported QUIC relay handshake packet type " ++ packetType.text)

def peerMismatch : String := "relay datagram endpoint id does not match QUIC peer"

structure ClientFlights (η : Type) where
  handshake : η
  serverInitialPacket : Option Bytes
  serverHandshakePacket : Option Bytes

namespace ClientFlights

def onDriver : EStateM Thrown η α → EStateM Thrown (ClientFlights η) α :=
  zoom handshake fun flights handshake => { flights with handshake := handshake }

def maybeCompleteHandshake (H : ClientHandshake η) :
    EStateM Thrown (ClientFlights η) (List Bytes × Option QuicConnectionState) := do
  let flights ← get
  match flights.serverInitialPacket, flights.serverHandshakePacket with
  | some initialPacket, some handshakePacket => do
    let (packet, connection) ← onDriver (H.receiveServerFlights initialPacket handshakePacket)
    return ([packet], some connection)
  | _, _ => return ([], none)

def step (H : ClientHandshake η) : HandshakeStep (ClientFlights η) := fun packet => do
  let packetType ← lift (quicRelayPacketType packet)
  match packetType with
  | .initial => do
    modify fun flights => { flights with serverInitialPacket := some packet }
    maybeCompleteHandshake H
  | .handshake => do
    modify fun flights => { flights with serverHandshakePacket := some packet }
    maybeCompleteHandshake H
  | packetType => throw (unsupportedPacketType packetType)

end ClientFlights

structure QuicRelayClientDriver (η : Type) extends QuicRelayDriver (ClientFlights η) where
  peerEndpointId : Bytes
  ecn : Option EcnCodepoint

namespace QuicRelayClientDriver

def onDriver : EStateM Thrown (QuicRelayDriver (ClientFlights η)) α → EStateM Thrown (QuicRelayClientDriver η) α :=
  zoom toQuicRelayDriver fun driver common => { driver with toQuicRelayDriver := common }

def validatePeer (driver : QuicRelayClientDriver η) (datagrams : Datagrams) : Outcome Unit :=
  throwIf (datagrams.endpointId ≠ driver.peerEndpointId) peerMismatch

def receive (H : ClientHandshake η) (datagrams : Datagrams) :
    EStateM Thrown (QuicRelayClientDriver η) QuicRelayReceiveResult := do
  let driver ← get
  lift (driver.validatePeer datagrams)
  onDriver (QuicRelayDriver.receive C (ClientFlights.step H) driver.peerEndpointId driver.ecn datagrams)

def sendStream (streamId : ℕ) (data : Bytes) (fin : Bool) :
    EStateM Thrown (QuicRelayClientDriver η) QuicRelayStreamSendResult := do
  let driver ← get
  let connection ← lift (QuicRelayDriver.requireConnection driver.connection)
  onDriver (QuicRelayDriver.sendStream C connection driver.peerEndpointId driver.ecn streamId data fin)

end QuicRelayClientDriver

structure ServerFlights (η : Type) where
  handshake : η
  clientInitialReceived : Bool

namespace ServerFlights

def onDriver : EStateM Thrown η α → EStateM Thrown (ServerFlights η) α :=
  zoom handshake fun flights handshake => { flights with handshake := handshake }

def step (S : ServerHandshake η) : HandshakeStep (ServerFlights η) := fun packet => do
  let packetType ← lift (quicRelayPacketType packet)
  match packetType with
  | .initial => do
    let (initialPacket, handshakePacket) ← onDriver (S.receiveClientInitial packet)
    modify fun flights => { flights with clientInitialReceived := true }
    return ([initialPacket, handshakePacket], none)
  | .handshake => do
    let flights ← get
    if flights.clientInitialReceived then do
      let connection ← onDriver (S.receiveClientHandshake packet)
      return ([], some connection)
    else return ([], none)
  | packetType => throw (unsupportedPacketType packetType)

end ServerFlights

structure QuicRelayServerDriver (η : Type) extends QuicRelayDriver (ServerFlights η) where
  peerEndpointId : Option Bytes
  ecn : Option EcnCodepoint

namespace QuicRelayServerDriver

def onDriver : EStateM Thrown (QuicRelayDriver (ServerFlights η)) α → EStateM Thrown (QuicRelayServerDriver η) α :=
  zoom toQuicRelayDriver fun driver common => { driver with toQuicRelayDriver := common }

/-- The peer of the first datagram is the peer of the driver; the result is what `requireEndpointId` finds. -/
def bindPeer (endpointId : Bytes) : EStateM Thrown (QuicRelayServerDriver η) Bytes := do
  let driver ← get
  match driver.peerEndpointId with
  | none => do
    set { driver with peerEndpointId := some endpointId }
    return endpointId
  | some peerEndpointId => do
    lift (throwIf (endpointId ≠ peerEndpointId) peerMismatch)
    return peerEndpointId

def receive (S : ServerHandshake η) (datagrams : Datagrams) :
    EStateM Thrown (QuicRelayServerDriver η) QuicRelayReceiveResult := do
  let peerEndpointId ← bindPeer datagrams.endpointId
  let driver ← get
  onDriver (QuicRelayDriver.receive C (ServerFlights.step S) peerEndpointId driver.ecn datagrams)

def requireEndpointId : Option Bytes → Outcome Bytes
  | none => throwRange "QUIC relay peer endpoint id is not known"
  | some endpointId => .ok endpointId

def sendStream (streamId : ℕ) (data : Bytes) (fin : Bool) :
    EStateM Thrown (QuicRelayServerDriver η) QuicRelayStreamSendResult := do
  let driver ← get
  let connection ← lift (QuicRelayDriver.requireConnection driver.connection)
  let peerEndpointId ← lift (requireEndpointId driver.peerEndpointId)
  onDriver (QuicRelayDriver.sendStream C connection peerEndpointId driver.ecn streamId data fin)

end QuicRelayServerDriver

variable {e : Thrown} {m : EStateM Thrown ConnectedCall α} {packet : Bytes} {packets : List Bytes}

open DriverCall

open QuicRelayServerDriver

open ConnectedCall

section
variable {C} {step : HandshakeStep σ} {peerEndpointId : Bytes} {ecn : Option EcnCodepoint}

/-- What a packet does to the connection that it is given to: `true` if it closes it. -/
def QuicConnectionState.take (C : Ciphers) (packet : Bytes) : EStateM Thrown QuicConnectionState Bool := do
  let short ← lift (isShortHeaderPacket packet)
  if short then do
    let received ← QuicConnectionState.receive C packet 0
    return received.connectionClosed
  else return false

lemma receiveConnectedPacket_simulates (peerEndpointId : Bytes) (ecn : Option EcnCodepoint) (packet : Bytes) :
    Simulates connection (receiveConnectedPacket C peerEndpointId ecn packet) (take C packet) := by
 intro call
 rw [receiveConnectedPacket,take]
 cases isShortHeaderPacket packet with
 | error e => exact ⟨rfl,rfl⟩
 | ok short =>
  rw [bind_ok (lift_ok short _),bind_ok (lift_ok short _)]
  cases short with
  | false => exact ⟨rfl,rfl⟩
  | true =>
   rw [if_pos rfl,if_pos rfl]
   cases h : receive C packet 0 call.connection with
   | error e after =>
    have hc : onConnection (receive C packet 0) call =
      .error e { call with connection := after } := zoom_eq_error.mpr ⟨after,h,rfl⟩
    rw [bind_error h,bind_error hc]
    exact ⟨rfl,rfl⟩
   | ok rec after =>
    have hc : onConnection (receive C packet 0) call =
      .ok rec { call with connection := after } := zoom_eq_ok.mpr ⟨after,h,rfl⟩
    rw [bind_ok h,bind_ok hc]
    exact ⟨rfl,rfl⟩

variable {connection : QuicConnectionState} {call : DriverCall σ}

lemma DriverCall.onConnection_self
    (h : call.driver.connection = some connection) : call.withConnected (call.connected connection) = call := by
 cases call with
 | mk driver outgoing streamOutputs =>
  cases driver with
  | mk hs pending current taken =>
   cases h
   rfl

lemma DriverCall.onConnection_ok {a : α} {after : ConnectedCall} (h : m (call.connected connection) = .ok a after) :
    onConnection connection m call = .ok a (call.withConnected after) :=
 zoom_eq_ok.mpr ⟨after,h,rfl⟩

lemma DriverCall.onConnection_error {after : ConnectedCall} (h : m (call.connected connection) = .error e after) :
    onConnection connection m call = .error e (call.withConnected after) :=
 zoom_eq_error.mpr ⟨after,h,rfl⟩

/-- With a connection the loop is the one over its packets; its first flag is lost at the first packet. -/
theorem receivePackets_connected {closed : Bool} (h : call.driver.connection = some connection)
    (hc : closed = true → packets ≠ []) :
    receivePackets C step peerEndpointId ecn closed packets call =
      onConnection connection (untilTrue (receiveConnectedPacket C peerEndpointId ecn) packets) call := by
 induction packets generalizing call connection closed with
 | nil =>
  have hf : closed = false := by simpa using hc
  have hs : onConnection connection (untilTrue (receiveConnectedPacket C peerEndpointId ecn) []) call =
    .ok false (call.withConnected (call.connected connection)) := rfl
  rw [hs,onConnection_self h,hf]
  rfl
 | cons packet packets ih =>
  have hr : receivePacket C step peerEndpointId ecn closed packet call =
    onConnection connection (receiveConnectedPacket C peerEndpointId ecn packet) call := by
   rw [receivePacket,get_bind,h]
  rw [receivePackets,get_bind,h]
  cases hp : receiveConnectedPacket C peerEndpointId ecn packet (call.connected connection) with
  | error e after =>
   rw [bind_error (hr.trans (onConnection_error hp)), onConnection_error (untilTrue_cons_error hp)]
  | ok result after =>
   rw [bind_ok (hr.trans (onConnection_ok hp))]
   cases result with
   | true =>
    rw [onConnection_ok (untilTrue_cons_true hp)]
    rfl
   | false =>
    have hrest : receivePackets C step peerEndpointId ecn false packets (call.withConnected after) =
      onConnection after.connection (untilTrue (receiveConnectedPacket C peerEndpointId ecn) packets)
       (call.withConnected after) := ih rfl (by simp)
    refine hrest.trans ?_
    cases ht : untilTrue (receiveConnectedPacket C peerEndpointId ecn) packets after with
    | error e last =>
     rw [onConnection_error ((untilTrue_cons_false hp).trans ht)]
     exact onConnection_error ht
    | ok result last =>
     rw [onConnection_ok ((untilTrue_cons_false hp).trans ht)]
     exact onConnection_ok ht

lemma isShortHeaderPacket_of_encrypted {keys : QuicDirectionalKeys} {id payload : Bytes} {n length : ℕ}
    (h : encryptQuicOneRttPacket C keys id n length payload = .ok packet) : isShortHeaderPacket packet = .ok true := by
 obtain ⟨_,_,_,hl,_,_,_,_,rfl⟩:=encryptQuicOneRttPacket_eq_ok C h
 change Except.ok (!isLongHeader (_ ^^^ (_ &&& 0x1f))) = _
 rw [isLongHeader_xor,(shortHeaderFirstByte_spec hl).1]
 rfl

namespace QuicRelayDriver

variable {driver : QuicRelayDriver σ} {datagrams : Datagrams}

lemma receive_of_split_error (h : splitRelayDatagramPackets datagrams = .error e) :
    receive C step peerEndpointId ecn datagrams driver = .error e driver := by
 rw [receive,get_bind]
 cases driver.connection with
 | none | some connection => exact bind_error (lift_eq_error.mpr ⟨h,rfl⟩)

lemma receive_of_split (h : splitRelayDatagramPackets datagrams = .ok packets) :
    receive C step peerEndpointId ecn datagrams driver =
      collecting (receivePackets C step peerEndpointId ecn false packets) driver := by
 rw [receive,get_bind]
 cases hc : driver.connection with
 | none => exact bind_ok (lift_eq_ok.mpr ⟨h,rfl⟩)
 | some connection =>
  refine (bind_ok (lift_eq_ok.mpr ⟨h,rfl⟩)).trans ?_
  rw [collecting,collecting,receivePackets_connected hc (by simp)]

lemma receive_single
    (hc : driver.connection = some connection) (hsp : splitRelayDatagramPackets datagrams = .ok [packet])
    (hs : isShortHeaderPacket packet = .ok true) :
    receive C step peerEndpointId ecn datagrams driver = match QuicConnectionState.receive C packet 0 connection with
      | .ok rec after =>
        .ok ⟨rec.ackPacket.toList.map fun sent => packetToRelayDatagrams peerEndpointId ecn sent.packet,
            rec.streamOutputs, true, rec.connectionClosed⟩
          { driver with connection := some after, taken := driver.taken ++ [(packet, rec.connectionClosed)] }
      | .error e after => .error e { driver with connection := some after } := by
 have hca : (⟨driver,[],[]⟩ : DriverCall σ).driver.connection = some connection := hc
 rw [receive_of_split hsp,collecting,receivePackets_connected hca (by simp)]
 cases h : QuicConnectionState.receive C packet 0 connection with
 | error e after =>
  have hr : receiveConnectedPacket C peerEndpointId ecn packet ⟨connection,[],[],driver.taken⟩ =
    .error e ⟨after,[],[],driver.taken⟩ := by
   rw [receiveConnectedPacket,hs,bind_ok (lift_ok true _)]
   exact bind_error (zoom_eq_error.mpr ⟨after,h,rfl⟩)
  rw [onConnection_error (untilTrue_cons_error hr)]
  rfl
 | ok rec after =>
  have hr : receiveConnectedPacket C peerEndpointId ecn packet ⟨connection,[],[],driver.taken⟩ =
    .ok rec.connectionClosed
     (collect peerEndpointId ecn packet rec ⟨after,[],[],driver.taken⟩) := by
   rw [receiveConnectedPacket,hs,bind_ok (lift_ok true _)]
   exact bind_ok (zoom_eq_ok.mpr ⟨after,h,rfl⟩)
  have hl : untilTrue (receiveConnectedPacket C peerEndpointId ecn) [packet]
    ⟨connection,[],[],driver.taken⟩ = .ok rec.connectionClosed
     (collect peerEndpointId ecn packet rec ⟨after,[],[],driver.taken⟩) := by
   cases hcl : rec.connectionClosed with
   | true => exact untilTrue_cons_true (hr.trans (by rw [hcl]))
   | false => exact untilTrue_cons_false (hr.trans (by rw [hcl]))
  rw [onConnection_ok hl]
  rfl

end QuicRelayDriver

def QuicRelayServerDriver.Expects (driver : QuicRelayServerDriver η) (datagrams : Datagrams) : Prop :=
  ∀ peerEndpointId ∈ driver.peerEndpointId, datagrams.endpointId = peerEndpointId

variable {H : ClientHandshake η} {S : ServerHandshake η} {datagrams : Datagrams}

lemma QuicRelayClientDriver.receive_of_peer {driver : QuicRelayClientDriver η}
    (h : datagrams.endpointId = driver.peerEndpointId) :
    QuicRelayClientDriver.receive C H datagrams driver = QuicRelayClientDriver.onDriver
      (QuicRelayDriver.receive C (ClientFlights.step H) driver.peerEndpointId driver.ecn datagrams) driver := by
 have hpeer : driver.validatePeer datagrams = .ok () := throwIf_neg (not_not_intro h)
 rw [QuicRelayClientDriver.receive,get_bind,hpeer,bind_ok (lift_ok () driver)]

lemma QuicRelayClientDriver.receive_of_stranger {driver : QuicRelayClientDriver η}
    (h : datagrams.endpointId ≠ driver.peerEndpointId) :
    QuicRelayClientDriver.receive C H datagrams driver = .error (.rangeError peerMismatch) driver := by
 have hpeer : driver.validatePeer datagrams = .error (.rangeError peerMismatch) := if_pos h
 rw [QuicRelayClientDriver.receive,get_bind,hpeer]
 rfl

lemma QuicRelayServerDriver.receive_of_peer {driver : QuicRelayServerDriver η} (h : driver.Expects datagrams) :
    receive C S datagrams driver = onDriver
      (QuicRelayDriver.receive C (ServerFlights.step S) datagrams.endpointId driver.ecn datagrams)
      { driver with peerEndpointId := some datagrams.endpointId } := by
 have hb : bindPeer datagrams.endpointId driver =
   .ok datagrams.endpointId { driver with peerEndpointId := some datagrams.endpointId } := by
  rw [bindPeer,get_bind]
  cases hpeer : driver.peerEndpointId with
  | none => rfl
  | some peerEndpointId =>
   have hs:=h peerEndpointId hpeer
   dsimp only
   rw [throwIf_neg (not_not_intro hs),hs,← hpeer]
   rfl
 rw [receive,bind_ok hb,get_bind]

lemma QuicRelayServerDriver.receive_of_stranger {driver : QuicRelayServerDriver η} (h : ¬ driver.Expects datagrams) :
    receive C S datagrams driver = .error (.rangeError peerMismatch) driver := by
 rw [QuicRelayServerDriver.Expects] at h
 have hb : bindPeer datagrams.endpointId driver = .error (.rangeError peerMismatch) driver := by
  rw [bindPeer,get_bind]
  cases hpeer : driver.peerEndpointId with
  | none => simp [hpeer] at h
  | some peerEndpointId =>
   have ho : datagrams.endpointId ≠ peerEndpointId := by simpa [hpeer] using h
   exact bind_error (lift_eq_error.mpr ⟨if_pos ho,rfl⟩)
 rw [receive,bind_error hb]

namespace QuicRelayDriver

variable {driver : QuicRelayDriver σ} {connection after : QuicConnectionState} {peerEndpointId : Bytes}
  {ecn : Option EcnCodepoint} {streamId : ℕ} {data : Bytes} {fin : Bool}

lemma sendStream_ok {sent : QuicOneRttStreamPacketSendResult}
    (h : QuicConnectionState.sendStream C streamId data fin connection = .ok sent after) :
    sendStream C connection peerEndpointId ecn streamId data fin driver =
      .ok ⟨packetToRelayDatagrams peerEndpointId ecn sent.packet, sent.packetNumber, sent.stream⟩
        { driver with connection := some after } :=
 bind_ok (zoom_eq_ok.mpr ⟨after,h,rfl⟩)

lemma sendStream_error (h : QuicConnectionState.sendStream C streamId data fin connection = .error e after) :
    sendStream C connection peerEndpointId ecn streamId data fin driver =
      .error e { driver with connection := some after } :=
 bind_error (zoom_eq_error.mpr ⟨after,h,rfl⟩)

end QuicRelayDriver

end

def relayPeer : Bytes := List.replicate 32 9

def clientDriver (connection : Option QuicConnectionState) : QuicRelayClientDriver Unit :=
  ⟨⟨⟨(), none, none⟩, [], connection, []⟩, relayPeer, none⟩

def handshakeTo (connection : QuicConnectionState) : ClientHandshake Unit :=
  ⟨fun _ _ => return ([], connection)⟩

def noClientHandshake : ClientHandshake Unit := ⟨fun _ _ => throw .cipher⟩

def noServerHandshake : ServerHandshake Unit := ⟨fun _ => throw .cipher, fun _ => throw .cipher⟩

end Enlace.Quic
