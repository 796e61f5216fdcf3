import Enlace.Quic.RelayDriver
import Enlace.Lite.Transport

set_option autoImplicit false

/-! `Connection` of `endpoint/internal.ts`. -/
namespace Enlace.Lite
open ByteString Enlace.Crypto Enlace.Quic Throwing QuicRelayServerDriver QuicRelayDriver
open Throwing (lift zoom mapState final)

variable (C : Ciphers) (P : Primitives) {η θ α : Type}

inductive EndpointConnectionDriver (η θ : Type) where
  | client (driver : QuicRelayClientDriver η)
  | server (driver : QuicRelayServerDriver θ)

namespace EndpointConnectionDriver

def connection : EndpointConnectionDriver η θ → Option QuicConnectionState
  | client driver => driver.connection
  | server driver => driver.connection

def peerEndpointId : EndpointConnectionDriver η θ → Option Bytes
  | client driver => some driver.peerEndpointId
  | server driver => driver.peerEndpointId

def ecn : EndpointConnectionDriver η θ → Option EcnCodepoint
  | client driver => driver.ecn
  | server driver => driver.ecn

def withConnection (connection : QuicConnectionState) : EndpointConnectionDriver η θ → EndpointConnectionDriver η θ
  | client driver => client { driver with connection := some connection }
  | server driver => server { driver with connection := some connection }

def receive (H : ClientHandshake η) (S : ServerHandshake θ) (datagrams : Datagrams) :
    EStateM Thrown (EndpointConnectionDriver η θ) QuicRelayReceiveResult
  | client driver => mapState client (QuicRelayClientDriver.receive C H datagrams driver)
  | server driver => mapState server (QuicRelayServerDriver.receive C S datagrams driver)

def sendStream (streamId : ℕ) (data : Bytes) (fin : Bool) :
    EStateM Thrown (EndpointConnectionDriver η θ) QuicRelayStreamSendResult
  | client driver => mapState client (QuicRelayClientDriver.sendStream C streamId data fin driver)
  | server driver => mapState server (QuicRelayServerDriver.sendStream C streamId data fin driver)

end EndpointConnectionDriver

structure Connection (η θ : Type) where
  driver : EndpointConnectionDriver η θ
  streams : ℕ → Option (List QuicStreamReceiveOutput)
  acceptedBidiStreams : List ℕ
  acceptedUniStreams : List ℕ
  closed : Bool

namespace Connection

def onDriver : EStateM Thrown (EndpointConnectionDriver η θ) α → EStateM Thrown (Connection η θ) α :=
  zoom driver fun connection driver => { connection with driver := driver }

def requireOpen (connection : Connection η θ) : Outcome Unit :=
  if connection.closed then .error (.error "connection is closed") else .ok ()

def write (streamId : ℕ) (data : Bytes) (fin : Bool) : EStateM Thrown (Connection η θ) QuicRelayStreamSendResult := do
  let connection ← get
  lift connection.requireOpen
  onDriver (EndpointConnectionDriver.sendStream C streamId data fin)

def isUnidirectionalStream (streamId : ℕ) : Bool := streamId &&& 0x02 = 0x02

def queueStreamOutput (connection : Connection η θ) (output : QuicStreamReceiveOutput) : Connection η θ :=
  match connection.streams output.streamId with
  | some outputs =>
    { connection with streams := Function.update connection.streams output.streamId (some (outputs ++ [output])) }
  | none =>
    let opened := { connection with streams := Function.update connection.streams output.streamId (some [output]) }
    if isUnidirectionalStream output.streamId then
      { opened with acceptedUniStreams := connection.acceptedUniStreams ++ [output.streamId] }
    else { opened with acceptedBidiStreams := connection.acceptedBidiStreams ++ [output.streamId] }

def queueStreamOutputs (outputs : List QuicStreamReceiveOutput) (connection : Connection η θ) : Connection η θ :=
  outputs.foldl queueStreamOutput connection

/-- `receiveRelayDatagramsOnce` from the datagram that the router hands out to what is sent in answer. -/
def receive (H : ClientHandshake η) (S : ServerHandshake θ) (datagrams : Datagrams) :
    EStateM Thrown (Connection η θ) QuicRelayReceiveResult := do
  let connection ← get
  lift connection.requireOpen
  onDriver (EndpointConnectionDriver.receive C H S datagrams)

def finish (result : QuicRelayReceiveResult) (connection : Connection η θ) : Connection η θ :=
  let queued := connection.queueStreamOutputs result.streamOutputs
  if result.closed then { queued with closed := true } else queued

def dequeueOutput (streamId : ℕ) (connection : Connection η θ) : Option QuicStreamReceiveOutput × Connection η θ :=
  match connection.streams streamId with
  | some (output :: outputs) =>
    (some output, { connection with streams := Function.update connection.streams streamId (some outputs) })
  | _ => (none, connection)

end Connection

section
variable {C} {streamId : ℕ} {data : Bytes} {fin : Bool}

namespace EndpointConnectionDriver

variable {driver : EndpointConnectionDriver η θ} {connection after : QuicConnectionState} {peer : Bytes}
  (hconnection : driver.connection = some connection) (hpeer : driver.peerEndpointId = some peer)

lemma connection_withConnection : (driver.withConnection after).connection = some after := by
 cases driver with
 | client driver => rfl
 | server driver => rfl

lemma peerEndpointId_withConnection : (driver.withConnection after).peerEndpointId = driver.peerEndpointId := by
 cases driver with
 | client driver => rfl
 | server driver => rfl

include hconnection hpeer

lemma sendStream_eq :
    sendStream C streamId data fin driver = match QuicConnectionState.sendStream C streamId data fin connection with
      | .ok sent after => .ok ⟨packetToRelayDatagrams peer driver.ecn sent.packet, sent.packetNumber, sent.stream⟩
          (driver.withConnection after)
      | .error e after => .error e (driver.withConnection after) := by
 cases driver with
 | client driver =>
  change driver.connection = some connection at hconnection
  cases hpeer
  rw [sendStream,QuicRelayClientDriver.sendStream,get_bind,hconnection,
   requireConnection,bind_ok (lift_ok connection driver),
   QuicRelayClientDriver.onDriver,zoom]
  cases h : QuicConnectionState.sendStream C streamId data fin connection with
  | ok sent after =>
   rw [sendStream_ok h]
   rfl
  | error e after =>
   rw [sendStream_error h]
   rfl
 | server driver =>
  change driver.connection = some connection at hconnection
  change driver.peerEndpointId = some peer at hpeer
  rw [sendStream,QuicRelayServerDriver.sendStream,get_bind,hconnection,
   requireConnection,bind_ok (lift_ok connection driver),hpeer,
   requireEndpointId,bind_ok (lift_ok peer driver),
   onDriver,zoom]
  cases h : QuicConnectionState.sendStream C streamId data fin connection with
  | ok sent after =>
   rw [sendStream_ok h]
   rfl
  | error e after =>
   rw [sendStream_error h]
   rfl

section
variable {H : ClientHandshake η} {S : ServerHandshake θ} {datagrams : Datagrams}

omit hconnection in
lemma receive_of_stranger (h : datagrams.endpointId ≠ peer) :
    receive C H S datagrams driver = .error (.rangeError peerMismatch) driver := by
 cases driver with
 | client driver =>
  cases hpeer
  rw [receive,QuicRelayClientDriver.receive_of_stranger h]
  rfl
 | server driver =>
  have hs : ¬ driver.Expects datagrams := fun he=>h (he peer hpeer)
  rw [receive,receive_of_stranger hs]
  rfl

variable {packet : Bytes} (hsplit : splitRelayDatagramPackets datagrams = .ok [packet])
  (hshort : isShortHeaderPacket packet = .ok true) (hsame : datagrams.endpointId = peer)
include hsplit hshort hsame

variable (C H S) in
lemma receive_single :
    ∃ next, receive C H S datagrams driver = (match QuicConnectionState.receive C packet 0 connection with
        | .ok rec _ =>
          .ok ⟨rec.ackPacket.toList.map fun sent => packetToRelayDatagrams peer driver.ecn sent.packet,
            rec.streamOutputs, true, rec.connectionClosed⟩ next
        | .error e _ => .error e next) ∧
      next.connection = some (final (QuicConnectionState.receive C packet 0 connection)) ∧
      next.peerEndpointId = some peer := by
 cases driver with
 | client driver =>
  cases hpeer
  rw [receive,QuicRelayClientDriver.receive_of_peer hsame,QuicRelayClientDriver.onDriver,zoom,
   receive_single hconnection hsplit hshort]
  cases QuicConnectionState.receive C packet 0 connection with
  | ok rec after | error e after => exact ⟨_,rfl,rfl,rfl⟩
 | server driver =>
  change driver.peerEndpointId = some peer at hpeer
  have he : driver.Expects datagrams := by
   intro other ho
   rw [hpeer] at ho
   cases ho
   exact hsame
  have hb : ({ driver with peerEndpointId := some datagrams.endpointId } :
    QuicRelayServerDriver θ).toQuicRelayDriver.connection = some connection := hconnection
  rw [receive,receive_of_peer he,onDriver,zoom, receive_single hb hsplit hshort,hsame]
  cases QuicConnectionState.receive C packet 0 connection with
  | ok rec after | error e after => exact ⟨_,rfl,rfl,rfl⟩

end

end EndpointConnectionDriver

namespace Connection

variable {connection : Connection η θ} {quic after : QuicConnectionState} {peer : Bytes}

lemma write_of_closed (h : connection.closed = true) :
    write C streamId data fin connection = .error (.error "connection is closed") connection := by
 have hr : connection.requireOpen = .error (.error "connection is closed") := by rw [requireOpen,h]; rfl
 rw [write,get_bind,hr]
 rfl

variable {H : ClientHandshake η} {S : ServerHandshake θ} {datagrams : Datagrams}

lemma receive_of_closed (h : connection.closed = true) :
    receive C H S datagrams connection = .error (.error "connection is closed") connection := by
 have hr : connection.requireOpen = .error (.error "connection is closed") := by rw [requireOpen,h]; rfl
 rw [receive,get_bind,hr]
 rfl

lemma receive_of_open (h : connection.closed = false) :
    receive C H S datagrams connection = onDriver (EndpointConnectionDriver.receive C H S datagrams) connection := by
 have hr : connection.requireOpen = .ok () := by rw [requireOpen,h]; rfl
 rw [receive,get_bind,hr,bind_ok (lift_ok () connection)]

lemma queueStreamOutput_driver (connection : Connection η θ) (output : QuicStreamReceiveOutput) :
    (connection.queueStreamOutput output).driver = connection.driver := by
 rw [queueStreamOutput]
 split
 · rfl
 · split
   · rfl
   · rfl

lemma queueStreamOutput_of_drained {output : QuicStreamReceiveOutput}
    (h : (connection.streams output.streamId).getD [] = []) :
    ∃ bidi uni, connection.queueStreamOutput output = { connection with
      streams := Function.update connection.streams output.streamId (some [output])
      acceptedBidiStreams := bidi
      acceptedUniStreams := uni } := by
 rw [queueStreamOutput]
 split
 · rename_i outputs ho
   rw [ho,Option.getD_some] at h
   rw [h]
   exact ⟨_,_,rfl⟩
 · split
   · exact ⟨_,_,rfl⟩
   · exact ⟨_,_,rfl⟩

lemma queueStreamOutputs_driver (outputs : List QuicStreamReceiveOutput) (connection : Connection η θ) :
    (connection.queueStreamOutputs outputs).driver = connection.driver := by
 rw [queueStreamOutputs]
 induction outputs generalizing connection with
 | nil => rfl
 | cons output outputs ih => rw [List.foldl_cons,ih,queueStreamOutput_driver]

lemma finish_driver (result : QuicRelayReceiveResult) (connection : Connection η θ) :
    (connection.finish result).driver = connection.driver := by
 rw [finish]
 split
 · exact queueStreamOutputs_driver _ _
 · exact queueStreamOutputs_driver _ _

lemma dequeueOutput_driver (streamId : ℕ) (connection : Connection η θ) :
    (connection.dequeueOutput streamId).2.driver = connection.driver := by
 rw [dequeueOutput]
 split
 · rfl
 · rfl

section
variable (hconnection : connection.driver.connection = some quic)
  (hpeer : connection.driver.peerEndpointId = some peer) (hopen : connection.closed = false)
include hconnection hpeer hopen

lemma write_ok {sent : QuicOneRttStreamPacketSendResult}
    (h : QuicConnectionState.sendStream C streamId data fin quic = .ok sent after) :
    write C streamId data fin connection =
      .ok ⟨packetToRelayDatagrams peer connection.driver.ecn sent.packet, sent.packetNumber, sent.stream⟩
        { connection with driver := connection.driver.withConnection after } := by
 have hr : connection.requireOpen = .ok () := by rw [requireOpen,hopen]; rfl
 rw [write,get_bind,hr,bind_ok (lift_ok () connection),onDriver,zoom,
  EndpointConnectionDriver.sendStream_eq hconnection hpeer,h]

lemma write_error {e : Thrown} (h : QuicConnectionState.sendStream C streamId data fin quic = .error e after) :
    write C streamId data fin connection =
      .error e { connection with driver := connection.driver.withConnection after } := by
 have hr : connection.requireOpen = .ok () := by rw [requireOpen,hopen]; rfl
 rw [write,get_bind,hr,bind_ok (lift_ok () connection),onDriver,zoom,
  EndpointConnectionDriver.sendStream_eq hconnection hpeer,h]

end

end Connection

end

structure Wired (η θ : Type) where
  connection : Connection η θ
  transport : ReconnectingRelayTransport

namespace Wired

def onConnection : EStateM Thrown (Connection η θ) α → EStateM Thrown (Wired η θ) α :=
  zoom connection fun wired connection => { wired with connection := connection }

def onTransport : EStateM Thrown ReconnectingRelayTransport α → EStateM Thrown (Wired η θ) α :=
  zoom transport fun wired transport => { wired with transport := transport }

def sendStream (streamId : ℕ) (data : Bytes) (fin : Bool) : EStateM Thrown (Wired η θ) QuicRelayStreamSendResult := do
  let sent ← onConnection (Connection.write C streamId data fin)
  onTransport (ReconnectingRelayTransport.sendDatagrams P sent.datagrams)
  return sent

def sendOutgoing : List Datagrams → EStateM Thrown (Wired η θ) Unit
  | [] => return
  | datagrams :: outgoing => do
    onTransport (ReconnectingRelayTransport.sendDatagrams P datagrams)
    sendOutgoing outgoing

def receiveRelayDatagramsOnce (H : ClientHandshake η) (S : ServerHandshake θ) (datagrams : Datagrams) :
    EStateM Thrown (Wired η θ) Unit := do
  let result ← onConnection (Connection.receive C H S datagrams)
  sendOutgoing P result.outgoing
  modify fun wired => { wired with connection := wired.connection.finish result }

end Wired

end Enlace.Lite
