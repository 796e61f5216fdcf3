import Enlace.Lite.Frames
import Enlace.Lib.Throwing

set_option autoImplicit false

/-! `ReconnectingRelayTransport` of `endpoint/internal.ts` and the relay client it writes to. -/
namespace Enlace.Lite
open ByteString Enlace.Crypto Enlace.Quic

variable (P : Primitives)

/-- A client stands for its socket; `ready` if that is open. -/
structure RelayWebSocketClient where
  socket : ℕ
  ready : Bool
  deriving DecidableEq

def RelayWebSocketClient.sendDatagrams (client : RelayWebSocketClient) (datagrams : Datagrams) : Outcome Bytes :=
  if client.ready then encodeClientToRelayFrame P datagrams
  else .error (.error "relay websocket is not open")

def relayReconnectMinDelayMs : ℕ := 10

def relayReconnectMaxDelayMs : ℕ := 16000

/-- `written` lists the frames that the sockets got, `dropped` the sockets that the transport has closed. -/
structure ReconnectingRelayTransport where
  client : Option RelayWebSocketClient
  pingInterval : Bool
  pingTimeout : Bool
  pendingPing : Option Bytes
  backoffMs : ℕ
  established : Bool
  closed : Bool
  written : List (ℕ × Bytes)
  dropped : List ℕ

namespace ReconnectingRelayTransport

def clearPingTimers (transport : ReconnectingRelayTransport) : ReconnectingRelayTransport :=
  { transport with pingInterval := false, pingTimeout := false, pendingPing := none }

def disconnectClient (transport : ReconnectingRelayTransport) (client : RelayWebSocketClient) :
    ReconnectingRelayTransport :=
  if transport.client.map RelayWebSocketClient.socket = some client.socket then
    { transport.clearPingTimers with
      client := none
      backoffMs := if transport.established then relayReconnectMinDelayMs else transport.backoffMs
      established := false
      dropped := transport.dropped ++ [client.socket] }
  else transport

/-- Whatever the client throws is taken for a failure of its socket. -/
def sendDatagrams (datagrams : Datagrams) : EStateM Thrown ReconnectingRelayTransport Unit := do
  let transport ← get
  if transport.closed then throw (.error "relay transport is closed")
  else
    match transport.client with
    | none => return
    | some client =>
      match client.sendDatagrams P datagrams with
      | .ok frame => set { transport with written := transport.written ++ [(client.socket, frame)] }
      | .error _ => set (transport.disconnectClient client)

def drop (transport : ReconnectingRelayTransport) (client : RelayWebSocketClient) : ReconnectingRelayTransport :=
  { transport with dropped := transport.dropped ++ [client.socket] }

def close (transport : ReconnectingRelayTransport) : ReconnectingRelayTransport :=
  if transport.closed then transport
  else
    { transport.clearPingTimers with
      closed := true
      client := none
      dropped := transport.dropped ++ transport.client.toList.map RelayWebSocketClient.socket }

/-- The ping frame on the socket is left out. -/
def sendPing (data : Bytes) (transport : ReconnectingRelayTransport) : ReconnectingRelayTransport :=
  match transport.client with
  | none => transport
  | some client =>
    if transport.closed then transport
    else
      let pinged := { transport with pendingPing := some data, pingTimeout := false }
      if client.ready then { pinged with pingTimeout := true } else pinged.disconnectClient client

def ensurePingInterval (data : Bytes) (transport : ReconnectingRelayTransport) : ReconnectingRelayTransport :=
  if transport.pingInterval || transport.closed then transport
  else { transport.sendPing data with pingInterval := true }

def handlePong (data : Bytes) (transport : ReconnectingRelayTransport) : ReconnectingRelayTransport :=
  if transport.pendingPing = some data then
    { transport with
      pendingPing := none
      established := true
      backoffMs := relayReconnectMinDelayMs
      pingTimeout := false }
  else transport

/-- What `nextReconnectDelayMs` does apart from the delay that it picks. -/
def nextReconnectDelayMs (transport : ReconnectingRelayTransport) : ReconnectingRelayTransport :=
  { transport with backoffMs := min (transport.backoffMs*2) relayReconnectMaxDelayMs }

@[simp] lemma closed_disconnectClient (transport : ReconnectingRelayTransport) (client : RelayWebSocketClient) :
    (transport.disconnectClient client).closed = transport.closed := by
 unfold disconnectClient
 split <;> rfl

@[simp] lemma closed_handlePong (data : Bytes) (transport : ReconnectingRelayTransport) :
    (transport.handlePong data).closed = transport.closed := by
 unfold handlePong
 split <;> rfl

variable {P} {transport : ReconnectingRelayTransport} {client : RelayWebSocketClient} {datagrams : Datagrams}

lemma sendDatagrams_of_encoded {frame : Bytes} (hopen : transport.closed = false)
    (hc : transport.client = some client) (hr : client.ready = true)
    (hf : encodeClientToRelayFrame P datagrams = .ok frame) : sendDatagrams P datagrams transport =
      .ok () { transport with written := transport.written ++ [(client.socket, frame)] } := by
 have hs : client.sendDatagrams P datagrams = .ok frame := by
  rw [RelayWebSocketClient.sendDatagrams,if_pos hr,hf]
 rw [sendDatagrams,Throwing.get_bind,if_neg (by simp [hopen]),hc]
 dsimp only
 rw [hs]
 rfl

lemma sendDatagrams_of_error {e : Thrown} (hopen : transport.closed = false)
    (hc : transport.client = some client) (hf : encodeClientToRelayFrame P datagrams = .error e) :
    ∃ after, sendDatagrams P datagrams transport = .ok () after ∧ after.client = none ∧
      after.written = transport.written := by
 obtain ⟨e',hs⟩ : ∃ e', client.sendDatagrams P datagrams = .error e' := by
  rw [RelayWebSocketClient.sendDatagrams]
  split
  · exact ⟨e,hf⟩
  · exact ⟨_,rfl⟩
 refine ⟨transport.disconnectClient client,?_,?_,?_⟩
 · rw [sendDatagrams,Throwing.get_bind,if_neg (by simp [hopen]),hc]
   dsimp only
   rw [hs]
   rfl
 · rw [disconnectClient,if_pos (by rw [hc]; rfl)]
 · rw [disconnectClient,if_pos (by rw [hc]; rfl)]
   rfl

end ReconnectingRelayTransport

end Enlace.Lite
