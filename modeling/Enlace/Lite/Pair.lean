import Enlace.Lib.Transition
import Enlace.Lite.Connection
import Enlace.Quic.Credit

set_option autoImplicit false

/-! Two connected endpoints and the 1-RTT packets between them. -/
namespace Enlace.Lite
open ByteString Fallible Enlace.Quic List Option Function EndpointConnectionDriver QuicConnectionState Connection
open QuicOneRttState
open Throwing (outcome)
open Transition

def defaultFlowControlLimit : ℕ := 65536

/-- The flow control parameters of `clientTransportParameters`. -/
def clientTransportParameters : QuicTransportParameters :=
  ⟨defaultFlowControlLimit, defaultFlowControlLimit, defaultFlowControlLimit, defaultFlowControlLimit⟩

/-- The flow control parameters of `serverTransportParameters`. -/
def serverTransportParameters : QuicTransportParameters :=
  ⟨defaultFlowControlLimit, defaultFlowControlLimit, defaultFlowControlLimit, defaultFlowControlLimit⟩

def peerTransportParameters : QuicEndpointRole → QuicTransportParameters
  | .client => serverTransportParameters
  | .server => clientTransportParameters

def other : QuicEndpointRole → QuicEndpointRole
  | .client => .server
  | .server => .client

lemma other_other (role : QuicEndpointRole) : other (other role) = role := by
 cases role with
 | client => rfl
 | server => rfl

lemma other_ne (role : QuicEndpointRole) : other role ≠ role := by
 cases role with
 | client | server => decide

def keysOf (keys : QuicConnectionDirectionalKeys) : QuicEndpointRole → QuicDirectionalKeys
  | .client => keys.client
  | .server => keys.server

variable (C : Ciphers) {η θ : Type}

/-- `produced` has the packets of each side; `written` and `read` count the bytes that it has written and read. -/
structure Pair (η θ : Type) where
  ends : QuicEndpointRole → Connection η θ
  produced : QuicEndpointRole → List Bytes
  written : QuicEndpointRole → ℕ
  read : QuicEndpointRole → ℕ

/-- What happens at one of the sides. A packet of the other one is delivered at any time, again or never. -/
inductive PairEvent where
  | write (role : QuicEndpointRole) (streamId : ℕ) (data : Bytes) (fin : Bool)
  | deliver (role : QuicEndpointRole) (index : ℕ) (endpointId : Bytes) (ecn : Option EcnCodepoint)
  | read (role : QuicEndpointRole) (streamId : ℕ)

namespace Pair

def write (role : QuicEndpointRole) (streamId : ℕ) (data : Bytes) (fin : Bool) (pair : Pair η θ) : Pair η θ :=
  match Connection.write C streamId data fin (pair.ends role) with
  | .error _ after => { pair with ends := Function.update pair.ends role after }
  | .ok sent after =>
    { pair with
      ends := Function.update pair.ends role after
      produced := Function.update pair.produced role (pair.produced role ++ [sent.datagrams.contents])
      written := Function.update pair.written role (pair.written role + data.length) }

def deliver (H : ClientHandshake η) (S : ServerHandshake θ) (role : QuicEndpointRole) (datagrams : Datagrams)
    (pair : Pair η θ) : Pair η θ :=
  match Connection.receive C H S datagrams (pair.ends role) with
  | .error _ after => { pair with ends := Function.update pair.ends role after }
  | .ok result after =>
    { pair with
      ends := Function.update pair.ends role (after.finish result)
      produced := Function.update pair.produced role
        (pair.produced role ++ result.outgoing.map Datagrams.contents) }

def takeOutput (role : QuicEndpointRole) (streamId : ℕ) (pair : Pair η θ) : Pair η θ :=
  match (pair.ends role).dequeueOutput streamId with
  | (none, _) => pair
  | (some output, after) =>
    { pair with
      ends := Function.update pair.ends role after
      read := Function.update pair.read role (pair.read role + output.data.length) }

def step (H : ClientHandshake η) (S : ServerHandshake θ) (pair : Pair η θ) : PairEvent → Option (Pair η θ)
  | .write role streamId data fin => some (pair.write C role streamId data fin)
  | .deliver role index endpointId ecn =>
    (pair.produced (other role))[index]?.map fun packet =>
      pair.deliver C H S role ⟨endpointId, ecn, none, packet⟩
  | .read role streamId => some (pair.takeOutput role streamId)

structure Start (keys : QuicConnectionDirectionalKeys) (ids : QuicEndpointRole → Bytes) (pair : Pair η θ) : Prop where
  connection : ∀ role, ∃ oneRtt,
    QuicOneRttState.create 0 none ⟨none, some (peerTransportParameters role), some role⟩ = .ok oneRtt ∧
      (pair.ends role).driver.connection = some ⟨role, keys, ids role, ids (other role), oneRtt⟩
  peer : ∀ role, ∃ peer, (pair.ends role).driver.peerEndpointId = some peer
  produced : ∀ role, pair.produced role = []
  written : ∀ role, pair.written role = 0

end Pair

variable {C} {keys : QuicConnectionDirectionalKeys} {ids : QuicEndpointRole → Bytes} {role : QuicEndpointRole}
  {written streamId : ℕ} {data : Bytes} {fin : Bool}

structure Between (keys : QuicConnectionDirectionalKeys) (ids : QuicEndpointRole → Bytes) (role : QuicEndpointRole)
    (written : ℕ) (quic : QuicConnectionState) : Prop where
  role_eq : quic.role = role
  keys_eq : quic.keys = keys
  localConnectionId : quic.localConnectionId = ids role
  peerConnectionId : quic.peerConnectionId = ids (other role)
  inRange : quic.oneRtt.nextPacketNumber ≤ quicMaxPacketNumber
  granted : quic.oneRtt.sendState.Granted role defaultFlowControlLimit
  sentData : quic.oneRtt.sendState.sentData = written

namespace Between

variable {quic after : QuicConnectionState} (h : Between keys ids role written quic)
include h

lemma sendKeys : quic.sendKeys = keysOf keys role := by
 rw [QuicConnectionState.sendKeys,h.role_eq,h.keys_eq]
 cases role with
 | client => rfl
 | server => rfl

lemma receiveKeys : quic.receiveKeys = keysOf keys (other role) := by
 rw [QuicConnectionState.receiveKeys,h.role_eq,h.keys_eq]
 cases role with
 | client => rfl
 | server => rfl

lemma sameSending (hs : QuicConnectionState.SameSending quic after) : Between keys ids role written after where
 role_eq := hs.role.trans h.role_eq
 keys_eq := hs.keys.trans h.keys_eq
 localConnectionId := hs.localConnectionId.trans h.localConnectionId
 peerConnectionId := hs.peerConnectionId.trans h.peerConnectionId
 inRange := hs.inRange h.inRange
 granted := hs.sendState ▸ h.granted
 sentData := hs.sendState ▸ h.sentData

lemma sendStream (hC : C.AddsTag) : (∃ e, sendStream C streamId data fin quic = .error e quic) ∨
      ∃ sent after, sendStream C streamId data fin quic = .ok sent after ∧
        Between keys ids role (written + data.length) after ∧
        SilentPacket C (keysOf keys role) (ids (other role)) sent.packet := by
 by_cases hmax : quic.oneRtt.nextPacketNumber = quicMaxPacketNumber
 · exact .inl ⟨_,sendStream_error (sendStream_of_exhausted hmax)⟩
 · cases hs : quic.oneRtt.sendState.send streamId data fin with
   | error e => exact .inl ⟨e,sendStream_error (sendStream_of_refused hmax hs)⟩
   | ok accepted =>
    obtain ⟨result,state⟩:=accepted
    have hlt:=Nat.lt_of_le_of_ne h.inRange hmax
    obtain ⟨pkt,hp,hst⟩:=sendStream_of_accepted quic.sendKeys
     quic.peerConnectionId hs hC hlt
    obtain ⟨hg,hse⟩:=h.granted.send hs
    obtain ⟨hid,he⟩:=QuicStreamSendState.send_inRange hs
    obtain ⟨fb,hf,rfl,_⟩:=QuicStreamSendState.send_eq_ok hs
    refine .inr ⟨_,_,sendStream_ok hst,?_,?_⟩
    · exact ⟨h.role_eq,h.keys_eq,h.localConnectionId,h.peerConnectionId,hlt,hg, hse.trans (by rw [h.sentData])⟩
    · rw [← h.sendKeys,← h.peerConnectionId]
      exact silentPacket_of_stream ⟨_,_,_,_⟩ hf hid he hp

end Between

structure Side (keys : QuicConnectionDirectionalKeys) (ids : QuicEndpointRole → Bytes) (role : QuicEndpointRole)
    (written : ℕ) (connection : Connection η θ) : Prop where
  peer : ∃ peer, connection.driver.peerEndpointId = some peer
  quic : ∃ quic, connection.driver.connection = some quic ∧ Between keys ids role written quic

namespace Side

variable {connection : Connection η θ} (h : Side keys ids role written connection)
include h

lemma of_driver {after : Connection η θ} (hd : after.driver = connection.driver) : Side keys ids role written after :=
 ⟨hd ▸ h.peer,hd ▸ h.quic⟩

lemma write (hC : C.AddsTag) (streamId : ℕ) (data : Bytes) (fin : Bool) :
    match write C streamId data fin connection with
    | .error _ after => Side keys ids role written after
    | .ok sent after => Side keys ids role (written + data.length) after ∧
      SilentPacket C (keysOf keys role) (ids (other role)) sent.datagrams.contents := by
 obtain ⟨peer,hpeer⟩:=h.peer
 obtain ⟨quic,hq,hb⟩:=h.quic
 cases hc : connection.closed with
 | true =>
  rw [write_of_closed hc]
  exact h
 | false =>
  rcases hb.sendStream hC with ⟨e,he⟩|⟨sent,after,hs,ha,hsilent⟩
  · rw [write_error hq hpeer hc he]
    exact ⟨⟨peer,peerEndpointId_withConnection.trans hpeer⟩,quic, connection_withConnection,hb⟩
  · rw [write_ok hq hpeer hc hs]
    exact ⟨⟨⟨peer,peerEndpointId_withConnection.trans hpeer⟩,after, connection_withConnection,ha⟩,hsilent⟩

lemma receive (hC : C.Authentic) (hid : (ids role).length ≤ maxSafeInteger) (H : ClientHandshake η)
    (S : ServerHandshake θ) (endpointId : Bytes) (ecn : Option EcnCodepoint) {pkt : Bytes}
    (hp : SilentPacket C (keysOf keys (other role)) (ids role) pkt) :
    match receive C H S ⟨endpointId, ecn, none, pkt⟩ connection with
    | .error _ after => Side keys ids role written after
    | .ok result after => Side keys ids role written after ∧
      ∀ dgs ∈ result.outgoing, SilentPacket C (keysOf keys role) (ids (other role)) dgs.contents := by
 obtain ⟨peer,hpeer⟩:=h.peer
 obtain ⟨quic,hqu,hb⟩:=h.quic
 have hs : isShortHeaderPacket pkt = .ok true := by
  obtain ⟨n,length,payload,he,_⟩:=hp
  exact isShortHeaderPacket_of_encrypted he
 rw [← hb.receiveKeys,← hb.localConnectionId] at hp
 have hq:=receive_of_silentPacket hC hp (hb.localConnectionId ▸ hid)
 cases hcl : connection.closed with
 | true =>
  rw [receive_of_closed hcl]
  exact h
 | false =>
  rw [receive_of_open hcl,onDriver,Throwing.zoom]
  by_cases hsa : endpointId = peer
  · obtain ⟨next,hre,hc,hp'⟩:=receive_single C hqu hpeer H S
     (show splitRelayDatagramPackets ⟨endpointId,ecn,none,pkt⟩ = .ok [pkt] from
      splitQuicRelayDatagram_of_short hs) hs hsa
    rw [hre]
    cases hr : QuicConnectionState.receive C pkt 0 quic with
    | error e after =>
     rw [hr] at hq hc
     exact ⟨⟨peer,hp'⟩,after,hc,hb.sameSending hq⟩
    | ok rec after =>
     rw [hr] at hq hc
     obtain ⟨hk,ha⟩:=hq
     refine ⟨⟨⟨peer,hp'⟩,after,hc,hb.sameSending hk⟩,?_⟩
     intro dgs hd
     obtain ⟨sent,hse,rfl⟩:=mem_map.mp hd
     rw [← hb.sendKeys,← hb.peerConnectionId]
     exact ha sent (mem_toList.mp hse)
  · rw [receive_of_stranger hpeer hsa]
    exact h.of_driver rfl

end Side

namespace Pair

/-- Each side has the credit that it started with less what it has written, and no packet between them has more. -/
structure Inv (C : Ciphers) (keys : QuicConnectionDirectionalKeys) (ids : QuicEndpointRole → Bytes)
    (pair : Pair η θ) : Prop where
  ends : ∀ role, Side keys ids role (pair.written role) (pair.ends role)
  produced : ∀ role, ∀ packet ∈ pair.produced role, SilentPacket C (keysOf keys role) (ids (other role)) packet

lemma peerTransportParameters_eq (role : QuicEndpointRole) : peerTransportParameters role =
    ⟨defaultFlowControlLimit, defaultFlowControlLimit, defaultFlowControlLimit, defaultFlowControlLimit⟩ := by
 cases role with
 | client => rfl
 | server => rfl

variable {pair : Pair η θ}

lemma Start.inv (h : pair.Start keys ids) : pair.Inv C keys ids where
 ends role := by
  obtain ⟨oneRtt,hc,hq⟩:=h.connection role
  have hn:=create_nextPacketNumber_le hc
  simp only [create,peerTransportParameters_eq,bind_eq_ok,pure_eq_ok] at hc
  obtain ⟨_,_,_,_,sendState,hs,rfl⟩:=hc
  obtain ⟨hg,hse⟩:=QuicStreamSendState.create_granted (by decide) hs
  exact ⟨h.peer role,_,hq,rfl,rfl,rfl,rfl,hn,hg,hse.trans (h.written role).symm⟩
 produced role packet hp := by
  rw [h.produced] at hp
  cases hp

variable {H : ClientHandshake η} {S : ServerHandshake θ} {connection : Connection η θ}

lemma Inv.update (h : pair.Inv C keys ids) {pkts : List Bytes} (hs : Side keys ids role written connection)
    (hpa : ∀ pkt ∈ pkts, SilentPacket C (keysOf keys role) (ids (other role)) pkt)
    (read : QuicEndpointRole → ℕ) :
    (⟨update pair.ends role connection, update pair.produced role (pair.produced role ++ pkts),
      update pair.written role written, read⟩ : Pair η θ).Inv C keys ids := by
 constructor
 · intro side
   by_cases hr : side = role
   · subst hr
     simp only [update_self]
     exact hs
   · simp only [update_of_ne hr]
     exact h.ends side
 · refine (forall_update_iff pair.produced fun side pkts=>
    ∀ pkt ∈ pkts, SilentPacket C (keysOf keys side) (ids (other side)) pkt).mpr
     ⟨fun pkt hp=>?_,fun side _=>h.produced side⟩
   exact (mem_append.mp hp).elim (h.produced role pkt) (hpa pkt)

lemma Inv.updateEnd (h : pair.Inv C keys ids)
    (hs : Side keys ids role (pair.written role) connection) (read : QuicEndpointRole → ℕ) :
    ({ pair with ends := Function.update pair.ends role connection, read := read } : Pair η θ).Inv C keys ids := by
 have hu:=h.update hs (forall_mem_nil _) read
 rwa [append_nil,update_eq_self,update_eq_self] at hu

lemma Inv.write (hC : C.AddsTag) (h : pair.Inv C keys ids) : (pair.write C role streamId data fin).Inv C keys ids := by
 have hs:=(h.ends role).write hC streamId data fin
 rw [Pair.write]
 cases hw : Connection.write C streamId data fin (pair.ends role) with
 | error e after =>
  rw [hw] at hs
  exact h.updateEnd hs pair.read
 | ok sent after =>
  rw [hw] at hs
  exact h.update hs.1 (forall_mem_singleton.mpr hs.2) pair.read

lemma Inv.deliver (hC : C.Authentic) (hi : ∀ role, (ids role).length ≤ maxSafeInteger)
    (h : pair.Inv C keys ids) {pkt endpointId : Bytes} {ecn : Option EcnCodepoint}
    (hp : pkt ∈ pair.produced (other role)) :
    (pair.deliver C H S role ⟨endpointId, ecn, none, pkt⟩).Inv C keys ids := by
 have hsilent:=h.produced (other role) pkt hp
 rw [other_other] at hsilent
 have hs:=(h.ends role).receive hC (hi role) H S endpointId ecn hsilent
 rw [Pair.deliver]
 cases hr : receive C H S ⟨endpointId,ecn,none,pkt⟩ (pair.ends role) with
 | error e after =>
  rw [hr] at hs
  exact h.updateEnd hs pair.read
 | ok result after =>
  rw [hr] at hs
  have hu:=h.update (hs.1.of_driver (finish_driver result after))
   (forall_mem_map.mpr hs.2) pair.read
  rwa [update_eq_self] at hu

lemma Inv.takeOutput (h : pair.Inv C keys ids) : (pair.takeOutput role streamId).Inv C keys ids := by
 have hd:=dequeueOutput_driver streamId (pair.ends role)
 rw [Pair.takeOutput]
 split
 · exact h
 · rename_i heq
   rw [heq] at hd
   exact h.updateEnd ((h.ends role).of_driver hd) _

lemma Inv.step (ht : C.AddsTag) (ha : C.Authentic) (hi : ∀ role, (ids role).length ≤ maxSafeInteger)
    {after : Pair η θ} {event : PairEvent} (h : pair.Inv C keys ids) (hs : pair.step C H S event = some after) :
    after.Inv C keys ids := by
 cases event with
 | write role streamId data fin =>
  cases hs
  exact h.write ht
 | deliver role index endpointId ecn =>
  obtain ⟨pkt,hp,rfl⟩:=map_eq_some_iff.mp hs
  exact h.deliver ha hi (mem_of_getElem? hp)
 | read role streamId =>
  cases hs
  exact h.takeOutput

end Pair

end Enlace.Lite
