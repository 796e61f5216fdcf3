import Enlace.Lite.Pair

set_option autoImplicit false

/-! The credit of two connected endpoints. -/
namespace Enlace.Lite
open ByteString Fallible Enlace.Quic List Function Throwing QuicConnectionState Connection EndpointConnectionDriver
open QuicOneRttState Pair
open Throwing (outcome zoom)
open Transition

variable {C : Ciphers} {η θ : Type} {keys : QuicConnectionDirectionalKeys} {ids : QuicEndpointRole → Bytes}
  {role : QuicEndpointRole} {written streamId : ℕ} {data : Bytes} {fin : Bool}

structure Connection.Admits (role : QuicEndpointRole) (streamId : ℕ) (data : Bytes) (fin : Bool)
    (connection : Connection η θ) : Prop where
  isOpen : connection.closed = false
  idInRange : streamId ≤ maxSafeInteger
  nonempty : ¬ (data.length = 0 ∧ fin = false)
  maySend : MaySendOn role streamId
  endInRange : ∀ quic ∈ connection.driver.connection,
    (quic.oneRtt.sendState.streams streamId).offset + data.length ≤ maxSafeInteger
  numbered : ∀ quic ∈ connection.driver.connection, quic.oneRtt.nextPacketNumber ≠ quicMaxPacketNumber

variable {peer : Bytes}

lemma lacksCredit_write_iff {connection : Connection η θ} {quic : QuicConnectionState}
    (hq : connection.driver.connection = some quic) (hpeer : connection.driver.peerEndpointId = some peer) :
    LacksCredit (outcome (write C streamId data fin connection)) ↔
      connection.closed = false ∧ LacksCredit (outcome (sendStream C streamId data fin quic)) := by
 cases hc : connection.closed with
 | true =>
  rw [write_of_closed hc]
  exact iff_of_false (fun h=>absurd (lacksCredit_error.mp h) (by decide)) (by simp)
 | false =>
  rw [and_iff_right rfl]
  cases hs : sendStream C streamId data fin quic with
  | error e after =>
   rw [write_error hq hpeer hc hs]
   exact lacksCredit_error.trans lacksCredit_error.symm
  | ok sent after =>
   rw [write_ok hq hpeer hc hs]
   exact (lacksCredit_ok _).trans (lacksCredit_ok _).symm

lemma Side.lacksCredit_write_iff (hC : C.AddsTag) {connection : Connection η θ}
    (h : Side keys ids role written connection) :
    LacksCredit (outcome (Connection.write C streamId data fin connection)) ↔
      connection.Admits role streamId data fin ∧ defaultFlowControlLimit < written + data.length := by
 obtain ⟨peer,hpeer⟩:=h.peer
 obtain ⟨quic,hq,hb⟩:=h.quic
 rw [Lite.lacksCredit_write_iff hq hpeer,lacksCredit_sendStream_iff hC hb.inRange,
  hb.granted.lacksCredit_send_iff (by decide),hb.sentData]
 constructor
 · rintro ⟨hopen,hn,hid,hdata,he,hm,hgt⟩
   refine ⟨⟨hopen,hid,hdata,hm,?_,?_⟩,hgt⟩
   · intro other ho
     cases hq.symm.trans ho
     exact he
   · intro other ho
     cases hq.symm.trans ho
     exact hn
 · rintro ⟨ha,hgt⟩
   exact ⟨ha.isOpen,ha.numbered quic hq,ha.idInRange,ha.nonempty,ha.endInRange quic hq,ha.maySend,hgt⟩

structure Sending (streamId packets sent : ℕ) (connection : Connection η θ) : Prop where
  isOpen : connection.closed = false
  number : ∀ quic ∈ connection.driver.connection, quic.oneRtt.nextPacketNumber = packets
  cursor : ∀ quic ∈ connection.driver.connection, quic.oneRtt.sendState.streams streamId = ⟨sent, false⟩

structure Receiving (peer : Bytes) (streamId packets sent : ℕ) (connection : Connection η θ) : Prop where
  isOpen : connection.closed = false
  peer : connection.driver.peerEndpointId = some peer
  number : ∀ quic ∈ connection.driver.connection, quic.oneRtt.nextPacketNumber = packets
  expected : ∀ quic ∈ connection.driver.connection,
    nextExpectedQuicPacketNumber quic.oneRtt.largestReceivedPacketNumber = .ok packets
  buffer : ∀ quic ∈ connection.driver.connection, (quic.oneRtt.receiveState.streams streamId).Drained sent
  drained : ∀ id, (connection.streams id).getD [] = []

section
variable {packets sent : ℕ} {connection : Connection η θ} (htag : C.AddsTag) (hid : streamId ≤ maxSafeInteger)
  (hpackets : packets < quicMaxPacketNumber) (hdata : data ≠ [])
include htag hid hpackets hdata

lemma Sending.write (hsi : Side keys ids role sent connection) (h : Sending streamId packets sent connection)
    (hm : MaySendOn role streamId) (hcr : sent + data.length ≤ defaultFlowControlLimit) :
    ∃ result after length fb, write C streamId data false connection = .ok result after ∧
      Sending streamId (packets + 1) (sent + data.length) after ∧
      encodeQuicStreamFrame streamId sent data false = .ok fb ∧
      encryptQuicOneRttPacket C (keysOf keys role) (ids (other role)) packets length fb =
        .ok result.datagrams.contents := by
 obtain ⟨peer,hpeer⟩:=hsi.peer
 obtain ⟨quic,hq,hb⟩:=hsi.quic
 have hn:=h.number quic hq
 have hc:=h.cursor quic hq
 have hg : quic.oneRtt.sendState.validateCredit streamId data.length = .ok () :=
  hb.granted.validateCredit_of_le (by decide) hm (by rw [hb.sentData]; exact hcr)
 obtain ⟨⟨stream,state⟩,hs⟩:=QuicStreamSendState.send_of_credit hid
  (fun he=>hdata (eq_nil_of_length_eq_zero he.1)) hg (by rw [hc])
 obtain ⟨pkt,hp,hse⟩:=sendStream_of_accepted quic.sendKeys quic.peerConnectionId hs htag
  (by rw [hn]; exact hpackets)
 obtain ⟨fb,hf,rfl,rfl⟩:=QuicStreamSendState.send_eq_ok hs
 rw [hb.sendKeys,hb.peerConnectionId,hn] at hp
 rw [hc] at hf
 refine ⟨_,_,_,fb,write_ok hq hpeer h.isOpen (sendStream_ok hse), ⟨h.isOpen,?_,?_⟩,hf,hp⟩
 · intro next hne
   cases connection_withConnection.symm.trans hne
   exact congrArg (· + 1) hn
 · intro next hne
   cases connection_withConnection.symm.trans hne
   dsimp only
   rw [update_self,hc]
   rfl

lemma Receiving.receive (hde : C.Decrypts) (hsi : Side keys ids (other role) written connection)
    (h : Receiving peer streamId packets sent connection) (hi : (ids (other role)).length ≤ maxSafeInteger)
    (he : sent + data.length ≤ maxSafeInteger) (H : ClientHandshake η) (S : ServerHandshake θ)
    (ecn : Option EcnCodepoint) {length : ℕ} {fb pkt : Bytes}
    (hf : encodeQuicStreamFrame streamId sent data false = .ok fb)
    (hp : encryptQuicOneRttPacket C (keysOf keys role) (ids (other role)) packets length fb = .ok pkt) :
    ∃ result after, receive C H S ⟨peer, ecn, none, pkt⟩ connection = .ok result after ∧
      result.streamOutputs = [⟨streamId, sent, data, false, none, false⟩] ∧ result.closed = false ∧
      Receiving peer streamId (packets + 1) (sent + data.length) after := by
 obtain ⟨quic,hq,hb⟩:=hsi.quic
 have hs:=isShortHeaderPacket_of_encrypted hp
 rw [← other_other role,← hb.receiveKeys,other_other,← hb.localConnectionId] at hp
 obtain ⟨rec,hl,hdec⟩:=decode_of_expected ⟨streamId,sent,data,false⟩
  hde (hb.localConnectionId ▸ hi) (h.expected quic hq) hp hf hid he
 obtain ⟨buffer,hbu,hdr⟩:=(h.buffer quic hq).receive streamId hdata he
 obtain ⟨result,after,hr,ho,hcl,_,hn,hne,hst⟩ :=
  receive_of_expected htag hid hdec hbu (by rw [h.number quic hq]; exact hpackets)
 obtain ⟨driver,hd,hc,hpeer⟩:=receive_single C hq h.peer H S
  (show splitRelayDatagramPackets ⟨peer,ecn,none,pkt⟩ = .ok [pkt] from
   splitQuicRelayDatagram_of_short hs) hs rfl
 rw [hr] at hd hc
 rw [receive_of_open h.isOpen,onDriver,zoom,hd]
 refine ⟨_,_,rfl,ho,hcl,h.isOpen,hpeer,?_,?_,?_,h.drained⟩
 · intro quic' hq'
   cases hc.symm.trans hq'
   rw [final,hn,h.number quic hq]
 · intro quic' hq'
   cases hc.symm.trans hq'
   rw [final,hne,hl,nextExpectedQuicPacketNumber,quicPacketNumberToBigInt_of_le (by omega),ok_bind,
    throwIf_neg (by omega)]
   rfl
 · intro quic' hq'
   cases hc.symm.trans hq'
   rw [final,hst,update_self]
   exact hdr

omit htag hid hpackets hdata in
lemma Receiving.dequeueOutput (h : Receiving peer streamId packets sent connection)
    {result : QuicRelayReceiveResult} {output : QuicStreamReceiveOutput} (ho : result.streamOutputs = [output])
    (hst : output.streamId = streamId) (hopen : result.closed = false) :
    ∃ after, (connection.finish result).dequeueOutput streamId = (some output, after) ∧
      Receiving peer streamId packets sent after := by
 obtain ⟨bidi,uni,hq⟩:=queueStreamOutput_of_drained (h.drained output.streamId)
 have hf : connection.finish result = connection.queueStreamOutput output := by
  rw [finish,ho,hopen]
  rfl
 rw [hf,hq,hst,Connection.dequeueOutput]
 dsimp only
 rw [update_self]
 refine ⟨_,rfl,h.isOpen,h.peer,h.number,h.expected,h.buffer,?_⟩
 intro id
 dsimp only
 rw [update_idem]
 by_cases hs : id = streamId
 · rw [hs,update_self]
   rfl
 · rw [update_of_ne hs]
   exact h.drained id

end

structure Lockstep (C : Ciphers) (keys : QuicConnectionDirectionalKeys) (ids : QuicEndpointRole → Bytes) (peer : Bytes)
    (role : QuicEndpointRole) (streamId packets sent : ℕ) (pair : Pair η θ) : Prop where
  inv : pair.Inv C keys ids
  sending : Sending streamId packets sent (pair.ends role)
  receiving : Receiving peer streamId packets sent (pair.ends (other role))
  produced : (pair.produced role).length = packets
  written : pair.written role = sent
  read : pair.read (other role) = sent

def lockstep (peer : Bytes) (role : QuicEndpointRole) (streamId : ℕ) (data : Bytes) (index : ℕ) : List PairEvent :=
  [.write role streamId data false, .deliver (other role) index peer none, .read (other role) streamId]

lemma Lockstep.next {packets sent : ℕ} {pair : Pair η θ} (htag : C.AddsTag) (hd : C.Decrypts)
    (ha : C.Authentic)
    (hi : ∀ role, (ids role).length ≤ maxSafeInteger) (H : ClientHandshake η) (S : ServerHandshake θ)
    (hid : streamId ≤ maxSafeInteger) (hpackets : packets < quicMaxPacketNumber) (hdata : data ≠ [])
    (hm : MaySendOn role streamId) (hc : sent + data.length ≤ defaultFlowControlLimit)
    (h : Lockstep C keys ids peer role streamId packets sent pair) :
    ∃ after, Runs (step C H S) pair (lockstep peer role streamId data packets) after ∧
      Lockstep C keys ids peer role streamId (packets + 1) (sent + data.length) after := by
 have hsi:=h.inv.ends role
 rw [h.written] at hsi
 obtain ⟨result,sender,length,fb,hwr,hs,hfr,hpa⟩ := h.sending.write htag hid hpackets hdata hsi hm hc
 have hen : sent+data.length ≤ maxSafeInteger := hc.trans (by decide)
 obtain ⟨rec,receiver,hre,ho,hcl,hr⟩:=h.receiving.receive htag hid hpackets hdata
  hd (h.inv.ends (other role)) (hi _) hen H S none hfr hpa
 obtain ⟨reader,hrd,hdo⟩:=hr.dequeueOutput ho rfl hcl
 have hne:=other_ne role
 let first : Pair η θ := { pair with
  ends := update pair.ends role sender
  produced := update pair.produced role (pair.produced role ++ [result.datagrams.contents])
  written := update pair.written role (pair.written role+data.length) }
 have hf : pair.step C H S (.write role streamId data false) = some first := by
  rw [Pair.step,Pair.write,hwr]
 let second : Pair η θ := { first with
  ends := update first.ends (other role) (receiver.finish rec)
  produced := update first.produced (other role)
   (first.produced (other role) ++ rec.outgoing.map Datagrams.contents) }
 have hse : first.step C H S (.deliver (other role) packets peer none) = some second := by
  have hp : (first.produced (other (other role)))[packets]? = some result.datagrams.contents := by
   rw [other_other]
   change (update pair.produced role _ role)[packets]? = _
   rw [update_self,← h.produced,getElem?_concat_length]
  have he : first.ends (other role) = pair.ends (other role) := update_of_ne hne _ _
  rw [step,hp,Option.map_some,deliver,he,hre]
 let third : Pair η θ := { second with
  ends := update second.ends (other role) reader
  read := update pair.read (other role) (pair.read (other role)+data.length) }
 have ht : second.step C H S (.read (other role) streamId) = some third := by
  have he : second.ends (other role) = receiver.finish rec := update_self _ _ _
  rw [step,takeOutput,he,hrd]
 have hru : Runs (step C H S) pair (lockstep peer role streamId data packets) third :=
  .next hf (.next hse (.next ht (.refl third)))
 refine ⟨third,hru,?_,?_,?_,?_,?_,?_⟩
 · exact hru.invariant (Pair.Inv C keys ids) h.inv fun _ _ _ hin hst=>hin.step htag ha hi hst
 · have he : third.ends role = sender := by simp [third,second,first,hne.symm]
   rw [he]
   exact hs
 · have he : third.ends (other role) = reader := update_self _ _ _
   rw [he]
   exact hdo
 · have hp : third.produced role = pair.produced role ++ [result.datagrams.contents] := by
    simp [third,second,first,hne.symm]
   rw [hp,length_append,h.produced,length_singleton]
 · have hw : third.written role = pair.written role+data.length := update_self _ _ _
   rw [hw,h.written]
 · have hco : third.read (other role) = pair.read (other role)+data.length := update_self _ _ _
   rw [hco,h.read]

lemma Lockstep.rounds {pair : Pair η θ} (htag : C.AddsTag) (hd : C.Decrypts) (ha : C.Authentic)
    (hi : ∀ role, (ids role).length ≤ maxSafeInteger) (H : ClientHandshake η) (S : ServerHandshake θ)
    (hid : streamId ≤ maxSafeInteger) (hdata : data ≠ []) (hma : MaySendOn role streamId)
    (h : Lockstep C keys ids peer role streamId 0 0 pair) {rounds : ℕ}
    (hc : rounds*data.length ≤ defaultFlowControlLimit) :
    ∃ after, Runs (step C H S) pair ((range rounds).flatMap (lockstep peer role streamId data)) after ∧
      Lockstep C keys ids peer role streamId rounds (rounds*data.length) after := by
 induction rounds with
 | zero => exact ⟨pair,.refl pair,by rw [Nat.zero_mul]; exact h⟩
 | succ rounds ih =>
  rw [Nat.succ_mul] at hc
  obtain ⟨middle,hr,hm⟩:=ih (by omega)
  have hro : rounds ≤ defaultFlowControlLimit :=
   (Nat.le_mul_of_pos_right rounds (length_pos_iff.mpr hdata)).trans (by omega)
  have hlimit : defaultFlowControlLimit < quicMaxPacketNumber := by decide
  obtain ⟨after,hn,haf⟩:=hm.next htag hd ha hi H S hid (by omega) hdata hma hc
  refine ⟨after,?_,by rw [Nat.succ_mul]; exact haf⟩
  rw [range_succ,flatMap_append]
  exact hr.append hn

/-- Credit is never replenished: in every run the writes that fail for lack of it are those that would take a side past
its first limit. -/
theorem Pair.lacksCredit_iff (htag : C.AddsTag) (hauthentic : C.Authentic)
    (hids : ∀ role, (ids role).length ≤ maxSafeInteger)
    {H : ClientHandshake η} {S : ServerHandshake θ} {start pair : Pair η θ} {events : List PairEvent}
    (hstart : start.Start keys ids) (hruns : Runs (Pair.step C H S) start events pair)
    (role : QuicEndpointRole) (streamId : ℕ) (data : Bytes) (fin : Bool) :
    LacksCredit (outcome (Connection.write C streamId data fin (pair.ends role))) ↔
      (pair.ends role).Admits role streamId data fin ∧ defaultFlowControlLimit < pair.written role + data.length := by
 have hi : pair.Inv C keys ids := hruns.invariant (Pair.Inv C keys ids) hstart.inv
  fun _ _ _ hi hs=>hi.step htag hauthentic hids hs
 exact (hi.ends role).lacksCredit_write_iff htag

def pairKeys : QuicConnectionDirectionalKeys := ⟨plainKeys, plainKeys⟩

def pairIds : QuicEndpointRole → Bytes
  | .client => clientConnectionId
  | .server => serverConnectionId

def establishedPair (client server : QuicOneRttState) : Pair Unit Unit where
  ends
    | .client => ⟨.client (clientDriver (some ⟨.client, pairKeys, clientConnectionId, serverConnectionId, client⟩)),
        fun _ => none, [], [], false⟩
    | .server => ⟨.server ⟨⟨⟨(), true⟩, [],
        some ⟨.server, pairKeys, serverConnectionId, clientConnectionId, server⟩, []⟩, some relayPeer, none⟩,
        fun _ => none, [], [], false⟩
  produced _ := []
  written _ := 0
  read _ := 0

lemma pairIds_length (role : QuicEndpointRole) : (pairIds role).length ≤ maxSafeInteger := by
 cases role with
 | client | server => decide

lemma establishedPair_start : ∃ client server, (establishedPair client server).Start pairKeys pairIds ∧
      Lockstep plainCiphers pairKeys pairIds relayPeer .client 0 0 0 (establishedPair client server) := by
 obtain ⟨client,hc⟩ : ∃ client, create 0 none
   ⟨none,some (peerTransportParameters .client),some .client⟩ = .ok client := ⟨_,rfl⟩
 obtain ⟨server,hs⟩ : ∃ server, create 0 none
   ⟨none,some (peerTransportParameters .server),some .server⟩ = .ok server := ⟨_,rfl⟩
 have hst : (establishedPair client server).Start pairKeys pairIds := by
  refine ⟨?_,?_,fun _=>rfl,fun _=>rfl⟩
  · intro role
    cases role with
    | client => exact ⟨client,hc,rfl⟩
    | server => exact ⟨server,hs,rfl⟩
  · intro role
    cases role with
    | client | server => exact ⟨relayPeer,rfl⟩
 refine ⟨client,server,hst,hst.inv,?_,?_,rfl,rfl,rfl⟩
 · cases hc
   refine ⟨rfl,?_,?_⟩
   · intro quic hq
     cases hq
     rfl
   · intro quic hq
     cases hq
     rfl
 · cases hs
   refine ⟨rfl,rfl,?_,?_,?_,fun _=>rfl⟩
   · intro quic hq
     cases hq
     rfl
   · intro quic hq
     cases hq
     rfl
   · intro quic hq
     cases hq
     exact QuicStreamReceiveBuffer.drained_empty

/-- The client writes 4096 bytes on its first stream again and again, each write delivered and read before the next. -/
def writeRounds (rounds : ℕ) : List PairEvent :=
  (range rounds).flatMap (lockstep relayPeer .client 0 (replicate 4096 0x61))

lemma exists_lockstep_writeRounds {rounds : ℕ} (hr : rounds ≤ 16) : ∃ client server pair,
    (establishedPair client server).Start pairKeys pairIds ∧
    Runs (Pair.step plainCiphers noClientHandshake noServerHandshake) (establishedPair client server)
      (writeRounds rounds) pair ∧
    Lockstep plainCiphers pairKeys pairIds relayPeer .client 0 rounds (rounds*4096) pair := by
 obtain ⟨client,server,hs,hlo⟩:=establishedPair_start
 have hl : (replicate 4096 (0x61 : UInt8)).length = 4096 := length_replicate
 have hne : replicate 4096 (0x61 : UInt8) ≠ [] := ne_nil_of_length_pos (by rw [hl]; decide)
 have hc : rounds*(replicate 4096 (0x61 : UInt8)).length ≤ defaultFlowControlLimit := by
  rw [hl]
  exact Nat.mul_le_mul_right 4096 hr
 obtain ⟨pair,hru,hp⟩:=hlo.rounds plainCiphers.addsTag plainCiphers.decrypts plainCiphers.authentic
  pairIds_length noClientHandshake noServerHandshake (Nat.zero_le _) hne (by decide) hc
 rw [hl] at hp
 exact ⟨client,server,pair,hs,hru,hp⟩

theorem sixteenth_write_has_credit : ∃ client server pair, (establishedPair client server).Start pairKeys pairIds ∧
    Runs (Pair.step plainCiphers noClientHandshake noServerHandshake) (establishedPair client server)
      (writeRounds 15) pair ∧ pair.read .server = 61440 ∧
    ¬ LacksCredit (outcome (Connection.write plainCiphers 0 (replicate 4096 0x61) false (pair.ends .client))) := by
 obtain ⟨client,server,pair,hs,hr,hp⟩:=exists_lockstep_writeRounds (show 15 ≤ 16 by decide)
 refine ⟨client,server,pair,hs,hr,hp.read,fun hl=>?_⟩
 have hi:=lacksCredit_iff plainCiphers.addsTag plainCiphers.authentic pairIds_length hs hr .client 0
  (replicate 4096 0x61) false
 have hgt:=(hi.mp hl).2
 rw [hp.written,length_replicate] at hgt
 exact absurd hgt (by decide)

/-- Sixteen of these writes leave no credit, although everything was read. -/
theorem sixteen_writes_use_up_the_credit :
    ∃ client server pair, (establishedPair client server).Start pairKeys pairIds ∧
      Runs (Pair.step plainCiphers noClientHandshake noServerHandshake) (establishedPair client server)
        (writeRounds 16) pair ∧ pair.written .client = 65536 ∧ pair.read .server = 65536 ∧
      (∀ streamId, ((pair.ends .server).streams streamId).getD [] = []) ∧
      LacksCredit (outcome (Connection.write plainCiphers 0 [0x61] false (pair.ends .client))) := by
 obtain ⟨client,server,pair,hs,hr,hp⟩:=exists_lockstep_writeRounds (Nat.le_refl 16)
 refine ⟨client,server,pair,hs,hr,hp.written,hp.read,hp.receiving.drained,?_⟩
 refine ((hp.inv.ends .client).lacksCredit_write_iff plainCiphers.addsTag).mpr ⟨⟨hp.sending.isOpen,
  Nat.zero_le _,by decide,by decide,?_,?_⟩,?_⟩
 · intro quic hq
   rw [hp.sending.cursor quic hq]
   decide
 · intro quic hq
   rw [hp.sending.number quic hq]
   decide
 · rw [hp.written]
   decide

end Enlace.Lite
