import Mathlib.Data.Nat.Bitwise
import Enlace.Lib.Transition
import Enlace.Lite.Write

set_option autoImplicit false

/-! The streams that a `Connection` opens, against the number of streams that its peer allows. -/
namespace Enlace.Lite
open ByteString Enlace.Quic List Option Function
open Throwing (lift zoom Keeps Returns)
open Transition

variable (C : Ciphers) {η θ : Type}

/-- The parameters of a peer with its stream counts, which nothing in the package reads after they are decoded. -/
structure PeerTransportParameters extends QuicTransportParameters where
  initialMaxStreamsBidi : ℕ
  initialMaxStreamsUni : ℕ
  deriving DecidableEq

inductive StreamDirection where
  | bidi
  | uni
  deriving DecidableEq

namespace StreamDirection

def ofStreamId (streamId : ℕ) : StreamDirection :=
  if Connection.isUnidirectionalStream streamId then .uni else .bidi

def firstStreamId : StreamDirection → QuicEndpointRole → ℕ
  | .bidi, .client => 0
  | .bidi, .server => 1
  | .uni, .client => 2
  | .uni, .server => 3

end StreamDirection

namespace PeerTransportParameters

def initialMaxStreams (params : PeerTransportParameters) : StreamDirection → ℕ
  | .bidi => params.initialMaxStreamsBidi
  | .uni => params.initialMaxStreamsUni

def Allows (params : PeerTransportParameters) (streamId : ℕ) : Prop :=
  streamId / 4 < params.initialMaxStreams (.ofStreamId streamId)

instance (params : PeerTransportParameters) (streamId : ℕ) : Decidable (params.Allows streamId) :=
  inferInstanceAs (Decidable (_ < _))

end PeerTransportParameters

structure StreamOpener (η θ : Type) where
  connection : Connection η θ
  nextStreamId : StreamDirection → Option ℕ

namespace StreamOpener

def setInitialStreamId (opener : StreamOpener η θ) : StreamOpener η θ :=
  if opener.nextStreamId .bidi ≠ none ∧ opener.nextStreamId .uni ≠ none then opener
  else
    match opener.connection.driver.connection with
    | some connection => { opener with nextStreamId := fun direction => some (direction.firstStreamId connection.role) }
    | none => opener

def nextOpenStreamId (direction : StreamDirection) : EStateM Thrown (StreamOpener η θ) ℕ := do
  modify fun opener => if opener.nextStreamId direction = none then opener.setInitialStreamId else opener
  let opener ← get
  match opener.nextStreamId direction with
  | some streamId => return streamId
  | none => lift (throwRange "connection is not ready to open streams")

def nextOpenBidiStreamId : EStateM Thrown (StreamOpener η θ) ℕ := nextOpenStreamId .bidi

def nextOpenUniStreamId : EStateM Thrown (StreamOpener η θ) ℕ := nextOpenStreamId .uni

/-- The stream object is its identifier. -/
def openStream (direction : StreamDirection) : EStateM Thrown (StreamOpener η θ) ℕ := do
  let opener ← get
  lift opener.connection.requireOpen
  let streamId ← nextOpenStreamId direction
  modify fun opener =>
    ⟨{ opener.connection with streams := Function.update opener.connection.streams streamId (some []) },
      Function.update opener.nextStreamId direction (some (streamId + 4))⟩
  return streamId

def openBidiStream : EStateM Thrown (StreamOpener η θ) ℕ := openStream .bidi

def openUniStream : EStateM Thrown (StreamOpener η θ) ℕ := openStream .uni

/-- `write` of a stream object, up to the packet that its connection gives to the router. -/
def write (streamId : ℕ) (data : Bytes) (fin : Bool) : EStateM Thrown (StreamOpener η θ) QuicRelayStreamSendResult :=
  zoom connection (fun opener connection => { opener with connection := connection })
    (Connection.write C streamId data fin)

end StreamOpener

inductive StreamCall where
  | openBidiStream
  | openUniStream
  | write (streamId : ℕ) (data : Bytes) (fin : Bool)
  deriving DecidableEq

def StreamCall.direction? : StreamCall → Option StreamDirection
  | openBidiStream => some .bidi
  | openUniStream => some .uni
  | write _ _ _ => none

/-- `opened` has the streams that were opened, `sent` what was sent on them. -/
structure StreamHistory (η θ : Type) where
  opener : StreamOpener η θ
  opened : List ℕ
  sent : List QuicRelayStreamSendResult

namespace StreamHistory

def count (history : StreamHistory η θ) (direction : StreamDirection) : ℕ :=
  history.opened.countP fun streamId => StreamDirection.ofStreamId streamId = direction

def recordOpen (history : StreamHistory η θ) : EStateM.Result Thrown (StreamOpener η θ) ℕ → StreamHistory η θ
  | .ok streamId after => { history with opener := after, opened := history.opened ++ [streamId] }
  | .error _ after => { history with opener := after }

def recordWrite (history : StreamHistory η θ) :
    EStateM.Result Thrown (StreamOpener η θ) QuicRelayStreamSendResult → StreamHistory η θ
  | .ok sent after => { history with opener := after, sent := history.sent ++ [sent] }
  | .error _ after => { history with opener := after }

/-- Only a stream that was opened can be written to. -/
def step (history : StreamHistory η θ) : StreamCall → Option (StreamHistory η θ)
  | .openBidiStream => some (history.recordOpen (StreamOpener.openBidiStream history.opener))
  | .openUniStream => some (history.recordOpen (StreamOpener.openUniStream history.opener))
  | .write streamId data fin =>
    if streamId ∈ history.opened then some (history.recordWrite (StreamOpener.write C streamId data fin history.opener))
    else none

/-- A stream is opened only while the peer allows one more of its kind. -/
def Admits (params : PeerTransportParameters) (history : StreamHistory η θ) (call : StreamCall) : Prop :=
  ∀ direction ∈ call.direction?, history.count direction < params.initialMaxStreams direction

instance (params : PeerTransportParameters) (history : StreamHistory η θ) (call : StreamCall) :
    Decidable (Admits params history call) :=
  inferInstanceAs (Decidable (∀ direction ∈ call.direction?, _))

structure Start (params : PeerTransportParameters) (role : QuicEndpointRole) (history : StreamHistory η θ) : Prop where
  established : ∃ connection maxData, history.opener.connection.driver.connection = some connection ∧
    connection.role = role ∧
    QuicStreamSendState.create ⟨maxData, some params.toQuicTransportParameters, some role⟩ =
      .ok connection.oneRtt.sendState
  next : ∃ connection, history.opener = StreamOpener.mk connection (fun _ => none) ∨
    history.opener = (StreamOpener.mk connection fun _ => none).setInitialStreamId
  opened : history.opened = []
  sent : history.sent = []

end StreamHistory

lemma StreamDirection.ofStreamId_eq (streamId : ℕ) :
    ofStreamId streamId = if streamId / 2 % 2 = 1 then .uni else .bidi := by
 have hb : streamId &&& 0x02 = 0x02 ↔ streamId / 2 % 2 = 1 := by
  rw [show (0x02 : ℕ) = 2^1 from rfl,Nat.and_two_pow,Nat.testBit_eq_decide_div_mod_eq]
  simp
 simp only [ofStreamId,Connection.isUnidirectionalStream,decide_eq_true_eq,hb]

lemma StreamDirection.ofStreamId_add (direction : StreamDirection) (role : QuicEndpointRole) (n : ℕ) :
    ofStreamId (direction.firstStreamId role + 4*n) = direction := by
 have hd : ∀ first, (first+4*n) / 2 % 2 = first / 2 % 2 := fun first=>by omega
 rw [ofStreamId_eq,hd]
 cases direction with
 | bidi | uni =>
  cases role with
  | client => rfl
  | server => rfl

lemma StreamDirection.index_add (direction : StreamDirection) (role : QuicEndpointRole) (n : ℕ) :
    (direction.firstStreamId role + 4*n) / 4 = n := by
 have hf : direction.firstStreamId role < 4 := by
  cases direction with
  | bidi | uni =>
   cases role with
   | client | server => decide
 omega

namespace StreamOpener

/-- The identifiers that come next once `n` streams of each kind were opened. Before the first one they may be unset. -/
def Counts (role : QuicEndpointRole) (n : StreamDirection → ℕ) (opener : StreamOpener η θ) : Prop :=
  (∀ direction, opener.nextStreamId direction = some (direction.firstStreamId role + 4*n direction)) ∨
    (∀ direction, opener.nextStreamId direction = none) ∧ (∀ direction, n direction = 0) ∧
      opener.connection.driver.connection.map QuicConnectionState.role = some role

variable {opener : StreamOpener η θ} {direction : StreamDirection} {role : QuicEndpointRole} {n : StreamDirection → ℕ}

lemma setInitialStreamId_of_unset (hu : ∀ direction, opener.nextStreamId direction = none)
    (hr : opener.connection.driver.connection.map QuicConnectionState.role = some role) :
    opener.setInitialStreamId =
      { opener with nextStreamId := fun direction => some (direction.firstStreamId role) } := by
 obtain ⟨quic,hq,rfl⟩:=map_eq_some_iff.mp hr
 rw [setInitialStreamId,if_neg (fun h=>h.1 (hu .bidi)),hq]

lemma setInitialStreamId_connection (opener : StreamOpener η θ) :
    opener.setInitialStreamId.connection = opener.connection := by
 rw [setInitialStreamId]
 split_ifs
 · rfl
 · split
   · rfl
   · rfl

lemma nextOpenStreamId_of_counts (h : opener.Counts role n) (direction : StreamDirection) :
    ∃ next : StreamDirection → Option ℕ, nextOpenStreamId direction opener =
        .ok (direction.firstStreamId role + 4*n direction) { opener with nextStreamId := next } ∧
      ∀ direction, next direction = some (direction.firstStreamId role + 4*n direction) := by
 rcases h with hse|⟨hu,hz,hr⟩
 · refine ⟨opener.nextStreamId,?_,hse⟩
   have hs : opener.nextStreamId direction ≠ none := by rw [hse direction]; exact some_ne_none _
   rw [nextOpenStreamId,Throwing.modify_bind,if_neg hs,Throwing.get_bind,hse direction]
   rfl
 · refine ⟨fun direction=>some (direction.firstStreamId role),?_,?_⟩
   · rw [nextOpenStreamId,Throwing.modify_bind,if_pos (hu direction),setInitialStreamId_of_unset hu hr,hz direction]
     rfl
   · intro direction
     rw [hz direction]
     rfl

lemma openStream_of_counts (h : opener.Counts role n) (direction : StreamDirection) :
    openStream direction opener = .error (.error "connection is closed") opener ∨
      ∃ after, openStream direction opener = .ok (direction.firstStreamId role + 4*n direction) after ∧
        after.Counts role (update n direction (n direction + 1)) := by
 cases hc : opener.connection.closed with
 | true =>
  have hr : opener.connection.requireOpen = .error (.error "connection is closed") := by
   rw [Connection.requireOpen,hc]
   rfl
  rw [openStream,Throwing.get_bind,hr]
  exact .inl rfl
 | false =>
  have hr : opener.connection.requireOpen = .ok () := by
   rw [Connection.requireOpen,hc]
   rfl
  obtain ⟨next,hn,hi⟩:=nextOpenStreamId_of_counts h direction
  rw [openStream,Throwing.get_bind,hr,Throwing.bind_ok (Throwing.lift_ok () opener),Throwing.bind_ok hn]
  refine .inr ⟨_,rfl,.inl fun other=>?_⟩
  dsimp only
  by_cases ho : other = direction
  · rw [ho,update_self,update_self,Nat.mul_add,Nat.add_assoc]
  · rw [update_of_ne ho,update_of_ne ho,hi]

end StreamOpener

section
variable {C} {streamId : ℕ} {data : Bytes} {fin : Bool}

lemma returns_oneRtt_sendStream (keys : QuicDirectionalKeys) (destinationConnectionId : Bytes) :
    Returns (fun sent => sent.stream.streamId = streamId)
      (QuicOneRttState.sendStream C keys destinationConnectionId streamId data fin) := by
 refine .bind_right fun state=>.bind_right fun _=>?_
 refine .bind (.lift (P := fun sent : QuicStreamSendResult × QuicStreamSendState=>sent.1.streamId = streamId) ?_)
  fun sent hse=>.bind_right fun _=>.bind_right fun _=>.pure hse
 rintro ⟨result,after⟩ hs
 obtain ⟨_,_,rfl,_⟩:=QuicStreamSendState.send_eq_ok hs
 rfl

lemma returns_connection_sendStream :
    Returns (fun sent => sent.stream.streamId = streamId) (QuicConnectionState.sendStream C streamId data fin) := by
 intro conn sent after h
 rw [QuicConnectionState.sendStream] at h
 obtain ⟨oneRtt,hs,_⟩:=Throwing.zoom_eq_ok.mp h
 exact returns_oneRtt_sendStream _ _ conn.oneRtt sent oneRtt hs

lemma returns_driver_sendStream {σ : Type} (conn : QuicConnectionState) (pid : Bytes)
    (ecn : Option EcnCodepoint) : Returns (fun sent => sent.stream.streamId = streamId)
      (QuicRelayDriver.sendStream (σ := σ) C conn pid ecn streamId data fin) :=
 .bind (Returns.zoom returns_connection_sendStream) fun _ hs=>.pure hs

lemma StreamOpener.returns_write :
    Returns (fun sent => sent.stream.streamId = streamId)
      (StreamOpener.write (η := η) (θ := θ) C streamId data fin) := by
 refine Returns.zoom (.bind_right fun conn=>.bind_right fun _=>Returns.zoom ?_)
 intro driver sent after h
 cases driver with
 | client driver =>
  have hc : Returns (fun sent=>sent.stream.streamId = streamId)
    (QuicRelayClientDriver.sendStream (η := η) C streamId data fin) :=
   .bind_right fun driver=>.bind_right fun conn=>
    Returns.zoom (returns_driver_sendStream conn driver.peerEndpointId driver.ecn)
  obtain ⟨_,hs,_⟩:=Throwing.mapState_eq_ok.mp h
  exact hc driver sent _ hs
 | server driver =>
  have hse : Returns (fun sent=>sent.stream.streamId = streamId)
    (QuicRelayServerDriver.sendStream (η := θ) C streamId data fin) :=
   .bind_right fun driver=>.bind_right fun conn=>.bind_right fun pid=>
    Returns.zoom (returns_driver_sendStream conn pid driver.ecn)
  obtain ⟨_,hs,_⟩:=Throwing.mapState_eq_ok.mp h
  exact hse driver sent _ hs

variable (C streamId data fin) in
lemma StreamOpener.keeps_write : Keeps nextStreamId (StreamOpener.write (η := η) (θ := θ) C streamId data fin) := by
 apply Keeps.zoom
 intro opener conn
 rfl

end

open StreamOpener

open StreamDirection

namespace StreamHistory

structure Numbered (role : QuicEndpointRole) (history : StreamHistory η θ) : Prop where
  counts : history.opener.Counts role history.count
  sent : ∀ sent ∈ history.sent, sent.stream.streamId ∈ history.opened

variable {history after : StreamHistory η θ} {role : QuicEndpointRole} {params : PeerTransportParameters}

lemma Start.numbered (h : history.Start params role) : Numbered role history := by
 obtain ⟨quic,_,hq,hr,_⟩:=h.established
 have hc : ∀ direction, history.count direction = 0 := by
  intro direction
  rw [count,h.opened,countP_nil]
 refine ⟨?_,?_⟩
 · obtain ⟨conn,hn|hn⟩:=h.next
   · refine .inr ⟨fun _=>by rw [hn],hc,?_⟩
     rw [hq,map_some,hr]
   · have hs : history.opener.connection = conn := by rw [hn,setInitialStreamId_connection]
     have hi : (StreamOpener.mk conn fun _=>none).setInitialStreamId =
       ⟨conn,fun direction=>some (direction.firstStreamId role)⟩ :=
      StreamOpener.setInitialStreamId_of_unset (fun _=>rfl) (by rw [← hs,hq,map_some,hr])
     refine .inl fun direction=>?_
     rw [hn,hi,hc direction]
     rfl
 · rw [h.sent]
   intro sent hse
   cases hse

lemma count_append (history : StreamHistory η θ) (opener : StreamOpener η θ) (direction : StreamDirection)
    (role : QuicEndpointRole) (n : ℕ) :
    count ⟨opener, history.opened ++ [direction.firstStreamId role + 4*n], history.sent⟩ =
      update history.count direction (history.count direction + 1) := by
 funext other
 rw [count,countP_append,countP_singleton,ofStreamId_add]
 by_cases ho : other = direction
 · rw [ho,update_self,decide_eq_true rfl]
   rfl
 · rw [update_of_ne ho,decide_eq_false (Ne.symm ho)]
   rfl

lemma Numbered.recordOpen (h : history.Numbered role) (params : PeerTransportParameters) (direction : StreamDirection) :
    (history.recordOpen (openStream direction history.opener)).Numbered role ∧
      ∀ streamId ∈ (history.recordOpen (openStream direction history.opener)).opened, streamId ∈ history.opened ∨
          (params.Allows streamId ↔ history.count direction < params.initialMaxStreams direction) := by
 rcases openStream_of_counts h.counts direction with hc|⟨opener,ho,hco⟩
 · rw [hc]
   exact ⟨⟨h.counts,h.sent⟩,fun streamId hid=>.inl hid⟩
 · rw [ho]
   refine ⟨⟨?_,?_⟩,?_⟩
   · rw [StreamHistory.recordOpen,count_append]
     exact hco
   · intro sent hs
     exact mem_append_left _ (h.sent sent hs)
   · intro streamId hid
     rcases mem_append.mp hid with hid|hid
     · exact .inl hid
     · rw [mem_singleton.mp hid,PeerTransportParameters.Allows,index_add, ofStreamId_add]
       exact .inr Iff.rfl

lemma opened_of_count_eq_zero (hz : ∀ direction, history.count direction = 0) : history.opened = [] := by
 refine eq_nil_iff_forall_not_mem.mpr fun streamId hid=>?_
 have hn:=countP_eq_zero.mp (hz (.ofStreamId streamId)) streamId hid
 exact hn (decide_eq_true rfl)

lemma Numbered.recordWrite (h : history.Numbered role) {streamId : ℕ} (hid : streamId ∈ history.opened)
    (data : Bytes) (fin : Bool) : (history.recordWrite (write C streamId data fin history.opener)).Numbered role ∧
      (history.recordWrite (write C streamId data fin history.opener)).opened = history.opened := by
 have hs : ∀ direction, history.opener.nextStreamId direction =
   some (direction.firstStreamId role+4*history.count direction) := by
  rcases h.counts with hs|⟨_,hz,_⟩
  · exact hs
  · rw [opened_of_count_eq_zero hz] at hid
    cases hid
 have hk:=keeps_write C streamId data fin history.opener
 cases hw : write C streamId data fin history.opener with
 | ok sent opener =>
  rw [hw] at hk
  refine ⟨⟨.inl fun direction=>(congrFun hk direction).trans (hs direction),?_⟩,rfl⟩
  refine forall_mem_append.mpr ⟨h.sent,forall_mem_singleton.mpr ?_⟩
  rw [returns_write history.opener sent opener hw]
  exact hid
 | error e opener =>
  rw [hw] at hk
  exact ⟨⟨.inl fun direction=>(congrFun hk direction).trans (hs direction),h.sent⟩,rfl⟩

lemma Numbered.step (h : history.Numbered role) (ha : ∀ streamId ∈ history.opened, params.Allows streamId)
    {call : StreamCall} (had : history.Admits params call) (hs : history.step C call = some after) :
    after.Numbered role ∧ ∀ streamId ∈ after.opened, params.Allows streamId := by
 have hopen : ∀ direction, call.direction? = some direction →
   after = history.recordOpen (openStream direction history.opener) →
    after.Numbered role ∧ ∀ streamId ∈ after.opened, params.Allows streamId := by
  intro direction hd haf
  obtain ⟨hn,ho⟩:=h.recordOpen params direction
  rw [haf]
  refine ⟨hn,fun streamId hid=>?_⟩
  rcases ho streamId hid with hold|hn
  · exact ha streamId hold
  · exact hn.mpr (had direction hd)
 cases call with
 | openBidiStream => exact hopen .bidi rfl (some.inj hs).symm
 | openUniStream => exact hopen .uni rfl (some.inj hs).symm
 | write streamId data fin =>
  rw [StreamHistory.step] at hs
  split_ifs at hs with hid
  cases hs
  obtain ⟨hn,ho⟩:=h.recordWrite C hid data fin
  rw [ho]
  exact ⟨hn,ha⟩

end StreamHistory

/-- Streams opened below the limits of the peer are the only ones that anything is sent on. -/
theorem sent_within_stream_limits {params : PeerTransportParameters} {role : QuicEndpointRole}
    {start history : StreamHistory η θ} (hstart : start.Start params role) {calls : List StreamCall}
    (hruns : GuardedRuns (StreamHistory.step C) (StreamHistory.Admits params) start calls history) :
    ∀ sent ∈ history.sent, isLocalInitiatedStream sent.stream.streamId role = true →
      params.Allows sent.stream.streamId := by
 have hi : history.Numbered role ∧ ∀ streamId ∈ history.opened, params.Allows streamId := by
  refine hruns.invariant (fun history=>history.Numbered role ∧ ∀ streamId ∈ history.opened, params.Allows streamId)
   ⟨hstart.numbered,?_⟩ fun _ _ _ h ha hst=>h.1.step C h.2 ha hst
  rw [hstart.opened]
  intro streamId hid
  cases hid
 intro sent hs _
 exact hi.2 _ (hi.1.sent sent hs)

def establishedOpener (connection : QuicConnectionState) : StreamHistory Unit Unit :=
  ⟨⟨⟨.client (clientDriver (some connection)), fun _ => none, [], [], false⟩, fun _ => none⟩, [], []⟩

def sixteenStreams : PeerTransportParameters := ⟨⟨65536, 65536, 65536, 65536⟩, 16, 16⟩

lemma establishedOpener_start : ∃ connection, establishedConnection .client = .ok connection ∧
      (establishedOpener connection).Start sixteenStreams .client :=
 ⟨_,rfl,⟨_,none,rfl,rfl,rfl⟩,⟨_,.inl rfl⟩,rfl,rfl⟩

theorem one_stream_within_limits : ∃ connection history, establishedConnection .client = .ok connection ∧
      GuardedRuns (StreamHistory.step plainCiphers) (StreamHistory.Admits sixteenStreams) (establishedOpener connection)
        [.openBidiStream, .write 0 [0x61] false] history ∧
      history.sent.map (fun sent => sent.stream.streamId) = [0] ∧
      ∀ sent ∈ history.sent, isLocalInitiatedStream sent.stream.streamId .client = true →
        sixteenStreams.Allows sent.stream.streamId := by
 obtain ⟨_,hsa,hs⟩:=establishedOpener_start
 refine exists₂_and₃ (by decide +kernel) fun connection history hc hr _=>?_
 cases hsa.symm.trans hc
 exact sent_within_stream_limits plainCiphers hs hr

theorem seventeenth_stream_is_sent : ∃ connection history sent, establishedConnection .client = .ok connection ∧
      (establishedOpener connection).Start sixteenStreams .client ∧
      Runs (StreamHistory.step plainCiphers) (establishedOpener connection)
        (List.replicate 17 .openBidiStream ++ [.write 64 [0x61] false]) history ∧
      sent ∈ history.sent ∧ isLocalInitiatedStream sent.stream.streamId .client = true ∧
      ¬ sixteenStreams.Allows sent.stream.streamId := by
 obtain ⟨connection,hc,hs⟩:=establishedOpener_start
 obtain ⟨_,hsa,history,hr,hse⟩ : ∃ connection, establishedConnection .client = .ok connection ∧
   ∃ history, Runs (StreamHistory.step plainCiphers) (establishedOpener connection)
    (replicate 17 .openBidiStream ++ [.write 64 [0x61] false]) history ∧
     history.sent.map (fun sent=>sent.stream.streamId) = [64] := by
  decide +kernel
 cases hc.symm.trans hsa
 obtain ⟨sent,hm,hid⟩:=mem_map.mp (hse ▸ mem_singleton_self 64)
 refine ⟨connection,history,sent,hc,hs,hr,hm,?_,?_⟩
 · rw [hid]
   decide
 · rw [hid]
   decide

end Enlace.Lite
