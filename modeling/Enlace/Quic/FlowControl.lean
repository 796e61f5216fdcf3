import Mathlib.Algebra.BigOperators.Group.Finset.Basic
import Enlace.Lib.Transition
import Enlace.Quic.Streams

set_option autoImplicit false

/-! The accounting of `QuicStreamSendState` over whole runs of calls. -/
namespace Enlace.Quic
open ByteString Fallible Transition List Function QuicStreamSendState
open Throwing (lift zoom bind_ok get_bind lift_ok)

/-- `QuicStreamSendCursor.send` with its assignments one after the other. -/
def QuicStreamSendCursor.sendInPlace (streamId : ℕ) (data : Bytes) (fin : Bool) :
    EStateM Thrown QuicStreamSendCursor QuicStreamSendResult := do
  let cursor ← get
  lift (throwIf (cursor.finished = true) "QUIC stream is already finished")
  let nextOffset ← lift (checkedStreamEndOffset cursor.offset data.length)
  let frameBytes ← lift (encodeQuicStreamFrame streamId cursor.offset data fin)
  modify fun cursor => { cursor with offset := nextOffset }
  modify fun cursor => { cursor with finished := cursor.finished || fin }
  return ⟨streamId, cursor.offset, data, fin, frameBytes, nextOffset⟩

def QuicStreamSendState.onCursor {α : Type} (streamId : ℕ) :
    EStateM Thrown QuicStreamSendCursor α → EStateM Thrown QuicStreamSendState α :=
  zoom (fun state => state.streams streamId)
    fun state cursor => { state with streams := Function.update state.streams streamId cursor }

/-- `QuicStreamSendState.send` with its assignments one after the other. -/
def QuicStreamSendState.sendInPlace (streamId : ℕ) (data : Bytes) (fin : Bool) :
    EStateM Thrown QuicStreamSendState QuicStreamSendResult := do
  lift (validateStreamId streamId)
  lift (throwIf (data.length = 0 ∧ fin = false) "QUIC STREAM frame requires data or FIN")
  let state ← get
  lift (state.validateCredit streamId data.length)
  let result ← onCursor streamId (QuicStreamSendCursor.sendInPlace streamId data fin)
  modify fun state => { state with sentData := state.sentData + data.length }
  return result

lemma QuicStreamSendCursor.sendInPlace_eq (cursor : QuicStreamSendCursor) (streamId : ℕ) (data : Bytes) (fin : Bool) :
    sendInPlace streamId data fin cursor = match cursor.send streamId data fin with
      | .ok (result, after) => .ok result after
      | .error e => .error e cursor := by
 rw [sendInPlace,get_bind,QuicStreamSendCursor.send]
 cases throwIf (cursor.finished = true) "QUIC stream is already finished" with
 | error e => rfl
 | ok _ =>
  cases checkedStreamEndOffset cursor.offset data.length with
  | error e => rfl
  | ok nextOffset =>
   cases encodeQuicStreamFrame streamId cursor.offset data fin with
   | error e => rfl
   | ok fb => rfl

/-- All checks stand before the first assignment, so a send that throws has changed nothing. -/
theorem QuicStreamSendState.sendInPlace_eq (state : QuicStreamSendState) (streamId : ℕ) (data : Bytes) (fin : Bool) :
    sendInPlace streamId data fin state = match state.send streamId data fin with
      | .ok (result, after) => .ok result after
      | .error e => .error e state := by
 rw [sendInPlace,send]
 cases validateStreamId streamId with
 | error e => rfl
 | ok _ =>
  cases throwIf (data.length = 0 ∧ fin = false) "QUIC STREAM frame requires data or FIN" with
  | error e => rfl
  | ok _ =>
   rw [bind_ok (lift_ok _ _),bind_ok (lift_ok _ _),get_bind]
   cases state.validateCredit streamId data.length with
   | error e => rfl
   | ok _ =>
    rw [bind_ok (lift_ok _ _)]
    have hc:=(state.streams streamId).sendInPlace_eq streamId data fin
    cases hs : (state.streams streamId).send streamId data fin with
    | error e =>
     rw [hs] at hc
     have hk : onCursor streamId (QuicStreamSendCursor.sendInPlace streamId data fin) state =
       .error e { state with streams := update state.streams streamId (state.streams streamId) } :=
      Throwing.zoom_eq_error.mpr ⟨_,hc,rfl⟩
     rw [Throwing.bind_error hk,update_eq_self]
     rfl
    | ok sent =>
     rw [hs] at hc
     have hm : onCursor streamId (QuicStreamSendCursor.sendInPlace streamId data fin) state =
       .ok sent.1 { state with streams := update state.streams streamId sent.2 } :=
      Throwing.zoom_eq_ok.mpr ⟨_,hc,rfl⟩
     rw [bind_ok hm]
     rfl

inductive SendCall where
  | send (streamId : ℕ) (data : Bytes) (fin : Bool)
  | applyMaxData (maximumData : ℕ)
  | applyMaxStreamData (streamId maximumStreamData : ℕ)

structure SendHistory where
  state : QuicStreamSendState
  frames : List QuicStreamSendResult

def SendHistory.step (history : SendHistory) : SendCall → Option SendHistory
  | .send streamId data fin =>
    match QuicStreamSendState.sendInPlace streamId data fin history.state with
    | .ok result after => some ⟨after, history.frames ++ [result]⟩
    | .error _ after => some { history with state := after }
  | .applyMaxData maximumData =>
    match history.state.applyMaxData maximumData with
    | .ok after => some { history with state := after }
    | .error _ => some history
  | .applyMaxStreamData streamId maximumStreamData =>
    match history.state.applyMaxStreamData streamId maximumStreamData with
    | .ok after => some { history with state := after }
    | .error _ => some history

/-- The frames follow each other from the offset up to the cursor, and end with a FIN just if the cursor is finished. -/
def Tiles : ℕ → List QuicStreamSendResult → QuicStreamSendCursor → Prop
  | offset, [], cursor => cursor = ⟨offset, false⟩
  | offset, frame :: frames, cursor =>
    frame.streamOffset = offset ∧ frame.nextStreamOffset = offset + frame.data.length ∧
      if frame.fin then frames = [] ∧ cursor = ⟨offset + frame.data.length, true⟩
      else Tiles (offset + frame.data.length) frames cursor

lemma Tiles.append {offset : ℕ} {frames : List QuicStreamSendResult} {cursor : QuicStreamSendCursor}
    {frame : QuicStreamSendResult} (h : Tiles offset frames cursor) (hopen : cursor.finished = false)
    (hs : frame.streamOffset = cursor.offset)
    (he : frame.nextStreamOffset = cursor.offset + frame.data.length) :
    Tiles offset (frames ++ [frame]) ⟨cursor.offset + frame.data.length, frame.fin⟩ := by
 induction frames generalizing offset with
 | nil =>
  obtain rfl : cursor = ⟨offset,false⟩:=h
  refine ⟨hs,he,?_⟩
  cases hf : frame.fin with
  | true => exact ⟨rfl,rfl⟩
  | false => exact rfl
 | cons first frames ih =>
  obtain ⟨hf,hn,hrest⟩:=h
  refine ⟨hf,hn,?_⟩
  cases hf : first.fin with
  | true =>
   rw [hf] at hrest
   obtain ⟨_,rfl⟩:=hrest
   cases hopen
  | false =>
   rw [hf] at hrest
   exact ih hrest

variable {data : Bytes} {fin : Bool} {maximumData maximumStreamData streamId : ℕ} {result : QuicStreamSendResult}

namespace QuicStreamSendState

def CountsOffsets (state : QuicStreamSendState) : Prop :=
  ∃ ids : Finset ℕ, (∀ id, id ∉ ids → (state.streams id).offset = 0) ∧
    state.sentData = ∑ id ∈ ids, (state.streams id).offset

/-- What was sent is within the limits; on a stream that has none nothing can be sent. -/
structure WithinLimits (state : QuicStreamSendState) : Prop where
  data : ∃ limit, state.maxData = some limit ∧ state.sentData ≤ limit
  stream : ∀ id, (∃ limit, state.maxStreamDataForSend id = .ok (some limit) ∧ (state.streams id).offset ≤ limit) ∨
    (∃ e, state.maxStreamDataForSend id = .error e) ∧ (state.streams id).offset = 0

structure LimitsRaised (before after : QuicStreamSendState) : Prop where
  data : ∀ limit, before.maxData = some limit → ∃ raised, after.maxData = some raised ∧ limit ≤ raised
  stream : ∀ id limit, before.maxStreamDataForSend id = .ok (some limit) →
    ∃ raised, after.maxStreamDataForSend id = .ok (some raised) ∧ limit ≤ raised

lemma LimitsRaised.refl (state : QuicStreamSendState) : LimitsRaised state state :=
 ⟨fun limit h=>⟨limit,h,le_refl limit⟩,fun _ limit h=>⟨limit,h,le_refl limit⟩⟩

variable {state after : QuicStreamSendState}

lemma send_credit (h : state.send streamId data fin = .ok (result, after)) :
    (state.streams streamId).finished = false ∧
      (∃ maxStreamData, state.maxStreamDataForSend streamId = .ok maxStreamData ∧
        ∀ limit, maxStreamData = some limit → (state.streams streamId).offset + data.length ≤ limit) ∧
      ∀ limit, state.maxData = some limit → state.sentData + data.length ≤ limit := by
 simp only [send,validateCredit,QuicStreamSendCursor.send,bind_eq_ok,throwIf_eq_ok,checkedStreamEndOffset_eq_ok,
  not_exists,not_and] at h
 obtain ⟨_,_,_,_,_,⟨_,⟨rfl,_⟩,maxStreamData,hlimit,_,hs,_,⟨rfl,_⟩,hdata⟩,_,⟨_,hopen,_⟩,_⟩:=h
 refine ⟨by simpa using hopen,⟨maxStreamData,hlimit,?_⟩,?_⟩
 · intro limit hmax
   exact Nat.not_lt.mp (hs limit hmax)
 · intro limit hmax
   exact Nat.not_lt.mp (hdata limit hmax)

lemma CountsOffsets.send (h : state.CountsOffsets) (streamId n : ℕ) (finished : Bool) : ({ state with
      streams := update state.streams streamId ⟨(state.streams streamId).offset + n, finished⟩
      sentData := state.sentData + n } : QuicStreamSendState).CountsOffsets := by
 obtain ⟨ids,ho,ht⟩:=h
 refine ⟨insert streamId ids,?_,?_⟩
 · intro id hid
   rw [Finset.mem_insert,not_or] at hid
   dsimp only
   rw [update_of_ne hid.1]
   exact ho id hid.2
 · have hrest : ∑ id ∈ ids.erase streamId, (update state.streams streamId
     ⟨(state.streams streamId).offset+n,finished⟩ id).offset =
      ∑ id ∈ ids.erase streamId, (state.streams id).offset := by
    refine Finset.sum_congr rfl fun id hid=>?_
    rw [update_of_ne (Finset.ne_of_mem_erase hid)]
   have ha : ∑ id ∈ ids, (state.streams id).offset =
     (state.streams streamId).offset + ∑ id ∈ ids.erase streamId, (state.streams id).offset := by
    by_cases hm : streamId ∈ ids
    · exact (Finset.add_sum_erase ids _ hm).symm
    · rw [Finset.erase_eq_of_notMem hm,ho streamId hm,Nat.zero_add]
   dsimp only
   rw [← Finset.add_sum_erase _ _ (Finset.mem_insert_self streamId ids),Finset.erase_insert_eq_erase,update_self,ht]
   dsimp only
   omega

lemma le_of_maxLimit {current : Option ℕ} {limit next raised : ℕ} {name : String} (hc : current = some limit)
    (h : maxLimit current next name = .ok raised) : limit ≤ raised := by
 simp only [maxLimit,hc,bind_eq_ok,pure_eq_ok] at h
 obtain ⟨validated,_,rfl⟩:=h
 split_ifs <;> omega

lemma applyMaxData_eq_ok (h : state.applyMaxData maximumData = .ok after) :
    ∃ raised, after = { state with maxData := some raised } ∧ ∀ limit, state.maxData = some limit → limit ≤ raised := by
 simp only [applyMaxData,bind_eq_ok,pure_eq_ok] at h
 obtain ⟨raised,hr,rfl⟩:=h
 exact ⟨raised,rfl,fun limit hlimit=>le_of_maxLimit hlimit hr⟩

lemma applyMaxStreamData_eq_ok (h : state.applyMaxStreamData streamId maximumStreamData = .ok after) :
    ∃ current raised, state.maxStreamDataForSend streamId = .ok current ∧
      after = { state with streamLimits := update state.streamLimits streamId (some raised) } ∧
      ∀ limit, current = some limit → limit ≤ raised := by
 simp only [applyMaxStreamData,bind_eq_ok,pure_eq_ok] at h
 obtain ⟨_,_,current,hc,raised,hr,rfl⟩:=h
 exact ⟨current,raised,hc,rfl,fun limit hlimit=>le_of_maxLimit hlimit hr⟩

end QuicStreamSendState

structure Accounted (history : SendHistory) : Prop where
  encoded : ∀ frame ∈ history.frames,
    encodeQuicStreamFrame frame.streamId frame.streamOffset frame.data frame.fin = .ok frame.frameBytes
  total : history.state.CountsOffsets
  within : history.state.WithinLimits
  tiles : ∀ id, Tiles 0 (history.frames.filter fun frame => frame.streamId = id) (history.state.streams id)

open QuicStreamSendState.LimitsRaised

namespace Accounted

variable {history after : SendHistory} (h : Accounted history)
include h

variable {state : QuicStreamSendState}

lemma send (hs : history.state.send streamId data fin = .ok (result, state)) :
    Accounted ⟨state, history.frames ++ [result]⟩ := by
 obtain ⟨hopen,⟨maxStreamData,hlimit,hst⟩,hdata⟩:=send_credit hs
 obtain ⟨fb,hf,rfl,rfl⟩:=send_eq_ok hs
 refine ⟨forall_mem_append.mpr ⟨h.encoded,forall_mem_singleton.mpr hf⟩,h.total.send streamId data.length _,⟨?_,?_⟩,?_⟩
 · obtain ⟨limit,hmax,_⟩:=h.within.data
   exact ⟨limit,hmax,hdata limit hmax⟩
 · intro id
   by_cases hid : id = streamId
   · subst hid
     rcases h.within.stream id with ⟨limit,hok,_⟩|⟨⟨e,he⟩,_⟩
     · refine .inl ⟨limit,hok,?_⟩
       dsimp only
       rw [update_self]
       exact hst limit (Except.ok.inj (hlimit.symm.trans hok))
     · cases hlimit.symm.trans he
   · have hk:=h.within.stream id
     dsimp only
     rw [update_of_ne hid]
     exact hk
 · intro id
   rw [filter_append]
   by_cases hid : id = streamId
   · subst hid
     dsimp only
     rw [update_self,hopen,filter_cons_of_pos (by simp)]
     exact (h.tiles id).append hopen rfl rfl
   · dsimp only
     rw [update_of_ne hid,filter_cons_of_neg (by simpa using Ne.symm hid),filter_nil,append_nil]
     exact h.tiles id

lemma applyMaxData (hr : history.state.applyMaxData maximumData = .ok state) :
    Accounted ⟨state, history.frames⟩ ∧ history.state.LimitsRaised state := by
 obtain ⟨raised,rfl,hle⟩:=applyMaxData_eq_ok hr
 obtain ⟨limit,hlimit,hs⟩:=h.within.data
 refine ⟨⟨h.encoded,h.total,⟨⟨raised,rfl,hs.trans (hle limit hlimit)⟩,h.within.stream⟩,h.tiles⟩,?_,?_⟩
 · intro limit hlimit
   exact ⟨raised,rfl,hle limit hlimit⟩
 · intro id limit hlimit
   exact ⟨limit,hlimit,le_refl limit⟩

lemma applyMaxStreamData (hr : history.state.applyMaxStreamData streamId maximumStreamData = .ok state) :
    Accounted ⟨state, history.frames⟩ ∧ history.state.LimitsRaised state := by
 obtain ⟨current,raised,hc,rfl,hle⟩:=applyMaxStreamData_eq_ok hr
 have hs:=history.state.maxStreamDataForSend_update_self streamId raised
 have ho : ∀ id, id ≠ streamId → _ := fun id=>history.state.maxStreamDataForSend_update_of_ne raised
 refine ⟨⟨h.encoded,h.total,⟨h.within.data,?_⟩,h.tiles⟩,?_,?_⟩
 · intro id
   by_cases hid : id = streamId
   · subst hid
     rcases h.within.stream id with ⟨limit,hok,hse⟩|⟨⟨e,he⟩,_⟩
     · exact .inl ⟨raised,hs,hse.trans (hle limit (Except.ok.inj (hc.symm.trans hok)))⟩
     · cases hc.symm.trans he
   · rw [ho id hid]
     exact h.within.stream id
 · intro limit hlimit
   exact ⟨limit,hlimit,le_refl limit⟩
 · intro id limit hlimit
   by_cases hid : id = streamId
   · subst hid
     exact ⟨raised,hs,hle limit (Except.ok.inj (hc.symm.trans hlimit))⟩
   · exact ⟨limit,(ho id hid).trans hlimit,le_refl limit⟩

lemma step {call : SendCall} (hs : history.step call = some after) :
    Accounted after ∧ history.state.LimitsRaised after.state := by
 cases call with
 | send streamId data fin =>
  rw [SendHistory.step,sendInPlace_eq] at hs
  cases hse : history.state.send streamId data fin with
  | error e =>
   rw [hse] at hs
   cases hs
   exact ⟨h,.refl _⟩
  | ok sent =>
   rw [hse] at hs
   cases hs
   refine ⟨h.send hse,?_⟩
   obtain ⟨_,_,_,ha⟩:=send_eq_ok hse
   rw [ha]
   exact ⟨(refl _).data,(refl _).stream⟩
 | applyMaxData maximumData =>
  rw [SendHistory.step] at hs
  cases hr : history.state.applyMaxData maximumData with
  | error e =>
   rw [hr] at hs
   cases hs
   exact ⟨h,.refl _⟩
  | ok raised =>
   rw [hr] at hs
   cases hs
   exact h.applyMaxData hr
 | applyMaxStreamData streamId maximumStreamData =>
  rw [SendHistory.step] at hs
  cases hr : history.state.applyMaxStreamData streamId maximumStreamData with
  | error e =>
   rw [hr] at hs
   cases hs
   exact ⟨h,.refl _⟩
  | ok raised =>
   rw [hr] at hs
   cases hs
   exact h.applyMaxStreamData hr

end Accounted

lemma accounted_create {maxData : Option ℕ} {params : QuicTransportParameters} {localRole : QuicEndpointRole}
    {state : QuicStreamSendState} (hc : create ⟨maxData, some params, some localRole⟩ = .ok state) :
    Accounted ⟨state, []⟩ := by
 simp only [create,applyPeerTransportParameters,bind_eq_ok,pure_eq_ok]
  at hc
 obtain ⟨_,_,limit,_,rfl⟩:=hc
 refine ⟨forall_mem_nil _,⟨∅,fun _ _=>rfl,rfl⟩, ⟨⟨limit,rfl,Nat.zero_le limit⟩,?_⟩,fun _=>rfl⟩
 intro id
 simp only [maxStreamDataForSend,initialStreamLimitForSend,Option.getD_some]
 split_ifs
 · exact .inl ⟨_,rfl,Nat.zero_le _⟩
 · exact .inr ⟨⟨_,rfl⟩,trivial⟩
 · exact .inl ⟨_,rfl,Nat.zero_le _⟩
 · exact .inl ⟨_,rfl,Nat.zero_le _⟩

/-- Whatever calls are made: the total is the sum over the streams, nothing exceeds its limit, the frames of each stream
follow each other, no call lowers a limit and a send that throws changes nothing. -/
theorem send_flow_control (maxData : Option ℕ) (params : QuicTransportParameters) (localRole : QuicEndpointRole)
    {state : QuicStreamSendState}
    (hcreate : QuicStreamSendState.create ⟨maxData, some params, some localRole⟩ = .ok state)
    {calls : List SendCall} {history : SendHistory} (hruns : Runs SendHistory.step ⟨state, []⟩ calls history) :
    Accounted history ∧ (∀ call after, history.step call = some after → history.state.LimitsRaised after.state) ∧
      ∀ streamId data fin e after, QuicStreamSendState.sendInPlace streamId data fin history.state = .error e after →
        after = history.state := by
 have ha : Accounted history := hruns.invariant Accounted (accounted_create hcreate) fun _ _ _ h hs=>(h.step hs).1
 refine ⟨ha,fun _ _ hs=>(ha.step hs).2,?_⟩
 intro streamId data fin e after ht
 rw [sendInPlace_eq] at ht
 cases hse : history.state.send streamId data fin with
 | ok sent =>
  rw [hse] at ht
  cases ht
 | error e =>
  rw [hse] at ht
  cases ht
  rfl

theorem send_flow_control_of_raised_limit :
    ∃ state history, QuicStreamSendState.create ⟨none, some ⟨10, 4, 4, 4⟩, some .client⟩ = .ok state ∧
      Runs SendHistory.step ⟨state, []⟩
        [.send 0 [1, 2, 3] false, .send 0 [4, 5] true, .applyMaxStreamData 0 6, .applyMaxStreamData 0 5,
          .send 0 [4, 5] true,
          .send 0 [6] false] history ∧
      history.frames.map QuicStreamSendResult.streamOffset = [0, 3] ∧ history.state.sentData = 5 ∧
      Accounted history := by
 obtain ⟨state,hc,history,hr,hf,hs⟩ : ∃ state, create ⟨none,some ⟨10,4,4,4⟩,some .client⟩ = .ok state ∧
   ∃ history, Runs SendHistory.step ⟨state,[]⟩
    [.send 0 [1,2,3] false,.send 0 [4,5] true,.applyMaxStreamData 0 6,.applyMaxStreamData 0 5,.send 0 [4,5] true,
     .send 0 [6] false] history ∧
     history.frames.map QuicStreamSendResult.streamOffset = [0,3] ∧ history.state.sentData = 5 := by
  decide +kernel
 exact ⟨state,history,hc,hr,hf,hs,(send_flow_control none ⟨10,4,4,4⟩ .client hc hr).1⟩

/-- What a peer says about its limits; a frame as its bytes, with the 62-bit numbers read from them. -/
inductive LimitUpdate where
  | parameters (params : QuicTransportParameters)
  | maxData (rest : Bytes) (limit : VarIntDecodeResult) (hlimit : decodeVarInt (0x10 :: rest) 1 = .ok limit)
  | maxStreamData (rest : Bytes) (streamId limit : VarIntDecodeResult)
      (hid : decodeVarInt (0x11 :: rest) 1 = .ok streamId)
      (hlimit : decodeVarInt (0x11 :: rest) (1 + streamId.bytesRead) = .ok limit)

/-- The larger of a limit and a saturated value. -/
def raise (current : Option ℕ) (value : ℕ) : Option ℕ :=
  some (max (current.getD 0) (quicTransportParameterToSaturatingSafeNumber value))

namespace LimitUpdate
open QuicStreamSendState

variable (localRole : QuicEndpointRole) (streamId : ℕ) (state : QuicStreamSendState)

def receiveFrame (bytes : Bytes) : Outcome QuicStreamSendState := do
  let frame ← parseQuicFrame bytes 0
  match frame.body with
  | .maxData maximumData => state.applyMaxData maximumData
  | .maxStreamData streamId maximumStreamData => state.applyMaxStreamData streamId maximumStreamData
  | _ => return state

def apply : LimitUpdate → Outcome QuicStreamSendState
  | .parameters params => state.applyPeerTransportParameters params localRole
  | .maxData rest .. => receiveFrame state (0x10 :: rest)
  | .maxStreamData rest .. => receiveFrame state (0x11 :: rest)

def connectionValues : LimitUpdate → List ℕ
  | .parameters params => [params.initialMaxData]
  | .maxData _ limit _ => [limit.value]
  | .maxStreamData .. => []

def streamValues : LimitUpdate → List ℕ
  | .parameters params =>
    [if streamId &&& 0x02 = 0x02 then params.initialMaxStreamDataUni
      else if isLocalInitiatedStream streamId localRole then params.initialMaxStreamDataBidiRemote
      else params.initialMaxStreamDataBidiLocal]
  | .maxData .. => []
  | .maxStreamData _ id limit .. => if id.value = streamId then [limit.value] else []

def Sendable : Prop := streamId &&& 0x02 = 0x02 → isLocalInitiatedStream streamId localRole = true

/-- Parameters come before any other limit of a stream, and a frame holds only safe integers. -/
def Admitted : LimitUpdate → Prop
  | .parameters _ => state.localRole = none ∧ ∀ id, state.streamLimits id = none
  | .maxData _ limit _ => limit.value ≤ maxSafeInteger
  | .maxStreamData _ id limit .. =>
    id.value ≤ maxSafeInteger ∧ limit.value ≤ maxSafeInteger ∧
    ∃ current, state.maxStreamDataForSend id.value = .ok current

def AllAdmitted : QuicStreamSendState → List LimitUpdate → Prop
  | _, [] => True
  | state, update :: updates =>
    update.Admitted state ∧ ∀ next, update.apply localRole state = .ok next → AllAdmitted next updates

/-- Every limit in `after` is the maximum of that in `state` and the saturated values of `updates`. -/
structure Raises (updates : List LimitUpdate) (after : QuicStreamSendState) : Prop where
  connection : after.maxData = (updates.flatMap connectionValues).foldl raise state.maxData
  stream : ∀ streamId current, Sendable localRole streamId → state.maxStreamDataForSend streamId = .ok current →
    after.maxStreamDataForSend streamId = .ok ((updates.flatMap (streamValues localRole streamId)).foldl raise current)

variable {localRole streamId state} {update : LimitUpdate}

lemma decodeVarIntNumber_of_le {bytes : Bytes} {offset : ℕ} {read : VarIntDecodeResult}
    (h : decodeVarInt bytes offset = .ok read) (hle : read.value ≤ maxSafeInteger) :
    decodeVarIntNumber bytes offset = .ok read := by
 rw [decodeVarIntNumber,h,ok_bind,throwIf_neg (by omega)]
 rfl

lemma raise_of_le {value : ℕ} (h : value ≤ maxSafeInteger) (current : Option ℕ) :
    raise current value = some (max (current.getD 0) value) := by
 rw [raise,quicTransportParameterToSaturatingSafeNumber,if_neg (by omega)]

lemma saturating_le (value : ℕ) : quicTransportParameterToSaturatingSafeNumber value ≤ maxSafeInteger := by
 rw [quicTransportParameterToSaturatingSafeNumber]
 split_ifs <;> omega

lemma apply_of_admitted (h : update.Admitted state) :
    ∃ after, update.apply localRole state = .ok after ∧ Raises localRole state [update] after := by
 cases update with
 | parameters params =>
  obtain ⟨hr,hl⟩:=h
  rw [apply,applyPeerTransportParameters,maxLimit_of_le (saturating_le _)]
  refine ⟨_,rfl,rfl,fun streamId current hs hc=>?_⟩
  rw [maxStreamDataForSend,hl,hr] at hc
  cases hc
  rw [maxStreamDataForSend]
  dsimp only
  rw [hl,initialStreamLimitForSend]
  by_cases hu : streamId &&& 0x02 = 0x02
  · simp [hu,hs hu,streamValues,raise]
  · simp only [hu,if_false,streamValues,flatMap_cons,flatMap_nil]
    split_ifs <;> simp [raise]
 | maxData rest limit hlimit =>
  have hp : parseQuicFrame (0x10 :: rest) 0 = .ok ⟨.maxData limit.value,0,1+limit.bytesRead⟩ := by
   change parseMaxDataFrame (0x10 :: rest) 0 = _
   rw [parseMaxDataFrame,decodeVarIntNumber_of_le hlimit h]
   rfl
  rw [apply,receiveFrame,hp,ok_bind]
  dsimp only
  rw [applyMaxData,maxLimit_of_le h]
  exact ⟨_,rfl,by simp [connectionValues,raise_of_le h],fun _ _ _ hc=>hc⟩
 | maxStreamData rest id limit hid hlimit =>
  obtain ⟨hi,hle,current,hc⟩:=h
  have hp : parseQuicFrame (0x11 :: rest) 0 =
    .ok ⟨.maxStreamData id.value limit.value,0,1+id.bytesRead+limit.bytesRead⟩ := by
   change parseMaxStreamDataFrame (0x11 :: rest) 0 = _
   rw [parseMaxStreamDataFrame,decodeVarIntNumber_of_le hid hi,ok_bind]
   dsimp only
   rw [decodeVarIntNumber_of_le hlimit hle]
   rfl
  rw [apply,receiveFrame,hp,ok_bind]
  dsimp only
  rw [applyMaxStreamData,validateStreamId,throwIf_neg (by omega),ok_bind,hc,ok_bind,maxLimit_of_le hle]
  refine ⟨_,rfl,rfl,fun streamId earlier _ he=>?_⟩
  by_cases heq : streamId = id.value
  · rw [heq,hc] at he
    cases he
    rw [heq,maxStreamDataForSend_update_self]
    simp [streamValues,raise_of_le hle]
  · rw [maxStreamDataForSend_update_of_ne state _ heq,he]
    simp [streamValues,Ne.symm heq]

/-- Where every update is admitted, each is applied and every limit is the saturated maximum of all values. -/
theorem limits_saturate {updates : List LimitUpdate} (h : AllAdmitted localRole state updates) :
    ∃ after, updates.foldlM (fun state update => update.apply localRole state) state = .ok after ∧
      Raises localRole state updates after := by
 induction updates generalizing state with
 | nil => exact ⟨state,rfl,rfl,fun _ _ _ hc=>hc⟩
 | cons update updates ih =>
  obtain ⟨hf,hrest⟩:=h
  obtain ⟨next,ha,hst⟩:=apply_of_admitted hf
  obtain ⟨after,hfo,hr⟩:=ih (hrest next ha)
  refine ⟨after,by rw [foldlM_cons,ha]; exact hfo,?_,fun streamId current hs hc=>?_⟩
  · rw [hr.connection,hst.connection]
    simp
  · rw [hr.stream streamId _ hs (hst.stream streamId current hs hc)]
    simp

theorem limits_saturate_after_parameters : ∃ state after h, create ⟨none, none, none⟩ = .ok state ∧
      [parameters ⟨2^60, 4, 4, 4⟩, .maxData [0x0a] ⟨10, 1⟩ h].foldlM
        (fun state update => update.apply .client state) state =
        .ok after ∧
      Raises .client state [parameters ⟨2^60, 4, 4, 4⟩, .maxData [0x0a] ⟨10, 1⟩ h] after := by
 have hr : decodeVarInt [0x10,0x0a] 1 = .ok ⟨10,1⟩ := by decide +kernel
 have hmax : 10 ≤ maxSafeInteger := by decide
 have hal : AllAdmitted .client ⟨fun _=>⟨0,false⟩,fun _=>none,none,0,none,none,none,none⟩
   [parameters ⟨2^60,4,4,4⟩,.maxData [0x0a] ⟨10,1⟩ hr] :=
  ⟨⟨rfl,fun _=>rfl⟩,fun _ _=>⟨hmax,fun _ _=>trivial⟩⟩
 obtain ⟨after,ha⟩:=limits_saturate hal
 exact ⟨_,after,hr,rfl,ha⟩

theorem large_maxData_is_refused : ∃ state h, create ⟨none, none, none⟩ = .ok state ∧
      apply .client state (.maxData [0xc0, 0x20, 0, 0, 0, 0, 0, 0] ⟨2^53, 8⟩ h) =
        throwRange "QUIC varint exceeds safe integer range" :=
 ⟨_,by decide +kernel,rfl,rfl⟩

end LimitUpdate

end Enlace.Quic
