import Enlace.Quic.Connection

set_option autoImplicit false

/-! What a packet that `QuicConnectionState.receive` throws on has changed. -/
namespace Enlace.Quic
open ByteString Fallible Option Function QuicStreamReceiveBuffer QuicStreamReceiveState QuicConnectionState
open QuicOneRttState
open Throwing (Loop Raising Idle final thrown bind_eq_error bind_error bind_ok get_bind lift zoom_eq_error zoom_eq_ok)

variable {buffer : QuicStreamReceiveBuffer}

variable {a b : Option ℕ} {after : QuicStreamReceiveBuffer} {output : Option QuicStreamReceiveOutput}

namespace QuicStreamReceiveBuffer

structure Accepts (buffer : QuicStreamReceiveBuffer) (frame : QuicStreamFrame) : Prop where
  inRange : frame.streamOffset + frame.data.length ≤ maxSafeInteger
  sameSize : frame.fin = true → ∀ size ∈ buffer.finalSize, size = frame.streamOffset + frame.data.length
  within : ∀ size ∈ buffer.finalSize, frame.streamOffset + frame.data.length ≤ size
  agrees : buffer.bytes.Agrees frame.streamOffset frame.data

structure Repeats (buffer : QuicStreamReceiveBuffer) (frame : QuicStreamFrame) : Prop extends
    Accepts buffer frame where
  holds : buffer.bytes.Holds frame.streamOffset frame.data
  sized : frame.fin = true → buffer.finalSize = some (frame.streamOffset + frame.data.length)

variable {frame : QuicStreamFrame}

lemma check_of_accepts (h : buffer.Accepts frame) : ∃ finalSize, buffer.check frame = .ok finalSize := by
 have hen : checkedStreamEndOffset frame.streamOffset frame.data.length =
   .ok (frame.streamOffset+frame.data.length) := checkedStreamEndOffset_eq_ok.mpr ⟨rfl,h.inRange⟩
 have ho : validateStreamOffset frame.streamOffset = .ok () := by
  have hle:=h.inRange
  exact throwIf_neg (by omega)
 have hc : ¬ (frame.fin = true ∧ ∃ size ∈ buffer.finalSize, size ≠ frame.streamOffset+frame.data.length) := by
  intro ⟨hf,size,hs,hne⟩
  exact hne (h.sameSize hf size hs)
 have he : ¬ ∃ size ∈ buffer.nextFinalSize frame (frame.streamOffset+frame.data.length),
   frame.streamOffset+frame.data.length > size := by
  intro ⟨size,hs,hgt⟩
  rw [nextFinalSize] at hs
  split at hs
  · rw [mem_some_iff] at hs
    omega
  · have hle:=h.within size hs
    omega
 have ha : ¬ buffer.bytes.agrees frame.streamOffset frame.data = false := by
  rw [Sparse.agrees_iff.mpr h.agrees]
  decide
 rw [check,ho,ok_bind,hen,ok_bind]
 rw [throwIf_neg hc,ok_bind,throwIf_neg he,ok_bind,throwIf_neg ha,ok_bind]
 exact ⟨_,rfl⟩

lemma accepts_of_check {fs : Option ℕ} (h : buffer.check frame = .ok fs) : buffer.Accepts frame := by
 obtain ⟨hfi,hn,hw,ha⟩:=check_eq_ok h
 refine ⟨?_,fun hf=>(hfi hf).2,?_,ha⟩
 · simp only [check,bind_eq_ok,checkedStreamEndOffset_eq_ok] at h
   obtain ⟨_,_,_,⟨rfl,hle⟩,_⟩:=h
   exact hle
 · intro size hs
   exact hw size (check_finalSize h hs)

structure Le (buffer after : QuicStreamReceiveBuffer) : Prop where
  bytes : ∀ offset byte, buffer.bytes.lookup offset = some byte → after.bytes.lookup offset = some byte
  readOffset : buffer.readOffset ≤ after.readOffset
  finalSize : ∀ size, buffer.finalSize = some size → after.finalSize = some size
  finEmitted : buffer.finEmitted = true → after.finEmitted = true

lemma Le.antisymm {a b : QuicStreamReceiveBuffer} (hab : a.Le b) (hba : b.Le a) : a = b := by
 have hb : a.bytes = b.bytes := Finmap.ext_lookup fun offset=>
  Option.ext fun byte=>⟨hab.bytes offset byte,hba.bytes offset byte⟩
 have hs : a.finalSize = b.finalSize := Option.ext fun size=>⟨hab.finalSize size,hba.finalSize size⟩
 have he : a.finEmitted = b.finEmitted := Bool.eq_iff_iff.mpr ⟨hab.finEmitted,hba.finEmitted⟩
 have hr:=Nat.le_antisymm hab.readOffset hba.readOffset
 cases a
 cases b
 dsimp only at hb hs he hr
 rw [hb,hs,he,hr]

instance partialOrder : PartialOrder QuicStreamReceiveBuffer where
  le := Le
  le_refl _ := ⟨fun _ _ h => h, le_refl _, fun _ h => h, fun h => h⟩
  le_trans _ _ _ h h' := ⟨fun offset byte hb => h'.bytes offset byte (h.bytes offset byte hb),
    le_trans h.readOffset h'.readOffset, fun size hs => h'.finalSize size (h.finalSize size hs),
    fun he => h'.finEmitted (h.finEmitted he)⟩
  le_antisymm _ _ := Le.antisymm

lemma le_receive (h : buffer.receive frame = .ok (output, after)) : buffer ≤ after := by
 obtain ⟨fs,hc,hb,hs,hr,he⟩:=receive_eq_ok h
 refine ⟨?_,?_,?_,?_⟩
 · intro offset byte hby
   rw [hb]
   exact Sparse.lookup_write_of_some (check_eq_ok hc).2.2.2 hby
 · rw [hr]
   exact Nat.le_add_right _ _
 · intro size hk
   rw [hs]
   exact check_finalSize hc hk
 · intro hf
   rw [he,hf]
   rfl

lemma receive_eq_iff (hv : buffer.Valid) (h : buffer.receive frame = .ok (output, after)) :
    after = buffer ↔ buffer.Repeats frame := by
 obtain ⟨fs,hc,hb,hs,hre,he⟩:=receive_eq_ok h
 have ha:=accepts_of_check hc
 constructor
 · intro heq
   rw [heq] at hb hs
   refine ⟨ha,Sparse.write_eq_self_iff.mp hb.symm,fun hfi=>?_⟩
   rw [hs]
   exact ((check_eq_ok hc).1 hfi).1
 · intro hr
   have hsa:=Sparse.write_eq_self_iff.mpr hr.holds
   have hf : fs = buffer.finalSize := by
    cases hfi : frame.fin with
    | true => rw [((check_eq_ok hc).1 hfi).1,hr.sized hfi]
    | false => exact (check_eq_ok hc).2.1 hfi
   have hst : after.readOffset = buffer.readOffset := by
    rw [hre]
    dsimp only [store]
    rw [hsa,Sparse.contiguous_of_gap hv.gap]
    rfl
   have hco : after.complete = buffer.complete := by
    rw [complete,complete,hs,hf,hst]
   rw [hco,← hv.emitted,Bool.or_self] at he
   cases after
   cases buffer
   dsimp only at hb hs hst he hsa hf
   rw [hb,hsa,hs,hf,hst,he]

end QuicStreamReceiveBuffer

namespace QuicStreamReceiveState

def FrameRefused (streams : ℕ → QuicStreamReceiveBuffer) (frame : QuicFrame) : Prop :=
  ∃ streamFrame, frame.body = .stream streamFrame ∧
    ¬ (streamFrame.streamId ≤ maxSafeInteger ∧ (streams streamFrame.streamId).Accepts streamFrame)

def FrameRepeats (streams : ℕ → QuicStreamReceiveBuffer) (frame : QuicFrame) : Prop :=
  ∀ streamFrame, frame.body = .stream streamFrame →
    streamFrame.streamId ≤ maxSafeInteger ∧ (streams streamFrame.streamId).Repeats streamFrame

lemma receive_cases (frame : QuicStreamFrame) (state : QuicStreamReceiveState) :
    (∃ e, receive frame state = .error e state ∧
        ¬ (frame.streamId ≤ maxSafeInteger ∧ (state.streams frame.streamId).Accepts frame)) ∨
      ∃ output buffer after, (state.streams frame.streamId).receive frame = .ok (output, buffer) ∧
        receive frame state = .ok output after ∧ frame.streamId ≤ maxSafeInteger ∧
        after.streams = update state.streams frame.streamId buffer := by
 by_cases hid : frame.streamId ≤ maxSafeInteger
 · have hv : lift (validateStreamId frame.streamId) state = .ok () state :=
    Throwing.lift_eq_ok.mpr ⟨throwIf_neg (by omega),rfl⟩
   rw [receive,Throwing.bind_ok hv,Throwing.get_bind]
   cases h : (state.streams frame.streamId).receive frame with
   | error e =>
    rw [receiveOn_of_error h]
    refine .inl ⟨e,rfl,fun ha=>?_⟩
    obtain ⟨fs,hc⟩:=check_of_accepts ha.2
    rw [QuicStreamReceiveBuffer.receive,hc] at h
    cases h
   | ok result =>
    obtain ⟨after,haf,hs⟩:=receiveOn_of_ok h
    rw [haf]
    exact .inr ⟨result.1,result.2,after,rfl,rfl,hid,hs⟩
 · have hv : lift (validateStreamId frame.streamId) state =
     .error (.rangeError "QUIC stream id out of range") state :=
    Throwing.lift_eq_error.mpr ⟨if_pos (by omega),rfl⟩
   rw [receive,bind_error hv]
   exact .inl ⟨_,rfl,fun h=>hid h.1⟩

lemma receiveFrame_other {frame : QuicFrame} (h : ¬ ∃ streamFrame, frame.body = .stream streamFrame)
    (state : QuicStreamReceiveState) : receiveFrame frame state = .ok none state := by
 rw [receiveFrame]
 cases hb : frame.body <;> first | rfl | exact absurd ⟨_,hb⟩ h

lemma receiveFrame_cases (frame : QuicFrame) (state : QuicStreamReceiveState) :
    (∃ e, receiveFrame frame state = .error e state ∧ FrameRefused state.streams frame) ∨
      ∃ output after, receiveFrame frame state = .ok output after ∧ ¬ FrameRefused state.streams frame ∧
        state.streams ≤ after.streams ∧ (after.streams = state.streams ↔ FrameRepeats state.streams frame) := by
 by_cases hb : ∃ sf, frame.body = .stream sf
 · obtain ⟨sf,hb⟩:=hb
   have hf : receiveFrame frame = receive sf := by rw [receiveFrame,hb]
   have hr : FrameRefused state.streams frame ↔ ¬ (sf.streamId ≤ maxSafeInteger ∧
     (state.streams sf.streamId).Accepts sf) := by
    simp [FrameRefused,hb]
   have hre : FrameRepeats state.streams frame ↔ sf.streamId ≤ maxSafeInteger ∧
     (state.streams sf.streamId).Repeats sf := by
    simp [FrameRepeats,hb]
   rw [hf,hr,hre]
   rcases receive_cases sf state with ⟨e,he,hn⟩|⟨output,buffer,after,hbu,haf,hid,hs⟩
   · exact .inl ⟨e,he,hn⟩
   · have ha : (state.streams sf.streamId).Accepts sf := by
      obtain ⟨fs,hc,_⟩:=receive_eq_ok hbu
      exact accepts_of_check hc
     refine .inr ⟨output,after,haf,not_not_intro ⟨hid,ha⟩,?_,?_⟩
     · rw [hs]
       exact le_update_self_iff.mpr (le_receive hbu)
     · rw [hs,update_eq_self_iff, receive_eq_iff (state.valid sf.streamId) hbu]
       exact ⟨fun h=>⟨hid,h⟩,fun h=>h.2⟩
 · refine .inr ⟨none,state,receiveFrame_other hb state,?_,le_refl _,iff_of_true rfl ?_⟩
   · intro ⟨sf,heq,_⟩
     exact hb ⟨sf,heq⟩
   · intro sf heq
     exact absurd ⟨sf,heq⟩ hb

lemma raising_receiveFrame : Raising receiveFrame streams (· ≤ ·) FrameRepeats FrameRefused :=
 .of_cases receiveFrame_cases

lemma loop_receiveFrames (frames : List QuicFrame) (state : QuicStreamReceiveState) :
    Loop receiveFrame frames state (thrown (receiveFrames frames state)) (final (receiveFrames frames state)) := by
 induction frames generalizing state with
 | nil => exact .done state
 | cons frame frames ih =>
  rw [receiveFrames]
  cases h : receiveFrame frame state with
  | error e u =>
   rw [bind_error h]
   exact .throws h
  | ok output u =>
   have ht:=ih u
   rw [bind_ok h]
   refine .next h ?_
   cases hrest : receiveFrames frames u with
   | error e v =>
    rw [bind_error hrest]
    rwa [hrest] at ht
   | ok outputs v =>
    rw [bind_ok hrest]
    rwa [hrest] at ht

end QuicStreamReceiveState

/-- The credit of the connection and of each stream; a stream that may not be sent on has none. -/
structure SendLimits where
  maxData : Option ℕ
  maxStreamData : ℕ → Option (Option ℕ)

def LimitLe (limit limit' : Option ℕ) : Prop := ∀ n ∈ limit, ∃ m ∈ limit', n ≤ m

lemma LimitLe.refl (limit : Option ℕ) : LimitLe limit limit := fun n hn=>⟨n,hn,le_refl n⟩

lemma limitLe_some {n m : ℕ} : LimitLe (some n) (some m) ↔ n ≤ m := by simp [LimitLe]

lemma LimitLe.trans {c : Option ℕ} (hab : LimitLe a b) (hbc : LimitLe b c) : LimitLe a c := by
 intro n hn
 obtain ⟨m,hm,hnm⟩:=hab n hn
 obtain ⟨k,hk,hmk⟩:=hbc m hm
 exact ⟨k,hk,hnm.trans hmk⟩

lemma LimitLe.antisymm (hab : LimitLe a b) (hba : LimitLe b a) : a = b := by
 cases a with
 | none =>
  cases b with
  | none => rfl
  | some m =>
   obtain ⟨_,h,_⟩:=hba m rfl
   cases h
 | some n =>
  obtain ⟨m,rfl,hnm⟩:=hab n rfl
  obtain ⟨k,hk,hmk⟩:=hba m rfl
  cases hk
  rw [Nat.le_antisymm hnm hmk]

namespace SendLimits

structure Le (limits after : SendLimits) : Prop where
  maxData : LimitLe limits.maxData after.maxData
  closed : ∀ streamId, limits.maxStreamData streamId = none ↔ after.maxStreamData streamId = none
  maxStreamData : ∀ streamId, ∀ a ∈ limits.maxStreamData streamId, ∀ b ∈ after.maxStreamData streamId, LimitLe a b

lemma Le.antisymm {a b : SendLimits} (hab : a.Le b) (hba : b.Le a) : a = b := by
 have hs : a.maxStreamData = b.maxStreamData := by
  funext sid
  cases ha : a.maxStreamData sid with
  | none => exact ((hab.closed sid).mp ha).symm
  | some limit =>
   cases hb : b.maxStreamData sid with
   | none =>
    rw [(hba.closed sid).mp hb] at ha
    cases ha
   | some limit' =>
    rw [(hab.maxStreamData sid limit ha limit' hb).antisymm (hba.maxStreamData sid limit' hb limit ha)]
 have hdata:=hab.maxData.antisymm hba.maxData
 cases a
 cases b
 dsimp only at hs hdata
 rw [hs,hdata]

lemma Le.trans {a b c : SendLimits} (hab : a.Le b) (hbc : b.Le c) : a.Le c := by
 refine ⟨hab.maxData.trans hbc.maxData,fun sid=>(hab.closed sid).trans (hbc.closed sid),?_⟩
 intro sid limit ha limit'' hc
 cases hb : b.maxStreamData sid with
 | none =>
  rw [(hab.closed sid).mpr hb] at ha
  cases ha
 | some limit' => exact (hab.maxStreamData sid limit ha limit' hb).trans (hbc.maxStreamData sid limit' hb limit'' hc)

lemma Le.refl (limits : SendLimits) : limits.Le limits := by
 refine ⟨LimitLe.refl _,fun _=>Iff.rfl,?_⟩
 intro sid a ha b hb
 obtain rfl:=mem_unique ha hb
 exact LimitLe.refl a

instance partialOrder : PartialOrder SendLimits where
  le := Le
  le_refl := Le.refl
  le_trans _ _ _ := Le.trans
  le_antisymm _ _ := Le.antisymm

def FrameRefused (limits : SendLimits) (frame : QuicFrame) : Prop :=
  match frame.body with
  | .maxData maximumData => maximumData > maxSafeInteger
  | .maxStreamData streamId maximumStreamData =>
    streamId > maxSafeInteger ∨ maximumStreamData > maxSafeInteger ∨ limits.maxStreamData streamId = none
  | _ => False

def FrameRepeats (limits : SendLimits) (frame : QuicFrame) : Prop :=
  match frame.body with
  | .maxData maximumData => maximumData ≤ maxSafeInteger ∧ LimitLe (some maximumData) limits.maxData
  | .maxStreamData streamId maximumStreamData =>
    streamId ≤ maxSafeInteger ∧ maximumStreamData ≤ maxSafeInteger ∧
      ∃ limit ∈ limits.maxStreamData streamId, LimitLe (some maximumStreamData) limit
  | _ => True

end SendLimits

lemma maxLimit_limitLe {next : ℕ} (h : next ≤ maxSafeInteger) (current : Option ℕ) (name : String) :
    ∃ limit, maxLimit current next name = .ok limit ∧ LimitLe current (some limit) ∧
      (some limit = current ↔ LimitLe (some next) current) := by
 refine ⟨_,maxLimit_of_le h current name,?_⟩
 cases current with
 | none => simp [LimitLe]
 | some current =>
  rw [limitLe_some,limitLe_some,some.injEq,getD_some]
  omega

lemma maxLimit_of_lt {next : ℕ} (h : maxSafeInteger < next) (current : Option ℕ) (name : String) :
    maxLimit current next name = throwRange (name ++ " limit out of range") := by
 rw [maxLimit,validateStreamLimit,throwIf,if_pos h]
 rfl

namespace QuicStreamSendState

def limits (state : QuicStreamSendState) : SendLimits :=
  ⟨state.maxData, fun streamId => (state.maxStreamDataForSend streamId).toOption⟩

variable (state : QuicStreamSendState)

lemma limits_update (sid limit : ℕ) : limits { state with streamLimits := update state.streamLimits sid (some limit) } =
      ⟨state.maxData, update state.limits.maxStreamData sid (some (some limit))⟩ := by
 refine congrArg (SendLimits.mk state.maxData) (funext fun other=>?_)
 by_cases heq : other = sid
 · rw [heq,maxStreamDataForSend_update_self,update_self]
   rfl
 · rw [maxStreamDataForSend_update_of_ne state limit heq,update_of_ne heq]
   rfl

lemma applyMaxData_cases (maximumData : ℕ) :
    (∃ e, state.applyMaxData maximumData = .error e ∧ maximumData > maxSafeInteger) ∨
      ∃ after, state.applyMaxData maximumData = .ok after ∧ maximumData ≤ maxSafeInteger ∧
        state.limits ≤ after.limits ∧
        (after.limits = state.limits ↔ LimitLe (some maximumData) state.limits.maxData) := by
 by_cases hmax : maximumData ≤ maxSafeInteger
 · obtain ⟨limit,hlimit,hle,hi⟩:=maxLimit_limitLe hmax state.maxData "QUIC MAX_DATA"
   rw [applyMaxData,hlimit]
   refine .inr ⟨_,rfl,hmax,⟨hle,fun _=>Iff.rfl,(SendLimits.Le.refl state.limits).maxStreamData⟩,?_⟩
   rw [SendLimits.mk.injEq]
   exact ⟨fun h=>hi.mp h.1,fun h=>⟨hi.mpr h,rfl⟩⟩
 · rw [applyMaxData,maxLimit_of_lt (by omega)]
   exact .inl ⟨_,rfl,by omega⟩

lemma applyMaxStreamData_cases (sid maximumStreamData : ℕ) :
    (∃ e, state.applyMaxStreamData sid maximumStreamData = .error e ∧
        (sid > maxSafeInteger ∨ maximumStreamData > maxSafeInteger ∨ state.limits.maxStreamData sid = none)) ∨
      ∃ after limit, state.applyMaxStreamData sid maximumStreamData = .ok after ∧
        sid ≤ maxSafeInteger ∧ maximumStreamData ≤ maxSafeInteger ∧
        state.limits.maxStreamData sid = some limit ∧ state.limits ≤ after.limits ∧
        (after.limits = state.limits ↔ LimitLe (some maximumStreamData) limit) := by
 rw [applyMaxStreamData,validateStreamId]
 by_cases hid : sid ≤ maxSafeInteger
 · rw [throwIf_neg (by omega),ok_bind]
   cases hc : state.maxStreamDataForSend sid with
   | error e => exact .inl ⟨e,rfl,.inr (.inr (congrArg Except.toOption hc))⟩
   | ok current =>
    have hl : state.limits.maxStreamData sid = some current := congrArg Except.toOption hc
    rw [ok_bind]
    by_cases hmax : maximumStreamData ≤ maxSafeInteger
    · obtain ⟨limit,hlimit,hle,hi⟩:=maxLimit_limitLe hmax current "QUIC MAX_STREAM_DATA"
      rw [hlimit]
      refine .inr ⟨_,current,rfl,hid,hmax,hl,?_,?_⟩
      · rw [limits_update]
        refine ⟨LimitLe.refl _,fun other=>?_,fun other a ha b hb=>?_⟩
        · by_cases heq : other = sid
          · rw [heq,hl]
            simp
          · simp [update_of_ne heq]
        · by_cases heq : other = sid
          · rw [heq,hl] at ha
            rw [heq] at hb
            simp only [update_self] at hb
            cases ha
            cases hb
            exact hle
          · simp only [update_of_ne heq] at hb
            obtain rfl:=mem_unique ha hb
            exact LimitLe.refl a
      · rw [limits_update]
        rw [SendLimits.mk.injEq,update_eq_self_iff,hl,some.injEq,← hi]
        exact ⟨fun h=>h.2,fun h=>⟨rfl,h⟩⟩
    · rw [maxLimit_of_lt (by omega)]
      exact .inl ⟨_,rfl,.inr (.inl (by omega))⟩
 · rw [throwIf,if_pos (by omega)]
   exact .inl ⟨_,rfl,.inl (by omega)⟩

lemma applyFlowControlFrame_cases (frame : QuicFrame) (state : QuicStreamSendState) :
    (∃ e, applyFlowControlFrame frame state = .error e state ∧ state.limits.FrameRefused frame) ∨
      ∃ output after, applyFlowControlFrame frame state = .ok output after ∧
        ¬ state.limits.FrameRefused frame ∧ state.limits ≤ after.limits ∧
        (after.limits = state.limits ↔ state.limits.FrameRepeats frame) := by
 rw [applyFlowControlFrame,SendLimits.FrameRefused,SendLimits.FrameRepeats]
 cases frame.body with
 | maxData maximumData =>
  dsimp only
  rw [Throwing.get_bind]
  rcases state.applyMaxData_cases maximumData with ⟨e,he,hr⟩|⟨after,ha,hmax,hle,hi⟩
  · rw [he]
    exact .inl ⟨e,rfl,hr⟩
  · rw [ha]
    refine .inr ⟨(),after,rfl,by omega,hle,hi.trans ?_⟩
    exact ⟨fun h=>⟨hmax,h⟩,fun h=>h.2⟩
 | maxStreamData sid maximumStreamData =>
  dsimp only
  rw [Throwing.get_bind]
  rcases state.applyMaxStreamData_cases sid maximumStreamData with
   ⟨e,he,hr⟩ | ⟨after,limit,ha,hid,hmax,hlimit,hle,hi⟩
  · rw [he]
    exact .inl ⟨e,rfl,hr⟩
  · rw [ha,hlimit]
    refine .inr ⟨(),after,rfl,?_,hle,hi.trans ?_⟩
    · rintro (h|h|h)
      · omega
      · omega
      · cases h
    · constructor
      · intro h
        exact ⟨hid,hmax,limit,rfl,h⟩
      · intro ⟨_,_,other,ho,h⟩
        cases ho
        exact h
 | _ => exact .inr ⟨(),state,rfl,not_false,le_refl _,iff_of_true rfl trivial⟩

lemma raising_applyFlowControlFrame :
    Raising applyFlowControlFrame limits (· ≤ ·) SendLimits.FrameRepeats SendLimits.FrameRefused :=
 .of_cases applyFlowControlFrame_cases

lemma loop_applyFlowControlFrames (frames : List QuicFrame) (state : QuicStreamSendState) :
    Loop applyFlowControlFrame frames state (thrown (applyFlowControlFrames frames state))
      (final (applyFlowControlFrames frames state)) := by
 induction frames generalizing state with
 | nil => exact .done state
 | cons frame frames ih =>
  rw [applyFlowControlFrames]
  cases h : applyFlowControlFrame frame state with
  | error e u =>
   rw [bind_error h]
   exact .throws h
  | ok _ u =>
   rw [bind_ok h]
   exact .next h (ih u)

end QuicStreamSendState

variable {C : Ciphers}

namespace QuicConnectionState

/-- What was done before a throw: the packet's number is taken down, the STREAM frames up to a refused one are stored,
and the limits are raised only if none is refused. -/
theorem receive_error_state {conn after : QuicConnectionState} {pkt : Bytes} {e : Thrown}
    {rec : QuicOneRttPacketReceiveResult} {frames : List QuicFrame}
    (hd : conn.decode C pkt = .ok (rec, frames))
    (h : receive C pkt 0 conn = .error e after) :
    after.oneRtt.largestReceivedPacketNumber = some rec.largestReceivedPacketNumber ∧
      after.oneRtt.ackTracker.numbers = (if frames.any isQuicAckElicitingFrame then
        conn.oneRtt.ackTracker.numbers.insert rec.packetNumber else conn.oneRtt.ackTracker.numbers) ∧
      after.oneRtt.receiveState = final (receiveFrames frames conn.oneRtt.receiveState) ∧
      after.oneRtt.sendState = if (thrown (receiveFrames frames conn.oneRtt.receiveState)).isSome then
          conn.oneRtt.sendState
        else final (QuicStreamSendState.applyFlowControlFrames frames conn.oneRtt.sendState) := by
 obtain ⟨result,tracker,hf,hn,_,_,hb⟩:=receive_of_decode hd
 rw [receive,onOneRtt,zoom_eq_error] at h
 obtain ⟨state,h,rfl⟩:=h
 rcases bind_eq_error.mp h with h|⟨output,stored,hok,h⟩
 · rw [hb] at h
   rcases bind_eq_error.mp h with h|⟨_,_,_,h⟩
   · rw [onReceiveState,zoom_eq_error] at h
     obtain ⟨streams,hs,rfl⟩:=h
     rw [hs]
     exact ⟨rfl,hn,rfl,rfl⟩
   · cases h
 · rw [hb] at hok
   obtain ⟨outputs,_,hok,ho⟩:=Throwing.bind_eq_ok.mp hok
   cases ho
   rw [onReceiveState,zoom_eq_ok] at hok
   obtain ⟨streams,hs,rfl⟩:=hok
   rw [hf] at h
   rw [hs]
   rcases bind_eq_error.mp h with h|⟨_,raised,hok,h⟩
   · rw [onSendState,zoom_eq_error] at h
     obtain ⟨limits,hl,rfl⟩:=h
     rw [hl]
     exact ⟨rfl,hn,rfl,rfl⟩
   · rw [onSendState,zoom_eq_ok] at hok
     obtain ⟨limits,hl,rfl⟩:=hok
     rw [hl]
     rcases bind_eq_error.mp h with h|⟨_,_,_,h⟩
     · rw [acknowledge_error h]
       exact ⟨rfl,hn,rfl,rfl⟩
     · cases h

structure Unchanged (before after : QuicConnectionState) : Prop where
  largestReceived : after.oneRtt.largestReceivedPacketNumber = before.oneRtt.largestReceivedPacketNumber
  toAcknowledge : ∀ n, n ∈ after.oneRtt.ackTracker.numbers ↔ n ∈ before.oneRtt.ackTracker.numbers
  receiveBuffers : after.oneRtt.receiveState.streams = before.oneRtt.receiveState.streams
  sendLimits : after.oneRtt.sendState.limits = before.oneRtt.sendState.limits

/-- The number of a packet is known, also as one to acknowledge if it asks for that. -/
def Seen (connection : QuicConnectionState) (packetNumber : ℕ) (frames : List QuicFrame) : Prop :=
  (∃ largest ∈ connection.oneRtt.largestReceivedPacketNumber, packetNumber ≤ largest) ∧
    (frames.any isQuicAckElicitingFrame = true → packetNumber ∈ connection.oneRtt.ackTracker.numbers)

/-- Up to the first refused frame, a packet only repeats what the connection knows. The STREAM frames come before the
limits. -/
def Repetition (connection : QuicConnectionState) (frames : List QuicFrame) : Prop :=
  Idle (QuicStreamReceiveState.FrameRepeats connection.oneRtt.receiveState.streams)
      (QuicStreamReceiveState.FrameRefused connection.oneRtt.receiveState.streams) frames ∧
    ((∃ frame ∈ frames, QuicStreamReceiveState.FrameRefused connection.oneRtt.receiveState.streams frame) ∨
      Idle connection.oneRtt.sendState.limits.FrameRepeats connection.oneRtt.sendState.limits.FrameRefused frames)

lemma mem_numbers_iff {numbers after : List ℕ} {number : ℕ} {eliciting : Bool}
    (h : after = if eliciting then numbers.insert number else numbers) :
    (∀ n, n ∈ after ↔ n ∈ numbers) ↔ (eliciting = true → number ∈ numbers) := by
 rw [h]
 cases eliciting with
 | false => simp
 | true =>
  rw [if_pos rfl]
  constructor
  · intro hs _
    exact (hs number).mp List.mem_insert_self
  · intro hm n
    rw [List.insert_of_mem (hm rfl)]

/-- A call that throws changes nothing just if the packet cannot be read, or is a known one in which nothing new comes
before the refused frame. -/
theorem receive_throws_unchanged_iff {connection after : QuicConnectionState} {packet : Bytes} {e : Thrown}
    (h : receive C packet 0 connection = .error e after) :
    connection.Unchanged after ↔ (∃ e', connection.decode C packet = .error e') ∨
        ∃ received frames, connection.decode C packet = .ok (received, frames) ∧
          connection.Seen received.packetNumber frames ∧ connection.Repetition frames := by
 cases hd : connection.decode C packet with
 | error e' =>
  rw [receive_of_decode_error hd] at h
  cases h
  exact iff_of_true ⟨rfl,fun _=>Iff.rfl,rfl,rfl⟩ (.inl ⟨e,rfl⟩)
 | ok decoded =>
  obtain ⟨received,frames⟩:=decoded
  obtain ⟨hl,hn,hrec,hse⟩:=receive_error_state hd h
  have hre : some received.largestReceivedPacketNumber = connection.oneRtt.largestReceivedPacketNumber ↔
    ∃ l ∈ connection.oneRtt.largestReceivedPacketNumber, received.packetNumber ≤ l := by
   simp only [decode,bind_eq_ok,pure_eq_ok,Prod.mk.injEq] at hd
   obtain ⟨_,hre,_,_,rfl,_⟩:=hd
   exact (receiveQuicOneRttPacket_eq_ok hre).2
  have hlo:=loop_receiveFrames frames connection.oneRtt.receiveState
  have hi:=hlo.view_eq_iff raising_receiveFrame
  have hth:=hlo.throws_iff raising_receiveFrame
  have hra:=(QuicStreamSendState.loop_applyFlowControlFrames frames
   connection.oneRtt.sendState).view_eq_iff QuicStreamSendState.raising_applyFlowControlFrame
  rw [← hrec] at hi
  have hli : after.oneRtt.sendState.limits = connection.oneRtt.sendState.limits ↔
    (thrown (receiveFrames frames connection.oneRtt.receiveState)).isSome = true ∨
     Idle connection.oneRtt.sendState.limits.FrameRepeats connection.oneRtt.sendState.limits.FrameRefused
      frames := by
   rw [hse]
   split
   · rename_i ht
     exact iff_of_true rfl (.inl ht)
   · rename_i ht
     exact hra.trans (or_iff_right ht).symm
  constructor
  · intro hu
    have hr:=hi.mp hu.receiveBuffers
    refine .inr ⟨received,frames,rfl,⟨hre.mp ?_,?_⟩,hr,?_⟩
    · rw [← hl,hu.largestReceived]
    · exact (mem_numbers_iff hn).mp hu.toAcknowledge
    · rw [← hth hr]
      exact hli.mp hu.sendLimits
  · rintro (⟨_,he⟩|⟨_,_,hsa,hs,hr,hrest⟩)
    · cases he
    · cases hsa
      refine ⟨hl.trans (hre.mpr hs.1),(mem_numbers_iff hn).mpr hs.2,hi.mpr hr,?_⟩
      rw [hli,hth hr]
      exact hrest

end QuicConnectionState

def halfRefusedFrames : Bytes := [0x0a, 0x00, 0x01, 0x61, 0x11, 0x03, 0x0a]

def progress (connection : QuicConnectionState) : Option ℕ × List ℕ × ℕ :=
  (connection.oneRtt.largestReceivedPacketNumber, connection.oneRtt.ackTracker.numbers,
    (connection.oneRtt.receiveState.streams 0).readOffset)

def halfRefused : List QuicFrame :=
  [⟨.stream ⟨0, 0, [0x61], false⟩, 0, 4⟩, ⟨.maxStreamData 3 10, 4, 7⟩]

lemma repetition_halfRefused {conn : QuicConnectionState}
    (hb : (conn.oneRtt.receiveState.streams 0).bytes.lookup 0 = some 0x61)
    (hf : (conn.oneRtt.receiveState.streams 0).finalSize = none)
    (hl : conn.oneRtt.sendState.limits.maxStreamData 3 = none) : conn.Repetition halfRefused := by
 have hr : (conn.oneRtt.receiveState.streams 0).Repeats ⟨0,0,[0x61],false⟩ := by
  have hh : (conn.oneRtt.receiveState.streams 0).bytes.Holds 0 [0x61] := by
   rintro (_|i) a ⟨⟩
   exact hb
  refine ⟨⟨by decide,nofun,?_,?_⟩,hh,nofun⟩
  · rw [hf]
    exact nofun
  · intro i a b ha hb
    exact some.inj (hb.symm.trans (hh i a ha))
 refine ⟨.inr ⟨?_,.inr ⟨nofun,trivial⟩⟩,.inr (.inr ⟨trivial,.inl (.inr (.inr hl))⟩)⟩
 rintro _ ⟨⟩
 exact ⟨by decide,hr⟩

/-- The packet is refused again, and all that it says is known by then. -/
theorem repeated_packet_leaves_unchanged :
    ∃ connection packet known e after, establishedConnection .client = .ok connection ∧
      encryptQuicOneRttPacket plainCiphers plainKeys clientConnectionId 0 1 halfRefusedFrames = .ok packet ∧
      final (receive plainCiphers packet 0 connection) = known ∧ progress known = (some 0, [0], 1) ∧
      receive plainCiphers packet 0 known = .error e after ∧ known.Unchanged after := by
 obtain ⟨connection,hc,packet,hp,⟨received,frames⟩,hd,hn,rfl,hk,ht,hb,hf,hl⟩ :
   ∃ connection, establishedConnection .client = .ok connection ∧ ∃ packet,
    encryptQuicOneRttPacket plainCiphers plainKeys clientConnectionId 0 1 halfRefusedFrames = .ok packet ∧
    let known:=final (receive plainCiphers packet 0 connection)
    ∃ decoded, known.decode plainCiphers packet = .ok decoded ∧ decoded.1.packetNumber = 0 ∧
     decoded.2 = halfRefused ∧ progress known = (some 0,[0],1) ∧
     (thrown (receive plainCiphers packet 0 known)).isSome ∧
     (known.oneRtt.receiveState.streams 0).bytes.lookup 0 = some 0x61 ∧
     (known.oneRtt.receiveState.streams 0).finalSize = none ∧
     known.oneRtt.sendState.limits.maxStreamData 3 = none := by
  decide +kernel
 obtain ⟨e,ht⟩:=Option.isSome_iff_exists.mp ht
 have hr:=Throwing.eq_error_of_thrown ht
 refine ⟨connection,packet,_,e,_,hc,hp,rfl,hk,hr,(receive_throws_unchanged_iff hr).mpr (.inr ⟨_,_,hd,⟨?_,?_⟩,?_⟩)⟩
 · exact ⟨0,(Prod.mk.inj hk).1,hn.le⟩
 · intro _
   change received.packetNumber = 0 at hn
   rw [hn,(Prod.mk.inj (Prod.mk.inj hk).2).1]
   exact List.mem_singleton_self 0
 · exact repetition_halfRefused hb hf hl

theorem half_refused_packet_is_taken_down : ∃ connection packet after,
      establishedConnection .client = .ok connection ∧
      encryptQuicOneRttPacket plainCiphers plainKeys clientConnectionId 0 1 halfRefusedFrames = .ok packet ∧
      QuicConnectionState.receive plainCiphers packet 0 connection =
        .error (.rangeError "QUIC cannot send on peer-initiated unidirectional stream") after ∧
      progress connection = (none, [], 0) ∧ progress after = (some 0, [0], 1) ∧
      ¬ connection.Unchanged after := by
 have he : (do
   let connection ← establishedConnection .client
   let packet ← encryptQuicOneRttPacket plainCiphers plainKeys clientConnectionId 0 1 halfRefusedFrames
   let result:=receive plainCiphers packet 0 connection
   return (thrown result,progress connection,progress (final result))) =
    (.ok (some (.rangeError "QUIC cannot send on peer-initiated unidirectional stream"),
     (none,[],0),(some 0,[0],1)) : Outcome _) := by
  decide +kernel
 simp only [bind_eq_ok,pure_eq_ok,Prod.mk.injEq] at he
 obtain ⟨connection,hc,packet,hp,ht,hbefore,ha⟩:=he
 refine ⟨connection,packet,_,hc,hp,Throwing.eq_error_of_thrown ht,hbefore,ha,?_⟩
 intro h
 have hl : (progress (final (receive plainCiphers packet 0 connection))).1 =
   (progress connection).1 := h.largestReceived
 rw [hbefore,ha] at hl
 cases hl

end Enlace.Quic
