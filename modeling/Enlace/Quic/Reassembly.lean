import Enlace.Quic.AllOrNothing

set_option autoImplicit false

/-! What the frames accepted on a stream leave in its buffer and in its outputs. -/
namespace Enlace.Quic
open ByteString Fallible List Finmap

namespace QuicStreamFrame

def endOffset (frame : QuicStreamFrame) : ℕ := frame.streamOffset + frame.data.length

def Covers (frame : QuicStreamFrame) (offset : ℕ) : Prop := frame.streamOffset ≤ offset ∧ offset < frame.endOffset

/-- The frame has a part of a byte stream and ends at a number of the source. -/
structure PartOf (stream : Bytes) (frame : QuicStreamFrame) : Prop where
  inRange : frame.endOffset ≤ maxSafeInteger
  within : frame.endOffset ≤ stream.length
  agrees : ∀ i a, frame.data[i]? = some a → stream[frame.streamOffset + i]? = some a
  final : frame.fin = true → frame.endOffset = stream.length

end QuicStreamFrame

namespace QuicStreamReceiveBuffer

def receiveNext (run : List QuicStreamReceiveOutput × QuicStreamReceiveBuffer) (frame : QuicStreamFrame) :
    Outcome (List QuicStreamReceiveOutput × QuicStreamReceiveBuffer) := do
  let result ← run.2.receive frame
  return (run.1 ++ result.1.toList, result.2)

/-- The frames are received one after the other on a new stream. -/
def receiveAll (frames : List QuicStreamFrame) : Outcome (List QuicStreamReceiveOutput × QuicStreamReceiveBuffer) :=
  frames.foldlM receiveNext ([], empty)

structure Received (frames : List QuicStreamFrame) (outputs : List QuicStreamReceiveOutput)
    (buffer : QuicStreamReceiveBuffer) : Prop where
  valid : buffer.Valid
  covered : ∀ offset, offset ∈ buffer.bytes ↔ ∃ frame ∈ frames, frame.Covers offset
  holds : ∀ frame ∈ frames, buffer.bytes.Holds frame.streamOffset frame.data
  sized : ∀ size, buffer.finalSize = some size ↔ ∃ frame ∈ frames, frame.fin = true ∧ frame.endOffset = size
  capped : frames.Pairwise fun frame later => frame.fin = true → later.endOffset ≤ frame.endOffset
  length : (outputs.flatMap (·.data)).length = buffer.readOffset
  read : ∀ offset < buffer.readOffset, (outputs.flatMap (·.data))[offset]? = buffer.bytes.lookup offset
  starts : ∀ i output, outputs[i]? = some output → output.streamOffset = ((outputs.take i).flatMap (·.data)).length
  fins : outputs.countP (·.fin) = if buffer.complete then 1 else 0
  ends : ∀ output ∈ outputs, output.fin = true → output.complete = true

variable {frame : QuicStreamFrame} {frames : List QuicStreamFrame} {outputs : List QuicStreamReceiveOutput}
  {output : Option QuicStreamReceiveOutput} {buffer after : QuicStreamReceiveBuffer}

lemma received_empty : Received [] [] empty :=
 ⟨valid_empty,fun _=>by simp [empty,notMem_empty],by simp,by simp [empty],.nil,rfl,by simp [empty],by simp,rfl,by simp⟩

lemma receive_output (h : buffer.receive frame = .ok (output, after)) :
    output.toList.flatMap (·.data) = after.bytes.contiguous after.bytes.keys.card buffer.readOffset ∧
    output.toList.countP (·.fin) = (if after.complete && !buffer.finEmitted then 1 else 0) ∧
    ∀ o ∈ output, o.streamOffset = buffer.readOffset ∧ (o.fin = true → o.complete = true) := by
 simp only [receive,bind_eq_ok,pure_eq_ok] at h
 obtain ⟨fs,_,h⟩:=h
 have ho : output = if (after.bytes.contiguous after.bytes.keys.card buffer.readOffset).length = 0 ∧
   (after.complete && !buffer.finEmitted) = false then none
   else some ⟨frame.streamId,buffer.readOffset,after.bytes.contiguous after.bytes.keys.card buffer.readOffset,
    after.complete && !buffer.finEmitted,after.finalSize,after.complete⟩ := by
  cases h
  rfl
 generalize after.bytes.contiguous after.bytes.keys.card buffer.readOffset = data at ho ⊢
 rw [ho]
 split_ifs with hn hfi hfi
 · simp [hn.2] at hfi
 · simp [eq_nil_of_length_eq_zero hn.1]
 · obtain ⟨hc,hf⟩:=Bool.and_eq_true_iff.mp hfi
   simp [hc,hf]
 · simp [hfi]

lemma Received.receive (h : Received frames outputs buffer) (hr : buffer.receive frame = .ok (output, after)) :
    Received (frames ++ [frame]) (outputs ++ output.toList) after := by
 obtain ⟨fs,hc,hb,hs,hre,hem⟩:=receive_eq_ok hr
 obtain ⟨hdata,hco,hou⟩:=receive_output hr
 obtain ⟨hfi,hn,hw,hag⟩:=check_eq_ok hc
 have hv:=h.valid.receive hr
 have hl : after.readOffset = buffer.readOffset+(output.toList.flatMap (·.data)).length := by
  rw [hdata,hre,hb]
  rfl
 refine ⟨hv,?_,?_,?_,?_,?_,?_,?_,?_,?_⟩
 · intro offset
   rw [hb,Sparse.mem_write,h.covered]
   simp [or_and_right,exists_or,QuicStreamFrame.Covers,QuicStreamFrame.endOffset]
 · intro earlier hm i a ha
   rw [hb]
   rcases mem_append.mp hm with hold|hne
   · exact Sparse.lookup_write_of_some hag (h.holds earlier hold i a ha)
   · obtain rfl:=mem_singleton.mp hne
     rw [Sparse.lookup_write_add,ha,Option.some_or]
 · intro size
   rw [hs]
   cases hf : frame.fin with
   | false =>
    rw [hn hf,h.sized]
    simp [or_and_right,exists_or,hf]
   | true =>
    obtain ⟨heq,hal⟩:=hfi hf
    rw [heq]
    refine ⟨fun hso=>⟨frame,by simp,hf,Option.some.inj hso⟩,?_⟩
    rintro ⟨earlier,hm,he,rfl⟩
    rcases mem_append.mp hm with hold|hne
    · rw [hal _ ((h.sized _).mpr ⟨earlier,hold,he,rfl⟩)]
    · rw [mem_singleton.mp hne]
      rfl
 · refine pairwise_append.mpr ⟨h.capped,pairwise_singleton ..,fun earlier hold later hne he=>?_⟩
   rw [mem_singleton.mp hne]
   exact hw _ (check_finalSize hc ((h.sized _).mpr ⟨earlier,hold,he,rfl⟩))
 · rw [flatMap_append,length_append,h.length,hl]
 · intro offset hof
   rw [flatMap_append]
   by_cases hlt : offset < buffer.readOffset
   · obtain ⟨byte,hby⟩:=mem_iff.mp (h.valid.filled offset hlt)
     rw [getElem?_append_left (by rw [h.length]; exact hlt),h.read offset hlt,hb,hby,
      Sparse.lookup_write_of_some hag hby]
   · obtain ⟨i,rfl⟩:=Nat.exists_eq_add_of_le (show buffer.readOffset ≤ offset by omega)
     rw [getElem?_append_right (by rw [h.length]; omega),h.length,Nat.add_sub_cancel_left,hdata,
      Sparse.lookup_contiguous (by rw [← hdata]; omega)]
 · intro i o ho
   by_cases hi : i < outputs.length
   · rw [getElem?_append_left hi] at ho
     rw [take_append_of_le_length hi.le]
     exact h.starts i o ho
   · rw [getElem?_append_right (by omega)] at ho
     cases output with
     | none => simp at ho
     | some new =>
      obtain ⟨hz,rfl⟩ : i - outputs.length = 0 ∧ new = o:=by simpa [getElem?_singleton] using ho
      rw [show i = outputs.length by omega,take_left,h.length,(hou new rfl).1]
 · rw [countP_append,h.fins,hco,h.valid.emitted]
   have hk : after.complete = (buffer.complete || after.complete) := by
    rw [← h.valid.emitted,← hem,hv.emitted]
   cases hbefore : buffer.complete with
   | true =>
    rw [hbefore,Bool.true_or] at hk
    simp [hk]
   | false => simp
 · intro o ho
   rcases mem_append.mp ho with hold|hne
   · exact h.ends o hold
   · exact (hou o (Option.mem_toList.mp hne)).2

lemma receiveAll_concat (frames : List QuicStreamFrame) (frame : QuicStreamFrame) :
    receiveAll (frames ++ [frame]) = receiveAll frames >>= fun run => receiveNext run frame := by
 rw [receiveAll,foldlM_append,← receiveAll]
 simp only [foldlM_cons,foldlM_nil,bind_pure]

lemma received_of_receiveAll (h : receiveAll frames = .ok (outputs, buffer)) : Received frames outputs buffer := by
 induction frames using reverseRecOn generalizing outputs buffer with
 | nil =>
  cases h
  exact received_empty
 | append_singleton frames frame ih =>
  rw [receiveAll_concat] at h
  simp only [bind_eq_ok,receiveNext,pure_eq_ok,Prod.mk.injEq] at h
  obtain ⟨⟨earlier,middle⟩,he,⟨output,after⟩,hr,rfl,rfl⟩:=h
  exact (ih he).receive hr

namespace Received

variable {stream : Bytes}

section
variable (h : Received frames outputs buffer)
include h

section
variable (hparts : ∀ frame ∈ frames, frame.PartOf stream)
include hparts

lemma lookup_stream
    {offset : ℕ} {byte : UInt8} (hb : buffer.bytes.lookup offset = some byte) : stream[offset]? = some byte := by
 obtain ⟨frame,hm,hle,hlt⟩:=(h.covered offset).mp (mem_iff.mpr ⟨byte,hb⟩)
 obtain ⟨i,rfl⟩:=Nat.exists_eq_add_of_le hle
 have hi : frame.data[i]? = some (frame.data.get ⟨i,by simpa [QuicStreamFrame.endOffset] using hlt⟩) :=
  getElem?_eq_getElem _
 rw [(hparts frame hm).agrees i _ hi,← h.holds frame hm i _ hi,hb]

lemma accepts (hp : frame.PartOf stream) : buffer.Accepts frame := by
 have hl : ∀ size ∈ buffer.finalSize, size = stream.length := by
  intro size hs
  obtain ⟨earlier,hm,hf,rfl⟩:=(h.sized size).mp hs
  exact (hparts earlier hm).final hf
 refine ⟨hp.inRange,fun hf size hs=>?_,fun size hs=>?_,fun i a b ha hb=>?_⟩
 · exact (hl size hs).trans (hp.final hf).symm
 · rw [hl size hs]
   exact hp.within
 · have heq:=h.lookup_stream hparts hb
   rw [hp.agrees i a ha] at heq
   exact (Option.some.inj heq).symm

lemma data_eq_take : outputs.flatMap (·.data) = stream.take buffer.readOffset := by
 refine ext_getElem? fun i=>?_
 by_cases hi : i < buffer.readOffset
 · obtain ⟨byte,hb⟩:=mem_iff.mp (h.valid.filled i hi)
   rw [h.read i hi,getElem?_take_of_lt hi,hb,h.lookup_stream hparts hb]
 · rw [getElem?_eq_none (by rw [h.length]; omega),getElem?_eq_none (by rw [length_take]; omega)]

lemma complete_iff :
    buffer.complete = true ↔ buffer.readOffset = stream.length ∧ ∃ frame ∈ frames, frame.fin = true := by
 rw [complete,decide_eq_true_iff,h.sized]
 constructor
 · rintro ⟨frame,hm,hf,heq⟩
   exact ⟨heq.symm.trans ((hparts frame hm).final hf),frame,hm,hf⟩
 · rintro ⟨heq,frame,hm,hf⟩
   exact ⟨frame,hm,hf,((hparts frame hm).final hf).trans heq.symm⟩

end

end

end Received

lemma receiveAll_of_parts {stream : Bytes} (hparts : ∀ frame ∈ frames, frame.PartOf stream) :
    ∃ outputs buffer, receiveAll frames = .ok (outputs, buffer) := by
 induction frames using reverseRecOn with
 | nil => exact ⟨_,_,rfl⟩
 | append_singleton frames frame ih =>
  have he : ∀ frame ∈ frames, frame.PartOf stream := fun frame hm=>hparts frame (mem_append_left _ hm)
  obtain ⟨outputs,buffer,ha⟩:=ih he
  obtain ⟨fs,hc⟩:=check_of_accepts
   ((received_of_receiveAll ha).accepts he (hparts frame (mem_append_right _ mem_cons_self)))
  rw [receiveAll_concat,ha,ok_bind,receiveNext,QuicStreamReceiveBuffer.receive,hc]
  exact ⟨_,_,rfl⟩

/-- Frames with parts of one byte stream are all accepted. What they put out is the longest prefix without a gap, each
output from where the last one ended, and the end is reported once. -/
theorem stream_reassembled {stream : Bytes} (hparts : ∀ frame ∈ frames, frame.PartOf stream) :
    (∃ outputs buffer, receiveAll frames = .ok (outputs, buffer) ∧
      outputs.flatMap (·.data) = stream.take buffer.readOffset ∧
      (∀ offset < buffer.readOffset, ∃ frame ∈ frames, frame.Covers offset) ∧
      (∀ frame ∈ frames, ¬ frame.Covers buffer.readOffset) ∧
      (∀ i output, outputs[i]? = some output → output.streamOffset = ((outputs.take i).flatMap (·.data)).length) ∧
      outputs.countP (·.fin) =
        (if buffer.readOffset = stream.length ∧ ∃ frame ∈ frames, frame.fin = true then 1 else 0) ∧
      ∀ output ∈ outputs, output.fin = true → output.complete = true) ∧
    ∀ frame state thrown after, QuicStreamReceiveState.receive frame state = .error thrown after → after = state := by
 constructor
 · obtain ⟨outputs,buffer,ha⟩:=receiveAll_of_parts hparts
   have h:=received_of_receiveAll ha
   refine ⟨outputs,buffer,ha,h.data_eq_take hparts,fun offset hlt=>?_,fun frame hm hc=>?_,h.starts,?_,h.ends⟩
   · exact (h.covered offset).mp (h.valid.filled offset hlt)
   · obtain ⟨byte,hb⟩:=mem_iff.mp ((h.covered _).mpr ⟨frame,hm,hc⟩)
     rw [h.valid.gap] at hb
     cases hb
   · simp only [h.fins,h.complete_iff hparts]
 · intro frame state thrown after ht
   rcases QuicStreamReceiveState.receive_cases frame state with ⟨e,he,_⟩|⟨_,_,_,_,hok,_⟩
   · rw [he] at ht
     cases ht
     rfl
   · rw [hok] at ht
     cases ht

/-- The parts of a stream of three bytes, its end before its start. -/
theorem stream_reassembled_backwards :
    ∃ outputs buffer, receiveAll [⟨0, 1, [2, 3], true⟩, ⟨0, 0, [1], false⟩] = .ok (outputs, buffer) ∧
      outputs.flatMap (·.data) = [1, 2, 3].take buffer.readOffset := by
 have hparts : ∀ frame ∈ [⟨0,1,[2,3],true⟩,⟨0,0,[1],false⟩], QuicStreamFrame.PartOf [1,2,3] frame := by
  simp only [mem_cons,not_mem_nil,or_false,forall_eq_or_imp,forall_eq]
  refine ⟨⟨by decide,by decide,fun i a ha=>?_,fun _=>rfl⟩,⟨by decide,by decide,fun i a ha=>?_,nofun⟩⟩
  · rw [Nat.add_comm]
    exact ha
  · cases i with
    | zero => exact ha
    | succ i => cases ha
 obtain ⟨⟨outputs,buffer,hal,hdata,_⟩,_⟩:=stream_reassembled hparts
 exact ⟨outputs,buffer,hal,hdata⟩

/-- All that is accepted stays below the final size, and the stream is complete when all below it has arrived. -/
structure FinalSizeKept (frames : List QuicStreamFrame) (buffer : QuicStreamReceiveBuffer) (size : ℕ) : Prop where
  below : ∀ frame ∈ frames, ∀ offset, frame.Covers offset → offset < size
  readOffset : buffer.readOffset ≤ size
  complete : (∀ offset < size, offset ∈ buffer.bytes) → buffer.complete = true

lemma Received.finalSizeKept_iff (h : Received frames outputs buffer) :
    (∀ size ∈ buffer.finalSize, FinalSizeKept frames buffer size) ↔
      frames.Pairwise fun earlier frame => frame.fin = true → ∀ offset, earlier.Covers offset →
        offset < frame.endOffset := by
 constructor
 · intro hk
   refine pairwise_of_forall_mem_list fun earlier he frame hf hfi=>?_
   exact (hk _ ((h.sized _).mpr ⟨frame,hf,hfi,rfl⟩)).below earlier he
 · intro ho size hs
   obtain ⟨final,hm,hfi,rfl⟩:=(h.sized size).mp hs
   have hb : ∀ frame ∈ frames, ∀ offset, frame.Covers offset → offset < final.endOffset := by
    intro frame hf offset hc
    obtain ⟨before,after,rfl⟩:=append_of_mem hm
    obtain ⟨_,ha,hbefore⟩:=pairwise_append.mp ho
    rcases mem_append.mp hf with he|hl
    · exact hbefore frame he final mem_cons_self hfi offset hc
    · rcases mem_cons.mp hl with rfl|hl
      · exact hc.2
      · have hca:=(pairwise_cons.mp (pairwise_append.mp h.capped).2.1).1 frame hl hfi
        exact hc.2.trans_le hca
   have hr : buffer.readOffset ≤ final.endOffset := by
    by_contra hgt
    obtain ⟨frame,hf,hc⟩:=(h.covered _).mp (h.valid.filled final.endOffset (by omega))
    exact absurd (hb frame hf _ hc) (by omega)
   refine ⟨hb,hr,fun hal=>decide_eq_true ?_⟩
   rw [hs]
   rcases hr.lt_or_eq with hlt|heq
   · obtain ⟨byte,hby⟩:=mem_iff.mp (hal _ hlt)
     rw [h.valid.gap] at hby
     cases hby
   · rw [heq]

/-- The final size is final exactly if no FIN ends below data received before it. -/
theorem final_size_kept_iff (frames : List QuicStreamFrame) :
    (∀ outputs buffer, receiveAll frames = .ok (outputs, buffer) →
      ∀ size ∈ buffer.finalSize, FinalSizeKept frames buffer size) ↔
    (∀ outputs buffer, receiveAll frames = .ok (outputs, buffer) → frames.Pairwise fun earlier frame =>
        frame.fin = true → ∀ offset, earlier.Covers offset → offset < frame.endOffset) := by
 refine forall_congr' fun outputs=>forall_congr' fun buffer=>forall_congr' fun h=>?_
 exact (received_of_receiveAll h).finalSizeKept_iff

/-- Five bytes, then a FIN after three of them: the stream is never complete. -/
theorem short_fin_is_accepted :
    ∃ outputs buffer, receiveAll [⟨0, 0, [1, 2, 3, 4, 5], false⟩, ⟨0, 0, [1, 2, 3], true⟩] = .ok (outputs, buffer) ∧
      buffer.finalSize = some 3 ∧ buffer.readOffset = 5 ∧ (∀ offset < 3, offset ∈ buffer.bytes) ∧
      buffer.complete = false := by
 exact ⟨_,_,rfl,rfl,rfl,by decide,rfl⟩

end QuicStreamReceiveBuffer

end Enlace.Quic
