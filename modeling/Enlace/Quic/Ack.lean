import Mathlib.Data.List.Chain
import Enlace.Quic.Frame
import Enlace.Lib.Throwing

set_option autoImplicit false

/-! ACK frames: how `frame.ts` writes and reads the ranges, and the packet numbers that `ack.ts` keeps. -/
namespace Enlace.Quic
open ByteString Fallible List
open Throwing (lift)

def QuicAckPacketRange.Below (range above : QuicAckPacketRange) : Prop :=
  range.largest + 2 ≤ above.smallest

structure Separated (ranges : List QuicAckPacketRange) : Prop where
  chain : ranges.IsChain QuicAckPacketRange.Below
  ordered : ∀ r ∈ ranges, r.smallest ≤ r.largest

variable {ranges : List QuicAckPacketRange} {ackDelay n packetNumber pos : ℕ} {b bytes rest : Bytes}

lemma separated_extend (h : Separated ranges)
    (hn : ∀ r ∈ ranges.head?, n < r.smallest) : Separated (extendAckPacketRanges ranges n) := by
 cases ranges with
 | nil =>
  refine ⟨List.IsChain.singleton _,fun r hr=>?_⟩
  obtain rfl:=mem_singleton.mp hr
  exact le_refl n
 | cons current rest =>
  have hlt:=hn current rfl
  have hc:=h.ordered current mem_cons_self
  rw [extendAckPacketRanges]
  split
  · refine ⟨?_,fun r hr=>?_⟩
    · cases rest with
      | nil => exact List.IsChain.singleton _
      | cons next rest =>
       obtain ⟨hb,ht⟩:=isChain_cons_cons.mp h.chain
       exact isChain_cons_cons.mpr ⟨hb,ht⟩
    · rcases mem_cons.mp hr with rfl|hr
      · dsimp only
        omega
      · exact h.ordered r (mem_cons_of_mem _ hr)
  · refine ⟨isChain_cons_cons.mpr ⟨?_,h.chain⟩,fun r hr=>?_⟩
    · change n+2 ≤ current.smallest
      omega
    · rcases mem_cons.mp hr with rfl|hr
      · exact le_refl n
      · exact h.ordered r hr

lemma head?_extend (ranges : List QuicAckPacketRange) (n : ℕ) :
    ∀ r ∈ (extendAckPacketRanges ranges n).head?, r.smallest = n := by
 cases ranges with
 | nil =>
  intro r hr
  cases hr
  rfl
 | cons current rest =>
  rw [extendAckPacketRanges]
  split <;> intro r hr <;> cases hr <;> rfl

def Acknowledged (ranges : List QuicAckPacketRange) (n : ℕ) : Prop := ∃ r ∈ ranges, r.smallest ≤ n ∧ n ≤ r.largest

lemma acknowledged_extend (h : Separated ranges) (n m : ℕ) :
    Acknowledged (extendAckPacketRanges ranges n) m ↔ m = n ∨ Acknowledged ranges m := by
 cases ranges with
 | nil => simp [extendAckPacketRanges,Acknowledged,le_antisymm_iff,and_comm]
 | cons current rest =>
  have hc:=h.ordered current mem_cons_self
  rw [extendAckPacketRanges]
  split_ifs with hn
  · simp only [Acknowledged,exists_mem_cons_iff,← or_assoc]
    refine or_congr_left ?_
    omega
  · simp only [Acknowledged,exists_mem_cons_iff,le_antisymm_iff]
    refine or_congr_left and_comm

variable {numbers : List ℕ}

lemma separated_foldl (hs : numbers.Pairwise (· > ·)) (h : Separated ranges)
    (hlow : ∀ n ∈ numbers, ∀ r ∈ ranges.head?, n < r.smallest) :
    Separated (numbers.foldl extendAckPacketRanges ranges) ∧
      ∀ m, Acknowledged (numbers.foldl extendAckPacketRanges ranges) m ↔ m ∈ numbers ∨ Acknowledged ranges m := by
 induction numbers generalizing ranges with
 | nil => exact ⟨h,by simp⟩
 | cons n numbers ih =>
  rw [pairwise_cons] at hs
  have he:=ih hs.2 (separated_extend h (hlow n mem_cons_self)) fun m hm r hr=>by
   rw [head?_extend ranges n r hr]
   exact hs.1 m hm
  refine ⟨he.1,fun m=>(he.2 m).trans ?_⟩
  rw [acknowledged_extend h,mem_cons,or_left_comm,or_assoc]

lemma length_foldl_extend_le (numbers : List ℕ) (ranges : List QuicAckPacketRange) :
    (numbers.foldl extendAckPacketRanges ranges).length ≤ ranges.length + numbers.length := by
 induction numbers generalizing ranges with
 | nil => exact le_refl _
 | cons n numbers ih =>
  have hle : (extendAckPacketRanges ranges n).length ≤ ranges.length+1 := by
   unfold extendAckPacketRanges
   split
   · split_ifs <;> simp
   · simp
  have hrest:=ih (extendAckPacketRanges ranges n)
  rw [foldl_cons,length_cons]
  omega

/-- The ranges of an ACK frame after the first one, from the packet ranges below the previous one. -/
def ackRangesBelow (previousSmallest : ℕ) : List QuicAckPacketRange → List QuicAckRange
  | [] => []
  | range :: ranges =>
    ⟨previousSmallest - range.largest - 2, range.largest - range.smallest⟩ :: ackRangesBelow range.smallest ranges

lemma validateAckRange_of_below {above range : QuicAckPacketRange} (hb : range.Below above)
    (hr : range.smallest ≤ range.largest) :
    validateAckRange above.smallest (above.smallest - range.largest - 2) (range.largest - range.smallest) =
      .ok range.smallest := by
 have hl : above.smallest - (above.smallest - range.largest - 2) - 2 = range.largest := by
  rw [QuicAckPacketRange.Below] at hb
  omega
 rw [QuicAckPacketRange.Below] at hb
 rw [validateAckRange,throwIf_neg (by omega)]
 dsimp only
 rw [hl,throwIf_neg (by omega),Nat.sub_sub_self hr]
 rfl

variable {above : QuicAckPacketRange}

lemma parseAckRanges_encodeAckRanges (hb : encodeAckRanges above.smallest ranges = .ok b)
    (hc : (above :: ranges).IsChain fun above range => range.Below above)
    (ho : ∀ r ∈ ranges, r.smallest ≤ r.largest) (h : bytes.drop pos = b ++ rest) :
    parseAckRanges bytes ranges.length pos above.smallest =
      .ok (ackRangesBelow above.smallest ranges, pos + b.length) := by
 induction ranges generalizing above b pos with
 | nil =>
  rw [← Except.ok.inj hb]
  rfl
 | cons range ranges ih =>
  simp only [encodeAckRanges,bind_eq_ok,pure_eq_ok] at hb
  obtain ⟨gap,hg,length,hl,fields,hf,rfl⟩:=hb
  obtain ⟨hbe,hc⟩:=isChain_cons_cons.mp hc
  have hra:=ho range mem_cons_self
  rw [append_assoc,append_assoc] at h
  have hl' := drop_add_of_drop h rfl
  rw [← append_assoc] at h
  have hf' := drop_add_of_drop hl' rfl
  rw [length_cons,parseAckRanges,decodeVarInt_of_drop hg (by rw [h,append_assoc]),ok_bind]
  dsimp only
  rw [decodeVarInt_of_drop hl hl',ok_bind]
  rw [validateAckRange_of_below hbe hra,ok_bind]
  rw [ih hf hc (fun r hr=>ho r (mem_cons_of_mem _ hr)) hf']
  refine congrArg (fun n=>Except.ok (ackRangesBelow above.smallest (range :: ranges),n)) ?_
  simp only [length_append]
  omega

lemma ackRangesFrom_ackRangesBelow (hc : (above :: ranges).IsChain fun above range => range.Below above)
    (ho : ∀ r ∈ ranges, r.smallest ≤ r.largest) :
    ackRangesFrom above.smallest (ackRangesBelow above.smallest ranges) =
      ranges.map fun r => ((r.smallest : ℤ), (r.largest : ℤ)) := by
 induction ranges generalizing above with
 | nil => rfl
 | cons range ranges ih =>
  obtain ⟨hb,hc⟩:=isChain_cons_cons.mp hc
  have hra:=ho range mem_cons_self
  rw [QuicAckPacketRange.Below] at hb
  have hl : (above.smallest : ℤ) - (above.smallest - range.largest - 2 : ℕ) - 2 = range.largest := by omega
  have hs : (range.largest : ℤ) - (range.largest - range.smallest : ℕ) = range.smallest := by omega
  rw [ackRangesBelow,ackRangesFrom]
  rw [hl,hs,ih hc fun r hr=>ho r (mem_cons_of_mem _ hr),map_cons]

lemma mapM_quicPacketNumberToBigInt (h : ∀ n ∈ numbers, n ≤ quicMaxPacketNumber) :
    numbers.mapM quicPacketNumberToBigInt = .ok numbers := by
 induction numbers with
 | nil => rfl
 | cons n numbers ih =>
  rw [mapM_cons,quicPacketNumberToBigInt_of_le (h n mem_cons_self),ih fun m hm=>h m (mem_cons_of_mem n hm)]
  rfl

lemma le_of_mapM_quicPacketNumberToBigInt {numbers' : List ℕ}
    (h : numbers.mapM quicPacketNumberToBigInt = .ok numbers') : ∀ n ∈ numbers, n ≤ quicMaxPacketNumber := by
 intro n hn
 obtain ⟨m,_,hm⟩:=ok_of_mapM_ok h hn
 simp only [quicPacketNumberToBigInt,bind_eq_ok,throwIf_eq_ok,pure_eq_ok] at hm
 obtain ⟨_,hle,_⟩:=hm
 omega

lemma pairwise_dedup_insertionSort (numbers : List ℕ) : (numbers.dedup.insertionSort (· ≥ ·)).Pairwise (· > ·) := by
 have hs : (numbers.dedup.insertionSort (· ≥ ·)).Pairwise (· ≥ ·) := pairwise_insertionSort _ _
 have hn : (numbers.dedup.insertionSort (· ≥ ·)).Nodup := (perm_insertionSort _ _).nodup_iff.mpr (nodup_dedup numbers)
 exact (hs.and hn).imp fun h=>lt_of_le_of_ne h.1 h.2.symm

structure Descending (ranges : List QuicAckPacketRange) : Prop where
  chain : ranges.IsChain fun above range => range.Below above
  ordered : ∀ r ∈ ranges, r.smallest ≤ r.largest
  inRange : ∀ r ∈ ranges, r.largest ≤ quicMaxPacketNumber

lemma buildAckPacketRanges_of_le (h : ∀ n ∈ numbers, n ≤ quicMaxPacketNumber) :
    ∃ ranges, buildAckPacketRanges numbers = .ok ranges ∧ Descending ranges ∧
      (∀ n, Acknowledged ranges n ↔ n ∈ numbers) ∧ ranges.length ≤ numbers.length := by
 have hni : Separated [] := ⟨List.IsChain.nil,forall_mem_nil _⟩
 obtain ⟨hs,hm⟩ := separated_foldl (pairwise_dedup_insertionSort numbers) hni fun _ _ _ hr=>by cases hr
 have hl:=length_foldl_extend_le (numbers.dedup.insertionSort (· ≥ ·)) []
 have hnu : ∀ n, Acknowledged ((numbers.dedup.insertionSort (· ≥ ·)).foldl extendAckPacketRanges []).reverse n ↔
   n ∈ numbers := by
  intro n
  have hn:=hm n
  simp only [Acknowledged,mem_insertionSort,mem_dedup,not_mem_nil,false_and,exists_false,or_false] at hn
  rw [← hn]
  simp only [Acknowledged,mem_reverse]
 refine ⟨_,by rw [buildAckPacketRanges,mapM_quicPacketNumberToBigInt h,ok_bind]; rfl,⟨?_,?_,?_⟩,hnu,?_⟩
 · exact isChain_reverse.mpr hs.chain
 · intro r hr
   exact hs.ordered r (mem_reverse.mp hr)
 · intro r hr
   exact h _ ((hnu _).mp ⟨r,hr,hs.ordered r (mem_reverse.mp hr),le_refl _⟩)
 · rw [length_reverse]
   rw [length_insertionSort] at hl
   exact hl.trans ((Nat.zero_add _).trans_le (dedup_sublist numbers).length_le)

lemma Descending.tail (h : Descending (above :: ranges)) : Descending ranges :=
 ⟨h.chain.tail,fun r hr=>h.ordered r (mem_cons_of_mem _ hr),fun r hr=>h.inRange r (mem_cons_of_mem _ hr)⟩

lemma Descending.length_le (h : Descending (above :: ranges)) : 2*ranges.length ≤ above.smallest := by
 induction ranges generalizing above with
 | nil => exact Nat.zero_le _
 | cons range ranges ih =>
  have hb:=(isChain_cons_cons.mp h.chain).1
  have hr:=h.ordered range (by simp)
  have hle:=ih h.tail
  rw [QuicAckPacketRange.Below] at hb
  rw [length_cons]
  omega

lemma encodeVarInt_of_le_packetNumber (hn : n ≤ quicMaxPacketNumber) : ∃ b, encodeVarInt n = .ok b := by
 obtain ⟨b,hb,_⟩:=encodeVarInt_of_le (show n ≤ maxQuicVarint from hn)
 exact ⟨b,hb⟩

lemma encodeAckRanges_of_descending
    (h : Descending (above :: ranges)) : ∃ b, encodeAckRanges above.smallest ranges = .ok b := by
 induction ranges generalizing above with
 | nil => exact ⟨[],rfl⟩
 | cons range ranges ih =>
  have ha:=h.inRange above mem_cons_self
  have ho:=h.ordered above mem_cons_self
  have hr:=h.inRange range (by simp)
  obtain ⟨gap,hg⟩:=encodeVarInt_of_le_packetNumber
   (show above.smallest - range.largest - 2 ≤ quicMaxPacketNumber by omega)
  obtain ⟨length,hl⟩:=encodeVarInt_of_le_packetNumber
   (show range.largest - range.smallest ≤ quicMaxPacketNumber by omega)
  obtain ⟨fields,hf⟩:=ih h.tail
  rw [encodeAckRanges,hg,hl,hf]
  exact ⟨_,rfl⟩

lemma encodeQuicAckFrame_of_le (hne : numbers ≠ [])
    (h : ∀ n ∈ numbers, n ≤ quicMaxPacketNumber) (hde : ackDelay ≤ maxSafeInteger) :
    ∃ b, encodeQuicAckFrame numbers ackDelay = .ok b := by
 obtain ⟨ranges,hb,hra,hm,_⟩:=buildAckPacketRanges_of_le h
 cases ranges with
 | nil =>
  obtain ⟨n,hn⟩:=exists_mem_of_ne_nil numbers hne
  obtain ⟨_,hr,_⟩:=(hm n).mpr hn
  cases hr
 | cons first ranges =>
  have hft:=hra.inRange first mem_cons_self
  have ho:=hra.ordered first mem_cons_self
  have hco:=hra.length_le
  obtain ⟨largestb,hl⟩:=encodeVarInt_of_le_packetNumber hft
  obtain ⟨delayb,hd⟩:=encodeVarInt_of_le_packetNumber
   (hde.trans (show maxSafeInteger ≤ quicMaxPacketNumber by decide))
  obtain ⟨countb,hc⟩:=encodeVarInt_of_le_packetNumber
   (show ranges.length ≤ quicMaxPacketNumber by omega)
  obtain ⟨firstb,hfi⟩:=encodeVarInt_of_le_packetNumber
   (show first.largest - first.smallest ≤ quicMaxPacketNumber by omega)
  obtain ⟨fields,hf⟩:=encodeAckRanges_of_descending hra
  rw [encodeQuicAckFrame,hb,ok_bind]
  dsimp only
  rw [throwIf_neg (by omega),hl,ok_bind,hd,ok_bind,hc,ok_bind,hfi,ok_bind,hf,ok_bind]
  exact ⟨_,rfl⟩

/-- An ACK frame is read back, or not at all where its ranges are too many for a number. -/
theorem parseQuicFrame_encodeQuicAckFrame
    (hb : encodeQuicAckFrame numbers ackDelay = .ok b) (h : bytes.drop pos = b ++ rest) :
    ∃ first ranges, Descending (first :: ranges) ∧ (∀ n, Acknowledged (first :: ranges) n ↔ n ∈ numbers) ∧
      ranges.length < numbers.length ∧
      parseQuicFrame bytes pos =
        if ranges.length ≤ maxSafeInteger then .ok ⟨.ack ⟨first.largest, ackDelay, first.largest - first.smallest,
          ackRangesBelow first.smallest ranges⟩, pos, pos + b.length⟩
        else throwRange "QUIC varint exceeds safe integer range" := by
 simp only [encodeQuicAckFrame,bind_eq_ok] at hb
 obtain ⟨ranges,hbu,hb⟩:=hb
 have hle : ∀ n ∈ numbers, n ≤ quicMaxPacketNumber := by
  simp only [buildAckPacketRanges,bind_eq_ok] at hbu
  obtain ⟨_,hm,_⟩:=hbu
  exact le_of_mapM_quicPacketNumberToBigInt hm
 obtain ⟨ranges',hb',hra,hme,hco⟩:=buildAckPacketRanges_of_le hle
 obtain rfl : ranges = ranges' := Except.ok.inj (hbu.symm.trans hb')
 cases ranges with
 | nil => cases hb
 | cons first ranges =>
  simp only [bind_eq_ok,throwIf_eq_ok,pure_eq_ok] at hb
  obtain ⟨_,hde,largestb,hl,delayb,hd,countb,hc,firstb,hfi,fields,hf, rfl⟩:=hb
  refine ⟨first,ranges,hra,hme,hco,?_⟩
  have ho:=hra.ordered first mem_cons_self
  have hh : bytes.drop pos = [UInt8.ofNat QuicFrameType.ack] ++
    (largestb ++ (delayb ++ (countb ++ (firstb ++ (fields ++ rest))))) := by
   rw [h]
   simp
  have hl' := drop_add_of_drop (n := 1) hh rfl
  have hd' := drop_add_of_drop hl' rfl
  have hc' := drop_add_of_drop hd' rfl
  have hf' := drop_add_of_drop hc' rfl
  have hfi' := drop_add_of_drop hf' rfl
  rw [parseQuicFrame,readQuicFrameType_of_drop hh (by decide)]
  change parseAckFrame bytes pos QuicFrameType.ack = _
  rw [parseAckFrame,decodeVarInt_of_drop hl hl',ok_bind]
  dsimp only
  rw [decodeVarIntNumber_of_drop hd (by omega) hd',ok_bind]
  dsimp only
  rw [decodeVarIntNumber,decodeVarInt_of_drop hc hc',ok_bind]
  by_cases hs : ranges.length ≤ maxSafeInteger
  · rw [throwIf_neg (Nat.not_lt.mpr hs),ok_bind,pure_bind,if_pos hs]
    rw [decodeVarInt_of_drop hfi hf',ok_bind]
    dsimp only
    rw [throwIf_neg (by omega),ok_bind,Nat.sub_sub_self ho,parseAckRanges_encodeAckRanges hf hra.chain
      (fun r hr=>hra.ordered r (mem_cons_of_mem _ hr)) hfi',ok_bind]
    refine congrArg (fun n=>Except.ok (QuicFrame.mk _ pos n)) ?_
    simp only [length_cons,length_append]
    omega
  · rw [throwIf,if_pos (Nat.lt_of_not_le hs),if_neg hs]
    rfl

lemma encodeQuicAckFrame_length_ge (h : encodeQuicAckFrame numbers ackDelay = .ok b) : 5 ≤ b.length := by
 simp only [encodeQuicAckFrame,bind_eq_ok] at h
 obtain ⟨ranges,_,h⟩:=h
 cases ranges with
 | nil => cases h
 | cons first ranges =>
  simp only [bind_eq_ok,throwIf_eq_ok,pure_eq_ok] at h
  obtain ⟨_,_,largest,hl,delay,hd,count,hc,gap,hg,fields,_,rfl⟩:=h
  have hp : ∀ {n : ℕ} {b : Bytes}, encodeVarInt n = .ok b → 0 < b.length := fun h=>
   length_pos_iff.mpr (encodeVarInt_ne_nil h)
  have h₁:=hp hl
  have h₂:=hp hd
  have h₃:=hp hc
  have h₄:=hp hg
  simp only [length_cons,length_append]
  omega

/-- The packet numbers that an ACK frame names are those it was built from, and every ACK frame that is accepted names
ranges of numbers from the top down with a gap between any two. -/
theorem ack_frame_denotes (numbers : List ℕ) (ackDelay : ℕ) (hne : numbers ≠ []) (hmax : ∀ n ∈ numbers, n < 2^62)
    (hlength : numbers.length ≤ maxSafeInteger) (hdelay : ackDelay ≤ maxSafeInteger) :
    (∃ b frame, encodeQuicAckFrame numbers ackDelay = .ok b ∧
      parseQuicFrames b 0 = .ok ⟨[⟨.ack frame, 0, b.length⟩], b.length⟩ ∧
      ∀ n : ℤ, (∃ r ∈ frame.packetRanges, r.1 ≤ n ∧ n ≤ r.2) ↔ ∃ m ∈ numbers, n = m) ∧
    ∀ bytes offset result, parseQuicFrames bytes offset = .ok result →
      ∀ frame ∈ result.frames, ∀ ack ∈ frame.body.ack?, Descends ack.packetRanges := by
 refine ⟨?_,?_⟩
 · obtain ⟨b,hb⟩:=encodeQuicAckFrame_of_le hne (fun n hn=>Nat.le_of_lt_succ (hmax n hn)) hdelay
   obtain ⟨first,ranges,hra,hm,hc,hp⟩:=parseQuicFrame_encodeQuicAckFrame hb
    (show b.drop 0 = b ++ [] by rw [append_nil]; rfl)
   rw [if_pos (by omega),Nat.zero_add] at hp
   refine ⟨b,_,hb,parseQuicFrames_single hp rfl,fun n=>?_⟩
   have hfi:=hra.ordered first mem_cons_self
   have hs : (first.largest : ℤ) - (first.largest - first.smallest : ℕ) = first.smallest := by omega
   rw [QuicAckFrame.packetRanges]
   rw [hs,ackRangesFrom_ackRangesBelow hra.chain hra.tail.ordered]
   simp only [← hm,Acknowledged,mem_cons,mem_map]
   constructor
   · rintro ⟨_,rfl|⟨r,hr,rfl⟩,hlow,hh⟩
     · exact ⟨n.toNat,⟨first,.inl rfl,by omega,by omega⟩,by omega⟩
     · exact ⟨n.toNat,⟨r,.inr hr,by omega,by omega⟩,by omega⟩
   · rintro ⟨m,⟨r,rfl|hr,hlow,hh⟩,rfl⟩
     · exact ⟨_,.inl rfl,by omega,by omega⟩
     · exact ⟨_,.inr ⟨r,hr,rfl⟩,by omega,by omega⟩
 · intro bytes offset result h frame hf
   simp only [parseQuicFrames,bind_eq_ok] at h
   obtain ⟨_,_,h⟩:=h
   exact (parseQuicFrame_spec (mem_parseFramesFrom h hf)).1.descends

theorem ack_frame_denotes_seven_five_seven : ∃ b frame, encodeQuicAckFrame [7, 5, 7] 0 = .ok b ∧
      parseQuicFrames b 0 = .ok ⟨[⟨.ack frame, 0, b.length⟩], b.length⟩ ∧
      ∀ n : ℤ, (∃ r ∈ frame.packetRanges, r.1 ≤ n ∧ n ≤ r.2) ↔ ∃ m ∈ [7, 5, 7], n = (m : ℕ) :=
 (ack_frame_denotes [7,5,7] 0 (by decide) (by decide) (by decide) (by decide)).1

structure QuicAckReceiveSnapshot where
  receivedPacketNumbers : List ℕ
  largestReceivedPacketNumber : Option ℕ
  deriving DecidableEq

structure QuicAckReceiveTracker where
  numbers : List ℕ
  inRange : ∀ n ∈ numbers, n ≤ quicMaxPacketNumber

namespace QuicAckReceiveTracker

def empty : QuicAckReceiveTracker := ⟨[], List.forall_mem_nil _⟩

lemma inRange_insert (tracker : QuicAckReceiveTracker) (h : packetNumber ≤ quicMaxPacketNumber) :
    ∀ n ∈ tracker.numbers.insert packetNumber, n ≤ quicMaxPacketNumber := by
 intro n hn
 rcases mem_insert_iff.mp hn with rfl|hn
 · exact h
 · exact tracker.inRange n hn

def record (tracker : QuicAckReceiveTracker) (packetNumber : ℕ) : Outcome QuicAckReceiveTracker :=
  if h : packetNumber ≤ quicMaxPacketNumber then
    .ok ⟨tracker.numbers.insert packetNumber, tracker.inRange_insert h⟩
  else throwRange "QUIC packet number out of range"

def receivedPacketNumbers (tracker : QuicAckReceiveTracker) : List ℕ :=
  tracker.numbers.insertionSort (· ≥ ·)

def snapshot (tracker : QuicAckReceiveTracker) : QuicAckReceiveSnapshot :=
  ⟨tracker.receivedPacketNumbers, tracker.receivedPacketNumbers.head?⟩

def ackFrame (tracker : QuicAckReceiveTracker) (ackDelay : ℕ) : Outcome Bytes :=
  encodeQuicAckFrame tracker.receivedPacketNumbers ackDelay

lemma record_of_le (tracker : QuicAckReceiveTracker) (h : packetNumber ≤ quicMaxPacketNumber) :
    ∃ recorded, tracker.record packetNumber = .ok recorded ∧ recorded.numbers = tracker.numbers.insert packetNumber :=
 ⟨_,dif_pos h,rfl⟩

lemma ackFrame_of_mem {tracker : QuicAckReceiveTracker}
    (h : packetNumber ∈ tracker.numbers) (hd : ackDelay ≤ maxSafeInteger) :
    ∃ b, tracker.ackFrame ackDelay = .ok b := by
 have hm : ∀ n, n ∈ tracker.receivedPacketNumbers ↔ n ∈ tracker.numbers := fun n=>
  mem_insertionSort _
 refine encodeQuicAckFrame_of_le (ne_nil_of_mem ((hm packetNumber).mpr h)) ?_ hd
 intro n hn
 exact tracker.inRange n ((hm n).mp hn)

end QuicAckReceiveTracker

def isQuicAckElicitingFrame (frame : QuicFrame) : Bool :=
  match frame.body with
  | .padding _ | .ack _ | .ackEcn _ _ | .connectionClose _ _ _ => false
  | .ping | .crypto _ _ | .stream _ | .maxData _ | .maxStreamData _ _ | .newConnectionId _ _ _ _
  | .handshakeDone => true

structure QuicOneRttFrameReceiveResult where
  frames : List QuicFrame
  ackEliciting : Bool
  ackSnapshot : QuicAckReceiveSnapshot
  ackFrame : Option Bytes
  deriving DecidableEq

def receiveQuicOneRttFrames (packetNumber : ℕ) (frames : List QuicFrame) (ackDelay : ℕ) :
    EStateM Thrown QuicAckReceiveTracker QuicOneRttFrameReceiveResult := do
  let tracker ← get
  if frames.any isQuicAckElicitingFrame then do
    let recorded ← lift (tracker.record packetNumber)
    set recorded
    let ackFrame ← lift (recorded.ackFrame ackDelay)
    return ⟨frames, true, recorded.snapshot, some ackFrame⟩
  else return ⟨frames, false, tracker.snapshot, none⟩

def receiveQuicOneRttPlaintextFrames (packetNumber : ℕ) (frameBytes : Bytes) (ackDelay : ℕ) :
    EStateM Thrown QuicAckReceiveTracker QuicOneRttFrameReceiveResult := do
  let parsed ← lift (parseQuicFrames frameBytes 0)
  receiveQuicOneRttFrames packetNumber parsed.frames ackDelay

open Throwing

lemma receiveQuicOneRttFrames_of_le (hn : n ≤ quicMaxPacketNumber)
    (hd : ackDelay ≤ maxSafeInteger) (frames : List QuicFrame) (tracker : QuicAckReceiveTracker) :
    ∃ result after, receiveQuicOneRttFrames n frames ackDelay tracker = .ok result after ∧ result.frames = frames ∧
      after.numbers = (if frames.any isQuicAckElicitingFrame then tracker.numbers.insert n else tracker.numbers) ∧
      result.ackFrame.isSome = frames.any isQuicAckElicitingFrame ∧
      ∀ b ∈ result.ackFrame, after.ackFrame ackDelay = .ok b := by
 rw [receiveQuicOneRttFrames,get_bind]
 split
 · rename_i he
   obtain ⟨recorded,hr,hnu⟩:=tracker.record_of_le hn
   obtain ⟨ackFrame,ha⟩:=QuicAckReceiveTracker.ackFrame_of_mem
    (show n ∈ recorded.numbers by rw [hnu]; exact mem_insert_self) hd
   rw [hr,bind_ok (lift_ok _ _),set_bind,ha]
   refine ⟨_,_,rfl,rfl,hnu,he.symm,?_⟩
   intro b hb
   cases hb
   exact ha
 · rename_i hsilent
   exact ⟨_,_,rfl,rfl,rfl,(Bool.not_eq_true _ ▸ hsilent).symm,fun _ hb=>by cases hb⟩

end Enlace.Quic
