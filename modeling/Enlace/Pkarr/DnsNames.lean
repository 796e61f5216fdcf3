import Enlace.Pkarr.Dns

set_option autoImplicit false

/-! Names in a DNS packet: what a name with pointers in it says, and what is read of the names that are written. -/
namespace Enlace.Pkarr
open ByteString Unicode List OrderedMap OrderedSet Fallible UInt8 Nat Writer

def Follows (packet : Bytes) (offset : ℕ) (rest : Bytes) : Prop :=
  ∃ before, packet = before ++ rest ∧ before.length = offset

namespace Follows

variable {packet : Bytes} {offset : ℕ}

variable {value rest : Bytes}

lemma skip (h : Follows packet offset (value ++ rest)) : Follows packet (offset + value.length) rest := by
 obtain ⟨before,rfl,rfl⟩:=h
 exact ⟨before ++ value,(append_assoc _ _ _).symm,length_append⟩

lemma skip_of_length {n : ℕ} (h : Follows packet offset (value ++ rest)) (hn : value.length = n) :
    Follows packet (offset + n) rest :=
 hn ▸ h.skip

lemma tail {b : UInt8} (h : Follows packet offset (b :: rest)) : Follows packet (offset + 1) rest :=
 skip (show Follows packet offset ([b] ++ rest) from h)

lemma byteAt {b : UInt8} (h : Follows packet offset (b :: rest)) : byteAt packet offset = .ok b := by
 obtain ⟨before,rfl,rfl⟩:=h
 rw [Pkarr.byteAt,getElem?_append_right le_rfl,Nat.sub_self]
 rfl

lemma slice (h : Follows packet offset (value ++ rest)) {last : ℕ}
    (hl : last = offset + value.length) : slice packet offset last = .ok value := by
 obtain ⟨before,rfl,rfl⟩:=h
 have hin : ¬ (last > (before ++ (value ++ rest)).length ∨ before.length > last) := by
  rw [length_append,length_append]
  omega
 rw [Pkarr.slice,errorIf,if_neg hin,drop_left,hl,Nat.add_sub_cancel_left]
 exact congrArg Except.ok take_left

lemma length_le (h : Follows packet offset rest) : packet.length = offset + rest.length := by
 obtain ⟨before,rfl,rfl⟩:=h
 exact length_append

end Follows

open Follows

namespace ReaderM

variable {α β : Type} {packet : Bytes} {offset : ℕ}

lemma bind_ok {m : ReaderM α} {f : α → ReaderM β} {last : ℕ} {value : α} (h : m offset = .ok (value, last)) :
    (m >>= f) offset = f value last := by
 change (m offset >>= fun read=>f read.1 read.2) = _
 rw [h]
 rfl

lemma get_bind (f : ℕ → ReaderM β) : ((get : ReaderM ℕ) >>= f) offset = f offset offset := rfl

lemma lift_bind {x : Outcome α} {value : α} (h : x = .ok value) (f : α → ReaderM β) :
    (StateT.lift x >>= f) offset = f value offset := by
 subst h
 rfl

lemma u8_of_follows {value : ℕ} {rest : Bytes} (h : Follows packet offset (beBytes 1 value ++ rest))
    (hv : value < 0x100) :
    u8 packet offset = .ok (value, offset + 1) := by
 have hby : byteAt packet offset = .ok (ofNat (value/256^0)) := h.byteAt
 have hb:=ofBeBytes_beBytes_of_lt 1 value hv
 rw [u8,hby]
 simp only [beBytes,ofBeBytes] at hb
 simpa using hb

lemma u16_of_follows {value : ℕ} {rest : Bytes} (h : Follows packet offset (beBytes 2 value ++ rest))
    (hv : value < 0x10000) : u16 packet offset = .ok (value, offset + 2) := by
 have hh : byteAt packet offset = .ok (ofNat (value/256^1)) := h.byteAt
 have hlow : byteAt packet (offset+1) = .ok (ofNat (value/256^0)) := (tail h).byteAt
 rw [u16,hh,hlow]
 exact congrArg (fun n=>Except.ok (n,offset+2)) (ofBeBytes_beBytes_of_lt 2 value hv)

lemma u32_of_follows {value : ℕ} {rest : Bytes} (h : Follows packet offset (beBytes 4 value ++ rest))
    (hv : value < 0x100000000) : u32 packet offset = .ok (value, offset + 4) := by
 have h0 : byteAt packet offset = .ok (ofNat (value/256^3)) := h.byteAt
 have h1 : byteAt packet (offset+1) = .ok (ofNat (value/256^2)) := (tail h).byteAt
 have h2 : byteAt packet (offset+2) = .ok (ofNat (value/256^1)) := (tail (tail h)).byteAt
 have h3 : byteAt packet (offset+3) = .ok (ofNat (value/256^0)) := (tail (tail (tail h))).byteAt
 rw [u32,h0,h1,h2,h3]
 exact congrArg (fun n=>Except.ok (n,offset+4)) (ofBeBytes_beBytes_of_lt 4 value hv)

lemma take_of_follows {value rest : Bytes} (h : Follows packet offset (value ++ rest)) :
    take packet value.length offset = .ok (value, offset + value.length) := by
 rw [take,h.slice rfl]
 rfl

end ReaderM

/-- The name at the cursor: its size up to the first pointer, and its labels. Every pointer goes to a place before them.
-/
inductive NameAt (packet : Bytes) : ℕ → ℕ → ℕ → List Bytes → Prop where
  | nil {start cursor : ℕ} (h : byteAt packet cursor = .ok 0) : NameAt packet start cursor 1 []
  | cons {start cursor size : ℕ} {label : Bytes} {labels : List Bytes} (hpos : 0 < label.length)
    (hmax : label.length ≤ maxLabelBytes) (hlength : byteAt packet cursor = .ok (UInt8.ofNat label.length))
    (hlabel : slice packet (cursor + 1) (cursor + 1 + label.length) = .ok label)
    (hrest : NameAt packet start (cursor + 1 + label.length) size labels) :
    NameAt packet start cursor (1 + label.length + size) (label :: labels)
  | jump {start cursor before pointer size : ℕ} {labels : List Bytes} (hlt : pointer < start) (hmax : pointer < 0x4000)
    (hbefore : before ≤ pointer) (hhigh : byteAt packet cursor = .ok (UInt8.ofNat (0xc0 + pointer/0x100)))
    (hlow : byteAt packet (cursor + 1) = .ok (UInt8.ofNat pointer)) (hname : NameAt packet before pointer size labels) :
    NameAt packet start cursor 2 labels

lemma isPointer_iff (b : UInt8) : b &&& 0xc0 = 0xc0 ↔ 0xc0 ≤ b := by
 have ha : ∀ v : BitVec 8, v &&& 0xc0#8 = 0xc0#8 ↔ 0xc0#8 ≤ v := by decide
 have hb:=ha b.toBitVec
 rw [← UInt8.toBitVec_inj]
 exact hb

def nameLength (labels : List Bytes) : ℕ := (labels.map fun label => label.length + 1).sum

variable {labels : List Bytes} {packet : Bytes}

lemma NameAt.readNameLoop {start cursor size : ℕ}
    (h : NameAt packet start cursor size labels) {c : NameCursor} (hcu : c.cursor = cursor)
    (hs : ∀ pointer ∈ c.seenPointers, start ≤ pointer) (hmax : c.nameLength + nameLength labels < maxNameBytes)
    {rounds : ℕ} (hr : labels.length + start < rounds) :
    ∃ c', readNameLoop packet rounds c = .ok c' ∧ c'.labels = c.labels ++ labels.map decodeUtf8 ∧
      c'.consumed = c.consume size := by
 induction h generalizing c rounds with
 | nil hb =>
  obtain ⟨rounds,rfl⟩:=exists_eq_add_one_of_ne_zero (ne_zero_of_lt hr)
  have hlabel : ¬ (0 : UInt8) &&& 0xc0 = 0xc0 := by decide
  rw [Pkarr.readNameLoop,hcu,hb,ok_bind,if_neg hlabel,if_pos rfl]
  exact ⟨_,rfl,(append_nil _).symm,rfl⟩
 | @cons start cursor size label labels hpos hsh hle hlabel _ ih =>
  obtain ⟨rounds,rfl⟩:=exists_eq_add_one_of_ne_zero (ne_zero_of_lt hr)
  rw [maxLabelBytes] at hsh
  have hn : (ofNat label.length).toNat = label.length := toNat_ofNat_of_lt' (show _ < 0x100 by omega)
  have hp : ¬ ofNat label.length &&& 0xc0 = 0xc0 := by
   rw [isPointer_iff,le_iff_toNat_le,hn]
   change ¬ 0xc0 ≤ label.length
   omega
  have hne : ofNat label.length ≠ 0 := by
   intro hz
   rw [hz] at hn
   change 0 = label.length at hn
   omega
  have hsu : nameLength (label :: labels) = label.length+1+nameLength labels := sum_cons
  rw [hsu] at hmax
  rw [length_cons] at hr
  have hm' : c.nameLength+label.length+1+nameLength labels < maxNameBytes := by omega
  obtain ⟨c',hre,hl,hc⟩:=@ih ⟨cursor+1+label.length,c.consume (1+label.length),c.followed,
   c.nameLength+label.length+1,c.seenPointers,c.labels ++ [decodeUtf8 label]⟩ rfl hs hm' rounds (by omega)
  refine ⟨c',?_,?_,?_⟩
  · rw [Pkarr.readNameLoop,hcu,hle,ok_bind,if_neg hp,if_neg hne,hn,errorIf,
     if_neg (by rw [maxLabelBytes]; omega),ok_bind,errorIf,if_neg (by omega),ok_bind,hlabel,
     ok_bind]
    exact hre
  · rw [hl,append_assoc]
    rfl
  · rw [hc]
    unfold NameCursor.consume
    dsimp only
    split_ifs
    · rfl
    · omega
 | @jump start cursor before pointer size labels hlt hpo hbefore hh hlow _ ih =>
  obtain ⟨rounds,rfl⟩:=exists_eq_add_one_of_ne_zero (ne_zero_of_lt hr)
  have hn : (ofNat (0xc0+pointer/0x100)).toNat = 0xc0+pointer/0x100 := toNat_ofNat_of_lt' (show _ < 0x100 by omega)
  have hj : ofNat (0xc0+pointer/0x100) &&& 0xc0 = 0xc0 := by
   rw [isPointer_iff,le_iff_toNat_le,hn]
   change 0xc0 ≤ 0xc0+pointer/0x100
   omega
  have ht : ofBeBytes [ofNat (0xc0+pointer/0x100),ofNat pointer] % 0x4000 = pointer := by
   simp only [ofBeBytes,hn,toNat_ofNat',length_cons,length_nil]
   omega
  have hnew : ¬ has c.seenPointers pointer = true := by
   rw [has_eq_true]
   intro hm
   have := hs pointer hm
   omega
  have hs' : ∀ other ∈ add c.seenPointers pointer, before ≤ other := by
   intro other ho
   rcases mem_add.mp ho with hold|rfl
   · have := hs other hold
     omega
   · exact hbefore
  obtain ⟨c',hre,hl,hc⟩:=@ih ⟨pointer,c.consume 2,true,c.nameLength,
   add c.seenPointers pointer,c.labels⟩ rfl hs' hmax rounds (by omega)
  refine ⟨c',?_,hl,?_⟩
  · rw [Pkarr.readNameLoop,hcu,hh,ok_bind,if_pos hj,hlow,ok_bind]
    dsimp only
    rw [ht,errorIf,if_neg hnew,ok_bind]
    exact hre
  · rw [hc]
    rfl

lemma NameAt.length_le {start cursor size : ℕ}
    (h : NameAt packet start cursor size labels) : 2*labels.length ≤ nameLength labels := by
 induction h with
 | nil _ => exact le_refl _
 | @cons start cursor size label labels hp _ _ _ _ ih =>
  have hs : nameLength (label :: labels) = label.length+1+nameLength labels := sum_cons
  rw [length_cons,hs]
  omega
 | jump _ _ _ _ _ _ ih => exact ih

lemma NameAt.readName {start size : ℕ} (h : NameAt packet start start size labels)
    (hmax : nameLength labels < maxNameBytes) (hro : start ≤ 0x4000) :
    readName packet start = .ok ([dot].intercalate (labels.map decodeUtf8), start + size) := by
 have hle:=h.length_le
 rw [maxNameBytes] at hmax
 obtain ⟨c,hr,hl,hc⟩:=h.readNameLoop (c := ⟨start,0,false,0,[],[]⟩) rfl
  nofun (show 0+nameLength labels < maxNameBytes by rw [maxNameBytes]; omega)
  (show labels.length+start < readNameRounds by rw [readNameRounds]; omega)
 rw [Pkarr.readName,hr,ok_bind,hl,hc]
 exact congrArg (fun n=>Except.ok (_,start+n)) (zero_add size)

namespace Writer

variable {w w' : Writer}

lemma asserted_eq_ok {value max : ℕ} :
    (do assertUnsigned value max; return w : Outcome Writer) = .ok w' ↔ value ≤ max ∧ w' = w := by
 constructor
 · intro h
   obtain ⟨_,hmax,hw⟩:=bind_eq_ok.mp h
   exact ⟨Nat.le_of_not_lt (rangeErrorIf_eq_ok.mp hmax),(pure_eq_ok.mp hw).symm⟩
 · rintro ⟨hle,rfl⟩
   exact bind_eq_ok.mpr ⟨(),rangeErrorIf_eq_ok.mpr (Nat.not_lt_of_le hle),rfl⟩

lemma u8_eq_ok {value : ℕ} : w.u8 value = .ok w' ↔ value ≤ 0xff ∧ w' = w.write (beBytes 1 value) :=
 asserted_eq_ok

lemma u16_eq_ok {value : ℕ} : w.u16 value = .ok w' ↔ value ≤ 0xffff ∧ w' = w.write (beBytes 2 value) :=
 asserted_eq_ok

lemma u32_eq_ok {value : ℕ} : w.u32 value = .ok w' ↔ value ≤ 0xffffffff ∧ w' = w.write (beBytes 4 value) :=
 asserted_eq_ok

end Writer

lemma nameKey_cons_cons (label next : Bytes) (labels : List Bytes) :
    nameKey (label :: next :: labels) = label ++ 0 :: nameKey (next :: labels) := by
 simp [nameKey,intercalate]

lemma nameKey_length (h : labels ≠ []) : (nameKey labels).length + 1 = nameLength labels := by
 induction labels with
 | nil => exact absurd rfl h
 | cons label labels ih =>
  cases labels with
  | nil => simp [nameKey,nameLength,intercalate]
  | cons next labels =>
   have hs : nameLength (label :: next :: labels) = label.length+1+nameLength (next :: labels) := sum_cons
   rw [nameKey_cons_cons,length_append,length_cons,hs,ih (cons_ne_nil _ _)]
   omega

lemma nameKey_tail_lt {label : Bytes} (h : 0 < label.length) (labels : List Bytes) :
    (nameKey labels).length < (nameKey (label :: labels)).length := by
 cases labels with
 | nil => simpa [nameKey,intercalate] using h
 | cons next labels =>
  rw [nameKey_cons_cons,length_append,length_cons]
  omega

abbrev NameTable := List (Bytes × List Bytes)

/-- What is read of a name that is written where the names in the table are known, and the table after it. -/
def readBack (table : NameTable) : List Bytes → List Bytes × NameTable
  | [] => ([], table)
  | label :: labels =>
    match OrderedMap.get table (nameKey (label :: labels)) with
    | some known => (known, table)
    | none =>
      (label :: (readBack table labels).1,
        OrderedMap.set (readBack table labels).2 (nameKey (label :: labels)) (label :: (readBack table labels).1))

def Labels (labels : List Bytes) : Prop := ∀ label ∈ labels, 0 < label.length ∧ label.length ≤ maxLabelBytes

inductive RefAt (packet : Bytes) (bound : ℕ) : Option ℕ → Option (List Bytes) → Prop where
  | none : RefAt packet bound none none
  | some {offset start size : ℕ} {labels : List Bytes} (hlt : offset < bound) (hstart : start ≤ offset)
    (h : NameAt packet start offset size labels) : RefAt packet bound (some offset) (some labels)

lemma RefAt.mono {bound bound' : ℕ} {offset : Option ℕ} {labels : Option (List Bytes)}
    (h : RefAt packet bound offset labels) (hle : bound ≤ bound') : RefAt packet bound' offset labels := by
 cases h with
 | none => exact .none
 | some hlt hs hn => exact .some (lt_of_lt_of_le hlt hle) hs hn

lemma get_readBack_of_length (hl : Labels labels) {key : Bytes}
    (h : (nameKey labels).length < key.length) (table : NameTable) :
    get (readBack table labels).2 key = get table key := by
 induction labels with
 | nil => rfl
 | cons label labels ih =>
  rw [readBack]
  cases get table (nameKey (label :: labels)) with
  | some known => rfl
  | none =>
   have hne : nameKey (label :: labels) ≠ key := fun heq=>absurd h (by rw [heq]; exact lt_irrefl _)
   have ht:=nameKey_tail_lt (hl label mem_cons_self).1 labels
   rw [get_set,if_neg hne]
   exact ih (fun label hm=>hl label (mem_cons_of_mem _ hm)) (lt_trans ht h)

lemma NameAt.of_pointer {rest : Bytes} {start cursor before offset size : ℕ}
    (hf : Follows packet cursor (beBytes 2 (0xc000 ||| offset) ++ rest)) (hp : packet.length ≤ 0x4000)
    (hst : start ≤ cursor) (hlt : offset < start) (hbefore : before ≤ offset)
    (hn : NameAt packet before offset size labels) : NameAt packet start cursor 2 labels := by
 have hl:=hf.length_le
 have hor : 0xc000 ||| offset = 0xc000+offset := (two_pow_add_eq_or_of_lt (i := 14) (by omega) 3).symm
 rw [hor] at hf
 have hh : ofNat ((0xc000+offset)/256^1) = ofNat (0xc0+offset/0x100) := congrArg ofNat (by omega)
 have hlow : ofNat ((0xc000+offset)/256^0) = ofNat offset := by
  apply UInt8.toNat_inj.mp
  simp only [UInt8.toNat_ofNat']
  omega
 have hs:=tail hf
 exact .jump hlt (by omega) hbefore (hh ▸ hf.byteAt) (hlow ▸ hs.byteAt) hn

lemma Follows.label {label value rest : Bytes} {cursor : ℕ}
    (h : Follows packet cursor (beBytes 1 label.length ++ label ++ value ++ rest)) :
    Pkarr.byteAt packet cursor = .ok (ofNat label.length) ∧
      Pkarr.slice packet (cursor + 1) (cursor + 1 + label.length) = .ok label ∧
      Follows packet (cursor + 1 + label.length) (value ++ rest) := by
 have hb : Follows packet cursor (ofNat label.length :: (label ++ (value ++ rest))) := by
  simpa [beBytes] using h
 have hlabel : Follows packet (cursor+1) (label ++ (value ++ rest)) := hb.tail
 exact ⟨hb.byteAt,hlabel.slice rfl,hlabel.skip⟩

def RefsUpTo (packet : Bytes) (bound length : ℕ) (refs : List (Bytes × ℕ)) (table : NameTable) : Prop :=
  ∀ key : Bytes, key.length ≤ length → RefAt packet bound (OrderedMap.get refs key) (OrderedMap.get table key)

namespace RefsUpTo

variable {packet : Bytes} {bound length : ℕ} {refs : List (Bytes × ℕ)} {table : NameTable}

section
variable (h : RefsUpTo packet bound length refs table)
include h

lemma mono {bound' : ℕ} (hle : bound ≤ bound') : RefsUpTo packet bound' length refs table :=
 fun key hk=>(h key hk).mono hle

lemma get_none {key : Bytes} (hk : key.length ≤ length) (hg : get refs key = none) : get table key = none := by
 have hr:=h key hk
 rw [hg] at hr
 generalize get table key = known at hr
 cases hr
 rfl

lemma of_set {key : Bytes} {shorter : ℕ} (hs : shorter ≤ length)
    (hk : shorter < key.length) (offset : ℕ) : RefsUpTo packet bound shorter (set refs key offset) table := by
 intro other ho
 have hne : key ≠ other := fun heq=>absurd hk (heq ▸ Nat.not_lt_of_le ho)
 rw [get_set,if_neg hne]
 exact h other (le_trans ho hs)

end

end RefsUpTo

/-- What `writeLabels` appends is a name, by the names that were written before. -/
structure NameWritten (labels : List Bytes) (w w' : Writer) (value : Bytes) : Prop where
  bytes : w'.bytes = w.bytes ++ value
  longer : ∀ key : Bytes, (nameKey labels).length < key.length → OrderedMap.get w'.refs key = OrderedMap.get w.refs key
  name : ∀ {packet rest : Bytes} {start : ℕ} {table : NameTable}, packet.length ≤ 0x4000 →
    Follows packet w.bytes.length (value ++ rest) → start ≤ w.bytes.length →
    RefsUpTo packet start (nameKey labels).length w.refs table →
    NameAt packet start w.bytes.length value.length (readBack table labels).1 ∧
      RefsUpTo packet w'.bytes.length (nameKey labels).length w'.refs (readBack table labels).2

lemma nameWritten_pointer {label : Bytes} {w : Writer} {offset : ℕ}
    (hg : get w.refs (nameKey (label :: labels)) = some offset) :
    NameWritten (label :: labels) w (w.write (beBytes 2 (0xc000 ||| offset))) (beBytes 2 (0xc000 ||| offset)) := by
 refine ⟨rfl,fun _ _=>rfl,fun {packet rest start table} hp hf hs hr=>?_⟩
 have hb : ∃ known, get table (nameKey (label :: labels)) = some known ∧
   NameAt packet start w.bytes.length 2 known := by
  have hre:=hr _ le_rfl
  rw [hg] at hre
  generalize get table (nameKey (label :: labels)) = known at hre
  cases hre with
  | some hlt hbefore hn => exact ⟨_,rfl,.of_pointer hf hp hs hlt hbefore hn⟩
 obtain ⟨known,hk,hn⟩:=hb
 rw [readBack,hk]
 exact ⟨hn,hr.mono (le_trans hs (by simp [write]))⟩

variable {w w' : Writer}

lemma NameWritten.cons {label value : Bytes} (hla : Labels (label :: labels))
    (hg : get w.refs (nameKey (label :: labels)) = none)
    (h : NameWritten labels ⟨w.bytes ++ beBytes 1 label.length ++ label,
      set w.refs (nameKey (label :: labels)) w.bytes.length⟩ w' value) :
    NameWritten (label :: labels) w w' (beBytes 1 label.length ++ label ++ value) := by
 obtain ⟨hpo,hmax⟩:=hla label mem_cons_self
 have ht:=nameKey_tail_lt hpo labels
 have hb : w'.bytes = w.bytes ++ (beBytes 1 label.length ++ label ++ value) := by
  rw [h.bytes]
  simp only [append_assoc]
 have hl : ∀ key : Bytes, (nameKey labels).length < key.length → get w'.refs key =
   if nameKey (label :: labels) = key then some w.bytes.length else get w.refs key := by
  intro key hk
  rw [h.longer key hk,get_set]
 refine ⟨hb,fun key hk=>?_,fun {packet rest start table} hp hf hst hr=>?_⟩
 · have hne : nameKey (label :: labels) ≠ key := fun heq=>absurd hk (by rw [heq]; exact lt_irrefl _)
   rw [hl key (lt_trans ht hk),if_neg hne]
 obtain ⟨hby,hlabel,hrest⟩:=hf.label
 have ho : (w.bytes ++ beBytes 1 label.length ++ label).length = w.bytes.length+1+label.length := by
  rw [length_append,length_append,beBytes_length]
 have hs' : start ≤ (w.bytes ++ beBytes 1 label.length ++ label).length := by
  rw [ho]
  omega
 have he : w.bytes.length ≤ w'.bytes.length := by
  rw [hb,length_append]
  exact le_add_right _ _
 obtain ⟨hna,ha⟩:=h.name hp (ho.symm ▸ hrest) hs' (hr.of_set (le_of_lt ht) ht _)
 have hn : NameAt packet start w.bytes.length (beBytes 1 label.length ++ label ++ value).length
   (label :: (readBack table labels).1) := by
  rw [length_append,length_append,beBytes_length]
  exact .cons hpo hmax hby hlabel (ho ▸ hna)
 rw [readBack,hr.get_none le_rfl hg]
 refine ⟨hn,fun key hk=>?_⟩
 rw [get_set]
 -- The key of this name, a key of a name after the label, or one that neither has.
 by_cases heq : nameKey (label :: labels) = key
 · rw [if_pos heq,hl key (heq ▸ ht),if_pos heq]
   refine .some ?_ hst hn
   rw [hb,length_append,length_append,length_append,beBytes_length]
   omega
 · rw [if_neg heq]
   by_cases hs : key.length ≤ (nameKey labels).length
   · exact ha key hs
   · have hlo:=Nat.lt_of_not_le hs
     have hta : Labels labels := fun label hm=>hla label (mem_cons_of_mem _ hm)
     rw [hl key hlo,if_neg heq,get_readBack_of_length hta hlo]
     exact (hr key hk).mono (le_trans hst he)

lemma writeLabels_spec (hl : Labels labels) (h : writeLabels labels w = .ok w') :
    ∃ value, NameWritten labels w w' value := by
 induction labels generalizing w with
 | nil =>
  obtain ⟨_,rfl⟩:=u8_eq_ok.mp h
  refine ⟨[0],rfl,fun _ _=>rfl,fun {packet rest start table} _ hf hst hr=>⟨?_,?_⟩⟩
  · exact .nil hf.byteAt
  · exact hr.mono (le_trans hst (by simp [write]))
 | cons label labels ih =>
  rw [writeLabels] at h
  cases hg : get w.refs (nameKey (label :: labels)) with
  | some offset =>
   rw [hg] at h
   obtain ⟨_,rfl⟩:=u16_eq_ok.mp h
   exact ⟨_,nameWritten_pointer hg⟩
  | none =>
   rw [hg] at h
   obtain ⟨sized,hs,hrest⟩:=bind_eq_ok.mp h
   obtain ⟨_,rfl⟩:=u8_eq_ok.mp hs
   obtain ⟨value,hw⟩:=ih (fun label hm=>hl label (mem_cons_of_mem _ hm)) hrest
   exact ⟨_,hw.cons hl hg⟩

def Keyed (table : NameTable) : Prop :=
  ∀ key labels, OrderedMap.get table key = some labels → nameKey labels = key ∧ labels ≠ []

lemma nameKey_cons (label : Bytes) (h : labels ≠ []) : nameKey (label :: labels) = label ++ 0 :: nameKey labels := by
 cases labels with
 | nil => exact absurd rfl h
 | cons next labels => exact nameKey_cons_cons label next labels

variable {table : NameTable}

lemma Keyed.readBack (h : Keyed table) (labels : List Bytes) :
    nameKey (readBack table labels).1 = nameKey labels ∧ ((readBack table labels).1 = [] ↔ labels = []) ∧
      Keyed (readBack table labels).2 := by
 induction labels with
 | nil => exact ⟨rfl,Iff.rfl,h⟩
 | cons label labels ih =>
  obtain ⟨hkey,hn,hke⟩:=ih
  rw [Pkarr.readBack]
  cases hg : get table (nameKey (label :: labels)) with
  | some known =>
   obtain ⟨hk,hne⟩:=h _ _ hg
   exact ⟨hk,⟨fun heq=>absurd heq hne,fun heq=>absurd heq (cons_ne_nil _ _)⟩,h⟩
  | none =>
   have hs : nameKey (label :: (Pkarr.readBack table labels).1) = nameKey (label :: labels) := by
    by_cases he : labels = []
    · rw [hn.mpr he,he]
    · rw [nameKey_cons label he,nameKey_cons label (mt hn.mp he),hkey]
   refine ⟨hs,⟨fun heq=>absurd heq (cons_ne_nil _ _),fun heq=>absurd heq (cons_ne_nil _ _)⟩,?_⟩
   intro key known hk
   rw [get_set] at hk
   split_ifs at hk with heq
   · cases hk
     exact ⟨hs.trans heq,cons_ne_nil _ _⟩
   · exact hke key known hk

lemma Keyed.nameLength (h : Keyed table) (labels : List Bytes) :
    nameLength (Pkarr.readBack table labels).1 = Pkarr.nameLength labels := by
 obtain ⟨hk,hn,_⟩:=h.readBack labels
 by_cases he : labels = []
 · rw [hn.mpr he,he]
 · rw [← nameKey_length he,← nameKey_length (mt hn.mp he),hk]

def labelsOf (name : Text) : List Text := (name.splitOn dot).filter fun label => label.length > 0

def wireLabels (name : Text) : List Bytes := (labelsOf name).map encodeUtf8

def joinLabels (labels : List Text) : Text := [dot].intercalate labels

lemma encodeUtf8_length_pos {s : Text} (h : 0 < s.length) : 0 < (encodeUtf8 s).length := by
 have hs : ∀ c rest, 0 < ((c :: rest).flatMap encodeScalar).length := by
  intro c rest
  rw [flatMap_cons,length_append,encodeScalar]
  split_ifs
  all_goals simp
 unfold encodeUtf8
 fun_cases scalars s with
 | case1 => exact absurd h (lt_irrefl 0)
 | case2 u | case3 u v rest _ | case4 u v rest _ => exact hs _ _

lemma nameLabels_eq_ok {name : Text} (h : nameLabels name = .ok labels) :
    labels = wireLabels name ∧ nameLength labels < maxNameBytes ∧ Labels labels := by
 obtain ⟨_,ht,hrest⟩:=bind_eq_ok.mp h
 obtain ⟨_,hl,hla⟩:=bind_eq_ok.mp hrest
 cases hla
 rw [errorIf_eq_ok] at ht hl
 refine ⟨rfl,Nat.lt_of_not_le fun hle=>ht (Nat.lt_succ_of_le hle),fun label hm=>⟨?_,?_⟩⟩
 · obtain ⟨piece,hp,rfl⟩:=mem_map.mp hm
   exact encodeUtf8_length_pos (of_decide_eq_true (mem_filter.mp hp).2)
 · refine Nat.le_of_not_lt fun hlt=>hl (any_eq_true.mpr ⟨label,hm,decide_eq_true hlt⟩)

def RefsAt (packet : Bytes) (bound : ℕ) (refs : List (Bytes × ℕ)) (table : NameTable) : Prop :=
  ∀ key, RefAt packet bound (OrderedMap.get refs key) (OrderedMap.get table key)

lemma RefsAt.mono {bound bound' : ℕ} {refs : List (Bytes × ℕ)}
    (h : RefsAt packet bound refs table) (hle : bound ≤ bound') : RefsAt packet bound' refs table :=
 fun key=>(h key).mono hle

def readText (table : NameTable) (name : Text) : Text :=
  joinLabels ((readBack table (wireLabels name)).1.map decodeUtf8)

lemma writeCompressedName_spec {name : Text} (h : writeCompressedName name w = .ok w') :
    ∃ value, w'.bytes = w.bytes ++ value ∧ ∀ {packet rest : Bytes} {table : NameTable}, packet.length ≤ 0x4000 →
      Follows packet w.bytes.length (value ++ rest) → Keyed table → RefsAt packet w.bytes.length w.refs table →
      readName packet w.bytes.length = .ok (readText table name, w'.bytes.length) ∧
        RefsAt packet w'.bytes.length w'.refs (readBack table (wireLabels name)).2 := by
 obtain ⟨labels,hla,hwr⟩:=bind_eq_ok.mp h
 obtain ⟨rfl,hmax,hv⟩:=nameLabels_eq_ok hla
 obtain ⟨value,hw⟩:=writeLabels_spec hv hwr
 refine ⟨value,hw.bytes,fun {packet rest table} hp hf hk hr=>?_⟩
 obtain ⟨hn,ha⟩:=hw.name hp hf le_rfl fun key _=>hr key
 have hle:=hf.length_le
 have he : w'.bytes.length = w.bytes.length+value.length := by rw [hw.bytes,length_append]
 refine ⟨?_,fun key=>?_⟩
 · rw [hn.readName (by rw [hk.nameLength]; exact hmax) (by omega),he]
   rfl
 · by_cases hs : key.length ≤ (nameKey (wireLabels name)).length
   · exact ha key hs
   · have hl:=Nat.lt_of_not_le hs
     rw [hw.longer key hl,get_readBack_of_length hv hl]
     exact (hr key).mono (by omega)

/-! ### Names without pointers -/

def chunk (value : Bytes) : Bytes := beBytes 1 value.length ++ value

lemma Writer.chunks_eq_ok {values : List Bytes} (h : w.chunks values = .ok w') :
    w' = w.write (values.flatMap chunk) ∧ ∀ value ∈ values, value.length ≤ 0xff := by
 induction values generalizing w with
 | nil =>
  cases h
  exact ⟨by simp [write],nofun⟩
 | cons value values ih =>
  obtain ⟨sized,hs,hrest⟩:=bind_eq_ok.mp h
  obtain ⟨hmax,rfl⟩:=u8_eq_ok.mp hs
  obtain ⟨rfl,hv⟩:=ih hrest
  refine ⟨?_,fun other ho=>?_⟩
  · simp [write,chunk]
  · rcases mem_cons.mp ho with rfl|hm
    · exact hmax
    · exact hv other hm

lemma NameAt.of_chunks {rest : Bytes} (start : ℕ) {cursor : ℕ} (hl : Labels labels)
    (h : Follows packet cursor (labels.flatMap chunk ++ 0 :: rest)) :
    NameAt packet start cursor ((labels.flatMap chunk).length + 1) labels := by
 induction labels generalizing cursor with
 | nil => exact .nil h.byteAt
 | cons label labels ih =>
  obtain ⟨hp,hmax⟩:=hl label mem_cons_self
  have hlabel : Follows packet cursor (beBytes 1 label.length ++ label ++ labels.flatMap chunk ++ 0 :: rest) := by
   simpa [chunk] using h
  obtain ⟨hb,hs,hrest⟩:=hlabel.label
  have hn:=ih (fun label hm=>hl label (mem_cons_of_mem _ hm)) hrest
  have hsi : ((label :: labels).flatMap chunk).length+1 = 1+label.length+((labels.flatMap chunk).length+1) := by
   rw [flatMap_cons,length_append,chunk,length_append,beBytes_length]
   omega
  rw [hsi]
  exact .cons hp hmax hb hs hn

lemma writeName_spec {name : Text} (h : writeName name w = .ok w') :
    w'.refs = w.refs ∧ ∃ value, w'.bytes = w.bytes ++ value ∧ ∀ {packet rest : Bytes}, packet.length ≤ 0x4000 →
      Follows packet w.bytes.length (value ++ rest) →
      readName packet w.bytes.length = .ok (joinLabels ((wireLabels name).map decodeUtf8), w'.bytes.length) := by
 obtain ⟨labels,hl,hw⟩:=bind_eq_ok.mp h
 obtain ⟨rfl,hmax,hv⟩:=nameLabels_eq_ok hl
 obtain ⟨chunked,hc,hz⟩:=bind_eq_ok.mp hw
 obtain ⟨rfl,_⟩:=chunks_eq_ok hc
 obtain ⟨_,rfl⟩:=u8_eq_ok.mp hz
 have hb : w.bytes ++ (wireLabels name).flatMap chunk ++ beBytes 1 0 =
  w.bytes ++ ((wireLabels name).flatMap chunk ++ [0]) := append_assoc _ _ _
 refine ⟨rfl,_,hb,fun {packet rest} hp hf=>?_⟩
 have hle:=hf.length_le
 rw [append_assoc] at hf
 have hn:=NameAt.of_chunks w.bytes.length hv hf
 rw [hn.readName hmax (by omega)]
 exact congrArg (fun n=>Except.ok (_,n)) (by simp [write,beBytes])

end Enlace.Pkarr
