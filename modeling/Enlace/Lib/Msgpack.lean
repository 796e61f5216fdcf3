import Enlace.Lib.WireFormat

set_option autoImplicit false

/-! The part of MessagePack that a derived serializer writes for records of integers, strings,
byte lists and options. Every integer, count and length takes the shortest of its forms. -/
namespace Msgpack
open ByteString WireFormat List Option Format UInt8 Format.Measures

/-- The forms of one kind of number: inline in the first byte, or in a big-endian field after a marker. -/
structure Sizes where
  base : ℕ
  room : ℕ
  wide : List (UInt8 × ℕ)
  inline_fits : base + room ≤ 256
  markers_nodup : (wide.map Prod.fst).Nodup
  markers_outside : ∀ p ∈ wide, ¬ (base ≤ p.1.toNat ∧ p.1.toNat < base + room)

def wideBytes (n : ℕ) : List (UInt8 × ℕ) → Option Bytes
  | [] => none
  | (m, w) :: ps => if n < 256^w then some (m :: beBytes w n) else wideBytes n ps

def readBe (w : ℕ) (bs : Bytes) : Option (ℕ × Bytes) :=
  if w ≤ bs.length then some (ofBeBytes (bs.take w), bs.drop w) else none

def readWide (x : UInt8) (xs : Bytes) : List (UInt8 × ℕ) → Option (ℕ × Bytes)
  | [] => none
  | (m, w) :: ps => if x = m then readBe w xs else readWide x xs ps

lemma readBe_beBytes (w n : ℕ) (h : n < 256^w) (rest : Bytes) : readBe w (beBytes w n ++ rest) = some (n, rest) := by
 rw [readBe,if_pos (by simp),take_left' (beBytes_length w n),drop_left' (beBytes_length w n),
  ofBeBytes_beBytes_of_lt w n h]

variable {ps : List (UInt8 × ℕ)} {b : Bytes} {n : ℕ}

lemma wideBytes_cons (h : wideBytes n ps = some b) : ∃ m w, (m, w) ∈ ps ∧ n < 256^w ∧ b = m :: beBytes w n := by
 induction ps with
 | nil => cases h
 | cons p ps ih =>
  obtain ⟨m,w⟩:=p
  simp only [wideBytes] at h
  split at h
  · rename_i hn
    exact ⟨m,w,by simp,hn,(some.inj h).symm⟩
  · obtain ⟨m',w',hm,hn,hb⟩:=ih h
    exact ⟨m',w',by simp [hm],hn,hb⟩

lemma readWide_mem (nodup : (ps.map Prod.fst).Nodup) {m : UInt8} {w : ℕ}
    (h : (m, w) ∈ ps) (xs : Bytes) : readWide m xs ps = readBe w xs := by
 induction ps with
 | nil => simp at h
 | cons p ps ih =>
  obtain ⟨m',w'⟩:=p
  simp only [map_cons,nodup_cons] at nodup
  simp only [readWide]
  rcases mem_cons.mp h with he|ht
  · cases he
    rw [if_pos rfl]
  · have hne : m ≠ m' := by
     intro he
     subst he
     exact nodup.1 (mem_map.mpr ⟨_,ht,rfl⟩)
    rw [if_neg hne]
    exact ih nodup.2 ht

def Sizes.encode (s : Sizes) (n : ℕ) : Option Bytes :=
  if n < s.room then some [UInt8.ofNat (s.base + n)] else wideBytes n s.wide

def Sizes.parse (s : Sizes) : Bytes → Option (ℕ × Bytes)
  | [] => none
  | x :: xs => if s.base ≤ x.toNat ∧ x.toNat < s.base + s.room then some (x.toNat - s.base, xs)
      else readWide x xs s.wide

lemma Sizes.parse_encode (s : Sizes) (h : s.encode n = some b) (rest : Bytes) :
    s.parse (b ++ rest) = some (n, rest) := by
 have hf:=s.inline_fits
 unfold Sizes.encode at h
 split at h
 · rename_i hn
   cases h
   have hx : (ofNat (s.base+n)).toNat = s.base+n := by
    simp only [toNat_ofNat']
    omega
   simp only [cons_append,nil_append,Sizes.parse,hx]
   rw [if_pos (by omega),Nat.add_sub_cancel_left]
 · obtain ⟨m,w,hm,hn,rfl⟩:=wideBytes_cons h
   simp only [cons_append,Sizes.parse]
   rw [if_neg (s.markers_outside _ hm),readWide_mem s.markers_nodup hm,readBe_beBytes w n hn]

/-- A natural number in its shortest form, or nothing when no form is wide enough. -/
def nat (s : Sizes) : Format ℕ := ⟨s.encode, s.parse, s.parse_encode⟩

def Sizes.Starts (s : Sizes) (x : UInt8) : Prop :=
  (s.base ≤ x.toNat ∧ x.toNat < s.base + s.room) ∨ x ∈ s.wide.map Prod.fst

instance (s : Sizes) (x : UInt8) : Decidable (s.Starts x) :=
  inferInstanceAs (Decidable (_ ∨ _))

lemma nat_starts (s : Sizes) (h : (nat s).encode n = some b) : ∃ x xs, b = x :: xs ∧ s.Starts x := by
 have hf:=s.inline_fits
 change (if n < s.room then some [ofNat (s.base+n)] else wideBytes n s.wide) = some b at h
 split at h
 · refine ⟨_,[],(some.inj h).symm,.inl ?_⟩
   simp only [toNat_ofNat']
   omega
 · obtain ⟨m,w,hm,_,rfl⟩:=wideBytes_cons h
   exact ⟨m,_,rfl,.inr (mem_map.mpr ⟨_,hm,rfl⟩)⟩

def uintSizes : Sizes := ⟨0x00, 128, [(0xcc, 1), (0xcd, 2), (0xce, 4), (0xcf, 8)], by decide, by decide, by decide⟩
def strSizes : Sizes := ⟨0xa0, 32, [(0xd9, 1), (0xda, 2), (0xdb, 4)], by decide, by decide, by decide⟩
def arraySizes : Sizes := ⟨0x90, 16, [(0xdc, 2), (0xdd, 4)], by decide, by decide, by decide⟩

def mapSizes : Sizes := ⟨0x80, 16, [(0xde, 2), (0xdf, 4)], by decide, by decide, by decide⟩

def u64 : Format UInt64 :=
  (nat uintSizes).imap UInt64.toNat (fun n => if n < 2^64 then some (UInt64.ofNat n) else none)
    (by intro v; rw [if_pos v.toNat_lt, UInt64.ofNat_toNat])

def u8 : Format UInt8 :=
  (nat uintSizes).imap UInt8.toNat (fun n => if n < 256 then some (UInt8.ofNat n) else none)
    (by intro v; rw [if_pos v.toNat_lt, UInt8.ofNat_toNat])

/-- A list of bytes is an array of integers, not a binary blob. -/
def bytes : Format Bytes := Format.list (nat arraySizes) u8

def block (n : ℕ) : Format (Block n) :=
  bytes.imap List.Vector.toList (toBlock n) toBlock_toList

def rawByte : Format UInt8 where
  encode b := some [b]
  parse bs := match bs with
    | [] => none
    | x :: xs => some (x, xs)
  parse_encode {a b} h rest := by
    cases h
    rfl

def str : Format Bytes := Format.list (nat strSizes) rawByte

def nil : UInt8 := 0xc0

def NotNil {α : Type} (f : Format α) : Prop :=
  ∀ {a b}, f.encode a = some b → b.head? ≠ some nil ∧ b ≠ []

variable {α : Type} {f : Format α} {a : α} {m : α → ℕ} {p : α → Prop} {s : Sizes}

lemma notNil_of_starts (hs : ¬ s.Starts nil)
    (h : ∀ {a b}, f.encode a = some b → ∃ x xs, b = x :: xs ∧ s.Starts x) : NotNil f := by
 intro a b hb
 obtain ⟨x,xs,rfl,hx⟩:=h hb
 refine ⟨?_,by simp⟩
 intro he
 rw [head?_cons,some.injEq] at he
 exact hs (he ▸ hx)

lemma notNil_u64 : NotNil u64 :=
 notNil_of_starts (s := uintSizes) (by decide) (fun h=>nat_starts _ h)

lemma notNil_list (hs : ¬ s.Starts nil) (f : Format α) : NotNil (Format.list (nat s) f) := by
 apply notNil_of_starts hs
 intro a b h
 obtain ⟨x,hx,hxy⟩:=bind_eq_some_iff.mp h
 obtain ⟨y,_,rfl⟩:=map_eq_some_iff.mp hxy
 obtain ⟨z,zs,rfl,hz⟩:=nat_starts s hx
 exact ⟨z,zs ++ y,rfl,hz⟩

lemma notNil_bytes : NotNil bytes := notNil_list (by decide) u8

lemma notNil_block (n : ℕ) : NotNil (block n) := fun h=>notNil_bytes h

def option {α : Type} (f : Format α) (h : NotNil f) : Format (Option α) :=
  f.orMarker nil h

def key (name : String) : Bytes := UInt8.ofNat (0xa0 + name.length) :: ascii name

def field {α : Type} (name : String) (f : Format α) : Format α :=
  ((Format.tag (key name)).pair f).imap (fun a => ((), a)) (fun p => some p.2) (fun _ => rfl)

def record {α : Type} (n : ℕ) (f : Format α) : Format α :=
  ((Format.tag [UInt8.ofNat (0x80 + n)]).pair f).imap (fun a => ((), a)) (fun p => some p.2)
    (fun _ => rfl)

lemma notNil_record (hn : n < 16) (f : Format α) : NotNil (record n f) := by
 apply notNil_of_starts (s := mapSizes) (by decide)
 intro a b h
 change ((some [ofNat (0x80+n)]).bind fun x=>(f.encode a).map (x ++ ·)) = some b at h
 obtain ⟨y,_,rfl⟩:=map_eq_some_iff.mp h
 refine ⟨_,y,rfl,.inl ?_⟩
 simp only [mapSizes,toNat_ofNat']
 omega

def array {α : Type} (f : Format α) : Format (List α) := Format.list (nat arraySizes) f

def map {α β : Type} (k : Format α) (v : Format β) : Format (List (α × β)) :=
  Format.list (nat mapSizes) (k.pair v)

def wideLen (n : ℕ) : List (UInt8 × ℕ) → ℕ
  | [] => 0
  | (_, w) :: ps => if n < 256^w then 1 + w else wideLen n ps

def natLen (s : Sizes) (n : ℕ) : ℕ := if n < s.room then 1 else wideLen n s.wide

lemma wideBytes_length (h : wideBytes n ps = some b) : b.length = wideLen n ps := by
 induction ps with
 | nil => cases h
 | cons p ps ih =>
  simp only [wideBytes] at h
  simp only [wideLen]
  split at h
  · rename_i hn
    rw [if_pos hn,← some.inj h,length_cons,beBytes_length,Nat.add_comm]
  · rename_i hn
    rw [if_neg hn,ih h]

lemma measures_nat (s : Sizes) : (nat s).Measures (natLen s) := by
 intro n b h
 change (if n < s.room then some [ofNat (s.base+n)] else wideBytes n s.wide) = some b at h
 unfold natLen
 split at h
 · rename_i hn
   rw [if_pos hn,← some.inj h]
   rfl
 · rename_i hn
   rw [if_neg hn,wideBytes_length h]

def u64Len (v : UInt64) : ℕ := natLen uintSizes v.toNat

def u8Len (b : UInt8) : ℕ := natLen uintSizes b.toNat

def bytesLen (bs : Bytes) : ℕ := natLen arraySizes bs.length + (bs.map u8Len).sum

lemma u8Len_pos (b : UInt8) : 1 ≤ u8Len b := by
 have hb:=b.toNat_lt
 change 1 ≤ if b.toNat < 128 then 1 else wideLen b.toNat uintSizes.wide
 split
 · exact le_refl 1
 · rw [uintSizes,wideLen,if_pos (by omega)]
   exact Nat.le_add_right 1 1

lemma length_le_bytesLen (bs : Bytes) : bs.length ≤ bytesLen bs := by
 have hs : bs.length ≤ (bs.map u8Len).sum := by
  induction bs with
  | nil => exact Nat.zero_le _
  | cons b bs ih =>
   have hb:=u8Len_pos b
   rw [length_cons,map_cons,sum_cons]
   omega
 rw [bytesLen]
 omega

lemma measures_u64 : u64.Measures u64Len := (measures_nat uintSizes).imap _

lemma measures_bytes : bytes.Measures bytesLen :=
 (measures_nat arraySizes).list ((measures_nat uintSizes).imap _)

lemma measures_block (n : ℕ) : (block n).Measures fun v => bytesLen v.toList :=
 measures_bytes.imap _

lemma measures_option (hf : f.Measures m) (h : NotNil f) : (option f h).Measures fun a => a.elim 1 m := orMarker hf h

lemma measures_field (name : String) (hf : f.Measures m) : (field name f).Measures fun a => (key name).length + m a :=
 (pair (measures_tag _) hf).imap _

lemma measures_record (n : ℕ) (hf : f.Measures m) : (record n f).Measures fun a => 1 + m a :=
 (pair (measures_tag _) hf).imap _

lemma field_isSome (name : String) (h : (f.encode a).isSome) : ((field name f).encode a).isSome :=
 pair_isSome (f := tag (key name)) (p := ((),a)) rfl h

lemma record_isSome (n : ℕ) (h : (f.encode a).isSome) : ((record n f).encode a).isSome :=
 pair_isSome (f := tag [ofNat (0x80+n)]) (p := ((),a)) rfl h

lemma u8_encode_isSome (b : UInt8) : (u8.encode b).isSome := by
 have hb:=b.toNat_lt
 change (if b.toNat < 128 then some [ofNat (0+b.toNat)] else wideBytes b.toNat uintSizes.wide).isSome
 split
 · rfl
 · rw [uintSizes,wideBytes,if_pos (by omega)]
   rfl

lemma bytes_encode_isSome {bs : Bytes} (h : bs.length < 2^32) : (bytes.encode bs).isSome := by
 have hc : ((nat arraySizes).encode bs.length).isSome := by
  change (if bs.length < 16 then some [ofNat (0x90+bs.length)] else wideBytes bs.length arraySizes.wide).isSome
  simp only [arraySizes,wideBytes]
  split
  · rfl
  · split
    · rfl
    · rw [if_pos (by omega)]
      rfl
 obtain ⟨x,hx⟩:=isSome_iff_exists.mp hc
 obtain ⟨y,hy⟩:=isSome_iff_exists.mp (encodeItems_isSome u8_encode_isSome bs)
 change (((nat arraySizes).encode bs.length).bind fun x=>
  (encodeItems u8 bs).map (x ++ ·)).isSome
 rw [hx,hy]
 rfl

lemma readWide_lt {x : UInt8} {xs : Bytes} {rest : Bytes}
    (h : readWide x xs ps = some (n, rest)) : ∃ p ∈ ps, n < 256^p.2 := by
 induction ps with
 | nil => cases h
 | cons p ps ih =>
  simp only [readWide] at h
  split at h
  · unfold readBe at h
    split at h
    · rename_i hl
      obtain ⟨rfl,_⟩:=Prod.mk.inj (some.inj h)
      refine ⟨p,mem_cons_self,(ofBeBytes_lt _).trans_eq ?_⟩
      rw [length_take,min_eq_left hl]
    · cases h
  · obtain ⟨q,hq,hlt⟩:=ih h
    exact ⟨q,mem_cons_of_mem _ hq,hlt⟩

lemma yields_nat (s : Sizes) {bound : ℕ} (hr : s.room ≤ bound)
    (hw : ∀ p ∈ s.wide, 256^p.2 ≤ bound) : (nat s).Yields (· < bound) := by
 intro bs n rest h
 change s.parse bs = some (n,rest) at h
 unfold Sizes.parse at h
 split at h
 · cases h
 · split at h
   · rename_i hin
     obtain ⟨rfl,_⟩:=Prod.mk.inj (some.inj h)
     omega
   · obtain ⟨p,hp,hlt⟩:=readWide_lt h
     exact hlt.trans_le (hw p hp)

lemma yields_array (hf : f.Yields p) : (array f).Yields fun as => as.length < 2^32 ∧ ∀ a ∈ as, p a :=
 (yields_nat arraySizes (by decide) (by decide)).list hf

lemma yields_bytes : bytes.Yields fun bs => bs.length < 2^32 :=
 fun _ _ _ h=>(yields_array u8.yields_true _ _ _ h).1

lemma yields_field (name : String) (hf : f.Yields p) : (field name f).Yields p :=
 ((yields_true _).pair hf).imap fun _ _ hb h=>some.inj hb ▸ h.2

lemma yields_record (n : ℕ) (hf : f.Yields p) : (record n f).Yields p :=
 ((yields_true _).pair hf).imap fun _ _ hb h=>some.inj hb ▸ h.2

end Msgpack
