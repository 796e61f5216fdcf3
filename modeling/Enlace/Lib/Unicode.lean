import Enlace.Lib.ByteString

set_option autoImplicit false

/-! Strings of UTF-16 code units, their encoding in UTF-8, and a decoder that replaces what is not UTF-8. -/
namespace Unicode
open ByteString List UInt16

abbrev Text := List UInt16

def replacement : ℕ := 0xfffd

def byteOrderMark : UInt16 := 0xfeff

def IsHigh (u : UInt16) : Prop := 0xd800 ≤ u.toNat ∧ u.toNat < 0xdc00

def IsLow (u : UInt16) : Prop := 0xdc00 ≤ u.toNat ∧ u.toNat < 0xe000

instance decidableIsHigh (u : UInt16) : Decidable (IsHigh u) := inferInstanceAs (Decidable (_ ∧ _))

instance decidableIsLow (u : UInt16) : Decidable (IsLow u) := inferInstanceAs (Decidable (_ ∧ _))

def single (u : UInt16) : ℕ := if IsHigh u ∨ IsLow u then replacement else u.toNat

/-- The code points of a string. A surrogate without its partner is replaced. -/
def scalars : Text → List ℕ
  | [] => []
  | [u] => [single u]
  | u :: v :: rest =>
    if IsHigh u ∧ IsLow v then (0x10000 + (u.toNat - 0xd800)*0x400 + (v.toNat - 0xdc00)) :: scalars rest
    else single u :: scalars (v :: rest)

def units (c : ℕ) : Text :=
  if c < 0x10000 then [UInt16.ofNat c]
  else [UInt16.ofNat (0xd800 + (c - 0x10000)/0x400), UInt16.ofNat (0xdc00 + (c - 0x10000) % 0x400)]

def toWellFormed (s : Text) : Text := (scalars s).flatMap units

def WellFormed (s : Text) : Prop := toWellFormed s = s

def encodeScalar (c : ℕ) : Bytes :=
  if c < 0x80 then [UInt8.ofNat c]
  else if c < 0x800 then [UInt8.ofNat (0xc0 + c/0x40), UInt8.ofNat (0x80 + c % 0x40)]
  else if c < 0x10000 then
    [UInt8.ofNat (0xe0 + c/0x1000), UInt8.ofNat (0x80 + c/0x40 % 0x40), UInt8.ofNat (0x80 + c % 0x40)]
  else
    [UInt8.ofNat (0xf0 + c/0x40000), UInt8.ofNat (0x80 + c/0x1000 % 0x40), UInt8.ofNat (0x80 + c/0x40 % 0x40),
      UInt8.ofNat (0x80 + c % 0x40)]

def encodeUtf8 (s : Text) : Bytes := (scalars s).flatMap encodeScalar

/-- A code point of which some bytes are missing, with the bounds of the next one. -/
structure Pending where
  needed : ℕ
  value : ℕ
  lower : ℕ
  upper : ℕ

def lead (b : ℕ) : ℕ ⊕ Pending :=
  if b < 0x80 then .inl b
  else if 0xc2 ≤ b ∧ b < 0xe0 then .inr ⟨0, b - 0xc0, 0x80, 0xbf⟩
  else if 0xe0 ≤ b ∧ b < 0xf0 then
    .inr ⟨1, b - 0xe0, if b = 0xe0 then 0xa0 else 0x80, if b = 0xed then 0x9f else 0xbf⟩
  else if 0xf0 ≤ b ∧ b < 0xf5 then
    .inr ⟨2, b - 0xf0, if b = 0xf0 then 0x90 else 0x80, if b = 0xf4 then 0x8f else 0xbf⟩
  else .inl replacement

def decodeFrom : Option Pending → Bytes → List ℕ
  | none, [] => []
  | some _, [] => [replacement]
  | none, b :: bytes =>
    match lead b.toNat with
    | .inl c => c :: decodeFrom none bytes
    | .inr p => decodeFrom (some p) bytes
  | some p, b :: bytes =>
    if p.lower ≤ b.toNat ∧ b.toNat ≤ p.upper then
      match p.needed with
      | 0 => (p.value*0x40 + (b.toNat - 0x80)) :: decodeFrom none bytes
      | needed + 1 => decodeFrom (some ⟨needed, p.value*0x40 + (b.toNat - 0x80), 0x80, 0xbf⟩) bytes
    else
      -- The byte that does not fit starts the next code point.
      match lead b.toNat with
      | .inl c => replacement :: c :: decodeFrom none bytes
      | .inr p => replacement :: decodeFrom (some p) bytes

def dropByteOrderMark : List ℕ → List ℕ
  | [] => []
  | c :: rest => if c = byteOrderMark.toNat then rest else c :: rest

def decodeUtf8 (bytes : Bytes) : Text := (dropByteOrderMark (decodeFrom none bytes)).flatMap units

def IsScalar (c : ℕ) : Prop := c < 0xd800 ∨ 0xe000 ≤ c ∧ c < 0x110000

lemma isScalar_single (u : UInt16) : IsScalar (single u) := by
 have hu:=u.toNat_lt
 unfold single
 split_ifs with h
 · unfold IsScalar replacement
   omega
 · simp only [IsHigh,IsLow] at h
   unfold IsScalar
   omega

variable {s : Text} {c : ℕ}

lemma isScalar_of_mem_scalars (h : c ∈ scalars s) : IsScalar c := by
 fun_induction scalars s with
 | case1 => cases h
 | case2 u =>
  rw [mem_singleton.mp h]
  exact isScalar_single u
 | case3 u v rest hp ih =>
  rcases mem_cons.mp h with heq|hrest
  · obtain ⟨⟨_,_⟩,_,_⟩:=hp
    rw [IsScalar]
    omega
  · exact ih hrest
 | case4 u v rest _ ih =>
  rcases mem_cons.mp h with rfl|hrest
  · exact isScalar_single u
  · exact ih hrest

variable {b lower upper : ℕ} {cs : List ℕ} {d u : UInt16}

lemma decodeFrom_more {needed value : ℕ} (hb : b < 0x100) (h : lower ≤ b ∧ b ≤ upper) (bytes : Bytes) :
    decodeFrom (some ⟨needed + 1, value, lower, upper⟩) (UInt8.ofNat b :: bytes) =
      decodeFrom (some ⟨needed, value*0x40 + (b - 0x80), 0x80, 0xbf⟩) bytes := by
 have hby : (UInt8.ofNat b).toNat = b := UInt8.toNat_ofNat_of_lt' hb
 rw [decodeFrom,hby]
 simp only [if_pos h]

lemma decodeFrom_last {value : ℕ} (hb : b < 0x100) (h : lower ≤ b ∧ b ≤ upper) (bytes : Bytes) :
    decodeFrom (some ⟨0, value, lower, upper⟩) (UInt8.ofNat b :: bytes) =
      (value*0x40 + (b - 0x80)) :: decodeFrom none bytes := by
 have hby : (UInt8.ofNat b).toNat = b := UInt8.toNat_ofNat_of_lt' hb
 rw [decodeFrom,hby]
 simp only [if_pos h]

lemma decodeFrom_lead (hb : b < 0x100) {p : Pending} (h : lead b = .inr p) (bytes : Bytes) :
    decodeFrom none (UInt8.ofNat b :: bytes) = decodeFrom (some p) bytes := by
 have hby : (UInt8.ofNat b).toNat = b := UInt8.toNat_ofNat_of_lt' hb
 rw [decodeFrom,hby,h]

lemma decodeFrom_encodeScalar (hc : IsScalar c) (bytes : Bytes) :
    decodeFrom none (encodeScalar c ++ bytes) = c :: decodeFrom none bytes := by
 unfold IsScalar at hc
 unfold encodeScalar
 split_ifs with h1 h2 h3
 · have hb : (UInt8.ofNat c).toNat = c := UInt8.toNat_ofNat_of_lt' (show c < 0x100 by omega)
   simp only [singleton_append]
   rw [decodeFrom,hb,lead,if_pos h1]
 · have hl : lead (0xc0+c/0x40) = .inr ⟨0,c/0x40,0x80,0xbf⟩ := by
    rw [lead,if_neg (by omega),if_pos (by omega),Nat.add_sub_cancel_left]
   simp only [cons_append,nil_append]
   rw [decodeFrom_lead (by omega) hl,decodeFrom_last (by omega) (by omega)]
   exact congrArg (· :: decodeFrom none bytes) (by omega)
 · have hl : lead (0xe0+c/0x1000) = .inr ⟨1,c/0x1000,if 0xe0+c/0x1000 = 0xe0 then 0xa0 else 0x80,
     if 0xe0+c/0x1000 = 0xed then 0x9f else 0xbf⟩ := by
    rw [lead,if_neg (by omega),if_neg (by omega),if_pos (by omega),Nat.add_sub_cancel_left]
   have hs : (if 0xe0+c/0x1000 = 0xe0 then 0xa0 else 0x80) ≤ 0x80+c/0x40 % 0x40 ∧
     0x80+c/0x40 % 0x40 ≤ (if 0xe0+c/0x1000 = 0xed then 0x9f else 0xbf) := by
    split_ifs
    all_goals omega
   simp only [cons_append,nil_append]
   rw [decodeFrom_lead (by omega) hl,decodeFrom_more (by omega) hs,decodeFrom_last (by omega) (by omega)]
   exact congrArg (· :: decodeFrom none bytes) (by omega)
 · have hl : lead (0xf0+c/0x40000) = .inr ⟨2,c/0x40000,if 0xf0+c/0x40000 = 0xf0 then 0x90 else 0x80,
     if 0xf0+c/0x40000 = 0xf4 then 0x8f else 0xbf⟩ := by
    rw [lead,if_neg (by omega),if_neg (by omega),if_neg (by omega),if_pos (by omega),Nat.add_sub_cancel_left]
   have hs : (if 0xf0+c/0x40000 = 0xf0 then 0x90 else 0x80) ≤ 0x80+c/0x1000 % 0x40 ∧
     0x80+c/0x1000 % 0x40 ≤ (if 0xf0+c/0x40000 = 0xf4 then 0x8f else 0xbf) := by
    split_ifs
    all_goals omega
   simp only [cons_append,nil_append]
   rw [decodeFrom_lead (by omega) hl,decodeFrom_more (by omega) hs,decodeFrom_more (by omega) (by omega),
    decodeFrom_last (by omega) (by omega)]
   exact congrArg (· :: decodeFrom none bytes) (by omega)

lemma decodeFrom_flatMap (h : ∀ c ∈ cs, IsScalar c) : decodeFrom none (cs.flatMap encodeScalar) = cs := by
 induction cs with
 | nil => rfl
 | cons c cs ih =>
  rw [flatMap_cons,decodeFrom_encodeScalar (h c mem_cons_self),ih fun c hc=>h c (mem_cons_of_mem _ hc)]

lemma decodeUtf8_encodeUtf8 (s : Text) : decodeUtf8 (encodeUtf8 s) = (dropByteOrderMark (scalars s)).flatMap units := by
 rw [decodeUtf8,encodeUtf8,decodeFrom_flatMap fun _=>isScalar_of_mem_scalars]

lemma single_ne_byteOrderMark (h : u ≠ byteOrderMark) : single u ≠ byteOrderMark.toNat := by
 have hm : byteOrderMark.toNat = 0xfeff := rfl
 unfold single
 split_ifs
 · unfold replacement
   omega
 · exact fun heq=>h (UInt16.toNat_inj.mp heq)

lemma decodeUtf8_of_head (h : s.head? ≠ some byteOrderMark) : decodeUtf8 (encodeUtf8 s) = toWellFormed s := by
 have hk : dropByteOrderMark (scalars s) = scalars s := by
  fun_cases scalars s with
  | case1 => rfl
  | case2 u => exact if_neg (single_ne_byteOrderMark fun heq=>h (congrArg some heq))
  | case3 u v rest hp =>
   have hm : byteOrderMark.toNat = 0xfeff := rfl
   rw [dropByteOrderMark,if_neg (by omega)]
  | case4 u v rest _ => exact if_neg (single_ne_byteOrderMark fun heq=>h (congrArg some heq))
 rw [decodeUtf8_encodeUtf8,hk,toWellFormed]

lemma scalars_append_cons (hh : ¬ IsHigh d) (hlow : ¬ IsLow d) (s t : Text) :
    scalars (s ++ d :: t) = scalars s ++ d.toNat :: scalars t := by
 have hs : single d = d.toNat := if_neg (not_or.mpr ⟨hh,hlow⟩)
 have hst : scalars (d :: t) = d.toNat :: scalars t := by
  cases t with
  | nil => exact congrArg (fun c=>[c]) hs
  | cons v t => rw [scalars,if_neg fun hp=>hh hp.1,hs]
 fun_induction scalars s with
 | case1 => exact hst
 | case2 u =>
  simp only [singleton_append]
  rw [scalars,if_neg fun hp=>hlow hp.2,hst]
 | case3 u v rest hp ih =>
  simp only [cons_append]
  rw [scalars,if_pos hp,ih]
 | case4 u v rest hp ih =>
  simp only [cons_append] at ih ⊢
  rw [scalars,if_neg hp,ih]

lemma length_toWellFormed (s : Text) : (toWellFormed s).length = s.length := by
 have hs : ∀ u : UInt16, (units (single u)).length = 1 := by
  intro u
  have hu:=u.toNat_lt
  have hlt : single u < 0x10000 := by
   unfold single
   split_ifs
   · decide
   · omega
  rw [units,if_pos hlt]
  rfl
 unfold toWellFormed
 fun_induction scalars s with
 | case1 => rfl
 | case2 u => simp [hs]
 | case3 u v rest hp ih =>
  rw [flatMap_cons,length_append,ih,units,if_neg (by omega)]
  simp
  omega
 | case4 u v rest _ ih =>
  rw [flatMap_cons,length_append,ih,hs]
  simp
  omega

lemma toWellFormed_append_cons (hh : ¬ IsHigh d) (hlow : ¬ IsLow d) (s t : Text) :
    toWellFormed (s ++ d :: t) = toWellFormed s ++ d :: toWellFormed t := by
 have hd : units d.toNat = [d] := by
  rw [units,if_pos d.toNat_lt,UInt16.ofNat_toNat]
 rw [toWellFormed,scalars_append_cons hh hlow,flatMap_append,flatMap_cons,hd]
 rfl

lemma wellFormed_append_cons (hh : ¬ IsHigh d) (hlow : ¬ IsLow d) {t : Text} :
    WellFormed (s ++ d :: t) ↔ WellFormed s ∧ WellFormed t := by
 unfold WellFormed
 rw [toWellFormed_append_cons hh hlow]
 constructor
 · intro h
   obtain ⟨hs,ht⟩:=append_inj h (length_toWellFormed s)
   exact ⟨hs,(cons.inj ht).2⟩
 · rintro ⟨hs,ht⟩
   rw [hs,ht]

/-! ### What a decoder leaves -/

lemma scalars_cons (hh : ¬ IsHigh u) (hlow : ¬ IsLow u) (s : Text) : scalars (u :: s) = u.toNat :: scalars s :=
 scalars_append_cons hh hlow [] s

lemma scalars_units (h : IsScalar c) (s : Text) : scalars (units c ++ s) = c :: scalars s := by
 unfold IsScalar at h
 unfold units
 split_ifs with hs
 · have hn : (ofNat c).toNat = c := toNat_ofNat_of_lt' (show c < 0x10000 from hs)
   have hh : ¬ IsHigh (ofNat c) := by
    unfold IsHigh
    omega
   have hlow : ¬ IsLow (ofNat c) := by
    unfold IsLow
    omega
   rw [singleton_append,scalars_cons hh hlow,hn]
 · have hf : (ofNat (0xd800+(c - 0x10000)/0x400)).toNat = 0xd800+(c - 0x10000)/0x400 :=
    toNat_ofNat_of_lt' (show _ < 0x10000 by omega)
   have hse : (ofNat (0xdc00+(c - 0x10000) % 0x400)).toNat = 0xdc00+(c - 0x10000) % 0x400 :=
    toNat_ofNat_of_lt' (show _ < 0x10000 by omega)
   have hp : IsHigh (ofNat (0xd800+(c - 0x10000)/0x400)) ∧ IsLow (ofNat (0xdc00+(c - 0x10000) % 0x400)) := by
    unfold IsHigh IsLow
    omega
   rw [cons_append,singleton_append,scalars,if_pos hp]
   exact congrArg (· :: scalars s) (by omega)

lemma scalars_flatMap_units (h : ∀ c ∈ cs, IsScalar c) : scalars (cs.flatMap units) = cs := by
 induction cs with
 | nil => rfl
 | cons c cs ih =>
  rw [flatMap_cons,scalars_units (h c mem_cons_self),ih fun d hd=>h d (mem_cons_of_mem _ hd)]

lemma dropByteOrderMark_subset (h : c ∈ dropByteOrderMark cs) : c ∈ cs := by
 cases cs with
 | nil => exact h
 | cons d cs =>
  rw [dropByteOrderMark] at h
  split_ifs at h
  · exact mem_cons_of_mem _ h
  · exact h

/-- What is decoded is encoded again as it was, or without the byte order mark that it began with. -/
theorem encodeUtf8_decodeUtf8 (s : Text) : encodeUtf8 (decodeUtf8 (encodeUtf8 s)) = encodeUtf8 s ∨
      (encodeUtf8 (decodeUtf8 (encodeUtf8 s))).length < (encodeUtf8 s).length := by
 have hb : encodeUtf8 (decodeUtf8 (encodeUtf8 s)) = (dropByteOrderMark (scalars s)).flatMap encodeScalar := by
  rw [decodeUtf8_encodeUtf8,encodeUtf8,scalars_flatMap_units]
  exact fun c hc=>isScalar_of_mem_scalars (dropByteOrderMark_subset hc)
 rw [hb,encodeUtf8]
 cases scalars s with
 | nil => exact .inl rfl
 | cons c cs =>
  rw [dropByteOrderMark]
  split_ifs with hm
  · refine .inr ?_
    have hl : (encodeScalar c).length = 3 := by
     rw [hm]
     rfl
    rw [flatMap_cons,length_append]
    omega
  · exact .inl rfl

lemma mem_of_mem_scalars (hc : c < 0xd800) (h : c ∈ scalars s) : UInt16.ofNat c ∈ s := by
 have hs : ∀ u : UInt16, c = single u → ofNat c = u := by
  intro u heq
  unfold single replacement at heq
  split_ifs at heq
  · omega
  · rw [heq,UInt16.ofNat_toNat]
 fun_induction scalars s with
 | case1 => exact absurd h not_mem_nil
 | case2 u => exact mem_singleton.mpr (hs u (mem_singleton.mp h))
 | case3 u v rest hp ih =>
  rcases mem_cons.mp h with heq|hrest
  · omega
  · exact mem_cons_of_mem _ (mem_cons_of_mem _ (ih hrest))
 | case4 u v rest _ ih =>
  rcases mem_cons.mp h with heq|hrest
  · rw [hs u heq]
    exact mem_cons_self
  · exact mem_cons_of_mem _ (ih hrest)

/-- No code unit below the surrogates comes out of a decoder that did not go in. -/
theorem mem_of_mem_decodeUtf8 (hu : u.toNat < 0xd800) (h : u ∈ decodeUtf8 (encodeUtf8 s)) : u ∈ s := by
 rw [decodeUtf8_encodeUtf8] at h
 obtain ⟨c,hc,hun⟩:=mem_flatMap.mp h
 have hs:=dropByteOrderMark_subset hc
 have hsc:=isScalar_of_mem_scalars hs
 unfold IsScalar at hsc
 unfold units at hun
 split_ifs at hun with hsm
 · obtain rfl:=mem_singleton.mp hun
   rw [toNat_ofNat_of_lt' (show c < 0x10000 from hsm)] at hu
   exact mem_of_mem_scalars hu hs
 · have hf : (ofNat (0xd800+(c - 0x10000)/0x400)).toNat = 0xd800+(c - 0x10000)/0x400 :=
    toNat_ofNat_of_lt' (show _ < 0x10000 by omega)
   have hse : (ofNat (0xdc00+(c - 0x10000) % 0x400)).toNat = 0xdc00+(c - 0x10000) % 0x400 :=
    toNat_ofNat_of_lt' (show _ < 0x10000 by omega)
   rcases mem_cons.mp hun with rfl|hrest
   · omega
   · rw [mem_singleton.mp hrest] at hu
     omega

end Unicode
