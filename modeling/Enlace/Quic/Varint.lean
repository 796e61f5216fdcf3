import Enlace.Lib.ByteString
import Enlace.Lib.Fallible

set_option autoImplicit false

/-! `bytes.ts` and `varint.ts`: reads at an offset and variable-length integers. Numbers are natural;
a call returns its value or what it throws. -/
namespace Enlace.Quic
open ByteString Fallible List Nat

/-- The last is the rejection of a ciphertext by the cipher library. -/
inductive Thrown where
  | rangeError (message : String)
  | error (message : String)
  | cipher
  deriving DecidableEq

abbrev Outcome : Type → Type := Except Thrown

def throwRange {α : Type} (message : String) : Outcome α := .error (.rangeError message)

def throwIf (c : Prop) [Decidable c] (message : String) : Outcome Unit :=
  if c then throwRange message else .ok ()

variable {b : Bytes} {c : Prop} {message : String}

@[simp] lemma throwIf_eq_ok [Decidable c] {u : Unit} : throwIf c message = .ok u ↔ ¬ c := by
 by_cases h : c <;> simp [throwIf,throwRange,h]

lemma throwIf_neg [Decidable c] (h : ¬ c) : throwIf c message = .ok () := if_neg h

def maxSafeInteger : ℕ := 2^53 - 1

def maxQuicVarint : ℕ := 2^62 - 1

def readU8 (bytes : Bytes) (offset : ℕ) : Outcome UInt8 :=
  match bytes[offset]? with
  | some value => .ok value
  | none => throwRange "not enough bytes for u8"

def readU32BE (bytes : Bytes) (offset : ℕ) : Outcome ℕ :=
  match bytes[offset]?, bytes[offset + 1]?, bytes[offset + 2]?, bytes[offset + 3]? with
  | some b0, some b1, some b2, some b3 => .ok (ofBeBytes [b0, b1, b2, b3])
  | _, _, _, _ => throwRange "not enough bytes for u32"

def subarray (bytes : Bytes) (first last : ℕ) : Bytes := (bytes.drop first).take (last - first)

def encodeVarInt (n : ℕ) : Outcome Bytes :=
  if n > maxQuicVarint then throwRange "QUIC varint out of range"
  else if n < 2^6 then .ok (beBytes 1 n)
  else if n < 2^14 then .ok (beBytes 2 (n ||| 0x4000))
  else if n < 2^30 then .ok (beBytes 4 (n ||| 0x80000000))
  else .ok (beBytes 8 (n ||| 0xc000000000000000))

structure VarIntDecodeResult where
  value : ℕ
  bytesRead : ℕ
  deriving DecidableEq

def decodeVarInt (bytes : Bytes) (offset : ℕ) : Outcome VarIntDecodeResult := do
  let first ← readU8 bytes offset
  let length := 2^(first >>> 6).toNat
  throwIf (bytes.length < offset + length) "not enough bytes for QUIC varint"
  return ⟨ofBeBytes ((first &&& 0x3f) :: subarray bytes (offset + 1) (offset + length)), length⟩

def decodeVarIntNumber (bytes : Bytes) (offset : ℕ) : Outcome VarIntDecodeResult := do
  let decoded ← decodeVarInt bytes offset
  throwIf (decoded.value > maxSafeInteger) "QUIC varint exceeds safe integer range"
  return decoded

lemma decodeVarInt_within {bytes : Bytes} {offset : ℕ} {decoded : VarIntDecodeResult}
    (h : decodeVarInt bytes offset = .ok decoded) : offset + decoded.bytesRead ≤ bytes.length := by
 simp only [decodeVarInt,bind_eq_ok,throwIf_eq_ok,pure_eq_ok] at h
 obtain ⟨first,_,_,hl,rfl⟩:=h
 exact Nat.not_lt.mp hl

lemma decodeVarIntNumber_within {bytes : Bytes} {offset : ℕ} {decoded : VarIntDecodeResult}
    (h : decodeVarIntNumber bytes offset = .ok decoded) : offset + decoded.bytesRead ≤ bytes.length := by
 simp only [decodeVarIntNumber,bind_eq_ok,pure_eq_ok] at h
 obtain ⟨_,hr,_,_,rfl⟩:=h
 exact decodeVarInt_within hr

def varIntLength (n : ℕ) : ℕ := if n < 2^6 then 1 else if n < 2^14 then 2 else if n < 2^30 then 4 else 8

lemma getElem?_of_drop {bytes rest : Bytes} {offset : ℕ} {b : UInt8} (h : bytes.drop offset = b :: rest) :
    bytes[offset]? = some b := by
 have hh : (bytes.drop offset)[0]? = some b := by rw [h]; rfl
 rwa [getElem?_drop,add_zero] at hh

lemma readU8_of_drop {bytes rest : Bytes} {offset : ℕ} {b : UInt8} (h : bytes.drop offset = b :: rest) :
    readU8 bytes offset = .ok b := by
 rw [readU8,getElem?_of_drop h]

variable {bytes a rest : Bytes}

lemma length_of_drop {offset : ℕ} (h : bytes.drop offset = a ++ rest) (ha : a ≠ []) :
    bytes.length = offset + a.length + rest.length := by
 have hl:=congrArg length h
 have hp:=length_pos_iff.mpr ha
 rw [length_drop,length_append] at hl
 omega

variable {offset n : ℕ}

lemma drop_add_of_drop (h : bytes.drop offset = a ++ rest) (hn : a.length = n) : bytes.drop (offset + n) = rest := by
 rw [← drop_drop,h,drop_left' hn]

lemma subarray_of_drop (h : bytes.drop offset = a ++ rest)
    (hn : a.length = n) : subarray bytes offset (offset + n) = a := by
 rw [subarray,h,Nat.add_sub_cancel_left,take_left' hn]

lemma encodeVarInt_eq (hn : n ≤ maxQuicVarint) : ∃ p v, p < 4 ∧ 2^p = v + 1 ∧ v + 1 = varIntLength n ∧ n < 64*256^v ∧
      encodeVarInt n = .ok (beBytes (v + 1) (n + p*64*256^v)) := by
 have hmax : ¬ n > maxQuicVarint := by omega
 have hor : ∀ i p : ℕ, n < 2^i → n ||| 2^i*p = n+2^i*p := by
  intro i p hlt
  rw [Nat.or_comm,← Nat.two_pow_add_eq_or_of_lt hlt,Nat.add_comm]
 rw [encodeVarInt,varIntLength]
 split
 · exact ⟨0,0,by decide,rfl,rfl,by omega,rfl⟩
 · split
   · rename_i hlt
     exact ⟨1,1,by decide,rfl,rfl,by omega,congrArg (fun m=>(Except.ok (beBytes 2 m) : Outcome Bytes)) (hor 14 1 hlt)⟩
   · split
     · rename_i hlt
       exact ⟨2,3,by decide,rfl,rfl,by omega,
       congrArg (fun m=>(Except.ok (beBytes 4 m) : Outcome Bytes)) (hor 30 2 hlt)⟩
     · have hlt : n < 2^62 := by
        rw [maxQuicVarint] at hn
        omega
       exact ⟨3,7,by decide,rfl,rfl,by omega,
       congrArg (fun m=>(Except.ok (beBytes 8 m) : Outcome Bytes)) (hor 62 3 hlt)⟩

lemma encodeVarInt_of_le (hn : n ≤ maxQuicVarint) : ∃ b, encodeVarInt n = .ok b ∧ b.length = varIntLength n := by
 obtain ⟨p,v,_,_,hv,_,hb⟩:=encodeVarInt_eq hn
 exact ⟨_,hb,(beBytes_length _ _).trans hv⟩

lemma le_of_encodeVarInt (h : encodeVarInt n = .ok b) : n ≤ maxQuicVarint := by
 by_contra hgt
 rw [encodeVarInt,if_pos (by omega)] at h
 cases h

lemma encodeVarInt_length (h : encodeVarInt n = .ok b) : b.length = varIntLength n := by
 obtain ⟨b',hb',hl⟩:=encodeVarInt_of_le (le_of_encodeVarInt h)
 rw [h] at hb'
 rw [Except.ok.inj hb',hl]

lemma varIntLength_pos (n : ℕ) : 0 < varIntLength n := by
 unfold varIntLength
 split_ifs <;> decide

lemma encodeVarInt_ne_nil (h : encodeVarInt n = .ok b) : b ≠ [] := by
 have hp:=varIntLength_pos n
 rw [← encodeVarInt_length h] at hp
 exact length_pos_iff.mp hp

lemma decodeVarInt_beBytes {v p : ℕ} (hp : p < 4) (hv : 2^p = v + 1)
    (hn : n < 64*256^v) (h : bytes.drop offset = beBytes (v + 1) (n + p*64*256^v) ++ rest) :
    decodeVarInt bytes offset = .ok ⟨n, v + 1⟩ := by
 have hpo : 0 < 256^v := Nat.pow_pos (by decide)
 have hq : n / 256^v < 64 := Nat.div_lt_of_lt_mul (by rw [Nat.mul_comm]; exact hn)
 have hh : (n+p*64*256^v) / 256^v = n / 256^v+p*64 := add_mul_div_right _ _ hpo
 have ht : beBytes v (n+p*64*256^v) = beBytes v n := beBytes_add_mul v v n (p*64) (le_refl v)
 have hva : n / 256^v * 256^v+n % 256^v = n := div_add_mod' n (256^v)
 rw [beBytes,hh,ht] at h
 generalize n / 256^v = q at hq hva h
 have hb : (UInt8.ofNat (q+p*64)).toNat = q+p*64 := by
  rw [UInt8.toNat_ofNat']
  omega
 generalize UInt8.ofNat (q+p*64) = b at hb h
 have hs : (b >>> 6).toNat = p := by
  rw [UInt8.toNat_shiftRight,hb,shiftRight_eq_div_pow]
  change (q+p*64) / 2^6 = p
  omega
 have hm : (b &&& 0x3f).toNat = q := by
  rw [UInt8.toNat_and,hb]
  change (q+p*64) &&& (2^6 - 1) = q
  rw [and_two_pow_sub_one_eq_mod]
  omega
 have hl:=length_of_drop h (cons_ne_nil _ _)
 rw [length_cons,beBytes_length] at hl
 have hrest : subarray bytes (offset+1) (offset+(v+1)) = beBytes v n := by
  rw [add_comm v 1,← add_assoc]
  exact subarray_of_drop (drop_add_of_drop (a := [b]) (n := 1) h rfl) (beBytes_length v n)
 simp only [decodeVarInt,readU8_of_drop h,ok_bind,hs,hv,
  throwIf_neg (show ¬ bytes.length < offset+(v+1) by omega),hrest,ofBeBytes,hm,
  beBytes_length,ofBeBytes_beBytes,hva]
 rfl

lemma decodeVarInt_of_drop (hb : encodeVarInt n = .ok b)
    (h : bytes.drop offset = b ++ rest) : decodeVarInt bytes offset = .ok ⟨n, b.length⟩ := by
 obtain ⟨p,v,hp,hv,_,hn,he⟩:=encodeVarInt_eq (le_of_encodeVarInt hb)
 rw [hb] at he
 rw [Except.ok.inj he] at h ⊢
 rw [decodeVarInt_beBytes hp hv hn h,beBytes_length]

lemma decodeVarIntNumber_of_drop (hb : encodeVarInt n = .ok b)
    (hn : n ≤ maxSafeInteger) (h : bytes.drop offset = b ++ rest) :
    decodeVarIntNumber bytes offset = .ok ⟨n, b.length⟩ := by
 rw [decodeVarIntNumber,decodeVarInt_of_drop hb h,ok_bind,throwIf_neg (by simpa using hn)]
 rfl

end Enlace.Quic
