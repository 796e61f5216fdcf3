import Mathlib.Tactic.IntervalCases
import Enlace.Pkarr.Dns

set_option autoImplicit false

/-! `keys.ts`, `z32.ts` and `bytes.ts`: the keys of signed packets. -/
namespace Enlace.Pkarr
open ByteString Unicode List Fallible

def publicKeyBytes : ℕ := 32

def signatureBytes : ℕ := 64

def requireLength (bytes : Bytes) (length : ℕ) (name : String) : Outcome Unit :=
  rangeErrorIf (bytes.length ≠ length) (literal s!"{name} must be {length} bytes")

def compareBytes : Bytes → Bytes → ℤ
  | a :: left, b :: right => if (a.toNat : ℤ) - b.toNat ≠ 0 then (a.toNat : ℤ) - b.toNat else compareBytes left right
  | left, right => (left.length : ℤ) - right.length

def z32Alphabet : Text := literal "ybndrfg8ejkmcpqxot1uwisza345h769"

def z32Digit (value : ℕ) : Text := (z32Alphabet[value % 32]?).toList

/-- The inner loop of `encodeZ32`: the digits, and the bits that are left. The first number bounds its rounds. -/
def z32Digits (value : ℕ) : ℕ → ℕ → Text × ℕ
  | 0, bits => ([], bits)
  | rounds + 1, bits =>
    if bits ≥ 5 then
      (z32Digit (value/2^(bits - 5)) ++ (z32Digits value rounds (bits - 5)).1, (z32Digits value rounds (bits - 5)).2)
    else ([], bits)

/-- The loop of `encodeZ32`. Its value has 32 bits. -/
def encodeZ32From : Bytes → ℕ → ℕ → Text
  | [], bits, value => if bits > 0 then z32Digit (value*2^(5 - bits)) else []
  | byte :: bytes, bits, value =>
    let shifted := (value*0x100 + byte.toNat) % 2^32
    (z32Digits shifted (bits + 8) (bits + 8)).1 ++
      encodeZ32From bytes (z32Digits shifted (bits + 8) (bits + 8)).2 shifted

def encodeZ32 (bytes : Bytes) : Text := encodeZ32From bytes 0 0

/-- `DECODE_TABLE`. -/
def z32Value (char : UInt16) : Option ℕ := z32Alphabet.idxOf? char

/-- The loop of `decodeZ32`. The bits that fill no byte are returned as well. -/
def decodeZ32From : Text → ℕ → ℕ → Outcome (Bytes × ℕ)
  | [], bits, value => .ok ([], value % 2^bits)
  | char :: encoded, bits, value =>
    match z32Value char with
    | none => .error (.typeError (literal "invalid z-base32 public key encoding"))
    | some decoded =>
      let shifted := (value*32 + decoded) % 2^32
      if bits + 5 ≥ 8 then do
        let (out, rest) ← decodeZ32From encoded (bits + 5 - 8) shifted
        return (UInt8.ofNat (shifted/2^(bits + 5 - 8)) :: out, rest)
      else decodeZ32From encoded (bits + 5) shifted

def decodeZ32 (encoded : Text) : Outcome Bytes := do
  let (out, _) ← decodeZ32From encoded 0 0
  return out

lemma z32Digit_value (value : ℕ) : ∃ char, z32Digit value = [char] ∧ z32Value char = some (value % 32) := by
 have h : ∀ digit < 32, ∃ char ∈ z32Alphabet[digit]?, z32Value char = some digit := by decide +kernel
 obtain ⟨char,hc,hv⟩:=h _ (Nat.mod_lt value (by decide))
 exact ⟨char,by rw [z32Digit,Option.mem_def.mp hc]; rfl,hv⟩

lemma decodeZ32From_digit (value bits acc : ℕ) (rest : Text) : decodeZ32From (z32Digit value ++ rest) bits acc =
      let shifted := (acc*32 + value % 32) % 2^32
      if bits + 5 ≥ 8 then do
        let (out, rest) ← decodeZ32From rest (bits + 5 - 8) shifted
        return (UInt8.ofNat (shifted/2^(bits + 5 - 8)) :: out, rest)
      else decodeZ32From rest (bits + 5) shifted := by
 obtain ⟨char,hc,hv⟩:=z32Digit_value value
 rw [hc,singleton_append,decodeZ32From,hv]

lemma ofNat_eq_iff {n : ℕ} {byte : UInt8} : UInt8.ofNat n = byte ↔ n % 256 = byte.toNat := by
 rw [← UInt8.toNat_inj,UInt8.toNat_ofNat']

/-- The decoder holds the high bits of the byte whose low bits the encoder has not written. -/
lemma decodeZ32From_encodeZ32From (bytes : Bytes) {bits held : ℕ} (value acc : ℕ) (hb : bits < 5)
    (hh : held = (8 - bits) % 8) : decodeZ32From (encodeZ32From bytes bits value) held acc =
      .ok ((if bits = 0 then [] else [UInt8.ofNat (acc*2^bits + value % 2^bits)]) ++ bytes, 0) := by
 induction bytes generalizing bits held value acc with
 | nil =>
  rw [encodeZ32From]
  subst hh
  interval_cases bits
  · simp [decodeZ32From,Nat.mod_one]
  all_goals
   rw [if_pos (by decide),← append_nil (z32Digit _),decodeZ32From_digit]
   simp [decodeZ32From,-UInt8.ofNat_add,-UInt8.ofNat_mul,ofNat_eq_iff]
   omega
 | cons byte bytes ih =>
  have hlt:=byte.toNat_lt
  rw [encodeZ32From]
  subst hh
  interval_cases bits <;>
   simp [z32Digits,append_assoc,decodeZ32From_digit,ih,-UInt8.ofNat_add,-UInt8.ofNat_mul,ofNat_eq_iff] <;> omega

variable {s t : Text} {out : Bytes} {bits value rest : ℕ}

lemma decodeZ32From_length (h : decodeZ32From s bits value = .ok (out, rest)) (hb : bits < 8) :
    8*out.length ≤ bits + 5*s.length ∧ bits + 5*s.length < 8*out.length + 8 := by
 induction s generalizing bits value out with
 | nil =>
  cases h
  simp
  omega
 | cons char s ih =>
  rw [decodeZ32From] at h
  split at h
  · cases h
  · split_ifs at h
    · obtain ⟨⟨out',rest'⟩,ho,h⟩:=bind_eq_ok.mp h
      cases h
      have:=ih ho (by omega)
      simp
      omega
    · have:=ih h (by omega)
      simp
      omega

lemma z32Value_spec {char : UInt16} (h : z32Value char = some value) :
    value < 32 ∧ z32Alphabet[value]? = some char := by
 obtain ⟨hlt,hc,_⟩:=findIdx?_eq_some_iff_getElem.mp h
 exact ⟨hlt,by rw [getElem?_eq_getElem hlt]; simpa using hc⟩

lemma z32Value_mod_iff {char : UInt16} (h : z32Value char = some value) :
    value % 2^4 = 0 ↔ char = 0x79 ∨ char = 0x6f := by
 obtain ⟨hlt,hc⟩:=z32Value_spec h
 constructor
 · intro hz
   obtain rfl|rfl : value = 0 ∨ value = 16 := by omega
   · exact .inl (Option.some.inj hc.symm)
   · exact .inr (Option.some.inj hc.symm)
 · rintro (rfl|rfl)
   · obtain rfl : 0 = value := Option.some.inj h
     rfl
   · obtain rfl : 16 = value := Option.some.inj h
     rfl

/-- Between strings of one length, nothing but the bits that fill no byte is lost. -/
lemma decodeZ32From_inj {value' : ℕ} (hs : decodeZ32From s bits value = .ok (out, rest))
    (ht : decodeZ32From t bits value' = .ok (out, rest)) (hbi : bits < 8) (hl : s.length = t.length) :
    s = t ∧ value % 2^bits = value' % 2^bits := by
 induction s generalizing t bits value value' out with
 | nil =>
  rw [eq_nil_of_length_eq_zero hl.symm] at ht ⊢
  exact ⟨rfl,(Prod.mk.inj (Except.ok.inj (hs.trans ht.symm))).2⟩
 | cons char s ih =>
  obtain ⟨char',t,rfl⟩:=exists_cons_of_length_eq_add_one hl.symm
  have hl : s.length = t.length := Nat.succ.inj hl
  rw [decodeZ32From] at hs ht
  split at hs
  · cases hs
  rename_i digit hd
  split at ht
  · cases ht
  rename_i digit' hd'
  obtain ⟨hlt,hc⟩:=z32Value_spec hd
  obtain ⟨hl',hc'⟩:=z32Value_spec hd'
  have hsa : s = t ∧ digit = digit' ∧ value % 2^bits = value' % 2^bits := by
   split_ifs at hs ht with hf
   · obtain ⟨⟨out,_⟩,ho,hs⟩:=bind_eq_ok.mp hs
     cases hs
     obtain ⟨⟨_,_⟩,ho',ht⟩:=bind_eq_ok.mp ht
     obtain ⟨⟨hb,rfl⟩,rfl⟩ : (_ ∧ _) ∧ _ := by simpa using ht
     obtain ⟨rfl,hv⟩:=ih ho ho' (by omega) hl
     rw [ofNat_eq_iff,UInt8.toNat_ofNat'] at hb
     refine ⟨rfl,?_⟩
     interval_cases bits <;> omega
   · obtain ⟨rfl,hv⟩:=ih hs ht (by omega) hl
     refine ⟨rfl,?_⟩
     interval_cases bits <;> omega
  obtain ⟨rfl,rfl,hv⟩:=hsa
  exact ⟨by rw [Option.some.inj (hc.symm.trans hc')],hv⟩

/-- The bits that fill no byte are the low bits of the last character, if there are at most five. -/
lemma decodeZ32From_concat {char : UInt16} (h : decodeZ32From (s ++ [char]) bits value = .ok (out, rest))
    (hb : bits < 8) (hf : (bits + 5*(s.length + 1)) % 8 ≤ 5) :
    ∃ digit, z32Value char = some digit ∧ rest = digit % 2^((bits + 5*(s.length + 1)) % 8) := by
 induction s generalizing bits value out with
 | nil =>
  rw [nil_append,decodeZ32From] at h
  split at h
  · cases h
  rename_i digit hd
  refine ⟨digit,hd,?_⟩
  rw [length_nil] at hf ⊢
  have hlow : ∀ k ≤ 5, (value*32+digit) % 2^32 % 2^k = digit % 2^k := fun k hk=>by interval_cases k <;> omega
  split_ifs at h with hfu
  · obtain ⟨⟨out',rest'⟩,ho,h⟩:=bind_eq_ok.mp h
    cases h
    cases ho
    rw [hlow _ (by omega),show (bits+5*(0+1)) % 8 = bits+5-8 by omega]
  · cases h
    rw [hlow _ (by omega),show (bits+5*(0+1)) % 8 = bits+5 by omega]
 | cons first s ih =>
  rw [cons_append,decodeZ32From] at h
  rw [length_cons] at hf ⊢
  split at h
  · cases h
  split_ifs at h with hfu
  · obtain ⟨⟨out',rest'⟩,ho,h⟩:=bind_eq_ok.mp h
    cases h
    obtain ⟨digit,hd,hrest⟩:=ih ho (by omega) (by omega)
    refine ⟨digit,hd,?_⟩
    rwa [show (bits+5*(s.length+1+1)) % 8 = (bits+5-8+5*(s.length+1)) % 8 by omega]
  · obtain ⟨digit,hd,hrest⟩:=ih h (by omega) (by omega)
    refine ⟨digit,hd,?_⟩
    rwa [show bits+5*(s.length+1+1) = bits+5+5*(s.length+1) by omega]

lemma decodeZ32From_encodeZ32 (bytes : Bytes) : decodeZ32From (encodeZ32 bytes) 0 0 = .ok (bytes, 0) :=
 decodeZ32From_encodeZ32From bytes 0 0 (by decide) rfl

lemma encodeZ32_ne_nil {bytes : Bytes} (h : bytes ≠ []) : encodeZ32 bytes ≠ [] := by
 intro hn
 have hd:=decodeZ32From_encodeZ32 bytes
 rw [hn] at hd
 cases hd
 exact h rfl

/-- `@noble/ed25519`, by the rules of RFC 8032. -/
structure Ed25519 where
  /-- `Point.fromBytes(bytes, false)`. -/
  point : Bytes → Outcome Unit
  getPublicKey : Bytes → Bytes
  sign : Bytes → Bytes → Bytes
  verify : Bytes → Bytes → Bytes → Bool

/-- What a signature scheme promises. -/
structure Ed25519.Correct (ed : Ed25519) : Prop where
  sign_length : ∀ message secretKey, (ed.sign message secretKey).length = signatureBytes
  verify_sign : ∀ message secretKey, secretKey.length = publicKeyBytes →
    ed.verify (ed.sign message secretKey) message (ed.getPublicKey secretKey) = true

def plainScheme : Ed25519 where
  point _ := .ok ()
  getPublicKey secretKey := secretKey
  sign message secretKey := beBytes signatureBytes (ofBeBytes (message ++ secretKey))
  verify signature message publicKey := signature = beBytes signatureBytes (ofBeBytes (message ++ publicKey))

structure PublicKey (ed : Ed25519) where
  toBytes : Bytes
  length : toBytes.length = publicKeyBytes
  point : ed.point toBytes = .ok ()

namespace PublicKey

variable {ed : Ed25519}

lemma ext {a b : PublicKey ed} (h : a.toBytes = b.toBytes) : a = b := by
 cases a
 cases b
 cases h
 rfl

instance decidableEq : DecidableEq (PublicKey ed) := fun a b =>
  decidable_of_iff (a.toBytes = b.toBytes) ⟨ext, congrArg toBytes⟩

def fromBytes (ed : Ed25519) (bytes : Bytes) : Outcome (PublicKey ed) :=
  if hl : bytes.length = publicKeyBytes then
    match hp : ed.point bytes with
    | .ok () => .ok ⟨bytes, hl, hp⟩
    | .error e => .error e
  else .error (.rangeError (literal "public key must be 32 bytes"))

lemma fromBytes_eq_ok {bytes : Bytes} {key : PublicKey ed} : fromBytes ed bytes = .ok key ↔ key.toBytes = bytes := by
 constructor
 · intro h
   unfold fromBytes at h
   split_ifs at h with hl
   split at h
   · exact (Except.ok.inj h) ▸ rfl
   · cases h
 · rintro rfl
   unfold fromBytes
   rw [dif_pos key.length]
   split
   · rfl
   · rename_i heq
     rw [key.point] at heq
     cases heq

def toZ32 (key : PublicKey ed) : Text := encodeZ32 key.toBytes

def fromZ32 (ed : Ed25519) (encoded : Text) : Outcome (PublicKey ed) := do
  fromBytes ed (← decodeZ32 encoded)

lemma toZ32_eq_iff_rest {encoded : Text} {key : PublicKey ed} {rest : ℕ}
    (h : decodeZ32From encoded 0 0 = .ok (key.toBytes, rest)) : key.toZ32 = encoded ↔ rest = 0 := by
 have ht:=decodeZ32From_encodeZ32 key.toBytes
 constructor
 · rintro rfl
   exact (Prod.mk.inj (Except.ok.inj (h.symm.trans ht))).2
 · rintro rfl
   have hk : key.toBytes.length = 32 := key.length
   have hl:=decodeZ32From_length h (by decide)
   have hl':=decodeZ32From_length ht (by decide)
   exact (decodeZ32From_inj ht h (by decide) (by omega)).1

/-- A text that is accepted is the one of its key if and only if it ends in one of the two characters whose four low
bits, which fill no byte, are zero. -/
theorem toZ32_eq_iff (ed : Ed25519) : (∀ bytes, decodeZ32 (encodeZ32 bytes) = .ok bytes) ∧
    ∀ encoded key, fromZ32 ed encoded = .ok key →
      (key.toZ32 = encoded ↔ literal "y" <:+ encoded ∨ literal "o" <:+ encoded) := by
 refine ⟨fun bytes=>by rw [decodeZ32,decodeZ32From_encodeZ32]; rfl,fun encoded key h=>?_⟩
 obtain ⟨bytes,hb,hk⟩:=bind_eq_ok.mp h
 obtain ⟨⟨out,rest⟩,ho,hp⟩:=bind_eq_ok.mp hb
 cases hp
 obtain rfl:=fromBytes_eq_ok.mp hk
 have hk : key.toBytes.length = 32 := key.length
 have hl:=decodeZ32From_length ho (by decide)
 rw [toZ32_eq_iff_rest ho]
 rcases eq_nil_or_concat' encoded with rfl|⟨front,char,rfl⟩
 · rw [length_nil] at hl
   omega
 -- a key has 52 characters, and the last of them brings one bit of the last byte and four that fill none
 rw [length_append,length_singleton] at hl
 obtain ⟨digit,hd,hrest⟩:=decodeZ32From_concat ho (by decide) (by omega)
 rw [show (0+5*(front.length+1)) % 8 = 4 by omega] at hrest
 rw [hrest,z32Value_mod_iff hd,show literal "y" = [0x79] from rfl,show literal "o" = [0x6f] from rfl]
 simp only [singleton_suffix_iff_getLast?_eq_some,getLast?_concat,Option.some_inj]

/-- A key of the repository's tests. -/
theorem text_of_key_is_kept : ∃ key,
    fromZ32 plainScheme (literal "yg4gxe7z1r7mr6orids9fh95y7gxhdsxjqi6nngsxxtakqaxr5no") = .ok key ∧
      key.toZ32 = literal "yg4gxe7z1r7mr6orids9fh95y7gxhdsxjqi6nngsxxtakqaxr5no" := by
 obtain ⟨key,hk,hl⟩ : ∃ key,
   fromZ32 plainScheme (literal "yg4gxe7z1r7mr6orids9fh95y7gxhdsxjqi6nngsxxtakqaxr5no") = .ok key ∧
   literal "o" <:+ literal "yg4gxe7z1r7mr6orids9fh95y7gxhdsxjqi6nngsxxtakqaxr5no" := by decide +kernel
 exact ⟨key,hk,((toZ32_eq_iff plainScheme).2 _ key hk).mpr (.inr hl)⟩

theorem two_texts_name_one_key :
    ∃ key, fromZ32 plainScheme (literal "yryyyyyyyyyyyyyyyyyyyyyyyyyyyyyyyyyyyyyyyyyyyyyyyyyy") = .ok key ∧
      fromZ32 plainScheme (literal "yryyyyyyyyyyyyyyyyyyyyyyyyyyyyyyyyyyyyyyyyyyyyyyyyyb") = .ok key ∧
      key.toZ32 ≠ literal "yryyyyyyyyyyyyyyyyyyyyyyyyyyyyyyyyyyyyyyyyyyyyyyyyyb" := by decide +kernel

lemma toZ32_ne_nil (key : PublicKey ed) : key.toZ32 ≠ [] :=
 encodeZ32_ne_nil fun hn=>absurd key.length (by rw [hn]; decide)

def verify (key : PublicKey ed) (message signature : Bytes) : Outcome Bool := do
  requireLength signature signatureBytes "signature"
  return ed.verify signature message key.toBytes

end PublicKey

structure Keypair (ed : Ed25519) where
  secretKey : Bytes
  publicKey : PublicKey ed
  length : secretKey.length = publicKeyBytes
  derived : publicKey.toBytes = ed.getPublicKey secretKey

namespace Keypair

variable {ed : Ed25519}

def fromSecretKey (ed : Ed25519) (secretKey : Bytes) : Outcome (Keypair ed) :=
  if hl : secretKey.length = publicKeyBytes then
    match hk : PublicKey.fromBytes ed (ed.getPublicKey secretKey) with
    | .ok publicKey => .ok ⟨secretKey, publicKey, hl, PublicKey.fromBytes_eq_ok.mp hk⟩
    | .error e => .error e
  else .error (.rangeError (literal "secret key must be 32 bytes"))

def sign (keypair : Keypair ed) (message : Bytes) : Bytes := ed.sign message keypair.secretKey

end Keypair

end Enlace.Pkarr
