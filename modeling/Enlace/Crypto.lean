import Enlace.Lib.WireFormat

set_option autoImplicit false

/-! `crypto.rs` over the primitives of the crates it calls. The random nonce of an encryption is
an argument. -/
namespace Enlace.Crypto
open ByteString Fallible List Option List.Vector

abbrev Bytes32 := Block 32
abbrev AeadKey := Block 32
abbrev Nonce := Block 24
abbrev Signature := Block 64

def nonceLen : ℕ := 24
def tagLen : ℕ := 16

/-- HKDF and SHA-256, XChaCha20-Poly1305, ed25519 and X25519, and the parsers of URLs and socket
addresses, which return the normal form of their input. -/
structure Primitives where
  hkdf : Option Bytes → Bytes → Bytes → (n : ℕ) → Block n
  sha256 : Bytes → Bytes32
  encrypt : AeadKey → Nonce → Bytes → Bytes → Option Bytes
  decrypt : AeadKey → Nonce → Bytes → Bytes → Option Bytes
  isPoint : Bytes32 → Bool
  verifyingKey : Bytes32 → { b : Bytes32 // isPoint b = true }
  sign : Bytes32 → Bytes → Signature
  verify : Bytes32 → Bytes → Signature → Bool
  exchangePublic : Bytes32 → Bytes32
  diffieHellman : Bytes32 → Bytes32 → Bytes32
  parseUrl : Bytes → Option Bytes
  parseSocketAddr : Bytes → Option Bytes

def VerifyingKey (P : Primitives) : Type := { b : Bytes32 // P.isPoint b = true }

instance (P : Primitives) : DecidableEq (VerifyingKey P) :=
  inferInstanceAs (DecidableEq (Subtype _))

def VerifyingKey.toBytes {P : Primitives} (k : VerifyingKey P) : Bytes32 := k.val

def VerifyingKey.fromBytes (P : Primitives) (b : Bytes32) : Option (VerifyingKey P) :=
  if h : P.isPoint b = true then some ⟨b, h⟩ else none

lemma VerifyingKey.fromBytes_toBytes {P : Primitives} (k : VerifyingKey P) :
    VerifyingKey.fromBytes P k.toBytes = some k := dif_pos k.property

def zero32 : Bytes32 := List.Vector.replicate 32 0

/-- Decryption and verification accept what encryption and signing produce, the tag adds sixteen bytes, a key agreement
is symmetric and no secret has the all-zero public key. -/
structure Primitives.Lawful (P : Primitives) : Prop where
  decrypt_encrypt : ∀ {k n aad m c}, P.encrypt k n aad m = some c → P.decrypt k n aad c = some m
  encrypt_length : ∀ {k n aad m c}, P.encrypt k n aad m = some c → c.length = m.length + tagLen
  verify_sign : ∀ sk m, P.verify (P.verifyingKey sk).val m (P.sign sk m) = true
  diffieHellman_comm : ∀ a b, P.diffieHellman a (P.exchangePublic b) = P.diffieHellman b (P.exchangePublic a)
  exchangePublic_ne_zero : ∀ a, P.exchangePublic a ≠ zero32

inductive CryptoError where
  | tooShort
  | aeadFailed
  deriving DecidableEq

variable (P : Primitives)

def hkdfSha256 (ikm salt info : Bytes) (n : ℕ) : Block n :=
  P.hkdf (if salt.isEmpty then none else some salt) ikm info n

def deriveKey32 (ikm info : Bytes) : AeadKey := hkdfSha256 P ikm [] info 32

/-- Nonce, then ciphertext and tag. A refused encryption aborts. -/
def aeadSeal (nonce : Nonce) (key : AeadKey) (aad plaintext : Bytes) : Option Bytes :=
  (P.encrypt key nonce aad plaintext).map (nonce.toList ++ ·)

def aeadUnseal (key : AeadKey) (aad sealed : Bytes) : Res CryptoError Bytes :=
  if h : sealed.length < nonceLen + tagLen then fail .tooShort else
    okOr .aeadFailed (P.decrypt key
      ⟨sealed.take 24, by rw [List.length_take]; simp only [nonceLen, tagLen] at h; omega⟩
      aad (sealed.drop 24))

def sign (sk : Bytes32) (message : Bytes) : Signature := P.sign sk message

def verify (vk : VerifyingKey P) (message : Bytes) (signature : Signature) : Bool :=
  P.verify vk.toBytes message signature

variable {P}

lemma aeadUnseal_aeadSeal (hP : P.Lawful) {nonce : Nonce} {key : AeadKey}
    {aad plaintext sealed : Bytes} (h : aeadSeal P nonce key aad plaintext = some sealed) :
    aeadUnseal P key aad sealed = .ok plaintext := by
 obtain ⟨c,hc,rfl⟩:=map_eq_some_iff.mp h
 have hn : nonce.toList.length = 24 := nonce.toList_length
 have hle:=hP.encrypt_length hc
 have hl : ¬ (nonce.toList ++ c).length < nonceLen+tagLen := by
  rw [length_append,hle]
  simp only [nonceLen,tagLen]
  omega
 have hno : ∀ p, (⟨(nonce.toList ++ c).take 24,p⟩ : Nonce) = nonce :=
  fun _=>Subtype.ext (take_left' hn)
 rw [aeadUnseal,dif_neg hl,hno,drop_left' hn,hP.decrypt_encrypt hc]
 rfl

def pad (n : ℕ) (bs : Bytes) : Block n :=
  ⟨(bs ++ List.replicate n 0).take n, by
    rw [List.length_take, List.length_append, List.length_replicate]; omega⟩

def plainTag (k : AeadKey) (aad : Bytes) : Bytes := (k.toList.take 16).map (· + aad.sum)

def plainPublic (sk : Bytes32) : Bytes32 := ⟨(sk.toList.headD 0 ||| 1) :: sk.toList.tail, by
  have h : sk.toList.length = 32 := sk.toList_length
  rw [List.length_cons, List.length_tail, h]⟩

/-- Primitives without any secrecy that keep every law: the tag repeats half of the key, a digest is the sum and the end
of its input, a shared secret is a sum. -/
def plainPrimitives : Primitives where
  hkdf _ ikm info n := pad n (ikm ++ info)
  sha256 m := pad 32 (m.sum :: m.reverse)
  encrypt k _ aad m := some (m ++ plainTag k aad)
  decrypt k _ aad c := if plainTag k aad <:+ c then some (c.take (c.length - tagLen)) else none
  isPoint _ := true
  verifyingKey sk := ⟨sk, rfl⟩
  sign sk m := pad 64 (sk.toList ++ m.reverse.take 32)
  verify vk m s := s == pad 64 (vk.toList ++ m.reverse.take 32)
  exchangePublic := plainPublic
  diffieHellman sk pk := List.Vector.map₂ (· + ·) (plainPublic sk) pk
  parseUrl := some
  parseSocketAddr := some

lemma plainTag_length (k : AeadKey) (aad : Bytes) : (plainTag k aad).length = tagLen := by
 have h : k.toList.length = 32 := k.toList_length
 rw [plainTag,length_map,length_take,h]
 rfl

lemma plainPrimitives_lawful : plainPrimitives.Lawful where
 decrypt_encrypt {k n aad m c} h := by
  cases h
  change (if plainTag k aad <:+ m ++ plainTag k aad then _ else none) = some m
  rw [if_pos (suffix_append _ _),length_append,plainTag_length,Nat.add_sub_cancel,take_left' rfl]
 encrypt_length {k n aad m c} h := by
  cases h
  rw [length_append,plainTag_length]
 verify_sign sk m := beq_self_eq_true _
 diffieHellman_comm a b := by
  refine ext fun i=>?_
  change (List.Vector.map₂ _ _ _).get i = (List.Vector.map₂ _ _ _).get i
  rw [get_map₂,get_map₂]
  exact UInt8.add_comm _ _
 exchangePublic_ne_zero a h := by
  have hd : a.toList.headD 0 ||| 1 = 0 := congrArg (fun v : Bytes32=>v.toList.headD 0) h
  exact absurd (UInt8.or_eq_zero_iff.mp hd).2 (by decide)

end Enlace.Crypto

/-! `dedup.rs`: the digests of recently seen payloads, most recent first. -/
namespace Enlace
open ByteString Crypto

def defaultDedupCapacity : ℕ := 1024

/-- A capacity of zero disables the buffer. -/
structure Dedup where
  capacity : ℕ
  recent : List Bytes32
  bounded : recent.length ≤ capacity
  nodup : recent.Nodup

namespace Dedup

def new (capacity : ℕ) : Dedup := ⟨capacity, [], Nat.zero_le _, List.nodup_nil⟩

def put (d : Dedup) (digest : Bytes32) : Dedup where
  capacity := d.capacity
  recent := (digest :: d.recent.erase digest).take d.capacity
  bounded := List.length_take_le _ _
  nodup := by
    refine List.Nodup.sublist (List.take_sublist _ _) ?_
    exact List.nodup_cons.mpr ⟨d.nodup.not_mem_erase, d.nodup.erase digest⟩

def observe (P : Primitives) (d : Dedup) (payload : Bytes) : Bool × Dedup :=
  (decide (P.sha256 payload ∈ d.recent), d.put (P.sha256 payload))

end Dedup
end Enlace

/-! `kdf.rs`: channel names and the keys and ids derived from them. A name is its bytes. -/
namespace Enlace.Kdf
open ByteString Fallible Crypto

def channelIdLen : ℕ := 16
def irohTopicIdLen : ℕ := 32
def maxNameLen : ℕ := 64

inductive ChannelKind where
  | mailbox
  | slot
  deriving DecidableEq

def ChannelKind.asBytes : ChannelKind → Bytes
  | .mailbox => ascii "mailbox"
  | .slot => ascii "slot"

lemma delimiting_kind : Delimited.Delimiting fun kind : ChannelKind => some kind.asBytes := by
 apply Delimited.delimiting_of_code
 intro kind kind'
 cases kind <;> cases kind' <;> decide

inductive TransportKind where
  | http
  | pkarr
  | dht
  | iroh
  deriving DecidableEq

def TransportKind.asBytes : TransportKind → Bytes
  | .http => ascii "http"
  | .pkarr => ascii "pkarr"
  | .dht => ascii "dht"
  | .iroh => ascii "iroh"

inductive NameError where
  | empty
  | tooLong
  | invalidChar
  deriving DecidableEq

def nameByte (b : UInt8) : Bool :=
  (0x30 ≤ b && b ≤ 0x39) || (0x61 ≤ b && b ≤ 0x7a) || b == 0x2d || b == 0x5f || b == 0x2f || b == 0x2e

def validateName (name : Bytes) : Res NameError Unit :=
  if name.isEmpty then fail .empty
  else if name.length > maxNameLen then fail .tooLong
  else if name.all nameByte then .ok () else fail .invalidChar

lemma validateName_eq_ok {name : Bytes} {u : Unit} : validateName name = .ok u ↔
    name ≠ [] ∧ name.length ≤ maxNameLen ∧ ∀ b ∈ name, nameByte b = true := by
 unfold validateName
 split_ifs with he hl ha
 · exact ⟨(nomatch ·),fun h=>absurd (List.isEmpty_iff.mp he) h.1⟩
 · exact ⟨(nomatch ·),fun h=>absurd h.2.1 (by omega)⟩
 · refine ⟨fun _=>⟨fun h=>he (List.isEmpty_iff.mpr h),by omega,?_⟩,fun _=>rfl⟩
   exact List.all_eq_true.mp ha
 · exact ⟨(nomatch ·),fun h=>absurd (List.all_eq_true.mpr h.2.2) ha⟩

@[simp] lemma noAbort_validateName (name : Bytes) : NoAbort (validateName name) := by
 unfold validateName
 split_ifs
 all_goals simp

def slash : UInt8 := 0x2f

variable (P : Primitives)

def channelAeadKey (seed : Bytes32) (kind : ChannelKind) (name : Bytes) : Res NameError AeadKey := do
  validateName name
  return deriveKey32 P seed.toList
    (ascii "enlace/v1/key/aead/" ++ kind.asBytes ++ [slash] ++ name)

def channelId (seed : Bytes32) (transport : TransportKind) (kind : ChannelKind) (name : Bytes) :
    Res NameError (Block channelIdLen) := do
  validateName name
  return hkdfSha256 P seed.toList []
    (ascii "enlace/v1/id/" ++ transport.asBytes ++ [slash] ++ kind.asBytes ++ [slash] ++ name) channelIdLen

def irohTopicId (seed : Bytes32) (kind : ChannelKind) (name : Bytes) : Res NameError (Block irohTopicIdLen) := do
  validateName name
  return hkdfSha256 P seed.toList []
    (ascii "enlace/v1/id/iroh-topic/" ++ kind.asBytes ++ [slash] ++ name) irohTopicIdLen

end Enlace.Kdf
