import Enlace.Crypto
import Enlace.Lib.Msgpack

set_option autoImplicit false

/-! The signature over a shared-seed frame and its verification (`coordinator.rs`). -/
namespace Enlace.Coordinator
open ByteString Fallible Crypto Kdf List Option

inductive SealError where
  | tooShort
  | aeadFailed
  | msgpackFailed
  | signatureMissing
  | signatureInvalid
  | untrustedSigner
  deriving DecidableEq

def SealError.ofCrypto : CryptoError → SealError
  | .tooShort => .tooShort
  | .aeadFailed => .aeadFailed

structure SignedInner where
  payload : Bytes
  version : Option UInt64
  signer : Option Bytes32
  signature : Option Bytes
  deriving DecidableEq

def versionBytes (version : Option UInt64) : Bytes := version.elim [] be64

def signaturePreimage (kind : ChannelKind) (name payload : Bytes) (version : Option UInt64) : Bytes :=
  ascii "enlace/v1/sig/" ++ kind.asBytes ++ [slash] ++ name ++ [slash] ++ versionBytes version ++ payload

def verifyInner (P : Primitives) (kind : ChannelKind) (name : Bytes) (inner : SignedInner)
    (trusted : List (VerifyingKey P)) : Res SealError (Option (VerifyingKey P)) :=
  match inner.signer, inner.signature with
  | none, none => if trusted.isEmpty then .ok none else fail .signatureMissing
  | some _, none => fail .msgpackFailed
  | none, some _ => fail .msgpackFailed
  | some signer, some signature => do
    let signer ← okOr .signatureInvalid (VerifyingKey.fromBytes P signer)
    let signature ← okOr .signatureInvalid (toBlock 64 signature)
    let preimage := signaturePreimage kind name inner.payload inner.version
    ensure (verify P signer preimage signature) .signatureInvalid
    ensure (trusted.isEmpty || trusted.any fun k => k.toBytes == signer.toBytes) .untrustedSigner
    return some signer

abbrev ChannelName := { name : Bytes // validateName name = .ok () }

structure Subject where
  kind : ChannelKind
  name : ChannelName
  version : Option UInt64
  payload : Bytes

def Subject.preimage (t : Subject) : Bytes :=
  signaturePreimage t.kind t.name.val t.payload t.version

def Subject.tail (t : Subject) : Bytes :=
  t.name.val ++ slash :: (versionBytes t.version ++ t.payload)

lemma preimage_eq_append (t : Subject) :
    t.preimage = ascii "enlace/v1/sig/" ++ (t.kind.asBytes ++ slash :: t.tail) := by
 simp only [Subject.preimage,signaturePreimage,Subject.tail,append_assoc,cons_append,nil_append]

lemma preimage_eq_iff (t u : Subject) : t.preimage = u.preimage ↔ t.kind = u.kind ∧ t.tail = u.tail := by
 rw [preimage_eq_append,preimage_eq_append,append_cancel_left_eq]
 constructor
 · intro h
   obtain ⟨hki,hta⟩:=delimiting_kind rfl rfl h
   exact ⟨hki,(cons.inj hta).2⟩
 · rintro ⟨hk,ht⟩
   rw [hk,ht]

/-- There is no version and nothing that could be one, and no separator but the one after the name can end a valid name.
-/
structure Unambiguous (t : Subject) : Prop where
  version_none : t.version = none
  short : t.payload.length < 8
  name_uncut : ∀ c rest, t.name.val = c ++ slash :: rest → c = []
  payload_uncut : ∀ c rest, t.payload = c ++ slash :: rest → (∀ b ∈ c, nameByte b = true) →
    maxNameLen < t.name.val.length + 1 + c.length

def Binds (t : Subject) : Prop := ∀ u : Subject, u.preimage = t.preimage → u = t

variable {t : Subject}

lemma Binds.version_none (h : Binds t) : t.version = none := by
 have he : t.preimage = (⟨t.kind,t.name,none,versionBytes t.version ++ t.payload⟩ : Subject).preimage :=
  (preimage_eq_iff _ _).mpr ⟨rfl,by simp [Subject.tail,versionBytes]⟩
 exact (congrArg Subject.version (h _ he.symm)).symm

lemma Binds.short (h : Binds t) : t.payload.length < 8 := by
 by_contra hlong
 have hl : (t.payload.take 8).length = 8 := by
  rw [length_take]
  omega
 have he : (⟨t.kind,t.name,some (ofBe64 (t.payload.take 8)),t.payload.drop 8⟩ : Subject).preimage = t.preimage := by
  refine (preimage_eq_iff _ _).mpr ⟨rfl,?_⟩
  simp only [Subject.tail,versionBytes,elim_some,h.version_none,elim_none,
   nil_append,be64_ofBe64 _ hl,take_append_drop]
 have hv:=congrArg Subject.version (h _ he)
 rw [h.version_none] at hv
 cases hv

lemma Binds.name_uncut (h : Binds t) (c rest : Bytes) (hn : t.name.val = c ++ slash :: rest) : c = [] := by
 by_contra hc
 obtain ⟨_,hl,ha⟩:=validateName_eq_ok.mp t.name.property
 rw [hn] at hl ha
 have hv : validateName c = .ok () := by
  refine validateName_eq_ok.mpr ⟨hc,?_,fun b hb=>ha b (mem_append_left _ hb)⟩
  rw [length_append] at hl
  omega
 have he : (⟨t.kind,⟨c,hv⟩,none,
   rest ++ slash :: (versionBytes t.version ++ t.payload)⟩ : Subject).preimage = t.preimage := by
  refine (preimage_eq_iff _ _).mpr ⟨rfl,?_⟩
  simp only [Subject.tail,versionBytes,elim_none,nil_append,hn,append_assoc,cons_append]
 have hna:=congrArg (fun u : Subject=>u.name.val.length) (h _ he)
 simp only [hn,length_append,length_cons] at hna
 omega

lemma Binds.payload_uncut (h : Binds t) (c rest : Bytes)
    (hp : t.payload = c ++ slash :: rest) (hc : ∀ b ∈ c, nameByte b = true) :
    maxNameLen < t.name.val.length + 1 + c.length := by
 by_contra hlen
 obtain ⟨hne,_,ha⟩:=validateName_eq_ok.mp t.name.property
 have hv : validateName (t.name.val ++ slash :: c) = .ok () := by
  refine validateName_eq_ok.mpr ⟨by simp,?_,?_⟩
  · rw [length_append,length_cons]
    omega
  · intro b hb
    rcases mem_append.mp hb with hb|hb
    · exact ha b hb
    · rcases mem_cons.mp hb with rfl|hb
      · rfl
      · exact hc b hb
 have he : (⟨t.kind,⟨t.name.val ++ slash :: c,hv⟩,none,rest⟩ : Subject).preimage = t.preimage := by
  refine (preimage_eq_iff _ _).mpr ⟨rfl,?_⟩
  simp only [Subject.tail,versionBytes,elim_none,h.version_none,nil_append,hp,append_assoc,cons_append]
 have hn:=congrArg (fun u : Subject=>u.name.val.length) (h _ he)
 simp only [length_append,length_cons] at hn
 omega

lemma Unambiguous.binds (h : Unambiguous t) : Binds t := by
 intro u hu
 obtain ⟨hk,ht⟩:=(preimage_eq_iff u t).mp hu
 obtain ⟨kind,name,version,payload⟩:=u
 obtain ⟨hne,hle,ha⟩:=validateName_eq_ok.mp name.property
 simp only [Subject.tail,h.version_none,versionBytes,elim_none,nil_append] at ht
 rcases append_cons_cases ht with ⟨hn,hbo⟩|⟨c,hn,_⟩|⟨c,hn,hp⟩
 · have hv : version = none := by
    cases version with
    | none => rfl
    | some v =>
     have hl:=congrArg length hbo
     have hs:=h.short
     rw [elim_some,length_append,be64_length] at hl
     omega
   subst hv
   obtain ⟨tkind,tname,tversion,tpayload⟩:=t
   obtain rfl : name = tname:=Subtype.ext hn
   obtain rfl : kind = tkind:=hk
   obtain rfl : payload = tpayload:=hbo
   obtain rfl : tversion = none:=h.version_none
   rfl
 · exact absurd (h.name_uncut _ _ hn) hne
 · rw [hn] at hle ha
   have hc : ∀ b ∈ c, nameByte b = true := fun b hb=>
    ha b (mem_append_right _ (mem_cons_of_mem _ hb))
   have hlo:=h.payload_uncut _ _ hp hc
   rw [length_append,length_cons] at hle
   omega

/-- Exactly the unambiguous subjects are bound by their preimage. -/
theorem preimage_binds_iff (t : Subject) : (∀ u : Subject, u.preimage = t.preimage → u = t) ↔ Unambiguous t :=
 ⟨fun h=>⟨Binds.version_none h,Binds.short h,Binds.name_uncut h,Binds.payload_uncut h⟩,Unambiguous.binds⟩

/-- A signature for `b/x` on the mailbox `a` also verifies for `x` on the mailbox `a/b`. -/
theorem signature_moves_between_mailboxes : validateName (ascii "a") = .ok () ∧ validateName (ascii "a/b") = .ok () ∧
    signaturePreimage .mailbox (ascii "a") (ascii "b/x") none =
      signaturePreimage .mailbox (ascii "a/b") (ascii "x") none ∧
    verifyInner plainPrimitives .mailbox (ascii "a/b")
      ⟨ascii "x", none, some zero32, some (sign plainPrimitives zero32
        (signaturePreimage .mailbox (ascii "a") (ascii "b/x") none)).toList⟩ [] =
      .ok (some (plainPrimitives.verifyingKey zero32)) := by
 decide

end Enlace.Coordinator

/-! `Coordinator::seal` and `Coordinator::open`. The serializer is a parameter: any pair that
round-trips. -/
namespace Enlace
open ByteString Fallible WireFormat Crypto Kdf List Msgpack

structure Coordinator (P : Primitives) where
  seed : Bytes32
  transports : List TransportKind
  signing : Option Bytes32
  trusted : List (VerifyingKey P)
  dedupBuffer : ℕ
  maxPlaintextBytes : ℕ

namespace Coordinator

def defaultMaxPlaintextBytes : ℕ := 65536

structure OpenedEnvelope (P : Primitives) where
  payload : Bytes
  version : Option UInt64
  signedBy : Option (VerifyingKey P)
  deriving DecidableEq

def aeadAad (kind : ChannelKind) (name : Bytes) : Bytes :=
  ascii "enlace/v1/aead/" ++ kind.asBytes ++ [slash] ++ name

def transportChannelId (P : Primitives) (seed : Bytes32) (transport : TransportKind)
    (kind : ChannelKind) (name : Bytes) : Res NameError Bytes :=
  if transport = .iroh then List.Vector.toList <$> irohTopicId P seed kind name
  else List.Vector.toList <$> channelId P seed transport kind name

variable {P : Primitives} (rmp : Codec SignedInner) (c : Coordinator P)

def signedInner (kind : ChannelKind) (name payload : Bytes) (version : Option UInt64) : SignedInner where
  payload := payload
  version := version
  signer := c.signing.map fun sk => (P.verifyingKey sk).val
  signature := c.signing.map fun sk => (sign P sk (signaturePreimage kind name payload version)).toList

def sealPayload (nonce : Nonce) (kind : ChannelKind) (name payload : Bytes)
    (version : Option UInt64) : Res SealError Bytes := do
  let inner := c.signedInner kind name payload version
  let plaintext ← okOr .msgpackFailed (rmp.encode inner)
  let key ← mapErr (fun _ => .msgpackFailed) (channelAeadKey P c.seed kind name)
  expect (aeadSeal P nonce key (aeadAad kind name) plaintext)

def openSealed (kind : ChannelKind) (name sealed : Bytes) : Res SealError (OpenedEnvelope P) := do
  let key ← mapErr (fun _ => .msgpackFailed) (channelAeadKey P c.seed kind name)
  let plaintext ← mapErr .ofCrypto (aeadUnseal P key (aeadAad kind name) sealed)
  ensure (plaintext.length ≤ c.maxPlaintextBytes) .msgpackFailed
  let inner ← okOr .msgpackFailed (rmp.decode plaintext)
  let signedBy ← verifyInner P kind name inner c.trusted
  return ⟨inner.payload, inner.version, signedBy⟩

def signedInnerFormat : Format SignedInner :=
  (Msgpack.record 4 ((Msgpack.field "payload" Msgpack.bytes).pair
    ((Msgpack.field "version" (Msgpack.option Msgpack.u64 Msgpack.notNil_u64)).pair
    ((Msgpack.field "signer" (Msgpack.option (Msgpack.block 32) (Msgpack.notNil_block 32))).pair
    (Msgpack.field "signature" (Msgpack.option Msgpack.bytes Msgpack.notNil_bytes)))))).imap
    (fun i => (i.payload, i.version, i.signer, i.signature))
    (fun p => some ⟨p.1, p.2.1, p.2.2.1, p.2.2.2⟩) (fun _ => rfl)

def signedInnerLen (i : SignedInner) : ℕ :=
  1 + (8 + Msgpack.bytesLen i.payload + (8 + i.version.elim 1 Msgpack.u64Len +
    (7 + i.signer.elim 1 (fun v => Msgpack.bytesLen v.toList) +
    (10 + i.signature.elim 1 Msgpack.bytesLen))))

lemma measures_signedInner : signedInnerFormat.Measures signedInnerLen := by
 have h:=measures_record 4
  ((measures_field "payload" measures_bytes).pair
  ((measures_field "version" (measures_option measures_u64 notNil_u64)).pair
  ((measures_field "signer" (measures_option (measures_block 32) (notNil_block 32))).pair
  (measures_field "signature" (measures_option measures_bytes notNil_bytes)))))
 exact h.imap _

section Trust

variable {sender : Coordinator P} {trusted : List (VerifyingKey P)}

def Accepts (trusted : List (VerifyingKey P)) (sender : Coordinator P) : Prop :=
  trusted = [] ∨ ∃ sk, sender.signing = some sk ∧ P.verifyingKey sk ∈ trusted

lemma verifyInner_signedInner (hP : P.Lawful) (h : Accepts trusted sender) (kind : ChannelKind)
    (name payload : Bytes) (version : Option UInt64) :
    verifyInner P kind name (sender.signedInner kind name payload version) trusted =
      .ok (sender.signing.map P.verifyingKey) := by
 cases hs : sender.signing with
 | none =>
  have ht : trusted = [] := by
   rcases h with h|⟨sk,hsk,_⟩
   · exact h
   · rw [hs] at hsk
     cases hsk
  simp only [verifyInner,signedInner,hs,Option.map_none,ht,isEmpty_nil,if_true]
  rfl
 | some sk =>
  have hf : VerifyingKey.fromBytes P (P.verifyingKey sk).val = some (P.verifyingKey sk) :=
   VerifyingKey.fromBytes_toBytes _
  have htr : (trusted.isEmpty || trusted.any fun k=>
    k.toBytes == VerifyingKey.toBytes (P.verifyingKey sk)) = true := by
   rcases h with h|⟨sk',hs',hm⟩
   · rw [h]
     rfl
   · rw [hs,Option.some.injEq] at hs'
     subst hs'
     rw [Bool.or_eq_true,any_eq_true]
     exact .inr ⟨_,hm,beq_self_eq_true _⟩
  have hv:=hP.verify_sign sk (signaturePreimage kind name payload version)
  simp only [verifyInner,signedInner,hs,Option.map_some,hf,okOr_some,toBlock_toList,ok_bind]
  change (ensure (P.verify (P.verifyingKey sk).val _ (P.sign sk _)) _ >>= fun _=>_) = _
  rw [hv,ensure_true,htr]
  rfl

lemma openSealed_sealPayload (hP : P.Lawful) {receiver : Coordinator P}
    (hsd : receiver.seed = sender.seed) (h : Accepts receiver.trusted sender) {nonce : Nonce}
    {kind : ChannelKind} {name payload sealed : Bytes} {version : Option UInt64}
    (hs : sender.sealPayload rmp nonce kind name payload version = .ok sealed) :
    ∃ plaintext, rmp.encode (sender.signedInner kind name payload version) = some plaintext ∧
      receiver.openSealed rmp kind name sealed = if plaintext.length ≤ receiver.maxPlaintextBytes then
          .ok ⟨payload, version, sender.signing.map P.verifyingKey⟩ else fail .msgpackFailed := by
 simp only [sealPayload,bind_eq_ok,okOr_eq_ok,mapErr_eq_ok,expect_eq_ok] at hs
 obtain ⟨plaintext,hp,key,hk,hse⟩:=hs
 refine ⟨plaintext,hp,?_⟩
 simp only [openSealed,hsd,hk,mapErr_ok,ok_bind,aeadUnseal_aeadSeal hP hse,
  rmp.decode_encode hp,okOr_some,verifyInner_signedInner hP h]
 by_cases hl : plaintext.length ≤ receiver.maxPlaintextBytes
 · rw [decide_eq_true hl,if_pos hl]
   rfl
 · rw [decide_eq_false hl,if_neg hl]
   rfl

end Trust

/-- What was sealed is readable exactly when its encoding is within the receiver's limit. -/
theorem sent_readable_iff (hP : P.Lawful)
    (hrmp : ∀ i b, rmp.encode i = some b → signedInnerFormat.encode i = some b)
    (sender receiver : Coordinator P) (hseed : receiver.seed = sender.seed)
    (hlimit : receiver.maxPlaintextBytes = sender.maxPlaintextBytes)
    (htrust : Accepts receiver.trusted sender) (nonce : Nonce) (kind : ChannelKind)
    (name payload sealed : Bytes) (version : Option UInt64)
    (hs : sender.sealPayload rmp nonce kind name payload version = .ok sealed) :
    receiver.openSealed rmp kind name sealed = .ok ⟨payload, version, sender.signing.map P.verifyingKey⟩ ↔
      signedInnerLen (sender.signedInner kind name payload version) ≤ sender.maxPlaintextBytes := by
 obtain ⟨plaintext,hp,hopen⟩:=openSealed_sealPayload rmp hP hseed htrust hs
 rw [hopen,← measures_signedInner _ _ (hrmp _ _ hp),hlimit]
 split
 · rename_i hl
   exact ⟨fun _=>hl,fun _=>rfl⟩
 · rename_i hl
   exact ⟨(nomatch ·),fun h=>absurd h hl⟩

def plainCoordinator (maxPlaintextBytes : ℕ) : Coordinator plainPrimitives :=
  ⟨zero32, [.http], none, [], 256, maxPlaintextBytes⟩

def zeroNonce : Nonce := List.Vector.replicate 24 0

lemma unsigned_encode_isSome {bs : Bytes} (h : bs.length < 2^32) :
    (signedInnerFormat.encode ⟨bs, none, none, none⟩).isSome :=
 record_isSome 4 (Format.pair_isSome (field_isSome _ (bytes_encode_isSome h)) rfl)

theorem sent_readable_small : ∃ sealed,
    (plainCoordinator 48).sealPayload signedInnerFormat.codec zeroNonce .mailbox (ascii "m")
      (ascii "hi") none = .ok sealed ∧
    ((plainCoordinator 48).openSealed signedInnerFormat.codec .mailbox (ascii "m") sealed =
        .ok ⟨ascii "hi", none, none⟩ ↔
      signedInnerLen ((plainCoordinator 48).signedInner .mailbox (ascii "m") (ascii "hi") none) ≤ 48) :=
 ⟨_,rfl,sent_readable_iff signedInnerFormat.codec plainPrimitives_lawful (fun _ _ h=>h)
  (plainCoordinator 48) (plainCoordinator 48) rfl rfl (.inl rfl) zeroNonce .mailbox (ascii "m")
  (ascii "hi") _ none rfl⟩

lemma unreadable_of_long {max : ℕ} {bs : Bytes} (h : bs.length < 2^32) (hl : max ≤ bs.length) :
    ∃ sealed, (plainCoordinator max).sealPayload signedInnerFormat.codec zeroNonce .mailbox (ascii "m") bs
        none = .ok sealed ∧
      (plainCoordinator max).openSealed signedInnerFormat.codec .mailbox (ascii "m") sealed =
        fail .msgpackFailed := by
 obtain ⟨plaintext,hp⟩:=Option.isSome_iff_exists.mp (unsigned_encode_isSome h)
 have hs : (plainCoordinator max).sealPayload signedInnerFormat.codec zeroNonce .mailbox
   (ascii "m") bs none = .ok (zeroNonce.toList ++ (plaintext ++ plainTag zero32 (aeadAad .mailbox (ascii "m")))) := by
  simp only [sealPayload,Format.codec,signedInner,plainCoordinator,Option.map_none,hp,okOr_some,ok_bind]
  rfl
 obtain ⟨p,he,hopen⟩:=openSealed_sealPayload signedInnerFormat.codec
  plainPrimitives_lawful rfl (.inl rfl) hs
 have hle : p.length = signedInnerLen ⟨bs,none,none,none⟩ := measures_signedInner _ _ he
 refine ⟨_,hs,hopen.trans (if_neg ?_)⟩
 have hb:=length_le_bytesLen bs
 change ¬ p.length ≤ max
 rw [hle]
 simp only [signedInnerLen]
 omega

/-- With the default limit, a payload of that many bytes cannot be opened. -/
theorem sent_unreadable_default : ∃ sealed,
    (plainCoordinator defaultMaxPlaintextBytes).sealPayload signedInnerFormat.codec zeroNonce
      .mailbox (ascii "m") (List.replicate 65536 0) none = .ok sealed ∧
    (plainCoordinator defaultMaxPlaintextBytes).openSealed signedInnerFormat.codec .mailbox
      (ascii "m") sealed = fail .msgpackFailed := by
 have hl : ∀ n, (replicate n (0 : UInt8)).length = n := fun _=>length_replicate
 exact unreadable_of_long ((hl _).trans_lt (by decide)) (hl _).ge

end Coordinator
end Enlace
