import Enlace.Pkarr.SignedPacket
import Enlace.Pkarr.DnsRoundTrip

set_option autoImplicit false

/-! Signed packets as bytes: what is parsed is what the bytes say, and which packets survive the wire. -/
namespace Enlace.Pkarr
open ByteString Unicode List Fallible SignedPacket SignedPacketBuilder PublicKey

/-! ### Timestamps -/

variable {builder : SignedPacketBuilder} {lastSeen now timestamp : ℤ}

lemma checkTimestamp_eq_ok {result : ℤ} {shown : Text} :
    checkTimestamp timestamp shown = .ok result ↔ (0 ≤ timestamp ∧ timestamp < 2^64) ∧ timestamp = result := by
 rw [checkTimestamp,checked_eq_ok,rangeErrorIf_eq_ok]
 refine and_congr_left fun _=>?_
 omega

lemma writeU64_eq_ok {value : ℤ} {bytes : Bytes} :
    writeU64 value = .ok bytes ↔ (0 ≤ value ∧ value < 2^64) ∧ beBytes timestampBytes value.toNat = bytes := by
 rw [writeU64,bind_eq_ok]
 constructor
 · rintro ⟨rest,hrest,hb⟩
   obtain ⟨hr,rfl⟩:=checkTimestamp_eq_ok.mp hrest
   exact ⟨hr,pure_eq_ok.mp hb⟩
 · rintro ⟨hr,rfl⟩
   exact ⟨value,checkTimestamp_eq_ok.mpr ⟨hr,rfl⟩,rfl⟩

lemma ofBeBytes_writeU64 {value : ℤ} (h : 0 ≤ value ∧ value < 2^64) :
    (ofBeBytes (beBytes timestampBytes value.toNat) : ℤ) = value := by
 have hlt : value.toNat < 256^timestampBytes := by
  rw [timestampBytes]
  omega
 rw [ofBeBytes_beBytes_of_lt _ _ hlt,Int.toNat_of_nonneg h.1]

lemma readU64_append (before : Bytes) {value rest : Bytes} (h : value.length = timestampBytes) :
    readU64 (before ++ (value ++ rest)) before.length = .ok (ofBeBytes value : ℤ) := by
 have hin : ¬ (before ++ (value ++ rest)).length < before.length+timestampBytes := by
  rw [length_append,length_append]
  omega
 rw [readU64,rangeErrorIf,if_neg hin,drop_left,← h,take_left]
 rfl

lemma readU64_eq_ok {bytes : Bytes} {offset : ℕ} {value : ℤ} (h : readU64 bytes offset = .ok value) :
    offset + timestampBytes ≤ bytes.length ∧ (0 ≤ value ∧ value < 2^64) ∧
      beBytes timestampBytes value.toNat = (bytes.drop offset).take timestampBytes := by
 obtain ⟨hin,rfl⟩:=checked_eq_ok.mp h
 have hl:=Nat.le_of_not_lt (rangeErrorIf_eq_ok.mp hin)
 have ht : ((bytes.drop offset).take timestampBytes).length = timestampBytes := by
  rw [length_take,length_drop]
  omega
 have hlt:=ofBeBytes_lt ((bytes.drop offset).take timestampBytes)
 have hb:=beBytes_ofBeBytes ((bytes.drop offset).take timestampBytes)
 rw [ht] at hlt hb
 refine ⟨hl,⟨Int.natCast_nonneg _,?_⟩,?_⟩
 · exact_mod_cast hlt
 · rw [Int.toNat_natCast,hb]

/-! ### Packets -/

namespace SignedPacket

variable {ed : Ed25519}

lemma ext {p q : SignedPacket ed} (hk : p.publicKey = q.publicKey) (hs : p.signature = q.signature)
    (ht : p.timestamp = q.timestamp) (hp : p.encodedPacket = q.encodedPacket)
    (hse : p.lastSeen = q.lastSeen) : p = q := by
 have hr : p.records = q.records := Except.ok.inj (by rw [← p.parsed,← q.parsed,hp])
 cases p
 cases q
 cases hk
 cases hs
 cases ht
 cases hp
 cases hse
 cases hr
 rfl

variable {p : SignedPacket ed}

lemma fromParts_eq_ok {pk : PublicKey ed} {signature encodedPacket : Bytes} :
    fromParts pk signature timestamp encodedPacket lastSeen = .ok p ↔
      p.publicKey = pk ∧ p.signature = signature ∧ p.timestamp = timestamp ∧ p.encodedPacket = encodedPacket ∧
        p.lastSeen = lastSeen := by
 constructor
 · intro h
   unfold fromParts at h
   split_ifs at h with hs hl
   split at h
   · rw [← Except.ok.inj h]
     exact ⟨rfl,rfl,rfl,rfl,rfl⟩
   · cases h
 · rintro ⟨rfl,rfl,rfl,rfl,rfl⟩
   unfold fromParts
   rw [dif_pos p.signature_length,dif_pos p.encodedPacket_length]
   split
   · exact congrArg Except.ok (ext rfl rfl rfl rfl rfl)
   · rename_i heq
     rw [p.parsed] at heq
     cases heq

variable {payload : Bytes}

lemma toRelayPayload_eq_ok : p.toRelayPayload = .ok payload ↔ (0 ≤ p.timestamp ∧ p.timestamp < 2^64) ∧
      p.signature ++ (beBytes timestampBytes p.timestamp.toNat ++ p.encodedPacket) = payload := by
 rw [toRelayPayload,bind_eq_ok]
 constructor
 · rintro ⟨timestamp,ht,hp⟩
   obtain ⟨hr,rfl⟩:=writeU64_eq_ok.mp ht
   rw [pure_eq_ok,append_assoc] at hp
   exact ⟨hr,hp⟩
 · rintro ⟨hr,rfl⟩
   exact ⟨_,writeU64_eq_ok.mpr ⟨hr,rfl⟩,congrArg Except.ok (append_assoc _ _ _)⟩

variable {bytes : Bytes}

lemma asBytes_eq_ok : p.asBytes = .ok bytes ↔
    ∃ payload, p.toRelayPayload = .ok payload ∧ p.publicKey.toBytes ++ payload = bytes := by
 rw [asBytes,bind_eq_ok]
 constructor
 · rintro ⟨timestamp,ht,hb⟩
   obtain ⟨hr,rfl⟩:=writeU64_eq_ok.mp ht
   rw [pure_eq_ok,append_assoc,append_assoc] at hb
   exact ⟨_,toRelayPayload_eq_ok.mpr ⟨hr,rfl⟩,hb⟩
 · rintro ⟨payload,hp,rfl⟩
   obtain ⟨hr,rfl⟩:=toRelayPayload_eq_ok.mp hp
   refine ⟨_,writeU64_eq_ok.mpr ⟨hr,rfl⟩,pure_eq_ok.mpr ?_⟩
   rw [append_assoc,append_assoc]

lemma length_toRelayPayload (h : p.toRelayPayload = .ok payload) :
    72 ≤ payload.length ∧ payload.length ≤ relayPayloadMaxBytes := by
 obtain ⟨_,rfl⟩:=toRelayPayload_eq_ok.mp h
 have hs:=p.signature_length
 have hp:=p.encodedPacket_length
 rw [signatureBytes] at hs
 rw [dnsPacketMaxBytes] at hp
 rw [length_append,length_append,beBytes_length,timestampBytes,relayPayloadMaxBytes]
 omega

lemma parseBytes_eq_ok : parseBytes ed bytes lastSeen = .ok p ↔ p.asBytes = .ok bytes ∧ p.lastSeen = lastSeen := by
 constructor
 · intro h
   obtain ⟨_,hm,h⟩:=bind_eq_ok.mp h
   obtain ⟨_,_,h⟩:=bind_eq_ok.mp h
   obtain ⟨pk,hke,h⟩:=bind_eq_ok.mp h
   obtain ⟨timestamp,ht,h⟩:=bind_eq_ok.mp h
   have hke:=fromBytes_eq_ok.mp hke
   obtain ⟨_,hr,hw⟩:=readU64_eq_ok ht
   obtain ⟨rfl,hs,rfl,hpa,rfl⟩:=fromParts_eq_ok.mp h
   refine ⟨asBytes_eq_ok.mpr ⟨_,toRelayPayload_eq_ok.mpr ⟨hr,rfl⟩,?_⟩,rfl⟩
   have hrest : bytes.drop signedPacketHeaderBytes =
     ((bytes.drop publicKeyBytes).drop signatureBytes).drop timestampBytes := by
    rw [drop_drop,drop_drop]
    rfl
   rw [hke,hs,hw,hpa,hrest,← drop_drop,take_append_drop,take_append_drop,take_append_drop]
 · rintro ⟨hb,rfl⟩
   obtain ⟨payload,hpd,hp⟩:=asBytes_eq_ok.mp hb
   obtain ⟨hm,hmax⟩:=length_toRelayPayload hpd
   obtain ⟨hr,rfl⟩:=toRelayPayload_eq_ok.mp hpd
   have hke:=p.publicKey.length
   have hs:=p.signature_length
   rw [relayPayloadMaxBytes] at hmax
   have hre : readU64 bytes (publicKeyBytes+signatureBytes) = .ok p.timestamp := by
    rw [← hp,← hke,← hs,← length_append,← append_assoc,readU64_append _ (beBytes_length _ _),ofBeBytes_writeU64 hr]
   have hh : (p.publicKey.toBytes ++ p.signature ++ beBytes timestampBytes p.timestamp.toNat).length =
     signedPacketHeaderBytes := by
    rw [length_append,length_append,hke,hs]
    rfl
   have hpa : bytes.drop signedPacketHeaderBytes = p.encodedPacket := by
    rw [← hp,← hh,← append_assoc,← append_assoc,drop_left]
   have hsi : (bytes.drop publicKeyBytes).take signatureBytes = p.signature := by
    rw [← hp,← hke,drop_left,← hs,take_left]
   have hk : bytes.take publicKeyBytes = p.publicKey.toBytes := by
    rw [← hp,← hke,take_left]
   have hl:=congrArg length hp
   rw [length_append,hke,publicKeyBytes] at hl
   have hsh : ¬ bytes.length < signedPacketHeaderBytes := by
    change ¬ bytes.length < 104
    omega
   have hlo : ¬ bytes.length > signedPacketMaxBytes := by
    rw [signedPacketMaxBytes]
    omega
   rw [parseBytes,rangeErrorIf,if_neg hsh,rangeErrorIf,if_neg hlo,hk,fromBytes_eq_ok.mpr rfl,hre,hsi,hpa]
   exact fromParts_eq_ok.mpr ⟨rfl,rfl,rfl,rfl,rfl⟩

def Verified (p : SignedPacket ed) : Prop :=
  ed.verify p.signature (signableBytes p.timestamp p.encodedPacket) p.publicKey.toBytes = true

lemma verify_eq (p : SignedPacket ed) (msg : Bytes) :
    p.publicKey.verify msg p.signature = .ok (ed.verify p.signature msg p.publicKey.toBytes) := by
 rw [verify,requireLength,rangeErrorIf,if_neg (not_not.mpr p.signature_length)]
 rfl

lemma fromBytes_eq_ok : fromBytes ed bytes now = .ok p ↔ p.asBytes = .ok bytes ∧ p.lastSeen = now ∧ p.Verified := by
 have hc : ∀ q : SignedPacket ed, (do
   let ok ← q.publicKey.verify (signableBytes q.timestamp q.encodedPacket) q.signature
   errorIf (ok = false) (literal "invalid SignedPacket signature")
   return q : Outcome (SignedPacket ed)) = .ok p ↔ q.Verified ∧ q = p := by
  intro q
  rw [verify_eq,ok_bind,checked_eq_ok,errorIf_eq_ok,Bool.not_eq_false]
  exact Iff.rfl
 rw [fromBytes,bind_eq_ok]
 constructor
 · rintro ⟨q,hq,hrest⟩
   obtain ⟨hv,rfl⟩:=(hc q).mp hrest
   obtain ⟨hb,hs⟩:=parseBytes_eq_ok.mp hq
   exact ⟨hb,hs,hv⟩
 · rintro ⟨hb,hs,hv⟩
   exact ⟨p,parseBytes_eq_ok.mpr ⟨hb,hs⟩,(hc p).mpr ⟨hv,rfl⟩⟩

lemma fromRelayPayload_eq_ok {pk : PublicKey ed} : fromRelayPayload pk payload now = .ok p ↔
      p.publicKey = pk ∧ p.toRelayPayload = .ok payload ∧ p.lastSeen = now ∧ p.Verified := by
 rw [fromRelayPayload,bind_eq_ok]
 constructor
 · rintro ⟨_,_,hb⟩
   obtain ⟨hb,hs,hv⟩:=fromBytes_eq_ok.mp hb
   obtain ⟨own,ho,ha⟩:=asBytes_eq_ok.mp hb
   obtain ⟨hk,rfl⟩:=append_inj ha (by rw [p.publicKey.length,pk.length])
   exact ⟨PublicKey.ext hk,ho,hs,hv⟩
 · rintro ⟨rfl,hp,hs,hv⟩
   have hl : ¬ payload.length > relayPayloadMaxBytes := Nat.not_lt_of_le (length_toRelayPayload hp).2
   exact ⟨(),rangeErrorIf_eq_ok.mpr hl,fromBytes_eq_ok.mpr ⟨asBytes_eq_ok.mpr ⟨payload,hp,rfl⟩,hs,hv⟩⟩

lemma serialize_eq_ok : p.serialize = .ok bytes ↔ (0 ≤ p.lastSeen ∧ p.lastSeen < 2^64) ∧
      ∃ own, p.asBytes = .ok own ∧ beBytes timestampBytes p.lastSeen.toNat ++ own = bytes := by
 rw [serialize,bind_eq_ok]
 constructor
 · rintro ⟨seen,hs,hrest⟩
   obtain ⟨hr,rfl⟩:=writeU64_eq_ok.mp hs
   obtain ⟨own,ho,hb⟩:=bind_eq_ok.mp hrest
   exact ⟨hr,own,ho,pure_eq_ok.mp hb⟩
 · rintro ⟨hr,own,ho,rfl⟩
   exact ⟨_,writeU64_eq_ok.mpr ⟨hr,rfl⟩,bind_eq_ok.mpr ⟨own,ho,rfl⟩⟩

lemma exists_asBytes : (∃ bytes, p.asBytes = .ok bytes) ↔ 0 ≤ p.timestamp ∧ p.timestamp < 2^64 := by
 constructor
 · rintro ⟨bytes,hb⟩
   obtain ⟨payload,hp,_⟩:=asBytes_eq_ok.mp hb
   exact (toRelayPayload_eq_ok.mp hp).1
 · exact fun hr=>⟨_,asBytes_eq_ok.mpr ⟨_,toRelayPayload_eq_ok.mpr ⟨hr,rfl⟩,rfl⟩⟩

def seenAt (lastSeen now : ℤ) : ℤ := if lastSeen > now + 60000000 then 0 else lastSeen

lemma deserialize_serialize (h : p.serialize = .ok bytes) (now : ℤ) :
    deserialize ed bytes now = .ok { p with lastSeen := seenAt p.lastSeen now } := by
 obtain ⟨hr,own,ho,rfl⟩:=serialize_eq_ok.mp h
 obtain ⟨payload,hp,rfl⟩:=asBytes_eq_ok.mp ho
 obtain ⟨hm,_⟩:=length_toRelayPayload hp
 have hs : ¬ (beBytes timestampBytes p.lastSeen.toNat ++ (p.publicKey.toBytes ++ payload)).length <
   timestampBytes+signedPacketHeaderBytes := by
  rw [length_append,length_append,p.publicKey.length]
  change ¬ 8+(32+payload.length) < 8+104
  omega
 have hre : readU64 (beBytes timestampBytes p.lastSeen.toNat ++ (p.publicKey.toBytes ++ payload)) 0 = .ok p.lastSeen :=
  (readU64_append [] (beBytes_length _ _)).trans (congrArg Except.ok (ofBeBytes_writeU64 hr))
 have hd : (beBytes timestampBytes p.lastSeen.toNat ++ (p.publicKey.toBytes ++ payload)).drop timestampBytes =
   p.publicKey.toBytes ++ payload := by
  rw [drop_left' (beBytes_length _ _)]
 rw [deserialize,rangeErrorIf,if_neg hs,hre]
 exact parseBytes_eq_ok.mpr ⟨ho,rfl⟩

end SignedPacket

lemma compareBytes_eq_zero {left right : Bytes} : compareBytes left right = 0 ↔ left = right := by
 fun_induction compareBytes left right with
 | case1 a left b right hne =>
  refine ⟨fun h=>absurd h hne,fun h=>?_⟩
  obtain ⟨rfl,_⟩:=cons.inj h
  exact sub_self _
 | case2 a left b right heq ih =>
  have hb : a = b := UInt8.toNat_inj.mp (by omega)
  rw [ih,hb]
  exact ⟨congrArg _,fun h=>(cons.inj h).2⟩
 | case3 left right hc =>
  constructor
  · intro h
    cases left with
    | nil =>
     rw [length_nil] at h
     exact (length_eq_zero_iff.mp (by omega)).symm
    | cons a left =>
     cases right with
     | nil =>
      rw [length_nil,length_cons] at h
      omega
     | cons b right => exact absurd rfl (hc a left b right rfl)
  · rintro rfl
    exact sub_self _

/-! ### What the wire does to a signed packet -/

def IsReading (now : ℤ) : Prop := 0 ≤ now ∧ now < 2^64

namespace SignedPacketBuilder

def create (records : List DnsRecord) : Option TimestampInput → Outcome SignedPacketBuilder
  | none => .ok ⟨records, none⟩
  | some timestamp => setTimestamp timestamp ⟨records, none⟩

def SinceEpoch : Option TimestampInput → Prop
  | some (.date (some date)) => 0 ≤ date.time
  | _ => True

lemma timestamp_create {records : List DnsRecord} {input : Option TimestampInput}
    (h : create records input = .ok builder) (hn : IsReading now) :
    builder.timestamp.getD now < 2^64 ∧ (0 ≤ builder.timestamp.getD now ↔ SinceEpoch input) := by
 have hc : ∀ {value : ℤ} {shown : Text} {result : ℤ}, checkTimestamp value shown = .ok result →
   result < 2^64 ∧ (0 ≤ result ↔ True) := by
  intro value shown result hre
  obtain ⟨hr,rfl⟩:=checkTimestamp_eq_ok.mp hre
  exact ⟨hr.2,iff_true_intro hr.1⟩
 cases input with
 | none =>
  cases h
  exact ⟨hn.2,iff_true_intro hn.1⟩
 | some timestamp =>
  obtain ⟨micros,hm,hb⟩:=bind_eq_ok.mp h
  cases hb
  rcases timestamp with value|⟨integer,shown⟩|date
  · exact hc hm
  · cases integer with
    | none => cases hm
    | some value => exact hc hm
  · cases date with
    | none => cases hm
    | some date =>
     cases hm
     have hu:=date.upper
     refine ⟨?_,?_⟩
     · change date.time*1000 < 2^64
       omega
     · change 0 ≤ date.time*1000 ↔ 0 ≤ date.time
       omega

variable {ed : Ed25519}

lemma sign_eq_ok {keypair : Keypair ed} {signed : ℤ} {p : SignedPacket ed}
    (hed : ed.Correct) (h : builder.sign keypair now signed = .ok p) :
    p.publicKey = keypair.publicKey ∧ p.timestamp = builder.timestamp.getD now ∧ p.lastSeen = signed ∧ p.Verified ∧
      encodeDnsResponse keypair.publicKey.toZ32 builder.records = .ok p.encodedPacket := by
 obtain ⟨encodedPacket,he,hp⟩:=bind_eq_ok.mp h
 obtain ⟨hk,hs,ht,rfl,hse⟩:=fromParts_eq_ok.mp hp
 refine ⟨hk,ht,hse,?_,he⟩
 unfold SignedPacket.Verified
 rw [hs,ht,hk,keypair.derived]
 exact hed.verify_sign _ _ keypair.length

/-- A signed packet survives the wire exactly if its timestamp was not given as a date before the epoch. -/
theorem sign_survives_iff (hed : ed.Correct) {records : List DnsRecord} {input : Option TimestampInput}
    {builder : SignedPacketBuilder} (hbuilder : create records input = .ok builder) {keypair : Keypair ed}
    {now signed : ℤ}
    (hnow : IsReading now) (hsigned : IsReading signed) {p : SignedPacket ed}
    (hsign : builder.sign keypair now signed = .ok p) :
    ((∀ later, ∃ bytes q, p.asBytes = .ok bytes ∧ SignedPacket.fromBytes ed bytes later = .ok q ∧
        q.isSameAs p = .ok true ∧ q.timestamp = p.timestamp ∧ q.records = p.records) ∧
      (∀ later, ∃ payload q, p.toRelayPayload = .ok payload ∧
        SignedPacket.fromRelayPayload p.publicKey payload later = .ok q ∧
        q.isSameAs p = .ok true ∧ q.timestamp = p.timestamp ∧ q.records = p.records) ∧
      (∀ later, p.lastSeen ≤ later → ∃ bytes, p.serialize = .ok bytes ∧
        SignedPacket.deserialize ed bytes later = .ok p)) ↔ SinceEpoch input := by
 obtain ⟨_,ht,hse,hv,_⟩:=sign_eq_ok hed hsign
 obtain ⟨hmax,hm⟩:=timestamp_create hbuilder hnow
 rw [← ht] at hmax hm
 rw [← hm]
 constructor
 · rintro ⟨hb,_,_⟩
   obtain ⟨bytes,_,hb,_⟩:=hb 0
   exact (exists_asBytes.mp ⟨bytes,hb⟩).1
 · intro hpo
   obtain ⟨bytes,hb⟩:=exists_asBytes.mpr ⟨hpo,hmax⟩
   obtain ⟨payload,hp,_⟩:=asBytes_eq_ok.mp hb
   have hsa : ∀ later, isSameAs { p with lastSeen := later } p = .ok true := by
    intro later
    have ho : asBytes { p with lastSeen := later } = .ok bytes := hb
    rw [isSameAs,ho,ok_bind,hb,ok_bind,compareBytes_eq_zero.mpr rfl]
    rfl
   refine ⟨fun later=>?_,fun later=>?_,fun later hl=>?_⟩
   · exact ⟨bytes,{ p with lastSeen := later },hb,fromBytes_eq_ok.mpr ⟨hb,rfl,hv⟩,hsa later,rfl,rfl⟩
   · exact ⟨payload,{ p with lastSeen := later },hp,fromRelayPayload_eq_ok.mpr ⟨rfl,hp,rfl,hv⟩,hsa later,rfl,rfl⟩
   · have hs:=serialize_eq_ok.mpr ⟨hse ▸ hsigned,bytes,hb,rfl⟩
     refine ⟨_,hs,?_⟩
     have hk : seenAt p.lastSeen later = p.lastSeen := if_neg (by omega)
     rw [deserialize_serialize hs,hk]

lemma plainScheme_correct : plainScheme.Correct where
 sign_length _ _ := beBytes_length _ _
 verify_sign _ _ _ := decide_eq_true rfl

def plainKeypair : Keypair plainScheme :=
  ⟨List.replicate 32 1, ⟨List.replicate 32 1, rfl, rfl⟩, rfl, rfl⟩

theorem sign_survives_now :
    ∃ p, (SignedPacketBuilder.mk [⟨literal "www", 30, .a (.text (literal "1.2.3.4"))⟩] none).sign plainKeypair 5 7 =
      .ok p ∧
      (∀ later, ∃ bytes q, p.asBytes = .ok bytes ∧ SignedPacket.fromBytes plainScheme bytes later = .ok q ∧
        q.isSameAs p = .ok true ∧ q.timestamp = p.timestamp ∧ q.records = p.records) ∧
      (∀ later, ∃ payload q, p.toRelayPayload = .ok payload ∧
        SignedPacket.fromRelayPayload p.publicKey payload later = .ok q ∧
        q.isSameAs p = .ok true ∧ q.timestamp = p.timestamp ∧ q.records = p.records) ∧
      (∀ later, p.lastSeen ≤ later → ∃ bytes, p.serialize = .ok bytes ∧
        SignedPacket.deserialize plainScheme bytes later = .ok p) := by
 refine exists_ok_and (P := fun _=>True) (by decide +kernel) fun p hs _=>?_
 have hc : create [⟨literal "www",30,.a (.text (literal "1.2.3.4"))⟩] none = .ok ⟨_,none⟩ := rfl
 exact (sign_survives_iff plainScheme_correct hc ⟨by decide,by decide⟩ ⟨by decide,by decide⟩ hs).mpr trivial

/-- A timestamp before the epoch is signed, and cannot be written. -/
theorem sign_before_epoch : ∃ builder p, create [] (some (.date (some ⟨-1, by decide, by decide⟩))) = .ok builder ∧
      builder.sign plainKeypair 5 7 = .ok p ∧
      p.asBytes = .error (.rangeError (literal "timestamp out of range: -1000")) ∧
      p.toRelayPayload = .error (.rangeError (literal "timestamp out of range: -1000")) ∧
      p.serialize = .error (.rangeError (literal "timestamp out of range: -1000")) :=
 ⟨_,Exists.imp (fun _ h=>⟨rfl,h⟩) (by decide +kernel)⟩

end SignedPacketBuilder

end Enlace.Pkarr
