import Enlace.Quic.Packet

set_option autoImplicit false

/-! Packet protection of `crypto.ts` and the short-header packets of `one-rtt.ts`, over the ciphers of the
library that they call. -/
namespace Enlace.Quic
open ByteString Fallible List Nat

/-- AES-128-GCM and a block of AES-128. -/
structure Ciphers where
  gcmEncrypt : Block 16 → Block 12 → Bytes → Bytes → Bytes
  gcmDecrypt : Block 16 → Block 12 → Bytes → Bytes → Option Bytes
  ecbEncrypt : Block 16 → Block 16 → Block 16

def quicAes128GcmTagLength : ℕ := 16

namespace Ciphers

variable (C : Ciphers)

def AddsTag : Prop := ∀ k n aad m, (C.gcmEncrypt k n aad m).length = m.length + quicAes128GcmTagLength

def Decrypts : Prop := ∀ k n aad m, C.gcmDecrypt k n aad (C.gcmEncrypt k n aad m) = some m

/-- With the same associated data a ciphertext is accepted under no nonce with another plaintext than its own: the tag
under another nonce differs by the encryption of another block. -/
def Authentic : Prop := ∀ k n n' aad m m', C.gcmDecrypt k n' aad (C.gcmEncrypt k n aad m) = some m' → m' = m

end Ciphers

structure QuicDirectionalKeys where
  packetKey : Block 16
  packetIv : Block 12
  headerProtectionKey : Block 16
  deriving DecidableEq

variable (C : Ciphers)

def quicPacketNonce (packetIv : Block 12) (packetNumber : ℕ) : Outcome (Block 12) := do
  let number ← quicPacketNumberToBigInt packetNumber
  return List.Vector.map₂ (· ^^^ ·) packetIv ⟨beBytes 12 number, beBytes_length 12 number⟩

def encryptQuicAes128GcmPacket (keys : QuicDirectionalKeys) (packetNumber : ℕ)
    (associatedData plaintext : Bytes) : Outcome Bytes := do
  let nonce ← quicPacketNonce keys.packetIv packetNumber
  return C.gcmEncrypt keys.packetKey nonce associatedData plaintext

def decryptQuicAes128GcmPacket (keys : QuicDirectionalKeys) (packetNumber : ℕ)
    (associatedData ciphertext : Bytes) : Outcome Bytes := do
  let nonce ← quicPacketNonce keys.packetIv packetNumber
  match C.gcmDecrypt keys.packetKey nonce associatedData ciphertext with
  | some plaintext => return plaintext
  | none => .error .cipher

def headerProtectionSample (packet : Bytes) (packetNumberOffset : ℕ) : Outcome (Block 16) :=
  match toBlock 16 (subarray packet (packetNumberOffset + 4) (packetNumberOffset + 4 + 16)) with
  | some sample => .ok sample
  | none => throwRange "not enough bytes for QUIC header protection sample"

/-- Of the block only the first five bytes are used: one for the first byte of the packet and one for
each byte of the packet number. -/
def createQuicHeaderProtectionMask (headerProtectionKey sample : Block 16) : Block 16 :=
  C.ecbEncrypt headerProtectionKey sample

def packetNumberMask (mask : Block 16) (packetNumberLength : ℕ) : Bytes :=
  (mask.toList.drop 1).take packetNumberLength

def xorAt (bytes : Bytes) (offset : ℕ) (mask : Bytes) : Bytes :=
  bytes.take offset ++ (List.zipWith (· ^^^ ·) (bytes.drop offset) mask ++ bytes.drop (offset + mask.length))

def packetNumberLengthOf (firstByte : UInt8) : ℕ := (firstByte &&& 0x03).toNat + 1

structure QuicHeaderProtectionResult where
  packet : Bytes
  firstByte : UInt8
  packetNumberLength : ℕ
  deriving DecidableEq

def removeQuicHeaderProtection (packet : Bytes) (packetNumberOffset : ℕ) (headerProtectionKey : Block 16) :
    Outcome QuicHeaderProtectionResult := do
  let sample ← headerProtectionSample packet packetNumberOffset
  let mask := createQuicHeaderProtectionMask C headerProtectionKey sample
  let protectedFirstByte ← readU8 packet 0
  let firstMask := if isLongHeader protectedFirstByte then 0x0f else 0x1f
  let firstByte := protectedFirstByte ^^^ (mask.head &&& firstMask)
  let packetNumberLength := packetNumberLengthOf firstByte
  throwIf (packet.length < packetNumberOffset + packetNumberLength) "not enough bytes for QUIC packet number"
  return ⟨xorAt (packet.set 0 firstByte) packetNumberOffset (packetNumberMask mask packetNumberLength),
    firstByte, packetNumberLength⟩

def applyQuicHeaderProtection (packet : Bytes) (packetNumberOffset : ℕ) (headerProtectionKey : Block 16)
    (firstByteMask : UInt8) : Outcome Bytes := do
  let sample ← headerProtectionSample packet packetNumberOffset
  let mask := createQuicHeaderProtectionMask C headerProtectionKey sample
  let firstByte ← readU8 packet 0
  let packetNumberLength := packetNumberLengthOf firstByte
  throwIf (packet.length < packetNumberOffset + packetNumberLength) "not enough bytes for QUIC packet number"
  return xorAt (packet.set 0 (firstByte ^^^ (mask.head &&& firstByteMask))) packetNumberOffset
    (packetNumberMask mask packetNumberLength)

def selectQuicOneRttPacketNumberLength (packetNumber : ℕ) : Outcome ℕ := do
  let value ← quicPacketNumberToBigInt packetNumber
  return if value ≤ 0xff then 1 else if value ≤ 0xffff then 2 else if value ≤ 0xffffff then 3 else 4

def shortHeaderFirstByte (packetNumberLength : ℕ) : UInt8 := UInt8.ofNat (0x40 ||| (packetNumberLength - 1))

def encryptQuicOneRttPacket (keys : QuicDirectionalKeys) (destinationConnectionId : Bytes)
    (packetNumber packetNumberLength : ℕ) (payload : Bytes) : Outcome Bytes := do
  throwIf (packetNumberLength < 1 ∨ packetNumberLength > 4) "QUIC packet number length out of range"
  let packetNumberBytes ← encodeQuicTruncatedPacketNumber packetNumber packetNumberLength
  let header := shortHeaderFirstByte packetNumberLength :: (destinationConnectionId ++ packetNumberBytes)
  let ciphertext ← encryptQuicAes128GcmPacket C keys packetNumber header payload
  applyQuicHeaderProtection C (header ++ ciphertext) (1 + destinationConnectionId.length)
    keys.headerProtectionKey 0x1f

structure QuicOneRttPacketHeaderPrefix where
  firstByte : UInt8
  destinationConnectionId : Bytes
  packetNumberOffset : ℕ
  deriving DecidableEq

structure QuicOneRttPacketHeader extends QuicOneRttPacketHeaderPrefix where
  packetNumberLength : ℕ
  packetNumber : ℕ
  payloadOffset : ℕ
  deriving DecidableEq

structure QuicOneRttPacketDecryptionResult where
  header : QuicOneRttPacketHeader
  packetNumber : ℕ
  payload : Bytes
  unprotectedPacket : Bytes
  endOffset : ℕ
  deriving DecidableEq

def parseQuicOneRttPacketHeaderPrefix (bytes : Bytes) (destinationConnectionIdLength offset : ℕ) :
    Outcome QuicOneRttPacketHeaderPrefix := do
  throwIf (destinationConnectionIdLength > maxSafeInteger) "QUIC destination connection id length out of range"
  let firstByte ← readU8 bytes offset
  throwIf (isLongHeader firstByte = true) "QUIC packet is not short header"
  throwIf (fixedBit firstByte = false) "QUIC fixed bit is not set"
  let packetNumberOffset := offset + 1 + destinationConnectionIdLength
  throwIf (bytes.length < packetNumberOffset) "not enough bytes for QUIC 1-RTT destination connection id"
  return ⟨firstByte, subarray bytes (offset + 1) packetNumberOffset, packetNumberOffset⟩

def parseQuicOneRttPacketHeader (bytes : Bytes) (destinationConnectionIdLength offset : ℕ) :
    Outcome QuicOneRttPacketHeader := do
  let front ← parseQuicOneRttPacketHeaderPrefix bytes destinationConnectionIdLength offset
  let packetNumberLength := packetNumberLengthOf front.firstByte
  let packetNumber ← readQuicPacketNumber bytes front.packetNumberOffset packetNumberLength
  return ⟨front, packetNumberLength, packetNumber, front.packetNumberOffset + packetNumberLength⟩

def packetNumberOf (header : QuicOneRttPacketHeader) : Option ℕ → Outcome ℕ
  | none => .ok header.packetNumber
  | some expectedPacketNumber =>
    recoverQuicPacketNumber header.packetNumber header.packetNumberLength expectedPacketNumber

def decryptQuicOneRttPacket (packet : Bytes) (keys : QuicDirectionalKeys)
    (destinationConnectionIdLength offset : ℕ) (expectedPacketNumber : Option ℕ) :
    Outcome QuicOneRttPacketDecryptionResult := do
  let front ← parseQuicOneRttPacketHeaderPrefix packet destinationConnectionIdLength offset
  let protection ← removeQuicHeaderProtection C (packet.drop offset) (front.packetNumberOffset - offset)
    keys.headerProtectionKey
  let header ← parseQuicOneRttPacketHeader protection.packet destinationConnectionIdLength 0
  let packetNumber ← packetNumberOf header expectedPacketNumber
  let payload ← decryptQuicAes128GcmPacket C keys packetNumber (subarray protection.packet 0 header.payloadOffset)
    (protection.packet.drop header.payloadOffset)
  return ⟨header, packetNumber, payload, protection.packet, packet.length⟩

structure QuicOneRttPacketReceiveResult extends QuicOneRttPacketDecryptionResult where
  largestReceivedPacketNumber : ℕ
  deriving DecidableEq

def receiveQuicOneRttPacket (packet : Bytes) (keys : QuicDirectionalKeys) (destinationConnectionIdLength : ℕ)
    (largestReceivedPacketNumber : Option ℕ) (offset : ℕ) : Outcome QuicOneRttPacketReceiveResult := do
  let expectedPacketNumber ← nextExpectedQuicPacketNumber largestReceivedPacketNumber
  let result ← decryptQuicOneRttPacket C packet keys destinationConnectionIdLength offset
    (some expectedPacketNumber)
  let largest ← updateLargestReceivedQuicPacketNumber largestReceivedPacketNumber result.packetNumber
  return ⟨result, largest⟩

lemma xorAt_append (a b c mask : Bytes) (h : mask.length = b.length) :
    xorAt (a ++ (b ++ c)) a.length mask = a ++ (zipWith (· ^^^ ·) b mask ++ c) := by
 have hz : zipWith (· ^^^ ·) (b ++ c) mask = zipWith (· ^^^ ·) b mask := by
  rw [← append_nil mask,zipWith_append h.symm,zipWith_nil_right,append_nil,append_nil]
 rw [xorAt,take_left,drop_left,hz,h,← drop_drop,drop_left,drop_left]

lemma zipWith_xor_xor {b mask : Bytes} (h : b.length ≤ mask.length) :
    zipWith (· ^^^ ·) (zipWith (· ^^^ ·) b mask) mask = b := by
 induction b generalizing mask with
 | nil => rfl
 | cons x b ih =>
  cases mask with
  | nil => simp at h
  | cons y mask =>
   rw [zipWith_cons_cons,zipWith_cons_cons,ih (by simpa using h),UInt8.xor_assoc, UInt8.xor_self,UInt8.xor_zero]

lemma xor_mask_and {bit : UInt8} (hb : (0x1f : UInt8).toNat &&& bit.toNat = 0) (first m : UInt8) :
    (first ^^^ (m &&& 0x1f)) &&& bit = first &&& bit := by
 rw [← UInt8.toNat_inj,UInt8.toNat_and,UInt8.toNat_xor,UInt8.toNat_and,UInt8.toNat_and,
  Nat.and_xor_distrib_right,Nat.and_assoc,hb,Nat.and_zero,Nat.xor_zero]

lemma isLongHeader_xor (first m : UInt8) : isLongHeader (first ^^^ (m &&& 0x1f)) = isLongHeader first := by
 rw [isLongHeader,isLongHeader,xor_mask_and (by decide)]

lemma fixedBit_xor (first m : UInt8) : fixedBit (first ^^^ (m &&& 0x1f)) = fixedBit first := by
 rw [fixedBit,fixedBit,xor_mask_and (by decide)]

lemma packetNumberLengthOf_bounds (firstByte : UInt8) :
    1 ≤ packetNumberLengthOf firstByte ∧ packetNumberLengthOf firstByte ≤ 4 := by
 have hle : (firstByte &&& 0x03).toNat ≤ 3 := by
  exact and_le_right
 rw [packetNumberLengthOf]
 omega

lemma packetNumberMask_length (mask : Block 16) {length : ℕ} (h : length ≤ 4) :
    (packetNumberMask mask length).length = length := by
 have hm : mask.toList.length = 16 := mask.toList_length
 rw [packetNumberMask,length_take,length_drop]
 omega

variable {id number ciphertext : Bytes} {first : UInt8}

lemma headerProtectionSample_eq (h : number.length ≤ 4) :
    headerProtectionSample (first :: (id ++ (number ++ ciphertext))) (1 + id.length) =
      match toBlock 16 ((ciphertext.drop (4 - number.length)).take 16) with
      | some sample => .ok sample
      | none => throwRange "not enough bytes for QUIC header protection sample" := by
 have hd : (first :: (id ++ (number ++ ciphertext))).drop (1+id.length+4) = ciphertext.drop (4 - number.length) := by
  rw [show 1+id.length+4 = id.length+number.length+(4 - number.length)+1 by omega,
   drop_succ_cons,← drop_drop,← drop_drop,drop_left,drop_left]
 rw [headerProtectionSample,subarray,hd,Nat.add_sub_cancel_left]

lemma headerProtectionSample_of_le (first : UInt8) (id : Bytes) (h : number.length ≤ 4)
    (hl : 20 ≤ number.length + ciphertext.length) :
    ∃ sample, headerProtectionSample (first :: (id ++ (number ++ ciphertext))) (1 + id.length) = .ok sample := by
 have hs : ((ciphertext.drop (4 - number.length)).take 16).length = 16 := by
  rw [length_take,length_drop]
  omega
 rw [headerProtectionSample_eq h,toBlock,dif_pos hs]
 exact ⟨_,rfl⟩

def maskedPacket (mask : Block 16) (first : UInt8) (id number ciphertext : Bytes) : Bytes :=
  (first ^^^ (mask.head &&& 0x1f)) ::
    (id ++ (List.zipWith (· ^^^ ·) number (packetNumberMask mask number.length) ++ ciphertext))

lemma xorAt_masked (mask : Block 16) (first first' : UInt8) (id : Bytes) (ciphertext : Bytes)
    (h : number.length ≤ 4) : xorAt ((first :: (id ++ (number ++ ciphertext))).set 0 first') (1 + id.length)
        (packetNumberMask mask number.length) =
      first' :: (id ++ (zipWith (· ^^^ ·) number (packetNumberMask mask number.length) ++ ciphertext)) := by
 rw [add_comm 1]
 exact xorAt_append (first' :: id) number ciphertext _ (packetNumberMask_length mask h)

variable {packet payload rest : Bytes} {sample : Block 16}

lemma applyQuicHeaderProtection_eq_ok {key : Block 16} (hn : number.length = packetNumberLengthOf first)
    (h : applyQuicHeaderProtection C (first :: (id ++ (number ++ ciphertext))) (1 + id.length) key 0x1f =
      .ok packet) :
    ∃ sample, headerProtectionSample (first :: (id ++ (number ++ ciphertext))) (1 + id.length) = .ok sample ∧
      packet = maskedPacket (createQuicHeaderProtectionMask C key sample) first id number ciphertext := by
 have hle:=(packetNumberLengthOf_bounds first).2
 simp only [applyQuicHeaderProtection,bind_eq_ok,pure_eq_ok] at h
 obtain ⟨sample,hs,firstByte,hf,_,_,rfl⟩:=h
 obtain rfl : first = firstByte:=Except.ok.inj hf
 refine ⟨sample,hs,?_⟩
 rw [← hn] at hle ⊢
 exact xorAt_masked _ first _ id ciphertext hle

lemma removeQuicHeaderProtection_masked (key : Block 16)
    (hsh : isLongHeader first = false) (hn : number.length = packetNumberLengthOf first)
    (hs : headerProtectionSample (first :: (id ++ (number ++ ciphertext))) (1 + id.length) = .ok sample) :
    removeQuicHeaderProtection C
        (maskedPacket (createQuicHeaderProtectionMask C key sample) first id number ciphertext) (1 + id.length) key =
      .ok ⟨first :: (id ++ (number ++ ciphertext)), first, packetNumberLengthOf first⟩ := by
 have hle:=(packetNumberLengthOf_bounds first).2
 rw [← hn] at hle
 generalize hma : createQuicHeaderProtectionMask C key sample = mask
 have hm:=packetNumberMask_length mask hle
 have hz : (zipWith (· ^^^ ·) number (packetNumberMask mask number.length)).length = number.length := by
  rw [length_zipWith,hm,min_self]
 have hs' : headerProtectionSample (maskedPacket mask first id number ciphertext) (1+id.length) = .ok sample := by
  rw [headerProtectionSample_eq hle] at hs
  rw [maskedPacket,headerProtectionSample_eq (by omega),hz,hs]
 have hl : isLongHeader (first ^^^ (mask.head &&& 0x1f)) = false := (isLongHeader_xor first _).trans hsh
 have hf : first ^^^ (mask.head &&& 0x1f) ^^^ (mask.head &&& 0x1f) = first := by
  rw [UInt8.xor_assoc,UInt8.xor_self,UInt8.xor_zero]
 have hlen : ¬ (maskedPacket mask first id number ciphertext).length < 1+id.length+number.length := by
  simp only [maskedPacket,length_cons,length_append,hz]
  omega
 have hr : readU8 (maskedPacket mask first id number ciphertext) 0 = .ok (first ^^^ (mask.head &&& 0x1f)) := rfl
 have hb : xorAt ((maskedPacket mask first id number ciphertext).set 0 first) (1+id.length)
   (packetNumberMask mask number.length) = first :: (id ++ (number ++ ciphertext)) := by
  have h:=xorAt_masked mask (first ^^^ (mask.head &&& 0x1f)) first id ciphertext (hz.trans_le hle)
  rw [hz,zipWith_xor_xor (by omega)] at h
  exact h
 rw [removeQuicHeaderProtection,hs',ok_bind,hma,hr,ok_bind]
 dsimp only
 rw [hl,if_neg Bool.false_ne_true,hf,← hn,throwIf_neg hlen,hb]
 rfl

lemma shortHeaderFirstByte_spec {length : ℕ} (h : 1 ≤ length ∧ length ≤ 4) :
    isLongHeader (shortHeaderFirstByte length) = false ∧ fixedBit (shortHeaderFirstByte length) = true ∧
      packetNumberLengthOf (shortHeaderFirstByte length) = length := by
 obtain ⟨hm,hmax⟩:=h
 interval_cases length <;> decide

variable {keys : QuicDirectionalKeys} {n length : ℕ}

lemma encryptQuicOneRttPacket_eq_ok (h : encryptQuicOneRttPacket C keys id n length payload = .ok packet) :
    ∃ nonce sample ciphertext, (1 ≤ length ∧ length ≤ 4) ∧ n ≤ quicMaxPacketNumber ∧
      quicPacketNonce keys.packetIv n = .ok nonce ∧
      ciphertext = C.gcmEncrypt keys.packetKey nonce (shortHeaderFirstByte length :: (id ++ beBytes length n)) payload ∧
      headerProtectionSample (shortHeaderFirstByte length :: (id ++ (beBytes length n ++ ciphertext)))
        (1 + id.length) = .ok sample ∧
      packet = maskedPacket (createQuicHeaderProtectionMask C keys.headerProtectionKey sample)
        (shortHeaderFirstByte length) id (beBytes length n) ciphertext := by
 simp only [encryptQuicOneRttPacket,encodeQuicTruncatedPacketNumber,quicPacketNumberToBigInt,
  encryptQuicAes128GcmPacket,bind_eq_ok,throwIf_eq_ok,pure_eq_ok] at h
 obtain ⟨_,hl,_,⟨_,_,_,⟨_,hn,rfl⟩,rfl⟩,_,⟨nonce,hno,rfl⟩,h⟩:=h
 have hb : 1 ≤ length ∧ length ≤ 4 := by omega
 have hnu : (beBytes length n).length = packetNumberLengthOf (shortHeaderFirstByte length) := by
  rw [beBytes_length,(shortHeaderFirstByte_spec hb).2.2]
 rw [cons_append,append_assoc] at h
 obtain ⟨sample,hs,hp⟩:=applyQuicHeaderProtection_eq_ok C hnu h
 exact ⟨nonce,sample,_,hb,by omega,hno,rfl,hs,hp⟩

lemma parseQuicOneRttPacketHeaderPrefix_cons (hid : id.length ≤ maxSafeInteger)
    (hs : isLongHeader first = false) (hf : fixedBit first = true) :
    parseQuicOneRttPacketHeaderPrefix (first :: (id ++ rest)) id.length 0 = .ok ⟨first, id, 1 + id.length⟩ := by
 have hr : readU8 (first :: (id ++ rest)) 0 = .ok first := rfl
 have hsu : subarray (first :: (id ++ rest)) 1 (1+id.length) = id := subarray_of_drop rfl rfl
 rw [parseQuicOneRttPacketHeaderPrefix,throwIf_neg (by omega),ok_bind,hr,ok_bind,
  throwIf_neg (by rw [hs]; decide),ok_bind,throwIf_neg (by rw [hf]; decide),ok_bind]
 dsimp only
 rw [throwIf_neg (by simp; omega),ok_bind,hsu]
 rfl

lemma parseQuicOneRttPacketHeader_cons (hid : id.length ≤ maxSafeInteger)
    (hs : isLongHeader first = false) (hf : fixedBit first = true)
    (hn : number.length = packetNumberLengthOf first) :
    parseQuicOneRttPacketHeader (first :: (id ++ (number ++ rest))) id.length 0 =
      .ok ⟨⟨first, id, 1 + id.length⟩, number.length, ofBeBytes number, 1 + id.length + number.length⟩ := by
 have hb:=packetNumberLengthOf_bounds first
 have hd : (first :: (id ++ (number ++ rest))).drop (1+id.length) = number ++ rest := by
  rw [add_comm,drop_succ_cons,drop_left]
 rw [parseQuicOneRttPacketHeader,parseQuicOneRttPacketHeaderPrefix_cons hid hs hf,ok_bind]
 dsimp only
 rw [← hn] at hb ⊢
 rw [readQuicPacketNumber,throwIf_neg (by omega),throwIf_neg (by simp; omega),ok_bind,subarray_of_drop hd rfl]
 rfl

lemma decryptQuicOneRttPacket_masked (expected : Option ℕ) (hid : id.length ≤ maxSafeInteger)
    (hs : isLongHeader first = false) (hf : fixedBit first = true)
    (hn : number.length = packetNumberLengthOf first)
    (hsa : headerProtectionSample (first :: (id ++ (number ++ ciphertext))) (1 + id.length) = .ok sample) :
    decryptQuicOneRttPacket C
        (maskedPacket (createQuicHeaderProtectionMask C keys.headerProtectionKey sample) first id number ciphertext)
        keys id.length 0 expected = do
      let header : QuicOneRttPacketHeader :=
        ⟨⟨first,id,1 + id.length⟩,number.length,ofBeBytes number,1 + id.length + number.length⟩
      let num ← packetNumberOf header expected
      let payload ← decryptQuicAes128GcmPacket C keys num (first :: (id ++ number)) ciphertext
      return ⟨header,num,payload,first :: (id ++ (number ++ ciphertext)),
        (maskedPacket (createQuicHeaderProtectionMask C keys.headerProtectionKey sample) first id number
          ciphertext).length⟩ := by
 have hr:=removeQuicHeaderProtection_masked C keys.headerProtectionKey hs hn hsa
 have hfr : ∀ mask, parseQuicOneRttPacketHeaderPrefix (maskedPacket mask first id number ciphertext) id.length 0 =
   .ok ⟨first ^^^ (mask.head &&& 0x1f),id,1+id.length⟩ := fun mask=>
  parseQuicOneRttPacketHeaderPrefix_cons hid ((isLongHeader_xor first _).trans hs)
   ((fixedBit_xor first _).trans hf)
 have hsp : first :: (id ++ (number ++ ciphertext)) = (first :: (id ++ number)) ++ ciphertext := by simp
 have hh : (first :: (id ++ number)).length = 1+id.length+number.length := by simp; omega
 rw [decryptQuicOneRttPacket,hfr,ok_bind]
 rw [drop_zero,Nat.sub_zero,hr,ok_bind]
 rw [parseQuicOneRttPacketHeader_cons hid hs hf hn,ok_bind]
 rw [subarray,drop_zero,Nat.sub_zero,hsp,take_left' hh,drop_left' hh]

variable {C}

lemma receiveQuicOneRttPacket_eq_ok {offset : ℕ} {largest : Option ℕ} {rec : QuicOneRttPacketReceiveResult}
    (h : receiveQuicOneRttPacket C packet keys length largest offset = .ok rec) :
    rec.packetNumber ≤ quicMaxPacketNumber ∧
      (some rec.largestReceivedPacketNumber = largest ↔ ∃ l ∈ largest, rec.packetNumber ≤ l) := by
 simp only [receiveQuicOneRttPacket,bind_eq_ok,pure_eq_ok] at h
 obtain ⟨_,_,_,_,_,hu,rfl⟩:=h
 exact updateLargestReceivedQuicPacketNumber_eq_ok hu

/-- A packet that is accepted has the payload that was protected, under whatever number it is read. -/
theorem decryptQuicOneRttPacket_payload (hC : C.Authentic) {expected : Option ℕ}
    {result : QuicOneRttPacketDecryptionResult}
    (hid : id.length ≤ maxSafeInteger) (he : encryptQuicOneRttPacket C keys id n length payload = .ok packet)
    (hd : decryptQuicOneRttPacket C packet keys id.length 0 expected = .ok result) : result.payload = payload := by
 obtain ⟨nonce,sample,ciphertext,hl,_,_,hc,hs,rfl⟩:=encryptQuicOneRttPacket_eq_ok C he
 obtain ⟨hsh,hf,hn⟩:=shortHeaderFirstByte_spec hl
 rw [decryptQuicOneRttPacket_masked C expected hid hsh hf (by rw [beBytes_length,hn]) hs] at hd
 simp only [decryptQuicAes128GcmPacket,bind_eq_ok,pure_eq_ok] at hd
 obtain ⟨_,_,opened,⟨_,_,ho⟩,rfl⟩:=hd
 split at ho
 · rename_i plaintext hp
   rw [hc] at hp
   rw [← Except.ok.inj ho]
   exact hC _ _ _ _ _ _ hp
 · cases ho

lemma decryptQuicOneRttPacket_of_near (hC : C.Decrypts) {expected : ℕ}
    (hid : id.length ≤ maxSafeInteger) (hen : encryptQuicOneRttPacket C keys id n length payload = .ok packet)
    (he : expected ≤ quicMaxPacketNumber) (hlow : expected < n + 2^(8*length - 1))
    (hh : n ≤ expected + 2^(8*length - 1) ∨ n < 2^(8*length)) :
    ∃ result, decryptQuicOneRttPacket C packet keys id.length 0 (some expected) = .ok result ∧
      result.packetNumber = n ∧ result.payload = payload := by
 obtain ⟨nonce,sample,ciphertext,hl,hn,hno,hc,hs,rfl⟩ := encryptQuicOneRttPacket_eq_ok C hen
 obtain ⟨hsh,hf,hnu⟩:=shortHeaderFirstByte_spec hl
 rw [decryptQuicOneRttPacket_masked C _ hid hsh hf (by rw [beBytes_length,hnu]) hs]
 dsimp only
 rw [packetNumberOf]
 rw [beBytes_length,ofBeBytes_beBytes,recoverQuicPacketNumber_of_near hl hn he hlow hh,ok_bind,
  decryptQuicAes128GcmPacket,hno,ok_bind,hc,hC ..]
 exact ⟨_,rfl,rfl,rfl⟩

/-- The sample of the header protection needs four bytes of packet number and payload. -/
lemma four_le_of_encrypt (hC : C.AddsTag)
    (he : encryptQuicOneRttPacket C keys id n length payload = .ok packet) : 4 ≤ payload.length + length := by
 obtain ⟨nonce,sample,ciphertext,hl,_,_,hc,hs,_⟩:=encryptQuicOneRttPacket_eq_ok C he
 have hn:=beBytes_length length n
 have hco : ciphertext.length = payload.length+16 := by rw [hc,hC ..]; rfl
 rw [headerProtectionSample_eq (by omega),toBlock] at hs
 split_ifs at hs with hb
 · rw [length_take,length_drop] at hb
   omega
 · cases hs

def packetNumberLength (n : ℕ) : ℕ := if n ≤ 0xff then 1 else if n ≤ 0xffff then 2 else if n ≤ 0xffffff then 3 else 4

lemma packetNumberLength_bounds (n : ℕ) : 1 ≤ packetNumberLength n ∧ packetNumberLength n ≤ 4 := by
 unfold packetNumberLength
 split_ifs <;> omega

lemma selectQuicOneRttPacketNumberLength_eq (hn : n ≤ quicMaxPacketNumber) :
    selectQuicOneRttPacketNumberLength n = .ok (packetNumberLength n) := by
 rw [selectQuicOneRttPacketNumberLength,quicPacketNumberToBigInt_of_le hn]
 rfl

lemma maskedPacket_length {mask : Block 16} (h : number.length ≤ 4) :
    (maskedPacket mask first id number ciphertext).length = 1 + id.length + number.length + ciphertext.length := by
 simp only [maskedPacket,length_cons,length_append,length_zipWith,packetNumberMask_length mask h,min_self]
 omega

lemma encryptQuicOneRttPacket_length (hC : C.AddsTag)
    (he : encryptQuicOneRttPacket C keys id n length payload = .ok packet) :
    packet.length = 1 + id.length + length + payload.length + quicAes128GcmTagLength := by
 obtain ⟨nonce,sample,ciphertext,hl,_,_,hc,_,rfl⟩:=encryptQuicOneRttPacket_eq_ok C he
 rw [maskedPacket_length (by rw [beBytes_length]; exact hl.2),beBytes_length,hc,hC ..,add_assoc _ payload.length]

lemma encryptQuicOneRttPacket_of_le (hC : C.AddsTag) (keys : QuicDirectionalKeys) (id : Bytes)
    (hn : n ≤ quicMaxPacketNumber) (hl : 1 ≤ length ∧ length ≤ 4) (hp : 4 ≤ payload.length + length) :
    ∃ packet, encryptQuicOneRttPacket C keys id n length payload = .ok packet := by
 have hnu:=beBytes_length length n
 have hf:=(shortHeaderFirstByte_spec hl).2.2
 rw [encryptQuicOneRttPacket,throwIf_neg (by omega),ok_bind,encodeQuicTruncatedPacketNumber,
  throwIf_neg (by omega),ok_bind,quicPacketNumberToBigInt_of_le hn,ok_bind,pure_bind]
 dsimp only
 rw [encryptQuicAes128GcmPacket,quicPacketNonce,quicPacketNumberToBigInt_of_le hn,ok_bind,pure_bind,pure_bind]
 generalize hc : C.gcmEncrypt _ _ _ payload = ciphertext
 have hco : ciphertext.length = payload.length+16 := by rw [← hc,hC ..]; rfl
 rw [cons_append,append_assoc,applyQuicHeaderProtection]
 obtain ⟨sample,hs⟩:=headerProtectionSample_of_le (shortHeaderFirstByte length) id
  (show (beBytes length n).length ≤ 4 by omega) (show 20 ≤ _+ciphertext.length by omega)
 rw [hs]
 change ∃ packet, (throwIf (_ < _+packetNumberLengthOf (shortHeaderFirstByte length)) _ >>= _) = _
 rw [throwIf_neg (by simp; omega)]
 exact ⟨_,rfl⟩

def plainGcmTag (k : Block 16) (n : Block 12) : Bytes := n.toList ++ k.toList.take 4

/-- Ciphers without any secrecy that keep the laws: the tag repeats the nonce and a part of the key. -/
def plainCiphers : Ciphers where
  gcmEncrypt k n _ m := m ++ plainGcmTag k n
  gcmDecrypt k n _ c :=
    if plainGcmTag k n <:+ c then some (c.take (c.length - quicAes128GcmTagLength)) else none
  ecbEncrypt k _ := k

lemma plainGcmTag_length (k : Block 16) (n : Block 12) : (plainGcmTag k n).length = quicAes128GcmTagLength := by
 have hk : k.toList.length = 16 := k.toList_length
 have hn : n.toList.length = 12 := n.toList_length
 rw [plainGcmTag,length_append,length_take,hk,hn]
 rfl

namespace plainCiphers

lemma addsTag : plainCiphers.AddsTag := by
 intro k n _ m
 change (m ++ plainGcmTag k n).length = _
 rw [length_append,plainGcmTag_length]

lemma gcmDecrypt_gcmEncrypt (k : Block 16) (n n' : Block 12) (aad m : Bytes) :
    plainCiphers.gcmDecrypt k n' aad (plainCiphers.gcmEncrypt k n aad m) =
      if plainGcmTag k n' <:+ m ++ plainGcmTag k n then some m else none := by
 change (if plainGcmTag k n' <:+ m ++ plainGcmTag k n then
  some ((m ++ plainGcmTag k n).take ((m ++ plainGcmTag k n).length - quicAes128GcmTagLength)) else none) = _
 rw [length_append,plainGcmTag_length,Nat.add_sub_cancel,take_left]

lemma decrypts : plainCiphers.Decrypts := by
 intro k n aad m
 rw [gcmDecrypt_gcmEncrypt,if_pos (suffix_append _ _)]

lemma authentic : plainCiphers.Authentic := by
 intro k n n' aad m m' h
 rw [gcmDecrypt_gcmEncrypt] at h
 split_ifs at h
 exact (Option.some.inj h).symm

end plainCiphers
end Enlace.Quic
