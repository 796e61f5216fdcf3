import Enlace.Pkarr.Keys

set_option autoImplicit false

/-! `signed-packet.ts`. Where the source reads the clock, the functions take what was read. -/
namespace Enlace.Pkarr
open ByteString Unicode List Fallible

def timestampBytes : ℕ := 8

def signedPacketMaxBytes : ℕ := 1104

def relayPayloadMaxBytes : ℕ := 1072

def signedPacketHeaderBytes : ℕ := publicKeyBytes + signatureBytes + timestampBytes

/-- A `number`: its value if that is an integer, and how it is shown. -/
structure JsNumber where
  integer : Option ℤ
  shown : Text

structure DateTime where
  time : ℤ
  lower : -8640000000000000 ≤ time
  upper : time ≤ 8640000000000000

/-- `TimestampInput`; a `Date` can be invalid. -/
inductive TimestampInput where
  | bigint (value : ℤ)
  | number (value : JsNumber)
  | date (value : Option DateTime)

/-- A `bigint` in a template. -/
def decimal (value : ℤ) : Text :=
  (if value < 0 then literal "-" else []) ++ (Nat.toDigits 10 value.natAbs).map fun c => UInt16.ofNat c.toNat

def bigIntError (shown : Text) : Outcome ℤ :=
  .error (.rangeError (literal "The number " ++ shown ++
    literal " cannot be converted to a BigInt because it is not an integer"))

def checkTimestamp (timestamp : ℤ) (shown : Text) : Outcome ℤ := do
  rangeErrorIf (timestamp < 0 ∨ timestamp > 0xffffffffffffffff) (literal "timestamp out of range: " ++ shown)
  return timestamp

def timestampMicros : TimestampInput → Outcome ℤ
  | .date (some value) => .ok (value.time*1000)
  | .date none => bigIntError (literal "NaN")
  | .bigint value => checkTimestamp value (decimal value)
  | .number ⟨some value, shown⟩ => checkTimestamp value shown
  | .number ⟨none, shown⟩ => bigIntError shown

/-- What `nowMicros` returns, and leaves as `lastTimestamp`. -/
def nowMicros (dateNow lastTimestamp : ℤ) : ℤ :=
  if dateNow*1000 > lastTimestamp then dateNow*1000 else lastTimestamp + 1

def readU64 (bytes : Bytes) (offset : ℕ) : Outcome ℤ := do
  rangeErrorIf (bytes.length < offset + timestampBytes) (literal "timestamp bytes ended early")
  return ofBeBytes ((bytes.drop offset).take timestampBytes)

def writeU64 (value : ℤ) : Outcome Bytes := do
  let rest ← timestampMicros (.bigint value)
  return beBytes timestampBytes rest.toNat

def signableBytes (timestamp : ℤ) (encodedPacket : Bytes) : Bytes :=
  encodeUtf8 (literal "3:seqi" ++ decimal timestamp ++ literal "e1:v" ++ decimal encodedPacket.length ++ literal ":") ++
    encodedPacket

structure SignedPacket (ed : Ed25519) where
  publicKey : PublicKey ed
  signature : Bytes
  timestamp : ℤ
  encodedPacket : Bytes
  records : List DnsRecord
  lastSeen : ℤ
  signature_length : signature.length = signatureBytes
  encodedPacket_length : encodedPacket.length ≤ dnsPacketMaxBytes
  parsed : parseDnsResponse encodedPacket = .ok records

namespace SignedPacket

variable {ed : Ed25519}

def fromParts (publicKey : PublicKey ed) (signature : Bytes) (timestamp : ℤ) (encodedPacket : Bytes) (lastSeen : ℤ) :
    Outcome (SignedPacket ed) :=
  if hs : signature.length = signatureBytes then
    if hl : encodedPacket.length ≤ dnsPacketMaxBytes then
      match hp : parseDnsResponse encodedPacket with
      | .ok records => .ok ⟨publicKey, signature, timestamp, encodedPacket, records, lastSeen, hs, hl, hp⟩
      | .error e => .error e
    else .error (.rangeError
      (literal s!"DNS packet is too large, expected max 1000 bytes but got: {encodedPacket.length}"))
  else .error (.rangeError (literal "signature must be 64 bytes"))

def parseBytes (ed : Ed25519) (bytes : Bytes) (lastSeen : ℤ) : Outcome (SignedPacket ed) := do
  rangeErrorIf (bytes.length < signedPacketHeaderBytes)
    (literal s!"Invalid SignedPacket bytes length, expected at least 104 bytes but got: {bytes.length}")
  rangeErrorIf (bytes.length > signedPacketMaxBytes)
    (literal s!"SignedPacket is too large, expected max 1104 bytes but got: {bytes.length}")
  let publicKey ← PublicKey.fromBytes ed (bytes.take publicKeyBytes)
  let timestamp ← readU64 bytes (publicKeyBytes + signatureBytes)
  fromParts publicKey ((bytes.drop publicKeyBytes).take signatureBytes) timestamp (bytes.drop signedPacketHeaderBytes)
    lastSeen

def fromBytes (ed : Ed25519) (bytes : Bytes) (now : ℤ) : Outcome (SignedPacket ed) := do
  let packet ← parseBytes ed bytes now
  let ok ← packet.publicKey.verify (signableBytes packet.timestamp packet.encodedPacket) packet.signature
  errorIf (ok = false) (literal "invalid SignedPacket signature")
  return packet

def fromRelayPayload (publicKey : PublicKey ed) (payload : Bytes) (now : ℤ) : Outcome (SignedPacket ed) := do
  rangeErrorIf (payload.length > relayPayloadMaxBytes)
    (literal s!"SignedPacket is too large, expected max 1104 bytes but got: {payload.length + publicKeyBytes}")
  fromBytes ed (publicKey.toBytes ++ payload) now

def deserialize (ed : Ed25519) (bytes : Bytes) (now : ℤ) : Outcome (SignedPacket ed) := do
  rangeErrorIf (bytes.length < timestampBytes + signedPacketHeaderBytes)
    (literal "serialized SignedPacket is too short")
  let lastSeen ← readU64 bytes 0
  parseBytes ed (bytes.drop timestampBytes) (if lastSeen > now + 60000000 then 0 else lastSeen)

def toRelayPayload (packet : SignedPacket ed) : Outcome Bytes := do
  let timestamp ← writeU64 packet.timestamp
  return packet.signature ++ timestamp ++ packet.encodedPacket

def asBytes (packet : SignedPacket ed) : Outcome Bytes := do
  let timestamp ← writeU64 packet.timestamp
  return packet.publicKey.toBytes ++ packet.signature ++ timestamp ++ packet.encodedPacket

def serialize (packet : SignedPacket ed) : Outcome Bytes := do
  let lastSeen ← writeU64 packet.lastSeen
  let bytes ← packet.asBytes
  return lastSeen ++ bytes

def setLastSeen (packet : SignedPacket ed) (lastSeen : TimestampInput) : Outcome (SignedPacket ed) := do
  let lastSeen ← timestampMicros lastSeen
  return { packet with lastSeen := lastSeen }

def moreRecentThan (packet other : SignedPacket ed) : Bool :=
  if packet.timestamp = other.timestamp then compareBytes packet.encodedPacket other.encodedPacket > 0
  else packet.timestamp > other.timestamp

def isSameAs (packet other : SignedPacket ed) : Outcome Bool := do
  let bytes ← packet.asBytes
  let otherBytes ← other.asBytes
  return compareBytes bytes otherBytes = 0

def resourceRecords (packet : SignedPacket ed) (name : Text) : List DnsRecord :=
  findResourceRecords packet.records packet.publicKey.toZ32 name

end SignedPacket

structure SignedPacketBuilder where
  records : List DnsRecord
  timestamp : Option ℤ

namespace SignedPacketBuilder

def empty : SignedPacketBuilder := ⟨[], none⟩

def record (record : DnsRecord) (builder : SignedPacketBuilder) : SignedPacketBuilder :=
  { builder with records := builder.records ++ [record] }

def setTimestamp (timestamp : TimestampInput) (builder : SignedPacketBuilder) : Outcome SignedPacketBuilder := do
  let timestamp ← timestampMicros timestamp
  return { builder with timestamp := some timestamp }

/-- The clock is read for the timestamp if none was given, and when the signature is there. -/
def sign {ed : Ed25519} (builder : SignedPacketBuilder) (keypair : Keypair ed) (now signed : ℤ) :
    Outcome (SignedPacket ed) := do
  let encodedPacket ← encodeDnsResponse keypair.publicKey.toZ32 builder.records
  let timestamp := builder.timestamp.getD now
  SignedPacket.fromParts keypair.publicKey (keypair.sign (signableBytes timestamp encodedPacket)) timestamp
    encodedPacket
    signed

end SignedPacketBuilder

end Enlace.Pkarr
