import Enlace.Lib.Fallible
import Enlace.Lib.Table
import Enlace.Lib.Unicode

set_option autoImplicit false

/-! `dns.ts`: DNS responses as they are written and read. Numbers are natural: every other number is refused where it is
written. -/
namespace Enlace.Pkarr
open ByteString Unicode

inductive Thrown where
  | error (message : Text)
  | rangeError (message : Text)
  | typeError (message : Text)
  deriving DecidableEq

abbrev Outcome : Type → Type := Except Thrown

def literal (s : String) : Text := s.toList.map fun c => UInt16.ofNat c.toNat

def raise {α : Type} (message : Text) : Outcome α := .error (.error message)

def errorIf (c : Prop) [Decidable c] (message : Text) : Outcome Unit := if c then raise message else .ok ()

def rangeErrorIf (c : Prop) [Decidable c] (message : Text) : Outcome Unit :=
  if c then .error (.rangeError message) else .ok ()

@[simp] lemma errorIf_eq_ok {c : Prop} [Decidable c] {msg : Text} {u : Unit} : errorIf c msg = .ok u ↔ ¬ c := by
 by_cases h : c <;> simp [errorIf,raise,h]

@[simp] lemma rangeErrorIf_eq_ok {c : Prop} [Decidable c] {msg : Text} {u : Unit} :
    rangeErrorIf c msg = .ok u ↔ ¬ c := by
 by_cases h : c <;> simp [rangeErrorIf,h]

def dnsPacketMaxBytes : ℕ := 1000

def classIn : ℕ := 1

def headerBytes : ℕ := 12

def maxLabelBytes : ℕ := 63

def maxNameBytes : ℕ := 255

def dot : UInt16 := 0x2e

def colon : UInt16 := 0x3a

inductive TextOrBytes where
  | text (value : Text)
  | bytes (value : Bytes)
  deriving DecidableEq

inductive TxtData where
  | text (value : Text)
  | bytes (value : Bytes)
  | chunks (value : List Bytes)
  deriving DecidableEq

inductive ServiceParam where
  | mandatory (keys : List ℕ)
  | alpn (ids : List TextOrBytes)
  | noDefaultAlpn
  | port (port : ℕ)
  | ipv4hint (addresses : List TextOrBytes)
  | ech (data : Bytes)
  | ipv6hint (addresses : List TextOrBytes)
  | unknown (key : ℕ) (value : Bytes)
  deriving DecidableEq

structure ServiceBinding where
  priority : ℕ
  target : Text
  params : List ServiceParam
  deriving DecidableEq

inductive DnsRData where
  | a (address : TextOrBytes)
  | aaaa (address : TextOrBytes)
  | cname (cname : Text)
  | txt (text : TxtData)
  | https (binding : ServiceBinding)
  | svcb (binding : ServiceBinding)
  deriving DecidableEq

structure DnsRecord where
  name : Text
  ttl : ℕ
  data : DnsRData
  deriving DecidableEq

def normalizeDnsName (origin name : Text) : Text :=
  let trimmed := if name.getLast? = some dot then name.dropLast else name
  let last := (trimmed.splitOn dot).getLast?.getD []
  if last = origin then trimmed
  else if last = literal "@" ∨ last = [] then origin
  else trimmed ++ dot :: origin

def assertUnsigned (value max : ℕ) : Outcome Unit :=
  rangeErrorIf (value > max) (literal s!"integer out of range: {value}")

/-! ### Addresses and texts -/

def isDigit (u : UInt16) : Bool := 0x30 ≤ u.toNat ∧ u.toNat ≤ 0x39

def hexValue (u : UInt16) : Option ℕ :=
  if isDigit u then some (u.toNat - 0x30)
  else if 0x61 ≤ u.toNat ∧ u.toNat ≤ 0x66 then some (u.toNat - 0x57)
  else if 0x41 ≤ u.toNat ∧ u.toNat ≤ 0x46 then some (u.toNat - 0x37)
  else none

def parseInt (base : ℕ) (part : Text) : ℕ := part.foldl (fun n u => n*base + (hexValue u).getD 0) 0

def parseIpv4Part (part : Text) : Outcome ℕ := do
  errorIf (¬ (1 ≤ part.length ∧ part.length ≤ 3 ∧ part.all isDigit = true)) (literal "invalid IPv4 segment: " ++ part)
  return parseInt 10 part

def ipv4Bytes : TextOrBytes → Outcome Bytes
  | .bytes address => do
    rangeErrorIf (address.length ≠ 4) (literal "IPv4 address must be 4 bytes")
    return address
  | .text address => do
    let parts ← (address.splitOn dot).mapM parseIpv4Part
    errorIf (parts.length ≠ 4 ∨ parts.any (fun part => part > 255) = true) (literal "invalid IPv4 address: " ++ address)
    return parts.map UInt8.ofNat

/-- `split` at two units of a kind. -/
def splitAtPair (u : UInt16) : Text → List Text
  | [] => [[]]
  | [a] => [[a]]
  | a :: b :: rest =>
    if a = u ∧ b = u then [] :: splitAtPair u rest
    else
      match splitAtPair u (b :: rest) with
      | [] => [[a]]
      | piece :: pieces => (a :: piece) :: pieces

def parseIpv6Part (part : Text) : Outcome ℕ := do
  errorIf (¬ (1 ≤ part.length ∧ part.length ≤ 4 ∧ part.all (fun u => (hexValue u).isSome) = true))
    (literal "invalid IPv6 segment: " ++ part)
  return parseInt 16 part

def parseIpv6Parts (raw : Text) : Outcome (List ℕ) :=
  if raw.length = 0 then .ok [] else (raw.splitOn colon).mapM parseIpv6Part

def expandIpv6 (address : Text) : Outcome (List ℕ) := do
  let sections := splitAtPair colon address
  errorIf (sections.length > 2) (literal "invalid IPv6 address: " ++ address)
  let head ← parseIpv6Parts (sections[0]?.getD [])
  let tail ← parseIpv6Parts (sections[1]?.getD [])
  errorIf (head.length + tail.length > 8 ∨ (sections.length ≠ 2 ∧ head.length + tail.length ≠ 8) ∨
    (sections.length = 2 ∧ head.length + tail.length = 8)) (literal "invalid IPv6 address: " ++ address)
  return head ++ List.replicate (8 - head.length - tail.length) 0 ++ tail

def ipv6Bytes : TextOrBytes → Outcome Bytes
  | .bytes address => do
    rangeErrorIf (address.length ≠ 16) (literal "IPv6 address must be 16 bytes")
    return address
  | .text address => do
    let parts ← expandIpv6 address
    return parts.flatMap (beBytes 2)

/-- The loop of `splitTxtBytes`; the first number bounds its rounds. -/
def splitChunks : ℕ → Bytes → List Bytes
  | 0, _ => []
  | rounds + 1, bytes => if bytes.length = 0 then [] else bytes.take 254 :: splitChunks rounds (bytes.drop 254)

def splitTxtBytes (bytes : Bytes) : List Bytes :=
  if (splitChunks bytes.length bytes).length = 0 then [[]] else splitChunks bytes.length bytes

def txtChunks : TxtData → List Bytes
  | .text text => splitTxtBytes (encodeUtf8 text)
  | .bytes text => splitTxtBytes text
  | .chunks text => text

def idBytes : TextOrBytes → Bytes
  | .text id => encodeUtf8 id
  | .bytes id => id

/-! ### Service bindings -/

def paramKey : ServiceParam → ℕ
  | .mandatory _ => 0
  | .alpn _ => 1
  | .noDefaultAlpn => 2
  | .port _ => 3
  | .ipv4hint _ => 4
  | .ech _ => 5
  | .ipv6hint _ => 6
  | .unknown key _ => key

def requireNonEmpty {α : Type} (value : List α) (name : String) : Outcome Unit :=
  errorIf (value.length = 0) (literal name ++ literal " must not be empty")

def requireNonEmptyBytes (value : Bytes) (name : String) : Outcome Unit :=
  errorIf (value.length = 0) (literal name ++ literal " value must not be empty")

/-- The loop of `validateMandatoryKeys` after the keys that were seen. -/
def checkMandatory (requireSorted : Bool) : List ℕ → List ℕ → Outcome Unit
  | _, [] => .ok ()
  | seen, key :: keys => do
    assertUnsigned key 0xffff
    errorIf (key = 0) (literal "mandatory must not include mandatory")
    errorIf (OrderedSet.has seen key = true) (literal s!"duplicate mandatory SVCB key: {key}")
    errorIf (requireSorted = true ∧ seen.getLast?.any (fun previous => key ≤ previous) = true)
      (literal "mandatory SVCB keys must be sorted")
    checkMandatory requireSorted (OrderedSet.add seen key) keys

def validateMandatoryKeys (keys : List ℕ) (requireSorted : Bool) : Outcome Unit := do
  requireNonEmpty keys "mandatory"
  checkMandatory requireSorted [] keys

/-- The variables of `validateServiceBinding`. -/
structure BindingCheck where
  keys : List ℕ
  hasAlpn : Bool
  hasNoDefaultAlpn : Bool
  mandatory : List ℕ

def checkParam (check : BindingCheck) (param : ServiceParam) : Outcome BindingCheck := do
  errorIf (OrderedSet.has check.keys (paramKey param) = true) (literal s!"duplicate SVCB parameter: {paramKey param}")
  let check := { check with keys := OrderedSet.add check.keys (paramKey param) }
  match param with
  | .mandatory keys =>
    validateMandatoryKeys keys false
    return { check with mandatory := keys }
  | .alpn ids =>
    requireNonEmpty ids "alpn"
    ids.forM fun id => requireNonEmptyBytes (idBytes id) "alpn"
    return { check with hasAlpn := true }
  | .noDefaultAlpn => return { check with hasNoDefaultAlpn := true }
  | .ipv4hint addresses =>
    requireNonEmpty addresses "ipv4hint"
    return check
  | .ipv6hint addresses =>
    requireNonEmpty addresses "ipv6hint"
    return check
  | .ech _ => return check
  | .port _ => return check
  | .unknown key _ =>
    errorIf (key ≤ 6) (literal s!"unknown SVCB parameter uses known key: {key}")
    return check

def validateServiceBinding (binding : ServiceBinding) : Outcome Unit := do
  let check ← binding.params.foldlM checkParam ⟨[], false, false, []⟩
  errorIf (check.hasNoDefaultAlpn = true ∧ check.hasAlpn = false) (literal "no-default-alpn requires alpn")
  check.mandatory.forM fun key =>
    errorIf (OrderedSet.has check.keys key = false) (literal s!"mandatory SVCB parameter is missing: {key}")

/-! ### Writing -/

structure Writer where
  bytes : Bytes
  refs : List (Bytes × ℕ)

namespace Writer

def write (value : Bytes) (w : Writer) : Writer := { w with bytes := w.bytes ++ value }

def u8 (value : ℕ) (w : Writer) : Outcome Writer := do
  assertUnsigned value 0xff
  return w.write (beBytes 1 value)

def u16 (value : ℕ) (w : Writer) : Outcome Writer := do
  assertUnsigned value 0xffff
  return w.write (beBytes 2 value)

def u32 (value : ℕ) (w : Writer) : Outcome Writer := do
  assertUnsigned value 0xffffffff
  return w.write (beBytes 4 value)

def setU16 (offset value : ℕ) (w : Writer) : Writer :=
  { w with bytes := (w.bytes.set offset (UInt8.ofNat (value/0x100))).set (offset + 1) (UInt8.ofNat value) }

def lengthPrefixed (write : Writer → Outcome Writer) (w : Writer) : Outcome Writer := do
  let start ← w.u16 0
  let written ← write start
  return written.setU16 w.bytes.length (written.bytes.length - start.bytes.length)

def chunks : List Bytes → Writer → Outcome Writer
  | [], w => .ok w
  | value :: values, w => do
    let w ← w.u8 value.length
    chunks values (w.write value)

end Writer

def nameLabels (name : Text) : Outcome (List Bytes) := do
  let labels := ((name.splitOn dot).filter fun label => label.length > 0).map encodeUtf8
  errorIf ((labels.map fun label => label.length + 1).sum + 1 > maxNameBytes) (literal "invalid DNS name")
  errorIf (labels.any (fun label => label.length > maxLabelBytes) = true) (literal "invalid DNS label length")
  return labels

/-- `labels.map(labelKey).join('\0')`. -/
def nameKey (labels : List Bytes) : Bytes := [0].intercalate labels

def writeLabels : List Bytes → Writer → Outcome Writer
  | [], w => w.u8 0
  | label :: labels, w =>
    match OrderedMap.get w.refs (nameKey (label :: labels)) with
    | some offset => w.u16 (0xc000 ||| offset)
    | none => do
      let w := { w with refs := OrderedMap.set w.refs (nameKey (label :: labels)) w.bytes.length }
      let w ← w.u8 label.length
      writeLabels labels (w.write label)

def writeCompressedName (name : Text) (w : Writer) : Outcome Writer := do
  let labels ← nameLabels name
  writeLabels labels w

def writeName (name : Text) (w : Writer) : Outcome Writer := do
  let labels ← nameLabels name
  let w ← w.chunks labels
  w.u8 0

def writeAddresses (addressBytes : TextOrBytes → Outcome Bytes) : List TextOrBytes → Writer → Outcome Writer
  | [], w => .ok w
  | address :: addresses, w => do
    let bytes ← addressBytes address
    writeAddresses addressBytes addresses (w.write bytes)

def writeKeys : List ℕ → Writer → Outcome Writer
  | [], w => .ok w
  | key :: keys, w => do
    let w ← w.u16 key
    writeKeys keys w

def writeServiceParam (param : ServiceParam) (w : Writer) : Outcome Writer :=
  match param with
  | .mandatory keys => writeKeys (keys.insertionSort (· ≤ ·)) w
  | .alpn ids => w.chunks (ids.map idBytes)
  | .noDefaultAlpn => .ok w
  | .port port => w.u16 port
  | .ipv4hint addresses => writeAddresses ipv4Bytes addresses w
  | .ech data => do
    let w ← w.u16 data.length
    return w.write data
  | .ipv6hint addresses => writeAddresses ipv6Bytes addresses w
  | .unknown _ value => .ok (w.write value)

def writeParams : Option ℕ → List ServiceParam → Writer → Outcome Writer
  | _, [], w => .ok w
  | previous, param :: params, w => do
    errorIf (previous = some (paramKey param)) (literal s!"duplicate SVCB parameter: {paramKey param}")
    let w ← w.u16 (paramKey param)
    let w ← w.lengthPrefixed (writeServiceParam param)
    writeParams (some (paramKey param)) params w

def sortParams (params : List ServiceParam) : List ServiceParam :=
  params.insertionSort fun a b => paramKey a ≤ paramKey b

def writeServiceBinding (binding : ServiceBinding) (w : Writer) : Outcome Writer := do
  validateServiceBinding binding
  let w ← w.u16 binding.priority
  let w ← writeName binding.target w
  writeParams none (sortParams binding.params) w

def recordType : DnsRData → ℕ
  | .a _ => 1
  | .cname _ => 5
  | .txt _ => 16
  | .aaaa _ => 28
  | .svcb _ => 64
  | .https _ => 65

def writeRecordData (data : DnsRData) (w : Writer) : Outcome Writer :=
  match data with
  | .a address => do
    let bytes ← ipv4Bytes address
    return w.write bytes
  | .aaaa address => do
    let bytes ← ipv6Bytes address
    return w.write bytes
  | .cname cname => writeCompressedName cname w
  | .txt text => w.chunks (txtChunks text)
  | .https binding => writeServiceBinding binding w
  | .svcb binding => writeServiceBinding binding w

def writeRecord (origin : Text) (record : DnsRecord) (w : Writer) : Outcome Writer := do
  let w ← writeCompressedName (normalizeDnsName origin record.name) w
  let w ← w.u16 (recordType record.data)
  let w ← w.u16 classIn
  let w ← w.u32 record.ttl
  w.lengthPrefixed (writeRecordData record.data)

def writeRecords (origin : Text) : List DnsRecord → Writer → Outcome Writer
  | [], w => .ok w
  | record :: records, w => do
    let w ← writeRecord origin record w
    writeRecords origin records w

def writeHeader (records : List DnsRecord) : Outcome Writer := do
  let w ← (Writer.mk [] []).u16 0
  let w ← w.u16 0x8000
  let w ← w.u16 0
  let w ← w.u16 records.length
  let w ← w.u16 0
  w.u16 0

def encodeDnsResponse (origin : Text) (records : List DnsRecord) : Outcome Bytes := do
  let w ← writeHeader records
  let w ← writeRecords origin records w
  rangeErrorIf (w.bytes.length > dnsPacketMaxBytes)
    (literal s!"DNS packet is too large, expected max 1000 bytes but got: {w.bytes.length}")
  return w.bytes

/-! ### Reading -/

/-- A computation on a reader: its state is the offset. -/
abbrev ReaderM := StateT ℕ Outcome

def endedEarly : Text := literal "DNS packet ended early"

def byteAt (packet : Bytes) (offset : ℕ) : Outcome UInt8 :=
  match packet[offset]? with
  | some value => .ok value
  | none => raise endedEarly

def slice (packet : Bytes) (first last : ℕ) : Outcome Bytes := do
  errorIf (last > packet.length ∨ first > last) endedEarly
  return (packet.drop first).take (last - first)

/-- The loop of `readName`. -/
structure NameCursor where
  cursor : ℕ
  consumed : ℕ
  followed : Bool
  nameLength : ℕ
  seenPointers : List ℕ
  labels : List Text

/-- What the loop consumes where it has followed no pointer. -/
def NameCursor.consume (c : NameCursor) (n : ℕ) : ℕ := if c.followed then c.consumed else c.consumed + n

section
variable (packet : Bytes)

namespace ReaderM

def u8 : ReaderM ℕ := fun offset => do
  let value ← byteAt packet offset
  return (value.toNat, offset + 1)

def u16 : ReaderM ℕ := fun offset => do
  let high ← byteAt packet offset
  let low ← byteAt packet (offset + 1)
  return (ofBeBytes [high, low], offset + 2)

def u32 : ReaderM ℕ := fun offset => do
  let b0 ← byteAt packet offset
  let b1 ← byteAt packet (offset + 1)
  let b2 ← byteAt packet (offset + 2)
  let b3 ← byteAt packet (offset + 3)
  return (ofBeBytes [b0, b1, b2, b3], offset + 4)

def take (length : ℕ) : ReaderM Bytes := fun offset => do
  let value ← slice packet offset (offset + length)
  return (value, offset + length)

def skip (length : ℕ) : ReaderM Unit := fun offset => do
  let _ ← slice packet offset (offset + length)
  return ((), offset + length)

def expectEnd (last : ℕ) : ReaderM Unit := fun offset => do
  errorIf (offset ≠ last) (literal "invalid DNS record length")
  return ((), offset)

def done : ReaderM Unit := fun offset => do
  errorIf (offset ≠ packet.length) (literal "trailing DNS packet bytes")
  return ((), offset)

/-- The values that are read while the offset is below the end; each takes a byte or more. -/
def whileBelow {α : Type} (last : ℕ) (read : ReaderM α) : ℕ → ReaderM (List α)
  | 0 => return []
  | rounds + 1 => do
    let offset ← get
    if offset < last then
      let value ← read
      let values ← whileBelow last read rounds
      return value :: values
    else return []

def times {α : Type} (read : ReaderM α) : ℕ → ReaderM (List α)
  | 0 => return []
  | count + 1 => do
    let value ← read
    let values ← times read count
    return value :: values

end ReaderM

open ReaderM

def readNameLoop : ℕ → NameCursor → Outcome NameCursor
  | 0, c => .ok c
  | rounds + 1, c => do
    let length ← byteAt packet c.cursor
    if length &&& 0xc0 = 0xc0 then
      let next ← byteAt packet (c.cursor + 1)
      let pointer := ofBeBytes [length, next] % 0x4000
      errorIf (OrderedSet.has c.seenPointers pointer = true) (literal "invalid DNS compression pointer")
      readNameLoop rounds
        ⟨pointer, c.consume 2, true, c.nameLength, OrderedSet.add c.seenPointers pointer, c.labels⟩
    else if length = 0 then return { c with cursor := c.cursor + 1, consumed := c.consume 1 }
    else
      errorIf (length.toNat > maxLabelBytes) (literal "invalid DNS label length")
      errorIf (c.nameLength + length.toNat + 1 ≥ maxNameBytes) (literal "invalid DNS name")
      let label ← slice packet (c.cursor + 1) (c.cursor + 1 + length.toNat)
      readNameLoop rounds ⟨c.cursor + 1 + length.toNat, c.consume (1 + length.toNat), c.followed,
        c.nameLength + length.toNat + 1, c.seenPointers, c.labels ++ [decodeUtf8 label]⟩

/-- There are `0x4000` pointers, and at most 127 labels fit into a name. -/
def readNameRounds : ℕ := 0x4000 + 128

def readName : ReaderM Text := fun offset => do
  let c ← readNameLoop packet readNameRounds ⟨offset, 0, false, 0, [], []⟩
  return ([dot].intercalate c.labels, offset + c.consumed)

def readChunks (last : ℕ) : ReaderM (List Bytes) :=
  whileBelow last (do
    let length ← u8 packet
    take packet length) last

def readServiceParam (key last : ℕ) : ReaderM ServiceParam :=
  match key with
  | 0 => do
    let values ← whileBelow last (u16 packet) last
    StateT.lift (validateMandatoryKeys values true)
    return .mandatory values
  | 1 => do
    let chunks ← readChunks packet last
    return .alpn (chunks.map .bytes)
  | 2 => do
    expectEnd last
    return .noDefaultAlpn
  | 3 => do
    let port ← u16 packet
    expectEnd last
    return .port port
  | 4 => do
    let chunks ← whileBelow last (take packet 4) last
    return .ipv4hint (chunks.map .bytes)
  | 5 => do
    let length ← u16 packet
    let data ← take packet length
    expectEnd last
    return .ech data
  | 6 => do
    let chunks ← whileBelow last (take packet 16) last
    return .ipv6hint (chunks.map .bytes)
  | key => do
    let offset ← get
    let value ← take packet (last - offset)
    return .unknown key value

/-- The loop of `readServiceBinding` after the key that was read last. -/
def readParams (last : ℕ) : ℕ → Option ℕ → ReaderM (List ServiceParam)
  | 0, _ => return []
  | rounds + 1, previous => do
    let offset ← get
    if offset < last then
      let key ← u16 packet
      let length ← u16 packet
      StateT.lift (errorIf (previous.any (fun previous => key ≤ previous) = true)
        (literal "SVCB parameters must be sorted by key"))
      let offset ← get
      let param ← readServiceParam packet key (offset + length)
      let params ← readParams last rounds (some key)
      return param :: params
    else return []

def readServiceBinding (last : ℕ) : ReaderM ServiceBinding := do
  let priority ← u16 packet
  let target ← readName packet
  let params ← readParams packet last last none
  StateT.lift (validateServiceBinding ⟨priority, target, params⟩)
  return ⟨priority, target, params⟩

def readRecordData (type last : ℕ) : ReaderM DnsRData :=
  match type with
  | 1 => do
    let address ← take packet 4
    return .a (.bytes address)
  | 28 => do
    let address ← take packet 16
    return .aaaa (.bytes address)
  | 5 => do
    let cname ← readName packet
    return .cname cname
  | 16 => do
    let chunks ← readChunks packet last
    return .txt (.chunks chunks)
  | 65 => do
    let binding ← readServiceBinding packet last
    return .https binding
  | 64 => do
    let binding ← readServiceBinding packet last
    return .svcb binding
  | type => StateT.lift (raise (literal s!"unsupported DNS record type: {type}"))

def readRecord : ReaderM DnsRecord := do
  let name ← readName packet
  let type ← u16 packet
  let rrClass ← u16 packet
  let ttl ← u32 packet
  let length ← u16 packet
  let offset ← get
  StateT.lift (errorIf (rrClass ≠ classIn) (literal s!"unsupported DNS class: {rrClass}"))
  let data ← readRecordData packet type (offset + length)
  expectEnd (offset + length)
  return ⟨name, ttl, data⟩

def skipRecord : ReaderM Unit := do
  let _ ← readName packet
  skip packet 8
  let length ← u16 packet
  skip packet length

def readResponse : ReaderM (List DnsRecord) := do
  let _ ← u16 packet
  let _ ← u16 packet
  let questions ← u16 packet
  let answers ← u16 packet
  let nameServers ← u16 packet
  let additionalRecords ← u16 packet
  let _ ← times (do
    let _ ← readName packet
    skip packet 4) questions
  let records ← times (readRecord packet) answers
  let _ ← times (skipRecord packet) (nameServers + additionalRecords)
  done packet
  return records

def parseDnsResponse : Outcome (List DnsRecord) := do
  errorIf (packet.length < headerBytes) (literal "DNS packet too short")
  let read ← readResponse packet 0
  return read.1

end

def findResourceRecords (records : List DnsRecord) (origin name : Text) : List DnsRecord :=
  let normalized := normalizeDnsName origin name
  if (literal "*.").isPrefixOf normalized then
    records.filter fun record =>
      (normalized.drop 1).isSuffixOf record.name &&
        !OrderedSet.has (record.name.take (record.name.length - (normalized.drop 1).length)) dot
  else records.filter fun record => record.name = normalized

end Enlace.Pkarr
