import Enlace.Pkarr.ServiceBindings
import Enlace.Pkarr.NameTable

set_option autoImplicit false

/-! What is read of a DNS response is what was written, up to the names that share a key. -/
namespace Enlace.Pkarr
open ByteString Unicode List Fallible ReaderM Writer

/-! ### Records -/

def txtBytes : TxtData → Bytes
  | .text text => encodeUtf8 text
  | .bytes text => text
  | .chunks text => text.flatten

lemma splitChunks_flatten {rounds : ℕ} {bytes : Bytes} (h : bytes.length ≤ rounds) :
    (splitChunks rounds bytes).flatten = bytes := by
 induction rounds generalizing bytes with
 | zero => exact (length_eq_zero_iff.mp (Nat.le_zero.mp h)).symm
 | succ rounds ih =>
  rw [splitChunks]
  split_ifs with he
  · exact (length_eq_zero_iff.mp he).symm
  · have hrest : (bytes.drop 254).length ≤ rounds := by
     rw [length_drop]
     omega
    rw [flatten_cons,ih hrest,take_append_drop]

lemma splitTxtBytes_flatten (bytes : Bytes) : (splitTxtBytes bytes).flatten = bytes := by
 have ha:=splitChunks_flatten (le_refl bytes.length)
 rw [splitTxtBytes]
 split_ifs with he
 · rw [length_eq_zero_iff.mp he] at ha
   exact ha
 · exact ha

lemma txtChunks_flatten (text : TxtData) : (txtChunks text).flatten = txtBytes text := by
 cases text with
 | text text | bytes text => exact splitTxtBytes_flatten _
 | chunks text => rfl

/-- The data of a record, and what is read of it where names and targets are read so. -/
inductive ParsedData (nameText targetText : Text → Text) : DnsRData → DnsRData → Prop where
  | a {address : TextOrBytes} {value : Bytes} (h : ipv4Bytes address = .ok value) :
    ParsedData nameText targetText (.a address) (.a (.bytes value))
  | aaaa {address : TextOrBytes} {value : Bytes} (h : ipv6Bytes address = .ok value) :
    ParsedData nameText targetText (.aaaa address) (.aaaa (.bytes value))
  | cname (cname : Text) : ParsedData nameText targetText (.cname cname) (.cname (nameText cname))
  | txt {text : TxtData} {chunks : List Bytes} (h : chunks.flatten = txtBytes text) :
    ParsedData nameText targetText (.txt text) (.txt (.chunks chunks))
  | https {binding parsed : ServiceBinding} (h : ParsedBinding targetText binding parsed) :
    ParsedData nameText targetText (.https binding) (.https parsed)
  | svcb {binding parsed : ServiceBinding} (h : ParsedBinding targetText binding parsed) :
    ParsedData nameText targetText (.svcb binding) (.svcb parsed)

def afterName (table : NameTable) (name : Text) : NameTable := (readBack table (wireLabels name)).2

def afterData (table : NameTable) : DnsRData → NameTable
  | .cname cname => afterName table cname
  | _ => table

variable {table : NameTable}

lemma Keyed.afterName (h : Keyed table) (name : Text) : Keyed (afterName table name) :=
 (h.readBack _).2.2

lemma Keyed.afterData (h : Keyed table) (data : DnsRData) : Keyed (afterData table data) := by
 cases data with
 | cname cname => exact h.afterName cname
 | _ => exact h

structure DataWritten (data : DnsRData) (w w' : Writer) (value : Bytes) : Prop where
  read : ∀ {packet rest : Bytes} {table : NameTable}, packet.length ≤ 0x4000 →
    Follows packet w.bytes.length (value ++ rest) → Keyed table → RefsAt packet w.bytes.length w.refs table →
    (∃ read, ParsedData (readText table) plainText data read ∧
      readRecordData packet (recordType data) (w.bytes.length + value.length) w.bytes.length =
        .ok (read, w.bytes.length + value.length)) ∧
      RefsAt packet w'.bytes.length w'.refs (afterData table data)

variable {data : DnsRData}

lemma DataWritten.of_plain {w : Writer} {value : Bytes} (ha : ∀ table, afterData table data = table)
    (h : ∀ {pkt rest : Bytes}, pkt.length ≤ 0x4000 → Follows pkt w.bytes.length (value ++ rest) →
      ∃ read, (∀ table, ParsedData (readText table) plainText data read) ∧
        readRecordData pkt (recordType data) (w.bytes.length + value.length) w.bytes.length =
          .ok (read, w.bytes.length + value.length)) : DataWritten data w (w.write value) value := by
 refine ⟨fun {pkt rest table} hp hf _ hre=>?_⟩
 obtain ⟨read,hpa,hr⟩:=h hp hf
 rw [ha]
 refine ⟨⟨read,hpa table,hr⟩,hre.mono ?_⟩
 rw [write,length_append]
 exact Nat.le_add_right _ _

variable {w w' : Writer}

lemma writeRecordData_spec (h : writeRecordData data w = .ok w') :
    ∃ value, w'.bytes = w.bytes ++ value ∧ DataWritten data w w' value := by
 cases data with
 | a address =>
  obtain ⟨value,hv,hw⟩:=bind_eq_ok.mp h
  cases hw
  refine ⟨value,rfl,.of_plain (fun _=>rfl) fun _ hf=>⟨_,fun _=>.a hv,?_⟩⟩
  have hr:=take_of_follows hf
  rw [ipv4Bytes_length hv] at hr ⊢
  exact bind_ok hr
 | aaaa address =>
  obtain ⟨value,hv,hw⟩:=bind_eq_ok.mp h
  cases hw
  refine ⟨value,rfl,.of_plain (fun _=>rfl) fun _ hf=>⟨_,fun _=>.aaaa hv,?_⟩⟩
  have hr:=take_of_follows hf
  rw [ipv6Bytes_length hv] at hr ⊢
  exact bind_ok hr
 | cname cname =>
  obtain ⟨value,hb,hn⟩:=writeCompressedName_spec h
  refine ⟨value,hb,⟨fun {pkt rest table} hp hf hk hre=>?_⟩⟩
  obtain ⟨hr,ha⟩:=hn hp hf hk hre
  rw [hb,length_append] at hr
  exact ⟨⟨_,.cname cname,bind_ok hr⟩,ha⟩
 | txt text =>
  obtain ⟨rfl,hmax⟩:=chunks_eq_ok h
  refine ⟨_,rfl,.of_plain (fun _=>rfl) fun _ hf=>⟨_,fun _=>.txt (txtChunks_flatten text),?_⟩⟩
  exact bind_ok (readChunks_of_follows hmax hf rfl)
 | https binding =>
  obtain ⟨value,parsed,rfl,hpa,hr⟩:=writeServiceBinding_spec h
  refine ⟨value,rfl,.of_plain (fun _=>rfl) fun hp hf=>⟨_,fun _=>.https hpa,?_⟩⟩
  exact bind_ok (hr hp hf rfl)
 | svcb binding =>
  obtain ⟨value,parsed,rfl,hpa,hr⟩:=writeServiceBinding_spec h
  refine ⟨value,rfl,.of_plain (fun _=>rfl) fun hp hf=>⟨_,fun _=>.svcb hpa,?_⟩⟩
  exact bind_ok (hr hp hf rfl)

structure ReadRecord (origin : Text) (table : NameTable) (record read : DnsRecord) : Prop where
  name : read.name = readText table (normalizeDnsName origin record.name)
  ttl : read.ttl = record.ttl
  data : ParsedData (readText (afterName table (normalizeDnsName origin record.name))) plainText record.data read.data

def afterRecord (origin : Text) (table : NameTable) (record : DnsRecord) : NameTable :=
  afterData (afterName table (normalizeDnsName origin record.name)) record.data

variable {origin : Text}

lemma writeRecord_spec {record : DnsRecord} (h : writeRecord origin record w = .ok w') :
    ∃ value, w'.bytes = w.bytes ++ value ∧ ∀ {pkt rest : Bytes} {table : NameTable}, pkt.length ≤ 0x4000 →
      Follows pkt w.bytes.length (value ++ rest) → Keyed table → RefsAt pkt w.bytes.length w.refs table →
      (∃ read, ReadRecord origin table record read ∧ readRecord pkt w.bytes.length = .ok (read, w'.bytes.length)) ∧
        RefsAt pkt w'.bytes.length w'.refs (afterRecord origin table record) := by
 obtain ⟨named,hnd,hrest⟩:=bind_eq_ok.mp h
 obtain ⟨typed,hty,hrest⟩:=bind_eq_ok.mp hrest
 obtain ⟨classed,hcl,hrest⟩:=bind_eq_ok.mp hrest
 obtain ⟨aged,hag,hpr⟩:=bind_eq_ok.mp hrest
 obtain ⟨name,hne,hre⟩:=writeCompressedName_spec hnd
 obtain ⟨hte,rfl⟩:=u16_eq_ok.mp hty
 obtain ⟨_,rfl⟩:=u16_eq_ok.mp hcl
 obtain ⟨httl,rfl⟩:=u32_eq_ok.mp hag
 obtain ⟨written,hw,hs⟩:=lengthPrefixed_eq_ok hpr
 obtain ⟨data,hdata,hr⟩:=writeRecordData_spec hw
 obtain rfl:=hs hdata
 have hst : named.bytes.length = w.bytes.length+name.length := by rw [hne,length_append]
 have ho : ∀ n, (((((named.write (beBytes 2 (recordType record.data))).write (beBytes 2 classIn)).write
   (beBytes 4 record.ttl)).write (beBytes 2 n)).bytes.length) = named.bytes.length+2+2+4+2 := by
  intro n
  simp only [write,length_append,beBytes_length]
 refine ⟨name ++ (beBytes 2 (recordType record.data) ++ (beBytes 2 classIn ++ (beBytes 4 record.ttl ++
  (beBytes 2 data.length ++ data)))),?_,?_⟩
 · simp only [write,hne,append_assoc]
 intro pkt rest table hp hf hk hrs
 have hsi:=hf.length_le
 simp only [length_append,beBytes_length] at hsi
 simp only [append_assoc] at hf
 obtain ⟨hn,hna⟩:=hre hp hf hk hrs
 have ht:=hst.symm ▸ hf.skip
 have hc:=ht.skip_of_length (beBytes_length 2 _)
 have htt:=hc.skip_of_length (beBytes_length 2 _)
 have hl:=htt.skip_of_length (beBytes_length 4 _)
 have hda:=hl.skip_of_length (beBytes_length 2 _)
 rw [← ho 0] at hda
 obtain ⟨⟨read,hpa,hd⟩,ha⟩:=hr.read hp hda (hk.afterName _)
  (hna.mono (by rw [ho]; omega))
 have he : written.bytes.length = named.bytes.length+2+2+4+2+data.length := by
  rw [hdata,length_append,ho]
 rw [ho] at hd
 have hcs : classIn < 0x10000 := by
  omega
 have hla : (mk (((((named.write (beBytes 2 (recordType record.data))).write (beBytes 2 classIn)).write
   (beBytes 4 record.ttl)).bytes ++ (beBytes 2 data.length ++ data))) written.refs).bytes.length =
   named.bytes.length+2+2+4+2+data.length := by
  simp only [write,length_append,beBytes_length]
  omega
 rw [hla]
 refine ⟨⟨⟨_,record.ttl,read⟩,⟨rfl,rfl,hpa⟩,?_⟩,he ▸ ha⟩
 rw [readRecord,bind_ok hn,bind_ok (u16_of_follows ht (Nat.lt_succ_of_le hte)),bind_ok (u16_of_follows hc hcs),
  bind_ok (u32_of_follows htt (Nat.lt_succ_of_le httl)),
  bind_ok (u16_of_follows hl (by omega)),get_bind,
  lift_bind (errorIf_eq_ok (u := ()).mpr (not_not.mpr rfl)),bind_ok hd]
 exact expectEnd_bind _

inductive ReadRecords (origin : Text) : NameTable → List DnsRecord → List DnsRecord → Prop where
  | nil {table : NameTable} : ReadRecords origin table [] []
  | cons {table : NameTable} {record read : DnsRecord} {records reads : List DnsRecord}
    (h : ReadRecord origin table record read)
    (hrest : ReadRecords origin (afterRecord origin table record) records reads) :
    ReadRecords origin table (record :: records) (read :: reads)

variable {records : List DnsRecord}

lemma writeRecords_spec (h : writeRecords origin records w = .ok w') :
    ∃ value, w'.bytes = w.bytes ++ value ∧ ∀ {pkt : Bytes} {table : NameTable}, pkt.length ≤ 0x4000 →
      Follows pkt w.bytes.length value → Keyed table → RefsAt pkt w.bytes.length w.refs table →
      ∃ reads, ReadRecords origin table records reads ∧
        ReaderM.times (readRecord pkt) records.length w.bytes.length = .ok (reads, w'.bytes.length) := by
 induction records generalizing w with
 | nil =>
  cases h
  exact ⟨[],(append_nil _).symm,fun _ _ _ _=>⟨[],.nil,rfl⟩⟩
 | cons record records ih =>
  obtain ⟨written,hw,hrest⟩:=bind_eq_ok.mp h
  obtain ⟨value,hb,hrd⟩:=writeRecord_spec hw
  obtain ⟨values,hv,hrs⟩:=ih hrest
  refine ⟨value ++ values,by rw [hv,hb,append_assoc],?_⟩
  intro pkt table hp hf hk href
  obtain ⟨⟨read,hre,hread⟩,ha⟩:=hrd hp hf hk href
  have hn : Follows pkt written.bytes.length values := by
   rw [hb,length_append]
   exact hf.skip
  obtain ⟨reads,hr,hrea⟩:=hrs hp hn ((hk.afterName _).afterData _) ha
  refine ⟨read :: reads,.cons hre hr,?_⟩
  rw [length_cons,times,bind_ok hread,bind_ok hrea]
  rfl

lemma writeHeader_eq_ok (h : writeHeader records = .ok w) :
    records.length ≤ 0xffff ∧ w.refs = [] ∧ w.bytes = beBytes 2 0 ++ (beBytes 2 0x8000 ++ (beBytes 2 0 ++
      (beBytes 2 records.length ++ (beBytes 2 0 ++ beBytes 2 0)))) := by
 simp only [writeHeader,bind_eq_ok,u16_eq_ok] at h
 obtain ⟨_,⟨_,rfl⟩,_,⟨_,rfl⟩,_,⟨_,rfl⟩,_,⟨hl,rfl⟩,_,⟨_,rfl⟩,_,rfl⟩:=h
 exact ⟨hl,rfl,by simp only [write,nil_append,append_assoc]⟩

/-- Whatever is written can be read, and names that share no key with another one are read as they were. -/
theorem parseDnsResponse_encodeDnsResponse {pkt : Bytes} (h : encodeDnsResponse origin records = .ok pkt) :
    ∃ reads, parseDnsResponse pkt = .ok reads ∧ ReadRecords origin [] records reads := by
 obtain ⟨header,hh,hrest⟩:=bind_eq_ok.mp h
 obtain ⟨w,hw,hrest⟩:=bind_eq_ok.mp hrest
 obtain ⟨hmax,rfl⟩:=checked_eq_ok.mp hrest
 rw [rangeErrorIf_eq_ok,dnsPacketMaxBytes] at hmax
 obtain ⟨hc,hrs,hb⟩:=writeHeader_eq_ok hh
 obtain ⟨value,hv,hr⟩:=writeRecords_spec hw
 have hs : header.bytes.length = 12 := by
  rw [hb]
  simp only [length_append,beBytes_length]
 have hf : Follows w.bytes header.bytes.length value := ⟨header.bytes,hv,rfl⟩
 have hl:=hf.length_le
 have hn : RefsAt w.bytes header.bytes.length header.refs [] := fun key=>by
  rw [hrs]
  exact .none
 have hk : Keyed [] := fun key labels hg=>by cases hg
 obtain ⟨reads,hre,ht⟩:=hr (by omega) hf hk hn
 refine ⟨reads,?_,hre⟩
 have hz : Follows w.bytes 0 (header.bytes ++ value) := ⟨[],hv,rfl⟩
 simp only [hb,append_assoc] at hz
 have htw:=hz.skip_of_length (beBytes_length 2 _)
 have hfo:=htw.skip_of_length (beBytes_length 2 _)
 have hsi:=hfo.skip_of_length (beBytes_length 2 _)
 have height:=hsi.skip_of_length (beBytes_length 2 _)
 have hte:=height.skip_of_length (beBytes_length 2 _)
 have hd : done w.bytes w.bytes.length = .ok ((),w.bytes.length) := by
  rw [done,errorIf,if_neg (not_not.mpr rfl)]
  rfl
 have hrd : readResponse w.bytes 0 = .ok (reads,w.bytes.length) := by
  rw [hs] at ht
  rw [readResponse,bind_ok (u16_of_follows hz (by omega)),
   bind_ok (u16_of_follows htw (by omega)),bind_ok (u16_of_follows hfo (by omega)),
   bind_ok (u16_of_follows hsi (Nat.lt_succ_of_le hc)),
   bind_ok (u16_of_follows height (by omega)),bind_ok (u16_of_follows hte (by omega))]
  exact (bind_ok rfl).trans ((bind_ok ht).trans ((bind_ok rfl).trans (bind_ok hd)))
 rw [parseDnsResponse,errorIf,if_neg (by rw [headerBytes]; omega),hrd]
 rfl

/-! ### Names that share a key -/

def dataNames : DnsRData → List Text
  | .cname cname => [cname]
  | _ => []

def sharedNames (origin : Text) (records : List DnsRecord) : List Text :=
  records.flatMap fun record => normalizeDnsName origin record.name :: dataNames record.data

def UnicodeData : DnsRData → Prop
  | .cname cname => UnicodeName cname
  | .https binding | .svcb binding => UnicodeName binding.target
  | _ => True

instance decidableUnicodeData : (data : DnsRData) → Decidable (UnicodeData data)
  | .cname cname => decidableUnicodeName cname
  | .https binding | .svcb binding => decidableUnicodeName binding.target
  | .a _ | .aaaa _ | .txt _ => .isTrue trivial

def UnicodeRecord (record : DnsRecord) : Prop := UnicodeName record.name ∧ UnicodeData record.data

instance decidableUnicodeRecord (record : DnsRecord) : Decidable (UnicodeRecord record) :=
  inferInstanceAs (Decidable (UnicodeName record.name ∧ UnicodeData record.data))

def joined (name : Text) : Text := joinLabels (labelsOf name)

structure Parsed (origin : Text) (record parsed : DnsRecord) : Prop where
  name : parsed.name = joined (normalizeDnsName origin record.name)
  ttl : parsed.ttl = record.ttl
  data : ParsedData joined joined record.data parsed.data

variable {P : Bytes → Prop} {name : Text}

lemma UnicodeName.plainText (h : UnicodeName name) : plainText name = joined name :=
 congrArg joinLabels h.decode

lemma ParsedBinding.congr {targetText otherText : Text → Text} {binding parsed : ServiceBinding}
    (h : ParsedBinding targetText binding parsed) (ht : targetText binding.target = otherText binding.target) :
    ParsedBinding otherText binding parsed :=
 ⟨h.priority,h.target.trans ht,h.params⟩

lemma ParsedData.joined_iff {read : DnsRData}
    (h : ParsedData (readText table) Pkarr.plainText data read) (hdata : UnicodeData data)
    (hta : MadeOf PlainBytes table)
    (names : List (List Bytes)) : (ParsedData joined joined data read ∧ ReadsBack (afterData table data) names) ↔
      ReadsBack table ((dataNames data).map wireLabels ++ names) := by
 cases h with
 | a hv => exact and_iff_right (.a hv)
 | aaaa hv => exact and_iff_right (.aaaa hv)
 | cname cname =>
  refine and_congr_left fun _=>Iff.trans ⟨fun hp=>?_,fun ht=>?_⟩ (hdata.readText_iff hta)
  · generalize ht : readText table cname = text at hp
    cases hp
    rfl
  · rw [ht]
    exact .cname cname
 | txt hc => exact and_iff_right (.txt hc)
 | https hb => exact and_iff_right (.https (hb.congr hdata.plainText))
 | svcb hb => exact and_iff_right (.svcb (hb.congr hdata.plainText))

lemma MadeOf.afterName (h : MadeOf P table)
    (hn : ∀ bytes ∈ wireLabels name, P bytes) : MadeOf P (afterName table name) :=
 (h.readBack hn).2

lemma MadeOf.afterData (h : MadeOf P table)
    (hdata : ∀ name ∈ dataNames data, ∀ bytes ∈ wireLabels name, P bytes) : MadeOf P (afterData table data) := by
 cases data with
 | cname cname => exact h.afterName (hdata cname (mem_singleton.mpr rfl))
 | _ => exact h

lemma UnicodeData.plainBytes (h : UnicodeData data) :
    ∀ name ∈ dataNames data, ∀ bytes ∈ wireLabels name, PlainBytes bytes := by
 cases data with
 | cname cname =>
  intro name hn
  rw [mem_singleton.mp hn]
  exact UnicodeName.plainBytes h
 | _ => exact nofun

lemma ReadRecords.parsed_iff (hor : UnicodeName origin)
    {reads : List DnsRecord} (h : ReadRecords origin table records reads) (ht : MadeOf PlainBytes table)
    (hre : ∀ record ∈ records, UnicodeRecord record) :
    List.Forall₂ (Parsed origin) records reads ↔ ReadsBack table ((sharedNames origin records).map wireLabels) := by
 induction h with
 | nil => exact ⟨fun _=>trivial,fun _=>.nil⟩
 | @cons table record read records reads hr _ ih =>
  obtain ⟨⟨hna,hdata⟩,hrest⟩:=forall_mem_cons.mp hre
  have ho:=hor.normalize hna
  have ha:=ht.afterName ho.plainBytes
  have hn : (sharedNames origin (record :: records)).map wireLabels =
    wireLabels (normalizeDnsName origin record.name) ::
     ((dataNames record.data).map wireLabels ++ (sharedNames origin records).map wireLabels) := by
   rw [sharedNames,flatMap_cons,map_append]
   rfl
  have hr' : Parsed origin record read ↔
    readText table (normalizeDnsName origin record.name) = joined (normalizeDnsName origin record.name) ∧
     ParsedData joined joined record.data read.data :=
   ⟨fun hp=>⟨hr.name.symm.trans hp.name,hp.data⟩,
    fun hp=>⟨hr.name.trans hp.1,hr.ttl,hp.2⟩⟩
  rw [forall₂_cons,ih (ha.afterData hdata.plainBytes) hrest,hn,hr',and_assoc]
  exact and_congr (ho.readText_iff ht) (hr.data.joined_iff hdata ha _)

lemma writeCompressedName_labels (h : writeCompressedName name w = .ok w') : Labels (wireLabels name) := by
 obtain ⟨labels,hl,_⟩:=bind_eq_ok.mp h
 obtain ⟨rfl,_,hv⟩:=nameLabels_eq_ok hl
 exact hv

lemma writeRecords_labels
    (h : writeRecords origin records w = .ok w') :
    ∀ name ∈ (sharedNames origin records).map wireLabels, Labels name := by
 induction records generalizing w with
 | nil => exact nofun
 | cons record records ih =>
  obtain ⟨written,hw,hrest⟩:=bind_eq_ok.mp h
  obtain ⟨named,hn,hw⟩:=bind_eq_ok.mp hw
  obtain ⟨_,_,hw⟩:=bind_eq_ok.mp hw
  obtain ⟨_,_,hw⟩:=bind_eq_ok.mp hw
  obtain ⟨_,_,hw⟩:=bind_eq_ok.mp hw
  obtain ⟨_,hdata,_⟩:=lengthPrefixed_eq_ok hw
  intro name hm
  rw [sharedNames,flatMap_cons,map_append] at hm
  rcases mem_append.mp hm with hr|hm
  · rcases mem_cons.mp hr with rfl|hm
    · exact writeCompressedName_labels hn
    · cases hc : record.data with
      | cname cname =>
       rw [hc] at hdata hm
       rw [mem_singleton.mp hm]
       exact writeCompressedName_labels hdata
      | _ =>
       rw [hc] at hm
       exact absurd hm not_mem_nil
  · exact ih hrest name hm

/-- A response is read as it was written exactly if no key stands for two ends of its names. -/
theorem parseDnsResponse_encode_iff {origin : Text} {records : List DnsRecord} {packet : Bytes}
    (h : encodeDnsResponse origin records = .ok packet) (horigin : UnicodeName origin)
    (hrecords : ∀ record ∈ records, UnicodeRecord record) :
    (∃ parsed, parseDnsResponse packet = .ok parsed ∧ List.Forall₂ (Parsed origin) records parsed) ↔
      Unambiguous ((sharedNames origin records).map wireLabels) := by
 obtain ⟨reads,hpa,hr⟩:=parseDnsResponse_encodeDnsResponse h
 obtain ⟨_,_,hrest⟩:=bind_eq_ok.mp h
 obtain ⟨_,hw,_⟩:=bind_eq_ok.mp hrest
 have he : MadeOf PlainBytes [] := fun _ _ hg=>by cases hg
 rw [← readsBack_iff (writeRecords_labels hw),← hr.parsed_iff horigin he hrecords]
 constructor
 · rintro ⟨parsed,hp,hrecords⟩
   rw [hpa] at hp
   exact Except.ok.inj hp ▸ hrecords
 · exact fun hp=>⟨reads,hpa,hp⟩

theorem parse_of_service_records :
    ∃ packet, encodeDnsResponse (literal "o") [⟨literal "www", 30, .cname (literal "a.o.")⟩,
        ⟨literal "_iroh.@", 30, .txt (.text (literal "relay"))⟩,
        ⟨literal "a.o", 30, .https ⟨1, literal ".", [.port 443, .alpn [.text (literal "h3")]]⟩⟩] = .ok packet ∧
      ∃ parsed, parseDnsResponse packet = .ok parsed ∧
        List.Forall₂ (Parsed (literal "o")) [⟨literal "www", 30, .cname (literal "a.o.")⟩,
          ⟨literal "_iroh.@", 30, .txt (.text (literal "relay"))⟩,
          ⟨literal "a.o", 30, .https ⟨1, literal ".", [.port 443, .alpn [.text (literal "h3")]]⟩⟩] parsed := by
 refine exists_ok_and (P := fun _=>True) (by decide +kernel) fun packet he _=>?_
 refine (parseDnsResponse_encode_iff he ?_ ?_).mpr (unambiguous_of_no_zero ?_)
 · decide +kernel
 · decide +kernel
 · decide +kernel

theorem parse_of_zero_label :
    ∃ (packet : Bytes) (parsed : List DnsRecord), encodeDnsResponse (literal "o")
      [⟨[0x61, 0, 0x62], 30, .a (.text (literal "1.2.3.4"))⟩,
        ⟨literal "a.b", 30, .a (.text (literal "5.6.7.8"))⟩] = .ok packet ∧
      parseDnsResponse packet = .ok parsed ∧
      UnicodeName (literal "o") ∧ UnicodeName [0x61, 0, 0x62] ∧ UnicodeName (literal "a.b") ∧
      parsed.map DnsRecord.name = [[0x61, 0, 0x62] ++ literal ".o", [0x61, 0, 0x62] ++ literal ".o"] ∧
      ¬ List.Forall₂ (Parsed (literal "o")) [⟨[0x61, 0, 0x62], 30, .a (.text (literal "1.2.3.4"))⟩,
        ⟨literal "a.b", 30, .a (.text (literal "5.6.7.8"))⟩] parsed := by
 have hev : (do
   let packet ← encodeDnsResponse (literal "o") [⟨[0x61,0,0x62],30,.a (.text (literal "1.2.3.4"))⟩,
    ⟨literal "a.b",30,.a (.text (literal "5.6.7.8"))⟩]
   let parsed ← parseDnsResponse packet
   return parsed.map DnsRecord.name) = .ok [[0x61,0,0x62] ++ literal ".o",[0x61,0,0x62] ++ literal ".o"] := by
  decide +kernel
 obtain ⟨packet,he,hrest⟩:=bind_eq_ok.mp hev
 obtain ⟨parsed,hp,hn⟩:=bind_eq_ok.mp hrest
 rw [pure_eq_ok] at hn
 refine ⟨packet,parsed,he,hp,by decide +kernel,by decide +kernel,by decide +kernel,hn,fun h=>?_⟩
 rcases h with _|⟨_,_|⟨hs,_⟩⟩
 simp only [map_cons,cons.injEq] at hn
 have hna:=hn.2.1.symm.trans hs.name
 exact absurd hna (by decide +kernel)

end Enlace.Pkarr
