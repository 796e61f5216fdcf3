import Enlace.Pkarr.PacketBytes

set_option autoImplicit false

/-! Which records of a signed packet are found under the names that they were published with. -/
namespace Enlace.Pkarr
open ByteString Unicode List Fallible SignedPacketBuilder

/-! ### Names that are asked for -/

def IsWildcard (normalized : Text) : Prop := literal "*." <+: normalized

def Matches (normalized name : Text) : Prop :=
  (¬ IsWildcard normalized ∧ name = normalized) ∨
    (IsWildcard normalized ∧ ∃ label, dot ∉ label ∧ name = label ++ normalized.drop 1)

variable {labels : List Text} {name origin : Text} {reads records : List DnsRecord}

lemma mem_findResourceRecords {record : DnsRecord} : record ∈ findResourceRecords records origin name ↔
      record ∈ records ∧ Matches (normalizeDnsName origin name) record.name := by
 unfold findResourceRecords Matches IsWildcard
 generalize normalizeDnsName origin name = normalized
 dsimp only
 split_ifs with hw
 · have hw' : literal "*." <+: normalized := isPrefixOf_iff_prefix.mp hw
   rw [mem_filter]
   refine and_congr_right fun _=>?_
   simp only [hw',not_true_eq_false,false_and,true_and,false_or,Bool.and_eq_true,Bool.not_eq_true',
    ← Bool.not_eq_true,OrderedSet.has_eq_true,isSuffixOf_iff_suffix]
   constructor
   · rintro ⟨⟨label,hlabel⟩,hd⟩
     have ht : record.name.take (record.name.length - (normalized.drop 1).length) = label := by
      rw [← hlabel,length_append,Nat.add_sub_cancel,take_left]
     exact ⟨label,ht ▸ hd,hlabel.symm⟩
   · rintro ⟨label,hd,hn⟩
     have ht : record.name.take (record.name.length - (normalized.drop 1).length) = label := by
      rw [hn,length_append,Nat.add_sub_cancel,take_left]
     exact ⟨⟨label,hn.symm⟩,ht.symm ▸ hd⟩
 · have hp : ¬ literal "*." <+: normalized := mt isPrefixOf_iff_prefix.mpr hw
   rw [mem_filter]
   refine and_congr_right fun _=>?_
   simp [hp]

lemma matches_self (name : Text) : Matches name name := by
 by_cases h : IsWildcard name
 · obtain ⟨rest,rfl⟩:=h
   refine .inr ⟨⟨rest,rfl⟩,literal "*",by decide,?_⟩
   rfl
 · exact .inl ⟨h,rfl⟩

/-! ### Labels that go through the wire -/

def LabelBytes (bytes : Bytes) : Prop := ∃ label, label ≠ [] ∧ dot ∉ label ∧ encodeUtf8 label = bytes

lemma labelBytes_of_mem (name : Text) : ∀ bytes ∈ wireLabels name, LabelBytes bytes := by
 intro bytes hm
 obtain ⟨label,hlabel,rfl⟩:=mem_map.mp hm
 obtain ⟨hp,hl⟩:=mem_filter.mp hlabel
 refine ⟨label,fun hn=>?_,not_mem_of_mem_splitOn hp,rfl⟩
 rw [hn] at hl
 exact absurd hl (by decide)

namespace LabelBytes

variable {bytes : Bytes}

lemma length_pos (h : LabelBytes bytes) : 0 < bytes.length := by
 obtain ⟨label,hne,_,rfl⟩:=h
 exact encodeUtf8_length_pos (length_pos_iff.mpr hne)

lemma noDot (h : LabelBytes bytes) : dot ∉ decodeUtf8 bytes := by
 obtain ⟨label,_,hd,rfl⟩:=h
 exact fun hm=>hd (mem_of_mem_decodeUtf8 (by decide) hm)

lemma encode_decode (h : LabelBytes bytes) :
    encodeUtf8 (decodeUtf8 bytes) = bytes ∨ (encodeUtf8 (decodeUtf8 bytes)).length < bytes.length := by
 obtain ⟨label,_,_,rfl⟩:=h
 exact encodeUtf8_decodeUtf8 label

end LabelBytes

def written (labels : List Text) : List Bytes := (labels.filter fun label => label.length > 0).map encodeUtf8

lemma written_of_nonempty (h : ∀ label ∈ labels, label ≠ []) : written labels = labels.map encodeUtf8 := by
 have ha : labels.filter (fun label=>label.length > 0) = labels := filter_eq_self.mpr fun label hm=>
  decide_eq_true (length_pos_iff.mpr (h label hm))
 rw [written,ha]

/-- Labels that are read are not shorter than what is written of them, and as long only if the same. -/
theorem nameLength_written {read : List Bytes} (h : ∀ bytes ∈ read, LabelBytes bytes) :
    nameLength (written (read.map decodeUtf8)) ≤ nameLength read ∧
      (nameLength (written (read.map decodeUtf8)) = nameLength read →
        (∀ label ∈ read.map decodeUtf8, label ≠ []) ∧ (read.map decodeUtf8).map encodeUtf8 = read) := by
 induction read with
 | nil => exact ⟨le_rfl,fun _=>⟨nofun,rfl⟩⟩
 | cons bytes read ih =>
  obtain ⟨hb,hr⟩:=forall_mem_cons.mp h
  obtain ⟨hle,heq⟩:=ih hr
  have hsu : nameLength (bytes :: read) = bytes.length+1+nameLength read := sum_cons
  by_cases he : decodeUtf8 bytes = []
  · have hsk : written ((bytes :: read).map decodeUtf8) = written (read.map decodeUtf8) := by
     rw [map_cons,he]
     rfl
    rw [hsk,hsu]
    exact ⟨by omega,fun hs=>by omega⟩
  · have hk : written ((bytes :: read).map decodeUtf8) =
      encodeUtf8 (decodeUtf8 bytes) :: written (read.map decodeUtf8) := by
     have hp : decide ((decodeUtf8 bytes).length > 0) = true := decide_eq_true (length_pos_iff.mpr he)
     rw [written,map_cons,filter_cons,if_pos hp]
     rfl
    have hs' : nameLength (encodeUtf8 (decodeUtf8 bytes) :: written (read.map decodeUtf8)) =
     (encodeUtf8 (decodeUtf8 bytes)).length+1+nameLength (written (read.map decodeUtf8)) := sum_cons
    rw [hk,hsu,hs']
    rcases hb.encode_decode with hs|hsh
    · rw [hs]
      refine ⟨by omega,fun ht=>?_⟩
      obtain ⟨hn,hba⟩:=heq (by omega)
      rw [map_cons,map_cons,hs,hba]
      exact ⟨forall_mem_cons.mpr ⟨he,hn⟩,rfl⟩
    · exact ⟨by omega,fun ht=>by omega⟩

def Survives (name : Text) : Prop := ∀ label ∈ name.splitOn dot, label ≠ [] ∧ decodeUtf8 (encodeUtf8 label) = label

lemma survives_of_written {read : List Bytes} (hl : read.map decodeUtf8 = labels)
    (hba : labels.map encodeUtf8 = read) : ∀ label ∈ labels, decodeUtf8 (encodeUtf8 label) = label := by
 have hb : (labels.map encodeUtf8).map decodeUtf8 = labels := by rw [hba,hl]
 rw [map_map] at hb
 exact fun label hm=>map_inj_left.mp (hb.trans (map_id _).symm) label hm

lemma splitOn_wildcard (h : IsWildcard name) :
    ∃ rest : Text, name.drop 1 = dot :: rest ∧ name.splitOn dot = literal "*" :: rest.splitOn dot := by
 obtain ⟨rest,rfl⟩:=h
 refine ⟨rest,rfl,?_⟩
 have hs : dot ∉ literal "*" := by decide
 exact splitOn_append_cons_self_of_not_mem hs rest

variable {table : NameTable}

/-- A name is found where it is asked for exactly if it was read as it was written, label by label. -/
theorem matches_readText_iff (hne : name ≠ []) (hta : MadeOf LabelBytes table) (hk : Keyed table) :
    Matches name (readText table name) ↔ Survives name ∧ (readBack table (wireLabels name)).1 = wireLabels name := by
 have hrd:=(hta.readBack (labelBytes_of_mem name)).1
 obtain ⟨hke,hni,_⟩:=hk.readBack (wireLabels name)
 have hlh:=hk.nameLength (wireLabels name)
 have hw : wireLabels name = written (name.splitOn dot) := rfl
 rw [readText]
 generalize (readBack table (wireLabels name)).1 = read at *
 -- The text that is read has the labels that are read.
 have hsp : read ≠ [] → (joinLabels (read.map decodeUtf8)).splitOn dot = read.map decodeUtf8 := by
  intro hr
  refine splitOn_intercalate dot (fun label hm=>?_) (mt map_eq_nil_iff.mp hr)
  obtain ⟨bytes,hby,rfl⟩:=mem_map.mp hm
  exact (hrd bytes hby).noDot
 constructor
 · rintro (⟨_,hna⟩|⟨hwi,label,hdo,hna⟩)
   · have hr : read ≠ [] := fun he=>hne (by rw [← hna,he]; rfl)
     have hl : read.map decodeUtf8 = name.splitOn dot := by rw [← hsp hr,hna]
     obtain ⟨_,hex⟩:=nameLength_written hrd
     rw [hl] at hex
     obtain ⟨hn,hb⟩:=hex hlh.symm
     have hd:=survives_of_written hl hb
     refine ⟨fun label hm=>⟨hn label hm,hd label hm⟩,?_⟩
     rw [hw,written_of_nonempty hn,hb]
   · obtain ⟨rest,hrest,hp⟩:=splitOn_wildcard hwi
     rw [hrest] at hna
     have hr : read ≠ [] := fun he=>by
      rw [he] at hna
      exact absurd hna.symm (append_ne_nil_of_right_ne_nil _ (cons_ne_nil _ _))
     have hl : read.map decodeUtf8 = label :: rest.splitOn dot := by
      rw [← hsp hr,hna,splitOn_append_cons_self_of_not_mem hdo]
     cases read with
     | nil => exact absurd rfl hr
     | cons first read =>
      obtain ⟨hf,ho⟩:=forall_mem_cons.mp hrd
      obtain ⟨_,ht⟩:=cons.inj hl
      obtain ⟨hle,hex⟩:=nameLength_written ho
      rw [ht] at hle hex
      have hpo:=hf.length_pos
      have hst : written (name.splitOn dot) = [0x2a] :: written (rest.splitOn dot) := by
       rw [hp,written,filter_cons_of_pos (by decide)]
       rfl
      have hsu : nameLength (first :: read) = first.length+1+nameLength read := sum_cons
      have hs' : nameLength ([0x2a] :: written (rest.splitOn dot)) = 1+1+nameLength (written (rest.splitOn dot)) :=
       sum_cons
      rw [hw,hst,hsu,hs'] at hlh
      obtain ⟨hn,hb⟩:=hex (by omega)
      have hd:=survives_of_written ht hb
      have hre : read ≠ [] := fun he=>by
       rw [he] at ht
       exact splitOn_ne_nil dot rest ht.symm
      rw [hw,hst,written_of_nonempty hn,hb,nameKey_cons first hre,nameKey_cons [0x2a] hre] at hke
      obtain ⟨rfl,_⟩:=append_inj hke (show first.length = 1 by omega)
      refine ⟨?_,?_⟩
      · unfold Survives
        rw [hp]
        refine forall_mem_cons.mpr ⟨⟨by decide,by decide +kernel⟩,fun other hm=>?_⟩
        exact ⟨hn other hm,hd other hm⟩
      · rw [hw,hst,written_of_nonempty hn,hb]
 · rintro ⟨hs,rfl⟩
   have hn : ∀ label ∈ name.splitOn dot, label ≠ [] := fun label hm=>(hs label hm).1
   have hd : (wireLabels name).map decodeUtf8 = name.splitOn dot := by
    rw [hw,written_of_nonempty hn,map_map]
    exact (map_congr_left fun label hm=>(hs label hm).2).trans (map_id _)
   rw [hd,joinLabels,intercalate_splitOn]
   exact matches_self name

/-! ### Records of a packet -/

def OwnersRead (origin : Text) : NameTable → List DnsRecord → Prop
  | _, [] => True
  | table, record :: records =>
    (Survives (normalizeDnsName origin record.name) ∧
      (readBack table (wireLabels (normalizeDnsName origin record.name))).1 =
        wireLabels (normalizeDnsName origin record.name)) ∧
      OwnersRead origin (afterRecord origin table record) records

/-- The labels of the owner names survive, and the names are distinguished from all that was written out before them. -/
def OwnersKept (origin : Text) : List (List Bytes) → List DnsRecord → Prop
  | _, [] => True
  | ends, record :: records =>
    (Survives (normalizeDnsName origin record.name) ∧
      Distinguished ends (wireLabels (normalizeDnsName origin record.name))) ∧
      OwnersKept origin ((normalizeDnsName origin record.name :: dataNames record.data).foldl
        (fun ends name => writeOut ends (wireLabels name)) ends) records

lemma ownersRead_iff {ends : List (List Bytes)} (h : Represents ends table)
    (hl : ∀ name ∈ (sharedNames origin records).map wireLabels, Labels name) :
    OwnersRead origin table records ↔ OwnersKept origin ends records := by
 induction records generalizing ends table with
 | nil => exact Iff.rfl
 | cons record records ih =>
  rw [sharedNames,flatMap_cons,map_append,forall_mem_append,map_cons,forall_mem_cons] at hl
  have ho:=h.writeOut hl.1.1
  rw [OwnersRead,OwnersKept,h.readBack_eq_iff]
  refine and_congr_right fun _=>ih ?_ hl.2
  rw [foldl_cons,afterRecord]
  cases hd : record.data with
  | cname name =>
   rw [hd] at hl
   exact ho.writeOut (hl.1.2 _ mem_cons_self)
  | _ => exact ho

lemma normalizeDnsName_ne_nil (h : origin ≠ []) (name : Text) : normalizeDnsName origin name ≠ [] := by
 unfold normalizeDnsName
 generalize (if name.getLast? = some dot then name.dropLast else name) = trimmed
 dsimp only
 split_ifs with hl
 · intro hn
   rw [hn] at hl
   exact h hl.symm
 · exact h
 · exact append_ne_nil_of_right_ne_nil _ (cons_ne_nil _ _)

lemma ReadRecords.matches_iff (ho : origin ≠ [])
    (h : ReadRecords origin table records reads) (ht : MadeOf LabelBytes table) (hk : Keyed table) :
    List.Forall₂ (fun record read => Matches (normalizeDnsName origin record.name) read.name) records reads ↔
      OwnersRead origin table records := by
 induction h with
 | nil => exact ⟨fun _=>trivial,fun _=>.nil⟩
 | @cons table record read records reads hr _ ih =>
  have ha : MadeOf LabelBytes (afterRecord origin table record) :=
   (ht.afterName (labelBytes_of_mem _)).afterData fun name _=>labelBytes_of_mem name
  rw [forall₂_cons,ih ha ((hk.afterName _).afterData _),hr.name,
   matches_readText_iff (normalizeDnsName_ne_nil ho _) ht hk]
  exact Iff.rfl

/-- The name of a record that is found: the name that was asked for or, for a wildcard, one label before its end. -/
def FoundUnder (normalized name : Text) : Prop :=
  (¬ IsWildcard normalized ∧ name = normalized) ∨
    (IsWildcard normalized ∧ ∃ label, label ≠ [] ∧ dot ∉ label ∧ name = label ++ normalized.drop 1)

lemma Matches.foundUnder {normalized : Text} (h : Matches normalized name) (hn : name.head? ≠ some dot) :
    FoundUnder normalized name := by
 rcases h with hp|⟨hw,label,hd,heq⟩
 · exact .inl hp
 · refine .inr ⟨hw,label,fun hni=>hn ?_,hd,heq⟩
   obtain ⟨rest,hrest,_⟩:=splitOn_wildcard hw
   rw [heq,hni,hrest]
   rfl

lemma ReadRecords.head_ne_dot (h : ReadRecords origin table records reads) (hk : OwnersRead origin table records) :
    ∀ read ∈ reads, read.name.head? ≠ some dot := by
 induction h with
 | nil => exact nofun
 | @cons table record read records reads hr _ ih =>
  obtain ⟨⟨hs,hb⟩,hrest⟩:=hk
  refine forall_mem_cons.mpr ⟨fun hh=>?_,ih hrest⟩
  have hn : ∀ label ∈ (normalizeDnsName origin record.name).splitOn dot, label ≠ [] :=
   fun label hm=>(hs label hm).1
  have hna : read.name = normalizeDnsName origin record.name := by
   have hw : wireLabels (normalizeDnsName origin record.name) =
    ((normalizeDnsName origin record.name).splitOn dot).map encodeUtf8 := written_of_nonempty hn
   rw [hr.name,readText,hb,hw,map_map,joinLabels]
   refine (congrArg ([dot].intercalate ·) ?_).trans (intercalate_splitOn dot)
   exact (map_congr_left fun label hm=>(hs label hm).2).trans (map_id _)
  rw [hna] at hh
  obtain ⟨rest,hd⟩:=head?_eq_some_iff.mp hh
  refine hn [] ?_ rfl
  rw [hd,splitOn_cons_eq_if_modifyHead,if_pos (beq_self_eq_true _)]
  exact mem_cons_self

/-- What is published is found, and only that, exactly if every owner name is read as it was written. -/
theorem sign_lookup_iff {ed : Ed25519} {builder : SignedPacketBuilder} {keypair : Keypair ed} {now signed : ℤ}
    {p : SignedPacket ed} (h : builder.sign keypair now signed = .ok p) :
    (List.Forall₂ (fun record parsed => parsed ∈ p.resourceRecords record.name) builder.records p.records ∧
      ∀ name, ∀ record ∈ p.resourceRecords name, FoundUnder (normalizeDnsName p.publicKey.toZ32 name) record.name) ↔
      OwnersKept p.publicKey.toZ32 [] builder.records := by
 obtain ⟨encodedPacket,he,hps⟩:=bind_eq_ok.mp h
 obtain ⟨hke,_,_,rfl,_⟩:=SignedPacket.fromParts_eq_ok.mp hps
 rw [← hke] at he
 obtain ⟨reads,hpa,hr⟩:=parseDnsResponse_encodeDnsResponse he
 obtain rfl : p.records = reads:=Except.ok.inj (p.parsed.symm.trans hpa)
 have hf:=hr.matches_iff p.publicKey.toZ32_ne_nil (fun _ _ hg=>by cases hg) fun _ _ hg=>by cases hg
 obtain ⟨_,_,hrest⟩:=bind_eq_ok.mp he
 obtain ⟨_,hw,_⟩:=bind_eq_ok.mp hrest
 have hno : Represents [] [] := ⟨nofun,nofun,nofun,fun _ _=>iff_of_false nofun nofun⟩
 have hme : List.Forall₂ (fun record parsed=>parsed ∈ p.resourceRecords record.name) builder.records p.records ↔
   List.Forall₂ (fun record read=>Matches (normalizeDnsName p.publicKey.toZ32 record.name) read.name)
    builder.records p.records := by
  constructor
  · exact List.Forall₂.imp fun record parsed hp=>(mem_findResourceRecords.mp hp).2
  · intro hm
    rw [forall₂_iff_zip] at hm ⊢
    refine ⟨hm.1,fun {record parsed} hz=>?_⟩
    exact mem_findResourceRecords.mpr ⟨(of_mem_zip hz).2,hm.2 hz⟩
 rw [hme,hf,← ownersRead_iff hno (writeRecords_labels hw)]
 refine ⟨And.left,fun hk=>⟨hk,fun name record hrd=>?_⟩⟩
 obtain ⟨hre,hm⟩:=mem_findResourceRecords.mp hrd
 exact hm.foundUnder (hr.head_ne_dot hk record hre)

theorem lookup_of_wildcard :
    ∃ p : SignedPacket plainScheme, (SignedPacketBuilder.mk [⟨literal "*.a", 30, .a (.text (literal "1.2.3.4"))⟩,
        ⟨literal "@", 30, .txt (.text (literal "x"))⟩] none).sign SignedPacketBuilder.plainKeypair 5 7 = .ok p ∧
      List.Forall₂ (fun record parsed => parsed ∈ p.resourceRecords (DnsRecord.name record))
        [⟨literal "*.a", 30, .a (.text (literal "1.2.3.4"))⟩, ⟨literal "@", 30, .txt (.text (literal "x"))⟩] p.records ∧
      ∀ name, ∀ record ∈ p.resourceRecords name, FoundUnder (normalizeDnsName p.publicKey.toZ32 name) record.name := by
 refine exists_ok_and (P := fun p=>p.publicKey = plainKeypair.publicKey) (by decide +kernel) fun p hs hk=>?_
 rw [sign_lookup_iff hs,hk]
 simp only [OwnersKept,Survives,Distinguished]
 decide +kernel

/-- A name with an empty label is stored without it, and looked up with it. -/
theorem lookup_of_empty_label :
    ∃ p : SignedPacket plainScheme,
      (SignedPacketBuilder.mk [⟨literal "a..b", 30, .a (.text (literal "1.2.3.4"))⟩] none).sign
        SignedPacketBuilder.plainKeypair 5 7 = .ok p ∧
      p.records.map DnsRecord.name = [literal "a.b." ++ p.publicKey.toZ32] ∧
      p.resourceRecords (literal "a..b") = [] :=
 by decide +kernel

end Enlace.Pkarr
