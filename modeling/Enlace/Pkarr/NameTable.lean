import Enlace.Pkarr.DnsNames

set_option autoImplicit false

/-! Which names are read as they were written: those that share no key with another name. -/
namespace Enlace.Pkarr
open ByteString Unicode List OrderedMap

/-! ### Keys that stand for one name -/

def ReadsBack : NameTable → List (List Bytes) → Prop
  | _, [] => True
  | table, name :: names => (readBack table name).1 = name ∧ ReadsBack (readBack table name).2 names

def Unambiguous (names : List (List Bytes)) : Prop :=
  ∀ first ∈ names, ∀ second ∈ names, ∀ s t, s <:+ first → t <:+ second → s ≠ [] → t ≠ [] → nameKey s = nameKey t → s = t

def Closed (table : NameTable) : Prop :=
  ∀ key label labels, OrderedMap.get table key = some (label :: labels) → labels ≠ [] →
    OrderedMap.get table (nameKey labels) = some labels

variable {labels : List Bytes}

lemma get_readBack_self (table : NameTable) (h : labels ≠ []) :
    get (readBack table labels).2 (nameKey labels) = some (readBack table labels).1 := by
 cases labels with
 | nil => exact absurd rfl h
 | cons label labels =>
  rw [readBack]
  cases hg : get table (nameKey (label :: labels)) with
  | some known => exact hg
  | none =>
   rw [get_set,if_pos rfl]

variable {table : NameTable}

lemma get_readBack_of_some {key : Bytes} {known : List Bytes} (h : get table key = some known) (labels : List Bytes) :
    get (readBack table labels).2 key = some known := by
 induction labels with
 | nil => exact h
 | cons label labels ih =>
  rw [readBack]
  cases hg : get table (nameKey (label :: labels)) with
  | some _ => exact h
  | none =>
   have hne : nameKey (label :: labels) ≠ key := fun heq=>by
    rw [heq,h] at hg
    cases hg
   rw [get_set,if_neg hne,ih]

lemma Labels.tail {label : Bytes} (h : Labels (label :: labels)) : Labels labels :=
 fun other hm=>h other (mem_cons_of_mem _ hm)

lemma Closed.readBack (h : Closed table) (hkd : Keyed table)
    (hl : Labels labels) : Closed (readBack table labels).2 := by
 induction labels with
 | nil => exact h
 | cons label labels ih =>
  have hc:=ih hl.tail
  have ht:=nameKey_tail_lt (hl label mem_cons_self).1 labels
  rw [Pkarr.readBack]
  cases hg : get table (nameKey (label :: labels)) with
  | some known => exact h
  | none =>
   have hu : get (Pkarr.readBack table labels).2 (nameKey (label :: labels)) = none := by
    rw [get_readBack_of_length hl.tail ht,hg]
   -- An end of a known name is known, so it has another key than the new name.
   have hke : ∀ {key : Bytes} {known : List Bytes},get (Pkarr.readBack table labels).2 key = some known →
     get (set (Pkarr.readBack table labels).2 (nameKey (label :: labels))
      (label :: (Pkarr.readBack table labels).1)) key = some known := by
    intro key known hk
    have hne : nameKey (label :: labels) ≠ key := fun heq=>by
     rw [← heq,hu] at hk
     cases hk
    rw [get_set,if_neg hne,hk]
   intro key first rest hf hne
   rw [get_set] at hf
   split_ifs at hf with heq
   · obtain ⟨rfl,rfl⟩:=cons.inj (Option.some.inj hf)
     obtain ⟨hkey,hn,_⟩:=hkd.readBack labels
     apply hke
     rw [hkey]
     exact get_readBack_self table (mt hn.mpr hne)
   · exact hke (hc key first rest hf hne)

lemma Closed.get_suffix (h : Closed table) {name s : List Bytes}
    (hn : get table (nameKey name) = some name) (hs : s <:+ name) (hne : s ≠ []) :
    get table (nameKey s) = some s := by
 induction name with
 | nil => exact absurd (suffix_nil.mp hs) hne
 | cons label labels ih =>
  rcases suffix_cons_iff.mp hs with rfl|ht
  · exact hn
  · have hl : labels ≠ [] := fun hni=>hne (suffix_nil.mp (hni ▸ ht))
    exact ih (h _ _ _ hn hl) ht

/-! ### Keys that stand for two ends -/

/-- The ends of names that are written out. An end whose key is known is written as a pointer. -/
def writeOut (ends : List (List Bytes)) : List Bytes → List (List Bytes)
  | [] => ends
  | label :: labels =>
    if nameKey (label :: labels) ∈ ends.map nameKey then ends else (label :: labels) :: writeOut ends labels

/-- No end of the name has the key of an end written out before that begins with another label. -/
def Distinguished (ends : List (List Bytes)) (name : List Bytes) : Prop :=
  ∀ s ∈ name.tails, s ≠ [] → ∀ known ∈ ends, nameKey known = nameKey s → known.head? = s.head?

/-- The ends have the keys of the table, and begin as what is read at them. -/
structure Represents (ends : List (List Bytes)) (table : NameTable) : Prop where
  closed : Closed table
  keyed : Keyed table
  nonempty : ∀ known ∈ ends, known ≠ []
  heads : ∀ key label, (OrderedMap.get table key).bind head? = some label ↔
    ∃ known ∈ ends, nameKey known = key ∧ known.head? = some label

lemma distinguished_cons {ends : List (List Bytes)} {label : Bytes} {labels : List Bytes} :
    Distinguished ends (label :: labels) ↔
      (∀ known ∈ ends, nameKey known = nameKey (label :: labels) → known.head? = some label) ∧
        Distinguished ends labels := by
 rw [Distinguished,tails_cons,forall_mem_cons]
 exact and_congr_left fun _=>imp_iff_right (cons_ne_nil _ _)

lemma nameKey_cons_inj {label : Bytes} {s t : List Bytes} (h : nameKey (label :: s) = nameKey (label :: t)) :
    nameKey s = nameKey t ∧ (s = [] ↔ t = []) := by
 have hone : nameKey [label] = label := by simp [nameKey,intercalate]
 by_cases hs : s = [] <;> by_cases ht : t = []
 · rw [hs,ht]
   exact ⟨rfl,Iff.rfl⟩
 · rw [hs,hone,nameKey_cons label ht] at h
   cases self_eq_append_right.mp h
 · rw [ht,hone,nameKey_cons label hs] at h
   cases self_eq_append_right.mp h.symm
 · rw [nameKey_cons label hs,nameKey_cons label ht] at h
   exact ⟨(cons.inj (append_cancel_left h)).2,iff_of_false hs ht⟩

lemma readBack_of_get {known : List Bytes} (h : get table (nameKey labels) = some known) (hne : labels ≠ []) :
    (readBack table labels).1 = known := by
 have hg:=get_readBack_of_some h labels
 rw [get_readBack_self table hne] at hg
 exact Option.some.inj hg

namespace Represents

variable {ends : List (List Bytes)} (h : Represents ends table)
include h

lemma get_eq_none_iff (key : Bytes) : get table key = none ↔ key ∉ ends.map nameKey := by
 constructor
 · intro hg hm
   obtain ⟨known,hk,rfl⟩:=mem_map.mp hm
   obtain ⟨label,rest,rfl⟩:=exists_cons_of_ne_nil (h.nonempty known hk)
   have hb:=(h.heads _ label).mpr ⟨_,hk,rfl,rfl⟩
   rw [hg] at hb
   cases hb
 · intro hno
   cases hg : get table key with
   | none => rfl
   | some known =>
    obtain ⟨label,rest,rfl⟩:=exists_cons_of_ne_nil (h.keyed _ _ hg).2
    obtain ⟨other,ho,hk,_⟩:=(h.heads key label).mp (by rw [hg]; rfl)
    exact absurd (mem_map.mpr ⟨other,ho,hk⟩) hno

lemma readBack_eq_iff (name : List Bytes) : (readBack table name).1 = name ↔ Distinguished ends name := by
 induction name with
 | nil => exact iff_of_true rfl fun s hs hne=>absurd (mem_singleton.mp hs) hne
 | cons label labels ih =>
  rw [distinguished_cons,← ih]
  cases hg : get table (nameKey (label :: labels)) with
  | none =>
   have hno:=(h.get_eq_none_iff _).mp hg
   rw [readBack,hg,cons.injEq]
   exact and_congr_left fun _=>iff_of_true rfl fun known hk heq=>absurd (mem_map.mpr ⟨known,hk,heq⟩) hno
  | some known =>
   obtain ⟨hkey,hne⟩:=h.keyed _ _ hg
   rw [readBack_of_get hg (cons_ne_nil _ _)]
   constructor
   · rintro rfl
     refine ⟨fun other ho heq=>?_,?_⟩
     · obtain ⟨first,rest,rfl⟩:=exists_cons_of_ne_nil (h.nonempty other ho)
       have hb:=(h.heads _ first).mpr ⟨_,ho,heq,rfl⟩
       rw [hg] at hb
       exact hb.symm
     · by_cases hl : labels = []
       · rw [hl]
         rfl
       · exact readBack_of_get (h.closed _ _ _ hg hl) hl
   · rintro ⟨hh,hrb⟩
     obtain ⟨first,rest,rfl⟩:=exists_cons_of_ne_nil hne
     obtain ⟨other,ho,hk,hf⟩:=(h.heads (nameKey (label :: labels)) first).mp (by rw [hg]; rfl)
     rw [hh other ho hk] at hf
     obtain rfl:=Option.some.inj hf
     obtain ⟨hre,hni⟩:=nameKey_cons_inj hkey
     by_cases hl : labels = []
     · rw [hl,hni.mpr hl]
     · have hg':=h.closed _ _ _ hg (mt hni.mp hl)
       rw [hre] at hg'
       rw [← hrb,readBack_of_get hg' hl]

lemma writeOut {name : List Bytes} (hl : Labels name) : Represents (writeOut ends name) (readBack table name).2 := by
 induction name with
 | nil => exact h
 | cons label labels ih =>
  by_cases hm : nameKey (label :: labels) ∈ ends.map nameKey
  · obtain ⟨known,hg⟩:=Option.ne_none_iff_exists'.mp (mt (h.get_eq_none_iff _).mp (not_not.mpr hm))
    rw [Pkarr.writeOut,if_pos hm,readBack,hg]
    exact h
  · have hg:=(h.get_eq_none_iff _).mpr hm
    have hrest:=ih hl.tail
    have hno : get (readBack table labels).2 (nameKey (label :: labels)) = none := by
     rw [get_readBack_of_length hl.tail (nameKey_tail_lt (hl label mem_cons_self).1 labels),hg]
    refine ⟨h.closed.readBack h.keyed hl,(h.keyed.readBack _).2.2,?_,fun key first=>?_⟩
    · rw [Pkarr.writeOut,if_neg hm]
      exact forall_mem_cons.mpr ⟨cons_ne_nil _ _,hrest.nonempty⟩
    · rw [Pkarr.writeOut,if_neg hm,readBack,hg,get_set]
      simp only [mem_cons,or_and_right,exists_or,exists_eq_left]
      rw [← hrest.heads]
      split_ifs with heq
      · subst heq
        rw [hno]
        simp
      · simp [heq]

end Represents

variable {names : List (List Bytes)}

lemma ReadsBack.exists_table (h : ReadsBack table names)
    (hl : ∀ name ∈ names, Labels name) (hc : Closed table) (hk : Keyed table) :
    ∃ table' : NameTable,
      (∀ key known, OrderedMap.get table key = some known → OrderedMap.get table' key = some known) ∧
      ∀ name ∈ names, ∀ s, s <:+ name → s ≠ [] → OrderedMap.get table' (nameKey s) = some s := by
 induction names generalizing table with
 | nil => exact ⟨table,fun _ _ hg=>hg,nofun⟩
 | cons name names ih =>
  obtain ⟨hna,hn⟩:=h
  obtain ⟨hlabel,hrest⟩:=forall_mem_cons.mp hl
  have hc' := hc.readBack hk hlabel
  obtain ⟨table',hke,hkn⟩:=ih hn hrest hc' (hk.readBack name).2.2
  refine ⟨table',fun key known hg=>hke key known (get_readBack_of_some hg name),?_⟩
  refine forall_mem_cons.mpr ⟨fun s hs hne=>hke _ _ ?_,hkn⟩
  have hse : get (readBack table name).2 (nameKey name) = some name := by
   have hni : name ≠ [] := fun hni=>hne (suffix_nil.mp (hni ▸ hs))
   rw [get_readBack_self table hni,hna]
  exact hc'.get_suffix hse hs hne

variable {P : List Bytes → Prop} {piece t : Text} {pieces : List Text}

/-- Where keys stand for one name of a kind each, a name of the kind is read as it was written. -/
theorem readBack_of_unambiguous (hP : ∀ s t, P s → P t → nameKey s = nameKey t → s = t)
    (ht : ∀ key known, OrderedMap.get table key = some known → P known ∧ nameKey known = key) {name : List Bytes}
    (hn : ∀ s, s <:+ name → s ≠ [] → P s) : (readBack table name).1 = name ∧
      ∀ key known, OrderedMap.get (readBack table name).2 key = some known → P known ∧ nameKey known = key := by
 induction name with
 | nil => exact ⟨rfl,ht⟩
 | cons label labels ih =>
  obtain ⟨hl,ha⟩:=ih fun s hs=>hn s (hs.trans (suffix_cons _ _))
  have hw:=hn (label :: labels) suffix_rfl (cons_ne_nil _ _)
  rw [readBack]
  cases hg : get table (nameKey (label :: labels)) with
  | some known =>
   obtain ⟨hk,hke⟩:=ht _ _ hg
   exact ⟨hP _ _ hk hw hke,ht⟩
  | none =>
   rw [hl]
   refine ⟨rfl,fun key known hk=>?_⟩
   rw [get_set] at hk
   split_ifs at hk with heq
   · cases hk
     exact ⟨hw,heq⟩
   · exact ha key known hk

lemma readsBack_of_unambiguous (hP : ∀ s t, P s → P t → nameKey s = nameKey t → s = t)
    (ht : ∀ key known, OrderedMap.get table key = some known → P known ∧ nameKey known = key)
    (hn : ∀ name ∈ names, ∀ s, s <:+ name → s ≠ [] → P s) : ReadsBack table names := by
 induction names generalizing table with
 | nil => trivial
 | cons name names ih =>
  obtain ⟨hna,hrest⟩:=forall_mem_cons.mp hn
  obtain ⟨hr,ha⟩:=readBack_of_unambiguous hP ht hna
  exact ⟨hr,ih ha hrest⟩

lemma readsBack_iff (hl : ∀ name ∈ names, Labels name) : ReadsBack [] names ↔ Unambiguous names := by
 constructor
 · intro h
   obtain ⟨table,_,hk⟩:=h.exists_table hl (fun _ _ _ hg=>by cases hg) fun _ _ hg=>by cases hg
   intro first hf second hse s t hs ht hsn htn hke
   have hgo:=hk first hf s hs hsn
   rw [hke,hk second hse t ht htn] at hgo
   exact (Option.some.inj hgo).symm
 · intro h
   refine readsBack_of_unambiguous (P := fun s=>s ≠ [] ∧ ∃ name ∈ names, s <:+ name) ?_ (fun _ _ hg=>by cases hg)
    fun name hn s hsu hne=>⟨hne,name,hn,hsu⟩
   rintro s t ⟨hsn,first,hf,hs⟩ ⟨htn,second,hse,ht⟩ hke
   exact h first hf second hse s t hs ht hsn htn hke

lemma nameKey_inj {s t : List Bytes} (hs : ∀ label ∈ s, 0 ∉ label) (ht : ∀ label ∈ t, 0 ∉ label) (hsn : s ≠ [])
    (htn : t ≠ []) (h : nameKey s = nameKey t) : s = t := by
 have hsp:=congrArg (splitOn 0) h
 rwa [nameKey,nameKey,splitOn_intercalate 0 hs hsn,splitOn_intercalate 0 ht htn] at hsp

lemma unambiguous_of_no_zero (h : ∀ name ∈ names, ∀ label ∈ name, (0 : UInt8) ∉ label) : Unambiguous names := by
 intro first hf second hse s t hs ht hsn htn hk
 exact nameKey_inj (fun label hm=>h first hf label (hs.subset hm))
  (fun label hm=>h second hse label (ht.subset hm)) hsn htn hk

/-! ### Labels as texts -/

structure PlainLabel (label : Text) : Prop where
  nonempty : label ≠ []
  noDot : dot ∉ label
  decoded : decodeUtf8 (encodeUtf8 label) = label

lemma not_mem_of_mem_splitOn {name : Text} (h : piece ∈ name.splitOn dot) : dot ∉ piece := by
 induction name generalizing piece with
 | nil =>
  rw [splitOn_nil,mem_singleton] at h
  rw [h]
  exact not_mem_nil
 | cons u name ih =>
  rw [splitOn_cons_eq_if_modifyHead] at h
  split_ifs at h with hu
  · rcases mem_cons.mp h with rfl|hm
    · exact not_mem_nil
    · exact ih hm
  · cases hp : name.splitOn dot with
    | nil => exact absurd hp (splitOn_ne_nil _ _)
    | cons first rest =>
     rw [hp] at h
     rcases mem_cons.mp h with rfl|hm
     · have hf : dot ∉ first := ih (hp ▸ mem_cons_self)
       rintro (_|⟨_,hm⟩)
       · exact hu (beq_self_eq_true _)
       · exact hf hm
     · exact ih (hp ▸ mem_cons_of_mem _ hm)

lemma wellFormed_intercalate (h : WellFormed ([dot].intercalate pieces)) : ∀ piece ∈ pieces, WellFormed piece := by
 have hh : ¬ IsHigh dot := by decide
 have hlow : ¬ IsLow dot := by decide
 induction pieces with
 | nil => exact nofun
 | cons piece pieces ih =>
  cases pieces with
  | nil =>
   rw [intercalate_singleton] at h
   exact fun other hm=>mem_singleton.mp hm ▸ h
  | cons next pieces =>
   rw [intercalate_cons_cons,append_assoc,singleton_append,wellFormed_append_cons hh hlow] at h
   exact forall_mem_cons.mpr ⟨h.1,ih h.2⟩

lemma mem_of_mem_intercalate {u : UInt16} (hp : piece ∈ pieces) (hu : u ∈ piece) : u ∈ [dot].intercalate pieces := by
 induction pieces with
 | nil => exact absurd hp not_mem_nil
 | cons first pieces ih =>
  cases pieces with
  | nil =>
   rw [intercalate_singleton]
   exact mem_singleton.mp hp ▸ hu
  | cons next pieces =>
   rw [intercalate_cons_cons,mem_append,mem_append]
   rcases mem_cons.mp hp with rfl|hm
   · exact .inl (.inl hu)
   · exact .inr (ih hm)

def UnicodeName (name : Text) : Prop := WellFormed name ∧ byteOrderMark ∉ name

instance decidableUnicodeName (name : Text) : Decidable (UnicodeName name) :=
  decidable_of_iff (toWellFormed name = name ∧ ¬ OrderedSet.has name byteOrderMark = true)
    (and_congr_right fun _ => not_congr OrderedSet.has_eq_true)

variable {name : Text}

lemma UnicodeName.plainLabel (h : UnicodeName name) {label : Text} (hlabel : label ∈ labelsOf name) :
    PlainLabel label := by
 obtain ⟨hp,hl⟩:=mem_filter.mp hlabel
 have hj : [dot].intercalate (name.splitOn dot) = name := intercalate_splitOn dot
 have hw : WellFormed label := wellFormed_intercalate (hj.symm ▸ h.1) label hp
 have hm : label.head? ≠ some byteOrderMark := fun hh=>
  h.2 (hj ▸ mem_of_mem_intercalate hp (mem_of_head? hh))
 refine ⟨fun hn=>?_,not_mem_of_mem_splitOn hp,(decodeUtf8_of_head hm).trans hw⟩
 rw [hn] at hl
 exact absurd hl (by decide)

lemma joinLabels_inj {s t : List Text} (hs : ∀ label ∈ s, label ≠ [] ∧ dot ∉ label)
    (ht : ∀ label ∈ t, label ≠ [] ∧ dot ∉ label) (h : joinLabels s = joinLabels t) : s = t := by
 have hn : ∀ {labels : List Text}, (∀ label ∈ labels, label ≠ [] ∧ dot ∉ label) → joinLabels labels = [] →
  labels = [] := by
  intro labels hl hj
  by_contra hne
  have hsp:=splitOn_intercalate dot (fun label hm=>(hl label hm).2) hne
  have he : [] ∈ labels := by
   rw [← hsp]
   change [] ∈ (joinLabels labels).splitOn dot
   rw [hj]
   exact mem_singleton.mpr rfl
  exact (hl _ he).1 rfl
 by_cases hsn : s = []
 · rw [hsn] at h
   rw [hsn,hn ht h.symm]
 · have htn : t ≠ [] := fun htn=>hsn (hn hs (h.trans (htn ▸ rfl)))
   have hsp:=congrArg (splitOn dot) h
   rwa [joinLabels,joinLabels,splitOn_intercalate dot (fun label hm=>(hs label hm).2) hsn,
    splitOn_intercalate dot (fun label hm=>(ht label hm).2) htn] at hsp

def PlainBytes (bytes : Bytes) : Prop := ∃ label, PlainLabel label ∧ encodeUtf8 label = bytes

def MadeOf (P : Bytes → Prop) (table : NameTable) : Prop :=
  ∀ key known, OrderedMap.get table key = some known → ∀ bytes ∈ known, P bytes

lemma MadeOf.readBack {P : Bytes → Prop} (h : MadeOf P table) (hl : ∀ bytes ∈ labels, P bytes) :
    (∀ bytes ∈ (readBack table labels).1, P bytes) ∧ MadeOf P (readBack table labels).2 := by
 induction labels with
 | nil => exact ⟨nofun,h⟩
 | cons label labels ih =>
  obtain ⟨hlabel,hrest⟩:=forall_mem_cons.mp hl
  obtain ⟨hr,ht⟩:=ih hrest
  rw [Pkarr.readBack]
  cases hg : get table (nameKey (label :: labels)) with
  | some known => exact ⟨h _ _ hg,h⟩
  | none =>
   have hn:=forall_mem_cons.mpr ⟨hlabel,hr⟩
   refine ⟨hn,fun key known hk=>?_⟩
   rw [get_set] at hk
   split_ifs at hk with heq
   · exact Option.some.inj hk ▸ hn
   · exact ht key known hk

lemma PlainBytes.decode {bytes : Bytes} (h : PlainBytes bytes) :
    PlainLabel (decodeUtf8 bytes) ∧ encodeUtf8 (decodeUtf8 bytes) = bytes := by
 obtain ⟨label,hlabel,rfl⟩:=h
 rw [hlabel.decoded]
 exact ⟨hlabel,rfl⟩

lemma UnicodeName.plainBytes (h : UnicodeName name) : ∀ bytes ∈ wireLabels name, PlainBytes bytes := by
 intro bytes hm
 obtain ⟨label,hlabel,rfl⟩:=mem_map.mp hm
 exact ⟨label,h.plainLabel hlabel,rfl⟩

lemma UnicodeName.decode (h : UnicodeName name) : (wireLabels name).map decodeUtf8 = labelsOf name := by
 rw [wireLabels,map_map]
 refine (map_congr_left fun label hlabel=>?_).trans (map_id _)
 exact (h.plainLabel hlabel).decoded

lemma UnicodeName.of_append_dot {s : Text} (h : UnicodeName (s ++ dot :: t)) : UnicodeName s :=
 ⟨((wellFormed_append_cons (by decide) (by decide)).mp h.1).1,fun hm=>h.2 (mem_append_left _ hm)⟩

lemma UnicodeName.append_dot {s : Text} (hs : UnicodeName s) (ht : UnicodeName t) : UnicodeName (s ++ dot :: t) := by
 refine ⟨(wellFormed_append_cons (by decide) (by decide)).mpr ⟨hs.1,ht.1⟩,fun hm=>?_⟩
 rcases mem_append.mp hm with hf|hrest
 · exact hs.2 hf
 · rcases mem_cons.mp hrest with heq|hse
   · exact absurd heq (by decide)
   · exact ht.2 hse

lemma UnicodeName.normalize {origin : Text} (ho : UnicodeName origin) (hn : UnicodeName name) :
    UnicodeName (normalizeDnsName origin name) := by
 have ht : UnicodeName (if name.getLast? = some dot then name.dropLast else name) := by
  split_ifs with hl
  · have hs:=dropLast_append_getLast? dot hl
    exact UnicodeName.of_append_dot (hs.symm ▸ hn)
  · exact hn
 unfold normalizeDnsName
 generalize (if name.getLast? = some dot then name.dropLast else name) = trimmed at ht
 dsimp only
 split_ifs
 · exact ht
 · exact ho
 · exact ht.append_dot ho

lemma UnicodeName.readText_iff (h : UnicodeName name) (ht : MadeOf PlainBytes table) :
    readText table name = joinLabels (labelsOf name) ↔ (readBack table (wireLabels name)).1 = wireLabels name := by
 have hr:=(ht.readBack h.plainBytes).1
 constructor
 · intro heq
   have hl : (readBack table (wireLabels name)).1.map decodeUtf8 = labelsOf name := by
    refine joinLabels_inj (fun label hm=>?_) (fun label hm=>?_) heq
    · obtain ⟨bytes,hb,rfl⟩:=mem_map.mp hm
      have hp:=(hr bytes hb).decode.1
      exact ⟨hp.nonempty,hp.noDot⟩
    · exact ⟨(h.plainLabel hm).nonempty,(h.plainLabel hm).noDot⟩
   have hba : ((readBack table (wireLabels name)).1.map decodeUtf8).map encodeUtf8 =
     (readBack table (wireLabels name)).1 := by
    rw [map_map]
    exact (map_congr_left fun bytes hb=>(hr bytes hb).decode.2).trans (map_id _)
   rw [← hba,hl]
   rfl
 · intro heq
   rw [readText,heq,h.decode]

end Enlace.Pkarr
