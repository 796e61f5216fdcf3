import Enlace.Pkarr.DnsNames

set_option autoImplicit false

/-! Service bindings: what their checks amount to, and that they are read as they were written. -/
namespace Enlace.Pkarr
open ByteString Unicode List OrderedSet Fallible ReaderM Nat Writer ServiceParam UInt8

/-! ### The checks -/

variable {keys : List ℕ} {address : TextOrBytes} {binding : ServiceBinding} {offset : ℕ} {u : Unit}

lemma validateMandatoryKeys_ok {requireSorted : Bool} (h : validateMandatoryKeys keys requireSorted = .ok u) :
    keys ≠ [] ∧ keys.Nodup ∧ ∀ key ∈ keys, key ≤ 0xffff ∧ key ≠ 0 := by
 have hl : ∀ {seen : List ℕ} {keys : List ℕ}, checkMandatory requireSorted seen keys = .ok u →
   keys.Nodup ∧ ∀ key ∈ keys, (key ≤ 0xffff ∧ key ≠ 0) ∧ key ∉ seen := by
  intro seen keys
  induction keys generalizing seen with
  | nil => exact fun _=>⟨nodup_nil,nofun⟩
  | cons key keys ih =>
   intro h
   simp only [checkMandatory,assertUnsigned,bind_eq_ok,rangeErrorIf_eq_ok,errorIf_eq_ok,has_eq_true] at h
   obtain ⟨_,hmax,_,hz,_,hs,_,_,hrest⟩:=h
   obtain ⟨hn,hk⟩:=ih hrest
   refine ⟨nodup_cons.mpr ⟨fun hm=>(hk key hm).2 (mem_add.mpr (.inr rfl)),hn⟩,?_⟩
   intro other ho
   rcases mem_cons.mp ho with rfl|hm
   · exact ⟨⟨Nat.le_of_not_lt hmax,hz⟩,hs⟩
   · exact ⟨(hk other hm).1,fun hold=>(hk other hm).2 (mem_add.mpr (.inl hold))⟩
 obtain ⟨_,hne,hc⟩:=bind_eq_ok.mp h
 obtain ⟨hn,hk⟩:=hl hc
 refine ⟨fun hni=>?_,hn,fun key hm=>(hk key hm).1⟩
 rw [requireNonEmpty,errorIf_eq_ok,hni] at hne
 exact hne rfl

lemma validateMandatoryKeys_of_sorted (hne : keys ≠ []) (hs : keys.Pairwise (· < ·))
    (hk : ∀ key ∈ keys, key ≤ 0xffff ∧ key ≠ 0) (requireSorted : Bool) :
    validateMandatoryKeys keys requireSorted = .ok () := by
 have hlo : ∀ {seen : List ℕ} {keys : List ℕ}, (seen ++ keys).Pairwise (· < ·) →
   (∀ key ∈ keys, key ≤ 0xffff ∧ key ≠ 0) → checkMandatory requireSorted seen keys = .ok () := by
  intro seen keys
  induction keys generalizing seen with
  | nil => exact fun _ _=>rfl
  | cons key keys ih =>
   intro hs hk
   obtain ⟨hmax,hz⟩:=hk key mem_cons_self
   have hb : ∀ other ∈ seen, other < key := fun other ho=>
    (pairwise_append.mp hs).2.2 other ho key mem_cons_self
   have hn : key ∉ seen := fun hm=>lt_irrefl _ (hb key hm)
   have hl : ¬ (requireSorted = true ∧ seen.getLast?.any (fun previous=>key ≤ previous) = true) := by
    rintro ⟨_,ha⟩
    cases hl : seen.getLast? with
    | none =>
     rw [hl] at ha
     cases ha
    | some previous =>
     rw [hl] at ha
     have hlt:=hb previous (mem_of_getLast? hl)
     have hge:=of_decide_eq_true ha
     omega
   have had : add seen key = seen ++ [key] := if_neg hn
   rw [checkMandatory,assertUnsigned,rangeErrorIf,if_neg (Nat.not_lt_of_le hmax),errorIf,
    if_neg hz,errorIf,if_neg (mt has_eq_true.mp hn),errorIf,
    if_neg hl,had]
   refine ih ?_ fun key hm=>hk key (mem_cons_of_mem _ hm)
   rw [append_assoc]
   exact hs
 have hle : ¬ keys.length = 0 := mt length_eq_zero_iff.mp hne
 rw [validateMandatoryKeys,requireNonEmpty,errorIf,if_neg hle]
 exact hlo hs hk

def ServiceParam.Ok : ServiceParam → Prop
  | .mandatory keys => validateMandatoryKeys keys false = .ok ()
  | .alpn ids => ids ≠ [] ∧ ∀ id ∈ ids, idBytes id ≠ []
  | .ipv4hint addresses | .ipv6hint addresses => addresses ≠ []
  | .unknown key _ => 6 < key
  | _ => True

def ServiceParam.isAlpn : ServiceParam → Bool
  | .alpn _ => true
  | _ => false

def BindingCheck.add (check : BindingCheck) (param : ServiceParam) : BindingCheck where
  keys := OrderedSet.add check.keys (paramKey param)
  hasAlpn := check.hasAlpn || param.isAlpn
  hasNoDefaultAlpn := check.hasNoDefaultAlpn || decide (param = .noDefaultAlpn)
  mandatory := match param with
    | .mandatory keys => keys
    | _ => check.mandatory

variable {α : Type} {values : List α}

lemma forM_eq_ok {f : α → Outcome Unit} : values.forM f = .ok u ↔ ∀ value ∈ values, f value = .ok () := by
 induction values with
 | nil => exact ⟨nofun,fun _=>rfl⟩
 | cons value values ih =>
  change (f value >>= fun _=>values.forM f) = .ok u ↔ _
  rw [bind_eq_ok,forall_mem_cons]
  constructor
  · rintro ⟨_,hv,hrest⟩
    exact ⟨hv,ih.mp hrest⟩
  · rintro ⟨hv,hrest⟩
    exact ⟨(),hv,ih.mpr hrest⟩

lemma requireNonEmpty_eq_ok {name : String} : requireNonEmpty values name = .ok u ↔ values ≠ [] := by
 rw [requireNonEmpty,errorIf_eq_ok,length_eq_zero_iff]

lemma checked_eq_ok {check : Outcome Unit} {a b : α} :
    (do check; return a : Outcome α) = .ok b ↔ check = .ok () ∧ a = b := by
 rw [bind_eq_ok]
 constructor
 · rintro ⟨_,hc,hv⟩
   exact ⟨hc,pure_eq_ok.mp hv⟩
 · rintro ⟨hc,rfl⟩
   exact ⟨(),hc,rfl⟩

variable {param : ServiceParam}

lemma checkParam_eq_ok {check check' : BindingCheck} :
    checkParam check param = .ok check' ↔ paramKey param ∉ check.keys ∧ param.Ok ∧ check.add param = check' := by
 rw [checkParam,bind_eq_ok]
 simp only [errorIf_eq_ok,has_eq_true,exists_and_left,exists_const]
 refine and_congr_right fun _=>?_
 cases param with
 | mandatory keys =>
  rw [checked_eq_ok]
  simp [ServiceParam.Ok,BindingCheck.add,isAlpn]
 | alpn ids =>
  have hi : (∀ id ∈ ids, requireNonEmptyBytes (idBytes id) "alpn" = .ok ()) ↔ ∀ id ∈ ids, idBytes id ≠ [] := by
   simp only [requireNonEmptyBytes,errorIf_eq_ok,length_eq_zero_iff,ne_eq]
  rw [bind_eq_ok]
  simp only [requireNonEmpty_eq_ok,checked_eq_ok,forM_eq_ok,hi]
  simp [ServiceParam.Ok,BindingCheck.add,isAlpn,and_assoc]
 | noDefaultAlpn | port port | ech data => simp [ServiceParam.Ok,BindingCheck.add,isAlpn]
 | ipv4hint addrs | ipv6hint addrs =>
  rw [checked_eq_ok,requireNonEmpty_eq_ok]
  simp [ServiceParam.Ok,BindingCheck.add,isAlpn]
 | unknown key value =>
  rw [checked_eq_ok]
  simp [ServiceParam.Ok,BindingCheck.add,isAlpn]

structure ValidParams (params : List ServiceParam) : Prop where
  nodup : (params.map paramKey).Nodup
  each : ∀ param ∈ params, param.Ok
  alpn : .noDefaultAlpn ∈ params → ∃ ids, .alpn ids ∈ params
  mandatory : ∀ keys, .mandatory keys ∈ params → ∀ key ∈ keys, key ∈ params.map paramKey

variable {params : List ServiceParam}

lemma checkParams_eq_ok {check check' : BindingCheck} (hk : check.keys.Nodup) :
    params.foldlM checkParam check = .ok check' ↔
      (check.keys ++ params.map paramKey).Nodup ∧ (∀ param ∈ params, param.Ok) ∧
      params.foldl BindingCheck.add check = check' := by
 induction params generalizing check with
 | nil =>
  simp only [foldlM_nil,map_nil,append_nil,foldl_nil,pure_eq_ok]
  exact ⟨fun h=>⟨hk,forall_mem_nil _,h⟩,fun h=>h.2.2⟩
 | cons param params ih =>
  rw [foldlM_cons,bind_eq_ok]
  have had : ∀ hne : paramKey param ∉ check.keys, (check.add param).keys = check.keys ++ [paramKey param] :=
   fun hne=>if_neg hne
  have hm : check.keys ++ paramKey param :: params.map paramKey =
   check.keys ++ [paramKey param] ++ params.map paramKey := by rw [append_assoc]; rfl
  have hn : paramKey param ∉ check.keys → (check.keys ++ [paramKey param]).Nodup := fun hne=>
   nodup_append.mpr ⟨hk,nodup_singleton _,fun a ha b hb heq=>hne (mem_singleton.mp hb ▸ heq ▸ ha)⟩
  constructor
  · rintro ⟨_,hc,hrest⟩
    obtain ⟨hne,hok,rfl⟩:=checkParam_eq_ok.mp hc
    obtain ⟨hr,hre,hf⟩:=(ih (by rw [had hne]; exact hn hne)).mp hrest
    rw [had hne] at hr
    exact ⟨hm ▸ hr,forall_mem_cons.mpr ⟨hok,hre⟩,hf⟩
  · rintro ⟨hal,hok,hf⟩
    have hne : paramKey param ∉ check.keys := fun hme=>
     (nodup_append.mp hal).2.2 _ hme _ mem_cons_self rfl
    obtain ⟨hpa,hp⟩:=forall_mem_cons.mp hok
    refine ⟨_,checkParam_eq_ok.mpr ⟨hne,hpa,rfl⟩,(ih (by rw [had hne]; exact hn hne)).mpr ?_⟩
    rw [had hne,← hm]
    exact ⟨hal,hp,hf⟩

variable {check : BindingCheck}

lemma foldl_add_keys {key : ℕ} :
    key ∈ (params.foldl BindingCheck.add check).keys ↔ key ∈ check.keys ∨ key ∈ params.map paramKey := by
 induction params generalizing check with
 | nil => simp
 | cons param params ih =>
  rw [foldl_cons,ih]
  simp [BindingCheck.add,or_assoc]

lemma foldl_add_hasAlpn :
    (params.foldl BindingCheck.add check).hasAlpn = true ↔ check.hasAlpn = true ∨ ∃ ids, .alpn ids ∈ params := by
 induction params generalizing check with
 | nil => simp
 | cons param params ih =>
  rw [foldl_cons,ih]
  cases param
  all_goals simp [BindingCheck.add,isAlpn]

lemma foldl_add_hasNoDefaultAlpn : (params.foldl BindingCheck.add check).hasNoDefaultAlpn = true ↔
      check.hasNoDefaultAlpn = true ∨ .noDefaultAlpn ∈ params := by
 induction params generalizing check with
 | nil => simp
 | cons param params ih =>
  rw [foldl_cons,ih]
  cases param
  all_goals simp [BindingCheck.add]

lemma paramKey_eq_zero (hok : param.Ok) (h : paramKey param = 0) : ∃ keys, param = .mandatory keys := by
 cases param with
 | mandatory keys => exact ⟨keys,rfl⟩
 | unknown key value =>
  change 6 < key at hok
  change key = 0 at h
  omega
 | _ => cases h

lemma foldl_add_mandatory (hn : (params.map paramKey).Nodup)
    (hok : ∀ param ∈ params, param.Ok) (check : BindingCheck) {key : ℕ} :
    key ∈ (params.foldl BindingCheck.add check).mandatory ↔
      (∃ keys, .mandatory keys ∈ params ∧ key ∈ keys) ∨ (0 ∉ params.map paramKey ∧ key ∈ check.mandatory) := by
 induction params generalizing check with
 | nil => simp
 | cons param params ih =>
  obtain ⟨hpa,hp⟩:=forall_mem_cons.mp hok
  rw [map_cons,nodup_cons] at hn
  rw [foldl_cons,ih hn.2 hp]
  by_cases hz : paramKey param = 0
  · obtain ⟨found,rfl⟩:=paramKey_eq_zero hpa hz
    have hno : ∀ keys, .mandatory keys ∉ params := fun keys hm=>hn.1 (mem_map.mpr ⟨_,hm,rfl⟩)
    have hk : 0 ∉ params.map paramKey := hn.1
    simp [BindingCheck.add,hno,paramKey] at hk ⊢
    exact fun _=>hk
  · have ho : ∀ keys, param ≠ .mandatory keys := fun keys heq=>hz (heq ▸ rfl)
    have hs : (check.add param).mandatory = check.mandatory := by
     cases param with
     | mandatory keys => exact absurd rfl (ho keys)
     | _ => rfl
    have hm : ∀ keys, .mandatory keys ∈ param :: params ↔ .mandatory keys ∈ params := fun keys=>
     ⟨fun hm=>(mem_cons.mp hm).resolve_left fun heq=>ho keys heq.symm,mem_cons_of_mem _⟩
    rw [hs,map_cons,mem_cons,not_or]
    simp only [hm]
    exact or_congr_right (and_congr_left fun _=>⟨fun h=>⟨Ne.symm hz,h⟩,And.right⟩)

lemma validateServiceBinding_eq_ok : validateServiceBinding binding = .ok u ↔ ValidParams binding.params := by
 have hl : ∀ {check : BindingCheck},
   (do errorIf (check.hasNoDefaultAlpn = true ∧ check.hasAlpn = false) (literal "no-default-alpn requires alpn")
       check.mandatory.forM fun key=>errorIf (has check.keys key = false)
         (literal s!"mandatory SVCB parameter is missing: {key}") : Outcome Unit) = .ok u ↔
    (check.hasNoDefaultAlpn = true → check.hasAlpn = true) ∧ ∀ key ∈ check.mandatory, key ∈ check.keys := by
  intro check
  rw [bind_eq_ok]
  simp only [errorIf_eq_ok,forM_eq_ok,exists_and_left,exists_const,not_and,Bool.not_eq_false,has_eq_true]
 rw [validateServiceBinding,bind_eq_ok]
 constructor
 · rintro ⟨check,hf,hrest⟩
   obtain ⟨hn,hok,rfl⟩:=(checkParams_eq_ok nodup_nil).mp hf
   obtain ⟨ha,hm⟩:=hl.mp hrest
   refine ⟨hn,hok,fun hme=>?_,fun keys hme key hke=>?_⟩
   · have hh:=ha (foldl_add_hasNoDefaultAlpn.mpr (.inr hme))
     exact (foldl_add_hasAlpn.mp hh).resolve_left Bool.false_ne_true
   · have hk:=hm key ((foldl_add_mandatory hn hok _).mpr (.inl ⟨keys,hme,hke⟩))
     exact (foldl_add_keys.mp hk).resolve_left not_mem_nil
 · intro hv
   refine ⟨_,(checkParams_eq_ok nodup_nil).mpr ⟨hv.nodup,hv.each,rfl⟩,hl.mpr ⟨fun hno=>?_,?_⟩⟩
   · have hme:=(foldl_add_hasNoDefaultAlpn.mp hno).resolve_left Bool.false_ne_true
     exact foldl_add_hasAlpn.mpr (.inr (hv.alpn hme))
   · intro key hke
     rcases (foldl_add_mandatory hv.nodup hv.each _).mp hke with ⟨keys,hme,hin⟩|⟨_,hne⟩
     · exact foldl_add_keys.mpr (.inr (hv.mandatory keys hme key hin))
     · exact absurd hne not_mem_nil

/-! ### What is read of a binding -/

/-- A parameter, and what is read of it: addresses and protocol ids as bytes, mandatory keys in order. -/
inductive ParsedParam : ServiceParam → ServiceParam → Prop where
  | mandatory (keys : List ℕ) : ParsedParam (.mandatory keys) (.mandatory (keys.insertionSort (· ≤ ·)))
  | alpn (ids : List TextOrBytes) : ParsedParam (.alpn ids) (.alpn (ids.map fun id => .bytes (idBytes id)))
  | noDefaultAlpn : ParsedParam .noDefaultAlpn .noDefaultAlpn
  | port (port : ℕ) : ParsedParam (.port port) (.port port)
  | ipv4hint {addresses : List TextOrBytes} {values : List Bytes} (h : addresses.mapM ipv4Bytes = .ok values) :
    ParsedParam (.ipv4hint addresses) (.ipv4hint (values.map .bytes))
  | ech (data : Bytes) : ParsedParam (.ech data) (.ech data)
  | ipv6hint {addresses : List TextOrBytes} {values : List Bytes} (h : addresses.mapM ipv6Bytes = .ok values) :
    ParsedParam (.ipv6hint addresses) (.ipv6hint (values.map .bytes))
  | unknown (key : ℕ) (value : Bytes) : ParsedParam (.unknown key value) (.unknown key value)

lemma sort_pairwise_lt (h : keys.Nodup) : (keys.insertionSort (· ≤ ·)).Pairwise (· < ·) := by
 have hs : (keys.insertionSort (· ≤ ·)).Pairwise (· ≤ ·) := pairwise_insertionSort _ _
 have hn : (keys.insertionSort (· ≤ ·)).Nodup := (perm_insertionSort _ keys).nodup_iff.mpr h
 exact hs.imp₂ (fun _ _ hle hne=>lt_of_le_of_ne hle hne) hn

lemma validateMandatoryKeys_sort (h : validateMandatoryKeys keys false = .ok ()) (requireSorted : Bool) :
    validateMandatoryKeys (keys.insertionSort (· ≤ ·)) requireSorted = .ok () := by
 obtain ⟨hne,hn,hk⟩:=validateMandatoryKeys_ok h
 have hp:=perm_insertionSort (· ≤ ·) keys
 refine validateMandatoryKeys_of_sorted (fun hni=>hne ?_) (sort_pairwise_lt hn)
  (fun key hm=>hk key (hp.mem_iff.mp hm)) requireSorted
 rw [hni] at hp
 exact hp.nil_eq.symm

namespace ParsedParam

variable {param parsed : ServiceParam}

lemma key (h : ParsedParam param parsed) : paramKey parsed = paramKey param := by
 cases h
 all_goals rfl

lemma ok (h : ParsedParam param parsed) (hok : param.Ok) : parsed.Ok := by
 cases h with
 | mandatory keys => exact validateMandatoryKeys_sort hok false
 | alpn ids =>
  refine ⟨fun hn=>hok.1 (map_eq_nil_iff.mp hn),fun id hid=>?_⟩
  obtain ⟨original,ho,rfl⟩:=mem_map.mp hid
  exact hok.2 original ho
 | ipv4hint hv | ipv6hint hv =>
  exact fun hn=>ne_nil_of_mapM_ok hv hok (map_eq_nil_iff.mp hn)
 | _ => exact hok

lemma mandatory_mem (h : ParsedParam param (.mandatory keys)) :
    ∃ given, param = .mandatory given ∧ ∀ key ∈ keys, key ∈ given := by
 cases h with
 | mandatory given => exact ⟨given,rfl,fun key hm=>(perm_insertionSort _ given).mem_iff.mp hm⟩

end ParsedParam

lemma ValidParams.of_perm {other : List ServiceParam} (h : ValidParams params) (hp : other.Perm params) :
    ValidParams other := by
 have hk:=hp.map paramKey
 refine ⟨hk.nodup_iff.mpr h.nodup,fun param hm=>h.each param (hp.mem_iff.mp hm),fun hm=>?_,?_⟩
 · obtain ⟨ids,hi⟩:=h.alpn (hp.mem_iff.mp hm)
   exact ⟨ids,hp.mem_iff.mpr hi⟩
 · intro keys hm key hke
   exact hk.mem_iff.mpr (h.mandatory keys (hp.mem_iff.mp hm) key hke)

lemma exists_of_forall₂ {β : Type} {R : α → β → Prop} {others : List β} (h : List.Forall₂ R values others) {value : α}
    (hv : value ∈ values) : ∃ other ∈ others, R value other := by
 induction h with
 | nil => exact absurd hv not_mem_nil
 | @cons _ other _ _ hf _ ih =>
  rcases mem_cons.mp hv with rfl|hm
  · exact ⟨other,mem_cons_self,hf⟩
  · obtain ⟨found,hfo,hrest⟩:=ih hm
    exact ⟨found,mem_cons_of_mem _ hfo,hrest⟩

lemma ValidParams.parsed {parsed : List ServiceParam} (h : ValidParams params)
    (hp : List.Forall₂ ParsedParam params parsed) : ValidParams parsed := by
 have hk : parsed.map paramKey = params.map paramKey := by
  clear h
  induction hp with
  | nil => rfl
  | cons hpa _ ih => rw [map_cons,map_cons,hpa.key,ih]
 have hb:=Forall₂.flip (R := flip ParsedParam) hp
 refine ⟨hk ▸ h.nodup,fun read hr=>?_,fun hm=>?_,fun keys hm key hke=>?_⟩
 · obtain ⟨param,hpa,hp⟩:=exists_of_forall₂ hb hr
   exact hp.ok (h.each param hpa)
 · obtain ⟨param,hpa,ho⟩:=exists_of_forall₂ hb hm
   cases ho
   obtain ⟨ids,hi⟩:=h.alpn hpa
   obtain ⟨read,hr,hp⟩:=exists_of_forall₂ hp hi
   cases hp
   exact ⟨_,hr⟩
 · obtain ⟨param,hpa,ho⟩:=exists_of_forall₂ hb hm
   obtain ⟨given,rfl,hg⟩:=ho.mandatory_mem
   exact hk ▸ h.mandatory given hpa key (hg key hke)

/-! ### Values up to an end -/

variable {packet rest : Bytes}

lemma whileBelow_of_follows {read : ReaderM α} {enc : α → Bytes}
    (hre : ∀ value ∈ values, ∀ {offset : ℕ} {rest : Bytes}, Follows packet offset (enc value ++ rest) →
      read offset = .ok (value, offset + (enc value).length))
    (hp : ∀ value ∈ values, 0 < (enc value).length) {last rounds : ℕ}
    (h : Follows packet offset (values.flatMap enc ++ rest)) (hl : last = offset + (values.flatMap enc).length)
    (hr : values.length ≤ rounds) : whileBelow last read rounds offset = .ok (values, last) := by
 induction values generalizing offset rounds with
 | nil =>
  cases rounds with
  | zero => exact congrArg (fun n=>Except.ok ([],n)) hl.symm
  | succ rounds =>
   have he : ¬ offset < last := by
    rw [hl]
    exact lt_irrefl _
   rw [whileBelow,get_bind,if_neg he]
   exact congrArg (fun n=>Except.ok ([],n)) hl.symm
 | cons value values ih =>
  obtain ⟨rounds,rfl⟩:=exists_eq_add_one_of_ne_zero (ne_zero_of_lt (lt_of_lt_of_le (succ_pos _) hr))
  have hf:=hp value mem_cons_self
  rw [flatMap_cons,length_append] at hl
  rw [flatMap_cons,append_assoc] at h
  have hv:=ih (fun other ho=>hre other (mem_cons_of_mem _ ho))
   (fun other ho=>hp other (mem_cons_of_mem _ ho)) h.skip (by omega) (le_of_succ_le_succ hr)
  rw [whileBelow,get_bind,if_pos (by omega),bind_ok (hre value mem_cons_self h), bind_ok hv]
  rfl

lemma length_le_flatMap {enc : α → Bytes} (hp : ∀ value ∈ values, 0 < (enc value).length) :
    values.length ≤ (values.flatMap enc).length := by
 induction values with
 | nil => exact le_refl _
 | cons value values ih =>
  have hf:=hp value mem_cons_self
  have hrest:=ih fun other ho=>hp other (mem_cons_of_mem _ ho)
  rw [flatMap_cons,length_append,length_cons]
  omega

lemma readChunks_of_follows {values : List Bytes} (hmax : ∀ value ∈ values, value.length ≤ 0xff)
    {last : ℕ} (h : Follows packet offset (values.flatMap chunk ++ rest))
    (hl : last = offset + (values.flatMap chunk).length) : readChunks packet last offset = .ok (values, last) := by
 have hp : ∀ value ∈ values, 0 < (chunk value).length := fun value _=>by
  rw [chunk,length_append,beBytes_length]
  omega
 have hle:=length_le_flatMap hp
 refine whileBelow_of_follows (fun value hv {offset rest} hf=>?_) hp h hl (by omega)
 have hs : (chunk value).length = 1+value.length := by rw [chunk,length_append,beBytes_length]
 rw [chunk,append_assoc] at hf
 rw [bind_ok (u8_of_follows hf (lt_succ_of_le (hmax value hv))),
  take_of_follows (hf.skip_of_length (beBytes_length 1 _)),hs,add_assoc]

lemma readAddresses_of_follows {addressBytes : TextOrBytes → Outcome Bytes} {addrs : List TextOrBytes}
    {values : List Bytes} {size : ℕ} (hs : 0 < size)
    (ha : ∀ {address value}, addressBytes address = .ok value → value.length = size)
    (hm : addrs.mapM addressBytes = .ok values) {last : ℕ} (h : Follows packet offset (values.flatten ++ rest))
    (hla : last = offset + values.flatten.length) :
    whileBelow last (take packet size) last offset = .ok (values, last) := by
 have hva : ∀ value ∈ values, value.length = size := fun value hv=>by
  obtain ⟨_,_,ho⟩:=mem_of_mapM_ok hm hv
  exact ha ho
 have hf : values.flatMap id = values.flatten := flatMap_id
 have hp : ∀ value ∈ values, 0 < (id value : Bytes).length := fun value hv=>by
  rw [id,hva value hv]
  exact hs
 have hl:=length_le_flatMap hp
 rw [hf] at hl
 refine whileBelow_of_follows (fun value hv {offset rest} hfo=>?_) hp (hf.symm ▸ h)
  (hf.symm ▸ hla) (by omega)
 rw [← hva value hv]
 exact take_of_follows hfo

variable {w w' : Writer}

lemma writeAddresses_eq_ok {addressBytes : TextOrBytes → Outcome Bytes} {addrs : List TextOrBytes}
    (h : writeAddresses addressBytes addrs w = .ok w') :
    ∃ values, addrs.mapM addressBytes = .ok values ∧ w' = w.write values.flatten := by
 induction addrs generalizing w with
 | nil =>
  cases h
  exact ⟨[],rfl,by simp [write]⟩
 | cons address addrs ih =>
  obtain ⟨value,hva,hrest⟩:=bind_eq_ok.mp h
  obtain ⟨values,hv,rfl⟩:=ih hrest
  refine ⟨value :: values,?_,by simp [write]⟩
  rw [mapM_cons,hva,hv]
  rfl

lemma writeKeys_eq_ok (h : writeKeys keys w = .ok w') :
    w' = w.write (keys.flatMap (beBytes 2)) ∧ ∀ key ∈ keys, key ≤ 0xffff := by
 induction keys generalizing w with
 | nil =>
  cases h
  exact ⟨by simp [write],nofun⟩
 | cons key keys ih =>
  obtain ⟨written,hke,hrest⟩:=bind_eq_ok.mp h
  obtain ⟨hmax,rfl⟩:=u16_eq_ok.mp hke
  obtain ⟨rfl,hk⟩:=ih hrest
  exact ⟨by simp [write],forall_mem_cons.mpr ⟨hmax,hk⟩⟩

lemma ipv4Bytes_length {value : Bytes} (h : ipv4Bytes address = .ok value) : value.length = 4 := by
 cases address with
 | bytes address =>
  obtain ⟨hl,rfl⟩:=checked_eq_ok.mp h
  exact not_not.mp (rangeErrorIf_eq_ok.mp hl)
 | text address =>
  obtain ⟨parts,_,hrest⟩:=bind_eq_ok.mp h
  obtain ⟨hl,rfl⟩:=checked_eq_ok.mp hrest
  rw [length_map]
  exact not_not.mp (not_or.mp (errorIf_eq_ok.mp hl)).1

lemma ipv6Bytes_length {value : Bytes} (h : ipv6Bytes address = .ok value) : value.length = 16 := by
 cases address with
 | bytes address =>
  obtain ⟨hl,rfl⟩:=checked_eq_ok.mp h
  exact not_not.mp (rangeErrorIf_eq_ok.mp hl)
 | text address =>
  obtain ⟨parts,hp,hv⟩:=bind_eq_ok.mp h
  cases hv
  obtain ⟨_,_,hp⟩:=bind_eq_ok.mp hp
  obtain ⟨head,_,hp⟩:=bind_eq_ok.mp hp
  obtain ⟨tail,_,hp⟩:=bind_eq_ok.mp hp
  obtain ⟨hc,rfl⟩:=checked_eq_ok.mp hp
  have hl:=(not_or.mp (errorIf_eq_ok.mp hc)).1
  have hs : ∀ parts : List ℕ, (parts.flatMap (beBytes 2)).length = 2*parts.length := by
   intro parts
   induction parts with
   | nil => rfl
   | cons part parts ih =>
    rw [flatMap_cons,length_append,beBytes_length,length_cons]
    omega
  rw [hs,length_append,length_append,length_replicate]
  omega

/-! ### Bindings that are written -/

lemma Writer.setU16_append {before value : Bytes} (refs : List (Bytes × ℕ)) (n : ℕ) :
    (mk (before ++ beBytes 2 0 ++ value) refs).setU16 before.length n = ⟨before ++ beBytes 2 n ++ value, refs⟩ := by
 have hlow : ofNat n = ofNat (n/256^0) := by rw [pow_zero,Nat.div_one]
 have hh : ofNat (n/0x100) = ofNat (n/256^1) := rfl
 have hb : before ++ beBytes 2 0 ++ value = before ++ (ofNat 0 :: ofNat 0 :: value) := append_assoc _ _ _
 rw [setU16,hb,set_append_right _ _ le_rfl,Nat.sub_self,
  set_append_right _ _ (Nat.le_add_right _ 1),Nat.add_sub_cancel_left,hlow,append_assoc]
 rfl

lemma Writer.lengthPrefixed_eq_ok {write : Writer → Outcome Writer} (h : w.lengthPrefixed write = .ok w') :
    ∃ written, write (w.write (beBytes 2 0)) = .ok written ∧ ∀ {value : Bytes},
      written.bytes = (w.write (beBytes 2 0)).bytes ++ value →
      w' = ⟨w.bytes ++ (beBytes 2 value.length ++ value), written.refs⟩ := by
 obtain ⟨start,hs,hrest⟩:=bind_eq_ok.mp h
 obtain ⟨_,rfl⟩:=u16_eq_ok.mp hs
 obtain ⟨written,hw,hse⟩:=bind_eq_ok.mp hrest
 cases hse
 refine ⟨written,hw,fun {value} hv=>?_⟩
 have hl : written.bytes.length - (w.write (beBytes 2 0)).bytes.length = value.length := by
  rw [hv,length_append,Nat.add_sub_cancel_left]
 obtain ⟨bytes,refs⟩:=written
 subst hv
 rw [hl,← append_assoc]
 exact setU16_append refs value.length

lemma readServiceParam_unknown (packet : Bytes) {key : ℕ} (h : 6 < key) (last : ℕ) :
    readServiceParam packet key last = (do
      let offset ← get
      let value ← take packet (last - offset)
      return .unknown key value) := by
 obtain ⟨n,rfl⟩:=Nat.exists_eq_add_of_lt h
 rw [show 6+n+1 = n+7 by omega]
 rfl

lemma expectEnd_bind {last : ℕ} (f : Unit → ReaderM α) : (expectEnd last >>= f) last = f () last := by
 refine bind_ok ?_
 rw [expectEnd,errorIf,if_neg (not_not.mpr rfl)]
 rfl

structure ParamWritten (param parsed : ServiceParam) (value : Bytes) : Prop where
  data : ParsedParam param parsed
  read : ∀ {packet rest : Bytes} {offset last : ℕ}, Follows packet offset (value ++ rest) →
    last = offset + value.length →
    readServiceParam packet (paramKey param) last offset = .ok (parsed, last)

lemma writeServiceParam_spec (hok : param.Ok)
    (h : writeServiceParam param w = .ok w') :
    ∃ value parsed, w' = w.write value ∧ ParamWritten param parsed value := by
 cases param with
 | mandatory keys =>
  obtain ⟨rfl,hmax⟩:=writeKeys_eq_ok h
  refine ⟨_,_,rfl,.mandatory keys,fun {packet rest offset last} hf hl=>?_⟩
  have hp : ∀ key ∈ keys.insertionSort (· ≤ ·), 0 < (beBytes 2 key).length := fun _ _=>by
   rw [beBytes_length]
   omega
  have hle:=length_le_flatMap hp
  have hr:=whileBelow_of_follows (fun key hk {offset rest} hf=>by
   exact u16_of_follows hf (lt_succ_of_le (hmax key hk))) hp hf hl
   (show _ ≤ last by omega)
  exact (bind_ok hr).trans (lift_bind (validateMandatoryKeys_sort hok true) _)
 | alpn ids =>
  obtain ⟨rfl,hmax⟩:=chunks_eq_ok h
  refine ⟨_,_,rfl,.alpn ids,fun {packet rest offset last} hf hl=>?_⟩
  refine (bind_ok (readChunks_of_follows hmax hf hl)).trans ?_
  rw [map_map]
  rfl
 | noDefaultAlpn =>
  cases h
  refine ⟨[],_,by simp [write],.noDefaultAlpn,fun {packet rest offset last} _ hl=>?_⟩
  obtain rfl : last = offset:=hl
  exact expectEnd_bind _
 | port port =>
  obtain ⟨hmax,rfl⟩:=u16_eq_ok.mp h
  refine ⟨_,_,rfl,.port port,fun {packet rest offset last} hf hl=>?_⟩
  rw [beBytes_length] at hl
  refine (bind_ok (u16_of_follows hf (lt_succ_of_le hmax))).trans ?_
  rw [← hl]
  exact expectEnd_bind _
 | ipv4hint addrs =>
  obtain ⟨values,hv,rfl⟩:=writeAddresses_eq_ok h
  refine ⟨_,_,rfl,.ipv4hint hv,fun {packet rest offset last} hf hl=>?_⟩
  exact bind_ok (readAddresses_of_follows (by decide) ipv4Bytes_length hv hf hl)
 | ech data =>
  obtain ⟨sized,hs,hdata⟩:=bind_eq_ok.mp h
  obtain ⟨hmax,rfl⟩:=u16_eq_ok.mp hs
  cases hdata
  refine ⟨beBytes 2 data.length ++ data,_,by simp [write],.ech data,
   fun {packet rest offset last} hf hl=>?_⟩
  rw [append_assoc] at hf
  rw [length_append,beBytes_length,← add_assoc] at hl
  have hdata:=take_of_follows (hf.skip_of_length (beBytes_length 2 _))
  refine (bind_ok (u16_of_follows hf (lt_succ_of_le hmax))).trans ?_
  rw [bind_ok hdata,← hl]
  exact expectEnd_bind _
 | ipv6hint addrs =>
  obtain ⟨values,hv,rfl⟩:=writeAddresses_eq_ok h
  refine ⟨_,_,rfl,.ipv6hint hv,fun {packet rest offset last} hf hl=>?_⟩
  exact bind_ok (readAddresses_of_follows (by decide) ipv6Bytes_length hv hf hl)
 | unknown key value =>
  cases h
  refine ⟨value,_,rfl,.unknown key value,fun {packet rest offset last} hf hl=>?_⟩
  change readServiceParam packet key last offset = _
  have hle : last - offset = value.length := by omega
  rw [readServiceParam_unknown packet hok,get_bind,hle, bind_ok (take_of_follows hf),hl]
  rfl

lemma writeParams_spec (hok : ∀ param ∈ params, param.Ok) {previous : Option ℕ}
    (hso : (previous.toList ++ params.map paramKey).Pairwise (· < ·))
    (h : writeParams previous params w = .ok w') :
    ∃ value parsed, w' = w.write value ∧ List.Forall₂ ParsedParam params parsed ∧ params.length ≤ value.length ∧
      ∀ {packet rest : Bytes} {offset last rounds : ℕ}, packet.length ≤ 0x4000 → Follows packet offset (value ++ rest) →
        last = offset + value.length → params.length ≤ rounds →
        readParams packet last rounds previous offset = .ok (parsed, last) := by
 induction params generalizing previous w with
 | nil =>
  cases h
  refine ⟨[],[],by simp [write],.nil,le_rfl,fun {packet rest offset last rounds} _ _ hl _=>?_⟩
  obtain rfl : last = offset:=hl
  cases rounds with
  | zero => rfl
  | succ rounds =>
   rw [readParams,get_bind,if_neg (lt_irrefl _)]
   rfl
 | cons param params ih =>
  obtain ⟨hpm,hpa⟩:=forall_mem_cons.mp hok
  obtain ⟨_,_,hrest⟩:=bind_eq_ok.mp h
  obtain ⟨keyed,hk,hrest⟩:=bind_eq_ok.mp hrest
  obtain ⟨hmax,rfl⟩:=u16_eq_ok.mp hk
  obtain ⟨sized,hs,hrest⟩:=bind_eq_ok.mp hrest
  obtain ⟨written,hw,hs⟩:=lengthPrefixed_eq_ok hs
  obtain ⟨value,read,rfl,hre⟩:=writeServiceParam_spec hpm hw
  obtain rfl:=hs rfl
  obtain ⟨hbefore,ha,hc⟩:=pairwise_append.mp hso
  have hn : ((some (paramKey param)).toList ++ params.map paramKey).Pairwise (· < ·) := ha
  obtain ⟨values,reads,rfl,hrs,hlh,hva⟩:=ih hpa hn hrest
  refine ⟨beBytes 2 (paramKey param) ++ (beBytes 2 value.length ++ (value ++ values)),read :: reads,
   by simp [write],.cons hre.data hrs,?_,?_⟩
  · simp only [length_append,length_cons,beBytes_length]
    omega
  intro packet rest offset last rounds hp hf hl hr
  obtain ⟨rounds,rfl⟩:=exists_eq_add_one_of_ne_zero (ne_zero_of_lt (lt_of_lt_of_le (succ_pos _) hr))
  have hsi:=hf.length_le
  simp only [length_append,beBytes_length] at hl hsi
  rw [append_assoc,append_assoc,append_assoc] at hf
  have hf' := hf.skip_of_length (beBytes_length 2 _)
  have hv:=hf'.skip_of_length (beBytes_length 2 _)
  have hsm : ¬ previous.any (fun previous=>paramKey param ≤ previous) = true := by
   cases previous with
   | none => exact Bool.false_ne_true
   | some before =>
    have hlt:=hc before (mem_singleton.mpr rfl) _ mem_cons_self
    exact fun hle=>absurd (of_decide_eq_true hle) (Nat.not_le_of_lt hlt)
  rw [readParams,get_bind,if_pos (by omega), bind_ok (u16_of_follows hf (lt_succ_of_le hmax)),
   bind_ok (u16_of_follows hf' (by omega)),lift_bind (errorIf_eq_ok (u := ()).mpr hsm),
   get_bind,bind_ok (hre.read hv rfl),
   bind_ok (hva hp hv.skip (by omega) (le_of_succ_le_succ hr))]
  rfl

lemma sortParams_perm (params : List ServiceParam) : (sortParams params).Perm params := perm_insertionSort _ params

lemma sortParams_pairwise (params : List ServiceParam) :
    (sortParams params).Pairwise fun a b => paramKey a ≤ paramKey b := by
 have ht : Std.Total fun a b : ServiceParam=>paramKey a ≤ paramKey b := ⟨fun a b=>le_total _ _⟩
 have htr : IsTrans ServiceParam fun a b=>paramKey a ≤ paramKey b := ⟨fun _ _ _=>le_trans⟩
 exact pairwise_insertionSort _ params

lemma ValidParams.sort (h : ValidParams params) : ((sortParams params).map paramKey).Pairwise (· < ·) := by
 have hle : ((sortParams params).map paramKey).Pairwise (· ≤ ·) := pairwise_map.mpr (sortParams_pairwise params)
 have hn : ((sortParams params).map paramKey).Nodup := (h.of_perm (sortParams_perm params)).nodup
 exact hle.imp₂ (fun _ _ hle hne=>lt_of_le_of_ne hle hne) hn

structure ParsedBinding (targetText : Text → Text) (binding parsed : ServiceBinding) : Prop where
  priority : parsed.priority = binding.priority
  target : parsed.target = targetText binding.target
  params : List.Forall₂ ParsedParam (sortParams binding.params) parsed.params

def plainText (name : Text) : Text := joinLabels ((wireLabels name).map decodeUtf8)

lemma writeServiceBinding_spec (h : writeServiceBinding binding w = .ok w') :
    ∃ value parsed, w' = w.write value ∧ ParsedBinding plainText binding parsed ∧ ∀ {packet rest : Bytes} {last : ℕ},
      packet.length ≤ 0x4000 → Follows packet w.bytes.length (value ++ rest) → last = w.bytes.length + value.length →
      readServiceBinding packet last w.bytes.length = .ok (parsed, last) := by
 obtain ⟨_,hc,hrest⟩:=bind_eq_ok.mp h
 have hv:=validateServiceBinding_eq_ok.mp hc
 obtain ⟨prioritized,hp,hrest⟩:=bind_eq_ok.mp hrest
 obtain ⟨hmax,rfl⟩:=u16_eq_ok.mp hp
 obtain ⟨named,hna,hps⟩:=bind_eq_ok.mp hrest
 obtain ⟨hrs,name,hn,hre⟩:=writeName_spec hna
 have hs:=hv.of_perm (sortParams_perm binding.params)
 obtain ⟨values,parsed,rfl,hpd,hle,hr⟩:=writeParams_spec hs.each
  (show ((none : Option ℕ).toList ++ _).Pairwise (· < ·) from hv.sort) hps
 refine ⟨beBytes 2 binding.priority ++ (name ++ values),⟨binding.priority,plainText binding.target,parsed⟩,?_,
  ⟨rfl,rfl,hpd⟩,fun {packet rest last} hpa hf hl=>?_⟩
 · obtain ⟨bytes,refs⟩:=named
   obtain rfl : refs = w.refs:=hrs
   obtain rfl : bytes = w.bytes ++ beBytes 2 binding.priority ++ name:=hn
   simp [write]
 have hsi:=hf.length_le
 simp only [length_append,beBytes_length] at hl hsi
 rw [append_assoc,append_assoc] at hf
 have hst : (w.write (beBytes 2 binding.priority)).bytes.length = w.bytes.length+2 := by
  rw [write,length_append,beBytes_length]
 have he : named.bytes.length = w.bytes.length+2+name.length := by rw [hn,length_append,hst]
 have hfo:=hf.skip_of_length (beBytes_length 2 _)
 have hfs:=hfo.skip
 have hn' := hre hpa (hst ▸ hfo)
 rw [hst,he] at hn'
 have hco : (sortParams binding.params).length ≤ last := by omega
 rw [readServiceBinding,bind_ok (u16_of_follows hf (lt_succ_of_le hmax)),
  bind_ok hn',bind_ok (hr hpa hfs (by omega) hco)]
 exact lift_bind (validateServiceBinding_eq_ok (u := ()).mpr (hs.parsed hpd)) _

end Enlace.Pkarr
