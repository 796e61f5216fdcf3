import Enlace.Crypto
import Mathlib.Data.List.MinMax

set_option autoImplicit false

/-! The loop of a slot read, shared by `Coordinator::slot_get` and `PeerSlot::get_address`. The
responses come in the order in which the transports answer. -/
namespace Enlace.SlotRead
open ByteString Fallible Kdf List Option Except

inductive TransportError where
  | network (text : String)
  | auth
  | stale
  | bodyTooLarge
  | timeout
  | unsupported
  | other (text : String)
  deriving DecidableEq

/-- `slot_pair_is_newer` and `peer_slot_pair_is_newer`. -/
def slotPairIsNewer (version : UInt64) (sealed : Bytes) (bestVersion : UInt64) (bestSealed : Bytes) :
    Bool := decide (toLex (bestVersion, bestSealed) < toLex (version, sealed))

structure Item (Env Value : Type) where
  bytes : Bytes
  version : UInt64
  value : Value
  env : Env

def Item.key {Env Value : Type} (x : Item Env Value) : UInt64 ×ₗ Bytes := toLex (x.version, x.bytes)

structure Response (Env : Type) where
  env : Env
  kind : TransportKind
  result : Except TransportError (Option (UInt64 × Bytes))

structure Gathered (Env Value : Type) where
  okCount : ℕ
  failures : List (TransportKind × TransportError)
  best : Option (Item Env Value)

variable {Env Value ε : Type}

/-- Opening yields a version and a value, drops the payload, or aborts. -/
abbrev Opener (Env Value : Type) := Env → TransportKind → Bytes → Res Unit (UInt64 × Value)

variable (openItem : Opener Env Value)

def handle (g : Gathered Env Value) (r : Response Env) : Res ε (Gathered Env Value) :=
  match r.result with
  | .ok none => .ok { g with okCount := g.okCount + 1 }
  | .ok (some (_, bytes)) =>
    match openItem r.env r.kind bytes with
    | .ok (version, value) =>
      if g.best.all fun b => slotPairIsNewer version bytes b.version b.bytes then
        .ok { g with okCount := g.okCount + 1, best := some ⟨bytes, version, value, r.env⟩ }
      else .ok { g with okCount := g.okCount + 1 }
    | .error (.error _) => .ok { g with okCount := g.okCount + 1 }
    | .error .abort => .error .abort
  | .error e => .ok { g with failures := g.failures ++ [(r.kind, e)] }

def read (allTransportsFailed : List (TransportKind × TransportError) → ε)
    (responses : List (Response Env)) : Res ε (Option (Item Env Value)) := do
  let g ← responses.foldlM (handle openItem) ⟨0, [], none⟩
  ensure (g.okCount != 0 || g.failures.isEmpty) (allTransportsFailed g.failures)
  return g.best

def opened (r : Response Env) : Option (Item Env Value) :=
  match r.result with
  | .ok (some (_, bytes)) =>
    (toOption (openItem r.env r.kind bytes)).map fun p => ⟨bytes, p.1, p.2, r.env⟩
  | _ => none

variable {g u : Gathered Env Value} {r : Response Env} {x : Item Env Value}

lemma opened_eq_some (h : opened openItem r = some x) :
    ∃ serverVersion, r.result = .ok (some (serverVersion, x.bytes)) ∧ x.env = r.env ∧
      openItem r.env r.kind x.bytes = .ok (x.version, x.value) := by
 unfold opened at h
 split at h
 · rename_i serverVersion bytes hr
   obtain ⟨p,hp,rfl⟩:=map_eq_some_iff.mp h
   exact ⟨serverVersion,hr,rfl,toOption_eq_some.mp hp⟩
 · cases h

def better (best : Option (Item Env Value)) (x : Item Env Value) : Option (Item Env Value) :=
  List.argAux (fun b c => Item.key c < Item.key b) best x

lemma handle_best (h : (handle openItem g r : Res ε _) = .ok u) :
    u.best = (opened openItem r).toList.foldl better g.best := by
 unfold handle at h
 unfold opened
 cases hr : r.result with
 | error e =>
  rw [hr] at h
  rw [← ok.inj h]
  rfl
 | ok o =>
  cases o with
  | none =>
   rw [hr] at h
   rw [← ok.inj h]
   rfl
  | some p =>
   rw [hr] at h
   simp only at h ⊢
   generalize openItem r.env r.kind p.2 = res at h ⊢
   match res, h with
   | .error (.error _), h =>
    rw [← ok.inj h]
    rfl
   | .error .abort, h => cases h
   | .ok q, h =>
    simp only at h
    cases hb : g.best with
    | none =>
     rw [hb] at h
     rw [← ok.inj h]
     rfl
    | some b =>
     have hk : slotPairIsNewer q.1 p.2 b.version b.bytes =
       decide (b.key < Item.key ⟨p.2,q.1,q.2,r.env⟩) := rfl
     rw [hb,all_some,hk] at h
     change u.best = better (some b) ⟨p.2,q.1,q.2,r.env⟩
     by_cases hlt : b.key < Item.key ⟨p.2,q.1,q.2,r.env⟩
     · rw [if_pos (decide_eq_true hlt)] at h
       rw [← ok.inj h]
       exact (if_pos hlt).symm
     · rw [if_neg (by rw [decide_eq_false hlt]; decide)] at h
       rw [← ok.inj h]
       exact (if_neg hlt).symm

variable {responses : List (Response Env)}

lemma foldlM_handle_best (h : (responses.foldlM (handle openItem) g : Res ε _) = .ok u) :
    u.best = (responses.filterMap (opened openItem)).foldl better g.best := by
 induction responses generalizing g with
 | nil => rw [← ok.inj h]; rfl
 | cons r responses ih =>
  obtain ⟨v,hv,h⟩:=bind_eq_ok.mp h
  rw [ih h,handle_best openItem hv]
  cases ho : opened openItem r with
  | none => rw [filterMap_cons_none ho]; rfl
  | some x => rw [filterMap_cons_some ho]; rfl

/-- A read returns the first of the newest payloads that open. -/
theorem read_eq_argmax {allTransportsFailed : List (TransportKind × TransportError) → ε}
    {best : Option (Item Env Value)}
    (h : read openItem allTransportsFailed responses = .ok best) :
    best = (responses.filterMap (opened openItem)).argmax Item.key := by
 simp only [read,bind_eq_ok,ensure_eq_ok,pure_eq_ok] at h
 obtain ⟨g,hg,_,_,rfl⟩:=h
 exact foldlM_handle_best openItem hg

def Newest (responses : List (Response Env)) (x : Item Env Value) : Prop :=
  ∀ r ∈ responses, ∀ y, opened openItem r = some y → y.key ≤ x.key

lemma read_some {allTransportsFailed : List (TransportKind × TransportError) → ε}
    (h : read openItem allTransportsFailed responses = .ok (some x)) :
    (∃ r ∈ responses, opened openItem r = some x) ∧ Newest openItem responses x := by
 have hmax : x ∈ (responses.filterMap (opened openItem)).argmax Item.key := (read_eq_argmax openItem h).symm
 refine ⟨mem_filterMap.mp (argmax_mem hmax),?_⟩
 intro r hr y hy
 exact le_of_mem_argmax (mem_filterMap.mpr ⟨r,hr,hy⟩) hmax

section Order

def Response.failed (r : Response Env) : Bool :=
  match r.result with
  | .ok _ => false
  | .error _ => true

def failures (responses : List (Response Env)) : List (TransportKind × TransportError) :=
  responses.filterMap fun r => match r.result with
    | .ok _ => none
    | .error e => some (r.kind, e)

def AllFailed (responses : List (Response Env)) : Prop :=
  (∃ r ∈ responses, r.failed = true) ∧ ∀ r ∈ responses, r.failed = true

variable {responses : List (Response Env)}

lemma failures_eq_nil : failures responses = [] ↔ ∀ r ∈ responses, r.failed = false := by
 rw [failures,filterMap_eq_nil_iff]
 refine forall₂_congr fun r _=>?_
 unfold Response.failed
 cases r.result with
 | ok o => exact iff_of_true rfl rfl
 | error e => exact iff_of_false nofun nofun

variable {openItem} (hopen : ∀ env kind bytes, NoAbort (openItem env kind bytes))
include hopen

lemma handle_ok (g : Gathered Env Value) (r : Response Env) : ∃ u, (handle openItem g r : Res ε _) = .ok u ∧
      u.okCount = g.okCount + (if r.failed then 0 else 1) ∧ u.failures = g.failures ++ failures [r] := by
 unfold handle Response.failed failures
 rw [filterMap_cons]
 cases r.result with
 | error e => exact ⟨_,rfl,rfl,rfl⟩
 | ok o =>
  cases o with
  | none => exact ⟨_,rfl,rfl,(append_nil _).symm⟩
  | some p =>
   have h:=hopen r.env r.kind p.2
   simp only
   generalize openItem r.env r.kind p.2 = res at h ⊢
   match res, h with
   | .error .abort, h => exact absurd rfl h
   | .error (.error _), _ => exact ⟨_,rfl,rfl,(append_nil _).symm⟩
   | .ok q, _ =>
    simp only
    split
    · exact ⟨_,rfl,rfl,(append_nil _).symm⟩
    · exact ⟨_,rfl,rfl,(append_nil _).symm⟩

lemma foldlM_handle_ok (responses : List (Response Env)) (g : Gathered Env Value) :
    ∃ u, (responses.foldlM (handle openItem) g : Res ε _) = .ok u ∧
      (u.okCount = 0 ↔ g.okCount = 0 ∧ ∀ r ∈ responses, r.failed = true) ∧
      u.failures = g.failures ++ failures responses := by
 induction responses generalizing g with
 | nil => exact ⟨g,rfl,by simp,(append_nil _).symm⟩
 | cons r responses ih =>
  obtain ⟨v,hv,hc,hf⟩:=handle_ok (ε := ε) hopen g r
  obtain ⟨u,hu,hc',hf'⟩:=ih v
  refine ⟨u,by rw [foldlM_cons,hv]; exact hu,?_,?_⟩
  · rw [hc',hc,forall_mem_cons]
    cases r.failed with
    | true | false => simp
  · rw [hf',hf,append_assoc,failures,failures,← filterMap_append]
    rfl

variable (allTransportsFailed : List (TransportKind × TransportError) → ε)

lemma read_of_allFailed (h : AllFailed responses) :
    read openItem allTransportsFailed responses = fail (allTransportsFailed (failures responses)) := by
 obtain ⟨u,hu,hc,hf⟩:=foldlM_handle_ok (ε := ε) hopen responses ⟨0,[],none⟩
 rw [nil_append] at hf
 have hn : (failures responses).isEmpty = false := by
  obtain ⟨r,hr,hfa⟩:=h.1
  refine Bool.not_eq_true _ ▸ fun he=>?_
  rw [failures_eq_nil.mp (List.isEmpty_iff.mp he) r hr] at hfa
  cases hfa
 rw [read,hu,ok_bind,hc.mpr ⟨rfl,h.2⟩,hf,hn]
 rfl

lemma read_of_answered (h : ¬ AllFailed responses) :
    read openItem allTransportsFailed responses = .ok ((responses.filterMap (opened openItem)).argmax Item.key) := by
 obtain ⟨u,hu,hc,hf⟩:=foldlM_handle_ok (ε := ε) hopen responses ⟨0,[],none⟩
 rw [nil_append] at hf
 have hp : (u.okCount != 0 || u.failures.isEmpty) = true := by
  by_contra hn
  rw [Bool.or_eq_true,bne_iff_ne,List.isEmpty_iff,not_or,not_not,hf,failures_eq_nil] at hn
  obtain ⟨_,ha⟩:=hc.mp hn.1
  obtain ⟨r,hr⟩:=not_forall.mp hn.2
  have hm : r ∈ responses := (Classical.not_imp.mp hr).1
  exact h ⟨⟨r,hm,ha r hm⟩,ha⟩
 have hre : read openItem allTransportsFailed responses = .ok u.best := by
  rw [read,hu,ok_bind,hp]
  rfl
 rw [hre,read_eq_argmax openItem hre]

omit hopen in
lemma map_argmax_of_perm {α β : Type} [LinearOrder β] (f : α → β) {l l' : List α} (h : l.Perm l') :
    (l.argmax f).map f = (l'.argmax f).map f := by
 cases hl : l.argmax f with
 | none =>
  rw [argmax_eq_none.mp hl,nil_perm] at h
  rw [h]
  rfl
 | some a =>
  cases hl' : l'.argmax f with
  | none =>
   rw [argmax_eq_none.mp hl',perm_nil] at h
   rw [h] at hl
   cases hl
  | some b =>
   have hab:=le_of_mem_argmax (h.mem_iff.mp (argmax_mem hl)) hl'
   have hba:=le_of_mem_argmax (h.mem_iff.mpr (argmax_mem hl')) hl
   exact congrArg some (le_antisymm hab hba)

/-- A read fails when all answers fail, and otherwise returns the newest of the payloads that open; in another order of
the answers it returns one that looks the same. -/
structure NewestRead {W : Type} (openItem : Opener Env Value) (look : Value → W)
    (allTransportsFailed : List (TransportKind × TransportError) → ε)
    (get : List (Response Env) → Res ε (Option Value)) (responses : List (Response Env)) : Prop where
  fails_iff : (∃ fs, get responses = fail (allTransportsFailed fs)) ↔ AllFailed responses
  returns : ¬ AllFailed responses → ∃ value, get responses = .ok value ∧
    (value = none ↔ ∀ r ∈ responses, opened openItem r = none) ∧
    ∀ v ∈ value, ∃ x, x.value = v ∧ (∃ r ∈ responses, opened openItem r = some x) ∧ Newest openItem responses x
  same : ∀ order, responses.Perm order → ∀ value, get responses = .ok value →
    ∃ value', get order = .ok value' ∧ value'.map look = value.map look

/-- A payload that opens looks the same on every transport. -/
theorem newestRead_of_read {W : Type} {look : Value → W} {env : Env}
    (hl : ∀ kind kind' bytes p p', openItem env kind bytes = .ok p →
      openItem env kind' bytes = .ok p' → look p.2 = look p'.2) {get : List (Response Env) → Res ε (Option Value)}
    (hg : ∀ responses, get responses =
      (read openItem allTransportsFailed responses).map (Option.map Item.value)) (he : ∀ r ∈ responses, r.env = env) :
    NewestRead openItem look allTransportsFailed get responses := by
 refine ⟨?_,?_,?_⟩
 · by_cases h : AllFailed responses
   · rw [hg,read_of_allFailed hopen _ h]
     exact iff_of_true ⟨_,rfl⟩ h
   · rw [hg,read_of_answered hopen _ h]
     exact iff_of_false (fun ⟨_,hf⟩=>nomatch hf) h
 · intro h
   refine ⟨_,by rw [hg,read_of_answered hopen _ h]; rfl,?_,?_⟩
   · rw [map_eq_none_iff,argmax_eq_none,filterMap_eq_nil_iff]
   · intro v hv
     obtain ⟨x,hx,rfl⟩:=map_eq_some_iff.mp hv
     exact ⟨x,rfl,read_some openItem ((read_of_answered hopen allTransportsFailed h).trans (by rw [hx]))⟩
 · intro order hp value hva
   have hn : ¬ AllFailed responses := by
    intro h
    rw [hg,read_of_allFailed hopen _ h] at hva
    cases hva
   have hn' : ¬ AllFailed order := by
    simpa only [AllFailed,hp.mem_iff] using hn
   rw [hg,read_of_answered hopen _ hn] at hva
   obtain rfl:=ok.inj hva
   refine ⟨_,by rw [hg,read_of_answered hopen _ hn']; rfl,?_⟩
   have hk:=map_argmax_of_perm Item.key (hp.filterMap (opened openItem))
   -- equal keys are equal bytes, and those decide what is seen of a value
   have hs : ∀ x y, (∃ r ∈ responses, opened openItem r = some x) →
     (∃ r ∈ responses, opened openItem r = some y) → x.key = y.key → look x.value = look y.value := by
    rintro x y ⟨r,hr,hx⟩ ⟨r',hr',hy⟩ hke
    obtain ⟨_,_,_,hx⟩:=opened_eq_some openItem hx
    obtain ⟨_,_,_,hy⟩:=opened_eq_some openItem hy
    rw [he r hr] at hx
    rw [he r' hr',← (Prod.mk.inj (toLex.injective hke)).2] at hy
    exact hl _ _ _ _ _ hx hy
   cases hx : (responses.filterMap (opened openItem)).argmax Item.key with
   | none =>
    rw [hx] at hk
    rw [map_eq_none_iff.mp hk.symm]
   | some x =>
    cases hy : (order.filterMap (opened openItem)).argmax Item.key with
    | none =>
     rw [hx,hy] at hk
     cases hk
    | some y =>
     rw [hx,hy] at hk
     have hy' := (hp.filterMap (opened openItem)).mem_iff.mpr (argmax_mem hy)
     exact congrArg some (hs y x (mem_filterMap.mp hy')
      (mem_filterMap.mp (argmax_mem hx)) (some.inj hk).symm)

end Order

end Enlace.SlotRead
