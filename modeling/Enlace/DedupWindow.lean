import Enlace.Receive
import Enlace.Lib.Fifo

set_option autoImplicit false

/-! What a `Dedup` remembers of the payloads it has observed, and what that makes of the messages
that the calls of a receiver return. -/
namespace Enlace
open ByteString Crypto Transition List Option Prod Receive Recency

namespace Dedup

variable (P : Primitives)

def observeAll (d : Dedup) (payloads : List Bytes) : Dedup :=
  payloads.foldl (fun d payload => (d.observe P payload).2) d

def len (d : Dedup) : ℕ := d.recent.length

variable {P}

lemma observeAll_concat (d : Dedup) (payloads : List Bytes) (payload : Bytes) :
    d.observeAll P (payloads ++ [payload]) = ((d.observeAll P payloads).observe P payload).2 :=
 foldl_concat _ _ _ _

lemma capacity_observeAll (d : Dedup) (payloads : List Bytes) : (d.observeAll P payloads).capacity = d.capacity :=
 foldlRecOn payloads _ (motive := fun u : Dedup=>u.capacity = d.capacity) rfl fun _ h _ _=>h

lemma recent_observeAll (c : ℕ) (payloads : List Bytes) :
    ((new c).observeAll P payloads).recent = kept c (payloads.reverse.map P.sha256) := by
 induction payloads using reverseRecOn with
 | nil => rfl
 | append_singleton payloads payload ih =>
  rw [observeAll_concat,reverse_concat,map_cons,kept,← ih]
  change (_ :: _).take _ = _
  rw [capacity_observeAll]
  rfl

def CollisionFree (P : Primitives) (payloads : List Bytes) : Prop :=
  ∀ x ∈ payloads, ∀ y ∈ payloads, P.sha256 x = P.sha256 y → x = y

instance decidableCollisionFree (P : Primitives) (payloads : List Bytes) : Decidable (CollisionFree P payloads) :=
  inferInstanceAs (Decidable (∀ x ∈ payloads, ∀ y ∈ payloads, P.sha256 x = P.sha256 y → x = y))

def Seen (c : ℕ) (payloads : List Bytes) (x : Bytes) : Prop :=
  ∃ before since, payloads = before ++ x :: since ∧ x ∉ since ∧ since.toFinset.card < c

lemma observe_iff {c : ℕ} {payloads : List Bytes} {x : Bytes} (h : CollisionFree P (x :: payloads)) :
    (((new c).observeAll P payloads).observe P x).1 = true ↔ Seen c payloads x := by
 have hb : ∀ y ∈ payloads.reverse, ∀ z ∈ payloads.reverse, P.sha256 y = P.sha256 z → y = z :=
  fun y hy z hz=>h y (mem_cons_of_mem _ (mem_reverse.mp hy)) z
   (mem_cons_of_mem _ (mem_reverse.mp hz))
 have hd : P.sha256 x ∈ (kept c payloads.reverse).map P.sha256 ↔ x ∈ kept c payloads.reverse := by
  refine ⟨fun hx=>?_,mem_map_of_mem⟩
  obtain ⟨y,hy,he⟩:=mem_map.mp hx
  have hme:=mem_reverse.mp (mem_of_mem_kept hy)
  obtain rfl:=h y (mem_cons_of_mem _ hme) x mem_cons_self he
  exact hy
 rw [observe,decide_eq_true_eq,recent_observeAll,kept_map c hb,hd,mem_kept_iff]
 constructor
 · rintro ⟨since,older,hs,hx,hlt⟩
   refine ⟨older.reverse,since.reverse,?_,fun hm=>hx (mem_reverse.mp hm),?_⟩
   · rw [← reverse_reverse payloads,hs]
     simp
   · rwa [toFinset_reverse]
 · rintro ⟨before,since,rfl,hx,hlt⟩
   refine ⟨since.reverse,before.reverse,by simp,fun hm=>hx (mem_reverse.mp hm),?_⟩
   rwa [toFinset_reverse]

lemma len_le (c : ℕ) (payloads : List Bytes) : ((new c).observeAll P payloads).len ≤ c :=
 ((new c).observeAll P payloads).bounded.trans (capacity_observeAll (new c) payloads).le

end Dedup

namespace Receive
open Relay Dedup

variable {ρ κ Env Msg : Type}

def Verdict.surfaces : Verdict Msg → Bool
  | .message _ => true
  | _ => false

variable [DecidableEq ρ] [DecidableEq κ]

section Log

variable (P : Primitives) (cfg : RelayConfig) (w : Receiver ρ κ Env Msg)

/-- The payload that a step shows to the `Dedup`, and whether a call returns with it. -/
def observed (s : Sys ρ κ Env Msg) : Act ρ κ Env → Option (Bytes × Bool)
  | .handle i j => ((s.calls i).tasks[j]?).bind fun t => t.answer.map fun b =>
      (b.bytes, (verdict P w s t.target b.bytes).surfaces)
  | _ => none

def observations : Sys ρ κ Env Msg → List (Act ρ κ Env) → List (Bytes × Bool)
  | _, [] => []
  | s, a :: as => match step P cfg w s a with
    | none => []
    | some u => (observed P w s a).toList ++ observations u as

end Log

variable {P : Primitives} {cfg : RelayConfig} {w : Receiver ρ κ Env Msg} {s u : Sys ρ κ Env Msg}

structure Silent (s u : Sys ρ κ Env Msg) : Prop where
  dedup : u.dedup = s.dedup
  returned : u.returned = s.returned

omit [DecidableEq κ] in
lemma silent_popFor {g : κ} {p : Sys ρ κ Env Msg × Option Bytes} (h : popFor w s g = some p) : Silent s p.1 := by
 obtain ⟨relays,hr⟩:=popFor_eq_some h
 rw [hr]
 exact ⟨rfl,rfl⟩

variable {a : Act ρ κ Env}

omit [DecidableEq κ] in
lemma silent_onTask {i j : ℕ} (ha : ∀ i j, a ≠ .handle i j) (h : onTask P w s a i j = some u) : Silent s u := by
 obtain ⟨wait,rec,t,_,hs⟩:=onTask_eq_some h
 unfold taskStep at hs
 split at hs
 · split at hs
   · obtain ⟨p,hp,hu⟩:=map_eq_some_iff.mp hs
     have hsilent:=silent_popFor hp
     rw [← hu]
     split
     · exact hsilent
     · exact ⟨hsilent.dedup,hsilent.returned⟩
   · cases hs
 · split at hs
   · rw [← some.inj hs]
     exact ⟨rfl,rfl⟩
   · cases hs
 · split at hs
   · rw [← some.inj hs]
     exact ⟨rfl,rfl⟩
   · cases hs
 · split at hs
   · cases hs
   · rw [← some.inj hs]
     exact ⟨rfl,rfl⟩
 · split at hs
   · rw [← some.inj hs]
     exact ⟨rfl,rfl⟩
   · cases hs
 · exact absurd rfl (ha _ _)
 · cases hs

lemma silent_step (ha : ∀ i j, a ≠ .handle i j) (h : step P cfg w s a = some u) : Silent s u := by
 cases a with
 | push r id body | elsewhere r id | tick time | change env => rw [← some.inj h]; exact ⟨rfl,rfl⟩
 | pop i j | expire i j | deliver i j | lose i j | foreign i j result => exact silent_onTask ha h
 | handle i j => exact absurd rfl (ha i j)
 | popOrphan g =>
  simp only [step] at h
  split at h
  · obtain ⟨p,hp,hu⟩:=map_eq_some_iff.mp h
    have hsilent:=silent_popFor hp
    rw [← hu]
    split
    · exact hsilent
    · exact ⟨hsilent.dedup,hsilent.returned⟩
  · cases h
 | issue i =>
  simp only [step] at h
  split at h
  · split at h
    · rw [← some.inj h]; exact ⟨rfl,rfl⟩
    · rw [← some.inj h]; exact ⟨rfl,rfl⟩
  · cases h
 | call i wait | finish i | wake i =>
  simp only [step] at h
  split at h
  · rw [← some.inj h]; exact ⟨rfl,rfl⟩
  · cases h
 | cancel i =>
  simp only [step] at h
  split at h
  · cases h
  · rw [← some.inj h]; exact ⟨rfl,rfl⟩

structure Shown (P : Primitives) (s u : Sys ρ κ Env Msg) (o : Option (Bytes × Bool)) : Prop where
  dedup : u.dedup = s.dedup.observeAll P (o.toList.map Prod.fst)
  returned : u.returned.map (fun r => r.1.bytes) =
    s.returned.map (fun r => r.1.bytes) ++ (o.toList.filter Prod.snd).map Prod.fst

omit [DecidableEq ρ] [DecidableEq κ] in
lemma Silent.shown (h : Silent s u) : Shown P s u none where
 dedup := h.dedup
 returned := by
  rw [h.returned]
  exact (append_nil _).symm

omit [DecidableEq ρ] [DecidableEq κ] in
lemma shown_conclude {v : Sys ρ κ Env Msg} {i : ℕ} {rest : List (Task κ)} {b : Parcel}
    (hd : v.dedup = (s.dedup.observe P b.bytes).2) (hr : v.returned = s.returned) (verdict : Verdict Msg) :
    Shown P s (conclude v i rest b verdict) (some (b.bytes, verdict.surfaces)) := by
 cases verdict with
 | duplicate | unopenable => exact ⟨hd,by rw [conclude,hr]; exact (append_nil _).symm⟩
 | aborts =>
  refine ⟨hd,?_⟩
  change v.returned.map _ = _
  rw [hr]
  exact (append_nil _).symm
 | message msg =>
  refine ⟨hd,?_⟩
  change (v.returned ++ [(b,msg)]).map _ = _
  rw [hr,map_append]
  rfl

lemma shown_step (h : step P cfg w s a = some u) : Shown P s u (observed P w s a) := by
 by_cases ha : ∀ i j, a ≠ .handle i j
 · have hn : observed P w s a = none := by
    cases a with
    | handle i j => exact absurd rfl (ha i j)
    | _ => rfl
   rw [hn]
   exact (silent_step ha h).shown
 · obtain ⟨i,ha⟩:=not_forall.mp ha
   obtain ⟨j,ha⟩:=not_forall.mp ha
   obtain rfl:=not_not.mp ha
   obtain ⟨wait,rec,t,ht,hs⟩:=onTask_eq_some h
   rw [observed,ht,bind_some]
   cases hg : t.get with
   | waiting | travelling b => simp only [taskStep,hg] at hs; cases hs
   | arrived result =>
    simp only [taskStep,hg] at hs
    rw [← some.inj hs]
    obtain _|_|b:=result
    · rw [Task.answer,hg]
      exact Silent.shown ⟨rfl,rfl⟩
    · rw [Task.answer,hg]
      exact Silent.shown ⟨rfl,rfl⟩
    · rw [Task.answer,hg]
      refine shown_conclude ?_ ?_ _
      · rfl
      · rfl

omit [DecidableEq ρ] [DecidableEq κ] in
lemma observe_of_surfaces {g : κ} {bytes : Bytes} (h : (verdict P w s g bytes).surfaces = true) :
    (s.dedup.observe P bytes).1 = false := by
 unfold verdict at h
 split at h
 · cases h
 · rename_i hn
   exact Bool.not_eq_true _ ▸ hn

omit [DecidableEq ρ] [DecidableEq κ] in
lemma observe_of_observed {x : Bytes} (h : observed P w s a = some (x, true)) : (s.dedup.observe P x).1 = false := by
 cases a with
 | handle i j =>
  obtain ⟨t,_,ht⟩:=bind_eq_some_iff.mp h
  obtain ⟨b,_,heq⟩:=map_eq_some_iff.mp ht
  obtain ⟨rfl,hs⟩:=mk.inj heq
  exact observe_of_surfaces hs
 | _ => cases h

variable {as : List (Act ρ κ Env)}

lemma returned_of_runs (h : Runs (step P cfg w) s as u) :
    u.returned.map (fun r => r.1.bytes) = s.returned.map (fun r => r.1.bytes) ++
      ((observations P cfg w s as).filter snd).map fst := by
 induction h with
 | refl s => exact (append_nil _).symm
 | @next s v u a as hs _ ih =>
  rw [ih,(shown_step hs).returned,observations,hs]
  simp only [filter_append,map_append,append_assoc]

lemma unseen_of_surfaced {c : ℕ} {history : List Bytes}
    (h : Runs (step P cfg w) s as u) (hs : s.dedup = (new c).observeAll P history)
    (hf : CollisionFree P (history ++ (observations P cfg w s as).map fst))
    {before after : List (Bytes × Bool)} {x : Bytes}
    (hsp : observations P cfg w s as = before ++ (x, true) :: after) : ¬ Seen c (history ++ before.map fst) x := by
 induction h generalizing history before with
 | refl s => exact absurd hsp (by simp [observations])
 | @next s v u a as hst _ ih =>
  have hsh:=shown_step hst
  rw [observations,hst] at hsp hf
  cases ho : observed P w s a with
  | none =>
   rw [ho] at hsp hf hsh
   exact ih (hsh.dedup.trans hs) hf hsp
  | some p =>
   rw [ho] at hsp hf hsh
   cases before with
   | nil =>
    obtain ⟨rfl,_⟩:=cons.inj hsp
    have hob:=observe_of_observed ho
    rw [map_nil,append_nil,← observe_iff,← hs,hob]
    · exact Bool.false_ne_true
    · intro y hy z hz
      have hin : ∀ y ∈ x :: history, y ∈ history ++ (x :: (observations P cfg w v as).map fst) := by
       intro y hy
       rcases mem_cons.mp hy with rfl|hy
       · exact mem_append_right _ mem_cons_self
       · exact mem_append_left _ hy
      exact hf y (hin y hy) z (hin z hz)
   | cons q before =>
    obtain ⟨rfl,hrest⟩:=cons.inj hsp
    have hv : v.dedup = (new c).observeAll P (history ++ [p.1]) := by
     rw [hsh.dedup,hs,observeAll_concat]
     rfl
    have hu:=ih hv (by simpa using hf) hrest
    simpa using hu

lemma surfaced_once {now : ℕ} {relays : ρ → Tables} {env : Env} (h : Runs (step P cfg w) (init w now relays env) as u)
    (hfr : CollisionFree P ((observations P cfg w (init w now relays env) as).map fst))
    {before window after : List (Bytes × Bool)}
    (hsp : observations P cfg w (init w now relays env) as = before ++ window ++ after)
    (hc : (window.map fst).toFinset.card ≤ w.dedupCapacity) (x : Bytes) : window.count (x, true) ≤ 1 := by
 by_contra htwice
 have hme : (x,true) ∈ window := count_pos_iff.mp (by omega)
 obtain ⟨first,rest,rfl,hfi⟩:=eq_append_cons_of_mem hme
 rw [count_append,count_eq_zero.mpr hfi,count_cons_self] at htwice
 have hm' : (x,true) ∈ rest := count_pos_iff.mp (by omega)
 obtain ⟨second,tail,rfl⟩:=append_of_mem hm'
 -- the latest observation of `x` before the second return lies in the stretch
 have hl : x ∈ (x :: second.map fst).reverse := mem_reverse.mpr mem_cons_self
 obtain ⟨since,older,hs,hx⟩:=eq_append_cons_of_mem hl
 have hf : x :: second.map fst = older.reverse ++ x :: since.reverse := by
  rw [← reverse_reverse (x :: second.map fst),hs]
  simp
 have hse : Seen w.dedupCapacity
   ([] ++ (before ++ first ++ (x,true) :: second).map fst) x := by
  refine ⟨before.map fst ++ first.map fst ++ older.reverse,since.reverse,?_, fun hm=>hx (mem_reverse.mp hm),?_⟩
  · rw [nil_append,map_append,map_append,map_cons,hf]
    simp only [append_assoc]
  · have hsu : insert x since.toFinset ⊆
      ((first ++ (x,true) :: (second ++ (x,true) :: tail)).map fst).toFinset := by
     intro y hy
     have hy' : y ∈ x :: second.map fst := by
      rcases Finset.mem_insert.mp hy with rfl|hy
      · exact mem_cons_self
      · rw [hf]
        exact mem_append_right _
         (mem_cons_of_mem _ (mem_reverse.mpr (List.mem_toFinset.mp hy)))
     rw [List.mem_toFinset,map_append,map_cons,map_append]
     exact mem_append_right _ (mem_append_left _ hy')
    have hle:=Finset.card_le_card hsu
    rw [Finset.card_insert_of_notMem fun hm=>hx (List.mem_toFinset.mp hm)] at hle
    rw [toFinset_reverse]
    omega
 have hp : observations P cfg w (init w now relays env) as =
   before ++ first ++ (x,true) :: second ++ (x,true) :: (tail ++ after) := by
  rw [hsp]
  simp only [append_assoc,cons_append]
 exact unseen_of_surfaced h rfl hfr hp hse

end Receive

/-- A payload is seen exactly when it was observed and fewer others than the capacity have been since. The buffer never
holds more than its capacity. Of a stretch of payloads with no more than the capacity, the calls of `mailbox_recv`
return each once at most. -/
theorem dedup_window (P : Primitives) :
    (∀ (c : ℕ) (payloads : List Bytes) (x : Bytes), Dedup.CollisionFree P (x :: payloads) →
      ((((Dedup.new c).observeAll P payloads).observe P x).1 = true ↔ Dedup.Seen c payloads x)) ∧
    (∀ (c : ℕ) (payloads : List Bytes), ((Dedup.new c).observeAll P payloads).len ≤ c) ∧
    ∀ (cfg : Relay.RelayConfig) (rmp : WireFormat.Codec Coordinator.SignedInner) (coordinator : Coordinator P)
      (name : Bytes) (ρ : Type) (_ : DecidableEq ρ) (relayOf : Fin coordinator.transports.length → ρ)
      (now : ℕ) (relays : ρ → Relay.Tables),
      let w := coordinator.mailboxRecv rmp name relayOf
      let s₀ := init w now relays ()
      ∀ as s, Runs (step P cfg w) s₀ as s → Dedup.CollisionFree P ((observations P cfg w s₀ as).map fst) →
        s.returned.map (fun r => r.1.bytes) = ((observations P cfg w s₀ as).filter snd).map fst ∧
        ∀ before window after, observations P cfg w s₀ as = before ++ window ++ after →
          (window.map fst).toFinset.card ≤ coordinator.dedupBuffer →
          ∀ x, window.count (x,true) ≤ 1 := by
 refine ⟨fun c payloads x h=>Dedup.observe_iff h,Dedup.len_le,?_⟩
 intro cfg rmp coordinator name ρ _ relayOf now relays w s₀ as s h hf
 exact ⟨returned_of_runs h,fun before window after hs hc x=>
  surfaced_once h hf hs hc x⟩

section Plain
open Coordinator Receive Relay

def plainDht : Coordinator plainPrimitives := ⟨zero32, [.dht], none, [], 2, defaultMaxPlaintextBytes⟩

def plainSealed (payload : String) : Bytes :=
  (Fallible.toOption (plainDht.sealPayload signedInnerFormat.codec zeroNonce .mailbox (ascii "m")
    (ascii payload) none)).getD []

def plainRecv : Receiver Unit (Fin 1) Unit (RecvMessage plainPrimitives) :=
  plainDht.mailboxRecv signedInnerFormat.codec (ascii "m") fun _ => ()

def recvOne (payload : String) : List (Act Unit (Fin 1) Unit) :=
  [.call 0 0, .issue 0, .foreign 0 0 (some (some (plainSealed payload))), .handle 0 0]

def plainRepeats : List (Act Unit (Fin 1) Unit) := recvOne "a" ++ recvOne "a"

def plainTables : Unit → Tables := fun _ => ⟨.empty, .empty⟩

theorem dedup_window_plain :
    (Dedup.CollisionFree plainPrimitives [ascii "b", ascii "a", ascii "b", ascii "a", ascii "c"] ∧
      ((((Dedup.new 2).observeAll plainPrimitives [ascii "a", ascii "b", ascii "a", ascii "c"]).observe
        plainPrimitives (ascii "b")).1 = true ↔
          Dedup.Seen 2 [ascii "a", ascii "b", ascii "a", ascii "c"] (ascii "b"))) ∧
    ∃ s, Runs (step plainPrimitives plainConfig plainRecv) (init plainRecv 0 plainTables ()) plainRepeats s ∧
      observations plainPrimitives plainConfig plainRecv (init plainRecv 0 plainTables ()) plainRepeats =
        [(plainSealed "a", true), (plainSealed "a", false)] ∧
      s.returned.map (fun r => r.1.bytes) = [plainSealed "a"] ∧
      ∀ x, [(plainSealed "a", true), (plainSealed "a", false)].count (x, true) ≤ 1 := by
 have h:=dedup_window plainPrimitives
 have hf : Dedup.CollisionFree plainPrimitives [ascii "b",ascii "a",ascii "b",ascii "a",ascii "c"] := by
  decide +kernel
 obtain ⟨s,hru,hr⟩ : ∃ s, Runs (step plainPrimitives plainConfig plainRecv)
   (init plainRecv 0 plainTables ()) plainRepeats s ∧ s.returned.map (fun r=>r.1.bytes) = [plainSealed "a"] := by
  decide +kernel
 have ho : observations plainPrimitives plainConfig plainRecv (init plainRecv 0 plainTables ())
   plainRepeats = [(plainSealed "a",true),(plainSealed "a",false)] := by decide +kernel
 refine ⟨⟨hf,h.1 2 _ _ hf⟩,s,hru,ho,hr,?_⟩
 have hf' : Dedup.CollisionFree plainPrimitives ((observations plainPrimitives plainConfig plainRecv
   (init plainRecv 0 plainTables ()) plainRepeats).map fst) := by
  decide +kernel
 have hw:=(h.2.2 plainConfig signedInnerFormat.codec plainDht (ascii "m") Unit inferInstance
  (fun _=>()) 0 plainTables plainRepeats s hru hf').2
 exact hw [] _ [] (ho.trans (append_nil _).symm) (by decide +kernel)

end Plain

end Enlace
