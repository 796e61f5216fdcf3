import Enlace.Lib.Transition
import Enlace.Pkarr.PacketBytes

set_option autoImplicit false

/-! `Client.publish` of `client.ts` for one key, up to where a call waits for its relay requests. A set of relay
requests is a number, and what the cache holds is an argument. -/
namespace Enlace.Pkarr
open ByteString List Fallible Transition SignedPacket

variable {ed : Ed25519}

inductive ConcurrencyError where
  | notMostRecent
  | conflictRisk
  | casFailed

def conflictIf (c : Prop) [Decidable c] (code : ConcurrencyError) : Except ConcurrencyError Unit :=
  if c then .error code else .ok ()

lemma conflictIf_eq_ok {c : Prop} [Decidable c] {code : ConcurrencyError} {u : Unit} :
    conflictIf c code = .ok u ↔ ¬ c := by
 by_cases h : c <;> simp [conflictIf,h]

/-- A request gets its promise in the call that pushes it. -/
structure InflightPublishRequest (ed : Ed25519) where
  signedPacket : SignedPacket ed
  cas : Option ℤ
  promise : ℕ

structure Client (ed : Ed25519) where
  inflight : List (InflightPublishRequest ed)
  started : ℕ

namespace Client

def startPublish (signedPacket : SignedPacket ed) (cas : Option ℤ) (c : Client ed) :
    Except ConcurrencyError (InflightPublishRequest ed × Client ed) :=
  match c.inflight.find? fun request => compareBytes signedPacket.signature request.signedPacket.signature = 0 with
  | some request => .ok (request, c)
  | none => do
    let latest := c.inflight.getLast?
    conflictIf (latest.any fun latest => !signedPacket.moreRecentThan latest.signedPacket) .notMostRecent
    conflictIf (latest.isSome ∧ cas = none) .conflictRisk
    conflictIf (latest.any fun latest => cas ≠ some latest.signedPacket.timestamp) .casFailed
    return (⟨signedPacket, cas, c.started⟩, ⟨c.inflight ++ [⟨signedPacket, cas, c.started⟩], c.started + 1⟩)

def publish (cached : Option (SignedPacket ed)) (signedPacket : SignedPacket ed) (cas : Option ℤ) (c : Client ed) :
    Except ConcurrencyError (InflightPublishRequest ed × Client ed) := do
  conflictIf (cached.any (·.moreRecentThan signedPacket)) .notMostRecent
  conflictIf (cas ≠ none ∧ cached.any fun cached => cas ≠ some cached.timestamp) .casFailed
  c.startPublish signedPacket cas

def clearInflight (promise : ℕ) (c : Client ed) : Client ed :=
  { c with inflight := c.inflight.eraseP fun request => request.promise = promise }

inductive Event (ed : Ed25519) where
  | publish (cached : Option (SignedPacket ed)) (signedPacket : SignedPacket ed) (cas : Option ℤ)
  | done (promise : ℕ)

def step (c : Client ed) : Event ed → Option (Client ed)
  | .publish cached signedPacket cas => some ((c.publish cached signedPacket cas).toOption.elim c Prod.snd)
  | .done promise => some (c.clearInflight promise)

end Client

lemma compareBytes_trans {a b c : Bytes} (hab : 0 < compareBytes a b) (hbc : 0 < compareBytes b c) :
    0 < compareBytes a c := by
 induction a generalizing b c with
 | nil => cases b <;> simp [compareBytes] at hab; omega
 | cons x a ih =>
  cases b with
  | nil => cases c <;> simp [compareBytes] at hbc; omega
  | cons y b =>
   cases c with
   | nil => simp [compareBytes]
   | cons z c =>
    rw [compareBytes] at hab hbc ⊢
    split_ifs at hab hbc ⊢ <;> first | omega | exact ih hab hbc

lemma SignedPacket.moreRecentThan_trans {p q r : SignedPacket ed} (hpq : p.moreRecentThan q)
    (hqr : q.moreRecentThan r) : p.moreRecentThan r := by
 simp only [moreRecentThan] at hpq hqr ⊢
 split_ifs at hpq hqr ⊢ <;> simp only [decide_eq_true_eq] at hpq hqr ⊢ <;>
  first | omega | exact compareBytes_trans hpq hqr

namespace Client

/-- The request is more recent than the latest, which it names. -/
def Continues (c : Client ed) (request : InflightPublishRequest ed) : Prop :=
  (∀ other ∈ c.inflight, request.signedPacket.signature ≠ other.signedPacket.signature) ∧
  ∀ latest ∈ c.inflight.getLast?, request.signedPacket.moreRecentThan latest.signedPacket ∧
    request.cas = some latest.signedPacket.timestamp

def Chained (c : Client ed) : Prop :=
  c.inflight.Pairwise fun older newer => newer.signedPacket.moreRecentThan older.signedPacket ∧
    newer.signedPacket.signature ≠ older.signedPacket.signature

variable {c next : Client ed} {request : InflightPublishRequest ed} {cached : Option (SignedPacket ed)}
  {packet : SignedPacket ed} {cas : Option ℤ}

/-- A call joins the request with its signature, or starts one that continues the chain. -/
lemma publish_cases (h : c.publish cached packet cas = .ok (request, next)) :
    (request ∈ c.inflight ∧ packet.signature = request.signedPacket.signature ∧ next = c) ∨
    request.signedPacket = packet ∧ next.inflight = c.inflight ++ [request] ∧ c.Continues request := by
 simp only [publish,startPublish,bind_eq_ok,conflictIf_eq_ok] at h
 obtain ⟨_,_,_,_,hs⟩:=h
 split at hs
 · rename_i hf
   cases hs
   have hsa:=find?_some hf
   exact .inl ⟨mem_of_find?_eq_some hf,compareBytes_eq_zero.mp (of_decide_eq_true hsa),rfl⟩
 · rename_i hn
   simp only [bind_eq_ok,conflictIf_eq_ok] at hs
   obtain ⟨_,hr,_,_,_,hc,hp⟩:=hs
   cases hp
   refine .inr ⟨rfl,rfl,fun other ho heq=>?_,fun latest hl=>?_⟩
   · exact find?_eq_none.mp hn other ho (decide_eq_true (compareBytes_eq_zero.mpr heq))
   · rw [Option.mem_def.mp hl] at hr hc
     simpa using And.intro hr hc

lemma step_cases {event : Event ed} (h : c.step event = some next) :
    next.inflight <+ c.inflight ∨ ∃ request, next.inflight = c.inflight ++ [request] ∧ c.Continues request := by
 cases event with
 | done promise =>
  cases h
  exact .inl eraseP_sublist
 | publish cached packet cas =>
  rw [step] at h
  cases hp : c.publish cached packet cas with
  | error code =>
   rw [hp] at h
   cases h
   exact .inl (.refl _)
  | ok result =>
   rw [hp] at h
   cases h
   rcases publish_cases hp with ⟨_,_,hs⟩|⟨_,hn,hc⟩
   · exact .inl (hs ▸ .refl _)
   · exact .inr ⟨_,hn,hc⟩

lemma Chained.step (h : c.Chained) {event : Event ed} (hs : c.step event = some next) : next.Chained := by
 rcases step_cases hs with hsu|⟨request,hn,hne,hl⟩
 · exact h.sublist hsu
 · rw [Chained,hn]
   refine pairwise_append.mpr ⟨h,pairwise_singleton _ _,fun other ho=>forall_mem_singleton.mpr ⟨?_,hne other ho⟩⟩
   obtain ⟨older,latest,hli⟩:=(eq_nil_or_concat' _).resolve_left (ne_nil_of_mem ho)
   rw [Chained,hli,pairwise_append] at h
   rw [hli] at hl ho
   have hla:=(hl latest getLast?_concat).1
   rcases mem_append.mp ho with hm|hm
   · exact moreRecentThan_trans hla (h.2.2 other hm latest (mem_singleton_self _)).1
   · rwa [mem_singleton.mp hm]

/-- In every state that is reached, a step adds at most the request that its call starts. The newest packet in flight is
the last one. -/
theorem publishes_form_chain {events : List (Event ed)} (h : Runs step ⟨[], 0⟩ events c) :
    (c.inflight.Pairwise fun older newer => newer.signedPacket.moreRecentThan older.signedPacket) ∧
    (∀ event next, c.step event = some next → ∀ request ∈ next.inflight, request ∈ c.inflight ∨
      ∀ newest ∈ c.inflight.getLast?, request.cas = some newest.signedPacket.timestamp) ∧
    ∀ cached packet cas request next, c.publish cached packet cas = .ok (request, next) →
      ∀ other ∈ c.inflight, packet.signature = other.signedPacket.signature → request = other ∧ next = c := by
 have hc : c.Chained := h.invariant Chained .nil fun _ _ _ hs hst=>hs.step hst
 refine ⟨hc.imp And.left,fun event next hst request hm=>?_,
  fun cached packet cas request next hp other ho hsa=>?_⟩
 · rcases step_cases hst with hsu|⟨_,hn,_,hl⟩
   · exact .inl (hsu.subset hm)
   · rw [hn] at hm
     refine (mem_append.mp hm).imp_right fun hla newest hne=>?_
     exact mem_singleton.mp hla ▸ (hl newest hne).2
 · rcases publish_cases hp with ⟨hm,hf,hn⟩|⟨hpa,_,hnew,_⟩
   · have hd : (c.inflight.map (·.signedPacket.signature)).Nodup := pairwise_map.mpr (hc.imp fun hpr=>hpr.2.symm)
     exact ⟨inj_on_of_nodup_map hd hm ho (hf.symm.trans hsa),hn⟩
   · exact absurd (hpa ▸ hsa) (hnew other ho)

def emptyPacket (timestamp : ℕ) : SignedPacket plainScheme :=
  ⟨SignedPacketBuilder.plainKeypair.publicKey, beBytes 64 timestamp, timestamp, replicate 12 0, [], 0, rfl, by decide,
    by decide +kernel⟩

theorem two_publishes_form_chain :
    ∃ c, Runs step ⟨[], 0⟩ [.publish none (emptyPacket 1) none, .publish none (emptyPacket 2) (some 1)] c ∧
      c.inflight.length = 2 ∧
      c.inflight.Pairwise fun older newer => newer.signedPacket.moreRecentThan older.signedPacket :=
 exists_and₂ (by decide +kernel) fun _ h _=>(publishes_form_chain h).1

end Client

end Enlace.Pkarr
