import Enlace.Peer.Trust

set_option autoImplicit false

/-! The iroh allowlist of a namespace against the endpoints that its trusted peers claim. -/
namespace Enlace.Peer
open Fallible Crypto Table State Transition Iroh List
open Option (some)

variable {P : Primitives} {valid : Bytes32 → Bool} {σ : Type}

def NamespaceView.Claims (view : NamespaceView P) (e : EndpointId valid) : Prop :=
  ∃ id peer, view.trustedPeers.get id = some peer ∧ peer.endpointId = some e.bytes

def NamespaceView.ClaimsBesides (view : NamespaceView P) (id : PeerId) (e : EndpointId valid) : Prop :=
  ∃ id' peer, id' ≠ id ∧ view.trustedPeers.get id' = some peer ∧ peer.endpointId = some e.bytes

def Call.Accepted (store : StateStore P σ) (state : σ) (io : Io) : Call P → Prop
  | .trustPeer peer => peer.card.validate = .ok () ∧ (store.storeTrustedPeer io state peer).2 = .ok ()
  | .removeTrustedPeer id => (store.removeTrustedPeer io state id).2 = .ok ()
  | .addGroupKey group key => (store.storeGroupKey io state group key).2 = .ok ()
  | .removeGroupKey group keyId => (store.removeGroupKey io state group keyId).2 = .ok ()

def Call.subject : Call P → Option (PeerId × Option (IrohEndpointAddr P))
  | .trustPeer peer => some (peer.peerId, peer.card.irohEndpoint)
  | .removeTrustedPeer id => some (id, none)
  | _ => none

variable {config : PeerConfig P} {generated : Bytes32} {io : ℕ → Io}

namespace PeerNamespace

def AllowsTrusted (ns : PeerNamespace P valid σ) : Prop :=
  ∃ t allowed, ns.iroh = some t ∧ t.allowedEndpoints = some allowed ∧ ∀ e, e ∈ allowed ↔ ns.view.Claims e

def Unshared (store : StateStore P σ) (ns : PeerNamespace P valid σ) (c : Call P × Io) : Prop :=
  c.1.Accepted store ns.state c.2 → ∀ id endpoint, c.1.subject = some (id, endpoint) →
    ∀ e : EndpointId valid, dropped (ns.oldEndpointId id) endpoint = some e.bytes → ¬ ns.view.ClaimsBesides id e

def step (store : StateStore P σ) (ns : PeerNamespace P valid σ) (c : Call P × Io) :
    Option (PeerNamespace P valid σ) := some (ns.exec store c).1

variable {store : StateStore P σ} {ns : PeerNamespace P valid σ} {c : Call P × Io}

lemma claims_iff (id : PeerId) (e : EndpointId valid) :
    ns.view.Claims e ↔ ns.view.ClaimsBesides id e ∨ ns.oldEndpointId id = some e.bytes := by
 constructor
 · rintro ⟨id',peer,hg,hen⟩
   by_cases he : id' = id
   · subst he
     rw [oldEndpointId,hg]
     exact Or.inr hen
   · exact Or.inl ⟨id',peer,he,hg,hen⟩
 · rintro (⟨id',peer,_,hg,hen⟩|hold)
   · exact ⟨id',peer,hg,hen⟩
   · obtain ⟨peer,hg,hen⟩:=Option.bind_eq_some_iff.mp hold
     exact ⟨id,peer,hg,hen⟩

lemma exec_eq_ok : (ns.exec store c).2 = .ok () ↔ c.1.Accepted store ns.state c.2 := by
 obtain ⟨call,io⟩:=c
 cases call with
 | trustPeer peer =>
  simp only [exec,mapErr_eq_ok,trustPeer,Call.Accepted]
  rcases peer.card.validate_cases with hv|⟨e,hv⟩
  · rw [hv,afterState_eq_ok]
    exact ⟨fun h=>⟨rfl,h⟩,fun h=>h.2⟩
  · rw [hv]
    constructor
    · intro h
      cases h
    · intro h
      cases h.1
 | removeTrustedPeer id | addGroupKey group key | removeGroupKey group keyId =>
  exact mapErr_eq_ok.trans afterState_eq_ok

lemma exec_error (h : (ns.exec store c).2 ≠ .ok ()) :
    (ns.exec store c).1.view = ns.view ∧ (ns.exec store c).1.iroh = ns.iroh := by
 obtain ⟨call,io⟩:=c
 cases call with
 | trustPeer peer =>
  have hne:=mt mapErr_eq_ok.mpr h
  simp only [exec,trustPeer] at hne ⊢
  rcases peer.card.validate_cases with hv|⟨e,hv⟩
  · rw [hv] at hne ⊢
    simp only [afterState_error hne,and_self]
  · rw [hv]
    exact ⟨rfl,rfl⟩
 | removeTrustedPeer id =>
  simp only [exec,removeTrustedPeer,afterState_error (mt mapErr_eq_ok.mpr h),and_self]
 | addGroupKey group key =>
  simp only [exec,addGroupKey,afterState_error (mt mapErr_eq_ok.mpr h),and_self]
 | removeGroupKey group keyId =>
  simp only [exec,removeGroupKey,afterState_error (mt mapErr_eq_ok.mpr h),and_self]

lemma exec_ok_other (h : (ns.exec store c).2 = .ok ()) (hc : c.1.subject = none) :
    (ns.exec store c).1.view.trustedPeers = ns.view.trustedPeers ∧ (ns.exec store c).1.iroh = ns.iroh := by
 obtain ⟨call,io⟩:=c
 cases call with
 | trustPeer peer | removeTrustedPeer id => cases hc
 | addGroupKey group key =>
  simp only [exec,addGroupKey,afterState_ok (mapErr_eq_ok.mp h),and_self]
 | removeGroupKey group keyId =>
  simp only [exec,removeGroupKey,afterState_ok (mapErr_eq_ok.mp h),and_self]

lemma exec_ok_subject {id : PeerId} {ep : Option (IrohEndpointAddr P)}
    (h : (ns.exec store c).2 = .ok ()) (hc : c.1.subject = some (id, ep)) :
    (ns.exec store c).1.iroh = updateIrohTrustedEndpoint ns.iroh (ns.oldEndpointId id) ep ∧
      (ns.exec store c).1.oldEndpointId id = ep.map IrohEndpointAddr.endpointId ∧
      ∀ id', id' ≠ id → (ns.exec store c).1.view.trustedPeers.get id' = ns.view.trustedPeers.get id' := by
 have hg:=(get_of_exec_ok h).1
 obtain ⟨call,io⟩:=c
 cases call with
 | trustPeer peer =>
  obtain ⟨rfl,rfl⟩:=Prod.mk.inj (some.inj hc)
  refine ⟨(trustPeer_ok (mapErr_eq_ok.mp h)).2.2,?_,?_⟩
  · rw [oldEndpointId,hg,Call.onPeer,if_pos rfl]
    rfl
  · intro id' hne
    rw [hg,Call.onPeer,if_neg hne]
    rfl
 | removeTrustedPeer id' =>
  obtain ⟨rfl,rfl⟩:=Prod.mk.inj (some.inj hc)
  refine ⟨?_,?_,?_⟩
  · simp only [exec,removeTrustedPeer,afterState_ok (mapErr_eq_ok.mp h)]
    rfl
  · rw [oldEndpointId,hg,Call.onPeer,if_pos rfl]
    rfl
  · intro id'' hne
    rw [hg,Call.onPeer,if_neg hne]
    rfl
 | addGroupKey group key | removeGroupKey group keyId => cases hc

/-- One call keeps the allowlist exact if and only if it takes away no shared endpoint. -/
theorem allowsTrusted_exec_iff (hs : ns.AllowsTrusted) : (ns.exec store c).1.AllowsTrusted ↔ Unshared store ns c := by
 obtain ⟨t,allowed,hir,hal,he⟩:=hs
 by_cases hok : (ns.exec store c).2 = .ok ()
 · cases hc : c.1.subject with
   | none =>
    obtain ⟨ht,hsa⟩:=exec_ok_other hok hc
    refine iff_of_true ⟨t,allowed,hsa.trans hir,hal,fun e=>?_⟩ ?_
    · rw [he,NamespaceView.Claims,NamespaceView.Claims,ht]
    · intro _ id ep hsu
      rw [hc] at hsu
      cases hsu
   | some subject =>
    obtain ⟨id,ep⟩:=subject
    obtain ⟨hn,hen,ho⟩:=exec_ok_subject hok hc
    rw [hir] at hn
    obtain ⟨t',allowed',ht',ha',_⟩ := mem_updateIrohTrustedEndpoint hal (ns.oldEndpointId id) ep
    have hb : ∀ e : EndpointId valid, (ns.exec store c).1.view.ClaimsBesides id e ↔ ns.view.ClaimsBesides id e := by
     intro e
     refine exists_congr fun id' => exists_congr fun peer=>and_congr_right fun hne=>?_
     rw [ho id' hne]
    have hif:=updateIrohTrustedEndpoint_exact hal ht' ha'
     (fun e=>(he e).trans (claims_iff id e))
    have hcl : ∀ e : EndpointId valid, (ns.exec store c).1.view.Claims e ↔
      ns.view.ClaimsBesides id e ∨ ep.map IrohEndpointAddr.endpointId = some e.bytes := by
     intro e
     rw [claims_iff id e,hb,hen]
    constructor
    · rintro ⟨_,_,hi,ha,hall⟩ _ id' endpoint' hsu
      rw [hc] at hsu
      obtain ⟨rfl,rfl⟩:=Prod.mk.inj (some.inj hsu)
      obtain rfl:=some.inj (ht'.symm.trans (hn.symm.trans hi))
      obtain rfl:=some.inj (ha'.symm.trans ha)
      exact hif.mp fun e=>(hall e).trans (hcl e)
    · intro hu
      refine ⟨t',allowed',hn.trans ht',ha',fun e=>?_⟩
      rw [hcl]
      exact hif.mpr (hu (exec_eq_ok.mp hok) id ep hc) e
 · obtain ⟨hv,hsa⟩:=exec_error hok
   refine iff_of_true ⟨t,allowed,hsa.trans hir,hal,fun e=>?_⟩
    fun h=>absurd (exec_eq_ok.mpr h) hok
   rw [hv]
   exact he e

def NoneShadowed (config : PeerConfig P) : Prop :=
  ∀ peer ∈ config.trustedPeers, ∀ id, peer.endpointId = some id →
    ∃ id' q, (configured config).trustedPeers.get id' = some q ∧ q.endpointId = some id

lemma mem_trustedIrohEndpoints {trusted : List (TrustedPeer P)} {id : Bytes32} :
    id ∈ (trustedIrohEndpoints trusted).map IrohEndpointAddr.endpointId ↔
      ∃ peer ∈ trusted, peer.endpointId = some id := by
 simp only [trustedIrohEndpoints,mem_map,mem_filterMap,TrustedPeer.endpointId,Option.map_eq_some_iff]
 constructor
 · rintro ⟨ep,⟨peer,hpeer,he⟩,rfl⟩
   exact ⟨peer,hpeer,ep,he,rfl⟩
 · rintro ⟨peer,hpeer,ep,he,rfl⟩
   exact ⟨ep,⟨peer,hpeer,he⟩,rfl⟩

/-- A namespace opened with iroh and a card with an endpoint starts with the endpoints of all configured cards, also of
replaced ones. -/
theorem openWith_allowed {state : σ}
    (h : openWith valid store io state generated config = .ok ns) (hi : config.iroh.isSome = true)
    (hca : ∃ peer ∈ config.trustedPeers, peer.card.irohEndpoint.isSome = true) :
    (∃ t allowed, ns.iroh = some t ∧ t.allowedEndpoints = some allowed ∧
      ∀ e, e ∈ allowed ↔ ∃ peer ∈ config.trustedPeers, peer.endpointId = some e.bytes) ∧
    ∀ peer ∈ config.trustedPeers, ∀ id, peer.endpointId = some id → ∃ e : EndpointId valid, e.bytes = id := by
 have hopen:=(openWith_ok h).2
 obtain ⟨irohConfig,hc⟩:=Option.isSome_iff_exists.mp hi
 have hne : (trustedIrohEndpoints config.trustedPeers).isEmpty = false := by
  obtain ⟨peer,hpeer,hen⟩:=hca
  obtain ⟨ep,hen⟩:=Option.isSome_iff_exists.mp hen
  rw [isEmpty_eq_false_iff_exists_mem]
  exact ⟨ep,mem_filterMap.mpr ⟨peer,hpeer,hen⟩⟩
 simp only [openPeerIrohTransport,hc,newIroh,hne,Bool.false_eq_true,if_false] at hopen
 obtain ⟨t,ht,hs⟩:=map_eq_ok.mp hopen
 simp only [bind_eq_ok,pure_eq_ok] at ht
 obtain ⟨_,_,_,_,allowed,ha,rfl⟩:=ht
 obtain ⟨l,hl,rfl⟩:=map_eq_ok.mp ha
 refine ⟨⟨_,l.toFinset,hs.symm,rfl,fun e=>?_⟩,fun peer hpeer id hen=>?_⟩
 · rw [mem_toFinset,← mem_trustedIrohEndpoints]
   constructor
   · intro he
     obtain ⟨id,hid,hok⟩:=mem_of_mapM_ok hl he
     rw [endpointIdFromBytes_eq_some.mp (okOr_eq_ok.mp hok)]
     exact hid
   · intro he
     obtain ⟨e',he',hok⟩:=ok_of_mapM_ok hl he
     rw [← EndpointId.ext (endpointIdFromBytes_eq_some.mp (okOr_eq_ok.mp hok))]
     exact he'
 · obtain ⟨e,_,hok⟩:=ok_of_mapM_ok hl (mem_trustedIrohEndpoints.mpr ⟨peer,hpeer,hen⟩)
   exact ⟨e,endpointIdFromBytes_eq_some.mp (okOr_eq_ok.mp hok)⟩

/-- The allowlist starts exact if and only if no configured endpoint is lost. -/
theorem opened_allowsTrusted_iff {state : σ} (h : openWith valid store io state generated config = .ok ns)
    (hi : config.iroh.isSome = true) (hc : ∃ peer ∈ config.trustedPeers, peer.card.irohEndpoint.isSome = true) :
    ns.AllowsTrusted ↔ NoneShadowed config := by
 obtain ⟨⟨t,allowed,ht,ha,hm⟩,hva⟩:=openWith_allowed h hi hc
 have hv:=(openWith_ok h).1
 constructor
 · rintro ⟨t',allowed',ht',ha',he⟩ peer hpeer id hen
   obtain rfl:=some.inj (ht.symm.trans ht')
   obtain rfl:=some.inj (ha.symm.trans ha')
   obtain ⟨e,rfl⟩:=hva peer hpeer id hen
   rw [← hv]
   exact (he e).mp ((hm e).mpr ⟨peer,hpeer,hen⟩)
 · intro hs
   refine ⟨t,allowed,ht,ha,fun e=>?_⟩
   rw [hm,hv]
   constructor
   · rintro ⟨peer,hpeer,hen⟩
     exact hs peer hpeer e.bytes hen
   · rintro ⟨id,peer,hg,hen⟩
     obtain ⟨_,hm,rfl⟩:=Keyed.mem_of_get_collect hg
     exact ⟨_,hm,hen⟩

lemma AllowsTrusted.afterHandshake (h : ns.AllowsTrusted) {t : IrohTransport P valid}
    (ht : ns.iroh = some t) (e : EndpointId valid) :
    (t.afterHandshake e).2 ≠ IrohTransport.notTrusted ↔ ns.view.Claims e := by
 obtain ⟨t',allowed,ht',ha,he⟩:=h
 obtain rfl:=some.inj (ht.symm.trans ht')
 rw [ne_eq,t.afterHandshake_notTrusted ha,not_not,he]

/-- The allowlist is the set of trusted endpoints in every state of a run if and only if no configured endpoint is lost
and no accepted call takes away an endpoint that another trusted peer claims too. -/
theorem allowlist_tracks_trust_iff (valid : Bytes32 → Bool) (store : StateStore P σ)
    (config : PeerConfig P) (io : ℕ → Io) (state : σ) (generated : Bytes32)
    (ns₀ ns : PeerNamespace P valid σ) (calls : List (Call P × Io))
    (hopen : openWith valid store io state generated config = .ok ns₀)
    (hiroh : config.iroh.isSome = true)
    (hcard : ∃ peer ∈ config.trustedPeers, peer.card.irohEndpoint.isSome = true)
    (hcalls : Runs (step store) ns₀ calls ns) :
    ((∀ bs cs u, calls = bs ++ cs → Runs (step store) ns₀ bs u → u.AllowsTrusted) ↔
      NoneShadowed config ∧ GuardedRuns (step store) (Unshared store) ns₀ calls ns) ∧
    ∀ (u : PeerNamespace P valid σ) (t : IrohTransport P valid), u.AllowsTrusted → u.iroh = some t →
      ∀ e, (t.afterHandshake e).2 ≠ IrohTransport.notTrusted ↔ u.view.Claims e := by
 refine ⟨?_,fun u t hu ht=>hu.afterHandshake ht⟩
 have hst:=opened_allowsTrusted_iff hopen hiroh hcard
 have hsp : ∀ (u : PeerNamespace P valid σ) (c : Call P × Io) (v : PeerNamespace P valid σ),
   u.AllowsTrusted → step store u c = some v → (v.AllowsTrusted ↔ Unshared store u c) := by
  intro u c v hu hv
  rw [← some.inj hv]
  exact allowsTrusted_exec_iff hu
 constructor
 · intro ha
   have hs:=ha [] calls ns₀ rfl (.refl ns₀)
   exact ⟨hst.mp hs,(hcalls.guarded_iff hs hsp).mpr ha⟩
 · rintro ⟨hsh,hg⟩
   exact (hcalls.guarded_iff (hst.mpr hsh) hsp).mp hg

section Plain
open PeerEnvelope

def plainEndpoint (id : UInt8) : IrohEndpointAddr plainPrimitives := ⟨pad 32 [id], [], []⟩

def plainCardAt (key id : UInt8) : PeerCard plainPrimitives :=
  (plainIdentity key key).cardWithIrohEndpoint (plainEndpoint id)

def plainEndpointId (id : UInt8) : EndpointId fun _ => true := ⟨pad 32 [id], rfl⟩

def allowConfig : PeerConfig plainPrimitives := ⟨[⟨plainCardAt 1 9⟩], [], some ⟨[], 4⟩⟩

def allowOpen : Res OpenError
    (PeerNamespace plainPrimitives (fun _ => true) (InMemoryInner plainPrimitives)) :=
  openWith _ memoryStore (fun _ => .done) .empty zero32 allowConfig

def rotation (id : UInt8) : List (Call plainPrimitives × Io) :=
  [(.trustPeer ⟨plainCardAt 2 id⟩, .done), (.removeTrustedPeer (plainCardAt 1 9).peerId, .done)]

set_option maxRecDepth 8000 in
theorem allowlist_tracks_rotation : ∃ ns₀ ns, allowOpen = .ok ns₀ ∧ Runs (step memoryStore) ns₀ (rotation 8) ns ∧
    ((∀ bs cs u, rotation 8 = bs ++ cs → Runs (step memoryStore) ns₀ bs u → u.AllowsTrusted) ↔
      NoneShadowed allowConfig ∧ GuardedRuns (step memoryStore) (Unshared memoryStore) ns₀ (rotation 8) ns) :=
 ⟨_,_,rfl,runs_of_exec rfl,
  (allowlist_tracks_trust_iff _ memoryStore allowConfig (fun _=>.done) .empty zero32 _ _ (rotation 8)
   rfl rfl ⟨_,mem_cons_self,rfl⟩ (runs_of_exec rfl)).1⟩

set_option maxRecDepth 8000 in
/-- The new card is at the endpoint of the old one: the trusted peer's endpoint is refused. -/
theorem endpoint_lost_on_rotation : ∃ ns₀ ns t, allowOpen = .ok ns₀ ∧
    Runs (step memoryStore) ns₀ (rotation 9) ns ∧ ns.iroh = some t ∧
    ns.view.Claims (plainEndpointId 9) ∧ t.allowedEndpoints = some ∅ ∧
    (t.afterHandshake (plainEndpointId 9)).2 = IrohTransport.notTrusted :=
 ⟨_,_,_,rfl,runs_of_exec rfl,rfl,⟨(plainCardAt 2 9).peerId,⟨plainCardAt 2 9⟩,rfl,rfl⟩,rfl,rfl⟩

end Plain

end PeerNamespace
end Enlace.Peer
