import Enlace.Iroh.Endpoints
import Enlace.Peer.GroupEnvelope
import Enlace.SlotRead
import Enlace.State.File

set_option autoImplicit false

/-! The trusted peers, group keys and iroh allowlist of a live `PeerNamespace`, from
`PeerNamespace::open` on. Setting up the transports themselves is left to the environment. -/
namespace Enlace.Peer
open Fallible WireFormat Crypto Kdf Table State Transition SlotRead Iroh Option

/-- What a namespace calls on its state. -/
structure StateStore (P : Primitives) (σ : Type) where
  irohKeypair : σ → Option Bytes32
  storeIrohKeypair : Io → σ → Bytes32 → σ × Res StateError Unit
  storeTrustedPeer : Io → σ → TrustedPeer P → σ × Res StateError Unit
  removeTrustedPeer : Io → σ → PeerId → σ × Res StateError Unit
  storeGroupKey : Io → σ → GroupId → GroupKey → σ × Res StateError Unit
  removeGroupKey : Io → σ → GroupId → GroupKeyId → σ × Res StateError Unit

variable {P : Primitives} {valid : Bytes32 → Bool} {σ ε : Type}

def fileStore (rmp : Codec Snapshot) : StateStore P (FileStateStore P) where
  irohKeypair st := st.inner.irohKeypair
  storeIrohKeypair io st secret := st.storeIrohKeypair rmp io secret
  storeTrustedPeer io st peer := st.storeTrustedPeer rmp io peer
  removeTrustedPeer io st id := st.removeTrustedPeer rmp io id
  storeGroupKey io st group key := st.storeGroupKey rmp io group key
  removeGroupKey io st group keyId := st.removeGroupKey rmp io group keyId

def memoryStore : StateStore P (InMemoryInner P) where
  irohKeypair s := s.irohKeypair
  storeIrohKeypair _ s secret := (s.storeIrohKeypair secret, .ok ())
  storeTrustedPeer _ s peer := (s.storeTrustedPeer peer, .ok ())
  removeTrustedPeer _ s id := ((s.removeTrustedPeer id).1, .ok ())
  storeGroupKey _ s group key := (s.storeGroupKey group key, .ok ())
  removeGroupKey _ s group keyId := ((s.removeGroupKey group keyId).1, .ok ())

inductive GroupKeyError where
  | state (e : StateError)
  deriving DecidableEq

inductive OpenError where
  | transportInit (kind : TransportKind) (e : TransportError)
  | state (e : StateError)
  deriving DecidableEq

structure IrohConfig (P : Primitives) where
  peers : List (IrohEndpointAddr P)
  maxConnsPerPeer : UInt32

structure PeerConfig (P : Primitives) where
  trustedPeers : List (TrustedPeer P)
  groupKeys : List (GroupId × GroupKey)
  iroh : Option (IrohConfig P)

structure PeerNamespace (P : Primitives) (valid : Bytes32 → Bool) (σ : Type) where
  state : σ
  view : NamespaceView P
  iroh : Option (IrohTransport P valid)

def TrustedPeer.endpointId (peer : TrustedPeer P) : Option Bytes32 :=
  peer.card.irohEndpoint.map IrohEndpointAddr.endpointId

/-- A card is held under its own id, and a group key under its group and its own id. -/
theorem TrustedPeer.keyed (peer : TrustedPeer P) : peer.peerId = peer.peerId := rfl

lemma GroupKey.keyed (entry : GroupId × GroupKey) : entry.2.id = (entry.1, entry.2.id).2 := rfl

namespace PeerNamespace

variable (store : StateStore P σ) (ns : PeerNamespace P valid σ) (io : Io)

/-- Goes on only when the state has taken the change. -/
def afterState (wrap : StateError → ε) (r : σ × Res StateError Unit)
    (go : PeerNamespace P valid σ → PeerNamespace P valid σ) : PeerNamespace P valid σ × Res ε Unit :=
  let ns := { ns with state := r.1 }
  match r.2 with
  | .ok _ => (go ns, .ok ())
  | .error e => (ns, mapErr wrap (.error e))

def addGroupKey (group : GroupId) (key : GroupKey) : PeerNamespace P valid σ × Res GroupKeyError Unit :=
  ns.afterState .state (store.storeGroupKey io ns.state group key) fun ns =>
    { ns with view := { ns.view with
        groupKeys := ns.view.groupKeys.insert (group, key.id) key (GroupKey.keyed (group, key)) } }

def removeGroupKey (group : GroupId) (keyId : GroupKeyId) : PeerNamespace P valid σ × Res GroupKeyError Unit :=
  ns.afterState .state (store.removeGroupKey io ns.state group keyId) fun ns =>
    { ns with view := { ns.view with groupKeys := ns.view.groupKeys.erase (group, keyId) } }

def oldEndpointId (id : PeerId) : Option Bytes32 :=
  (ns.view.trustedPeers.get id).bind TrustedPeer.endpointId

def trustPeer (peer : TrustedPeer P) : PeerNamespace P valid σ × Res TrustError Unit :=
  match peer.card.validate with
  | .error e => (ns, mapErr .card (.error e))
  | .ok _ => ns.afterState .state (store.storeTrustedPeer io ns.state peer) fun ns =>
    { ns with
      view := { ns.view with trustedPeers := ns.view.trustedPeers.insert peer.peerId peer peer.keyed }
      iroh := updateIrohTrustedEndpoint ns.iroh (ns.oldEndpointId peer.peerId) peer.card.irohEndpoint }

def removeTrustedPeer (id : PeerId) : PeerNamespace P valid σ × Res TrustError Unit :=
  ns.afterState .state (store.removeTrustedPeer io ns.state id) fun ns =>
    { ns with
      view := { ns.view with trustedPeers := ns.view.trustedPeers.erase id }
      iroh := updateIrohTrustedEndpoint ns.iroh (ns.oldEndpointId id) none }

end PeerNamespace

def trustedIrohEndpoints (trusted : List (TrustedPeer P)) : List (IrohEndpointAddr P) :=
  trusted.filterMap fun peer => peer.card.irohEndpoint

def invalidEndpoint : OpenError := .transportInit .iroh (.network "invalid iroh endpoint id")

/-- `IrohTransport::new_with_allowed_endpoints`; `generated` is the key drawn when the state has none. -/
def newIroh (valid : Bytes32 → Bool) (store : StateStore P σ) (io : Io) (state : σ) (generated : Bytes32)
    (config : IrohConfig P) (allowed : Option (List Bytes32)) : σ × Res OpenError (IrohTransport P valid) :=
  let stored := if (store.irohKeypair state).isSome then (state, .ok ())
    else store.storeIrohKeypair io state generated
  (stored.1, do
    mapErr .state stored.2
    let _ ← config.peers.mapM fun peer =>
      okOr invalidEndpoint (endpointIdFromBytes valid peer.endpointId)
    let allowed ← match allowed with
      | none => pure none
      | some ids => some <$> ids.mapM fun id => okOr invalidEndpoint (endpointIdFromBytes valid id)
    return ⟨config.peers, allowed.map List.toFinset, [], config.maxConnsPerPeer, .empty⟩)

def openPeerIrohTransport (valid : Bytes32 → Bool) (store : StateStore P σ) (io : Io) (state : σ)
    (generated : Bytes32) (config : PeerConfig P) :
    σ × Res OpenError (Option (IrohTransport P valid)) :=
  match config.iroh with
  | none => (state, .ok none)
  | some irohConfig =>
    let endpoints := trustedIrohEndpoints config.trustedPeers
    let peers := endpoints.foldl (fun peers endpoint => upsertIrohPeer endpoint peers) irohConfig.peers
    let allowed := if endpoints.isEmpty then none else some (endpoints.map IrohEndpointAddr.endpointId)
    let r := newIroh valid store io state generated { irohConfig with peers := peers } allowed
    (r.1, some <$> r.2)

namespace PeerNamespace

def trustConfigured (ns : PeerNamespace P valid σ) (peer : TrustedPeer P) :
    Res OpenError (PeerNamespace P valid σ) := do
  mapErr (fun e => .state (.corrupted e.display)) peer.card.validate
  return { ns with
    view := { ns.view with trustedPeers := ns.view.trustedPeers.insert peer.peerId peer peer.keyed } }

def addConfigured (store : StateStore P σ) (io : ℕ → Io) (ns : PeerNamespace P valid σ)
    (entry : (GroupId × GroupKey) × ℕ) : Res OpenError (PeerNamespace P valid σ) := do
  let r := ns.addGroupKey store (io entry.2) entry.1.1 entry.1.2
  mapErr (fun | .state e => .state e) r.2
  return r.1

/-- `PeerNamespace::open`; what the state still holds of earlier trust and keys is not read. -/
def openWith (valid : Bytes32 → Bool) (store : StateStore P σ) (io : ℕ → Io) (state : σ)
    (generated : Bytes32) (config : PeerConfig P) : Res OpenError (PeerNamespace P valid σ) := do
  let r := openPeerIrohTransport valid store (io 0) state generated config
  let iroh ← r.2
  let ns ← config.trustedPeers.foldlM trustConfigured ⟨r.1, ⟨.empty, .empty⟩, iroh⟩
  (config.groupKeys.zipIdx 1).foldlM (addConfigured store io) ns

def configured (config : PeerConfig P) : NamespaceView P where
  trustedPeers := Keyed.collect TrustedPeer.peerId id TrustedPeer.keyed config.trustedPeers
  groupKeys := Keyed.collect (fun e => (e.1, e.2.id)) Prod.snd GroupKey.keyed config.groupKeys

variable {go : PeerNamespace P valid σ → PeerNamespace P valid σ} {ns : PeerNamespace P valid σ}
variable {r : σ × Res StateError Unit} {wrap : StateError → ε}

lemma afterState_ok {u : Unit} (h : (ns.afterState wrap r go).2 = .ok u) :
    (ns.afterState wrap r go).1 = go { ns with state := r.1 } := by
 unfold afterState at h ⊢
 cases hr : r.2 with
 | ok _ => rfl
 | error e =>
  rw [hr] at h
  cases e with
  | error e | abort => cases h

lemma afterState_eq_ok : (ns.afterState wrap r go).2 = .ok () ↔ r.2 = .ok () := by
 unfold afterState
 cases hr : r.2 with
 | ok _ => exact ⟨fun _=>rfl,fun _=>rfl⟩
 | error e => exact ⟨fun h=>mapErr_eq_ok.mp h,nofun⟩

lemma afterState_error (h : (ns.afterState wrap r go).2 ≠ .ok ()) :
    (ns.afterState wrap r go).1 = { ns with state := r.1 } := by
 unfold afterState at h ⊢
 cases hr : r.2 with
 | ok _ =>
  rw [hr] at h
  exact absurd rfl h
 | error e => rfl

variable {io : ℕ → Io} {store : StateStore P σ} {u : PeerNamespace P valid σ}

lemma foldlM_trustConfigured {peers : List (TrustedPeer P)} (h : peers.foldlM trustConfigured ns = .ok u) :
    u.iroh = ns.iroh ∧ u.view.groupKeys = ns.view.groupKeys ∧ u.view.trustedPeers =
      peers.foldl (fun m peer => m.insert peer.peerId peer peer.keyed) ns.view.trustedPeers := by
 induction peers generalizing ns with
 | nil =>
  rw [← Except.ok.inj h]
  exact ⟨rfl,rfl,rfl⟩
 | cons peer peers ih =>
  obtain ⟨v,hv,h⟩:=bind_eq_ok.mp h
  simp only [trustConfigured,bind_eq_ok,pure_eq_ok] at hv
  obtain ⟨_,_,rfl⟩:=hv
  exact ih h

lemma foldlM_addConfigured {entries : List ((GroupId × GroupKey) × ℕ)}
    (h : entries.foldlM (addConfigured store io) ns = .ok u) :
    u.iroh = ns.iroh ∧ u.view.trustedPeers = ns.view.trustedPeers ∧ u.view.groupKeys =
      (entries.map Prod.fst).foldl (fun m e => m.insert (e.1, e.2.id) e.2 (GroupKey.keyed e)) ns.view.groupKeys := by
 induction entries generalizing ns with
 | nil =>
  rw [← Except.ok.inj h]
  exact ⟨rfl,rfl,rfl⟩
 | cons entry entries ih =>
  obtain ⟨v,hv,h⟩:=bind_eq_ok.mp h
  simp only [addConfigured,bind_eq_ok,mapErr_eq_ok,pure_eq_ok] at hv
  obtain ⟨_,ha,rfl⟩:=hv
  rw [addGroupKey,afterState_ok ha] at h
  exact ih h

lemma openWith_ok {state : σ} {generated : Bytes32} {config : PeerConfig P}
    (h : openWith valid store io state generated config = .ok ns) : ns.view = configured config ∧
      (openPeerIrohTransport valid store (io 0) state generated config).2 = .ok ns.iroh := by
 simp only [openWith,bind_eq_ok] at h
 obtain ⟨iroh,hir,u,htr,hk⟩:=h
 obtain ⟨hi,hg,ht⟩:=foldlM_trustConfigured htr
 obtain ⟨hi',ht',hg'⟩:=foldlM_addConfigured hk
 rw [List.zipIdx_map_fst,hg] at hg'
 rw [ht] at ht'
 refine ⟨?_,by rw [hi',hi]; exact hir⟩
 cases hv : ns.view with
 | mk trustedPeers groupKeys =>
  rw [hv] at ht' hg'
  exact congrArg₂ NamespaceView.mk ht' hg'

end PeerNamespace

inductive Call (P : Primitives) where
  | trustPeer (peer : TrustedPeer P)
  | removeTrustedPeer (id : PeerId)
  | addGroupKey (group : GroupId) (key : GroupKey)
  | removeGroupKey (group : GroupId) (keyId : GroupKeyId)

def Call.onPeer (id : PeerId) : Call P → Option (Option (TrustedPeer P))
  | .trustPeer peer => if id = peer.peerId then some (some peer) else none
  | .removeTrustedPeer id' => if id = id' then some none else none
  | _ => none

def Call.onKey (k : GroupId × GroupKeyId) : Call P → Option (Option GroupKey)
  | .addGroupKey group key => if k = (group, key.id) then some (some key) else none
  | .removeGroupKey group keyId => if k = (group, keyId) then some none else none
  | _ => none

def latest {β : Type} (on : Call P → Option β) : List (Call P × Io) → Option β
  | [] => none
  | c :: calls => (latest on calls).or (on c.1)

namespace PeerNamespace

def exec (store : StateStore P σ) (ns : PeerNamespace P valid σ) (c : Call P × Io) :
    PeerNamespace P valid σ × Res Unit Unit :=
  match c.1 with
  | .trustPeer peer =>
    let r := ns.trustPeer store c.2 peer
    (r.1, mapErr (fun _ => ()) r.2)
  | .removeTrustedPeer id =>
    let r := ns.removeTrustedPeer store c.2 id
    (r.1, mapErr (fun _ => ()) r.2)
  | .addGroupKey group key =>
    let r := ns.addGroupKey store c.2 group key
    (r.1, mapErr (fun _ => ()) r.2)
  | .removeGroupKey group keyId =>
    let r := ns.removeGroupKey store c.2 group keyId
    (r.1, mapErr (fun _ => ()) r.2)

variable {store : StateStore P σ} {ns u : PeerNamespace P valid σ} {c : Call P × Io}

lemma trustPeer_ok {peer : TrustedPeer P} {io : Io} (h : (ns.trustPeer store io peer).2 = .ok ()) :
    (ns.trustPeer store io peer).1.view.trustedPeers = ns.view.trustedPeers.insert peer.peerId peer peer.keyed ∧
      (ns.trustPeer store io peer).1.view.groupKeys = ns.view.groupKeys ∧
      (ns.trustPeer store io peer).1.iroh =
        updateIrohTrustedEndpoint ns.iroh (ns.oldEndpointId peer.peerId) peer.card.irohEndpoint := by
 unfold trustPeer at h ⊢
 rcases peer.card.validate_cases with hv|⟨e,hv⟩
 · rw [hv] at h ⊢
   rw [afterState_ok h]
   exact ⟨rfl,rfl,rfl⟩
 · rw [hv] at h
   cases h

lemma get_of_exec_ok (h : (ns.exec store c).2 = .ok ()) :
    (∀ id, (ns.exec store c).1.view.trustedPeers.get id = (c.1.onPeer id).getD (ns.view.trustedPeers.get id)) ∧
    ∀ k, (ns.exec store c).1.view.groupKeys.get k = (c.1.onKey k).getD (ns.view.groupKeys.get k) := by
 obtain ⟨call,io⟩:=c
 cases call with
 | trustPeer peer =>
  obtain ⟨ht,hk,_⟩:=trustPeer_ok (mapErr_eq_ok.mp h)
  refine ⟨fun id=>?_,fun k=>?_⟩
  · simp only [exec,ht,Keyed.get_insert,Call.onPeer]
    split
    · rfl
    · rfl
  · simp only [exec,hk]
    rfl
 | removeTrustedPeer id' =>
  have hok:=afterState_ok (mapErr_eq_ok.mp h)
  refine ⟨fun id=>?_,fun k=>?_⟩
  · simp only [exec,removeTrustedPeer,hok,Keyed.get_erase,Call.onPeer]
    split
    · rfl
    · rfl
  · simp only [exec,removeTrustedPeer,hok]
    rfl
 | addGroupKey group key =>
  have hok:=afterState_ok (mapErr_eq_ok.mp h)
  refine ⟨fun id=>?_,fun k=>?_⟩
  · simp only [exec,addGroupKey,hok]
    rfl
  · simp only [exec,addGroupKey,hok,Keyed.get_insert,Call.onKey]
    split
    · rfl
    · rfl
 | removeGroupKey group keyId =>
  have hok:=afterState_ok (mapErr_eq_ok.mp h)
  refine ⟨fun id=>?_,fun k=>?_⟩
  · simp only [exec,removeGroupKey,hok]
    rfl
  · simp only [exec,removeGroupKey,hok,Keyed.get_erase,Call.onKey]
    split
    · rfl
    · rfl

section Restart

def stepOk (store : StateStore P σ) (ns : PeerNamespace P valid σ) (c : Call P × Io) :
    Option (PeerNamespace P valid σ) :=
  match (ns.exec store c).2 with
  | .ok _ => some (ns.exec store c).1
  | .error _ => none

lemma stepOk_eq_some (h : stepOk store ns c = some u) : (ns.exec store c).2 = .ok () ∧ (ns.exec store c).1 = u := by
 unfold stepOk at h
 split at h
 · rename_i hok
   exact ⟨hok,some.inj h⟩
 · cases h

lemma get_of_runs {calls : List (Call P × Io)} (h : Runs (stepOk store) ns calls u) :
    (∀ id, u.view.trustedPeers.get id = (latest (Call.onPeer id) calls).getD (ns.view.trustedPeers.get id)) ∧
    ∀ k, u.view.groupKeys.get k = (latest (Call.onKey k) calls).getD (ns.view.groupKeys.get k) := by
 induction h with
 | refl ns => exact ⟨fun _=>rfl,fun _=>rfl⟩
 | next h _ ih =>
  obtain ⟨hok,rfl⟩:=stepOk_eq_some h
  obtain ⟨hp,hk⟩:=get_of_exec_ok hok
  refine ⟨fun id=>?_,fun k=>?_⟩
  · rw [ih.1,hp,latest,getD_or]
  · rw [ih.2,hk,latest,getD_or]

def SameLive (v w : NamespaceView P) : Prop :=
  (∀ id, v.trustedPeers.get id = w.trustedPeers.get id) ∧ ∀ k, v.groupKeys.get k = w.groupKeys.get k

/-- `State::file` and then `PeerNamespace::open`, as `open_namespace` of the agent runs them. -/
def openFile (valid : Bytes32 → Bool) (rmp : Codec Snapshot) (io : ℕ → Io) (disk : Disk)
    (generated : Bytes32) (config : PeerConfig P) :
    Res OpenError (PeerNamespace P valid (FileStateStore P)) := do
  let st ← mapErr .state (FileStateStore.openStore rmp disk)
  openWith valid (fileStore rmp) io st generated config

/-- Whatever the last call about a peer or a key has left is what the configuration says of it. -/
def LeavesConfigured (config : PeerConfig P) (calls : List (Call P × Io)) : Prop :=
  (∀ id v, latest (Call.onPeer id) calls = some v → (configured config).trustedPeers.get id = v) ∧
  ∀ k v, latest (Call.onKey k) calls = some v → (configured config).groupKeys.get k = v

lemma getD_eq_iff {β : Type} (o : Option β) (d : β) : d = o.getD d ↔ ∀ v, o = some v → d = v := by
 cases o with
 | none => exact ⟨nofun,fun _=>rfl⟩
 | some v => exact ⟨fun h w hw=>h.trans (some.inj hw),fun h=>h v rfl⟩

/-- Opening the namespace again from its file and the same configuration restores the trusted peers and group keys
exactly when the calls have left nothing but what the configuration says. -/
theorem reopened_iff (valid : Bytes32 → Bool) (rmp : Codec Snapshot) (config : PeerConfig P)
    (disk : Disk) (io io' : ℕ → Io) (generated generated' : Bytes32)
    (ns₀ ns ns' : PeerNamespace P valid (FileStateStore P)) (calls : List (Call P × Io))
    (hopen : openFile valid rmp io disk generated config = .ok ns₀)
    (hcalls : Runs (stepOk (fileStore rmp)) ns₀ calls ns)
    (hreopen : openFile valid rmp io' ns.state.disk generated' config = .ok ns') :
    SameLive ns'.view ns.view ↔ LeavesConfigured config calls := by
 obtain ⟨_,_,hopen⟩:=bind_eq_ok.mp hopen
 obtain ⟨_,_,hreopen⟩:=bind_eq_ok.mp hreopen
 obtain ⟨hp,hk⟩:=get_of_runs hcalls
 rw [(openWith_ok hopen).1] at hp hk
 simp only [SameLive,LeavesConfigured,(openWith_ok hreopen).1,hp,hk,getD_eq_iff]

section Plain
open PeerEnvelope

def plainFile : StateStore plainPrimitives (FileStateStore plainPrimitives) :=
  fileStore FileStateStore.plainCodec

def plainConfig : PeerConfig plainPrimitives := ⟨[⟨plainCard 1 1⟩], [], none⟩

def plainOpen (disk : Disk) :
    Res OpenError (PeerNamespace plainPrimitives (fun _ => true) (FileStateStore plainPrimitives)) :=
  openFile _ FileStateStore.plainCodec (fun _ => .done) disk zero32 plainConfig

def undone : List (Call plainPrimitives × Io) :=
  [(.trustPeer ⟨plainCard 2 2⟩, .done), (.addGroupKey zero32 plainGroupKey, .done),
    (.removeTrustedPeer (plainCard 2 2).peerId, .done), (.removeGroupKey zero32 plainGroupKey.id, .done)]

set_option maxRecDepth 8000 in
theorem reopened_undone : ∃ ns₀ ns ns', plainOpen ⟨none, none⟩ = .ok ns₀ ∧
    Runs (stepOk plainFile) ns₀ undone ns ∧ plainOpen ns.state.disk = .ok ns' ∧
    (SameLive ns'.view ns.view ↔ LeavesConfigured plainConfig undone) :=
 ⟨_,_,_,rfl,runs_of_exec rfl,rfl,reopened_iff _ FileStateStore.plainCodec plainConfig ⟨none,none⟩
  (fun _=>.done) (fun _=>.done) zero32 zero32 _ _ _ undone rfl (runs_of_exec rfl) rfl⟩

def added : List (Call plainPrimitives × Io) :=
  [(.trustPeer ⟨plainCard 2 2⟩, .done), (.addGroupKey zero32 plainGroupKey, .done),
    (.removeTrustedPeer (plainCard 1 1).peerId, .done)]

set_option maxRecDepth 8000 in
/-- A peer trusted and a key added at run time are gone after a restart; a configured peer that was removed is back. -/
theorem trust_lost_on_restart : ∃ ns₀ ns ns', plainOpen ⟨none, none⟩ = .ok ns₀ ∧
    Runs (stepOk plainFile) ns₀ added ns ∧ plainOpen ns.state.disk = .ok ns' ∧
    ns.view.trustedPeers.get (plainCard 2 2).peerId = some ⟨plainCard 2 2⟩ ∧
    ns'.state.inner.trustedPeers.get (plainCard 2 2).peerId = some ⟨plainCard 2 2⟩ ∧
    ns'.view.trustedPeers.get (plainCard 2 2).peerId = none ∧
    ns.view.groupKeys.get (zero32, plainGroupKey.id) = some plainGroupKey ∧
    ns'.view.groupKeys.get (zero32, plainGroupKey.id) = none ∧
    ns.view.trustedPeers.get (plainCard 1 1).peerId = none ∧
    ns'.view.trustedPeers.get (plainCard 1 1).peerId = some ⟨plainCard 1 1⟩ :=
 ⟨_,_,_,rfl,runs_of_exec rfl,rfl,rfl,rfl,rfl,rfl,rfl,rfl,rfl⟩

end Plain

end Restart

end PeerNamespace
end Enlace.Peer
