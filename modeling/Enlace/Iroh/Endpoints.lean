import Enlace.Peer.Envelope
import Enlace.Lib.Table
import Enlace.Lib.Transition

set_option autoImplicit false

/-! The endpoints an `IrohTransport` knows and admits. Which 32 bytes are an endpoint id is decided
by iroh. -/
namespace Enlace.Iroh
open ByteString Crypto Peer Table Option Transition List UInt32

/-- The bytes that `EndpointId::from_bytes` accepts. -/
@[ext]
structure EndpointId (valid : Bytes32 → Bool) where
  bytes : Bytes32
  accepted : valid bytes = true
  deriving DecidableEq

def endpointIdFromBytes (valid : Bytes32 → Bool) (id : Bytes32) : Option (EndpointId valid) :=
  if h : valid id = true then some ⟨id, h⟩ else none

lemma endpointIdFromBytes_eq_some {valid : Bytes32 → Bool} {id : Bytes32} {e : EndpointId valid} :
    endpointIdFromBytes valid id = some e ↔ e.bytes = id := by
 unfold endpointIdFromBytes
 split
 · rw [some.injEq]
   exact ⟨fun h=>h ▸ rfl,fun h=>EndpointId.ext h.symm⟩
 · rename_i hi
   exact ⟨(nomatch ·),fun h=>absurd (h ▸ e.accepted) hi⟩

variable {P : Primitives} {valid : Bytes32 → Bool}

/-- `upsert_iroh_peer`, and the same loop in `add_peer_addr`. -/
def upsertIrohPeer (peer : IrohEndpointAddr P) : List (IrohEndpointAddr P) → List (IrohEndpointAddr P)
  | [] => [peer]
  | p :: peers =>
    if p.endpointId = peer.endpointId then peer :: peers else p :: upsertIrohPeer peer peers

structure IrohTransport (P : Primitives) (valid : Bytes32 → Bool) where
  peers : List (IrohEndpointAddr P)
  allowedEndpoints : Option (Finset (EndpointId valid))
  topics : List Bytes
  maxConnsPerPeer : UInt32
  active : Map (EndpointId valid) UInt32

namespace IrohTransport

variable (t : IrohTransport P valid)

def resetTopics : IrohTransport P valid := { t with topics := [] }

def addPeerAddr (peer : IrohEndpointAddr P) : IrohTransport P valid :=
  { t with peers := upsertIrohPeer peer t.peers }

def removePeer (id : Bytes32) : IrohTransport P valid × Bool :=
  let kept := t.peers.filter fun peer => peer.endpointId != id
  let removed := kept.length != t.peers.length
  let t := { t with peers := kept }
  (if removed then t.resetTopics else t, removed)

def changeAllowed (id : Bytes32)
    (change : EndpointId valid → Finset (EndpointId valid) → Finset (EndpointId valid)) :
    IrohTransport P valid :=
  { t with
    allowedEndpoints := (endpointIdFromBytes valid id).elim t.allowedEndpoints fun e =>
      t.allowedEndpoints.map (change e) }

def allowPeer (peer : IrohEndpointAddr P) : IrohTransport P valid :=
  (t.changeAllowed peer.endpointId insert).addPeerAddr peer

def revokePeer (id : Bytes32) : IrohTransport P valid :=
  ((t.changeAllowed id fun e allowed => allowed.erase e).removePeer id).1.resetTopics

lemma allowedEndpoints_revokePeer (id : Bytes32) : (t.revokePeer id).allowedEndpoints =
    (t.changeAllowed id fun e allowed => allowed.erase e).allowedEndpoints := by
 simp only [revokePeer,removePeer,resetTopics]
 split
 · rfl
 · rfl

variable {allowed : Finset (EndpointId valid)}

section
variable (h : t.allowedEndpoints = some allowed)
include h

lemma mem_changeAllowed
    (id : Bytes32) (change : EndpointId valid → Finset (EndpointId valid) → Finset (EndpointId valid)) :
    ∃ allowed', (t.changeAllowed id change).allowedEndpoints = some allowed' ∧
      ((∃ e : EndpointId valid, e.bytes = id ∧ allowed' = change e allowed) ∨
        (∀ e : EndpointId valid, e.bytes ≠ id) ∧ allowed' = allowed) := by
 unfold changeAllowed
 rw [h]
 cases hid : endpointIdFromBytes valid id with
 | none =>
  refine ⟨allowed,rfl,.inr ⟨fun e he=>?_,rfl⟩⟩
  rw [endpointIdFromBytes_eq_some.mpr he] at hid
  cases hid
 | some e => exact ⟨_,rfl,.inl ⟨e,endpointIdFromBytes_eq_some.mp hid,rfl⟩⟩

lemma mem_allowPeer (peer : IrohEndpointAddr P) : ∃ allowed', (t.allowPeer peer).allowedEndpoints = some allowed' ∧
      ∀ e, e ∈ allowed' ↔ e.bytes = peer.endpointId ∨ e ∈ allowed := by
 obtain ⟨_,ha,⟨e,he,rfl⟩|⟨hn,rfl⟩⟩:=t.mem_changeAllowed h peer.endpointId insert
 · refine ⟨_,ha,fun x=>?_⟩
   rw [Finset.mem_insert,← he,← EndpointId.ext_iff]
 · exact ⟨_,ha,fun x=>⟨.inr,fun hx=>hx.resolve_left (hn x)⟩⟩

lemma mem_revokePeer (id : Bytes32) : ∃ allowed', (t.revokePeer id).allowedEndpoints = some allowed' ∧
      ∀ e, e ∈ allowed' ↔ e.bytes ≠ id ∧ e ∈ allowed := by
 rw [allowedEndpoints_revokePeer]
 obtain ⟨_,ha,⟨e,he,rfl⟩|⟨hn,rfl⟩⟩ := t.mem_changeAllowed h id fun e allowed=>allowed.erase e
 · refine ⟨_,ha,fun x=>?_⟩
   rw [Finset.mem_erase,← he,ne_eq,EndpointId.ext_iff]
 · exact ⟨_,ha,fun x=>⟨fun hx=>⟨hn x,hx⟩,fun hx=>hx.2⟩⟩

end

inductive AfterHandshakeOutcome where
  | accept
  | reject (errorCode : ℕ) (reason : Bytes)
  deriving DecidableEq

def notTrusted : AfterHandshakeOutcome := .reject 403 (ascii "endpoint not trusted")

def tooManyConnections : AfterHandshakeOutcome := .reject 0 (ascii "too many connections")

/-- A peer at its limit is still entered in the counts. -/
def countConnection (peer : EndpointId valid) : IrohTransport P valid × AfterHandshakeOutcome :=
  let count := (t.active.get peer).getD 0
  if t.maxConnsPerPeer ≤ count then
    ({ t with active := t.active.insert peer count trivial }, tooManyConnections)
  else ({ t with active := t.active.insert peer (count + 1) trivial }, .accept)

/-- `ConnLimitHook::after_handshake`. -/
def afterHandshake (peer : EndpointId valid) : IrohTransport P valid × AfterHandshakeOutcome :=
  if t.allowedEndpoints.any fun allowed => decide (peer ∉ allowed) then (t, notTrusted)
  else t.countConnection peer

lemma countConnection_ne_notTrusted (peer : EndpointId valid) : (t.countConnection peer).2 ≠ notTrusted := by
 simp only [countConnection]
 split
 · exact (by decide : tooManyConnections ≠ notTrusted)
 · exact (by decide : AfterHandshakeOutcome.accept ≠ notTrusted)

lemma afterHandshake_notTrusted (h : t.allowedEndpoints = some allowed) (peer : EndpointId valid) :
    (t.afterHandshake peer).2 = notTrusted ↔ peer ∉ allowed := by
 unfold afterHandshake
 rw [h]
 by_cases hm : peer ∈ allowed
 · rw [if_neg (by simpa using hm)]
   exact iff_of_false (t.countConnection_ne_notTrusted peer) fun hn=>hn hm
 · rw [if_pos (by simpa using hm)]
   exact iff_of_true rfl hm

end IrohTransport

def dropped (old : Option Bytes32) (endpoint : Option (IrohEndpointAddr P)) : Option Bytes32 :=
  old.filter fun id => endpoint.all fun new => new.endpointId != id

def updateIrohTrustedEndpoint (iroh : Option (IrohTransport P valid)) (old : Option Bytes32)
    (endpoint : Option (IrohEndpointAddr P)) : Option (IrohTransport P valid) :=
  iroh.map fun t =>
    let t := (dropped old endpoint).elim t t.revokePeer
    endpoint.elim t t.allowPeer

lemma mem_updateIrohTrustedEndpoint {t : IrohTransport P valid} {allowed : Finset (EndpointId valid)}
    (h : t.allowedEndpoints = some allowed) (old : Option Bytes32)
    (ep : Option (IrohEndpointAddr P)) : ∃ t' allowed',
      updateIrohTrustedEndpoint (some t) old ep = some t' ∧ t'.allowedEndpoints = some allowed' ∧
      ∀ e, e ∈ allowed' ↔ ep.map IrohEndpointAddr.endpointId = some e.bytes ∨
        (e ∈ allowed ∧ dropped old ep ≠ some e.bytes) := by
 obtain ⟨kept,hk,hm⟩ : ∃ kept,((dropped old ep).elim t t.revokePeer).allowedEndpoints = some kept ∧
    ∀ e, e ∈ kept ↔ e ∈ allowed ∧ dropped old ep ≠ some e.bytes := by
  cases dropped old ep with
  | none => exact ⟨allowed,h,fun e=>⟨fun he=>⟨he,nofun⟩,fun he=>he.1⟩⟩
  | some id =>
   obtain ⟨kept,hk,hm⟩:=t.mem_revokePeer h id
   refine ⟨kept,hk,fun e=>?_⟩
   rw [hm,and_comm,ne_comm,ne_eq,ne_eq,some.injEq]
 cases ep with
 | none =>
  refine ⟨_,kept,rfl,hk,fun e=>?_⟩
  rw [hm]
  exact ⟨.inr,fun he=>he.resolve_left nofun⟩
 | some new =>
  obtain ⟨allowed',ha,hn⟩:=IrohTransport.mem_allowPeer _ hk new
  refine ⟨_,allowed',rfl,ha,fun e=>?_⟩
  rw [hn,hm,map_some,some.injEq,eq_comm]

/-- Replacing the endpoint of a peer keeps the allowlist in step exactly when no other peer holds the endpoint that is
given up. -/
theorem updateIrohTrustedEndpoint_exact {t t' : IrohTransport P valid}
    {allowed allowed' : Finset (EndpointId valid)} (h : t.allowedEndpoints = some allowed)
    {old : Option Bytes32} {ep : Option (IrohEndpointAddr P)}
    (ht' : updateIrohTrustedEndpoint (some t) old ep = some t')
    (h' : t'.allowedEndpoints = some allowed') {others : EndpointId valid → Prop}
    (he : ∀ e, e ∈ allowed ↔ others e ∨ old = some e.bytes) :
    (∀ e, e ∈ allowed' ↔ others e ∨ ep.map IrohEndpointAddr.endpointId = some e.bytes) ↔
      ∀ e : EndpointId valid, dropped old ep = some e.bytes → ¬ others e := by
 obtain ⟨_,_,ht,ha,hm⟩:=mem_updateIrohTrustedEndpoint h old ep
 obtain rfl:=some.inj (ht.symm.trans ht')
 obtain rfl:=some.inj (ha.symm.trans h')
 have hdr : ∀ e : EndpointId valid, dropped old ep = some e.bytes ↔
   old = some e.bytes ∧ ep.map IrohEndpointAddr.endpointId ≠ some e.bytes := by
  intro e
  rw [dropped]
  cases ep with
  | none | some new => simp
 constructor
 · intro hal e hd ho
   rcases (hm e).mp ((hal e).mpr (.inl ho)) with hn|⟨_,hk⟩
   · exact ((hdr e).mp hd).2 hn
   · exact hk hd
 · intro hu e
   rw [hm,he]
   constructor
   · rintro (hn|⟨ho|hold,hk⟩)
     · exact .inr hn
     · exact .inl ho
     · by_contra hno
       exact hk ((hdr e).mpr ⟨hold,fun hn=>hno (.inr hn)⟩)
   · rintro (ho|hn)
     · exact .inr ⟨.inl ho,fun hd=>hu e hd ho⟩
     · exact .inl hn

/-! The connections that `ConnLimitHook` counts. -/

variable {P : Primitives} {valid : Bytes32 → Bool}

/-- What the task of an accepted connection does when the connection is closed. -/
def IrohTransport.connectionClosed (peer : EndpointId valid) (t : IrohTransport P valid) : IrohTransport P valid :=
  match t.active.get peer with
  | none => t
  | some count =>
    -- `saturating_sub`
    let count := if count = 0 then 0 else count - 1
    { t with active := if count = 0 then t.active.erase peer else t.active.insert peer count trivial }

/-- The accepted connections, in the order of their handshakes; `none` is one whose close was recorded. -/
structure ConnLimit (P : Primitives) (valid : Bytes32 → Bool) where
  transport : IrohTransport P valid
  connections : List (Option (EndpointId valid))

inductive ConnEvent (valid : Bytes32 → Bool) where
  | handshake (peer : EndpointId valid)
  | closed (connection : ℕ)
  | allow (allowed : Option (Finset (EndpointId valid)))

namespace ConnLimit

def step (s : ConnLimit P valid) : ConnEvent valid → Option (ConnLimit P valid)
  | .handshake peer =>
    some ⟨(s.transport.afterHandshake peer).1,
      s.connections ++ if (s.transport.afterHandshake peer).2 = .accept then [some peer] else []⟩
  | .closed connection =>
    match s.connections[connection]? with
    | some (some peer) => some ⟨s.transport.connectionClosed peer, s.connections.set connection none⟩
    | _ => none
  | .allow allowed => some { s with transport := { s.transport with allowedEndpoints := allowed } }

def opens (s : ConnLimit P valid) (peer : EndpointId valid) : ℕ := s.connections.count (some peer)

def entry (n : ℕ) : Option UInt32 := if n = 0 then none else some (UInt32.ofNat n)

lemma getD_entry (n : ℕ) : (entry n).getD 0 = ofNat n := by
 unfold entry
 split_ifs with h
 · rw [h]
   rfl
 · rfl

lemma ofNat_eq_zero_iff {n : ℕ} (h : n < size) : ofNat n = 0 ↔ n = 0 := by
 rw [← UInt32.toNat_inj,UInt32.toNat_ofNat_of_lt' h]
 rfl

lemma connectionClosed_of_entry {t : IrohTransport P valid} {peer : EndpointId valid} {n : ℕ}
    (h : t.active.get peer = entry n) (hp : 0 < n) (hn : n < size) :
    ∃ active, t.connectionClosed peer = { t with active := active } ∧
      ∀ other, active.get other = if other = peer then entry (n - 1) else t.active.get other := by
 rw [entry,if_neg hp.ne'] at h
 rw [IrohTransport.connectionClosed,h]
 refine ⟨_,rfl,fun other=>?_⟩
 rw [if_neg (mt (ofNat_eq_zero_iff hn).mp hp.ne'),show ofNat n - 1 = ofNat (n - 1) from
  (ofNat_sub hp).symm,entry]
 by_cases hl : n - 1 = 0
 · rw [if_pos ((ofNat_eq_zero_iff (by omega)).mpr hl),if_pos hl,Keyed.get_erase]
 · rw [if_neg (mt (ofNat_eq_zero_iff (by omega)).mp hl),if_neg hl,Keyed.get_insert]

/-- A peer has an entry, and in it the number of its open connections, exactly if it has any. -/
structure Counted (max : UInt32) (s : ConnLimit P valid) : Prop where
  positive : 0 < max
  limit : s.transport.maxConnsPerPeer = max
  counts : ∀ peer, s.transport.active.get peer = entry (s.opens peer)
  bounded : ∀ peer, s.opens peer ≤ max.toNat

variable {max : UInt32} {s : ConnLimit P valid}

def Allowed (s : ConnLimit P valid) (peer : EndpointId valid) : Prop :=
  ∀ allowed, s.transport.allowedEndpoints = some allowed → peer ∈ allowed

section
variable (h : s.Counted max)
include h

lemma Counted.afterHandshake (peer : EndpointId valid) :
    (¬ s.Allowed peer ∧ s.transport.afterHandshake peer = (s.transport, IrohTransport.notTrusted)) ∨
    (s.Allowed peer ∧ ∃ active, (s.opens peer = max.toNat ∧ (∀ other, active.get other = s.transport.active.get other) ∧
      s.transport.afterHandshake peer = ({ s.transport with active := active }, IrohTransport.tooManyConnections) ∨
      s.opens peer < max.toNat ∧
      (∀ other, active.get other = if other = peer then entry (s.opens peer + 1) else s.transport.active.get other) ∧
      s.transport.afterHandshake peer = ({ s.transport with active := active }, .accept))) := by
 have hle:=h.bounded peer
 have hmax : max.toNat < size := max.toNat_lt
 have hp : 0 < max.toNat := lt_iff_toNat_lt.mp h.positive
 have ha : (s.transport.allowedEndpoints.any fun allowed=>decide (peer ∉ allowed)) = true ↔ ¬ s.Allowed peer := by
  simp [Option.any_eq_true,Allowed]
 have hlimit : max ≤ ofNat (s.opens peer) ↔ max.toNat ≤ s.opens peer := by
  rw [le_iff_toNat_le,toNat_ofNat_of_lt' (by omega)]
 rw [IrohTransport.afterHandshake,IrohTransport.countConnection,h.limit,h.counts,getD_entry]
 simp only [hlimit]
 split_ifs with hn hf
 · exact .inl ⟨ha.mp hn,rfl⟩
 · refine .inr ⟨not_not.mp (ha.not.mp hn),_,.inl ⟨by omega,fun other=>?_,by rw [h.limit]⟩⟩
   -- a peer at its limit has an entry already
   rw [Keyed.get_insert]
   split_ifs with heq
   · rw [heq,h.counts,entry,if_neg (by omega)]
   · rfl
 · refine .inr ⟨not_not.mp (ha.not.mp hn),_,.inr ⟨by omega,fun other=>?_,by rw [h.limit]⟩⟩
   rw [Keyed.get_insert,entry,ofNat_add]
   rfl

lemma Counted.change {peer : EndpointId valid} {n : ℕ} {active : Map (EndpointId valid) UInt32}
    {connections : List (Option (EndpointId valid))} (hn : n ≤ max.toNat)
    (ha : ∀ other, active.get other = if other = peer then entry n else s.transport.active.get other)
    (ho : ∀ other, connections.count (some other) = if other = peer then n else s.opens other) :
    Counted max ⟨{ s.transport with active := active }, connections⟩ := by
 refine ⟨h.positive,h.limit,fun other=>?_,fun other=>?_⟩
 · rw [opens,ho]
   refine (ha other).trans ?_
   split_ifs
   · rfl
   · exact h.counts other
 · rw [opens,ho]
   split_ifs
   · exact hn
   · exact h.bounded other

variable {u : ConnLimit P valid}

lemma Counted.handshake (peer : EndpointId valid) (hu : s.step (.handshake peer) = some u) : u.Counted max := by
 rw [← Option.some.inj hu]
 rcases h.afterHandshake peer with ⟨_,heq⟩|⟨_,active,⟨_,hac,heq⟩|⟨hlt,hac,heq⟩⟩
 · rw [heq,if_neg nofun,append_nil]
   exact h
 · rw [heq,if_neg nofun,append_nil]
   exact ⟨h.positive,h.limit,fun other=>(hac other).trans (h.counts other),h.bounded⟩
 · rw [heq]
   refine h.change hlt hac fun other=>?_
   by_cases ho : other = peer
   · simp [ho,opens]
   · simp [ho,Ne.symm ho,opens]

lemma Counted.closed {conn : ℕ} (hu : s.step (.closed conn) = some u) : u.Counted max := by
 rw [step] at hu
 split at hu
 · rename_i peer hpeer
   rw [← Option.some.inj hu]
   obtain ⟨hlt,hg⟩:=List.getElem?_eq_some_iff.mp hpeer
   have hp : 0 < s.opens peer := count_pos_iff.mpr (mem_of_getElem? hpeer)
   have hle:=h.bounded peer
   have hmax : max.toNat < size := max.toNat_lt
   obtain ⟨active,heq,ha⟩:=connectionClosed_of_entry (h.counts peer) hp (by omega)
   rw [heq]
   refine h.change (by omega) ha fun other=>?_
   rw [count_set hlt,hg]
   by_cases ho : other = peer
   · simp [ho,opens]
   · simp [ho,Ne.symm ho,opens]
 · cases hu

lemma Counted.step {event : ConnEvent valid} (hu : s.step event = some u) : u.Counted max := by
 cases event with
 | handshake peer => exact h.handshake peer hu
 | closed conn => exact h.closed hu
 | allow allowed =>
  rw [← Option.some.inj hu]
  exact ⟨h.positive,h.limit,h.counts,h.bounded⟩

end

/-- The count of a peer is the number of its accepted connections that are open. It never exceeds the limit, a handshake
of an allowed peer is turned away exactly at the limit, and no entry counts nothing. -/
theorem connection_limit {t : IrohTransport P valid} (hmax : 0 < t.maxConnsPerPeer)
    (hempty : ∀ peer, t.active.get peer = none) {events : List (ConnEvent valid)} {s : ConnLimit P valid}
    (h : Runs step ⟨t, []⟩ events s) (peer : EndpointId valid) :
    ((s.transport.active.get peer).getD 0).toNat = s.opens peer ∧ s.opens peer ≤ t.maxConnsPerPeer.toNat ∧
    s.transport.active.get peer ≠ some 0 ∧
    (s.Allowed peer → ((s.transport.afterHandshake peer).2 ≠ .accept ↔ s.opens peer = t.maxConnsPerPeer.toNat)) := by
 have hc : s.Counted t.maxConnsPerPeer := by
  refine h.invariant (Counted t.maxConnsPerPeer) ⟨hmax,rfl,hempty,fun _=>Nat.zero_le _⟩ ?_
  exact fun _ _ _ hs hst=>hs.step hst
 have hle:=hc.bounded peer
 have hlt : t.maxConnsPerPeer.toNat < size := t.maxConnsPerPeer.toNat_lt
 refine ⟨?_,hle,?_,fun ha=>?_⟩
 · rw [hc.counts,getD_entry,toNat_ofNat_of_lt' (by omega)]
 · rw [hc.counts,entry]
   split_ifs with hn
   · exact nofun
   · exact fun hz=>hn ((ofNat_eq_zero_iff (by omega)).mp (Option.some.inj hz))
 · rcases hc.afterHandshake peer with ⟨hno,_⟩|⟨_,_,⟨hf,_,heq⟩|⟨hf,_,heq⟩⟩
   · exact absurd ha hno
   · rw [heq]
     exact iff_of_true nofun hf
   · rw [heq]
     exact iff_of_false (by simp) hf.ne

def anyEndpoint : EndpointId fun _ => true := ⟨List.Vector.replicate 32 0, rfl⟩

def singleConn : IrohTransport plainPrimitives fun _ => true := ⟨[], none, [], 1, .empty⟩

/-- Of two handshakes one is turned away; the close of the other leaves no count. -/
theorem connection_limit_single : ∃ s,
    Runs step ⟨singleConn, []⟩ [.handshake anyEndpoint, .handshake anyEndpoint, .closed 0] s ∧
    ((s.transport.active.get anyEndpoint).getD 0).toNat = s.opens anyEndpoint ∧
    s.transport.active.get anyEndpoint ≠ some 0 := by
 have h : Runs step ⟨singleConn,[]⟩ [.handshake anyEndpoint,.handshake anyEndpoint,.closed 0]
  ⟨singleConn,[none]⟩ := runs_of_exec rfl
 obtain ⟨hc,_,hz,_⟩:=connection_limit (by decide) (fun _=>rfl) h anyEndpoint
 exact ⟨_,h,hc,hz⟩

end ConnLimit

end Enlace.Iroh
