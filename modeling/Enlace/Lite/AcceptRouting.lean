import Enlace.Lite.Traffic

set_option autoImplicit false

/-! Which datagrams take an accepting connection, and where those with one connection id go. -/
namespace Enlace.Lite
open ByteString Transition Enlace.Quic List Option Function Router

def beginsWithInitial (datagrams : Datagrams) : Bool :=
  match splitRelayDatagramPackets datagrams with
  | .ok ((firstByte :: _) :: _) => isLongHeader firstByte && longHeaderPacketType firstByte = .initial
  | _ => false

/-- Datagrams with an unregistered id stay with the accepting connection that got the first of them, and only an Initial
packet takes one. -/
def HandoverRecord.Faithful {ι : Type} (r : HandoverRecord ι) : Prop :=
  (r.registrant = none → ∀ a, r.occupant = some a → r.handover.connection = a) ∧
    (r.handover.taken = true → beginsWithInitial r.handover.datagrams = true)

def Routing.pendingKeys {ι : Type} (g : Routing ι) : List (Outcome Bytes) :=
  g.pendingAcceptDatagrams.map routeKeyForDatagrams

def Routing.Unused {ι : Type} (g : Routing ι) (key : Bytes) : Prop :=
  g.connectionIdRoutes key = none ∧ .ok key ∉ g.pendingKeys

/-- A datagram without a route begins with an Initial packet whose id no waiting one has; a connection registers an
unused id. -/
def Traffic.AdmitsUnused {ι : Type} (t : Traffic ι) : RouterEvent ι → Prop
  | .frame (.datagrams d) =>
    match routeKeyForDatagrams d with
    | .ok key => t.router.connectionIdRoutes key = none → beginsWithInitial d = true ∧ .ok key ∉ t.router.pendingKeys
    | .error _ => True
  | .registerConnectionId connectionId _ => t.router.Unused connectionId
  | _ => True

structure Routing.Settled {ι : Type} (g : Routing ι) (l : Ledger ι) : Prop where
  nodup : g.pendingKeys.Nodup
  pending : ∀ d ∈ g.pendingAcceptDatagrams, beginsWithInitial d = true ∧
    ∃ key, routeKeyForDatagrams d = .ok key ∧ g.connectionIdRoutes key = none
  occupied : ∀ key a, l.occupants key = some a → g.connectionIdRoutes key = some a
  faithful : ∀ r ∈ l.records, r.Faithful

variable {ι : Type} {g : Routing ι} {l : Ledger ι}

namespace Routing.Settled

variable {key : Bytes}

section
variable (h : g.Settled l)
include h

lemma routed {c : ι} (hc : g.connectionIdRoutes key = some c) (d : Datagrams) :
    g.Settled (l.note (some ⟨c, d, key, false⟩)) where
 nodup := h.nodup
 pending := h.pending
 occupied := h.occupied
 faithful r hr := by
  rcases mem_append.mp hr with hr|hr
  · exact h.faithful r hr
  · obtain rfl:=mem_singleton.mp hr
    refine ⟨fun _ a ha=>?_,fun ht=>by cases ht⟩
    have hro:=h.occupied key a ha
    rw [hc] at hro
    exact some.inj hro

lemma taken {d : Datagrams} (hn : g.connectionIdRoutes key = none)
    (hd : beginsWithInitial d = true) {pending : List Datagrams}
    (hs : pending.Sublist g.pendingAcceptDatagrams) (hk : .ok key ∉ pending.map routeKeyForDatagrams)
    (accepting : List ι) (c : ι) :
    Settled ⟨update g.connectionIdRoutes key (some c), accepting, pending⟩ (l.note (some ⟨c, d, key, true⟩)) where
 nodup := h.nodup.sublist (hs.map _)
 pending d' hd' := by
  obtain ⟨hi,key',hk',hro⟩:=h.pending d' (hs.subset hd')
  refine ⟨hi,key',hk',?_⟩
  have hne : key' ≠ key := by
   intro heq
   rw [heq] at hk'
   exact hk (hk' ▸ mem_map_of_mem hd')
  exact (update_of_ne hne _ _).trans hro
 occupied key' a ha := by
  change update l.occupants key (some c) key' = some a at ha
  change update g.connectionIdRoutes key (some c) key' = some a
  by_cases heq : key' = key
  · rw [heq,update_self] at ha ⊢
    exact ha
  · rw [update_of_ne heq] at ha ⊢
    exact h.occupied key' a ha
 faithful r hr := by
  rcases mem_append.mp hr with hr|hr
  · exact h.faithful r hr
  · obtain rfl:=mem_singleton.mp hr
    refine ⟨fun _ a ha=>?_,fun _=>hd⟩
    have hro:=h.occupied key a ha
    rw [hn] at hro
    cases hro

lemma waits {d : Datagrams} (hd : routeKeyForDatagrams d = .ok key)
    (hn : g.connectionIdRoutes key = none) (hi : beginsWithInitial d = true)
    (hk : .ok key ∉ g.pendingKeys) :
    Settled { g with pendingAcceptDatagrams := g.pendingAcceptDatagrams ++ [d] } l where
 nodup := by
  rw [pendingKeys,map_append]
  refine h.nodup.append (nodup_singleton _) ?_
  rw [map_singleton,disjoint_singleton,hd]
  exact hk
 pending d' hd' := by
  rcases mem_append.mp hd' with hd'|hd'
  · exact h.pending d' hd'
  · rw [mem_singleton.mp hd']
    exact ⟨hi,key,hd,hn⟩
 occupied := h.occupied
 faithful := h.faithful

lemma registered (hk : g.Unused key) (c : ι) :
    Settled { g with connectionIdRoutes := update g.connectionIdRoutes key (some c) } (l.register key c) where
 nodup := h.nodup
 pending d hd := by
  obtain ⟨hi,key',hk',hr⟩:=h.pending d hd
  refine ⟨hi,key',hk',?_⟩
  have hne : key' ≠ key := by
   intro heq
   rw [heq] at hk'
   exact hk.2 (hk' ▸ mem_map_of_mem hd)
  exact (update_of_ne hne _ _).trans hr
 occupied key' a ha := by
  have hr:=h.occupied key' a ha
  have hne : key' ≠ key := by
   intro heq
   rw [heq,hk.1] at hr
   cases hr
  exact (update_of_ne hne _ _).trans hr
 faithful := h.faithful

lemma closed [DecidableEq ι] (accepting : List ι) (c : ι) :
    Settled ⟨fun key => if g.connectionIdRoutes key = some c then none else g.connectionIdRoutes key,
      accepting, g.pendingAcceptDatagrams⟩ (l.close c) where
 nodup := h.nodup
 pending d hd := by
  obtain ⟨hi,key,hk,hr⟩:=h.pending d hd
  refine ⟨hi,key,hk,?_⟩
  dsimp only
  rw [hr]
  rfl
 occupied key a ha := by
  obtain ⟨ha,hne⟩:=filter_eq_some_iff.mp ha
  have hr:=h.occupied key a ha
  dsimp only
  rw [hr,if_neg (by simpa using hne)]
 faithful := h.faithful

end

end Routing.Settled

variable [DecidableEq ι]

open Routing.Settled

namespace Traffic

def step (t : Traffic ι) (e : RouterEvent ι) : Option (Traffic ι) := some (t.apply e)

def Settled (t : Traffic ι) : Prop := t.router.toRouting.Settled t.ledger

variable {t : Traffic ι}

lemma settled_route (h : t.Settled) {d : Datagrams} {key : Bytes} (hd : routeKeyForDatagrams d = .ok key)
    (hok : t.router.connectionIdRoutes key = none → beginsWithInitial d = true ∧ .ok key ∉ t.router.pendingKeys) :
    ∃ handover r, route d t.router = .ok handover r ∧ r.toRouting.Settled (t.ledger.note handover) := by
 cases hr : t.router.connectionIdRoutes key with
 | some c =>
  refine ⟨_,_,route_of_routed hd hr,?_⟩
  rw [toRouting_enqueue]
  exact routed h hr d
 | none =>
  obtain ⟨hi,hk⟩:=hok hr
  cases ha : t.router.acceptingConnections with
  | cons c rest =>
   refine ⟨_,_,route_of_accepting hd hr ha,?_⟩
   rw [toRouting_enqueue]
   exact taken h hr hi (List.Sublist.refl _) hk rest c
  | nil => exact ⟨_,_,route_of_pending hd hr ha,waits h hd hr hi hk⟩

lemma settled_registerAccept (h : t.Settled) (c : ι) :
    ∃ handover r, registerAccept c t.router = .ok handover r ∧ r.toRouting.Settled (t.ledger.note handover) := by
 cases hp : t.router.pendingAcceptDatagrams with
 | nil =>
  refine ⟨_,_,registerAccept_of_none hp c,?_⟩
  rw [toRouting_ensureReadLoop]
  exact ⟨h.nodup,h.pending,h.occupied,h.faithful⟩
 | cons d rest =>
  obtain ⟨hi,key,hk,hr⟩:=h.pending d (hp ▸ mem_cons_self)
  have hn:=h.nodup
  rw [Routing.pendingKeys,hp,map_cons,nodup_cons,hk] at hn
  refine ⟨_,_,registerAccept_of_pending hp hk c,?_⟩
  rw [toRouting_enqueue]
  exact taken h hr hi (hp ▸ sublist_cons_self d rest) hn.1 _ c

lemma settled_readFrame (h : t.Settled) {frame : ReceiveFrame} (hok : t.AdmitsUnused (.frame frame)) :
    (t.router.readFrame frame).1.toRouting.Settled (t.ledger.note (t.router.readFrame frame).2) := by
 cases frame with
 | pong | status | restarting | endpointGone | ended => exact h
 | health problem =>
  rw [readFrame]
  rw [toRouting_fail]
  exact h
 | datagrams d =>
  rw [AdmitsUnused] at hok
  cases hk : routeKeyForDatagrams d with
  | error e =>
   rw [readFrame,route_of_error hk]
   rw [toRouting_fail]
   exact h
  | ok key =>
   rw [hk] at hok
   obtain ⟨handover,r,hro,hr⟩:=settled_route h hk hok
   rw [readFrame,hro]
   exact hr

lemma settled_apply (h : t.Settled) {e : RouterEvent ι} (hok : t.AdmitsUnused e) : (t.apply e).Settled := by
 cases e with
 | registerConnectionId cid c =>
  rw [Settled,apply,registerConnectionId,toRouting_ensureReadLoop]
  exact registered h hok c
 | registerAccept c =>
  obtain ⟨handover,r,hre,hr⟩:=settled_registerAccept h c
  rw [apply,hre]
  exact hr
 | unregister c => exact closed h _ c
 | receiveDatagrams c promise =>
  rw [Settled,apply,toRouting_receiveDatagrams]
  exact h
 | frame frame =>
  rw [Settled,apply]
  split
  · exact settled_readFrame h hok
  · exact h

/-- Accept routing is faithful where datagrams without a route begin with an Initial packet of a new id and connections
register fresh ids. -/
theorem accept_routing {events : List (RouterEvent ι)} {t : Traffic ι}
    (h : GuardedRuns step AdmitsUnused create events t) : ∀ r ∈ t.ledger.records, r.Faithful := by
 have hc : (create : Traffic ι).Settled :=
  ⟨nodup_nil,nofun,nofun,nofun⟩
 refine (h.invariant Settled hc ?_).faithful
 intro s e u hs hok hst
 rw [← some.inj hst]
 exact settled_apply hs hok

def sampleId : Bytes := [0, 1, 2, 3, 4, 5, 6, 7]

def sampleInitial : Datagrams := plainDatagrams ([0xc0, 0, 0, 0, 1, 8] ++ sampleId ++ [0, 0, 1, 0])

theorem accept_routing_initial : ∃ t, GuardedRuns step AdmitsUnused (create : Traffic ℕ)
        [.registerAccept 1, .frame (.datagrams sampleInitial), .frame (.datagrams sampleInitial)] t ∧
      (t.handedTo 1).length = 2 ∧ ∀ r ∈ t.ledger.records, r.Faithful := by
 have hi : ∀ t : Traffic ℕ, t.router.pendingAcceptDatagrams = [] →
   t.AdmitsUnused (.frame (.datagrams sampleInitial)) := by
  intro t ht
  refine fun _=>⟨by decide +kernel,?_⟩
  rw [Routing.pendingKeys,ht]
  exact not_mem_nil
 have hr : GuardedRuns step AdmitsUnused (create : Traffic ℕ)
   [.registerAccept 1,.frame (.datagrams sampleInitial),.frame (.datagrams sampleInitial)] _ :=
  .next trivial rfl (.next (hi _ rfl) rfl (.next (hi _ (by decide +kernel)) rfl (.refl _)))
 exact ⟨_,hr,by decide +kernel,accept_routing hr⟩

/-- A short-header packet takes the accepting connection; two Initial packets with one id go to two of them. -/
theorem accept_routing_strays : (∃ t r, Runs step (create : Traffic ℕ)
        [.registerAccept 1, .frame (.datagrams (shortHeaderDatagrams sampleId))] t ∧ r ∈ t.ledger.records ∧
        r.handover.taken = true ∧ beginsWithInitial r.handover.datagrams = false) ∧
      ∃ t r, Runs step (create : Traffic ℕ) [.frame (.datagrams sampleInitial),
          .frame (.datagrams sampleInitial), .registerAccept 1, .registerAccept 2] t ∧ r ∈ t.ledger.records ∧
        r.registrant = none ∧ r.occupant = some 1 ∧ r.handover.connection = 2 := by
 refine ⟨⟨_,⟨⟨1,shortHeaderDatagrams sampleId,sampleId,true⟩,none,none⟩,runs_of_exec rfl,?_,rfl,?_⟩,
  ⟨_,⟨⟨2,sampleInitial,sampleId,true⟩,none,some 1⟩,runs_of_exec rfl,?_,rfl,rfl,rfl⟩⟩
 · decide +kernel
 · decide +kernel
 · decide +kernel

end Traffic

end Enlace.Lite
