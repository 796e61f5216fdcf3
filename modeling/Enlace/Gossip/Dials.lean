import Enlace.Gossip.Shutdown

set_option autoImplicit false

/-! A peer that is disconnected while it is dialed. -/
namespace Enlace.Gossip
open ByteString Stateful Transition OrderedMap PeerTable

namespace PeerTable

variable {away : List PeerId} {t next : PeerTable}

/-- Every peer of the table has a runtime of its own, and those of the given peers wait. -/
structure Aloof (away : List PeerId) (t : PeerTable) : Prop where
  allocated : t.Allocated
  distinct : ∀ peer other id, OrderedMap.get t.peers peer = some id → OrderedMap.get t.peers other = some id →
    peer = other
  waits : ∀ peer id, peer ∈ away → OrderedMap.get t.peers peer = some id → (t.runtimes id).state.Waits

namespace Aloof

variable (h : t.Aloof away)
include h

lemma change (hc : Change (fun _ => True) (· ∉ away) t next) : next.Aloof away := by
 refine ⟨hc.covers.allocated h.allocated,fun peer other id hpeer ho=>?_,
  hc.rests h.waits (fun _=>trivial) fun peer id after gone hm hg hmoves=>?_⟩
 · cases hc with
   | @add new hne =>
    change get (set t.peers new t.nextRuntime) peer = some id at hpeer
    change get (set t.peers new t.nextRuntime) other = some id at ho
    rw [get_set] at hpeer ho
    split_ifs at hpeer ho with heq he'
    · exact heq.symm.trans he'
    · cases hpeer
      exact absurd (h.allocated other _ ho) (lt_irrefl _)
    · cases ho
      exact absurd (h.allocated peer _ hpeer) (lt_irrefl _)
    · exact h.distinct peer other id hpeer ho
   | move _ _ hk =>
    rw [hk.peers] at hpeer ho
    exact h.distinct peer other id hpeer ho
 · refine hmoves.waits ?_ (h.waits peer id hm hg)
   rintro ⟨other,ho,hn⟩
   exact hn (h.distinct peer other id hg ho ▸ hm)

lemma changes (hc : Changes (fun _ => True) (· ∉ away) t next) : next.Aloof away := by
 induction hc with
 | refl => exact h
 | tail _ hch ih => exact ih.change hch

lemma of_subset {rest : List PeerId} (hruntimes : next.runtimes = t.runtimes) (hn : next.nextRuntime = t.nextRuntime)
    (hp : ∀ peer id, OrderedMap.get next.peers peer = some id →
      OrderedMap.get t.peers peer = some id ∧ (peer ∈ rest → peer ∈ away)) : next.Aloof rest where
 allocated peer id hget := hn ▸ h.allocated peer id (hp peer id hget).1
 distinct peer other id hpeer hother := h.distinct peer other id (hp peer id hpeer).1 (hp other id hother).1
 waits peer id hmem hget := hruntimes ▸ h.waits peer id ((hp peer id hget).2 hmem) (hp peer id hget).1

lemma disconnectPeer (peer : PeerId) : (PeerTable.disconnectPeer peer t).2.Aloof (peer :: away) := by
 rw [PeerTable.disconnectPeer,get_bind]
 cases hg : get t.peers peer with
 | none =>
  refine h.of_subset rfl rfl fun other id ho=>⟨ho,fun hm=>(List.mem_cons.mp hm).resolve_left ?_⟩
  rintro rfl
  cases hg.symm.trans ho
 | some id =>
  refine (h.changes (.closeRuntime id t)).of_subset rfl rfl fun other id' ho=>?_
  change get (delete (closeRuntime id t).2.peers peer) other = some id' at ho
  rw [get_delete] at ho
  split_ifs at ho with hne
  exact ⟨ho,fun hm=>(List.mem_cons.mp hm).resolve_left (Ne.symm hne)⟩

lemma rememberAddresses (addrs : List IrohEndpointAddress) :
    (addrs.foldl (fun t address => rememberAddress address.endpointId address.relayUrl t) t).Aloof away := by
 induction addrs generalizing t with
 | nil => exact h
 | cons address addrs ih => exact ih (h.of_subset rfl rfl fun _ _ hg=>⟨hg,id⟩)

end Aloof

end PeerTable

namespace GossipActor

/-- The step neither sends a message to one of the peers nor accepts a connection from one. -/
def spares (away : List PeerId) (a : GossipActor) (event : GossipActorEvent) : Bool :=
  match a.todo, event with
  | .out (.sendMessage peer _ _) :: _, _ => !OrderedSet.has away peer
  | _, .accepted peer _ _ => !OrderedSet.has away peer
  | _, _ => true

/-- No connection comes from a dial to one of the peers that a runtime still waits for. -/
def GivesUp (away : List PeerId) (a : GossipActor) (event : GossipActorEvent) : Prop :=
  match event with
  | .dialed id number _ _ => (a.runtimes id).state.isPending number = true → (a.runtimes id).peer ∉ away
  | _ => True

section
variable (blake3 : Bytes → MessageId) (decodeRelayUrl : Bytes → Option String) {away : List PeerId}
  {a b : GossipActor} {nowMs : ℕ} (h : a.Aloof away)
include h

lemma aloof_perform (fail : Option ℕ) (task : Task) : (a.perform blake3 decodeRelayUrl fail task nowMs).Aloof away := by
 refine table_perform blake3 decodeRelayUrl h (fun peer event=>?_) (fun peer=>?_) (fun peer=>?_)
  (fun peer relayUrl=>?_) task
 · exact h.changes (.sendMessage fail trivial event _)
 · exact (h.disconnectPeer peer).of_subset rfl rfl fun _ _ hg=>⟨hg,List.mem_cons_of_mem _⟩
 · exact h.changes (.requirePeer peer _)
 · exact h.rememberAddresses [⟨peer,relayUrl⟩]

lemma aloof_react {event : GossipActorEvent}
    (hac : ∀ peer conn fail, event = .accepted peer conn fail → peer ∉ away)
    (hg : a.GivesUp away event) (hs : a.react blake3 event nowMs = some b) : b.Aloof away := by
 have ha : ∀ t : PeerTable, t.peers = a.peers → t.runtimes = a.runtimes → t.nextRuntime = a.nextRuntime →
   t.Aloof away := by
  intro t hpe hruntimes hn
  exact h.of_subset hruntimes hn fun _ _ hge=>⟨hpe ▸ hge,id⟩
 cases event with
 | work fail => cases hs
 | subscribe tid bootstrap =>
  cases hs
  exact h.rememberAddresses bootstrap
 | joinPeer n peer =>
  obtain ⟨_,rfl⟩:=of_guard hs
  exact h.rememberAddresses [peer]
 | joinPeers n peers =>
  obtain ⟨_,rfl⟩:=of_guard hs
  exact h.rememberAddresses peers
 | closeSubscription n =>
  obtain ⟨_,rfl⟩:=of_guard hs
  rw [toPeerTable_closeSubscription]
  exact h
 | joined n | awaitPeer n peer | broadcast n payload scope | timerExpired tid timer
 | message id conn tid msg =>
  obtain ⟨_,rfl⟩:=of_guard hs
  exact h
 | acceptRejected =>
  obtain ⟨_,rfl⟩:=of_guard hs
  split_ifs
  · exact h
  · exact h
 | accepted peer conn fail =>
  obtain ⟨_,rfl⟩:=of_guard hs
  rw [toPeerTable_onPeers]
  exact (ha (a.acquire conn) rfl rfl rfl).changes
   (.activateConnection a.closed fail (hac peer conn fail rfl) conn .inbound _)
 | dialed id number conn fail =>
  obtain ⟨_,rfl⟩:=of_guard hs
  rw [toPeerTable_onPeers]
  exact (ha ((a.endDial id number).acquire conn) rfl rfl rfl).changes
   (.dialed a.closed fail (fun hp=>hg hp) conn)
 | dialFailed id number =>
  obtain ⟨_,rfl⟩:=of_guard hs
  rw [toPeerTable_onPeers]
  exact h.changes (.dialFailed id number _)
 | readFailed id conn =>
  obtain ⟨_,rfl⟩:=of_guard hs
  rw [toPeerTable_onPeers]
  exact h.changes (.peerDisconnected id conn _)
 | close =>
  cases hs
  unfold close
  split_ifs
  · exact h
  · exact (h.changes (.closeRuntimes _ _)).of_subset rfl rfl nofun

lemma aloof_step {event : GossipActorEvent × ℕ} (hs : a.spares away event.1 = true)
    (hg : a.GivesUp away event.1) (hst : a.step blake3 decodeRelayUrl event = some b) : b.Aloof away := by
 rcases step_cases hst with ⟨hi,hr⟩|⟨task,todo,fail,_,_,rfl⟩
 · refine aloof_react blake3 h (fun peer conn fail heq=>?_) hg hr
   unfold spares at hs
   rw [hi,heq] at hs
   simpa [OrderedSet.has] using hs
 · have hrest : ({ a with todo := todo } : GossipActor).Aloof away := h
   exact aloof_perform blake3 decodeRelayUrl hrest fail task

omit h in
lemma closed_of_dialed {id : RuntimeId} {number : ℕ} {conn : ConnectionId} {fail : Option ℕ}
    (hs : ¬ (a.runtimes id).state.isPending number = true)
    (hst : a.step blake3 decodeRelayUrl (.dialed id number conn fail, nowMs) = some b) :
    conn ∈ b.closedConnections := by
 rcases step_cases hst with ⟨_,hr⟩|⟨_,_,_,_,hw,_⟩
 · obtain ⟨_,rfl⟩:=of_guard hr
   rw [toPeerTable_onPeers,PeerTable.dialed,modify_bind,get_bind]
   split_ifs with hp
   · exact absurd hp hs
   · exact List.mem_append_right _ List.mem_cons_self
 · cases hw

/-- A dial to the peer that completes, and the connection that it brings. -/
def dialledTo (peer : PeerId) (a : GossipActor) : GossipActorEvent → List ConnectionId
  | .dialed id _ connection _ => if (a.runtimes id).peer = peer then [connection] else []
  | _ => []

end

end GossipActor

/-- What follows the disconnect of a peer, with the connection that a dial to it has just brought. -/
structure DisconnectLog where
  actor : GossipActor
  dialled : List ConnectionId

namespace DisconnectLog
open GossipActor (aloof_step closed_of_dialed step_cases)

section
variable (blake3 : Bytes → MessageId) (decodeRelayUrl : Bytes → Option String) (peer : PeerId)

/-- No message is sent to the peer, and no connection is accepted from it. -/
def step (l : DisconnectLog) (event : GossipActorEvent × ℕ) : Option DisconnectLog :=
  if l.actor.spares [peer] event.1 then
    (l.actor.step blake3 decodeRelayUrl event).map fun actor => ⟨actor, l.actor.dialledTo peer event.1⟩
  else none

/-- The peer has no active runtime, and what was dialled is closed. -/
def Respected (l : DisconnectLog) : Prop :=
  (∀ id, OrderedMap.get l.actor.peers peer = some id → (l.actor.runtimes id).state.Waits) ∧
    ∀ connection ∈ l.dialled, connection ∈ l.actor.closedConnections

def Unanswered (l : DisconnectLog) (event : GossipActorEvent × ℕ) : Prop := l.actor.GivesUp [peer] event.1

/-- A disconnect is respected as long as no dial brings a connection that the peer's old runtime waits for. -/
theorem disconnect_respected {s : GossipProtocolState} {before later : List (GossipActorEvent × ℕ)}
    {a b : GossipActor} {todo : List Task} {work : GossipActorEvent × ℕ} {last : DisconnectLog}
    (hbefore : Runs (GossipActor.step blake3 decodeRelayUrl) (.create s) before a)
    (htodo : a.todo = .out (.disconnectPeer peer) :: todo) (hwork : a.step blake3 decodeRelayUrl work = some b)
    (hlater : GuardedRuns (step blake3 decodeRelayUrl peer) (Unanswered peer) ⟨b, []⟩ later last) :
    last.Respected peer := by
 have hf : a.Aloof [] := by
  refine hbefore.invariant (fun a=>a.Aloof []) ⟨nofun,nofun,
   nofun⟩ fun a event b h hs=>aloof_step blake3 decodeRelayUrl h ?_ ?_ hs
  · unfold GossipActor.spares
    split
    all_goals simp [OrderedSet.has]
  · unfold GossipActor.GivesUp
    split
    · exact fun _=>List.not_mem_nil
    · trivial
 have hd : b.Aloof [peer] := by
  rcases step_cases hwork with ⟨hi,_⟩|⟨task,todo,fail,ho,_,rfl⟩
  · cases htodo.symm.trans hi
  · cases htodo.symm.trans ho
    exact PeerTable.Aloof.disconnectPeer hf peer
 refine (hlater.invariant (fun l=>l.actor.Aloof [peer] ∧ l.Respected peer) ?_ ?_).2
 · exact ⟨hd,fun id=>hd.waits peer id (List.mem_singleton.mpr rfl),List.forall_mem_nil _⟩
 rintro l ⟨event,nowMs⟩ next ⟨h,_⟩ hok hs
 obtain ⟨hsp,hac⟩:=Option.ite_none_right_eq_some.mp hs
 obtain ⟨actor,hdo,rfl⟩:=Option.map_eq_some_iff.mp hac
 have ha:=aloof_step blake3 decodeRelayUrl h hsp hok hdo
 refine ⟨ha,fun id=>ha.waits peer id (List.mem_singleton.mpr rfl),?_⟩
 cases event with
 | dialed id number connection fail =>
  intro dialled hm
  change dialled ∈ if (l.actor.runtimes id).peer = peer then [connection] else [] at hm
  split_ifs at hm with hpeer
  · cases List.mem_singleton.mp hm
    exact closed_of_dialed blake3 decodeRelayUrl (fun hp=>hok hp (List.mem_singleton.mpr hpeer)) hdo
  · cases hm
 | _ => exact List.forall_mem_nil _

end

def plainStep : GossipActor → GossipActorEvent × ℕ → Option GossipActor :=
  GossipActor.step (fun _ => idOf 0) fun _ => none

/-- The peer is dialed, may be accepted, and is told about; the answer to a request to it is overdue before the dial
completes. -/
def overdueRequest (accepts : List ConnectionId) : List (GossipActorEvent × ℕ) :=
  [(.subscribe (idOf 7) [⟨idOf 2, "relay"⟩], 0), (.work none, 0), (.work none, 0), (.work none, 0)] ++
    accepts.map (fun connection => (.accepted (idOf 2) connection none, 1)) ++
    [(.accepted (idOf 3) 0 none, 1), (.message 1 0 (idOf 7) (.shuffleReply [⟨idOf 2, none⟩]), 2),
      (.work none, 2), (.work none, 2), (.timerExpired (idOf 7) (some (.pendingNeighbor (idOf 2))), 502)]

theorem dial_survives_disconnect : ∃ a, Runs plainStep (.create ProtocolHistory.fresh) (overdueRequest []) a ∧
      a.todo = [.out (.disconnectPeer (idOf 2))] ∧ a.dials = [(0, 0)] ∧ (a.runtimes 0).peer = idOf 2 ∧
      ∃ b, Runs plainStep a [(.work none, 502)] b ∧
        ∃ l, Runs (step (fun _ => idOf 0) (fun _ => none) (idOf 2)) ⟨b, []⟩ [(.dialed 0 0 1 none, 503)] l ∧
          l.actor.todo = [] ∧ l.dialled = [1] ∧ l.actor.closedConnections = [] ∧
          OrderedMap.get l.actor.peers (idOf 2) = some 2 ∧
          (l.actor.runtimes 2).state = .active ⟨[], 1, .outbound, [], []⟩ := by
 decide +kernel

/-- After the accept no runtime waits for the dial. -/
theorem accepted_dial_is_respected : ∃ l, l.Respected (idOf 2) ∧ l.actor.closedConnections = [5, 1] ∧
      ∃ a b, Runs plainStep (.create ProtocolHistory.fresh) (overdueRequest [5]) a ∧ a.dials = [(0, 0)] ∧
        Runs plainStep a [(.work none, 502)] b ∧
        Runs (step (fun _ => idOf 0) (fun _ => none) (idOf 2)) ⟨b, []⟩ [(.dialed 0 0 1 none, 503)] l := by
 obtain ⟨a,hb,hd,ht,b,hw,hp,l,hl,hc⟩ : ∃ a, Runs plainStep (.create ProtocolHistory.fresh) (overdueRequest [5]) a ∧
   a.dials = [(0,0)] ∧ a.todo = [.out (.disconnectPeer (idOf 2))] ∧
   ∃ b, Runs plainStep a [(.work none,502)] b ∧ (b.runtimes 0).state.isPending 0 = false ∧
    ∃ l, Runs (step (fun _=>idOf 0) (fun _=>none) (idOf 2)) ⟨b,[]⟩ [(.dialed 0 0 1 none,503)] l ∧
     l.actor.closedConnections = [5,1] := by
  decide +kernel
 refine ⟨l,?_,hc,a,b,hb,hd,hw,hl⟩
 cases hw with
 | next hs he =>
  cases he
  cases hl with
  | next hl he =>
   cases he
   have hok : Unanswered (idOf 2) ⟨b,[]⟩ (.dialed 0 0 1 none,503) :=
    fun hw=>absurd (hp.symm.trans hw) Bool.false_ne_true
   exact disconnect_respected _ _ _ hb ht hs (.next hok hl (.refl _))

end DisconnectLog

end Enlace.Gossip
