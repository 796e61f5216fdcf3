import Enlace.Gossip.Disconnect
import Enlace.Gossip.Registry
import Enlace.Lite.Connection

set_option autoImplicit false

/-! `acceptLoop` of `GossipActor` over `Endpoint.accept`: what a handshake that fails does to the subscriptions. -/
namespace Enlace.Gossip
open ByteString Fallible Transition Enlace.Quic Enlace.Lite Option Function ProtocolHistory
open IrohGossipSubscription (core_joined core_awaitPeer)

namespace GossipActor

def Serves (a : GossipActor) : Prop :=
  a.closed = false → a.accepting = true ∧ ∀ n, (a.handles n).events.failed = false

section
variable (blake3 : Bytes → MessageId) (decodeRelayUrl : Bytes → Option String) {a b : GossipActor} {nowMs : ℕ}

section
variable (h : a.Serves)
include h

lemma Serves.of_eq (heq : b.service = a.service) : b.Serves := by
 intro hopen
 simp only [service,Prod.mk.injEq] at heq
 obtain ⟨hc,ha,hf⟩:=heq
 obtain ⟨hbefore,hs⟩:=h (hc ▸ hopen)
 exact ⟨ha.trans hbefore,fun n=>(congrFun hf n).trans (hs n)⟩

lemma Serves.of_core (heq : b.core = a.core) : b.Serves := h.of_eq (congrArg Prod.snd heq)

lemma serves_addSubscriber (tid : TopicId) : (a.addSubscriber tid).Serves := by
 intro hopen
 obtain ⟨ha,hs⟩:=h hopen
 exact ⟨ha,(forall_update_iff a.handles fun _ handle=>handle.events.failed = false).mpr ⟨rfl,fun n _=>hs n⟩⟩

lemma serves_closeSubscription (n : ℕ) : (a.closeSubscription blake3 n nowMs).Serves := by
 have hf : (a.onHandle n (·.close)).service = a.service := by
  simp only [service,onHandle_keeps (f := (·.close)) (·.events.failed) fun _=>rfl]
  rfl
 have hc:=h.of_eq hf
 unfold closeSubscription
 split_ifs
 · exact h
 · dsimp only
   split
   · exact hc
   · split_ifs
     · exact hc
     · exact hc

lemma serves_close : a.close.Serves := by
 unfold close
 split_ifs
 · exact h
 · exact nofun

lemma serves_accepted (m : PeersM (Option PeerId)) :
    Serves { a.onPeers blake3 m nowMs with accepting := !a.closed } := by
 have hco : (a.onPeers blake3 m nowMs).core = a.core := core_onPeers blake3 m a
 intro hc
 have hopen : a.closed = false := (congrArg (fun core=>core.2.1) hco).symm.trans hc
 refine ⟨?_,(h.of_core hco hc).2⟩
 rw [hopen]
 rfl

end

/-- An accept that is rejected ends the service of an actor that is not closed, and nothing else does. -/
theorem serves_step_iff {a next : GossipActor} {event : GossipActorEvent × ℕ} (h : a.Serves)
    (hs : a.step blake3 decodeRelayUrl event = some next) :
    next.Serves ↔ (event.1 = .acceptRejected → a.closed = true) := by
 unfold step at hs
 split at hs
 case h_2 task todo fail ht hevent =>
  cases hs
  have hse : ({ a with todo := todo } : GossipActor).Serves := h
  refine ⟨fun _ heq=>?_,fun _=>?_⟩
  · rw [hevent] at heq
    cases heq
  · rcases core_perform blake3 decodeRelayUrl fail task _ with ⟨n,rfl⟩|hco
    · exact serves_closeSubscription blake3 hse n
    · exact hse.of_core hco
 case h_3 => cases hs
 case h_1 =>
  obtain ⟨event,nowMs⟩:=event
  have hg : ∀ {next}, event ≠ .acceptRejected → Serves next →
    (next.Serves ↔ (event = .acceptRejected → a.closed = true)) :=
   fun hne hse=>⟨fun _ heq=>absurd heq hne,fun _=>hse⟩
  cases event with
  | work fail => cases hs
  | subscribe tid bootstrap =>
   cases hs
   exact hg (by simp) (serves_addSubscriber h tid)
  | closeSubscription n =>
   obtain ⟨_,rfl⟩:=of_guard hs
   exact hg (by simp) (serves_closeSubscription blake3 h n)
  | joined n =>
   obtain ⟨_,rfl⟩:=of_guard hs
   exact hg (by simp) (h.of_core (core_onHandle core_joined n a))
  | joinPeer n peer =>
   obtain ⟨_,rfl⟩:=of_guard hs
   exact hg (by simp) (h.of_core (core_onHandle (core_awaitPeer peer.endpointId) n a))
  | joinPeers n peers | broadcast n payload scope | timerExpired tid timer
  | message id conn tid msg =>
   obtain ⟨_,rfl⟩:=of_guard hs
   exact hg (by simp) h
  | awaitPeer n peer =>
   obtain ⟨_,rfl⟩:=of_guard hs
   exact hg (by simp) (h.of_core (core_onHandle (core_awaitPeer peer) n a))
  | accepted peer conn fail =>
   obtain ⟨_,rfl⟩:=of_guard hs
   exact hg (by simp) (serves_accepted blake3 h _)
  | acceptRejected =>
   obtain ⟨_,rfl⟩:=of_guard hs
   cases hc : a.closed with
   | true => exact ⟨fun _ _=>rfl,fun _ hopen=>absurd (hc.symm.trans hopen) (by simp)⟩
   | false => exact ⟨fun hse=>absurd (hse hc).1 (by simp),fun hi=>absurd (hi rfl) (by simp)⟩
  | dialed id number conn fail | dialFailed id number | readFailed id conn =>
   obtain ⟨_,rfl⟩:=of_guard hs
   exact hg (by simp) (h.of_core (core_onPeers blake3 _ a))
  | close =>
   cases hs
   exact hg (by simp) (serves_close h)

end

end GossipActor

inductive AcceptProgress (η θ : Type) where
  | waiting (connection : Connection η θ)
  | resolved (connection : QuicConnectionState)
  | rejected (error : Thrown)

structure Listener (η θ : Type) where
  actor : GossipActor
  connection : Connection η θ
  accepts : ℕ

/-- A datagram for the connection of the accept in flight, or what else happens to the actor. An accept is rejected if
the transport fails. -/
inductive ListenerEvent where
  | datagrams (datagrams : Datagrams) (connection : ConnectionId) (fail : Option ℕ)
  | actor (event : GossipActorEvent)

namespace Listener

variable (C : Ciphers) {η θ : Type} (H : ClientHandshake η) (S : ServerHandshake θ) (handshakes : ℕ → θ)
  (peerEndpointId : QuicConnectionState → Option PeerId)
  (blake3 : Bytes → MessageId) (decodeRelayUrl : Bytes → Option String)

def accepting (n : ℕ) : Connection η θ :=
  ⟨.server ⟨⟨⟨handshakes n, false⟩, [], none, []⟩, none, none⟩, fun _ => none, [], [], false⟩

/-- A round of `driveUntilConnected` and the test before the next one. -/
def driveUntilConnected (datagrams : Datagrams) (connection : Connection η θ) : AcceptProgress η θ :=
  match Connection.receive C H S datagrams connection with
  | .error error _ => .rejected error
  | .ok result after =>
    match after.driver.connection with
    | some quic => .resolved quic
    | none =>
      match (after.finish result).requireOpen with
      | .ok _ => .waiting (after.finish result)
      | .error error => .rejected error

/-- The result of the accept goes to the actor. `connection.peerEndpointId` throws in the loop if it is not known. -/
def settle (progress : AcceptProgress η θ) (connection : ConnectionId) (fail : Option ℕ) : Option GossipActorEvent :=
  match progress with
  | .waiting _ => none
  | .rejected _ => some .acceptRejected
  | .resolved quic =>
    match peerEndpointId quic with
    | none => some .acceptRejected
    | some peer => some (.accepted peer connection fail)

def outcome (l : Listener η θ) : ListenerEvent → Option GossipActorEvent
  | .actor event => some event
  | .datagrams datagrams connection fail =>
    settle peerEndpointId (driveUntilConnected C H S datagrams l.connection) connection fail

def nextConnection (progress : AcceptProgress η θ) (l : Listener η θ) : Connection η θ × ℕ :=
  match progress with
  | .waiting connection => (connection, l.accepts)
  | _ => (accepting handshakes (l.accepts + 1), l.accepts + 1)

def step (l : Listener η θ) (event : ListenerEvent × ℕ) : Option (Listener η θ) :=
  match event.1 with
  | .actor (.accepted _ _ _) => none
  | .actor actorEvent =>
    (l.actor.step blake3 decodeRelayUrl (actorEvent, event.2)).map fun actor => { l with actor := actor }
  | .datagrams datagrams connection fail =>
    if l.actor.todo = [] ∧ l.actor.accepting = true then
      let progress := driveUntilConnected C H S datagrams l.connection
      let next := nextConnection handshakes progress l
      match settle peerEndpointId progress connection fail with
      | none => some ⟨l.actor, next.1, next.2⟩
      | some actorEvent =>
        (l.actor.step blake3 decodeRelayUrl (actorEvent, event.2)).map fun actor => ⟨actor, next.1, next.2⟩
    else none

def create (s : GossipProtocolState) : Listener η θ := ⟨.create s, accepting handshakes 0, 0⟩

/-- No accept of an actor that is not closed is rejected. -/
def Admits (l : Listener η θ) (event : ListenerEvent × ℕ) : Prop :=
  l.outcome C H S peerEndpointId event.1 = some .acceptRejected → l.actor.closed = true

lemma step_outcome {l next : Listener η θ} {event : ListenerEvent × ℕ}
    (h : l.step C H S handshakes peerEndpointId blake3 decodeRelayUrl event = some next) :
    match l.outcome C H S peerEndpointId event.1 with
    | none => next.actor = l.actor
    | some actorEvent => l.actor.step blake3 decodeRelayUrl (actorEvent, event.2) = some next.actor := by
 obtain ⟨event,nowMs⟩:=event
 cases event with
 | actor actorEvent =>
  unfold step at h
  split at h
  case h_1 => cases h
  case h_2 heq =>
   cases heq
   obtain ⟨actor,ha,rfl⟩:=map_eq_some_iff.mp h
   exact ha
  case h_3 heq => cases heq
 | datagrams dgs conn fail =>
  rw [step] at h
  split_ifs at h
  dsimp only [outcome] at h ⊢
  split at h
  case h_1 =>
   cases h
   rfl
  case h_2 =>
   obtain ⟨actor,ha,rfl⟩:=map_eq_some_iff.mp h
   exact ha

lemma serves_step_iff_admits {l next : Listener η θ} {event : ListenerEvent × ℕ} (hse : l.actor.Serves)
    (h : l.step C H S handshakes peerEndpointId blake3 decodeRelayUrl event = some next) :
    next.actor.Serves ↔ l.Admits C H S peerEndpointId event := by
 have hs:=step_outcome C H S handshakes peerEndpointId blake3 decodeRelayUrl h
 unfold Admits
 cases ho : l.outcome C H S peerEndpointId event.1 with
 | none =>
  rw [ho] at hs
  rw [hs]
  exact ⟨nofun,fun _=>hse⟩
 | some actorEvent =>
  rw [ho] at hs
  rw [GossipActor.serves_step_iff blake3 decodeRelayUrl hse hs,some.injEq]

/-- The accept loop goes on exactly in the runs in which no accept is rejected before the actor is closed. -/
theorem serves_iff_admits (s : GossipProtocolState) {events : List (ListenerEvent × ℕ)} {last : Listener η θ}
    (hruns : Runs (step C H S handshakes peerEndpointId blake3 decodeRelayUrl) (create handshakes s) events last) :
    GuardedRuns (step C H S handshakes peerEndpointId blake3 decodeRelayUrl) (Admits C H S peerEndpointId)
        (create handshakes s) events last ↔
      ∀ before rest l, events = before ++ rest →
        Runs (step C H S handshakes peerEndpointId blake3 decodeRelayUrl) (create handshakes s) before l →
        l.actor.closed = false → l.actor.accepting = true ∧ ∀ n, (l.actor.handles n).events.failed = false := by
 have hs : (create handshakes s : Listener η θ).actor.Serves := fun _=>⟨rfl,fun _=>rfl⟩
 exact hruns.guarded_iff (I := fun l=>l.actor.Serves) hs fun l event next hl hn=>
  serves_step_iff_admits C H S handshakes peerEndpointId blake3 decodeRelayUrl hl hn

instance decidableAdmits (l : Listener η θ) : DecidablePred (l.Admits C H S peerEndpointId) :=
  fun _ => inferInstanceAs (Decidable (_ → _))

section Plain

def bareInitial : Datagrams :=
  packetToRelayDatagrams relayPeer none [0xc0, 0, 0, 0, 1, 8, 1, 2, 3, 4, 5, 6, 7, 8, 0, 0, 1, 0]

def bareHandshake : Datagrams :=
  packetToRelayDatagrams relayPeer none [0xe0, 0, 0, 0, 1, 8, 1, 2, 3, 4, 5, 6, 7, 8, 0, 1, 0]

def answering : ServerHandshake Unit :=
  ⟨fun _ => pure ([], []), fun _ => Throwing.lift (establishedConnection .server)⟩

def plainStep (S : ServerHandshake Unit) : Listener Unit Unit → ListenerEvent × ℕ → Option (Listener Unit Unit) :=
  step plainCiphers noClientHandshake S (fun _ => ()) (fun _ => some (idOf 9)) (fun _ => idOf 0)
    fun _ => none

def oneInitial : List (ListenerEvent × ℕ) :=
  [(.actor (.subscribe (idOf 7) []), 0), (.actor (.work none), 0), (.datagrams bareInitial 0 none, 1)]

/-- One Initial packet that fails takes the accept loop and the subscription down. -/
theorem failed_handshake_ends_gossip :
    ∃ l, Runs (plainStep noServerHandshake) (create (fun _ => ()) ProtocolHistory.fresh) oneInitial l ∧
      l.actor.closed = false ∧ l.actor.accepting = false ∧ l.actor.IsOpen 0 ∧
      (l.actor.handles 0).events.failed = true :=
 by decide +kernel

def oneHandshake : List (ListenerEvent × ℕ) :=
  oneInitial ++ [(.datagrams bareHandshake 0 none, 2), (.datagrams bareInitial 1 none, 3)]

/-- The first accept resolves, and the next one has its Initial packet. -/
theorem serves_after_handshake : ∃ l, GuardedRuns (plainStep answering)
        (Admits plainCiphers noClientHandshake answering fun _ => some (idOf 9))
        (create (fun _ => ()) ProtocolHistory.fresh) oneHandshake l ∧
      (l.accepts = 1 ∧ l.actor.obtained = [0]) ∧
      ∀ before rest l, oneHandshake = before ++ rest →
        Runs (plainStep answering) (create (fun _ => ()) ProtocolHistory.fresh) before l →
        l.actor.closed = false → l.actor.accepting = true ∧ ∀ n, (l.actor.handles n).events.failed = false := by
 refine exists_and₂ (by decide +kernel) fun l hr _=>?_
 exact (serves_iff_admits plainCiphers noClientHandshake answering _ _ _ _ fresh hr.runs).mp hr

end Plain

end Listener

end Enlace.Gossip
