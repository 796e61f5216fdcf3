import Enlace.Receive
import Enlace.Peer.Put

set_option autoImplicit false

/-! Public-key mailboxes: a call of `recv` asks every transport for the pairwise address of the
receiver and for the address of every group of which it holds a key. -/
namespace Enlace.Peer
open ByteString Fallible WireFormat Crypto Kdf Receive Relay

structure PeerMailboxMessage (P : Primitives) where
  sender : PeerId
  signedBy : VerifyingKey P
  payload : Bytes
  via : TransportKind
  group : Option GroupId
  keyId : Option GroupKeyId
  deriving DecidableEq

structure PeerMailbox where
  identity : PeerIdentity
  transports : List TransportKind
  name : Bytes

namespace PeerMailbox

variable {P : Primitives} (rmp : SlotCodecs) (mailbox : PeerMailbox)

def recvAddresses (view : NamespaceView P) : List PeerAddress :=
  .pairwise (mailbox.identity.peerId P) :: view.groupIds.map .group

def openMessage (view : NamespaceView P) (via : TransportKind) (address : PeerAddress)
    (bytes : Bytes) : Res Unit (PeerMailboxMessage P) :=
  match address with
  | .group _ => do
    let message ← mapErr (fun _ => ()) (view.openGroupBytes rmp .mailbox mailbox.name bytes)
    return ⟨message.sender, message.signedBy, message.payload, via, some message.group, some message.keyId⟩
  | _ => do
    let message ← mapErr (fun _ => ()) (PeerEnvelope.openBytes rmp.peer bytes mailbox.identity
      .mailbox mailbox.name view.trustedSnapshot)
    return ⟨message.sender, message.signedBy, message.payload, via, none, none⟩

def recvTimeout {ρ : Type} (relayOf : Fin mailbox.transports.length → ρ) :
    Receiver ρ (Fin mailbox.transports.length × PeerAddress) (NamespaceView P)
      (PeerMailboxMessage P) where
  targets view := some ((List.finRange mailbox.transports.length).product (mailbox.recvAddresses view))
  mailbox g := match mailbox.transports.get g.1 with
    | .http => (httpMailbox (peerTransportId P .http g.2 .mailbox mailbox.name)).map (relayOf g.1, ·)
    | _ => none
  openMessage view g bytes := mailbox.openMessage rmp view (mailbox.transports.get g.1) g.2 bytes
  dedupCapacity := defaultDedupCapacity

end PeerMailbox
end Enlace.Peer

namespace Enlace.Receive
open ByteString Fallible WireFormat Crypto Kdf Relay Transition Coordinator Peer

/-- In every careful and fair run of a mailbox, in both modes, every message that a relay pops for
it is returned by a call or suppressed. -/
theorem mailboxes_account {P : Primitives} (cfg : RelayConfig) {ρ : Type} [DecidableEq ρ] (now : ℕ)
    (relays : ρ → Tables) :
    (∀ (rmp : SlotCodecs) (mailbox : PeerMailbox) (relayOf : Fin mailbox.transports.length → ρ)
      (view : NamespaceView P) (p : Path (step P cfg (mailbox.recvTimeout rmp relayOf))
        (Careful P (mailbox.recvTimeout rmp relayOf))), Fair p →
      p.state 0 = init (mailbox.recvTimeout rmp relayOf) now relays view →
      ∀ n, ∀ b ∈ (p.state n).popped, ∃ k, n ≤ k ∧ Accounted (p.state k) b) ∧
    ∀ (rmp : Codec SignedInner) (c : Coordinator P) (name : Bytes)
      (relayOf : Fin c.transports.length → ρ) (p : Path (step P cfg (c.mailboxRecv rmp name relayOf))
        (Careful P (c.mailboxRecv rmp name relayOf))), Fair p →
      p.state 0 = init (c.mailboxRecv rmp name relayOf) now relays () →
      ∀ n, ∀ b ∈ (p.state n).popped, ∃ k, n ≤ k ∧ Accounted (p.state k) b := by
 refine ⟨?_,?_⟩
 · intro rmp mailbox relayOf view p hf hs
   exact popped_accounted p hf hs
 · intro rmp c name relayOf p hf hs
   exact popped_accounted p hf hs

open Prod

section Plain
open PeerEnvelope PeerSlot

def plainMailbox : PeerMailbox := ⟨plainIdentity 2 2, [.http], ascii "m"⟩

def plainReceiver : Receiver Unit (Fin 1 × PeerAddress) (NamespaceView plainPrimitives)
    (PeerMailboxMessage plainPrimitives) :=
  plainMailbox.recvTimeout plainCodecs fun _ => ()

def plainStart : Sys Unit (Fin 1 × PeerAddress) (NamespaceView plainPrimitives)
    (PeerMailboxMessage plainPrimitives) :=
  init plainReceiver 0 (fun _ => ⟨.empty, .empty⟩) plainView

def plainSend : Bytes :=
  (toOption (do
    let e ← PeerEnvelope.sealTo (plainIdentity 1 1) .mailbox (ascii "m") (ascii "a")
      [(plainCard 2 2, plainNonce)]
    e.toBytes plainCodecs.peer)).getD []

def plainSendGroup : Bytes :=
  (toOption (do
    let e ← GroupEnvelope.sealTo plainPrimitives (plainIdentity 1 1) .mailbox (ascii "m") (ascii "b")
      [((plainGroup 5, plainGroupKey), plainNonce)]
    e.toBytes plainCodecs.group)).getD []

def plainArrival (address : PeerAddress) (body : Bytes) :
    Act Unit (Fin 1 × PeerAddress) (NamespaceView plainPrimitives) :=
  (plainReceiver.mailbox (0, address)).elim (.tick 0) fun m => .push m.1 m.2 body

def plainArrivals : List (Act Unit (Fin 1 × PeerAddress) (NamespaceView plainPrimitives)) :=
  [plainArrival (.pairwise (plainCard 2 2).peerId) plainSend, plainArrival (.group (plainGroup 5)) plainSendGroup]

def inTurn : List (Act Unit (Fin 1 × PeerAddress) (NamespaceView plainPrimitives)) :=
  plainArrivals ++ [.call 0 30, .issue 0, .pop 0 0, .deliver 0 0, .handle 0 0,
    .call 0 30, .issue 0, .pop 0 1, .deliver 0 1, .handle 0 1]

lemma eq_of_map_some {α β : Type} {o : Option α} {x : α} (hx : o = some x) {f : α → β} {y : β}
    (h : o.map f = some y) : f x = y := by
 rw [hx] at h
 exact Option.some.inj h

set_option maxRecDepth 8000 in
theorem mailboxes_account_plain : ∃ (p : Path (step plainPrimitives plainConfig plainReceiver)
      (Careful plainPrimitives plainReceiver)) (n : ℕ), Fair p ∧ p.state 0 = plainStart ∧
    (p.state n).popped = [⟨plainSend, some 0⟩, ⟨plainSendGroup, some 1⟩] ∧
    ∀ b ∈ (p.state n).popped, ∃ k, n ≤ k ∧ Accounted (p.state k) b := by
 have he : ∀ i, (execIf (step plainPrimitives plainConfig plainReceiver)
   (Careful plainPrimitives plainReceiver) plainStart inTurn).map
   (fun s=>(s.popped,(s.calls i).tasks)) =
   some ([⟨plainSend,some 0⟩,⟨plainSendGroup,some 1⟩],[])
  | 0 => rfl
  | _+1 => rfl
 obtain ⟨s,hs,hse⟩:=Option.map_eq_some_iff.mp (he 0)
 have hp:=(mk.inj hse).1
 have hi : ∀ i, (s.calls i).tasks = [] :=
  fun i=>congrArg snd (eq_of_map_some hs (he i))
 obtain ⟨p,hst,hl⟩:=(guardedRuns_of_execIf hs).path (a := .tick s.now) trivial rfl
 have hf:=Fair.of_rest hl hi
 refine ⟨p,inTurn.length,hf,hst,?_,?_⟩
 · rw [hl _ le_rfl]
   exact hp
 · exact (mailboxes_account plainConfig 0 _).1 plainCodecs plainMailbox _ plainView p hf hst _

def atOnce : List (Act Unit (Fin 1 × PeerAddress) (NamespaceView plainPrimitives)) :=
  plainArrivals ++ [.call 0 30, .issue 0, .pop 0 0, .pop 0 1, .deliver 0 0, .handle 0 0]

set_option maxRecDepth 8000 in
/-- The call returns with the pairwise message. The group message has left the relay's queue, and no later call returns
or suppresses it. -/
theorem popped_never_returned : ∃ s b,
    Runs (step plainPrimitives plainConfig plainReceiver) plainStart atOnce s ∧ b ∈ s.popped ∧
    verdict plainPrimitives plainReceiver s (0, .group (plainGroup 5)) b.bytes =
      .message ⟨(plainCard 1 1).peerId, (plainCard 1 1).signingKey, ascii "b", .http,
        some (plainGroup 5), some plainGroupKey.id⟩ ∧
    ∀ as u, Runs (step plainPrimitives plainConfig plainReceiver) s as u → ¬ Accounted u b := by
 have he : ∀ i, (exec (step plainPrimitives plainConfig plainReceiver) plainStart atOnce).map
   (fun s=>((s.calls i).tasks,s.popped,s.returned.map fst,s.suppressed,
    verdict plainPrimitives plainReceiver s (0,.group (plainGroup 5)) plainSendGroup)) =
   some ([],[⟨plainSend,some 0⟩,⟨plainSendGroup,some 1⟩],[⟨plainSend,some 0⟩],[],
    .message ⟨(plainCard 1 1).peerId,(plainCard 1 1).signingKey,ascii "b",.http,
     some (plainGroup 5),some plainGroupKey.id⟩)
  | 0 => rfl
  | _+1 => rfl
 obtain ⟨s,hs,hst⟩:=Option.map_eq_some_iff.mp (he 0)
 have hi : ∀ i, (s.calls i).tasks = [] :=
  fun i=>congrArg fst (eq_of_map_some hs (he i))
 obtain ⟨_,hst⟩:=mk.inj hst
 obtain ⟨hp,hst⟩:=mk.inj hst
 obtain ⟨hr,hst⟩:=mk.inj hst
 obtain ⟨hsu,hv⟩:=mk.inj hst
 refine ⟨s,⟨plainSendGroup,some 1⟩,runs_of_exec hs,?_,hv,?_⟩
 · rw [hp]
   exact List.mem_cons_of_mem _ List.mem_cons_self
 · have hl : Lost s ⟨plainSendGroup,some 1⟩ := by
    refine ⟨⟨1,rfl,by rw [hp]; decide⟩,?_⟩
    rintro ((⟨msg,hms⟩|hm)|⟨i,t,ht,_⟩)
    · have hf:=List.mem_map_of_mem (f := fst) hms
      rw [hr,List.mem_singleton] at hf
      cases congrArg Parcel.serial hf
    · rw [hsu] at hm
      cases hm
    · rw [hi i] at ht
      cases ht
   intro as u hru ha
   exact (lost_runs hl hru).2 (Or.inl ha)

end Plain
end Enlace.Receive

/-! `send_to_peers` and `put_for_peers` to their end: every transport is asked once for every
recipient, and the outcomes are gathered by transport kind alone. -/
namespace Enlace.Peer
open ByteString Fallible Crypto Kdf SlotRead State Coordinator List

inductive PeerSendError where
  | peerEnvelope (e : PeerEnvelopeError)
  | groupEnvelope (e : GroupEnvelopeError)
  | allTransportsFailed (failures : List (TransportKind × TransportError))
  deriving DecidableEq

structure PeerSendReport where
  delivered : List TransportKind
  failed : List (TransportKind × TransportError)
  deriving DecidableEq

def sendReport (results : List (TransportKind × Except TransportError Unit)) : Res PeerSendError PeerSendReport :=
  let delivered := results.filterMap fun r => r.2.toOption.map fun _ => r.1
  let failed := results.filterMap fun r => match r.2 with
    | .ok _ => none
    | .error e => some (r.1, e)
  if delivered.isEmpty then fail (.allTransportsFailed failed) else .ok ⟨delivered, failed⟩

section Outcomes

variable (transports : List TransportKind) (addresses : List PeerAddress)

def tasks : List (Fin transports.length × Fin addresses.length) :=
  (List.finRange transports.length).product (List.finRange addresses.length)

structure Outcomes where
  result : Fin transports.length → Fin addresses.length → Except TransportError Unit
  order : List (Fin transports.length × Fin addresses.length)
  complete : order.Perm (tasks transports addresses)

namespace Outcomes

variable {transports addresses} (o : Outcomes transports addresses)

def results : List (TransportKind × Except TransportError Unit) :=
  o.order.map fun task => (transports.get task.1, o.result task.1 task.2)

def Covers : Prop :=
  ∀ r, ∃ t r', addresses.get r' = addresses.get r ∧ o.result t r' = .ok ()

lemma mem_order (task : Fin transports.length × Fin addresses.length) : task ∈ o.order :=
 o.complete.mem_iff.mpr (pair_mem_product.mpr ⟨mem_finRange _,mem_finRange _⟩)

lemma accepted_iff : (o.results.filterMap fun r => r.2.toOption.map fun _ => r.1) ≠ [] ↔
    ∃ t r, o.result t r = .ok () := by
 rw [Ne,filterMap_eq_nil_iff]
 constructor
 · intro h
   obtain ⟨p,hp⟩:=not_forall.mp h
   obtain ⟨hm,hs⟩:=Classical.not_imp.mp hp
   obtain ⟨⟨t,r⟩,_,rfl⟩:=mem_map.mp hm
   refine ⟨t,r,?_⟩
   cases hr : o.result t r with
   | ok u => rfl
   | error e =>
    rw [hr] at hs
    exact absurd rfl hs
 · rintro ⟨t,r,hr⟩ h
   have hn:=h _ (mem_map.mpr ⟨(t,r),o.mem_order (t,r),rfl⟩)
   rw [hr] at hn
   cases hn

def OneAddress (addresses : List PeerAddress) : Prop := ∀ a ∈ addresses, ∀ b ∈ addresses, a = b

def onlyFor (transports : List TransportKind) {addresses : List PeerAddress} (a : PeerAddress) :
    Outcomes transports addresses where
  result _ r := if addresses.get r = a then .ok () else .error .timeout
  order := tasks transports addresses
  complete := .refl _

lemma result_onlyFor {transports : List TransportKind} {addresses : List PeerAddress} {a : PeerAddress}
    {t : Fin transports.length} {r : Fin addresses.length} (h : addresses.get r ≠ a) :
    (onlyFor transports a).result t r = .error .timeout := if_neg h

lemma covers_iff (transports : List TransportKind) (addresses : List PeerAddress) :
    (∀ o : Outcomes transports addresses, (∃ t r, o.result t r = .ok ()) → o.Covers) ↔
      transports = [] ∨ OneAddress addresses := by
 constructor
 · intro h
   by_contra hno
   obtain ⟨ht,ho⟩:=not_or.mp hno
   obtain ⟨a,ha⟩:=not_forall.mp ho
   obtain ⟨hm,hb⟩:=Classical.not_imp.mp ha
   obtain ⟨b,hb⟩:=not_forall.mp hb
   obtain ⟨hm',hne⟩:=Classical.not_imp.mp hb
   obtain ⟨r,hr⟩:=get_of_mem hm
   obtain ⟨r',hr'⟩:=get_of_mem hm'
   obtain ⟨t,r₂,hs,hok⟩:=h (onlyFor transports a)
    ⟨⟨0,length_pos_iff.mpr ht⟩,r,if_pos hr⟩ r'
   have had : addresses.get r₂ = a := by
    by_contra hother
    rw [result_onlyFor hother] at hok
    cases hok
   exact hne (had.symm.trans (hs.trans hr'))
 · rintro (hn|ho) o ⟨t,r,hok⟩ r'
   · subst hn
     exact t.elim0
   · exact ⟨t,r,ho _ (get_mem _ _) _ (get_mem _ _),hok⟩

end Outcomes

end Outcomes

open Outcomes

variable {P : Primitives}

def pairwiseAddresses (recipients : List (PeerCard P × Nonce)) : List PeerAddress :=
  recipients.map fun r => .pairwise r.1.peerId

def PeerMailbox.sendBytes (P : Primitives) (mailbox : PeerMailbox) (addresses : List PeerAddress)
    (bytes : Bytes) : List (TransportKind × Bytes × Bytes) :=
  mailbox.transports.flatMap fun kind => addresses.map fun address =>
    (kind, peerTransportId P kind address .mailbox mailbox.name, bytes)

def PeerMailbox.sendToPeers (rmp : SlotCodecs) (mailbox : PeerMailbox)
    (recipients : List (PeerCard P × Nonce)) (payload : Bytes) :
    Res PeerSendError (List (TransportKind × Bytes × Bytes)) := do
  let envelope ← mapErr .peerEnvelope
    (PeerEnvelope.sealTo mailbox.identity .mailbox mailbox.name payload recipients)
  let bytes ← mapErr .peerEnvelope (envelope.toBytes rmp.peer)
  return mailbox.sendBytes P (pairwiseAddresses recipients) bytes

lemma ok_unless_empty_iff {α β ε : Type} {l : List α} {e : ε} {b : β} :
    (∃ r, (if l.isEmpty then fail e else .ok b : Res ε β) = .ok r) ↔ l ≠ [] := by
 cases l with
 | nil => exact iff_of_false (fun ⟨_,h⟩=>nomatch h) (fun h=>h rfl)
 | cons a l => exact iff_of_true ⟨b,rfl⟩ (cons_ne_nil a l)

lemma sendReport_ok_iff {transports : List TransportKind} {addresses : List PeerAddress}
    (o : Outcomes transports addresses) :
    (∃ report, sendReport o.results = .ok report) ↔ ∃ t r, o.result t r = .ok () :=
 ok_unless_empty_iff.trans o.accepted_iff

lemma putReport_ok_iff {transports : List TransportKind} {addresses : List PeerAddress}
    (o : Outcomes transports addresses) (version : UInt64) :
    (∃ report, putReport PeerSlotError.allTransportsFailed version o.results = .ok report) ↔
      ∃ t r, o.result t r = .ok () :=
 ok_unless_empty_iff.trans o.accepted_iff

/-- A send or a put that returns Ok has reached every recipient, whatever the outcomes, exactly when there are no
transports or the recipients have one address. -/
theorem ok_covers_iff (rmp : SlotCodecs) (mailbox : PeerMailbox) (slot : PeerSlot)
    (recipients : List (PeerCard P × Nonce)) (payload : Bytes) (store : InMemoryInner P) :
    (∀ sends, mailbox.sendToPeers rmp recipients payload = .ok sends →
      ((∀ (o : Outcomes mailbox.transports (pairwiseAddresses recipients)) (report : PeerSendReport),
          sendReport o.results = .ok report → o.Covers) ↔
        mailbox.transports = [] ∨ OneAddress (pairwiseAddresses recipients))) ∧
    ∀ out, (slot.putForPeers rmp store recipients payload).2 = .ok out →
      ((∀ (o : Outcomes slot.transports (pairwiseAddresses recipients)) (report : PutReport),
          putReport PeerSlotError.allTransportsFailed out.version o.results = .ok report → o.Covers) ↔
        slot.transports = [] ∨ OneAddress (pairwiseAddresses recipients)) := by
 constructor
 · intro sends _
   rw [← covers_iff]
   refine forall_congr' fun o=>?_
   rw [← sendReport_ok_iff,forall_exists_index]
 · intro out _
   rw [← covers_iff]
   refine forall_congr' fun o=>?_
   rw [← putReport_ok_iff o out.version,forall_exists_index]

section Plain
open PeerEnvelope PeerSlot

def plainRecipients : List (PeerCard plainPrimitives × Nonce) :=
  [(plainCard 2 2, plainNonce), (plainCard 3 3, plainNonce)]

set_option maxRecDepth 8000 in
theorem ok_covers_two : ∃ sends out,
    Receive.plainMailbox.sendToPeers plainCodecs plainRecipients (ascii "hi") = .ok sends ∧
    (plainSlot.putForPeers plainCodecs .empty plainRecipients (ascii "hi")).2 = .ok out ∧
    ((∀ (o : Outcomes Receive.plainMailbox.transports (pairwiseAddresses plainRecipients))
        (report : PeerSendReport), sendReport o.results = .ok report → o.Covers) ↔
      Receive.plainMailbox.transports = [] ∨ OneAddress (pairwiseAddresses plainRecipients)) ∧
    ((∀ (o : Outcomes plainSlot.transports (pairwiseAddresses plainRecipients)) (report : PutReport),
        putReport PeerSlotError.allTransportsFailed out.version o.results = .ok report → o.Covers) ↔
      plainSlot.transports = [] ∨ OneAddress (pairwiseAddresses plainRecipients)) := by
 have h:=ok_covers_iff plainCodecs Receive.plainMailbox plainSlot plainRecipients (ascii "hi") .empty
 exact ⟨_,_,rfl,rfl,h.1 _ rfl,h.2 _ rfl⟩

set_option maxRecDepth 8000 in
/-- The only transport takes the message for the first recipient and refuses it for the second. -/
theorem second_recipient_unreached :
    let o : Outcomes Receive.plainMailbox.transports (pairwiseAddresses plainRecipients) :=
      onlyFor Receive.plainMailbox.transports (.pairwise (plainCard 2 2).peerId)
    (do let _ ← Receive.plainMailbox.sendToPeers plainCodecs plainRecipients (ascii "hi")
        sendReport o.results) = .ok ⟨[.http],[(.http,.timeout)]⟩ ∧
    ¬ o.Covers := by
 refine ⟨rfl,fun h=>?_⟩
 obtain ⟨t,r,hs,hok⟩:=h ⟨1,by decide⟩
 have ho : (pairwiseAddresses plainRecipients).get r ≠ .pairwise (plainCard 2 2).peerId := by
  rw [hs]
  decide
 rw [result_onlyFor ho] at hok
 cases hok

end Plain

end Enlace.Peer
