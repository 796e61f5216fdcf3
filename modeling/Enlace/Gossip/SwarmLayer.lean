import Enlace.Gossip.Views

set_option autoImplicit false

/-! The operations that keep the views of a topic leave the messages that were seen alone and send none on. -/
namespace Enlace.Gossip
open ByteString Stateful List OrderedSet

def TopicOutEvent.Control : TopicOutEvent → Prop
  | .emitEvent (.received _ _ _ _) => False
  | .sendMessage _ message => message.spreads = false
  | _ => True

lemma TopicOutEvent.Local.control {event : TopicOutEvent} (h : event.Local) : event.Control := by
 cases event with
 | sendMessage => exact h.elim
 | emitEvent event =>
  cases event with
  | received => exact h.elim
  | _ => trivial
 | _ => trivial

def Controls (out : List TopicOutEvent) : Prop := ∀ event ∈ out, event.Control

@[simp] lemma controls_nil : Controls [] := nofun

variable {event : TopicOutEvent} {f : GossipTopicState → TopicM (List TopicOutEvent)}
  {m n : TopicM (List TopicOutEvent)} {s t : GossipTopicState}

@[simp] lemma controls_cons {out : List TopicOutEvent} : Controls (event :: out) ↔ event.Control ∧ Controls out :=
 forall_mem_cons

lemma controls_singleton (h : event.Control) : Controls [event] :=
 controls_cons.mpr ⟨h,controls_nil⟩

lemma controls_scheduleTimer (delayMs : ℕ) (timer : TopicTimer) : Controls [.scheduleTimer delayMs timer] :=
 controls_singleton trivial

namespace GossipTopicState

lemma seen_viewsClosed (me : PeerId) (seen : MessageId → Option ℕ) :
    ViewsClosed me (fun _ => True) (fun s => s.me = me ∧ s.seenMessages = seen) TopicOutEvent.Control where
 self hs := hs.1
 shelved {s _} hs _ _ := by
  obtain ⟨random,peers,he,_⟩:=evictPassive_eq s
  rw [he]
  exact hs
 forgotten _ hs := hs
 activated _ hs _ := hs
 cleared hs := hs
 sent _ hmessage := hmessage
 told hevent _ := hevent.control
 parted hevent := hevent.control

/-- Every event that is not about messages is an operation on the views. -/
theorem swarmLayer_handleEvent (blake3 : Bytes → MessageId) {event : TopicInEvent} (h : event.spreads = false)
    (nowMs : ℕ) : Keeps (·.seenMessages) (handleEvent blake3 event nowMs) ∧
      Returns Controls (handleEvent blake3 event nowMs) := by
 have hs : ∀ s, _:=fun s : GossipTopicState=>
  (seen_viewsClosed s.me s.seenMessages).handleEvent blake3 h nowMs ⟨rfl,rfl⟩ fun _ _=>trivial
 exact ⟨fun s=>(hs s).1.2,fun s=>(hs s).2⟩

end GossipTopicState

end Enlace.Gossip
