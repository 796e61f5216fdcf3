import Mathlib.Data.List.TakeWhile
import Enlace.Lite.Router

set_option autoImplicit false

/-! Runs of a `RelayDatagramRouter`: registrations, closes and readers of its connections, in any
order among the frames that the relay delivers. -/
namespace Enlace.Lite
open ByteString Throwing Enlace.Quic List Router

inductive RouterEvent (ι : Type) where
  | registerConnectionId (connectionId : Bytes) (c : ι)
  | registerAccept (c : ι)
  | unregister (c : ι)
  | receiveDatagrams (c : ι) (promise : ℕ)
  | frame (frame : ReceiveFrame)

/-- A handover with what held of its id before: the connection that registered it and the accepting connection that its
datagrams went to, both unless closed since. -/
structure HandoverRecord (ι : Type) where
  handover : Handover ι
  registrant : Option ι
  occupant : Option ι
  deriving DecidableEq

structure Ledger (ι : Type) where
  registrants : Bytes → Option ι
  occupants : Bytes → Option ι
  records : List (HandoverRecord ι)

structure Traffic (ι : Type) where
  router : Router ι
  ledger : Ledger ι

def Traffic.create {ι : Type} : Traffic ι := ⟨Router.create, ⟨fun _ => none, fun _ => none, []⟩⟩

variable {ι : Type}

def frameOf : RouterEvent ι → Option ReceiveFrame
  | .frame frame => some frame
  | _ => none

variable {e : RouterEvent ι}

variable [DecidableEq ι]

def Ledger.register (connectionId : Bytes) (c : ι) (l : Ledger ι) : Ledger ι :=
  { l with registrants := Function.update l.registrants connectionId (some c) }

def Ledger.close (c : ι) (l : Ledger ι) : Ledger ι :=
  { l with
    registrants := fun key => (l.registrants key).filter (· ≠ c)
    occupants := fun key => (l.occupants key).filter (· ≠ c) }

def Ledger.note (l : Ledger ι) : Option (Handover ι) → Ledger ι
  | none => l
  | some h =>
    { l with
      records := l.records ++ [⟨h, l.registrants h.key, l.occupants h.key⟩]
      occupants := if h.taken then Function.update l.occupants h.key (some h.connection) else l.occupants }

def Traffic.apply (t : Traffic ι) : RouterEvent ι → Traffic ι
  | .registerConnectionId connectionId c =>
    ⟨t.router.registerConnectionId connectionId c, t.ledger.register connectionId c⟩
  | .registerAccept c =>
    match Router.registerAccept c t.router with
    | .ok handover router => ⟨router, t.ledger.note handover⟩
    | .error _ router => ⟨router, t.ledger⟩
  | .unregister c => ⟨t.router.unregister c (.error "connection is closed"), t.ledger.close c⟩
  | .receiveDatagrams c promise => ⟨t.router.receiveDatagrams c promise, t.ledger⟩
  | .frame frame =>
    -- without its loop the router leaves the frames where they are
    if t.router.reading then ⟨(t.router.readFrame frame).1, t.ledger.note (t.router.readFrame frame).2⟩
    else t

def Traffic.run (t : Traffic ι) (events : List (RouterEvent ι)) : Traffic ι := events.foldl apply t

def Traffic.handedTo (t : Traffic ι) (c : ι) : List Datagrams :=
  (t.ledger.records.filter fun r => r.handover.connection = c).map fun r => r.handover.datagrams

namespace Traffic

variable {t u : Traffic ι} {b : Bool}

lemma apply_registerAccept (t : Traffic ι) (c : ι) :
    (t.apply (.registerAccept c)).router = final (Router.registerAccept c t.router) := by
 rw [apply]
 split
 · rename_i h
   rw [h]
   rfl
 · rename_i h
   rw [h]
   rfl

lemma looping_apply (h : t.router.Looping b) (he : frameOf e = none) : (t.apply e).router.Looping b := by
 cases e with
 | registerConnectionId cid c => exact Router.Looping.ensureReadLoop h
 | registerAccept c =>
  rw [apply_registerAccept]
  exact h.registerAccept c
 | unregister c => exact h
 | receiveDatagrams c promise => exact h.receiveDatagrams c promise
 | frame frame => cases he

variable (events : List (RouterEvent ι))

def plainDatagrams (contents : Bytes) : Datagrams := ⟨List.replicate 32 0, none, none, contents⟩

def shortHeaderDatagrams (connectionId : Bytes) : Datagrams := plainDatagrams (0x40 :: connectionId ++ [0, 0])

end Traffic

end Enlace.Lite
