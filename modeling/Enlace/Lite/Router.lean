import Enlace.Lib.Transition
import Enlace.Quic.Packet
import Enlace.Lib.Throwing

set_option autoImplicit false

/-! `RelayDatagramRouter` of `endpoint/internal.ts`. Connections are values of a type with decidable
equality, a route is keyed by the bytes of the connection id, and a promise is a number. -/
namespace Enlace.Lite
open ByteString Fallible Throwing Enlace.Quic

def connectionIdLength : ℕ := 8

def routeKeyForDatagrams (datagrams : Datagrams) : Outcome Bytes := do
  let packets ← splitRelayDatagramPackets datagrams
  match packets.head? with
  | none => throwRange "relay QUIC datagram is empty"
  | some packet =>
    match packet[0]? with
    | none => throwRange "relay QUIC datagram is empty"
    | some firstByte =>
      if isLongHeader firstByte then do
        let header ← parseQuicLongHeader packet 0
        return header.destinationConnectionId
      else return subarray packet 1 (1 + connectionIdLength)

/-- What the transport hands to the read loop; `ended` is the `null` of a closed transport. -/
inductive ReceiveFrame where
  | pong
  | status
  | restarting
  | endpointGone
  | health (problem : String)
  | datagrams (datagrams : Datagrams)
  | ended

structure Routing (ι : Type) where
  connectionIdRoutes : Bytes → Option ι
  acceptingConnections : List ι
  pendingAcceptDatagrams : List Datagrams

/-- `waiters` lists the waiting promises of all connections, oldest first, `settled` those that were resolved or
rejected. The read loop awaits a frame while it is `reading`. -/
structure Router (ι : Type) extends Routing ι where
  queued : ι → List Datagrams
  waiters : List (ι × ℕ)
  readLoopStarted : Bool
  reading : Bool
  terminalError : Option Thrown
  settled : List (ℕ × Outcome Datagrams)

/-- The frames after which the read loop reads no more. -/
def endsReadLoop : ReceiveFrame → Bool
  | .ended => true
  | .health _ => true
  | .datagrams datagrams => !(routeKeyForDatagrams datagrams).isOk
  | _ => false

structure Handover (ι : Type) where
  connection : ι
  datagrams : Datagrams
  key : Bytes
  taken : Bool
  deriving DecidableEq

namespace Router

variable {ι : Type}

def ensureReadLoop (r : Router ι) : Router ι :=
  if r.readLoopStarted || r.terminalError.isSome then r
  else { r with readLoopStarted := true, reading := true }

def create : Router ι :=
  ensureReadLoop ⟨⟨fun _ => none, [], []⟩, fun _ => [], [], false, false, none, []⟩

variable {r : Router ι}

lemma ensureReadLoop_of_started (h : r.readLoopStarted = true) : r.ensureReadLoop = r := by
 rw [ensureReadLoop,h]
 rfl

@[simp] lemma toRouting_ensureReadLoop (r : Router ι) : r.ensureReadLoop.toRouting = r.toRouting := by
 unfold ensureReadLoop
 split <;> rfl

def fail (error : Thrown) (r : Router ι) : Router ι :=
  match r.terminalError with
  | some _ => r
  | none =>
    { r with
      terminalError := some error
      settled := r.settled ++ r.waiters.map fun w => (w.2, .error error)
      waiters := [] }

@[simp] lemma toRouting_fail (error : Thrown) (r : Router ι) : (r.fail error).toRouting = r.toRouting := by
 unfold fail
 split <;> rfl

@[simp] lemma readLoopStarted_fail (error : Thrown) (r : Router ι) :
    (r.fail error).readLoopStarted = r.readLoopStarted := by
 unfold fail
 split <;> rfl

def Looping (r : Router ι) (b : Bool) : Prop := r.readLoopStarted = true ∧ r.reading = b

section
variable {r : Router ι} {b : Bool}

lemma Looping.ensureReadLoop (h : r.Looping b) : r.ensureReadLoop.Looping b := by
 rw [ensureReadLoop_of_started h.1]
 exact h

lemma Looping.fail (h : r.Looping b) (e : Thrown) : ({ r.fail e with reading := false } : Router ι).Looping false :=
 ⟨(readLoopStarted_fail e r).trans h.1,rfl⟩

end

variable [DecidableEq ι]

def setRoute (r : Router ι) (key : Bytes) (c : ι) : Router ι :=
  { r with connectionIdRoutes := Function.update r.connectionIdRoutes key (some c) }

def registerConnectionId (connectionId : Bytes) (c : ι) (r : Router ι) : Router ι :=
  ensureReadLoop (r.setRoute connectionId c)

def enqueue (c : ι) (datagrams : Datagrams) (r : Router ι) : Router ι :=
  match r.waiters.find? fun w => w.1 = c with
  | some w =>
    { r with
      waiters := r.waiters.eraseP fun w => w.1 = c
      settled := r.settled ++ [(w.2, .ok datagrams)] }
  | none => { r with queued := Function.update r.queued c (r.queued c ++ [datagrams]) }

def registerAccept (c : ι) : EStateM Thrown (Router ι) (Option (Handover ι)) := do
  let r ← get
  match r.pendingAcceptDatagrams with
  | datagrams :: rest => do
    set { r with pendingAcceptDatagrams := rest }
    let key ← lift (routeKeyForDatagrams datagrams)
    modify fun r => (r.setRoute key c).enqueue c datagrams
    return some ⟨c, datagrams, key, true⟩
  | [] => do
    set (ensureReadLoop { r with acceptingConnections := r.acceptingConnections ++ [c] })
    return none

def unregister (c : ι) (error : Thrown) (r : Router ι) : Router ι :=
  { r with
    acceptingConnections := r.acceptingConnections.erase c
    settled := r.settled ++ (r.waiters.filter fun w => w.1 = c).map fun w => (w.2, .error error)
    waiters := r.waiters.filter fun w => w.1 ≠ c
    queued := Function.update r.queued c []
    connectionIdRoutes := fun key =>
      if r.connectionIdRoutes key = some c then none else r.connectionIdRoutes key }

def receiveDatagrams (c : ι) (promise : ℕ) (r : Router ι) : Router ι :=
  match r.queued c with
  | datagrams :: rest =>
    { r with
      queued := Function.update r.queued c rest
      settled := r.settled ++ [(promise, .ok datagrams)] }
  | [] =>
    match r.terminalError with
    | some error => { r with settled := r.settled ++ [(promise, .error error)] }
    | none =>
      let r := ensureReadLoop r
      { r with waiters := r.waiters ++ [(c, promise)] }

def route (datagrams : Datagrams) : EStateM Thrown (Router ι) (Option (Handover ι)) := do
  let key ← lift (routeKeyForDatagrams datagrams)
  let r ← get
  match r.connectionIdRoutes key with
  | some c => do
    set (r.enqueue c datagrams)
    return some ⟨c, datagrams, key, false⟩
  | none =>
    match r.acceptingConnections with
    | c :: rest => do
      set (({ r with acceptingConnections := rest }.setRoute key c).enqueue c datagrams)
      return some ⟨c, datagrams, key, true⟩
    | [] => do
      set { r with pendingAcceptDatagrams := r.pendingAcceptDatagrams ++ [datagrams] }
      return none

/-- One round of the loop of `readLoop`, whose `catch` ends it. -/
def readFrame (frame : ReceiveFrame) (r : Router ι) : Router ι × Option (Handover ι) :=
  match frame with
  | .ended => ({ r with reading := false }, none)
  | .datagrams datagrams =>
    match route datagrams r with
    | .ok handover r => (r, handover)
    | .error error r => ({ r.fail error with reading := false }, none)
  | .health problem =>
    ({ r.fail (.error ("relay reported health problem: " ++ problem)) with reading := false }, none)
  | _ => (r, none)

@[simp] lemma toRouting_enqueue (c : ι) (d : Datagrams) (r : Router ι) : (r.enqueue c d).toRouting = r.toRouting := by
 unfold enqueue
 split <;> rfl

@[simp] lemma readLoopStarted_enqueue (c : ι) (d : Datagrams) (r : Router ι) :
    (r.enqueue c d).readLoopStarted = r.readLoopStarted := by
 unfold enqueue
 split <;> rfl

@[simp] lemma reading_enqueue (c : ι) (d : Datagrams) (r : Router ι) : (r.enqueue c d).reading = r.reading := by
 unfold enqueue
 split <;> rfl

lemma toRouting_receiveDatagrams (c : ι) (promise : ℕ) (r : Router ι) :
    (r.receiveDatagrams c promise).toRouting = r.toRouting := by
 unfold receiveDatagrams
 split
 · rfl
 · split
   · rfl
   · exact toRouting_ensureReadLoop r

variable {d : Datagrams}

lemma route_of_error {e : Thrown} (h : routeKeyForDatagrams d = .error e) (r : Router ι) : route d r = .error e r :=
 bind_error (by rw [h]; rfl)

variable {key : Bytes}

section
variable (h : routeKeyForDatagrams d = .ok key)
include h

lemma route_of_routed {c : ι} (hc : r.connectionIdRoutes key = some c) :
    route d r = .ok (some ⟨c, d, key, false⟩) (r.enqueue c d) := by
 rw [route,bind_ok (by rw [h]; rfl),get_bind,hc]
 rfl

lemma route_of_accepting {c : ι} {rest : List ι} (hn : r.connectionIdRoutes key = none)
    (hc : r.acceptingConnections = c :: rest) : route d r = .ok (some ⟨c, d, key, true⟩)
      (({ r with acceptingConnections := rest }.setRoute key c).enqueue c d) := by
 rw [route,bind_ok (by rw [h]; rfl),get_bind,hn,hc]
 rfl

lemma route_of_pending (hn : r.connectionIdRoutes key = none) (hc : r.acceptingConnections = []) :
    route d r = .ok none { r with pendingAcceptDatagrams := r.pendingAcceptDatagrams ++ [d] } := by
 rw [route,bind_ok (by rw [h]; rfl),get_bind,hn,hc]
 rfl

end

lemma registerAccept_of_pending {rest : List Datagrams}
    (hd : r.pendingAcceptDatagrams = d :: rest) (h : routeKeyForDatagrams d = .ok key) (c : ι) :
    registerAccept c r = .ok (some ⟨c, d, key, true⟩)
      (({ r with pendingAcceptDatagrams := rest }.setRoute key c).enqueue c d) := by
 rw [registerAccept,get_bind,hd]
 dsimp only
 rw [set_bind,bind_ok (by rw [h]; rfl)]
 rfl

lemma registerAccept_of_error {rest : List Datagrams} {e : Thrown}
    (hd : r.pendingAcceptDatagrams = d :: rest) (h : routeKeyForDatagrams d = .error e) (c : ι) :
    registerAccept c r = .error e { r with pendingAcceptDatagrams := rest } := by
 rw [registerAccept,get_bind,hd]
 dsimp only
 rw [set_bind,bind_error (by rw [h]; rfl)]

lemma registerAccept_of_none (hd : r.pendingAcceptDatagrams = []) (c : ι) : registerAccept c r =
      .ok none (ensureReadLoop { r with acceptingConnections := r.acceptingConnections ++ [c] }) := by
 rw [registerAccept,get_bind,hd]
 rfl

variable {r : Router ι} {b : Bool}

lemma Looping.enqueue (h : r.Looping b) (c : ι) (d : Datagrams) : (r.enqueue c d).Looping b :=
 ⟨(readLoopStarted_enqueue c d r).trans h.1,(reading_enqueue c d r).trans h.2⟩

lemma Looping.registerAccept (h : r.Looping b) (c : ι) : (final (registerAccept c r)).Looping b := by
 cases hd : r.pendingAcceptDatagrams with
 | nil =>
  rw [registerAccept_of_none hd]
  exact Looping.ensureReadLoop h
 | cons d rest =>
  cases hk : routeKeyForDatagrams d with
  | error e =>
   rw [registerAccept_of_error hd hk]
   exact h
  | ok key =>
   rw [registerAccept_of_pending hd hk]
   refine Looping.enqueue ?_ c d
   exact h

lemma Looping.receiveDatagrams (h : r.Looping b) (c : ι) (promise : ℕ) :
    (r.receiveDatagrams c promise).Looping b := by
 unfold Router.receiveDatagrams
 split
 · exact h
 · split
   · exact h
   · exact h.ensureReadLoop

lemma Looping.route (h : r.Looping b) (hk : routeKeyForDatagrams d = .ok key) :
    ∃ handover r', Router.route d r = .ok handover r' ∧ r'.Looping b := by
 cases hc : r.connectionIdRoutes key with
 | some c => exact ⟨_,_,route_of_routed hk hc,h.enqueue c d⟩
 | none =>
  cases ha : r.acceptingConnections with
  | cons c rest =>
   refine ⟨_,_,route_of_accepting hk hc ha,Looping.enqueue ?_ c d⟩
   exact h
  | nil => exact ⟨_,_,route_of_pending hk hc ha,h⟩

lemma Looping.readFrame (h : r.Looping true) (frame : ReceiveFrame) :
    (r.readFrame frame).1.Looping (!endsReadLoop frame) := by
 cases frame with
 | pong | status | restarting | endpointGone => exact h
 | ended => exact ⟨h.1,rfl⟩
 | health problem => exact h.fail _
 | datagrams d =>
  cases hk : routeKeyForDatagrams d with
  | error e =>
   rw [Router.readFrame,route_of_error hk,endsReadLoop,hk]
   exact h.fail e
  | ok key =>
   obtain ⟨handover,r',hr,hr'⟩:=h.route hk
   rw [Router.readFrame,hr,endsReadLoop,hk]
   exact hr'

end Router

end Enlace.Lite
