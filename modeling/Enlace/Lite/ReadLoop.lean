import Enlace.Lite.Traffic
import Enlace.Lite.Transport

set_option autoImplicit false

/-! The read loop of a `RelayDatagramRouter` on a `ReconnectingRelayTransport`, with everything that may happen to the
two while it waits. -/
namespace Enlace.Lite
open ByteString Fallible Throwing Transition Enlace.Crypto Enlace.Quic List Option Router Traffic

/-- What the read loop awaits. `connecting` and `sleeping` are in `connectLoop`, `refused` is its rejection, `connected`
has the client that `connectedClient` has returned. -/
inductive ReadPoint where
  | connecting
  | sleeping
  | refused
  | connected (client : RelayWebSocketClient)
  | receiving (client : RelayWebSocketClient)
  | ended
  deriving DecidableEq

structure RelayEndpoint (ι : Type) where
  endpointId : Bytes
  transport : ReconnectingRelayTransport
  traffic : Traffic ι
  point : ReadPoint

inductive EndpointEvent (ι : Type) where
  | close
  | call (event : RouterEvent ι)
  | sendDatagrams (datagrams : Datagrams)
  | socketClosed
  | pingDue (ping : Bytes)
  | pingElapsed (client : RelayWebSocketClient)
  | connected (client : RelayWebSocketClient) (endpointId ping : Bytes)
  | connectFailed
  | slept
  | resumed
  | received (frame : ReceiveFrame) (ping : Bytes)
  | pong (data ping : Bytes)
  | receiveFailed (ping : Bytes)

namespace RelayEndpoint

variable {ι : Type} [DecidableEq ι]

def returnNull (endpoint : RelayEndpoint ι) : RelayEndpoint ι :=
  { endpoint with traffic := endpoint.traffic.apply (.frame .ended), point := .ended }

def catchError (error : Thrown) (endpoint : RelayEndpoint ι) : RelayEndpoint ι :=
  { endpoint with
    traffic := { endpoint.traffic with router := { endpoint.traffic.router.fail error with reading := false } }
    point := .ended }

/-- The head of the loop in `receive`, with `connectedClient` up to where it waits. -/
def readOn (ping : Bytes) (endpoint : RelayEndpoint ι) : RelayEndpoint ι :=
  if endpoint.transport.closed then endpoint.returnNull
  else
    match endpoint.transport.client with
    | some client =>
      { endpoint with transport := endpoint.transport.ensurePingInterval ping, point := .connected client }
    | none => { endpoint with point := .connecting }

/-- A frame that `receive` returns, and the next round of `readLoop` if there is one. -/
def readFrame (frame : ReceiveFrame) (ping : Bytes) (endpoint : RelayEndpoint ι) : RelayEndpoint ι :=
  let read := { endpoint with traffic := endpoint.traffic.apply (.frame frame) }
  if read.traffic.router.reading then read.readOn ping else { read with point := .ended }

def connect (client : RelayWebSocketClient) (endpointId ping : Bytes) (endpoint : RelayEndpoint ι) : RelayEndpoint ι :=
  if endpoint.transport.closed then
    { endpoint with transport := endpoint.transport.drop client, point := .refused }
  else if endpointId ≠ endpoint.endpointId then
    { endpoint with transport := (endpoint.transport.drop client).nextReconnectDelayMs, point := .sleeping }
  else
    { endpoint with
      transport := { endpoint.transport with client := some client }.ensurePingInterval ping
      point := .connected client }

def bind (endpointId : Bytes) (client : RelayWebSocketClient) (ping : Bytes) : RelayEndpoint ι :=
  readOn ping ⟨endpointId, ⟨some client, false, false, none, relayReconnectMinDelayMs, false, false, [], []⟩,
    Traffic.create, .connected client⟩

def onTransport (P : Primitives) (transport : ReconnectingRelayTransport) :
    EndpointEvent ι → Option ReconnectingRelayTransport
  | .close => some transport.close
  | .sendDatagrams datagrams => some (final (ReconnectingRelayTransport.sendDatagrams P datagrams transport))
  | .socketClosed =>
    some { transport with client := transport.client.map fun client => { client with ready := false } }
  | .pingDue ping => if transport.pingInterval then some (transport.sendPing ping) else none
  | .pingElapsed client => if transport.pingTimeout then some (transport.disconnectClient client) else none
  | _ => none

def onReadPoint (endpoint : RelayEndpoint ι) : ReadPoint → EndpointEvent ι → Option (RelayEndpoint ι)
  | .connecting, .connected client endpointId ping => some (endpoint.connect client endpointId ping)
  | .connecting, .connectFailed =>
    some { endpoint with transport := endpoint.transport.nextReconnectDelayMs, point := .sleeping }
  | .sleeping, .slept => some { endpoint with point := if endpoint.transport.closed then .refused else .connecting }
  | .refused, .resumed => some (endpoint.catchError (.error "relay transport is closed"))
  | .connected client, .resumed =>
    some (if endpoint.transport.closed then endpoint.returnNull else { endpoint with point := .receiving client })
  | .receiving _, .received .ended _ => none
  | .receiving _, .received .pong _ => none
  | .receiving _, .received frame ping => some (endpoint.readFrame frame ping)
  | .receiving _, .pong data ping =>
    some ({ endpoint with transport := endpoint.transport.handlePong data }.readFrame .pong ping)
  | .receiving client, .receiveFailed ping =>
    some ({ endpoint with transport := endpoint.transport.disconnectClient client }.readOn ping)
  | _, _ => none

def step (P : Primitives) (endpoint : RelayEndpoint ι) (event : EndpointEvent ι) : Option (RelayEndpoint ι) :=
  match event with
  | .call (.frame _) => none
  | .call event => some { endpoint with traffic := endpoint.traffic.apply event }
  | event =>
    match onTransport P endpoint.transport event with
    | some transport => some { endpoint with transport := transport }
    | none => endpoint.onReadPoint endpoint.point event

/-- Once the read loop has ended nobody waits, and whoever asks for more is turned away. -/
def NoReaderWaits (P : Primitives) (endpoint : RelayEndpoint ι) : Prop :=
  endpoint.traffic.router.reading = false → ∀ events later, Runs (step P) endpoint events later →
    later.traffic.router.waiters = [] ∧ ∀ c promise, later.traffic.router.queued c = [] →
        (later.traffic.router.receiveDatagrams c promise).waiters = [] ∧
          ∃ error, (later.traffic.router.receiveDatagrams c promise).settled =
            later.traffic.router.settled ++ [(promise, .error error)]

def ComesBack : ReadPoint → EndpointEvent ι → Prop
  | .connected _, .resumed => True
  | .receiving _, .received frame _ => endsReadLoop frame = false
  | .receiving _, .pong _ _ => True
  | .receiving _, .receiveFailed _ => True
  | _, _ => False

/-- The loop comes back from a client and finds the transport closed. -/
def FindsClosed (endpoint : RelayEndpoint ι) (event : EndpointEvent ι) : Prop :=
  endpoint.transport.closed = true ∧ ComesBack endpoint.point event

end RelayEndpoint

namespace Router

variable {ι : Type} {r : Router ι}

/-- The three states of the read loop: it reads, it has failed, or it has stopped without an error. -/
def Reads (r : Router ι) : Prop := r.Looping true ∧ r.terminalError = none

def Failed (r : Router ι) : Prop := r.Looping false ∧ r.terminalError ≠ none ∧ r.waiters = []

def Stopped (r : Router ι) : Prop := r.Looping false ∧ r.terminalError = none

lemma fail_of_none {e : Thrown} (h : r.terminalError = none) :
    (r.fail e).terminalError = some e ∧ (r.fail e).waiters = [] := by
 rw [fail,h]
 exact ⟨rfl,rfl⟩

lemma Reads.fail (h : r.Reads) (e : Thrown) : ({ r.fail e with reading := false } : Router ι).Failed := by
 obtain ⟨her,hw⟩:=fail_of_none (e := e) h.2
 exact ⟨h.1.fail e,by rw [her]; exact some_ne_none e,hw⟩

@[simp] lemma terminalError_ensureReadLoop (r : Router ι) : r.ensureReadLoop.terminalError = r.terminalError := by
 unfold ensureReadLoop
 split <;> rfl

@[simp] lemma waiters_ensureReadLoop (r : Router ι) : r.ensureReadLoop.waiters = r.waiters := by
 unfold ensureReadLoop
 split <;> rfl

variable [DecidableEq ι]

@[simp] lemma terminalError_enqueue (c : ι) (d : Datagrams) (r : Router ι) :
    (r.enqueue c d).terminalError = r.terminalError := by
 unfold enqueue
 split <;> rfl

lemma waiters_enqueue_of_nil {c : ι} {d : Datagrams} (h : r.waiters = []) : (r.enqueue c d).waiters = [] := by
 rw [enqueue,h,find?_nil]

lemma Reads.route (h : r.Reads) {d : Datagrams} {key : Bytes} (hk : routeKeyForDatagrams d = .ok key) :
    ∃ handover r', Router.route d r = .ok handover r' ∧ r'.Reads := by
 cases hc : r.connectionIdRoutes key with
 | some c => exact ⟨_,_,route_of_routed hk hc,h.1.enqueue c d,(terminalError_enqueue c d r).trans h.2⟩
 | none =>
  cases ha : r.acceptingConnections with
  | cons c rest =>
   refine ⟨_,_,route_of_accepting hk hc ha,Looping.enqueue ?_ c d,(terminalError_enqueue c d _).trans ?_⟩
   · exact h.1
   · exact h.2
  | nil => exact ⟨_,_,route_of_pending hk hc ha,h.1,h.2⟩

lemma Reads.readFrame (h : r.Reads) (frame : ReceiveFrame) :
    (r.readFrame frame).1.Reads ∧ endsReadLoop frame = false ∨
      (r.readFrame frame).1.Failed ∧ endsReadLoop frame = true ∨ (r.readFrame frame).1.Stopped ∧ frame = .ended := by
 cases frame with
 | pong | status | restarting | endpointGone => exact .inl ⟨h,rfl⟩
 | ended => exact .inr (.inr ⟨⟨⟨h.1.1,rfl⟩,h.2⟩,rfl⟩)
 | health problem => exact .inr (.inl ⟨h.fail _,rfl⟩)
 | datagrams d =>
  cases hk : routeKeyForDatagrams d with
  | error e =>
   rw [Router.readFrame,route_of_error hk,endsReadLoop,hk]
   exact .inr (.inl ⟨h.fail e,rfl⟩)
  | ok key =>
   obtain ⟨handover,r',hr,hr'⟩:=h.route hk
   rw [Router.readFrame,hr,endsReadLoop,hk]
   exact .inl ⟨hr',rfl⟩

lemma registerAccept_terminalError (c : ι) (r : Router ι) :
    (final (registerAccept c r)).terminalError = r.terminalError := by
 cases hd : r.pendingAcceptDatagrams with
 | nil =>
  rw [registerAccept_of_none hd]
  exact terminalError_ensureReadLoop _
 | cons d rest =>
  cases hk : routeKeyForDatagrams d with
  | error e =>
   rw [registerAccept_of_error hd hk]
   rfl
  | ok key =>
   rw [registerAccept_of_pending hd hk]
   exact terminalError_enqueue c d _

lemma registerAccept_waiters (h : r.waiters = []) (c : ι) : (final (registerAccept c r)).waiters = [] := by
 cases hd : r.pendingAcceptDatagrams with
 | nil =>
  rw [registerAccept_of_none hd]
  exact (waiters_ensureReadLoop _).trans h
 | cons d rest =>
  cases hk : routeKeyForDatagrams d with
  | error e =>
   rw [registerAccept_of_error hd hk]
   exact h
  | ok key =>
   rw [registerAccept_of_pending hd hk]
   refine waiters_enqueue_of_nil ?_
   exact h

lemma receiveDatagrams_terminalError (c : ι) (promise : ℕ) (r : Router ι) :
    (r.receiveDatagrams c promise).terminalError = r.terminalError := by
 unfold receiveDatagrams
 split
 · rfl
 · split
   · rfl
   · exact terminalError_ensureReadLoop r

lemma Failed.receiveDatagrams (h : r.Failed) (c : ι) (promise : ℕ) : (r.receiveDatagrams c promise).waiters = [] ∧
      (r.queued c = [] → ∃ error, (r.receiveDatagrams c promise).settled = r.settled ++ [(promise, .error error)]) := by
 obtain ⟨error,her⟩:=ne_none_iff_exists'.mp h.2.1
 rw [Router.receiveDatagrams,her]
 cases r.queued c with
 | nil => exact ⟨h.2.2,fun _=>⟨error,rfl⟩⟩
 | cons d rest => exact ⟨h.2.2,fun hn=>absurd hn (cons_ne_nil _ _)⟩

lemma Stopped.receiveDatagrams (h : r.Stopped) {c : ι} (hq : r.queued c = []) (promise : ℕ) :
    (r.receiveDatagrams c promise).waiters = r.waiters ++ [(c, promise)] := by
 rw [Router.receiveDatagrams,hq,h.2]
 rw [ensureReadLoop_of_started h.1.1]

end Router

namespace Traffic

variable {ι : Type} [DecidableEq ι] {t : Traffic ι} {e : RouterEvent ι} (he : frameOf e = none)
include he

lemma terminalError_apply : (t.apply e).router.terminalError = t.router.terminalError := by
 cases e with
 | registerConnectionId cid c => exact terminalError_ensureReadLoop _
 | registerAccept c =>
  rw [apply_registerAccept]
  exact registerAccept_terminalError c t.router
 | unregister c => rfl
 | receiveDatagrams c promise => exact receiveDatagrams_terminalError c promise t.router
 | frame frame => cases he

lemma reads_apply (h : t.router.Reads) : (t.apply e).router.Reads :=
 ⟨looping_apply h.1 he,(terminalError_apply he).trans h.2⟩

lemma stopped_apply (h : t.router.Stopped) : (t.apply e).router.Stopped :=
 ⟨looping_apply h.1 he,(terminalError_apply he).trans h.2⟩

lemma failed_apply (h : t.router.Failed) : (t.apply e).router.Failed := by
 refine ⟨looping_apply h.1 he,fun hn=>h.2.1 ((terminalError_apply he).symm.trans hn),?_⟩
 cases e with
 | registerConnectionId cid c => exact (waiters_ensureReadLoop _).trans h.2.2
 | registerAccept c =>
  rw [apply_registerAccept]
  exact registerAccept_waiters h.2.2 c
 | unregister c =>
  change t.router.waiters.filter _ = []
  rw [h.2.2,filter_nil]
 | receiveDatagrams c promise => exact (h.receiveDatagrams c promise).1
 | frame frame => cases he

end Traffic

namespace RelayEndpoint

variable {ι : Type} [DecidableEq ι] {P : Primitives} {endpoint after : RelayEndpoint ι}

def Sound (endpoint : RelayEndpoint ι) : Prop :=
  endpoint.traffic.router.Reads ∧ endpoint.point ≠ .ended ∨ endpoint.traffic.router.Failed ∧ endpoint.point = .ended

def Silent (endpoint : RelayEndpoint ι) : Prop := endpoint.traffic.router.Stopped ∧ endpoint.point = .ended

variable {event : EndpointEvent ι}

lemma step_cases (h : endpoint.step P event = some after) :
    (∃ e, frameOf e = none ∧ event = .call e ∧ after = { endpoint with traffic := endpoint.traffic.apply e }) ∨
      (∃ transport, onTransport P endpoint.transport event = some transport ∧
        after = { endpoint with transport := transport }) ∨
      endpoint.onReadPoint endpoint.point event = some after := by
 have ho : (match onTransport P endpoint.transport event with
   | some transport => some { endpoint with transport := transport }
   | none => endpoint.onReadPoint endpoint.point event) = some after →
   (∃ transport, onTransport P endpoint.transport event = some transport ∧
    after = { endpoint with transport := transport }) ∨
    endpoint.onReadPoint endpoint.point event = some after := by
  intro h
  cases ht : onTransport P endpoint.transport event with
  | some transport =>
   rw [ht] at h
   exact .inl ⟨transport,rfl,(some.inj h).symm⟩
  | none =>
   rw [ht] at h
   exact .inr h
 cases event with
 | call e =>
  cases e with
  | frame frame => cases h
  | registerConnectionId cid c | registerAccept c | unregister c | receiveDatagrams c promise =>
   exact .inl ⟨_,rfl,rfl,(some.inj h).symm⟩
 | close | sendDatagrams dgs | socketClosed | pingDue ping | pingElapsed client
 | connected client endpointId ping | connectFailed | slept | resumed | received frame ping | pong data ping
 | receiveFailed ping => exact .inr (ho h)

omit [DecidableEq ι] in
lemma not_comesBack_call (point : ReadPoint) (e : RouterEvent ι) : ¬ ComesBack point (.call e) := by
 cases point <;> exact id

omit [DecidableEq ι] in
lemma not_comesBack_of_transport {tr after : ReconnectingRelayTransport}
    (h : onTransport P tr event = some after) (point : ReadPoint) : ¬ ComesBack point event := by
 cases event <;> first | (cases point <;> exact id) | cases h

section
variable (h : endpoint.traffic.router.Reads)
include h

lemma silent_returnNull : endpoint.returnNull.Silent := by
 refine ⟨?_,rfl⟩
 change (endpoint.traffic.apply (.frame .ended)).router.Stopped
 rw [apply,if_pos h.1.2]
 exact ⟨⟨h.1.1,rfl⟩,h.2⟩

lemma sound_readOn (hopen : endpoint.transport.closed = false) (ping : Bytes) : (endpoint.readOn ping).Sound := by
 rw [readOn,hopen]
 cases endpoint.transport.client with
 | some client | none => exact .inl ⟨h,ReadPoint.noConfusion⟩

lemma silent_readOn (hc : endpoint.transport.closed = true) (ping : Bytes) : (endpoint.readOn ping).Silent := by
 rw [readOn,hc]
 exact silent_returnNull h

omit [DecidableEq ι] in
lemma sound_connect (client : RelayWebSocketClient) (endpointId ping : Bytes) :
    (endpoint.connect client endpointId ping).Sound := by
 unfold connect
 split_ifs
 · exact .inl ⟨h,ReadPoint.noConfusion⟩
 · exact .inl ⟨h,ReadPoint.noConfusion⟩
 · exact .inl ⟨h,ReadPoint.noConfusion⟩

lemma readFrame_cases {frame : ReceiveFrame} (hfr : frame ≠ .ended) (ping : Bytes) :
    ¬ (endpoint.transport.closed = true ∧ endsReadLoop frame = false) ∧ (endpoint.readFrame frame ping).Sound ∨
      (endpoint.transport.closed = true ∧ endsReadLoop frame = false) ∧ (endpoint.readFrame frame ping).Silent := by
 have hro : (endpoint.traffic.apply (.frame frame)).router = (endpoint.traffic.router.readFrame frame).1 := by
  rw [apply,if_pos h.1.2]
 rw [readFrame]
 rcases h.readFrame frame with ⟨hr,hg⟩|⟨hf,hes⟩|⟨_,hen⟩
 · rw [← hro] at hr
   rw [if_pos hr.1.2]
   have hn : ({ endpoint with traffic := endpoint.traffic.apply (.frame frame) } :
     RelayEndpoint ι).traffic.router.Reads := hr
   cases hc : endpoint.transport.closed with
   | false => exact .inl ⟨fun hb=>absurd hb.1 Bool.false_ne_true,sound_readOn hn hc ping⟩
   | true => exact .inr ⟨⟨rfl,hg⟩,silent_readOn hn hc ping⟩
 · rw [← hro] at hf
   rw [if_neg (by rw [hf.1.2]; exact Bool.false_ne_true)]
   refine .inl ⟨fun hb=>?_,.inr ⟨hf,rfl⟩⟩
   rw [hes] at hb
   cases hb.2
 · exact absurd hen hfr

end

lemma Sound.onReadPoint (h : endpoint.Sound) (hs : endpoint.onReadPoint endpoint.point event = some after) :
    ¬ endpoint.FindsClosed event ∧ after.Sound ∨ endpoint.FindsClosed event ∧ after.Silent := by
 rcases h with ⟨hr,_⟩|⟨_,hen⟩
 · rw [FindsClosed]
   cases hp : endpoint.point with
   | ended =>
    rw [hp] at hs
    cases hs
   | connecting =>
    rw [hp] at hs
    cases event <;> cases hs
    · exact .inl ⟨And.right,sound_connect hr _ _ _⟩
    · exact .inl ⟨And.right,.inl ⟨hr,ReadPoint.noConfusion⟩⟩
   | sleeping =>
    rw [hp] at hs
    cases event <;> cases hs
    refine .inl ⟨And.right,.inl ⟨hr,?_⟩⟩
    split_ifs
    · exact ReadPoint.noConfusion
    · exact ReadPoint.noConfusion
   | refused =>
    rw [hp] at hs
    cases event <;> cases hs
    exact .inl ⟨And.right,.inr ⟨hr.fail _,rfl⟩⟩
   | connected client =>
    rw [hp] at hs
    cases event <;> cases hs
    cases hc : endpoint.transport.closed with
    | true => exact .inr ⟨⟨rfl,trivial⟩,silent_returnNull hr⟩
    | false => exact .inl ⟨fun hb=>absurd hb.1 Bool.false_ne_true,.inl ⟨hr,ReadPoint.noConfusion⟩⟩
   | receiving client =>
    rw [hp] at hs
    cases event with
    | received frame ping =>
     have hf : frame ≠ .ended ∧ endpoint.readFrame frame ping = after := by
      cases frame <;> cases hs <;> exact ⟨ReceiveFrame.noConfusion,rfl⟩
     rw [← hf.2]
     exact readFrame_cases hr hf.1 ping
    | pong data ping =>
     cases hs
     have hn : ({ endpoint with transport := endpoint.transport.handlePong data } :
       RelayEndpoint ι).traffic.router.Reads := hr
     have hpo : ReceiveFrame.pong ≠ .ended := ReceiveFrame.noConfusion
     have hca:=readFrame_cases hn hpo ping
     rw [ReconnectingRelayTransport.closed_handlePong] at hca
     rcases hca with ⟨hopen,hso⟩|⟨hc,hsilent⟩
     · exact .inl ⟨fun hb=>hopen ⟨hb.1,rfl⟩,hso⟩
     · exact .inr ⟨⟨hc.1,trivial⟩,hsilent⟩
    | receiveFailed ping =>
     cases hs
     have hn : ({ endpoint with transport := endpoint.transport.disconnectClient client } :
       RelayEndpoint ι).traffic.router.Reads := hr
     have hk:=endpoint.transport.closed_disconnectClient client
     cases hc : endpoint.transport.closed with
     | false =>
      exact .inl ⟨fun hb=>absurd hb.1 Bool.false_ne_true,sound_readOn hn (hk.trans hc) ping⟩
     | true => exact .inr ⟨⟨rfl,trivial⟩,silent_readOn hn (hk.trans hc) ping⟩
    | _ => cases hs
 · rw [hen] at hs
   cases hs

lemma Sound.step (h : endpoint.Sound) (hst : endpoint.step P event = some after) :
    ¬ endpoint.FindsClosed event ∧ after.Sound ∨ ¬ ¬ endpoint.FindsClosed event ∧ after.Silent := by
 rcases step_cases hst with ⟨e,he,rfl,rfl⟩|⟨tr,ht,rfl⟩|hre
 · refine .inl ⟨fun hf=>not_comesBack_call _ e hf.2,?_⟩
   rcases h with ⟨hr,hp⟩|⟨hfa,hp⟩
   · exact .inl ⟨reads_apply he hr,hp⟩
   · exact .inr ⟨failed_apply he hfa,hp⟩
 · exact .inl ⟨fun hf=>not_comesBack_of_transport ht _ hf.2,h⟩
 · rcases h.onReadPoint hre with hs|⟨hf,hsilent⟩
   · exact .inl hs
   · exact .inr ⟨not_not_intro hf,hsilent⟩

lemma Silent.step (h : endpoint.Silent) (hs : endpoint.step P event = some after) : after.Silent := by
 rcases step_cases hs with ⟨e,he,rfl,rfl⟩|⟨tr,_,rfl⟩|hr
 · exact ⟨stopped_apply he h.1,h.2⟩
 · exact h
 · rw [h.2] at hr
   cases hr

omit [DecidableEq ι] in
lemma Silent.not_sound (h : endpoint.Silent) : ¬ endpoint.Sound := by
 rintro (⟨_,hp⟩|⟨hf,_⟩)
 · exact hp h.2
 · exact hf.2.1 h.1.2

lemma sound_bind (endpointId : Bytes) (client : RelayWebSocketClient) (ping : Bytes) :
    (bind endpointId client ping : RelayEndpoint ι).Sound :=
 sound_readOn ⟨⟨rfl,rfl⟩,rfl⟩ rfl ping

lemma Sound.noReaderWaits (h : endpoint.Sound) : endpoint.NoReaderWaits P := by
 intro hen events later hru
 have hf : later.traffic.router.Failed := by
  have hi : later.traffic.router.Failed ∧ later.point = .ended := by
   refine hru.invariant (fun endpoint=>endpoint.traffic.router.Failed ∧ endpoint.point = .ended) ?_ ?_
   · rcases h with ⟨hre,_⟩|hf
     · rw [hre.1.2] at hen
       cases hen
     · exact hf
   · intro s event u hs hst
     rcases step_cases hst with ⟨e,he,rfl,rfl⟩|⟨tr,_,rfl⟩|hr
     · exact ⟨failed_apply he hs.1,hs.2⟩
     · exact hs
     · rw [hs.2] at hr
       cases hr
  exact hi.1
 refine ⟨hf.2.2,fun c promise hq=>?_⟩
 obtain ⟨hw,hse⟩:=hf.receiveDatagrams c promise
 exact ⟨hw,hse hq⟩

lemma exists_runs_queued_nil (endpoint : RelayEndpoint ι) (c : ι) :
    ∃ events later, Runs (step P) endpoint events later ∧ later.traffic.router.queued c = [] := by
 induction hq : endpoint.traffic.router.queued c generalizing endpoint with
 | nil => exact ⟨[],endpoint,.refl _,hq⟩
 | cons d rest ih =>
  have hn : (endpoint.traffic.router.receiveDatagrams c 0).queued c = rest := by
   rw [receiveDatagrams,hq]
   exact Function.update_self _ _ _
  obtain ⟨events,later,hr,hl⟩ := ih { endpoint with traffic := endpoint.traffic.apply (.receiveDatagrams c 0) } hn
  exact ⟨.call (.receiveDatagrams c 0) :: events,later,.next rfl hr,hl⟩

lemma Silent.not_noReaderWaits [Nonempty ι] (h : endpoint.Silent) : ¬ endpoint.NoReaderWaits P := by
 intro hn
 obtain ⟨c⟩:=‹Nonempty ι›
 obtain ⟨events,later,hr,hq⟩:=exists_runs_queued_nil (P := P) endpoint c
 have hsilent : later.Silent := hr.invariant Silent h fun _ _ _ hs hst=>hs.step hst
 have hw:=((hn h.1.1.2 events later hr).2 c 0 hq).1
 rw [hsilent.1.receiveDatagrams hq] at hw
 exact append_ne_nil_of_right_ne_nil _ (cons_ne_nil _ _) hw

/-- Nobody waits on a dead endpoint just if the loop never came back from a client to a closed transport. -/
theorem noReaderWaits_iff [Nonempty ι] {endpointId : Bytes} {client : RelayWebSocketClient} {ping : Bytes}
    {events : List (EndpointEvent ι)} (hruns : Runs (step P) (bind endpointId client ping) events endpoint) :
    endpoint.NoReaderWaits P ↔
      GuardedRuns (step P) (fun endpoint event => ¬ endpoint.FindsClosed event) (bind endpointId client ping) events
        endpoint := by
 have hl : GuardedRuns (step P) (fun endpoint event=>¬ endpoint.FindsClosed event) (bind endpointId client ping)
   events endpoint ↔ endpoint.Sound :=
  hruns.guarded_iff_last (sound_bind endpointId client ping) (fun _ _ _ hs hst=>hs.step hst)
   (fun _ _ _ hs hst=>Silent.step hs hst) fun _ hs=>hs.not_sound
 have hc : endpoint.Sound ∨ endpoint.Silent := by
  refine hruns.invariant (fun endpoint=>endpoint.Sound ∨ endpoint.Silent) (.inl (sound_bind _ _ _)) ?_
  rintro s event u (hso|hsilent) hst
  · rcases hso.step hst with ⟨_,hso⟩|⟨_,hsilent⟩
    · exact .inl hso
    · exact .inr hsilent
  · exact .inr (hsilent.step hst)
 rw [hl]
 rcases hc with hso|hsilent
 · exact iff_of_true hso.noReaderWaits hso
 · exact iff_of_false hsilent.not_noReaderWaits hsilent.not_sound

theorem noReaderWaits_of_close_while_reconnecting :
    ∃ endpoint : RelayEndpoint ℕ, Runs (step plainPrimitives) (bind [] ⟨0, true⟩ [])
        [.resumed, .call (.receiveDatagrams 3 7), .receiveFailed [], .close, .connectFailed, .slept, .resumed]
          endpoint ∧
      endpoint.traffic.router.reading = false ∧ endpoint.NoReaderWaits plainPrimitives ∧
      GuardedRuns (step plainPrimitives) (fun endpoint event => ¬ endpoint.FindsClosed event) (bind [] ⟨0, true⟩ [])
        [.resumed, .call (.receiveDatagrams 3 7), .receiveFailed [], .close, .connectFailed, .slept, .resumed]
        endpoint := by
 obtain ⟨endpoint,hru,hp,hst,hr,hw,her⟩ : ∃ endpoint : RelayEndpoint ℕ,
   Runs (step plainPrimitives) (bind [] ⟨0,true⟩ [])
    [.resumed,.call (.receiveDatagrams 3 7),.receiveFailed [],.close,.connectFailed,.slept,.resumed] endpoint ∧
   endpoint.point = .ended ∧ endpoint.traffic.router.readLoopStarted = true ∧ endpoint.traffic.router.reading = false ∧
   endpoint.traffic.router.waiters = [] ∧ endpoint.traffic.router.terminalError.isSome = true :=
  ⟨_,runs_of_exec rfl,rfl,rfl,rfl,rfl,rfl⟩
 have hs : endpoint.Sound := .inr ⟨⟨⟨hst,hr⟩,isSome_iff_ne_none.mp her,hw⟩,hp⟩
 exact ⟨endpoint,hru,hr,hs.noReaderWaits,(noReaderWaits_iff hru).mp hs.noReaderWaits⟩

/-- A reader that waits when the endpoint is closed is never told. -/
theorem close_leaves_reader_waiting : ∃ endpoint : RelayEndpoint ℕ, Runs (step plainPrimitives) (bind [] ⟨0, true⟩ [])
        [.resumed, .call (.receiveDatagrams 3 7), .close, .receiveFailed []] endpoint ∧
      endpoint.point = .ended ∧ endpoint.traffic.router.reading = false ∧
      endpoint.traffic.router.waiters = [(3, 7)] ∧ ¬ endpoint.NoReaderWaits plainPrimitives := by
 refine ⟨_,runs_of_exec rfl,rfl,rfl,rfl,fun hn=>?_⟩
 cases (hn rfl [] _ (.refl _)).1

end RelayEndpoint

end Enlace.Lite
