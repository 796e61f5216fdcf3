import Enlace.Lite.Connection

set_option autoImplicit false

/-! What the application gets from the streams of a `Connection`. -/
namespace Enlace.Lite
open ByteString Fallible Enlace.Quic List Function Connection

variable (C : Ciphers) {η θ : Type} (H : ClientHandshake η) (S : ServerHandshake θ)

namespace Connection

def queued (connection : Connection η θ) (streamId : ℕ) : List QuicStreamReceiveOutput :=
  (connection.streams streamId).getD []

/-- One round of `readStreamOutput`; without an output the call awaits datagrams and tries again. -/
def readStreamOutput (streamId : ℕ) (connection : Connection η θ) :
    Outcome (Option QuicStreamReceiveOutput × Connection η θ) := do
  throwIf ((connection.streams streamId).isNone = true) "unknown stream"
  connection.requireOpen
  return connection.dequeueOutput streamId

variable {connection : Connection η θ} {streamId : ℕ}

lemma readStreamOutput_closed_iff : connection.readStreamOutput streamId = .error (.error "connection is closed") ↔
      connection.closed = true ∧ connection.streams streamId ≠ none := by
 rw [readStreamOutput,requireOpen]
 cases connection.streams streamId with
 | none => exact iff_of_false (fun h=>by cases h) fun h=>h.2 rfl
 | some outputs =>
  cases connection.closed with
  | true => exact iff_of_true rfl ⟨rfl,by simp⟩
  | false => exact iff_of_false (fun h=>by cases h) (by simp)

lemma queued_queueStreamOutput (output : QuicStreamReceiveOutput) (connection : Connection η θ) (id : ℕ) :
    (connection.queueStreamOutput output).queued id =
      connection.queued id ++ [output].filter fun output => output.streamId = id := by
 have hu : ∀ outputs, connection.queued output.streamId = outputs →
   (update connection.streams output.streamId (some (outputs ++ [output])) id).getD [] =
    connection.queued id ++ [output].filter fun output=>output.streamId = id := by
  intro outputs ho
  by_cases hid : output.streamId = id
  · rw [← hid,update_self,ho]
    simp
  · rw [update_of_ne (Ne.symm hid)]
    simp [hid,queued]
 rw [queueStreamOutput]
 cases hs : connection.streams output.streamId with
 | some outputs => exact hu outputs (by rw [queued,hs]; rfl)
 | none =>
  have hn:=hu [] (by rw [queued,hs]; rfl)
  split_ifs
  · exact hn
  · exact hn

lemma queued_finish (result : QuicRelayReceiveResult) (connection : Connection η θ) (id : ℕ) :
    (connection.finish result).queued id =
      connection.queued id ++ result.streamOutputs.filter fun output => output.streamId = id := by
 have hq : (connection.queueStreamOutputs result.streamOutputs).queued id =
   connection.queued id ++ result.streamOutputs.filter fun output=>output.streamId = id := by
  rw [queueStreamOutputs]
  induction result.streamOutputs generalizing connection with
  | nil => exact (append_nil _).symm
  | cons output outputs ih =>
   rw [foldl_cons,ih,queued_queueStreamOutput,append_assoc,← filter_append,singleton_append]
 rw [finish]
 split_ifs
 · exact hq
 · exact hq

lemma queued_receive (dgs : Datagrams) (connection : Connection η θ) (id : ℕ) :
    (Throwing.final (receive C H S dgs connection)).queued id = connection.queued id := by
 cases hc : connection.closed with
 | true =>
  rw [receive_of_closed hc]
  rfl
 | false =>
  rw [receive_of_open hc,onDriver,Throwing.zoom]
  cases EndpointConnectionDriver.receive C H S dgs connection.driver with
  | ok result driver | error e driver => rfl

/-- The outputs that the driver produces from a datagram. -/
def outputsOf (datagrams : Datagrams) (connection : Connection η θ) : List QuicStreamReceiveOutput :=
  match receive C H S datagrams connection with
  | .ok result _ => result.streamOutputs
  | .error _ _ => []

lemma closed_receive (dgs : Datagrams) (connection : Connection η θ) :
    (Throwing.final (receive C H S dgs connection)).closed = connection.closed := by
 cases hc : connection.closed with
 | true =>
  rw [receive_of_closed hc]
  exact hc
 | false =>
  rw [receive_of_open hc,onDriver,Throwing.zoom]
  cases EndpointConnectionDriver.receive C H S dgs connection.driver with
  | ok result driver | error e driver => exact hc

lemma open_of_receive {dgs : Datagrams} {connection after : Connection η θ} {result : QuicRelayReceiveResult}
    (h : receive C H S dgs connection = .ok result after) : connection.closed = false := by
 refine Bool.eq_false_iff.mpr fun hc=>?_
 rw [receive_of_closed hc] at h
 cases h

lemma closed_finish (result : QuicRelayReceiveResult) (connection : Connection η θ) :
    (connection.finish result).closed = (connection.closed || result.closed) := by
 have hq : (connection.queueStreamOutputs result.streamOutputs).closed = connection.closed := by
  rw [queueStreamOutputs]
  induction result.streamOutputs generalizing connection with
  | nil => rfl
  | cons output outputs ih =>
   rw [foldl_cons,ih,queueStreamOutput]
   split
   · rfl
   · split_ifs
     · rfl
     · rfl
 rw [finish]
 split_ifs with hr
 · rw [hr,Bool.or_true]
 · rw [Bool.eq_false_iff.mpr hr,Bool.or_false]
   exact hq

end Connection

/-- A connection with the outputs produced by its driver and those returned by reads, stream by stream. -/
structure Readers (η θ : Type) where
  connection : Connection η θ
  produced : ℕ → List QuicStreamReceiveOutput
  returned : ℕ → List QuicStreamReceiveOutput

inductive ReaderEvent where
  | datagrams (datagrams : Datagrams)
  | read (streamId : ℕ)

def ReaderEvent.reads (id : ℕ) : ReaderEvent → Bool
  | .datagrams _ => false
  | .read streamId => streamId == id

namespace Readers

def start (connection : Connection η θ) : Readers η θ := ⟨connection, connection.queued, fun _ => []⟩

def step (readers : Readers η θ) : ReaderEvent → Readers η θ
  | .datagrams datagrams =>
    match Connection.receive C H S datagrams readers.connection with
    | .ok result after => { readers with
        connection := after.finish result
        produced := fun id => readers.produced id ++ result.streamOutputs.filter fun output => output.streamId = id }
    | .error _ after => { readers with connection := after }
  | .read streamId =>
    match readers.connection.readStreamOutput streamId with
    | .ok (output, after) => { readers with
        connection := after
        returned := Function.update readers.returned streamId (readers.returned streamId ++ output.toList) }
    | .error _ => readers

def Accounted (readers : Readers η θ) : Prop :=
  ∀ id, readers.produced id = readers.returned id ++ readers.connection.queued id

variable {readers : Readers η θ}

lemma Accounted.datagrams (h : readers.Accounted) (dgs : Datagrams) :
    (readers.step C H S (.datagrams dgs)).Accounted := by
 intro id
 have hq:=queued_receive C H S dgs readers.connection id
 rw [step]
 cases hr : receive C H S dgs readers.connection with
 | ok result after =>
  rw [hr,Throwing.final] at hq
  dsimp only
  rw [queued_finish,h id,hq,append_assoc]
 | error e after =>
  rw [hr,Throwing.final] at hq
  rw [h id,hq]

lemma step_of_closed (h : readers.connection.closed = true) (event : ReaderEvent) :
    readers.step C H S event = readers := by
 cases event with
 | datagrams dgs => rw [step,receive_of_closed h]
 | read streamId =>
  have hr : ∃ e, readers.connection.readStreamOutput streamId = .error e := by
   rw [readStreamOutput,requireOpen,h]
   cases readers.connection.streams streamId with
   | none | some _ => exact ⟨_,rfl⟩
  obtain ⟨e,he⟩:=hr
  rw [step,he]

lemma step_read_nil (h : readers.connection.closed = false) {streamId : ℕ}
    (hn : readers.connection.queued streamId = []) : readers.step C H S (.read streamId) = readers := by
 rw [queued] at hn
 rw [step,readStreamOutput,requireOpen,h]
 cases hs : readers.connection.streams streamId with
 | none => rfl
 | some outputs =>
  rw [hs] at hn
  cases hn
  change Readers.mk (readers.connection.dequeueOutput streamId).2 _ (update _ _ (_ ++ Option.toList _)) = readers
  rw [dequeueOutput,hs]
  dsimp only
  rw [Option.toList_none,append_nil,update_eq_self]

lemma step_read_cons (h : readers.connection.closed = false) {streamId : ℕ} {output : QuicStreamReceiveOutput}
    {outputs : List QuicStreamReceiveOutput} (hc : readers.connection.queued streamId = output :: outputs) :
    readers.step C H S (.read streamId) =
      ⟨{ readers.connection with streams := update readers.connection.streams streamId (some outputs) },
        readers.produced, update readers.returned streamId (readers.returned streamId ++ [output])⟩ := by
 rw [queued] at hc
 rw [step,readStreamOutput,requireOpen,h]
 cases hs : readers.connection.streams streamId with
 | none => rw [hs] at hc; cases hc
 | some queue =>
  rw [hs] at hc
  obtain rfl : queue = output :: outputs := hc
  change Readers.mk (readers.connection.dequeueOutput streamId).2 _ (update _ _ (_ ++ Option.toList _)) = _
  rw [dequeueOutput,hs]
  rfl

lemma queued_read (h : readers.connection.closed = false) (streamId id : ℕ) :
    (readers.step C H S (.read streamId)).connection.queued id =
      if streamId = id then (readers.connection.queued id).tail else readers.connection.queued id := by
 cases hq : readers.connection.queued streamId with
 | nil =>
  rw [step_read_nil C H S h hq]
  split_ifs with hid
  · rw [← hid,hq]
    rfl
  · rfl
 | cons output outputs =>
  rw [step_read_cons C H S h hq]
  split_ifs with hid
  · rw [← hid,hq,queued]
    dsimp only
    rw [update_self]
    rfl
  · rw [queued]
    dsimp only
    rw [update_of_ne (Ne.symm hid)]
    rfl

lemma read_keeps (streamId : ℕ) :
    (readers.step C H S (.read streamId)).connection.closed = readers.connection.closed ∧
      (readers.step C H S (.read streamId)).produced = readers.produced := by
 cases hc : readers.connection.closed with
 | true =>
  rw [step_of_closed C H S hc]
  exact ⟨hc,rfl⟩
 | false =>
  cases hq : readers.connection.queued streamId with
  | nil =>
   rw [step_read_nil C H S hc hq]
   exact ⟨hc,rfl⟩
  | cons output outputs =>
   rw [step_read_cons C H S hc hq]
   exact ⟨hc,rfl⟩

lemma Accounted.read (h : readers.Accounted) (streamId : ℕ) : (readers.step C H S (.read streamId)).Accounted := by
 cases hc : readers.connection.closed with
 | true => rwa [step_of_closed C H S hc]
 | false =>
  cases hq : readers.connection.queued streamId with
  | nil => rwa [step_read_nil C H S hc hq]
  | cons output outputs =>
   intro id
   rw [queued_read C H S hc,step_read_cons C H S hc hq]
   dsimp only
   rw [h id]
   split_ifs with hid
   · rw [← hid,hq,update_self,append_assoc]
     rfl
   · rw [update_of_ne (Ne.symm hid)]

lemma Accounted.run (h : readers.Accounted) (events : List ReaderEvent) :
    (events.foldl (step C H S) readers).Accounted := by
 induction events generalizing readers with
 | nil => exact h
 | cons event events ih =>
  cases event with
  | datagrams dgs => exact ih (h.datagrams C H S dgs)
  | read streamId => exact ih (h.read C H S streamId)

def run (connection : Connection η θ) (events : List ReaderEvent) : Readers η θ :=
  events.foldl (step C H S) (start connection)

/-- In every suffix of the events the stream is read at least as often as it gets outputs. -/
def KeepsUp (connection : Connection η θ) (events : List ReaderEvent) (id : ℕ) : Prop :=
  ∀ first last, events = first ++ last → ((run C H S connection events).produced id).length ≤
    ((run C H S connection first).produced id).length + last.countP (·.reads id)

/-- The packet that closes the connection comes without outputs, after reads that have kept up on every stream. -/
def ClosesQuietly (connection : Connection η θ) (events : List ReaderEvent) : Prop :=
  ∀ before datagrams later result after, events = before ++ .datagrams datagrams :: later →
    receive C H S datagrams (run C H S connection before).connection = .ok result after → result.closed = true →
      result.streamOutputs = [] ∧ ∀ id, KeepsUp C H S connection before id

lemma foldl_of_closed (h : readers.connection.closed = true) (events : List ReaderEvent) :
    events.foldl (step C H S) readers = readers := by
 induction events with
 | nil => rfl
 | cons event events ih => rw [foldl_cons,step_of_closed C H S h,ih]

lemma step_datagrams (h : readers.connection.closed = false) (dgs : Datagrams) :
    (∀ id, (readers.step C H S (.datagrams dgs)).produced id = readers.produced id ++
        (outputsOf C H S dgs readers.connection).filter fun output => output.streamId = id) ∧
      (∀ id, (readers.step C H S (.datagrams dgs)).connection.queued id = readers.connection.queued id ++
        (outputsOf C H S dgs readers.connection).filter fun output => output.streamId = id) ∧
      ((readers.step C H S (.datagrams dgs)).connection.closed = true →
        ∃ result after, receive C H S dgs readers.connection = .ok result after ∧ result.closed = true) := by
 have hq:=queued_receive C H S dgs readers.connection
 have hc:=closed_receive C H S dgs readers.connection
 rw [step,outputsOf]
 cases hr : receive C H S dgs readers.connection with
 | error e after =>
  rw [hr,Throwing.final] at hq hc
  refine ⟨fun _=>(append_nil _).symm,fun id=>(hq id).trans (append_nil _).symm,fun ha=>?_⟩
  cases ha.symm.trans (hc.trans h)
 | ok result after =>
  rw [hr,Throwing.final] at hq hc
  refine ⟨fun _=>rfl,fun id=>by rw [queued_finish,hq],fun ha=>⟨result,after,rfl,?_⟩⟩
  rwa [closed_finish,hc,h,Bool.false_or] at ha

variable {connection : Connection η θ}

lemma run_concat (events : List ReaderEvent) (event : ReaderEvent) :
    run C H S connection (events ++ [event]) = (run C H S connection events).step C H S event := by
 rw [run,foldl_append]
 rfl

lemma open_of_concat {events : List ReaderEvent} {event : ReaderEvent}
    (h : (run C H S connection (events ++ [event])).connection.closed = false) :
    (run C H S connection events).connection.closed = false := by
 refine Bool.eq_false_iff.mpr fun hc=>?_
 rw [run_concat,step_of_closed C H S hc,hc] at h
 cases h

lemma forall_split_concat {α : Type} {Q : List α → List α → Prop} {events : List α} {event : α} :
    (∀ first last, events ++ [event] = first ++ last → Q first last) ↔
      (∀ first last, events = first ++ last → Q first (last ++ [event])) ∧ Q (events ++ [event]) [] := by
 constructor
 · intro h
   exact ⟨fun first last hs=>h _ _ (by rw [hs,append_assoc]),h _ _ (append_nil _).symm⟩
 · rintro ⟨he,ha⟩ first last hs
   rcases eq_nil_or_concat' last with rfl|⟨last,final,rfl⟩
   · rw [append_nil] at hs
     rwa [← hs]
   · rw [← append_assoc] at hs
     obtain ⟨hs,hf⟩:=append_inj' hs rfl
     rw [← hf]
     exact he first last hs

/-- A queue holds at most what some suffix of the events brings beyond the reads in it. -/
lemma queued_length_le_iff (hq : ∀ id, connection.queued id = []) {events : List ReaderEvent}
    (hopen : (run C H S connection events).connection.closed = false) (id k : ℕ) :
    ((run C H S connection events).connection.queued id).length ≤ k ↔
      ∀ first last, events = first ++ last → ((run C H S connection events).produced id).length ≤
        ((run C H S connection first).produced id).length + last.countP (·.reads id) + k := by
 induction events using List.reverseRecOn generalizing k with
 | nil =>
  refine iff_of_true ?_ ?_
  · rw [run,foldl_nil,start,hq id]
    exact Nat.zero_le k
  · intro first last hs
    obtain ⟨rfl,rfl⟩:=append_eq_nil_iff.mp hs.symm
    exact Nat.le_add_right _ k
 | append_singleton events event ih =>
  have hbefore:=open_of_concat C H S hopen
  rw [forall_split_concat,and_iff_left (by omega),run_concat]
  simp only [countP_append,countP_singleton]
  cases event with
  | read streamId =>
   rw [queued_read C H S hbefore,(read_keeps C H S streamId).2]
   by_cases hid : streamId = id
   · rw [if_pos hid,length_tail,Nat.sub_le_iff_le_add,ih hbefore]
     have hr : (ReaderEvent.read streamId).reads id = true := beq_iff_eq.mpr hid
     simp only [hr,if_true]
     refine forall₃_congr fun first last _=>?_
     omega
   · rw [if_neg hid,ih hbefore]
     have hr : (ReaderEvent.read streamId).reads id = false := beq_false_of_ne hid
     simp only [hr,Bool.false_eq_true,if_false,Nat.add_zero]
  | datagrams dgs =>
   obtain ⟨hp,hq,_⟩:=step_datagrams C H S hbefore dgs
   have hr : (ReaderEvent.datagrams dgs).reads id = false := rfl
   simp only [hp,hq,length_append,hr,Bool.false_eq_true,if_false,Nat.add_zero]
   generalize (filter (fun output=>output.streamId = id) (outputsOf _ _ _ dgs _)).length = new
   constructor
   · intro hle first last hs
     have he:=(ih hbefore (k-new)).mp (by omega) first last hs
     omega
   · intro ha
     -- the suffix after all earlier events holds the new outputs alone
     have hn:=ha events [] (append_nil events).symm
     rw [countP_nil] at hn
     have he:=(ih hbefore (k-new)).mpr fun first last hs=>by
      have hle:=ha first last hs
      omega
     omega

lemma exists_close (hs : connection.closed = false) {events : List ReaderEvent}
    (hc : (run C H S connection events).connection.closed = true) :
    ∃ before dgs later result after, events = before ++ .datagrams dgs :: later ∧
      receive C H S dgs (run C H S connection before).connection = .ok result after ∧ result.closed = true := by
 induction events using List.reverseRecOn with
 | nil => cases hs.symm.trans hc
 | append_singleton events event ih =>
  cases hbefore : (run C H S connection events).connection.closed with
  | true =>
   obtain ⟨before,dgs,later,result,after,rfl,hr,hre⟩:=ih hbefore
   exact ⟨before,dgs,later ++ [event],result,after,by simp,hr,hre⟩
  | false =>
   rw [run_concat] at hc
   cases event with
   | read streamId => cases ((read_keeps C H S streamId).1.trans hbefore).symm.trans hc
   | datagrams dgs =>
    obtain ⟨_,_,hcl⟩:=step_datagrams C H S hbefore dgs
    obtain ⟨result,after,hr,hre⟩:=hcl hc
    exact ⟨events,dgs,[],result,after,rfl,hr,hre⟩

/-- What is queued when the connection closes stays queued. -/
lemma run_of_close {before : List ReaderEvent} {dgs : Datagrams} {result : QuicRelayReceiveResult}
    {after : Connection η θ}
    (hr : receive C H S dgs (run C H S connection before).connection = .ok result after)
    (hre : result.closed = true) (later : List ReaderEvent) :
    (run C H S connection (before ++ .datagrams dgs :: later)).connection.closed = true ∧
      ∀ id, (run C H S connection (before ++ .datagrams dgs :: later)).connection.queued id =
        (run C H S connection before).connection.queued id ++
          result.streamOutputs.filter fun output => output.streamId = id := by
 have hopen:=open_of_receive C H S hr
 have hq:=queued_receive C H S dgs (run C H S connection before).connection
 have hc:=closed_receive C H S dgs (run C H S connection before).connection
 rw [hr,Throwing.final] at hq hc
 have hs : ((run C H S connection before).step C H S (.datagrams dgs)).connection = after.finish result := by
  rw [step,hr]
 have hf : ((run C H S connection before).step C H S (.datagrams dgs)).connection.closed = true := by
  rw [hs,closed_finish,hre,Bool.or_true]
 have hru : run C H S connection (before ++ .datagrams dgs :: later) =
   (run C H S connection before).step C H S (.datagrams dgs) := by
  rw [run,foldl_append,foldl_cons]
  exact foldl_of_closed C H S hf later
 rw [hru]
 refine ⟨hf,fun id=>?_⟩
 rw [hs,queued_finish,hq]

/-- Reads return the outputs of a stream in order, and a read that the close rejects comes after all of them exactly if
the packet that closes the connection brings none and the reads before it have kept up. -/
theorem read_before_close_iff (connection : Connection η θ) (hopen : connection.closed = false)
    (hqueued : ∀ id, connection.queued id = []) (events : List ReaderEvent) :
    let readers := run C H S connection events
    (∀ id, readers.returned id <+: readers.produced id) ∧
    ((∀ streamId, readers.connection.readStreamOutput streamId = .error (.error "connection is closed") →
        ∀ id, readers.returned id = readers.produced id) ↔ ClosesQuietly C H S connection events) := by
 intro readers
 have h : readers.Accounted := Accounted.run C H S (fun _=>rfl) events
 refine ⟨fun id=>⟨_,(h id).symm⟩,?_,?_⟩
 · rintro hrs before datagrams later result after rfl hr hre
   obtain ⟨hc,hl⟩:=run_of_close C H S hr hre later
   have he : ∀ id, readers.connection.queued id = [] := by
    intro id
    by_contra hne
    have hkn : readers.connection.streams id ≠ none := fun hn=>hne (by rw [queued,hn]; rfl)
    have ha:=hrs id (readStreamOutput_closed_iff.mpr ⟨hc,hkn⟩) id
    rw [h id,self_eq_append_right] at ha
    exact hne ha
   constructor
   · refine eq_nil_iff_forall_not_mem.mpr fun output ho=>?_
     have hni:=(append_eq_nil_iff.mp ((hl output.streamId).symm.trans (he _))).2
     exact absurd (hni ▸ mem_filter.mpr ⟨ho,decide_eq_true rfl⟩) not_mem_nil
   · intro id
     have hni:=(append_eq_nil_iff.mp ((hl id).symm.trans (he id))).1
     exact (queued_length_le_iff C H S hqueued (open_of_receive C H S hr) id 0).mp (by rw [hni]; exact Nat.le_refl 0)
 · intro hq streamId hrd id
   obtain ⟨hc,_⟩:=readStreamOutput_closed_iff.mp hrd
   obtain ⟨before,datagrams,later,result,after,rfl,hr,hre⟩:=exists_close C H S hopen hc
   obtain ⟨hn,hk⟩:=hq before datagrams later result after rfl hr hre
   have hbefore:=open_of_receive C H S hr
   have hni : (run C H S connection before).connection.queued id = [] :=
    eq_nil_of_length_eq_zero (Nat.le_zero.mp ((queued_length_le_iff C H S hqueued hbefore id 0).mpr (hk id)))
   rw [h id,(run_of_close C H S hr hre later).2 id,hni,hn]
   simp

section Plain

def plainConnection (quic : QuicConnectionState) : Connection Unit Unit :=
  ⟨.client (clientDriver (some quic)), fun _ => none, [], [], false⟩

def plainRun (quic : QuicConnectionState) (events : List ReaderEvent) : Readers Unit Unit :=
  run plainCiphers noClientHandshake noServerHandshake (plainConnection quic) events

def packetEvent (packet : Bytes) : ReaderEvent := .datagrams (packetToRelayDatagrams relayPeer none packet)

/-- A byte comes, is read, and then the connection closes. -/
theorem byte_is_read_before_close : ∃ quic, establishedConnection .client = .ok quic ∧ ∃ data,
    encryptQuicOneRttPacket plainCiphers plainKeys clientConnectionId 0 1 [0x0a, 0x01, 0x01, 0x61] = .ok data ∧
    ∃ close, encryptQuicOneRttPacket plainCiphers plainKeys clientConnectionId 1 1 [0x1d, 0x00, 0x00] = .ok close ∧
    (plainRun quic [packetEvent data, .read 1, packetEvent close]).returned 1 = [⟨1, 0, [0x61], false, none, false⟩] ∧
    (plainRun quic [packetEvent data, .read 1, packetEvent close]).connection.closed = true ∧
    ClosesQuietly plainCiphers noClientHandshake noServerHandshake (plainConnection quic)
      [packetEvent data, .read 1, packetEvent close] := by
 obtain ⟨quic,hqu,data,hdata,close,hcl,hr,hc,hopen,hs,hf,hl⟩ : ∃ quic,
   establishedConnection .client = .ok quic ∧ ∃ data,
   encryptQuicOneRttPacket plainCiphers plainKeys clientConnectionId 0 1 [0x0a,0x01,0x01,0x61] = .ok data ∧ ∃ close,
   encryptQuicOneRttPacket plainCiphers plainKeys clientConnectionId 1 1 [0x1d,0x00,0x00] = .ok close ∧
   (plainRun quic [packetEvent data,.read 1,packetEvent close]).returned 1 = [⟨1,0,[0x61],false,none,false⟩] ∧
   (plainRun quic [packetEvent data,.read 1,packetEvent close]).connection.closed = true ∧
   (plainRun quic [packetEvent data]).connection.closed = false ∧
   (plainRun quic [packetEvent data,.read 1]).connection.closed = false ∧
   outputsOf plainCiphers noClientHandshake noServerHandshake (packetToRelayDatagrams relayPeer none data)
    (plainConnection quic) = [⟨1,0,[0x61],false,none,false⟩] ∧
   outputsOf plainCiphers noClientHandshake noServerHandshake (packetToRelayDatagrams relayPeer none close)
    (plainRun quic [packetEvent data,.read 1]).connection = [] := by
  decide +kernel
 refine ⟨quic,hqu,data,hdata,close,hcl,hr,hc,?_⟩
 have hi:=read_before_close_iff plainCiphers noClientHandshake noServerHandshake (plainConnection quic) rfl
  (fun _=>rfl) [packetEvent data,.read 1,packetEvent close]
 refine hi.2.mp fun _ _ id=>?_
 have ha : (plainRun quic [packetEvent data,.read 1,packetEvent close]).Accounted :=
  Accounted.run _ _ _ (fun _=>rfl) _
 have hca : (plainRun quic [packetEvent data]).connection.queued id = (plainConnection quic).queued id ++ _ :=
  (step_datagrams _ _ _ rfl _).2.1 id
 have hre : (plainRun quic [packetEvent data,.read 1]).connection.queued id =
   if 1 = id then ((plainRun quic [packetEvent data]).connection.queued id).tail
   else (plainRun quic [packetEvent data]).connection.queued id :=
  queued_read plainCiphers noClientHandshake noServerHandshake hopen 1 id
 have hg : (plainRun quic [packetEvent data,.read 1,packetEvent close]).connection.queued id =
   (plainRun quic [packetEvent data,.read 1]).connection.queued id ++ _ :=
  (step_datagrams _ _ _ hs _).2.1 id
 have hq : (plainRun quic [packetEvent data,.read 1,packetEvent close]).connection.queued id = [] := by
  rw [hg,hl,hre,hca,start,hf]
  by_cases hid : 1 = id
  · simp [hid,plainConnection,queued]
  · simp [hid,plainConnection,queued]
 rw [plainRun] at ha hq
 rw [ha id,hq,append_nil]

/-- A packet with a byte of a stream and a CONNECTION_CLOSE: no read returns the byte. -/
theorem last_byte_is_not_returned : ∃ quic packet, establishedConnection .client = .ok quic ∧
      encryptQuicOneRttPacket plainCiphers plainKeys clientConnectionId 0 1
        [0x0a, 0x01, 0x01, 0x61, 0x1d, 0x00, 0x00] = .ok packet ∧
      (plainRun quic [packetEvent packet]).produced 1 = [⟨1, 0, [0x61], false, none, false⟩] ∧
      (plainRun quic [packetEvent packet]).returned 1 = [] ∧
      (plainRun quic [packetEvent packet]).connection.readStreamOutput 1 = .error (.error "connection is closed") := by
 decide +kernel

end Plain
end Readers

end Enlace.Lite
