import Enlace.Coordinator.Envelope
import Enlace.Endpoint

set_option autoImplicit false

/-! Slots of the shared-seed mode: `Coordinator::slot_put`, `Coordinator::slot_get` and
`Coordinator::slot_watch`. -/
namespace Enlace.Coordinator
open ByteString Fallible WireFormat Crypto Kdf SlotRead State Transition

structure SlotValue (P : Primitives) where
  version : UInt64
  payload : Bytes
  via : TransportKind
  signedBy : Option (VerifyingKey P)
  deriving DecidableEq

inductive SlotError where
  | allTransportsFailed (failures : List (TransportKind × TransportError))
  | sealing (e : SealError)
  deriving DecidableEq

structure PutReport where
  version : UInt64
  stored : List TransportKind
  failed : List (TransportKind × TransportError)
  deriving DecidableEq

/-- The end of `slot_put` and `put_bytes`, once every transport has answered. -/
def putReport {ε : Type} (allTransportsFailed : List (TransportKind × TransportError) → ε)
    (version : UInt64) (results : List (TransportKind × Except TransportError Unit)) : Res ε PutReport :=
  let stored := results.filterMap fun r => r.2.toOption.map fun _ => r.1
  let failed := results.filterMap fun r => match r.2 with
    | .ok _ => none
    | .error e => some (r.1, e)
  if stored.isEmpty then fail (allTransportsFailed failed) else .ok ⟨version, stored, failed⟩

/-- What a put hands to the transports: the sealed bytes, and the id of each. -/
structure Outgoing where
  version : UInt64
  bytes : Bytes
  ids : List (TransportKind × Bytes)

variable {P : Primitives} (rmp : Codec SignedInner) (c : Coordinator P)

/-- A payload that does not open, or that carries no version, is dropped. -/
def openSlot (name : Bytes) : Opener Unit (SlotValue P) := fun _ via sealed => do
  let opened ← mapErr (fun _ => ()) (c.openSealed rmp .slot name sealed)
  let version ← okOr () opened.version
  return (version, ⟨version, opened.payload, via, opened.signedBy⟩)

/-- `slot_put` up to the sends: the version is taken before anything can fail. -/
def slotPut (store : InMemoryInner P) (nonce : Nonce) (name payload : Bytes) :
    InMemoryInner P × Res SlotError Outgoing :=
  let next := store.nextLocalSlotVersion name
  (next.1, do
    let version ← expect next.2
    let sealed ← mapErr .sealing (c.sealPayload rmp nonce .slot name payload (some version))
    let ids ← c.transports.mapM fun kind => mapErr (fun _ => .sealing .msgpackFailed)
      (transportChannelId P c.seed kind .slot name)
    return ⟨version, sealed, c.transports.zip ids⟩)

def slotGet (name : Bytes) (responses : List (Response Unit)) :
    Res SlotError (Option (SlotValue P) × Option UInt64) := do
  let _ ← c.transports.mapM fun kind => mapErr (fun _ => .sealing .msgpackFailed)
    (transportChannelId P c.seed kind .slot name)
  let best ← read (c.openSlot rmp name) .allTransportsFailed responses
  return (best.map Item.value, best.map Item.version)

def watched (name : Bytes) : List TransportKind :=
  c.transports.filter fun kind => (toOption (transportChannelId P c.seed kind .slot name)).isSome

def slotWatch (name : Bytes) : Watch.Watcher (Fin (c.watched name).length) Unit (SlotValue P) where
  openItem env i bytes := c.openSlot rmp name env ((c.watched name).get i) bytes
  dedupCapacity := c.dedupBuffer
  stateKey := name

lemma slotPut_version {store : InMemoryInner P} {nonce : Nonce} {name payload : Bytes} {out : Outgoing}
    (h : (c.slotPut rmp store nonce name payload).2 = .ok out) :
    (store.nextLocalSlotVersion name).2 = some out.version := by
 simp only [slotPut,bind_eq_ok,expect_eq_ok,pure_eq_ok] at h
 obtain ⟨version,hv,_,_,_,_,rfl⟩:=h
 exact hv

lemma openSlot_version {name bytes : Bytes} {via : TransportKind} {version : UInt64}
    {value : SlotValue P} (h : c.openSlot rmp name () via bytes = .ok (version, value)) :
    value.version = version := by
 simp only [openSlot,bind_eq_ok,pure_eq_ok,Prod.mk.injEq] at h
 obtain ⟨_,_,_,_,rfl,rfl⟩:=h
 rfl

structure SlotPut where
  name : Bytes
  payload : Bytes
  nonce : Nonce

def slotMode : Endpoint.Mode P Bytes SlotPut Unit (SlotValue P) Outgoing SlotError where
  stateKey name := name
  putKey p := p.name
  put store _ p := c.slotPut rmp store p.nonce p.name p.payload
  putVersion := Outgoing.version
  get := c.slotGet rmp
  version := SlotValue.version
  since _ _ := 0
  tasks name := (c.watched name).length
  watch := c.slotWatch rmp
  put_store _ _ _ := rfl
  put_version _ _ _ _ h := c.slotPut_version rmp h
  watch_stateKey _ := rfl
  watch_version _ _ _ _ _ _ h := c.openSlot_version rmp h

lemma slotGet_recordsReads : (c.slotMode rmp).RecordsReads := by
 intro name rs v seen h
 simp only [slotMode,slotGet,bind_eq_ok,pure_eq_ok,Prod.mk.injEq] at h
 obtain ⟨_,_,best,hbest,hv,rfl⟩:=h
 obtain ⟨x,rfl,rfl⟩:=Option.map_eq_some_iff.mp hv
 obtain ⟨r,_,hr⟩:=(read_some _ hbest).1
 obtain ⟨_,_,_,hopen⟩:=opened_eq_some _ hr
 exact congrArg some (c.openSlot_version rmp hopen).symm

/-- In every run, a put takes a version above every one put, read or delivered on its name before, and no other name
changes that. -/
theorem slot_versions_ascend (rmp : Codec SignedInner) (c : Coordinator P) (store : InMemoryInner P)
    (as : List (Endpoint.Act (c.slotMode rmp))) (s : Endpoint.Sys (c.slotMode rmp))
    (h : Runs Endpoint.step (Endpoint.start (c.slotMode rmp) store ()) as s) :
    Endpoint.Ascending s.log ∧ ∀ name bs u, GuardedRuns Endpoint.step (Endpoint.Elsewhere name) s bs u →
      (u.store.nextLocalSlotVersion name).2 = (s.store.nextLocalSlotVersion name).2 :=
 ⟨Endpoint.ascending_of_recordsReads (c.slotGet_recordsReads rmp) h,fun _ _ _ hu=>Endpoint.next_elsewhere hu⟩

section Plain

def plainSlots : Coordinator plainPrimitives := plainCoordinator defaultMaxPlaintextBytes

def plainMode : Endpoint.Mode plainPrimitives Bytes SlotPut Unit (SlotValue plainPrimitives) Outgoing
    SlotError :=
  plainSlots.slotMode signedInnerFormat.codec

def sealedAt (version : UInt64) : Bytes :=
  (toOption (plainSlots.sealPayload signedInnerFormat.codec zeroNonce .slot (ascii "s") (ascii "v")
    (some version))).getD []

def putReadWatch : List (Endpoint.Act plainMode) :=
  let put := .put ⟨ascii "s", ascii "v", zeroNonce⟩
  let task := ⟨0, by decide⟩
  [put, .get (ascii "s") [⟨(), .http, .ok (some (7, sealedAt 7))⟩], .record 0, .ret 0, put,
    .watch (ascii "s"), .task (ascii "s") 0 (.next task (.item 9 (sealedAt 9)))] ++
  List.replicate 8 (.task (ascii "s") 0 (.run task)) ++ [.task (ascii "s") 0 .recv, put]

theorem slot_versions_ascend_plain : ∃ s : Endpoint.Sys plainMode,
    Runs Endpoint.step (Endpoint.start plainMode .empty ()) putReadWatch s ∧
    s.log.map Endpoint.Event.version = [1, 7, 8, 9, 10] ∧ Endpoint.Ascending s.log ∧
    ∀ name bs u, GuardedRuns Endpoint.step (Endpoint.Elsewhere name) s bs u →
      (u.store.nextLocalSlotVersion name).2 = (s.store.nextLocalSlotVersion name).2 := by
 refine exists_and₂ (by decide +kernel) fun s hr _=>?_
 exact slot_versions_ascend signedInnerFormat.codec plainSlots .empty putReadWatch s hr

end Plain

end Enlace.Coordinator

/-! How far the local version counter of a slot can be driven, by puts of its own and by versions
recorded from remote values. -/
namespace Enlace.State
open ByteString Fallible Crypto List

variable {P : Primitives}

inductive VersionCall where
  | nextLocalSlotVersion (slot : Bytes)
  | recordSeenSlotVersion (slot : Bytes) (version : UInt64)
  deriving DecidableEq

/-- What each call for a version returns; `none` is the overflow panic, after which the lock is recovered. -/
def InMemoryInner.versionsTaken (s : InMemoryInner P) : List VersionCall → List (Option UInt64)
  | [] => []
  | .nextLocalSlotVersion slot :: calls =>
    (s.nextLocalSlotVersion slot).2 :: (s.nextLocalSlotVersion slot).1.versionsTaken calls
  | .recordSeenSlotVersion slot version :: calls =>
    (s.recordSeenSlotVersion slot version).1.versionsTaken calls

def VersionCall.puts (slot : Bytes) (calls : List VersionCall) : ℕ :=
  calls.count (.nextLocalSlotVersion slot)

open VersionCall

/-- No slot is put to so often, from the state or from a recorded version, that the count leaves the 64 bits. -/
def InMemoryInner.Fits (s : InMemoryInner P) (calls : List VersionCall) : Prop :=
  ∀ slot, (s.floor slot).toNat + puts slot calls < 2^64 ∧
    ∀ before version after, calls = before ++ .recordSeenSlotVersion slot version :: after →
      version.toNat + puts slot after < 2^64

namespace InMemoryInner

variable {s : InMemoryInner P} {calls : List VersionCall}

lemma fits_nil : s.Fits [] := by
 intro slot
 refine ⟨?_,fun before _ _ h=>absurd h (by simp)⟩
 have hlt:=(s.floor slot).toNat_lt
 rw [puts,count_nil]
 omega

variable {slot : Bytes}

lemma next_eq_none_iff : (s.nextLocalSlotVersion slot).2 = none ↔ (s.floor slot).toNat = 2^64 - 1 := by
 have hmax : s.floor slot = UInt64.ofNat (2^64 - 1) ↔ (s.floor slot).toNat = 2^64 - 1 := UInt64.toNat_inj.symm
 rw [nextLocalSlotVersion_snd,← hmax]
 split
 · rename_i h
   exact iff_of_true rfl h
 · rename_i h
   exact iff_of_false nofun h

lemma floor_next (h : (s.nextLocalSlotVersion slot).2 ≠ none) :
    ((s.nextLocalSlotVersion slot).1.floor slot).toNat = (s.floor slot).toNat + 1 := by
 have hne : (s.floor slot).toNat ≠ 2^64 - 1 := fun he=>h (next_eq_none_iff.mpr he)
 have hlt:=(s.floor slot).toNat_lt
 rw [floor_nextLocalSlotVersion,if_pos rfl,nextLocalSlotVersion_snd,if_neg fun he=>hne (by rw [he]; decide)]
 rw [Option.getD_some,UInt64.toNat_add]
 change (_+1) % 2^64 = _
 omega

lemma forall_split_cons {k : Bytes} {c : VersionCall} {Q : UInt64 → List VersionCall → Prop} :
    (∀ before version after, c :: calls = before ++ .recordSeenSlotVersion k version :: after → Q version after) ↔
    (∀ version, c = .recordSeenSlotVersion k version → Q version calls) ∧
    ∀ before version after, calls = before ++ .recordSeenSlotVersion k version :: after → Q version after := by
 constructor
 · intro h
   refine ⟨fun version hc=>h [] version calls (by rw [hc]; rfl),?_⟩
   exact fun before version after hca=>h (c :: before) version after (by rw [hca]; rfl)
 · rintro ⟨hf,h⟩ before version after hca
   cases before with
   | nil =>
    obtain ⟨hc,rfl⟩:=cons.inj hca
    exact hf version hc
   | cons d before => exact h before version after (cons.inj hca).2

lemma fits_next : s.Fits (.nextLocalSlotVersion slot :: calls) ↔
    (s.nextLocalSlotVersion slot).2 ≠ none ∧ (s.nextLocalSlotVersion slot).1.Fits calls := by
 have hp : ∀ k, puts k (.nextLocalSlotVersion slot :: calls) = puts k calls+if k = slot then 1 else 0 := by
  intro k
  rw [puts,puts,count_cons]
  simp only [beq_iff_eq,VersionCall.nextLocalSlotVersion.injEq,eq_comm (a := slot)]
 unfold Fits
 simp only [forall_split_cons,hp,reduceCtorEq,false_implies,implies_true,true_and]
 constructor
 · intro h
   have hn : (s.nextLocalSlotVersion slot).2 ≠ none := by
    intro hno
    have hmax:=next_eq_none_iff.mp hno
    have hs:=(h slot).1
    rw [if_pos rfl] at hs
    omega
   refine ⟨hn,fun k=>⟨?_,(h k).2⟩⟩
   have hk:=(h k).1
   by_cases he : k = slot
   · rw [if_pos he] at hk
     rw [he,floor_next hn]
     rw [he] at hk
     omega
   · rw [if_neg he] at hk
     rw [floor_nextLocalSlotVersion,if_neg he]
     exact hk
 · rintro ⟨hn,h⟩ k
   refine ⟨?_,(h k).2⟩
   have hk:=(h k).1
   by_cases he : k = slot
   · rw [he,floor_next hn] at hk
     rw [if_pos he,he]
     omega
   · rw [floor_nextLocalSlotVersion,if_neg he] at hk
     rw [if_neg he]
     exact hk

lemma fits_record {version : UInt64} :
    s.Fits (.recordSeenSlotVersion slot version :: calls) ↔ (s.recordSeenSlotVersion slot version).1.Fits calls := by
 have hp : ∀ k, puts k (.recordSeenSlotVersion slot version :: calls) = puts k calls := fun k=>
  count_cons_of_ne (by simp)
 have hf : ∀ k n, (∀ v, VersionCall.recordSeenSlotVersion slot version =
   .recordSeenSlotVersion k v → v.toNat+n < 2^64) ↔ (k = slot → version.toNat+n < 2^64) := by
  intro k n
  constructor
  · exact fun h he=>h version (by rw [he])
  · intro h v hv
    obtain ⟨rfl,rfl⟩:=VersionCall.recordSeenSlotVersion.inj hv
    exact h rfl
 have hfl : ∀ k, ((s.recordSeenSlotVersion slot version).1.floor k).toNat+puts k calls < 2^64 ↔
   (s.floor k).toNat+puts k calls < 2^64 ∧ (k = slot → version.toNat+puts k calls < 2^64) := by
  intro k
  rw [floor_recordSeenSlotVersion]
  by_cases he : k = slot
  · rw [if_pos he,he]
    rcases le_total (s.floor slot) version with hle|hle
    · rw [max_eq_right hle]
      rw [UInt64.le_iff_toNat_le] at hle
      simp only [forall_const]
      omega
    · rw [max_eq_left hle]
      rw [UInt64.le_iff_toNat_le] at hle
      omega
  · rw [if_neg he]
    exact (and_iff_left fun h=>absurd h he).symm
 unfold Fits
 simp only [forall_split_cons,hf,hp,hfl,and_assoc]

/-- Every call for a version returns one exactly when the counts stay within the 64 bits. -/
theorem versions_taken_iff (s : InMemoryInner P) (calls : List VersionCall) :
    none ∉ s.versionsTaken calls ↔ s.Fits calls := by
 induction calls generalizing s with
 | nil => exact iff_of_true not_mem_nil fits_nil
 | cons call calls ih =>
  cases call with
  | nextLocalSlotVersion slot =>
   rw [versionsTaken,mem_cons,not_or,ih,fits_next]
   exact and_congr_left fun _=>ne_comm
  | recordSeenSlotVersion slot version => rw [versionsTaken,ih,fits_record]

end InMemoryInner

def maxVersion : UInt64 := UInt64.ofNat (2^64 - 1)

/-- A read records the greatest version there is, and the next put of the slot panics. -/
theorem put_after_greatest_read :
    ∃ value, Coordinator.plainSlots.slotGet Coordinator.signedInnerFormat.codec (ascii "s")
        [⟨(), .http, .ok (some (0, Coordinator.sealedAt maxVersion))⟩] =
      .ok (some value, some maxVersion) ∧
    (InMemoryInner.empty (P := plainPrimitives)).versionsTaken
      [.recordSeenSlotVersion (ascii "s") maxVersion, .nextLocalSlotVersion (ascii "s")] = [none] := by
 have hr : ((Coordinator.plainSlots.slotGet Coordinator.signedInnerFormat.codec (ascii "s")
   [⟨(),.http,.ok (some (0,Coordinator.sealedAt maxVersion))⟩]).map
    fun r=>(r.1.isSome,r.2)) = .ok (true,some maxVersion) := by decide +kernel
 obtain ⟨⟨value,seen⟩,hg,heq⟩:=map_eq_ok.mp hr
 obtain ⟨hv,rfl⟩:=Prod.mk.inj heq
 obtain ⟨v,rfl⟩:=Option.isSome_iff_exists.mp hv
 exact ⟨v,hg,by decide +kernel⟩

end Enlace.State
