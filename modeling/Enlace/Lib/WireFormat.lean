import Enlace.Lib.ByteString
import Enlace.Lib.Fallible

set_option autoImplicit false

/-! Encodings that end by themselves: a value and whatever follows it can be told apart. An encoder
may refuse a value. -/
namespace Delimited
open List Option

variable {α β γ : Type}

/-- Encoded values with anything after them are equal only when both parts are. -/
def Delimiting (enc : α → Option (List γ)) : Prop :=
  ∀ ⦃a b : α⦄ ⦃x y : List γ⦄, enc a = some x → enc b = some y → ∀ ⦃r s : List γ⦄, x ++ r = y ++ s → a = b ∧ r = s

variable {enc : α → Option (List γ)}

lemma Delimiting.inj (h : Delimiting enc) {a b : α} {x : List γ}
    (ha : enc a = some x) (hb : enc b = some x) : a = b :=
 (h ha hb (rfl : x ++ [] = x ++ [])).1

lemma delimiting_of_length {n : ℕ} (hl : ∀ a x, enc a = some x → x.length = n)
    (hi : ∀ a b x, enc a = some x → enc b = some x → a = b) : Delimiting enc := by
 intro a b x y ha hb r s h
 have hxy : x.length = y.length := (hl a x ha).trans (hl b y hb).symm
 obtain ⟨rfl,rfl⟩:=append_inj h hxy
 exact ⟨hi a b x ha hb,rfl⟩

/-- Lists that start with different words, neither of which continues the other, are different. -/
theorem ne_of_append {t u : List γ} (htu : ¬ t <+: u) (hut : ¬ u <+: t) (x y : List γ) : t ++ x ≠ u ++ y := by
 intro h
 have ht : t <+: u ++ y := ⟨x,h⟩
 rcases prefix_or_prefix_of_prefix ht (prefix_append u y) with hle|hle
 · exact htu hle
 · exact hut hle

lemma delimiting_of_code {word : α → List γ} (h : ∀ a b, word a <+: word b → a = b) :
    Delimiting fun a => some (word a) := by
 intro a b x y ha hb r s heq
 cases ha
 cases hb
 by_cases hab : a = b
 · subst hab
   exact ⟨rfl,append_cancel_left heq⟩
 · exact absurd heq (ne_of_append (fun hp=>hab (h a b hp)) (fun hp=>hab (h b a hp).symm) r s)

def andThen (f : α → Option (List γ)) (g : β → Option (List γ)) (p : α × β) : Option (List γ) :=
  (f p.1).bind fun x => (g p.2).map (x ++ ·)

def counted (count : ℕ → Option (List γ)) (enc : α → Option (List γ)) (as : List α) : Option (List γ) :=
  (count as.length).bind fun c => (as.mapM enc).map fun xs => c ++ xs.flatten

lemma andThen_isSome (f : α → Option (List γ)) (g : β → Option (List γ)) (p : α × β) :
    (andThen f g p).isSome = true ↔ (f p.1).isSome = true ∧ (g p.2).isSome = true := by
 unfold andThen
 cases f p.1 with
 | none | some x => simp

lemma counted_isSome (count : ℕ → Option (List γ)) (enc : α → Option (List γ)) (as : List α) :
    (counted count enc as).isSome = true ↔ (count as.length).isSome = true ∧ ∀ a ∈ as, (enc a).isSome = true := by
 have hi : (as.mapM enc).isSome = true ↔ ∀ a ∈ as, (enc a).isSome = true := by
  induction as with
  | nil => simp
  | cons a as ih => cases ha : enc a with
   | none => simp [ha]
   | some x => simp [ha,← ih,isSome_bind]
 unfold counted
 cases count as.length with
 | none => simp
 | some c => simp [hi]

lemma Delimiting.andThen {f : α → Option (List γ)} {g : β → Option (List γ)} (hf : Delimiting f)
    (hg : Delimiting g) : Delimiting (Delimited.andThen f g) := by
 intro p q z w hp hq r s h
 obtain ⟨x,hx,hxy⟩:=bind_eq_some_iff.mp hp
 obtain ⟨y,hy,rfl⟩:=map_eq_some_iff.mp hxy
 obtain ⟨x',hx',hxy'⟩:=bind_eq_some_iff.mp hq
 obtain ⟨y',hy',rfl⟩:=map_eq_some_iff.mp hxy'
 rw [append_assoc,append_assoc] at h
 obtain ⟨hfs,h⟩:=hf hx hx' h
 obtain ⟨hs,h⟩:=hg hy hy' h
 exact ⟨Prod.ext hfs hs,h⟩

lemma Delimiting.comap {f : α → Option (List γ)} (hf : Delimiting f) {e : β → α}
    (he : Function.Injective e) : Delimiting fun b => f (e b) := by
 intro a b x y ha hb r s h
 obtain ⟨hab,h⟩:=hf ha hb h
 exact ⟨he hab,h⟩

lemma Delimiting.items (h : Delimiting enc) {as bs : List α}
    {xs ys : List (List γ)} {r s : List γ} (hl : as.length = bs.length) (hxs : as.mapM enc = some xs)
    (hys : bs.mapM enc = some ys) (heq : xs.flatten ++ r = ys.flatten ++ s) : as = bs ∧ r = s := by
 induction as generalizing bs xs ys with
 | nil =>
  obtain rfl:=length_eq_zero_iff.mp hl.symm
  cases hxs
  cases hys
  exact ⟨rfl,heq⟩
 | cons a as ih =>
  cases bs with
  | nil => cases hl
  | cons b bs =>
   simp only [mapM_cons,Option.bind_eq_bind,Option.bind_eq_some_iff,Option.pure_def, Option.some.injEq] at hxs hys
   obtain ⟨x,hx,xs,hxs,rfl⟩:=hxs
   obtain ⟨y,hy,ys,hys,rfl⟩:=hys
   simp only [flatten_cons,append_assoc] at heq
   obtain ⟨rfl,heq⟩:=h hx hy heq
   obtain ⟨rfl,hrs⟩:=ih (Nat.succ.inj hl) hxs hys heq
   exact ⟨rfl,hrs⟩

lemma Delimiting.counted {count : ℕ → Option (List γ)} (hco : Delimiting count) (h : Delimiting enc) :
    Delimiting (Delimited.counted count enc) := by
 intro as bs z w ha hb r s heq
 obtain ⟨c,hc,hz⟩:=bind_eq_some_iff.mp ha
 obtain ⟨xs,hxs,rfl⟩:=map_eq_some_iff.mp hz
 obtain ⟨d,hd,hw⟩:=bind_eq_some_iff.mp hb
 obtain ⟨ys,hys,rfl⟩:=map_eq_some_iff.mp hw
 rw [append_assoc,append_assoc] at heq
 obtain ⟨hl,heq⟩:=hco hc hd heq
 exact h.items hl hxs hys heq

end Delimited

/-! Formats that a reader can undo from the front of a byte string. An encoder may refuse a
value, for instance a list longer than its header can count; whatever it does produce is read
back whole, and the reader stops exactly where the encoding ends. -/
namespace WireFormat
open ByteString List Option

structure Codec (α : Type) where
  encode : α → Option Bytes
  decode : Bytes → Option α
  decode_encode : ∀ {a : α} {b : Bytes}, encode a = some b → decode b = some a

structure Format (α : Type) where
  encode : α → Option Bytes
  parse : Bytes → Option (α × Bytes)
  parse_encode : ∀ {a : α} {b : Bytes}, encode a = some b → ∀ rest, parse (b ++ rest) = some (a, rest)

namespace Format

variable {α β : Type} {b : Bytes} {back : α → Option β} {g : Format β} {into : β → α} {q : β → Prop}

def codec (f : Format α) : Codec α where
  encode := f.encode
  decode bs := (f.parse bs).map Prod.fst
  decode_encode {a b} h := by
    have hp := f.parse_encode h []
    rw [List.append_nil] at hp
    rw [hp]
    rfl

def tag (t : Bytes) : Format Unit where
  encode _ := some t
  parse bs := if t <+: bs then some ((), bs.drop t.length) else none
  parse_encode {_ b} h rest := by
    cases h
    simp

def pair (f : Format α) (g : Format β) : Format (α × β) where
  encode p := (f.encode p.1).bind fun x => (g.encode p.2).map (x ++ ·)
  parse bs := (f.parse bs).bind fun p => (g.parse p.2).map fun q => ((p.1, q.1), q.2)
  parse_encode {p b} h rest := by
    obtain ⟨x, hx, hxy⟩ := Option.bind_eq_some_iff.mp h
    obtain ⟨y, hy, rfl⟩ := Option.map_eq_some_iff.mp hxy
    rw [List.append_assoc, f.parse_encode hx]
    simp only [Option.bind_some, g.parse_encode hy, Option.map_some]

/-- A format for the values that `into` embeds; `back` may reject what it does not recognise. -/
def imap (f : Format α) (into : β → α) (back : α → Option β)
    (h : ∀ b, back (into b) = some b) : Format β where
  encode b := f.encode (into b)
  parse bs := (f.parse bs).bind fun p => (back p.1).map fun b => (b, p.2)
  parse_encode {b x} hx rest := by
    rw [f.parse_encode hx]
    simp only [Option.bind_some, h, Option.map_some]

def encodeItems (f : Format α) : List α → Option Bytes
  | [] => some []
  | a :: as => (f.encode a).bind fun x => (encodeItems f as).map (x ++ ·)

def parseItems (f : Format α) : ℕ → Bytes → Option (List α × Bytes)
  | 0, bs => some ([], bs)
  | n+1, bs => (f.parse bs).bind fun p => (parseItems f n p.2).map fun q => (p.1 :: q.1, q.2)

lemma parseItems_encodeItems (f : Format α) (as : List α) (h : encodeItems f as = some b) (rest : Bytes) :
    parseItems f as.length (b ++ rest) = some (as, rest) := by
 induction as generalizing b with
 | nil =>
  cases h
  rfl
 | cons a as ih =>
  obtain ⟨x,hx,hxy⟩:=bind_eq_some_iff.mp h
  obtain ⟨y,hy,rfl⟩:=map_eq_some_iff.mp hxy
  simp only [length_cons,parseItems]
  rw [append_assoc,f.parse_encode hx]
  simp only [bind_some,ih hy,map_some]

def list (count : Format ℕ) (f : Format α) : Format (List α) where
  encode as := (count.encode as.length).bind fun x => (encodeItems f as).map (x ++ ·)
  parse bs := (count.parse bs).bind fun p => parseItems f p.1 p.2
  parse_encode {as b} h rest := by
    obtain ⟨x, hx, hxy⟩ := Option.bind_eq_some_iff.mp h
    obtain ⟨y, hy, rfl⟩ := Option.map_eq_some_iff.mp hxy
    rw [List.append_assoc, count.parse_encode hx]
    exact parseItems_encodeItems f as hy rest

def orMarker (marker : UInt8) (f : Format α)
    (h : ∀ {a b}, f.encode a = some b → b.head? ≠ some marker ∧ b ≠ []) : Format (Option α) where
  encode
    | none => some [marker]
    | some a => f.encode a
  parse bs := match bs with
    | [] => none
    | x :: xs => if x = marker then some (none, xs)
        else (f.parse (x :: xs)).map fun p => (some p.1, p.2)
  parse_encode {a b} hb rest := by
    cases a with
    | none =>
      cases hb
      simp
    | some a =>
      obtain ⟨hne, hn⟩ := h hb
      cases b with
      | nil => exact absurd rfl hn
      | cons x xs =>
        have hx : x ≠ marker := fun he => hne (by rw [he]; rfl)
        have hp := f.parse_encode hb rest
        simp only [List.cons_append] at hp ⊢
        rw [if_neg hx, hp]
        rfl

def Measures (f : Format α) (len : α → ℕ) : Prop := ∀ a b, f.encode a = some b → b.length = len a

lemma measures_tag (t : Bytes) : (tag t).Measures fun _ => t.length := by
 intro _ b h
 rw [← some.inj h]

variable {f : Format α} {m : α → ℕ}

lemma Measures.pair {n : β → ℕ} (hf : f.Measures m)
    (hg : g.Measures n) : (f.pair g).Measures fun p => m p.1 + n p.2 := by
 intro p b h
 obtain ⟨x,hx,hxy⟩:=bind_eq_some_iff.mp h
 obtain ⟨y,hy,rfl⟩:=map_eq_some_iff.mp hxy
 rw [length_append,hf _ _ hx,hg _ _ hy]

lemma Measures.imap (hf : f.Measures m) (h : ∀ b, back (into b) = some b) :
    (f.imap into back h).Measures fun b => m (into b) :=
 fun b _ hb=>hf (into b) _ hb

lemma Measures.encodeItems (hf : f.Measures m) (as : List α)
    (h : encodeItems f as = some b) : b.length = (as.map m).sum := by
 induction as generalizing b with
 | nil =>
  cases h
  rfl
 | cons a as ih =>
  obtain ⟨x,hx,hxy⟩:=bind_eq_some_iff.mp h
  obtain ⟨y,hy,rfl⟩:=map_eq_some_iff.mp hxy
  rw [length_append,hf _ _ hx,ih hy,map_cons,sum_cons]

lemma Measures.list {count : Format ℕ} {c : ℕ → ℕ} (hc : count.Measures c) (hf : f.Measures m) :
    (Format.list count f).Measures fun as => c as.length + (as.map m).sum := by
 intro as b h
 obtain ⟨x,hx,hxy⟩:=bind_eq_some_iff.mp h
 obtain ⟨y,hy,rfl⟩:=map_eq_some_iff.mp hxy
 rw [length_append,hc _ _ hx,hf.encodeItems as hy]

lemma Measures.orMarker {marker : UInt8} (hf : f.Measures m)
    (h : ∀ {a b}, f.encode a = some b → b.head? ≠ some marker ∧ b ≠ []) :
    (f.orMarker marker h).Measures fun a => a.elim 1 m := by
 intro a b hb
 cases a with
 | none => rw [← some.inj hb]; rfl
 | some a => exact hf a b hb

/-- Whatever the input, a value that is read has the property. -/
def Yields (f : Format α) (p : α → Prop) : Prop := ∀ bs a rest, f.parse bs = some (a, rest) → p a

lemma yields_true (f : Format α) : f.Yields fun _ => True := fun _ _ _ _=>trivial

variable {p : α → Prop}

lemma Yields.pair (hf : f.Yields p) (hg : g.Yields q) : (f.pair g).Yields fun x => p x.1 ∧ q x.2 := by
 intro bs x rest h
 obtain ⟨a,ha,hb⟩:=bind_eq_some_iff.mp h
 obtain ⟨b,hb,heq⟩:=map_eq_some_iff.mp hb
 rw [← (Prod.mk.inj heq).1]
 exact ⟨hf _ _ _ ha,hg _ _ _ hb⟩

lemma Yields.imap (hf : f.Yields p) {h : ∀ b, back (into b) = some b} (hq : ∀ a b, back a = some b → p a → q b) :
    (f.imap into back h).Yields q := by
 intro bs b rest hb
 obtain ⟨a,ha,hb⟩:=bind_eq_some_iff.mp hb
 obtain ⟨b',hb,heq⟩:=map_eq_some_iff.mp hb
 rw [← (Prod.mk.inj heq).1]
 exact hq _ _ hb (hf _ _ _ ha)

lemma Yields.parseItems (hf : f.Yields p) {n : ℕ} {bs : Bytes}
    {as : List α} {rest : Bytes} (h : parseItems f n bs = some (as, rest)) : as.length = n ∧ ∀ a ∈ as, p a := by
 induction n generalizing bs as with
 | zero =>
  obtain ⟨rfl,_⟩:=Prod.mk.inj (some.inj h)
  exact ⟨rfl,nofun⟩
 | succ n ih =>
  obtain ⟨x,hx,ht⟩:=bind_eq_some_iff.mp h
  obtain ⟨⟨xs,_⟩,hxs,heq⟩:=map_eq_some_iff.mp ht
  cases heq
  obtain ⟨hl,hal⟩:=ih hxs
  refine ⟨by rw [length_cons,hl],fun a ha=>?_⟩
  rcases mem_cons.mp ha with rfl|ha
  · exact hf _ _ _ hx
  · exact hal a ha

lemma Yields.list {count : Format ℕ} {c : ℕ → Prop} (hc : count.Yields c) (hf : f.Yields p) :
    (Format.list count f).Yields fun as => c as.length ∧ ∀ a ∈ as, p a := by
 intro bs as rest h
 obtain ⟨n,hn,has⟩:=bind_eq_some_iff.mp h
 obtain ⟨hl,ha⟩:=hf.parseItems has
 exact ⟨hl ▸ hc _ _ _ hn,ha⟩

lemma pair_isSome {p : α × β} (hf : (f.encode p.1).isSome)
    (hg : (g.encode p.2).isSome) : ((f.pair g).encode p).isSome := by
 obtain ⟨x,hx⟩:=isSome_iff_exists.mp hf
 obtain ⟨y,hy⟩:=isSome_iff_exists.mp hg
 change ((f.encode p.1).bind fun x=>(g.encode p.2).map (x ++ ·)).isSome
 rw [hx,hy]
 rfl

lemma encodeItems_isSome (hf : ∀ a, (f.encode a).isSome) (as : List α) : (encodeItems f as).isSome := by
 induction as with
 | nil => rfl
 | cons a as ih =>
  obtain ⟨x,hx⟩:=isSome_iff_exists.mp (hf a)
  obtain ⟨y,hy⟩:=isSome_iff_exists.mp ih
  simp only [encodeItems,hx,hy,bind_some,map_some,isSome_some]

end Format
end WireFormat

/-! Decoders that take bytes from the front of what is left, and fail with an error otherwise. -/
namespace Cursor
open ByteString Fallible List

abbrev Decoder (ε α : Type) := StateT Bytes (Except (Fault ε)) α

variable {ε α β : Type} {d : Decoder ε α} {f : α → Decoder ε β} {a : α} {b : β} {x y : Bytes}

/-- Whatever follows, the decoder takes these bytes and makes the value of them. -/
def Reads (d : Decoder ε α) (x : Bytes) (a : α) : Prop := ∀ rest, d (x ++ rest) = .ok (a, rest)

lemma Reads.bind (hd : Reads d x a) (hf : Reads (f a) y b) : Reads (d >>= f) (x ++ y) b := by
 intro rest
 change (d (x ++ y ++ rest) >>= fun p=>f p.1 p.2) = _
 rw [append_assoc,hd,ok_bind,hf]

lemma Reads.last (hd : Reads d x a) (hf : Reads (f a) [] b) : Reads (d >>= f) x b := by
 simpa using hd.bind hf

lemma reads_pure (a : α) : Reads (pure a : Decoder ε α) [] a := fun _=>rfl

/-- A check takes no bytes. -/
def check (c : Res ε α) : Decoder ε α := fun bs => c >>= fun a => .ok (a, bs)

lemma reads_check {c : Res ε α} (h : c = .ok a) : Reads (check c) [] a := by
 subst h
 exact fun _=>rfl

/-- What the decoder accepts does not depend on the bytes behind it. -/
def Local (d : Decoder ε α) : Prop :=
  ∀ bs a rest, d bs = .ok (a, rest) → ∃ x, bs = x ++ rest ∧ Reads d x a

lemma local_pure (a : α) : Local (pure a : Decoder ε α) := by
 intro bs b rest h
 cases h
 exact ⟨[],rfl,reads_pure a⟩

lemma local_check (c : Res ε α) : Local (check c) := by
 intro bs a rest h
 obtain ⟨_,hc,heq⟩:=bind_eq_ok.mp h
 cases heq
 exact ⟨[],rfl,reads_check hc⟩

lemma Local.bind (hd : Local d) (hf : ∀ a, Local (f a)) : Local (d >>= f) := by
 intro bs b rest h
 obtain ⟨⟨a,mid⟩,hfi,hs⟩:=bind_eq_ok.mp h
 obtain ⟨x,rfl,hx⟩:=hd _ _ _ hfi
 obtain ⟨y,rfl,hy⟩:=hf a _ _ _ hs
 exact ⟨x ++ y,(append_assoc x y rest).symm,hx.bind hy⟩

lemma local_ite {c : Prop} [Decidable c] {e : Decoder ε α} (hd : Local d) (he : Local e) :
    Local (if c then d else e) := by
 split
 · exact hd
 · exact he

/-- The bytes of one reading neither begin nor continue those of another. -/
theorem Local.not_reads_part (hd : Local d) (hx : Reads d (x ++ y) a) {a' : α} (h : d x = .ok (a', [])) : y = [] := by
 obtain ⟨z,hz,hr⟩:=hd _ _ _ h
 rw [append_nil] at hz
 have hl:=hx []
 rw [append_nil,hz,hr y] at hl
 exact (Prod.mk.inj (Except.ok.inj hl)).2

def take (e : ε) (len : ℕ) : Decoder ε Bytes := fun bs =>
  if len ≤ bs.length then .ok (bs.take len, bs.drop len) else fail e

lemma reads_take (e : ε) {len : ℕ} (h : x.length = len) : Reads (take e len) x x := by
 intro rest
 simp [take,← h]

lemma local_take (e : ε) (len : ℕ) : Local (take e len) := by
 intro bs a rest h
 unfold take at h
 split at h
 · rename_i hl
   cases h
   exact ⟨bs.take len,(take_append_drop len bs).symm,reads_take e (length_take_of_le hl)⟩
 · cases h

end Cursor
