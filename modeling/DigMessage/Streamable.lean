import DigMessage.FixedWidth

/-! A self-delimiting binary codec: big-endian words, raw fixed-width strings, a tag
byte for an optional value and a 32-bit length before a byte vector. A codec is lawful
when parsing undoes serializing and accepts nothing else. -/
namespace DigMessage
open FixedWidth

inductive StreamableError
  | endOfBuffer | invalidOptional | inputTooLarge | inputTooLong
  deriving DecidableEq, Repr

/-- Serialization to bytes, and parsing of a prefix of a byte string. -/
class Streamable (α : Type) where
  stream : α → Except StreamableError (List UInt8)
  parse : List UInt8 → Except StreamableError (α × List UInt8)

namespace Streamable

def toBytes {α : Type} [Streamable α] (a : α) : Except StreamableError (List UInt8) := stream a

/-- Parse a whole byte string: what follows the value is an error. -/
def fromBytes {α : Type} [Streamable α] (bs : List UInt8) : Except StreamableError α :=
  match parse bs with
  | .error e => .error e
  | .ok (a,[]) => .ok a
  | .ok (_,_::_) => .error .inputTooLong

end Streamable

open Streamable

/-- Parsing inverts serializing before any continuation, and whatever parses is the
serialization of the value parsed. -/
class LawfulStreamable (α : Type) [Streamable α] : Prop where
  parse_stream : ∀ {a : α} {bs : List UInt8}, stream a = .ok bs →
    ∀ rest, parse (bs++rest) = .ok (a,rest)
  stream_parse : ∀ {a : α} {bs rest : List UInt8}, parse bs = .ok (a,rest) →
    ∃ front, stream a = .ok front ∧ bs = front++rest

open LawfulStreamable

namespace Streamable

theorem fromBytes_eq_ok {α : Type} [Streamable α] {bs : List UInt8} {a : α} :
    fromBytes bs = .ok a ↔ parse bs = .ok (a,[]) := by
  unfold fromBytes
  split <;> simp_all

theorem fromBytes_iff {α : Type} [Streamable α] [LawfulStreamable α] {bs : List UInt8} {a : α} :
    fromBytes bs = .ok a ↔ toBytes a = .ok bs := by
  rw [fromBytes_eq_ok]
  constructor
  · intro h
    obtain ⟨front,hs,hb⟩ := stream_parse h
    rw [hb,List.append_nil]
    exact hs
  · intro h
    simpa using parse_stream h []

theorem fromBytes_toBytes {α : Type} [Streamable α] [LawfulStreamable α] {bs : List UInt8} {a : α}
    (h : toBytes a = .ok bs) : fromBytes bs = .ok a := fromBytes_iff.mpr h

theorem eq_of_stream_append {α : Type} [Streamable α] [LawfulStreamable α] {a b : α}
    {xs ys zs : List UInt8} (ha : stream a = .ok xs) (hb : stream b = .ok ys)
    (h : xs++zs = ys) : a = b ∧ zs = [] := by
  have h₁ := parse_stream ha zs
  have h₂ := parse_stream hb []
  rw [List.append_nil,← h,h₁] at h₂
  simpa using h₂

end Streamable

/-- Split off exactly `n` bytes, or report the end of the buffer. -/
def takeBytes (n : ℕ) (bs : List UInt8) : Except StreamableError (List UInt8 × List UInt8) :=
  if n ≤ bs.length then .ok (bs.take n,bs.drop n) else .error .endOfBuffer

theorem takeBytes_append {n : ℕ} {xs rest : List UInt8} (h : xs.length = n) :
    takeBytes n (xs++rest) = .ok (xs,rest) := by
  subst h
  simp [takeBytes]

theorem takeBytes_eq_ok {n : ℕ} {bs xs rest : List UInt8} (h : takeBytes n bs = .ok (xs,rest)) :
    xs.length = n ∧ bs = xs++rest := by
  unfold takeBytes at h
  split at h
  · rename_i hn
    simp only [Except.ok.injEq,Prod.mk.injEq] at h
    obtain ⟨rfl,rfl⟩ := h
    exact ⟨List.length_take_of_le hn,(List.take_append_drop n bs).symm⟩
  · cases h

/-- A codec for a type of words: `w` big-endian bytes of the value's number. -/
def wordParse {α : Type} (w : ℕ) (ofNat : ℕ → α) (bs : List UInt8) :
    Except StreamableError (α × List UInt8) :=
  match takeBytes w bs with
  | .error e => .error e
  | .ok (xs,rest) => .ok (ofNat (fromBigEndian xs),rest)

theorem wordParse_append {α : Type} {w : ℕ} {ofNat : ℕ → α} (toNat : α → ℕ)
    (hlt : ∀ a, toNat a < 256^w) (hof : ∀ a, ofNat (toNat a) = a) (a : α) (rest : List UInt8) :
    wordParse w ofNat (bigEndian w (toNat a)++rest) = .ok (a,rest) := by
  rw [wordParse,takeBytes_append (bigEndian_length w _)]
  simp only [fromBigEndian_bigEndian,Nat.mod_eq_of_lt (hlt a),hof]

theorem wordParse_eq_ok {α : Type} {w : ℕ} {ofNat : ℕ → α} (toNat : α → ℕ)
    (hto : ∀ n, n < 256^w → toNat (ofNat n) = n) {a : α} {bs rest : List UInt8}
    (h : wordParse w ofNat bs = .ok (a,rest)) : bs = bigEndian w (toNat a)++rest := by
  unfold wordParse at h
  split at h
  · cases h
  · rename_i xs tail ht
    obtain ⟨hl,hb⟩ := takeBytes_eq_ok ht
    simp only [Except.ok.injEq,Prod.mk.injEq] at h
    obtain ⟨rfl,rfl⟩ := h
    have hn : fromBigEndian xs < 256^w := hl ▸ fromBigEndian_lt xs
    rw [hto _ hn,hb,← hl,bigEndian_fromBigEndian]

instance : Streamable UInt8 where
  stream b := .ok (bigEndian 1 b.toNat)
  parse := wordParse 1 UInt8.ofNat

instance : Streamable UInt32 where
  stream v := .ok (bigEndian 4 v.toNat)
  parse := wordParse 4 UInt32.ofNat

instance : Streamable UInt64 where
  stream v := .ok (bigEndian 8 v.toNat)
  parse := wordParse 8 UInt64.ofNat

instance : LawfulStreamable UInt8 where
  parse_stream {a bs} h rest := by
    cases h
    exact wordParse_append UInt8.toNat (fun a => a.toNat_lt) (fun a => by simp) a rest
  stream_parse {a bs rest} h :=
    ⟨_,rfl,wordParse_eq_ok UInt8.toNat (fun n hn => by simpa using hn) h⟩

instance : LawfulStreamable UInt32 where
  parse_stream {a bs} h rest := by
    cases h
    exact wordParse_append UInt32.toNat (fun a => a.toNat_lt) (fun a => by simp) a rest
  stream_parse {a bs rest} h :=
    ⟨_,rfl,wordParse_eq_ok UInt32.toNat (fun n hn => by simpa using hn) h⟩

instance : LawfulStreamable UInt64 where
  parse_stream {a bs} h rest := by
    cases h
    exact wordParse_append UInt64.toNat (fun a => a.toNat_lt) (fun a => by simp) a rest
  stream_parse {a bs rest} h :=
    ⟨_,rfl,wordParse_eq_ok UInt64.toNat (fun n hn => by simpa using hn) h⟩

instance {n : ℕ} : Streamable (Bytes n) where
  stream b := .ok b.val
  parse bs :=
    if h : n ≤ bs.length then .ok (⟨bs.take n,List.length_take_of_le h⟩,bs.drop n)
    else .error .endOfBuffer

instance {n : ℕ} : LawfulStreamable (Bytes n) where
  parse_stream {a bs} h rest := by
    cases h
    obtain ⟨l,rfl⟩ := a
    simp [parse]
  stream_parse {a bs rest} h := by
    simp only [parse] at h
    split at h
    · simp only [Except.ok.injEq,Prod.mk.injEq] at h
      obtain ⟨rfl,rfl⟩ := h
      exact ⟨bs.take n,rfl,(List.take_append_drop n bs).symm⟩
    · cases h

/-- A byte vector carries its length in four bytes; a longer one has no encoding. -/
instance : Streamable (List UInt8) where
  stream xs :=
    if xs.length < 2^32 then .ok (bigEndian 4 xs.length++xs) else .error .inputTooLarge
  parse bs :=
    match wordParse 4 id bs with
    | .error e => .error e
    | .ok (n,rest) => takeBytes n rest

instance : LawfulStreamable (List UInt8) where
  parse_stream {xs bs} h rest := by
    simp only [stream] at h
    split at h
    · rename_i hl
      cases h
      have hw : bigEndian 4 xs.length++xs++rest = bigEndian 4 xs.length++(xs++rest) := by simp
      have hn : fromBigEndian (bigEndian 4 xs.length) = xs.length := by
        rw [fromBigEndian_bigEndian,Nat.mod_eq_of_lt (by omega)]
      rw [hw]
      simp only [parse,wordParse,takeBytes_append (bigEndian_length 4 _),hn,id,
        takeBytes_append rfl]
    · cases h
  stream_parse {xs bs rest} h := by
    simp only [parse] at h
    split at h
    · cases h
    · rename_i n tail hw
      obtain ⟨hl,hb⟩ := takeBytes_eq_ok h
      have hbs : bs = bigEndian 4 n++tail := wordParse_eq_ok id (fun _ _ => rfl) hw
      have hn : n < 2^32 := by
        unfold wordParse at hw
        split at hw
        · cases hw
        · rename_i ys _ hy
          simp only [Except.ok.injEq,Prod.mk.injEq,id] at hw
          have h₁ := fromBigEndian_lt ys
          rw [(takeBytes_eq_ok hy).1,hw.1] at h₁
          omega
      subst hl
      refine ⟨bigEndian 4 xs.length++xs,?_,by rw [hbs,hb,List.append_assoc]⟩
      simp only [stream,hn,if_true]

instance {α : Type} [Streamable α] : Streamable (Option α) where
  stream
    | none => .ok [0]
    | some a => (stream a).map (1::·)
  parse
    | [] => .error .endOfBuffer
    | tag::bs =>
      if tag = 0 then .ok (none,bs)
      else if tag = 1 then (parse bs).map fun r => (some r.1,r.2)
      else .error .invalidOptional

instance {α : Type} [Streamable α] [LawfulStreamable α] : LawfulStreamable (Option α) where
  parse_stream {o bs} h rest := by
    cases o with
    | none => cases h; simp [parse]
    | some a =>
      simp only [stream] at h
      cases hs : (stream a : Except StreamableError (List UInt8)) with
      | error e => simp [hs,Except.map] at h
      | ok xs =>
        simp only [hs,Except.map,Except.ok.injEq] at h
        subst h
        simp [parse,parse_stream hs rest,Except.map]
  stream_parse {o bs rest} h := by
    cases bs with
    | nil => cases h
    | cons tag bs =>
      simp only [parse] at h
      split_ifs at h with h₀ h₁
      · cases h; exact ⟨[0],rfl,by simp [h₀]⟩
      · cases hp : (parse bs : Except StreamableError (α × List UInt8)) with
        | error e => simp [hp,Except.map] at h
        | ok r =>
          simp only [hp,Except.map,Except.ok.injEq,Prod.mk.injEq] at h
          obtain ⟨rfl,rfl⟩ := h
          have hp' : parse bs = .ok (r.1,r.2) := hp
          obtain ⟨front,hs,hb⟩ := stream_parse hp'
          exact ⟨1::front,by simp [stream,hs,Except.map],by simp [h₁,hb]⟩

instance {α β : Type} [Streamable α] [Streamable β] : Streamable (α × β) where
  stream p :=
    match stream p.1 with
    | .error e => .error e
    | .ok xs => (stream p.2).map (xs++·)
  parse bs :=
    match parse bs with
    | .error e => .error e
    | .ok (a,rest) => (parse rest).map fun r => ((a,r.1),r.2)

theorem stream_pair_eq_ok {α β : Type} [Streamable α] [Streamable β] {p : α × β}
    {bs : List UInt8} : stream p = .ok bs ↔
      ∃ xs ys, stream p.1 = .ok xs ∧ stream p.2 = .ok ys ∧ bs = xs++ys := by
  simp only [stream]
  cases (stream p.1 : Except StreamableError (List UInt8)) with
  | error e => simp
  | ok xs =>
    cases (stream p.2 : Except StreamableError (List UInt8)) with
    | error e => simp [Except.map]
    | ok ys => simp [Except.map,eq_comm]

theorem parse_pair_eq_ok {α β : Type} [Streamable α] [Streamable β] {p : α × β}
    {bs rest : List UInt8} : parse bs = .ok (p,rest) ↔
      ∃ mid, parse bs = .ok (p.1,mid) ∧ parse mid = .ok (p.2,rest) := by
  obtain ⟨a,b⟩ := p
  constructor
  · intro h
    simp only [parse] at h
    split at h
    · cases h
    · rename_i a' mid hp
      cases hq : (parse mid : Except StreamableError (β × List UInt8)) with
      | error e => simp [hq,Except.map] at h
      | ok r =>
        simp only [hq,Except.map,Except.ok.injEq,Prod.mk.injEq] at h
        obtain ⟨⟨rfl,rfl⟩,rfl⟩ := h
        exact ⟨mid,hp,hq⟩
  · rintro ⟨mid,hp,hq⟩
    simp only at hp hq
    simp [parse,hp,hq,Except.map]

instance {α β : Type} [Streamable α] [LawfulStreamable α] [Streamable β] [LawfulStreamable β] :
    LawfulStreamable (α × β) where
  parse_stream {p bs} h rest := by
    obtain ⟨xs,ys,hx,hy,rfl⟩ := stream_pair_eq_ok.mp h
    refine parse_pair_eq_ok.mpr ⟨ys++rest,?_,parse_stream hy rest⟩
    rw [List.append_assoc]
    exact parse_stream hx _
  stream_parse {p bs rest} h := by
    obtain ⟨mid,h₁,h₂⟩ := parse_pair_eq_ok.mp h
    obtain ⟨xs,hx,hb⟩ := stream_parse h₁
    obtain ⟨ys,hy,hm⟩ := stream_parse h₂
    exact ⟨xs++ys,stream_pair_eq_ok.mpr ⟨xs,ys,hx,hy,rfl⟩,by rw [hb,hm,List.append_assoc]⟩

namespace Streamable

/-- The codec a record inherits from the product of its fields. -/
@[reducible] def ofEquiv {α β : Type} [Streamable β] (e : α ≃ β) : Streamable α where
  stream a := stream (e a)
  parse bs := (parse bs).map fun r => (e.symm r.1,r.2)

theorem lawful_ofEquiv {α β : Type} [Streamable β] [LawfulStreamable β] (e : α ≃ β) :
    @LawfulStreamable α (ofEquiv e) := by
  let _ := ofEquiv e
  constructor
  · intro a bs h rest
    have hs : stream (e a) = .ok bs := h
    have hp := parse_stream hs rest
    change (parse (bs++rest)).map (fun r : β × List UInt8 => (e.symm r.1,r.2)) = .ok (a,rest)
    simp [hp,Except.map]
  · intro a bs rest h
    change (parse bs).map (fun r : β × List UInt8 => (e.symm r.1,r.2)) = .ok (a,rest) at h
    cases hp : (parse bs : Except StreamableError (β × List UInt8)) with
    | error err => simp [hp,Except.map] at h
    | ok r =>
      simp only [hp,Except.map,Except.ok.injEq,Prod.mk.injEq] at h
      obtain ⟨rfl,rfl⟩ := h
      have hp' : parse bs = .ok (r.1,r.2) := hp
      obtain ⟨front,hs,hb⟩ := stream_parse hp'
      exact ⟨front,by simpa [stream] using hs,hb⟩

end Streamable
end DigMessage
