import DigMessage.Streamable

/-! The size of an encoding, from the value alone: which values have one, and how long it is. -/
namespace DigMessage
open FixedWidth Streamable

/-- A codec whose encodings have a known length. -/
class SizedStreamable (α : Type) [Streamable α] where
  size : α → ℕ
  Fits : α → Prop
  encodes_iff : ∀ a : α, (∃ bs, stream a = .ok bs) ↔ Fits a
  length_eq : ∀ {a : α} {bs : List UInt8}, stream a = .ok bs → bs.length = size a

namespace SizedStreamable

instance : SizedStreamable UInt8 where
  size _ := 1
  Fits _ := True
  encodes_iff _ := iff_true_intro ⟨_,rfl⟩
  length_eq h := by
    cases h
    exact bigEndian_length _ _

instance : SizedStreamable UInt32 where
  size _ := 4
  Fits _ := True
  encodes_iff _ := iff_true_intro ⟨_,rfl⟩
  length_eq h := by
    cases h
    exact bigEndian_length _ _

instance : SizedStreamable UInt64 where
  size _ := 8
  Fits _ := True
  encodes_iff _ := iff_true_intro ⟨_,rfl⟩
  length_eq h := by
    cases h
    exact bigEndian_length _ _

instance {n : ℕ} : SizedStreamable (Bytes n) where
  size _ := n
  Fits _ := True
  encodes_iff _ := iff_true_intro ⟨_,rfl⟩
  length_eq {a bs} h := by
    cases h
    exact a.2

/-- A vector of bytes is the only codec that refuses values. -/
instance : SizedStreamable (List UInt8) where
  size xs := 4+xs.length
  Fits xs := xs.length < 2^32
  encodes_iff xs := by
    simp only [stream]
    split <;> simp_all
  length_eq {xs bs} h := by
    simp only [stream] at h
    split at h
    · cases h
      rw [List.length_append,bigEndian_length]
    · cases h

instance {α : Type} [Streamable α] [SizedStreamable α] : SizedStreamable (Option α) where
  size o := 1+(o.map size).getD 0
  Fits o := ∀ a, o = some a → Fits a
  encodes_iff o := by
    cases o with
    | none => simp [stream]
    | some a =>
      simp only [stream,Option.some.injEq,forall_eq',← encodes_iff]
      constructor
      · rintro ⟨bs,h⟩
        cases hs : (stream a : Except StreamableError (List UInt8)) with
        | error e => simp [hs,Except.map] at h
        | ok xs => exact ⟨xs,rfl⟩
      · rintro ⟨bs,h⟩
        exact ⟨_,by rw [h]; rfl⟩
  length_eq {o bs} h := by
    cases o with
    | none =>
      cases h
      rfl
    | some a =>
      simp only [stream] at h
      cases hs : (stream a : Except StreamableError (List UInt8)) with
      | error e => simp [hs,Except.map] at h
      | ok xs =>
        simp only [hs,Except.map,Except.ok.injEq] at h
        subst h
        simp [length_eq hs,Nat.add_comm]

instance {α β : Type} [Streamable α] [SizedStreamable α] [Streamable β] [SizedStreamable β] :
    SizedStreamable (α × β) where
  size p := size p.1+size p.2
  Fits p := Fits p.1 ∧ Fits p.2
  encodes_iff p := by
    simp only [stream_pair_eq_ok,← encodes_iff]
    constructor
    · rintro ⟨_,xs,ys,hx,hy,-⟩
      exact ⟨⟨xs,hx⟩,ys,hy⟩
    · rintro ⟨⟨xs,hx⟩,ys,hy⟩
      exact ⟨xs++ys,xs,ys,hx,hy,rfl⟩
  length_eq {p bs} h := by
    obtain ⟨xs,ys,hx,hy,rfl⟩ := stream_pair_eq_ok.mp h
    rw [List.length_append,length_eq hx,length_eq hy]

@[reducible] def sizedOfEquiv {α β : Type} [Streamable β] [SizedStreamable β] (e : α ≃ β) :
    @SizedStreamable α (ofEquiv e) :=
  let _ := ofEquiv e
  ⟨fun a => size (e a),fun a => Fits (e a),fun a => encodes_iff (e a),fun {a _} h => length_eq (a:=e a) h⟩

theorem exists_encoding {α : Type} [Streamable α] [SizedStreamable α] {a : α} (h : Fits a) :
    ∃ bs, toBytes a = .ok bs ∧ bs.length = size a := by
  obtain ⟨bs,hbs⟩ := (encodes_iff a).mpr h
  exact ⟨bs,hbs,length_eq hbs⟩

end SizedStreamable
end DigMessage
