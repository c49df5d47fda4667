import DigMessage.Streamable

/-! The language of a codec: which byte strings encode a value. The encodings of a record are
the concatenations of those of its fields, and fixed-width fields run together. -/
namespace DigMessage
open FixedWidth

namespace Streamable

/-- The byte strings that encode a value of `α`. -/
def encodings (α : Type) [Streamable α] : Language UInt8 := {bs | ∃ a : α, stream a = .ok bs}

def words (n : ℕ) : Language UInt8 := {bs | bs.length = n}

theorem mem_encodings {α : Type} [Streamable α] {bs : List UInt8} :
    bs ∈ encodings α ↔ ∃ a : α, stream a = .ok bs := Iff.rfl

theorem mem_words {n : ℕ} {bs : List UInt8} : bs ∈ words n ↔ bs.length = n := Iff.rfl

/-- A byte string parses as a whole exactly where it encodes a value. -/
theorem exists_fromBytes_iff {α : Type} [Streamable α] [LawfulStreamable α] {bs : List UInt8} :
    (∃ a : α, fromBytes bs = .ok a) ↔ bs ∈ encodings α := exists_congr fun _ => fromBytes_iff

theorem words_mul (m n : ℕ) : words m*words n = words (m+n) := by
  ext bs
  rw [Language.mem_mul,mem_words]
  constructor
  · rintro ⟨xs,hx,ys,hy,rfl⟩
    rw [mem_words] at hx hy
    rw [List.length_append,hx,hy]
  · intro h
    refine ⟨bs.take m,?_,bs.drop m,?_,List.take_append_drop m bs⟩
    · rw [mem_words,List.length_take]
      omega
    · rw [mem_words,List.length_drop]
      omega

theorem encodings_pair (α β : Type) [Streamable α] [Streamable β] :
    encodings (α × β) = encodings α*encodings β := by
  ext bs
  rw [Language.mem_mul,mem_encodings]
  constructor
  · rintro ⟨p,hp⟩
    obtain ⟨xs,ys,hx,hy,rfl⟩ := stream_pair_eq_ok.mp hp
    exact ⟨xs,⟨p.1,hx⟩,ys,⟨p.2,hy⟩,rfl⟩
  · rintro ⟨xs,⟨a,ha⟩,ys,⟨b,hb⟩,rfl⟩
    exact ⟨(a,b),stream_pair_eq_ok.mpr ⟨xs,ys,ha,hb,rfl⟩⟩

theorem map_eq_ok {ε α β : Type} {x : Except ε α} {f : α → β} {b : β} :
    x.map f = .ok b ↔ ∃ a, x = .ok a ∧ f a = b := by
  cases x <;> simp [Except.map]

theorem encodings_option (α : Type) [Streamable α] :
    encodings (Option α) = {[0]}+{[1]}*encodings α := by
  ext bs
  rw [Language.mem_add,Language.mem_mul,mem_encodings]
  constructor
  · rintro ⟨o,ho⟩
    cases o with
    | none =>
      cases ho
      exact Or.inl rfl
    | some a =>
      obtain ⟨xs,hx,rfl⟩ := map_eq_ok.mp ho
      exact Or.inr ⟨[1],rfl,xs,⟨a,hx⟩,rfl⟩
  · rintro (rfl | ⟨_,rfl,xs,⟨a,ha⟩,rfl⟩)
    · exact ⟨none,rfl⟩
    · exact ⟨some a,map_eq_ok.mpr ⟨xs,ha,rfl⟩⟩

theorem encodings_ofEquiv {α β : Type} [Streamable β] (e : α ≃ β) :
    @encodings α (ofEquiv e) = encodings β := by
  ext bs
  constructor
  · rintro ⟨a,ha⟩
    exact ⟨e a,ha⟩
  · rintro ⟨b,hb⟩
    refine ⟨e.symm b,?_⟩
    change stream (e (e.symm b)) = .ok bs
    rw [Equiv.apply_symm_apply]
    exact hb

def followed (x y : Except StreamableError (List UInt8)) : Except StreamableError (List UInt8) :=
  match x with
  | .error e => .error e
  | .ok xs => y.map (xs++·)

theorem stream_pair {α β : Type} [Streamable α] [Streamable β] (a : α) (b : β) :
    stream (a,b) = followed (stream a) (stream b) := rfl

theorem followed_ok (xs : List UInt8) (y : Except StreamableError (List UInt8)) :
    followed (.ok xs) y = y.map (xs++·) := rfl

theorem followed_assoc (x y z : Except StreamableError (List UInt8)) :
    followed (followed x y) z = followed x (followed y z) := by
  cases x with
  | error e => rfl
  | ok xs =>
    cases y with
    | error e => rfl
    | ok ys => cases z <;> simp [followed,Except.map]

theorem encodings_word {α : Type} [Streamable α] {w : ℕ} (toNat : α → ℕ) (ofNat : ℕ → α)
    (hstream : ∀ a : α, stream a = .ok (bigEndian w (toNat a)))
    (hto : ∀ n, n < 256^w → toNat (ofNat n) = n) : encodings α = words w := by
  ext bs
  rw [mem_encodings,mem_words]
  constructor
  · rintro ⟨a,ha⟩
    rw [hstream] at ha
    cases ha
    exact bigEndian_length w _
  · rintro rfl
    refine ⟨ofNat (fromBigEndian bs),?_⟩
    rw [hstream,hto _ (fromBigEndian_lt bs),bigEndian_fromBigEndian]

theorem encodings_uint8 : encodings UInt8 = words 1 :=
  encodings_word UInt8.toNat UInt8.ofNat (fun _ => rfl) fun n hn => by simpa using hn

theorem encodings_uint32 : encodings UInt32 = words 4 :=
  encodings_word UInt32.toNat UInt32.ofNat (fun _ => rfl) fun n hn => by simpa using hn

theorem encodings_uint64 : encodings UInt64 = words 8 :=
  encodings_word UInt64.toNat UInt64.ofNat (fun _ => rfl) fun n hn => by simpa using hn

theorem encodings_bytes (n : ℕ) : encodings (Bytes n) = words n := by
  ext bs
  rw [mem_encodings,mem_words]
  constructor
  · rintro ⟨b,hb⟩
    cases hb
    exact b.2
  · exact fun h => ⟨⟨bs,h⟩,rfl⟩

/-- Four bytes of length, and that many bytes. -/
def vectors : Language UInt8 := {bs | ∃ xs : List UInt8, xs.length < 2^32 ∧
  bs = bigEndian 4 xs.length++xs}

theorem encodings_vector : encodings (List UInt8) = vectors := by
  ext bs
  constructor
  · rintro ⟨xs,hx⟩
    simp only [stream] at hx
    split at hx
    · rename_i hlen
      cases hx
      exact ⟨xs,hlen,rfl⟩
    · cases hx
  · rintro ⟨xs,hlen,rfl⟩
    exact ⟨xs,if_pos hlen⟩

end Streamable
end DigMessage
