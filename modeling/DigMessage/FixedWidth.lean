import Mathlib

/-! Fixed-width data: byte strings of a fixed length, big-endian words, and the
checked and saturating arithmetic of 64-bit machine integers. -/
namespace DigMessage
namespace FixedWidth

abbrev Bytes (n : ℕ) := {l : List UInt8 // l.length = n}

/-- The big-endian bytes of `v`, most significant first, in `w` bytes. -/
def bigEndian : ℕ → ℕ → List UInt8
  | 0, _ => []
  | w+1, v => UInt8.ofNat (v/256^w) :: bigEndian w v

def fromBigEndian : List UInt8 → ℕ
  | [] => 0
  | b::bs => b.toNat*256^bs.length+fromBigEndian bs

@[simp] theorem bigEndian_length (w v : ℕ) : (bigEndian w v).length = w := by
  induction w <;> simp_all [bigEndian]

theorem fromBigEndian_lt (bs : List UInt8) : fromBigEndian bs < 256^bs.length := by
  induction bs with
  | nil => simp [fromBigEndian]
  | cons b bs ih =>
    have hb := b.toNat_lt
    simp only [fromBigEndian,List.length_cons,pow_succ]
    calc b.toNat*256^bs.length+fromBigEndian bs
        < b.toNat*256^bs.length+256^bs.length := by omega
      _ = (b.toNat+1)*256^bs.length := by ring
      _ ≤ 256*256^bs.length := Nat.mul_le_mul_right _ (by omega)
      _ = 256^bs.length*256 := by ring

theorem fromBigEndian_bigEndian (w v : ℕ) : fromBigEndian (bigEndian w v) = v % 256^w := by
  induction w with
  | zero => simp [bigEndian,fromBigEndian,Nat.mod_one]
  | succ w ih =>
    have hm : v % 256^(w+1) = v % 256^w+256^w*(v/256^w % 256) := by rw [pow_succ,Nat.mod_mul]
    have hb : (UInt8.ofNat (v/256^w)).toNat = v/256^w % 256 := by simp
    rw [hm,bigEndian,fromBigEndian,bigEndian_length,ih,hb]
    ring

theorem bigEndian_mod (w v : ℕ) (k : ℕ) (hk : w ≤ k) : bigEndian w (v % 256^k) = bigEndian w v := by
  induction w with
  | zero => rfl
  | succ w ih =>
    simp only [bigEndian,ih (by omega)]
    congr 1
    apply UInt8.toNat_inj.mp
    simp only [UInt8.toNat_ofNat']
    obtain ⟨d,rfl⟩ := Nat.exists_eq_add_of_le hk
    have hp : 256^(w+1+d) = 256^w*(256*256^d) := by ring
    rw [hp,Nat.mod_mul_right_div_self]
    exact Nat.mod_mod_of_dvd _ ⟨256^d,by norm_num⟩

theorem bigEndian_fromBigEndian (bs : List UInt8) : bigEndian bs.length (fromBigEndian bs) = bs := by
  induction bs with
  | nil => rfl
  | cons b bs ih =>
    have hlt := fromBigEndian_lt bs
    have hdiv : (b.toNat*256^bs.length+fromBigEndian bs)/256^bs.length = b.toNat := by
      rw [Nat.mul_comm,Nat.mul_add_div (Nat.pow_pos (by omega)),Nat.div_eq_of_lt hlt,Nat.add_zero]
    have hlow : bigEndian bs.length (b.toNat*256^bs.length+fromBigEndian bs) = bs := by
      rw [← bigEndian_mod bs.length _ bs.length le_rfl,Nat.add_comm,Nat.add_mul_mod_self_right,
        Nat.mod_eq_of_lt hlt,ih]
    simp [bigEndian,fromBigEndian,hdiv,hlow]

/-- Addition that fails where the 64-bit sum would overflow. -/
def checkedAdd (a b : UInt64) : Option UInt64 :=
  if a.toNat+b.toNat < 2^64 then some (a+b) else none

theorem checkedAdd_eq_some {a b c : UInt64} :
    checkedAdd a b = some c ↔ c.toNat = a.toNat+b.toNat := by
  have hc := c.toNat_lt
  unfold checkedAdd
  split
  · rename_i h
    rw [Option.some.injEq,← UInt64.toNat_inj,UInt64.toNat_add,Nat.mod_eq_of_lt h,eq_comm]
  · rename_i h
    simp only [reduceCtorEq,false_iff]
    omega

def saturatingAdd (a b : UInt64) : UInt64 :=
  if a.toNat+b.toNat < 2^64 then a+b else UInt64.ofNat (2^64-1)

@[simp] theorem saturatingAdd_toNat (a b : UInt64) :
    (saturatingAdd a b).toNat = min (a.toNat+b.toNat) (2^64-1) := by
  unfold saturatingAdd
  split
  · rename_i h
    rw [UInt64.toNat_add,Nat.mod_eq_of_lt h]
    omega
  · rename_i h
    rw [UInt64.toNat_ofNat']
    omega

def saturatingSub (a b : UInt64) : UInt64 := if b ≤ a then a-b else 0

@[simp] theorem saturatingSub_toNat (a b : UInt64) :
    (saturatingSub a b).toNat = a.toNat-b.toNat := by
  unfold saturatingSub
  split
  · rename_i h
    exact UInt64.toNat_sub_of_le a b h
  · rename_i h
    have h' : a.toNat < b.toNat := UInt64.lt_iff_toNat_lt.mp (UInt64.not_le.mp h)
    rw [UInt64.toNat_zero]
    omega

theorem toNat_sub_one {a : UInt64} (h : a ≠ 0) : (a-1).toNat+1 = a.toNat := by
  have hpos : 0 < a.toNat := Nat.pos_of_ne_zero fun hz => h (UInt64.toNat_inj.mp hz)
  have hle : (1 : UInt64) ≤ a := UInt64.le_iff_toNat_le.mpr hpos
  have hsub : (a-1).toNat = a.toNat-1 := UInt64.toNat_sub_of_le a 1 hle
  omega

theorem max_toNat (a b : UInt64) : (max a b).toNat = max a.toNat b.toNat := by
  rw [show max a b = if a ≤ b then b else a from rfl]
  split
  · rename_i hle
    exact (max_eq_right (UInt64.le_iff_toNat_le.mp hle)).symm
  · rename_i hle
    have hlt := UInt64.lt_iff_toNat_lt.mp (UInt64.not_le.mp hle)
    exact (max_eq_left hlt.le).symm

end FixedWidth
end DigMessage
