import DigMessage.SenderWindow

/-! The shift of the window as one shift of a word of 1024 bits. -/
namespace DigMessage

def Bitmap.value (bits : Bitmap) : BitVec replayWindow :=
  (BitVec.ofBoolListLE ((List.range replayWindow).map bits.bit)).cast (by simp)

theorem Bitmap.getLsbD_value (bits : Bitmap) {i : ℕ} (hi : i < replayWindow) :
    bits.value.getLsbD i = bits.bit i := by
  rw [Bitmap.value,BitVec.getLsbD_cast,BitVec.getLsbD_ofBoolListLE]
  simp [List.getD,hi]

namespace SenderWindow

theorem value_shiftLeft (w : SenderWindow) (diff : UInt64) :
    ∃ bits, w.shiftLeft 64 diff = some {w with bits} ∧ bits.value = w.bits.value <<< diff.toNat := by
  obtain ⟨bits,hshift,hbits⟩ := shiftLeft_eq 64 w diff
  refine ⟨bits,hshift,BitVec.eq_of_getLsbD_eq fun i hi => ?_⟩
  rw [Bitmap.getLsbD_value bits hi,hbits i hi,asUsize_64,BitVec.getLsbD_shiftLeft]
  by_cases hle : diff.toNat ≤ i
  · have hlt : i-diff.toNat < replayWindow := by omega
    have hnot : ¬ i < diff.toNat := by omega
    rw [Bitmap.getLsbD_value _ hlt]
    simp [hle,hi,hnot]
  · have hlt : i < diff.toNat := by omega
    simp [hle,hlt]

theorem getBit_of_lt (w : SenderWindow) {offset : UInt64} (h : offset.toNat < replayWindow) :
    w.getBit 64 offset = some (w.bits.bit offset.toNat) := by
  have hi : asUsize 64 offset < replayWindow := by rwa [asUsize_64]
  rw [getBit_eq 64 w offset hi,asUsize_64]

/-- The shift never panics: it reads and writes within the sixteen words, subtracts no more than
there is and shifts by less than a word. It touches the bitmap alone, and leaves bit `i` set
exactly where `i` reaches `diff` and bit `i - diff` was set. -/
theorem shift_left_exact (w : SenderWindow) (diff : UInt64) :
    ∃ bits, w.shiftLeft 64 diff = some {w with bits} ∧ ∀ i : UInt64, i.toNat < replayWindow →
      ∃ b, getBit 64 {w with bits} i = some b ∧
        (b = true ↔ diff ≤ i ∧ w.getBit 64 (i-diff) = some true) := by
  obtain ⟨bits,hshift,hvalue⟩ := w.value_shiftLeft diff
  refine ⟨bits,hshift,fun i hi => ⟨bits.bit i.toNat,getBit_of_lt {w with bits} hi,?_⟩⟩
  have hbit : bits.bit i.toNat = (w.bits.value <<< diff.toNat).getLsbD i.toNat := by
    rw [← hvalue,Bitmap.getLsbD_value bits hi]
  rw [hbit,BitVec.getLsbD_shiftLeft]
  by_cases hle : diff ≤ i
  · have hle' := UInt64.le_iff_toNat_le.mp hle
    have hsub : (i-diff).toNat = i.toNat-diff.toNat := UInt64.toNat_sub_of_le _ _ hle
    have hlt : (i-diff).toNat < replayWindow := by omega
    rw [getBit_of_lt w hlt,hsub,Bitmap.getLsbD_value _ (by omega)]
    simp [hle,hi,hle']
  · have hlt : i.toNat < diff.toNat := UInt64.lt_iff_toNat_lt.mp (UInt64.not_le.mp hle)
    simp [hle,hlt]

/-- A window that has seen one counter, shifted across a word. -/
theorem first_bit_shifted : ∃ w bits, new.admitCounter 64 5 = some (true,w) ∧
    w.shiftLeft 64 70 = some {w with bits} ∧ getBit 64 {w with bits} 70 = some true ∧
    getBit 64 {w with bits} 6 = some false := by
  have hadmit : ∃ w, new.admitCounter 64 5 = some (true,w) ∧ w.getBit 64 0 = some true :=
    ⟨_,rfl,by decide +kernel⟩
  obtain ⟨w,hw,hbit⟩ := hadmit
  obtain ⟨bits,hshift,hbits⟩ := w.shift_left_exact 70
  obtain ⟨b,hb,hiff⟩ := hbits 70 (by decide)
  obtain ⟨b',hb',hiff'⟩ := hbits 6 (by decide)
  have htrue : b = true := hiff.mpr ⟨by decide,hbit⟩
  have hfalse : b' = false := by
    cases b' with
    | false => rfl
    | true => exact absurd (hiff'.mp rfl).1 (by decide)
  rw [htrue] at hb
  rw [hfalse] at hb'
  exact ⟨w,bits,hw,hshift,hb,hb'⟩

end SenderWindow
end DigMessage
