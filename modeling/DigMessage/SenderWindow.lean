import DigMessage.Envelope

/-! The per-sender sliding window: a bitmap of sixteen 64-bit words shifted as the
highest counter advances. Every array access, subtraction and shift of the code is
checked here, so that a panic is the value `none`. -/
namespace DigMessage
open FixedWidth

def windowWords : ℕ := replayWindow/64

abbrev Bitmap := Vector (BitVec 64) windowWords

/-- A 64-bit value cast to a machine index of `usizeBits` bits. -/
def asUsize (usizeBits : ℕ) (x : UInt64) : ℕ := x.toNat % 2^usizeBits

def checkedSub (a b : ℕ) : Option ℕ := if b ≤ a then some (a-b) else none
def checkedShl (x : BitVec 64) (n : ℕ) : Option (BitVec 64) := if n < 64 then some (x <<< n) else none
def checkedShr (x : BitVec 64) (n : ℕ) : Option (BitVec 64) := if n < 64 then some (x >>> n) else none

def setWord (bits : Bitmap) (i : ℕ) (v : BitVec 64) : Option Bitmap :=
  if h : i < windowWords then some (bits.set i v) else none

/-- The anti-replay state of one sender: bit `i` marks the counter `highest - i` as seen. -/
structure SenderWindow where
  highest : UInt64
  bits : Bitmap
  lastSeenMs : UInt64
  started : Bool
  deriving DecidableEq

namespace SenderWindow

def new : SenderWindow := ⟨0,Vector.replicate windowWords 0#64,0,false⟩

def getBit (usizeBits : ℕ) (w : SenderWindow) (offset : UInt64) : Option Bool := do
  let i := asUsize usizeBits offset
  let word ← w.bits[i/64]?
  pure ((word >>> (i % 64)) &&& 1 == 1)

def setBit (usizeBits : ℕ) (w : SenderWindow) (offset : UInt64) : Option SenderWindow := do
  let i := asUsize usizeBits offset
  let word ← w.bits[i/64]?
  let bits ← setWord w.bits (i/64) (word ||| (1#64 <<< (i % 64)))
  pure {w with bits}

/-- Word `i` of the shifted bitmap, with the carry of the word below it. -/
def shiftWord (bits : Bitmap) (wordShift bitShift i : ℕ) : Option (BitVec 64) :=
  if i ≥ wordShift then do
    let j ← checkedSub i wordShift
    let word ← bits[j]?
    let v ← checkedShl word bitShift
    if bitShift > 0 ∧ i > wordShift then do
      let k ← checkedSub j 1
      let below ← bits[k]?
      let n ← checkedSub 64 bitShift
      let carry ← checkedShr below n
      pure (v ||| carry)
    else pure v
  else pure 0

/-- Shift the window left by `diff` bits: offsets grow as `highest` advances. -/
def shiftLeft (usizeBits : ℕ) (w : SenderWindow) (diff : UInt64) : Option SenderWindow :=
  if asUsize usizeBits diff ≥ replayWindow then
    some {w with bits := Vector.replicate windowWords 0#64}
  else do
    let shift := asUsize usizeBits diff
    let wordShift := shift/64
    let bitShift := shift % 64
    let out ← (List.range windowWords).reverse.foldlM (fun (out : Bitmap) i => do
      let v ← shiftWord w.bits wordShift bitShift i
      setWord out i v) (Vector.replicate windowWords 0#64)
    pure {w with bits := out}

/-- The sliding-window decision for `counter`, updating the state where it accepts. -/
def admitCounter (usizeBits : ℕ) (w : SenderWindow) (counter : UInt64) : Option (Bool × SenderWindow) :=
  if !w.started then do
    let w ← setBit usizeBits {w with started := true,highest := counter} 0
    pure (true,w)
  else if counter > w.highest then do
    let diff := counter-w.highest
    let w ← shiftLeft usizeBits w diff
    let w ← setBit usizeBits {w with highest := counter} 0
    pure (true,w)
  else do
    let offset := w.highest-counter
    if asUsize usizeBits offset ≥ replayWindow then pure (false,w)
    else do
      if ← getBit usizeBits w offset then pure (false,w)
      else
        let w ← setBit usizeBits w offset
        pure (true,w)

end SenderWindow

def Bitmap.bit (bits : Bitmap) (i : ℕ) : Bool := (bits[i/64]?.getD 0).getLsbD (i % 64)

namespace Bitmap

@[simp] theorem bit_replicate_zero (i : ℕ) : Bitmap.bit (Vector.replicate windowWords 0#64) i = false := by
  unfold Bitmap.bit
  by_cases h : i/64 < windowWords <;> simp [h]

theorem bit_of_word (bits : Bitmap) (i : ℕ) (h : i/64 < windowWords) :
    bits.bit i = bits[i/64].getLsbD (i % 64) := by
  simp [Bitmap.bit,h]

end Bitmap

namespace SenderWindow

theorem getBit_eq (usizeBits : ℕ) (w : SenderWindow) (offset : UInt64)
    (h : asUsize usizeBits offset < replayWindow) :
    w.getBit usizeBits offset = some (w.bits.bit (asUsize usizeBits offset)) := by
  have hi : asUsize usizeBits offset/64 < windowWords := by
    simp only [windowWords,replayWindow] at *
    omega
  have hb := Bitmap.bit_of_word w.bits _ hi
  simp only [getBit,Vector.getElem?_eq_getElem hi,hb,Option.pure_def,Option.bind_eq_bind,
    Option.bind_some,Option.some.injEq]
  apply Bool.eq_iff_iff.mpr
  rw [beq_iff_eq]
  constructor
  · intro he
    have h₀ := congrArg (fun v : BitVec 64 => v.getLsbD 0) he
    simpa using h₀
  · intro ht
    ext k hk
    by_cases h₀ : k = 0
    · subst h₀; simpa using ht
    · simp [h₀]

theorem setWord_eq (bits : Bitmap) {i : ℕ} (v : BitVec 64) (h : i < windowWords) :
    ∃ out, setWord bits i v = some out ∧
      ∀ j, out.bit j = if j/64 = i then v.getLsbD (j % 64) else bits.bit j := by
  refine ⟨bits.set i v,by simp only [setWord,dif_pos h],fun j => ?_⟩
  unfold Bitmap.bit
  by_cases hj : j/64 < windowWords
  · simp only [Vector.getElem?_eq_getElem hj,Option.getD_some,Vector.getElem_set]
    split <;> simp_all [eq_comm]
  · have hne : j/64 ≠ i := by omega
    simp [hj,hne]

theorem setBit_eq (usizeBits : ℕ) (w : SenderWindow) (offset : UInt64)
    (h : asUsize usizeBits offset < replayWindow) :
    ∃ bits, w.setBit usizeBits offset = some {w with bits} ∧
      ∀ i, bits.bit i = (decide (i = asUsize usizeBits offset) || w.bits.bit i) := by
  have hi : asUsize usizeBits offset/64 < windowWords := by
    simp only [windowWords,replayWindow] at *
    omega
  generalize ho : asUsize usizeBits offset = o at *
  obtain ⟨bits,hs,hb⟩ := setWord_eq w.bits (w.bits[o/64] ||| (1#64 <<< (o % 64))) hi
  refine ⟨bits,by simp [setBit,ho,Vector.getElem?_eq_getElem hi,hs],fun i => ?_⟩
  rw [hb]
  split
  · rename_i hd
    have hw : w.bits.bit i = w.bits[o/64].getLsbD (i % 64) := by
      rw [Bitmap.bit_of_word w.bits i (by omega)]
      simp only [hd]
    have hlt : i % 64 < 64 := Nat.mod_lt _ (by omega)
    have hone : (1#64 <<< (o % 64)).getLsbD (i % 64) = decide (i = o) := by
      simp only [BitVec.getLsbD_shiftLeft,BitVec.getLsbD_one,hlt,decide_true,Bool.true_and]
      by_cases he : i = o
      · simp [he]
      · have hm : i % 64 ≠ o % 64 := by omega
        simp only [he,decide_false,Bool.and_eq_false_iff,Bool.not_eq_false',decide_eq_true_eq,
          decide_eq_false_iff_not]
        omega
    rw [hw,BitVec.getLsbD_or]
    rw [hone,Bool.or_comm]
  · rename_i hd
    have hne : i ≠ o := fun he => hd (by rw [he])
    simp [hne]

theorem shiftWord_eq (bits : Bitmap) (wordShift : ℕ) {bitShift i : ℕ} (hi : i < windowWords)
    (hb : bitShift < 64) :
    ∃ v, shiftWord bits wordShift bitShift i = some v ∧ ∀ k, k < 64 → v.getLsbD k =
      (decide (wordShift*64+bitShift ≤ i*64+k) && bits.bit (i*64+k-(wordShift*64+bitShift))) := by
  by_cases hw : wordShift ≤ i
  · have hj : i-wordShift < windowWords := by omega
    have hlow : ∀ k, k < 64 → (bits[i-wordShift] <<< bitShift).getLsbD k =
        (decide (bitShift ≤ k) && bits.bit (i*64+k-(wordShift*64+bitShift))) := by
      intro k hk
      by_cases hbk : bitShift ≤ k
      · have hd : (i*64+k-(wordShift*64+bitShift))/64 = i-wordShift := by omega
        have hm : (i*64+k-(wordShift*64+bitShift)) % 64 = k-bitShift := by omega
        rw [Bitmap.bit_of_word _ _ (by omega),BitVec.getLsbD_shiftLeft]
        simp only [hd,hm,hk,hbk,show ¬ k < bitShift by omega,decide_true,decide_false,Bool.not_false,
          Bool.true_and]
      · rw [BitVec.getLsbD_shiftLeft]
        simp [hbk,show k < bitShift by omega]
    by_cases hc : bitShift > 0 ∧ i > wordShift
    · refine ⟨bits[i-wordShift] <<< bitShift ||| bits[i-wordShift-1] >>> (64-bitShift),?_,?_⟩
      · simp [shiftWord,hw,hc,checkedSub,checkedShl,checkedShr,hb,show 1 ≤ i-wordShift by omega,
          show bitShift ≤ 64 by omega,show 64-bitShift < 64 by omega,
          Vector.getElem?_eq_getElem hj,Vector.getElem?_eq_getElem (show i-wordShift-1 < windowWords by omega)]
      · intro k hk
        rw [BitVec.getLsbD_or,hlow k hk,BitVec.getLsbD_ushiftRight]
        by_cases hbk : bitShift ≤ k
        · have hz : bits[i-wordShift-1].getLsbD (64-bitShift+k) = false :=
            BitVec.getLsbD_of_ge _ _ (by omega)
          have hle : wordShift*64+bitShift ≤ i*64+k := by omega
          simp [hz,hbk,hle]
        · have hle : wordShift*64+bitShift ≤ i*64+k := by omega
          have hd : (i*64+k-(wordShift*64+bitShift))/64 = i-wordShift-1 := by omega
          have hm : (i*64+k-(wordShift*64+bitShift)) % 64 = 64-bitShift+k := by omega
          rw [Bitmap.bit_of_word _ _ (by omega)]
          simp [hbk,hle,hd,hm]
    · refine ⟨bits[i-wordShift] <<< bitShift,?_,?_⟩
      · simp [shiftWord,hw,hc,checkedSub,checkedShl,hb,Vector.getElem?_eq_getElem hj]
      · intro k hk
        rw [hlow k hk]
        -- without a carry either no bit is shifted in or the word below is off the window
        by_cases hbk : bitShift ≤ k
        · simp [hbk,show wordShift*64+bitShift ≤ i*64+k by omega]
        · simp [hbk,show ¬ wordShift*64+bitShift ≤ i*64+k by omega]
  · refine ⟨0,by simp [shiftWord,hw],fun k hk => ?_⟩
    simp [show ¬ wordShift*64+bitShift ≤ i*64+k by omega]

theorem shiftLoop_eq (bits : Bitmap) (wordShift : ℕ) {bitShift : ℕ} (hb : bitShift < 64)
    (is : List ℕ) (his : ∀ i ∈ is, i < windowWords) (out : Bitmap) :
    ∃ out', is.foldlM (fun (out : Bitmap) i => do
        let v ← shiftWord bits wordShift bitShift i
        setWord out i v) out = some out' ∧
      ∀ j, out'.bit j = if j/64 ∈ is then
        (decide (wordShift*64+bitShift ≤ j) && bits.bit (j-(wordShift*64+bitShift)))
        else out.bit j := by
  induction is generalizing out with
  | nil => exact ⟨out,rfl,by simp⟩
  | cons i is ih =>
    have hi := his i (by simp)
    obtain ⟨v,hv,hvb⟩ := shiftWord_eq bits wordShift hi hb
    obtain ⟨next,hn,hnb⟩ := setWord_eq out v hi
    obtain ⟨out',ho,hob⟩ := ih (fun k hk => his k (by simp [hk])) next
    refine ⟨out',?_,fun j => ?_⟩
    · rw [List.foldlM_cons]
      simp only [hv,hn,Option.bind_eq_bind,Option.bind_some]
      exact ho
    rw [hob,hnb]
    have hlt : j % 64 < 64 := Nat.mod_lt _ (by omega)
    by_cases hmem : j/64 ∈ is
    · simp [hmem]
    · by_cases he : j/64 = i
      · have hj : i*64+j % 64 = j := by omega
        simp [he,hvb _ hlt,hj]
      · simp [hmem,he]

/-- Shifting moves every bit up by `diff`, and what passes the window's end is gone. -/
theorem shiftLeft_eq (usizeBits : ℕ) (w : SenderWindow) (diff : UInt64) :
    ∃ bits, w.shiftLeft usizeBits diff = some {w with bits} ∧
      ∀ i, i < replayWindow → bits.bit i =
        (decide (asUsize usizeBits diff ≤ i) && w.bits.bit (i-asUsize usizeBits diff)) := by
  unfold shiftLeft
  split
  · rename_i h
    refine ⟨_,rfl,fun i hi => ?_⟩
    simp [show ¬ asUsize usizeBits diff ≤ i by omega]
  · have hlt : asUsize usizeBits diff % 64 < 64 := Nat.mod_lt _ (by omega)
    have hall : ∀ i ∈ (List.range windowWords).reverse, i < windowWords := by simp
    obtain ⟨out,ho,hob⟩ := shiftLoop_eq w.bits (asUsize usizeBits diff/64) hlt
      (List.range windowWords).reverse hall (Vector.replicate windowWords 0#64)
    refine ⟨out,?_,fun i hi => ?_⟩
    · simp only [Option.bind_eq_bind] at ho ⊢
      rw [ho]
      rfl
    have hmem : i/64 ∈ (List.range windowWords).reverse := by
      simp only [List.mem_reverse,List.mem_range,windowWords,replayWindow] at *
      omega
    have hsum : asUsize usizeBits diff/64*64+asUsize usizeBits diff % 64 = asUsize usizeBits diff := by
      omega
    rw [hob,if_pos hmem,hsum]

theorem asUsize_64 (x : UInt64) : asUsize 64 x = x.toNat := Nat.mod_eq_of_lt x.toNat_lt

theorem asUsize_sub (usizeBits : ℕ) {a b : UInt64} (h : b ≤ a) :
    asUsize usizeBits (a-b) = (a.toNat-b.toNat) % 2^usizeBits := by
  rw [asUsize,UInt64.toNat_sub_of_le _ _ h]

/-- What one call of `admitCounter` can do: start, advance, refuse, or fill a gap in the window.
The distance from the highest counter is taken modulo the range of an index. -/
theorem admitCounter_cases_on (usizeBits : ℕ) (w : SenderWindow) (counter : UInt64) :
    (w.started = false ∧ ∃ bits,
      w.admitCounter usizeBits counter = some (true,{w with bits,started := true,highest := counter}) ∧
      ∀ i, bits.bit i = (decide (i = 0) || w.bits.bit i)) ∨
    (w.started = true ∧ w.highest.toNat < counter.toNat ∧ ∃ bits,
      w.admitCounter usizeBits counter = some (true,{w with bits,highest := counter}) ∧
      ∀ i, i < replayWindow → bits.bit i = (decide (i = 0) ||
        (decide ((counter.toNat-w.highest.toNat) % 2^usizeBits ≤ i) &&
          w.bits.bit (i-(counter.toNat-w.highest.toNat) % 2^usizeBits)))) ∨
    (w.started = true ∧ counter.toNat ≤ w.highest.toNat ∧
      (replayWindow ≤ (w.highest.toNat-counter.toNat) % 2^usizeBits ∨
        w.bits.bit ((w.highest.toNat-counter.toNat) % 2^usizeBits) = true) ∧
      w.admitCounter usizeBits counter = some (false,w)) ∨
    (w.started = true ∧ counter.toNat ≤ w.highest.toNat ∧
      (w.highest.toNat-counter.toNat) % 2^usizeBits < replayWindow ∧
      w.bits.bit ((w.highest.toNat-counter.toNat) % 2^usizeBits) = false ∧ ∃ bits,
      w.admitCounter usizeBits counter = some (true,{w with bits}) ∧
      ∀ i, bits.bit i =
        (decide (i = (w.highest.toNat-counter.toNat) % 2^usizeBits) || w.bits.bit i)) := by
  have hzero : asUsize usizeBits 0 = 0 := Nat.zero_mod _
  have h₀ : asUsize usizeBits 0 < replayWindow := by
    rw [hzero]
    decide
  by_cases hs : w.started
  · by_cases hc : counter > w.highest
    · obtain ⟨bits₁,hb₁,hbit₁⟩ := shiftLeft_eq usizeBits w (counter-w.highest)
      obtain ⟨bits₂,hb₂,hbit₂⟩ :=
        setBit_eq usizeBits {w with bits := bits₁,highest := counter} 0 h₀
      have hlt := UInt64.lt_iff_toNat_lt.mp hc
      rw [asUsize_sub usizeBits (UInt64.le_of_lt hc)] at hbit₁
      refine Or.inr (Or.inl ⟨hs,hlt,bits₂,?_,fun i hi => ?_⟩)
      · simp only [hs] at hb₂
        simp only [admitCounter,hs,hc,hb₁,hb₂,Bool.not_true,Bool.false_eq_true,if_false,if_true,
          Option.bind_eq_bind,Option.bind_some,Option.pure_def]
      · rw [hbit₂,hbit₁ i hi,hzero]
    · have hle : counter ≤ w.highest := UInt64.not_lt.mp hc
      have hle' := UInt64.le_iff_toNat_le.mp hle
      have hd := asUsize_sub usizeBits hle
      generalize (w.highest.toNat-counter.toNat) % 2^usizeBits = o at *
      by_cases hr : replayWindow ≤ o
      · refine Or.inr (Or.inr (Or.inl ⟨hs,hle',Or.inl hr,?_⟩))
        simp only [admitCounter,hs,hc,hd,hr,Bool.not_true,Bool.false_eq_true,if_false,if_true,
          Option.pure_def]
      · have hg := getBit_eq usizeBits w (w.highest-counter) (by rw [hd]; omega)
        rw [hd] at hg
        cases hb : w.bits.bit o with
        | true =>
          refine Or.inr (Or.inr (Or.inl ⟨hs,hle',Or.inr rfl,?_⟩))
          simp only [admitCounter,hs,hc,hd,hr,hg,hb,Bool.not_true,Bool.false_eq_true,if_false,if_true,
            Option.bind_eq_bind,Option.bind_some,Option.pure_def]
        | false =>
          obtain ⟨bits,hb₁,hbit⟩ :=
            setBit_eq usizeBits w (w.highest-counter) (by rw [hd]; omega)
          rw [hd] at hbit
          refine Or.inr (Or.inr (Or.inr ⟨hs,hle',by omega,rfl,bits,?_,hbit⟩))
          simp only [admitCounter,hs,hc,hd,hr,hg,hb,hb₁,Bool.not_true,Bool.false_eq_true,if_false,
            Option.bind_eq_bind,Option.bind_some,Option.pure_def]
  · have hs' : w.started = false := by simpa using hs
    obtain ⟨bits,hb,hbit⟩ :=
      setBit_eq usizeBits {w with started := true,highest := counter} 0 h₀
    refine Or.inl ⟨hs',bits,?_,fun i => ?_⟩
    · simp only [admitCounter,hs',hb,Bool.not_false,if_true,Option.bind_eq_bind,Option.bind_some,
        Option.pure_def]
    · rw [hbit,hzero]

theorem admitCounter_cases (w : SenderWindow) (counter : UInt64) :
    (w.started = false ∧ ∃ bits,
      w.admitCounter 64 counter = some (true,{w with bits,started := true,highest := counter}) ∧
      ∀ i, bits.bit i = (decide (i = 0) || w.bits.bit i)) ∨
    (w.started = true ∧ w.highest.toNat < counter.toNat ∧ ∃ bits,
      w.admitCounter 64 counter = some (true,{w with bits,highest := counter}) ∧
      ∀ i, i < replayWindow → bits.bit i = (decide (i = 0) ||
        (decide (counter.toNat-w.highest.toNat ≤ i) &&
          w.bits.bit (i-(counter.toNat-w.highest.toNat))))) ∨
    (w.started = true ∧ counter.toNat ≤ w.highest.toNat ∧
      (replayWindow ≤ w.highest.toNat-counter.toNat ∨
        w.bits.bit (w.highest.toNat-counter.toNat) = true) ∧
      w.admitCounter 64 counter = some (false,w)) ∨
    (w.started = true ∧ counter.toNat ≤ w.highest.toNat ∧
      w.highest.toNat-counter.toNat < replayWindow ∧
      w.bits.bit (w.highest.toNat-counter.toNat) = false ∧ ∃ bits,
      w.admitCounter 64 counter = some (true,{w with bits}) ∧
      ∀ i, bits.bit i = (decide (i = w.highest.toNat-counter.toNat) || w.bits.bit i)) := by
  have hc := counter.toNat_lt
  have hh := w.highest.toNat_lt
  have hup : (counter.toNat-w.highest.toNat) % 2^64 = counter.toNat-w.highest.toNat :=
    Nat.mod_eq_of_lt (by omega)
  have hdown : (w.highest.toNat-counter.toNat) % 2^64 = w.highest.toNat-counter.toNat :=
    Nat.mod_eq_of_lt (by omega)
  have hcases := admitCounter_cases_on 64 w counter
  rwa [hup,hdown] at hcases

/-- A counter the window refuses: already accepted, or too old to be told apart. -/
def Seen (w : SenderWindow) (counter : UInt64) : Prop :=
  w.started = true ∧ counter.toNat ≤ w.highest.toNat ∧
    (replayWindow ≤ w.highest.toNat-counter.toNat ∨
      w.bits.bit (w.highest.toNat-counter.toNat) = true)

instance (w : SenderWindow) (counter : UInt64) : Decidable (w.Seen counter) :=
  inferInstanceAs (Decidable (_ ∧ _ ∧ (_ ∨ _)))

theorem new_not_seen (counter : UInt64) : ¬ new.Seen counter := by simp [new,Seen]

theorem Seen.le {w : SenderWindow} {counter : UInt64} (h : w.Seen counter) :
    counter.toNat ≤ w.highest.toNat := h.2.1

/-- `admitCounter` never panics; it accepts what is not seen and changes nothing when it refuses. -/
theorem admitCounter_total (w : SenderWindow) (counter : UInt64) :
    (w.Seen counter ∧ w.admitCounter 64 counter = some (false,w)) ∨
    (¬ w.Seen counter ∧ ∃ w', w.admitCounter 64 counter = some (true,w') ∧
      w'.lastSeenMs = w.lastSeenMs ∧ w'.started = true ∧ w'.Seen counter ∧
      (∀ c, w.Seen c → w'.Seen c) ∧
      (∀ b, (w.started = true → w.highest.toNat ≤ b) → counter.toNat ≤ b → w'.highest.toNat ≤ b)) := by
  obtain ⟨hs,bits,ha,hb⟩ | ⟨hs,hlt,bits,ha,hb⟩ | ⟨hs,hle,hd,ha⟩ | ⟨hs,hle,hr,hu,bits,ha,hb⟩ :=
    admitCounter_cases w counter
  · refine Or.inr ⟨by simp [Seen,hs],_,ha,rfl,rfl,⟨rfl,le_rfl,Or.inr ?_⟩,?_,fun b _ hc => hc⟩
    · simp [hb]
    · rintro c ⟨hc,-⟩
      simp [hs] at hc
  · refine Or.inr ⟨fun h => by have := h.le; omega,_,ha,rfl,hs,⟨hs,le_rfl,Or.inr ?_⟩,?_,fun b _ hc => hc⟩
    · rw [Nat.sub_self,hb 0 (by decide)]
      rfl
    · rintro c ⟨_,hle,hd⟩
      refine ⟨hs,by simp only; omega,?_⟩
      simp only
      by_cases hr : replayWindow ≤ counter.toNat-c.toNat
      · exact Or.inl hr
      · refine Or.inr ?_
        have hbit : w.bits.bit (w.highest.toNat-c.toNat) = true := by
          rcases hd with hd | hd
          · omega
          · exact hd
        have he : counter.toNat-c.toNat-(counter.toNat-w.highest.toNat) =
            w.highest.toNat-c.toNat := by omega
        rw [hb _ (by omega),he,hbit]
        simp only [Bool.and_true,Bool.or_eq_true,decide_eq_true_eq]
        omega
  · exact Or.inl ⟨⟨hs,hle,hd⟩,ha⟩
  · refine Or.inr ⟨?_,_,ha,rfl,hs,⟨hs,hle,Or.inr (by simp [hb])⟩,?_,fun b hw _ => hw hs⟩
    · rintro ⟨-,-,hd | hd⟩
      · omega
      · simp [hu] at hd
    · rintro c ⟨_,hc,hd | hd⟩
      · exact ⟨hs,hc,Or.inl hd⟩
      · exact ⟨hs,hc,Or.inr (by simp [hb,hd])⟩

end SenderWindow
end DigMessage
