import DigMessage.SenderWindow

/-! The sliding window as the set of counters it has admitted. Within its reach below the
highest counter the window forgets nothing. -/
namespace DigMessage
open FixedWidth

/-- A set of admitted counters lets in a new one that is not out of reach below its highest. -/
def Admissible (S : Finset ℕ) (counter : ℕ) : Prop :=
  counter ∉ S ∧ (S = ∅ ∨ S.sup id < counter+replayWindow)

instance (S : Finset ℕ) (counter : ℕ) : Decidable (Admissible S counter) :=
  inferInstanceAs (Decidable (_ ∧ (_ ∨ _)))

/-- The set after a call for `counter`. -/
def extend (S : Finset ℕ) (counter : ℕ) : Finset ℕ :=
  if Admissible S counter then insert counter S else S

namespace SenderWindow

/-- The window shows the set: its highest counter, and the others by their distance from it. -/
structure Tracks (S : Finset ℕ) (w : SenderWindow) : Prop where
  started : w.started = true ↔ S.Nonempty
  highest : w.highest.toNat = S.sup id
  bit : ∀ i < replayWindow, w.bits.bit i = true ↔ i ≤ w.highest.toNat ∧ w.highest.toNat-i ∈ S

theorem new_tracks : Tracks ∅ new where
  started := by simp [new]
  highest := rfl
  bit i _ := by simp [new]

theorem Tracks.le {S : Finset ℕ} {w : SenderWindow} (h : Tracks S w) {n : ℕ} (hn : n ∈ S) :
    n ≤ w.highest.toNat := by
  rw [h.highest]
  exact Finset.le_sup (f:=id) hn

theorem sup_insert (S : Finset ℕ) (n : ℕ) : (insert n S).sup id = max n (S.sup id) :=
  Finset.sup_insert

theorem Tracks.started_at {w : SenderWindow} (h : Tracks ∅ w) {counter : UInt64} {bits : Bitmap}
    (hb : ∀ i, bits.bit i = (decide (i = 0) || w.bits.bit i)) :
    Tracks {counter.toNat} {w with bits,started := true,highest := counter} where
  started := by simp
  highest := by simp
  bit i hi := by
    have hold := h.bit i hi
    simp only [Finset.notMem_empty,and_false,iff_false,Bool.not_eq_true] at hold
    simp only [hb,hold,Bool.or_false,decide_eq_true_eq,Finset.mem_singleton]
    omega

theorem Tracks.advance {S : Finset ℕ} {w : SenderWindow} (h : Tracks S w) {counter : UInt64}
    {bits : Bitmap} (hlt : w.highest.toNat < counter.toNat) (hs : w.started = true)
    (hb : ∀ i, i < replayWindow → bits.bit i = (decide (i = 0) ||
      (decide (counter.toNat-w.highest.toNat ≤ i) &&
        w.bits.bit (i-(counter.toNat-w.highest.toNat))))) :
    Tracks (insert counter.toNat S) {w with bits,highest := counter} where
  started := by simp [hs]
  highest := by
    have hsup := h.highest
    rw [sup_insert]
    simp only
    omega
  bit i hi := by
    have hold := h.bit (i-(counter.toNat-w.highest.toNat)) (by omega)
    simp only [hb i hi,Bool.or_eq_true,Bool.and_eq_true,decide_eq_true_eq,Finset.mem_insert,hold]
    constructor
    · rintro (rfl | ⟨hd,hle,hm⟩)
      · exact ⟨Nat.zero_le _,Or.inl rfl⟩
      · have he : w.highest.toNat-(i-(counter.toNat-w.highest.toNat)) = counter.toNat-i := by omega
        rw [he] at hm
        exact ⟨by omega,Or.inr hm⟩
    · rintro ⟨hle,hz | hm⟩
      · exact Or.inl (by omega)
      · have hbelow := h.le hm
        have he : w.highest.toNat-(i-(counter.toNat-w.highest.toNat)) = counter.toNat-i := by omega
        exact Or.inr ⟨by omega,by omega,he ▸ hm⟩

theorem Tracks.fill {S : Finset ℕ} {w : SenderWindow} (h : Tracks S w) {counter : UInt64}
    {bits : Bitmap} (hle : counter.toNat ≤ w.highest.toNat) (hs : w.started = true)
    (hb : ∀ i, bits.bit i = (decide (i = w.highest.toNat-counter.toNat) || w.bits.bit i)) :
    Tracks (insert counter.toNat S) {w with bits} where
  started := by simp [hs]
  highest := by
    have hsup := h.highest
    rw [sup_insert]
    simp only
    omega
  bit i hi := by
    have hold := h.bit i hi
    simp only [hb,Bool.or_eq_true,decide_eq_true_eq,Finset.mem_insert,hold]
    constructor
    · rintro (rfl | ⟨hi',hm⟩)
      · exact ⟨by omega,Or.inl (by omega)⟩
      · exact ⟨hi',Or.inr hm⟩
    · rintro ⟨hi',hz | hm⟩
      · exact Or.inl (by omega)
      · exact Or.inr ⟨hi',hm⟩

/-- One call answers as the set does, and what it admits joins the set. -/
theorem admitCounter_tracks {S : Finset ℕ} {w : SenderWindow} (h : Tracks S w) (counter : UInt64) :
    ∃ w', w.admitCounter 64 counter = some (decide (Admissible S counter.toNat),w') ∧
      Tracks (if Admissible S counter.toNat then insert counter.toNat S else S) w' ∧
      (¬ Admissible S counter.toNat → w' = w) := by
  have hsup := h.highest
  obtain ⟨hs,bits,ha,hb⟩ | ⟨hs,hlt,bits,ha,hb⟩ | ⟨hs,hle,hd,ha⟩ | ⟨hs,hle,hr,hu,bits,ha,hb⟩ :=
    admitCounter_cases w counter
  · have hempty : S = ∅ := by
      have hn := h.started.not.mp (by simp [hs])
      exact Finset.not_nonempty_iff_eq_empty.mp hn
    subst hempty
    have hadm : Admissible ∅ counter.toNat := ⟨Finset.notMem_empty _,Or.inl rfl⟩
    refine ⟨_,by rw [ha,decide_eq_true hadm],?_,fun hn => absurd hadm hn⟩
    rw [if_pos hadm]
    exact h.started_at hb
  · have hadm : Admissible S counter.toNat := by
      refine ⟨fun hm => ?_,Or.inr (by omega)⟩
      have hbelow := h.le hm
      omega
    refine ⟨_,by rw [ha,decide_eq_true hadm],?_,fun hn => absurd hadm hn⟩
    rw [if_pos hadm]
    exact h.advance hlt hs hb
  · have hadm : ¬ Admissible S counter.toNat := by
      rintro ⟨hm,hreach⟩
      have hne : S ≠ ∅ := (h.started.mp hs).ne_empty
      have hnear := hreach.resolve_left hne
      have hbit := hd.resolve_left (by omega)
      have hold := ((h.bit _ (by omega)).mp hbit).2
      rw [show w.highest.toNat-(w.highest.toNat-counter.toNat) = counter.toNat by omega] at hold
      exact hm hold
    refine ⟨_,by rw [ha,decide_eq_false hadm],?_,fun _ => rfl⟩
    rw [if_neg hadm]
    exact h
  · have hadm : Admissible S counter.toNat := by
      refine ⟨fun hm => ?_,Or.inr (by omega)⟩
      have hbit := (h.bit (w.highest.toNat-counter.toNat) hr).mpr
        ⟨by omega,by rwa [show w.highest.toNat-(w.highest.toNat-counter.toNat) = counter.toNat by omega]⟩
      rw [hu] at hbit
      cases hbit
    refine ⟨_,by rw [ha,decide_eq_true hadm],?_,fun hn => absurd hadm hn⟩
    rw [if_pos hadm]
    exact h.fill hle hs hb

def admitAll (w : SenderWindow) : List UInt64 → Option (List (UInt64 × Bool) × SenderWindow)
  | [] => some ([],w)
  | counter::counters => do
    let (ok,w') ← w.admitCounter 64 counter
    let (rest,w'') ← admitAll w' counters
    pure ((counter,ok)::rest,w'')

def admitted (calls : List (UInt64 × Bool)) : Finset ℕ :=
  (calls.filterMap fun p => if p.2 then some p.1.toNat else none).toFinset

theorem admitted_cons (counter : UInt64) (ok : Bool) (calls : List (UInt64 × Bool)) :
    admitted ((counter,ok)::calls) =
      if ok then insert counter.toNat (admitted calls) else admitted calls := by
  cases ok <;> simp [admitted]

theorem admitted_snoc (counter : UInt64) (ok : Bool) (calls : List (UInt64 × Bool)) :
    admitted (calls++[(counter,ok)]) =
      if ok then insert counter.toNat (admitted calls) else admitted calls := by
  cases ok <;> simp [admitted,List.filterMap_append,Finset.union_comm]

theorem admitAll_tracks (counters : List UInt64) {S : Finset ℕ} {w : SenderWindow}
    (h : Tracks S w) : ∃ calls w', w.admitAll counters = some (calls,w') ∧
      calls.map Prod.fst = counters ∧ Tracks (S ∪ admitted calls) w' := by
  induction counters generalizing S w with
  | nil => exact ⟨[],w,rfl,rfl,by simpa [admitted] using h⟩
  | cons counter counters ih =>
    obtain ⟨w₁,ha,ht,-⟩ := admitCounter_tracks h counter
    obtain ⟨calls,w',hrest,hmap,ht'⟩ := ih ht
    refine ⟨(counter,decide (Admissible S counter.toNat))::calls,w',?_,by simp [hmap],?_⟩
    · simp only [admitAll,ha,hrest,Option.bind_eq_bind,Option.bind_some,Option.pure_def]
    · have hunion : S ∪ admitted ((counter,decide (Admissible S counter.toNat))::calls) =
          (if Admissible S counter.toNat then insert counter.toNat S else S) ∪ admitted calls := by
        rw [admitted_cons]
        by_cases hadm : Admissible S counter.toNat <;> simp [hadm]
      rw [hunion]
      exact ht'

/-- After any run of calls from a fresh window, with `S` the counters it admitted: the window
shows `S`, and the next call admits exactly what `S` lets in, or changes nothing. -/
theorem window_refines_set (counters : List UInt64) : ∃ calls w,
    new.admitAll counters = some (calls,w) ∧ calls.map Prod.fst = counters ∧
    Tracks (admitted calls) w ∧
    ∀ counter : UInt64, ∃ ok w', w.admitCounter 64 counter = some (ok,w') ∧
      (ok = true ↔ Admissible (admitted calls) counter.toNat) ∧
      admitted (calls++[(counter,ok)]) =
        (if ok then insert counter.toNat (admitted calls) else admitted calls) ∧
      (ok = false → w' = w) := by
  obtain ⟨calls,w,hrun,hmap,ht⟩ := admitAll_tracks counters new_tracks
  rw [Finset.empty_union] at ht
  refine ⟨calls,w,hrun,hmap,ht,fun counter => ?_⟩
  obtain ⟨w',ha,-,hsame⟩ := admitCounter_tracks ht counter
  exact ⟨_,w',ha,decide_eq_true_iff,admitted_snoc _ _ _,fun hf => hsame (of_decide_eq_false hf)⟩

/-- A counter a full window below the highest is out of reach; one above that is let in once. -/
example : (new.admitAll [5,1029,5,6,6]).map (fun p => p.1.map Prod.snd) =
    some [true,true,false,true,false] := by decide +kernel

end SenderWindow
end DigMessage
