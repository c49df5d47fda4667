import DigMessage.SeenCounters

/-! The sliding window on targets of two index widths. With 32-bit indices a distance is taken
modulo `2^32`: a long jump may carry old marks to places they never stood for, and a counter
long out of reach may be looked up within the window. The two targets agree up to the first
call that meets one of these. -/
namespace DigMessage
open FixedWidth

/-- The range of a 32-bit index. -/
def narrow : ℕ := 2^32

/-- The places marked beside the seen counters `S` after a call for `counter`: where a jump's
distance is cast into the window, every mark moves up by what the cast drops. -/
def ghosts (S G : Finset ℕ) (counter : ℕ) : Finset ℕ :=
  if narrow ≤ counter-S.sup id ∧ (counter-S.sup id) % narrow < replayWindow then
    (S ∪ G).image fun x => x+(counter-S.sup id)/narrow*narrow
  else G

/-- A counter the cast misjudges: a new one on a marked place, or one out of reach whose cast
distance is that of an unmarked place. -/
def Misread (S G : Finset ℕ) (counter : ℕ) : Prop :=
  S.Nonempty ∧ counter ≤ S.sup id ∧
    ((S.sup id-counter < replayWindow ∧ counter ∈ G ∧ counter ∉ S) ∨
    (replayWindow ≤ S.sup id-counter ∧ (S.sup id-counter) % narrow < replayWindow ∧
      S.sup id-(S.sup id-counter) % narrow ∉ S ∪ G))

/-- No call of the run is misread. -/
def NoneMisread (S G : Finset ℕ) : List UInt64 → Prop
  | [] => True
  | c::cs => ¬ Misread S G c.toNat ∧ NoneMisread (extend S c.toNat) (ghosts S G c.toNat) cs

def Uncast (S : Finset ℕ) (counter : ℕ) : Prop :=
  ∀ d, d = counter-S.sup id ∨ d = S.sup id-counter → narrow ≤ d → replayWindow ≤ d % narrow

/-- No distance of the run is cast into the window. -/
def NoneCast (S : Finset ℕ) : List UInt64 → Prop
  | [] => True
  | c::cs => Uncast S c.toNat ∧ NoneCast (extend S c.toNat) cs

theorem noneMisread_of_noneCast (cs : List UInt64) (S : Finset ℕ) (h : NoneCast S cs) :
    NoneMisread S ∅ cs := by
  induction cs generalizing S with
  | nil => trivial
  | cons c cs ih =>
    obtain ⟨hc,hcs⟩ := h
    have hnone : ghosts S ∅ c.toNat = ∅ := by
      refine if_neg fun hcast => ?_
      have hfar := hc _ (Or.inl rfl) hcast.1
      omega
    refine ⟨?_,?_⟩
    · rintro ⟨-,-,⟨-,hg,-⟩ | ⟨hout,hin,-⟩⟩
      · exact Finset.notMem_empty _ hg
      · by_cases hn : narrow ≤ S.sup id-c.toNat
        · have hfar := hc _ (Or.inr rfl) hn
          omega
        · rw [Nat.mod_eq_of_lt (Nat.not_le.mp hn)] at hin
          omega
    · rw [hnone]
      exact ih _ hcs

namespace SenderWindow

def answers (usizeBits : ℕ) (w : SenderWindow) : List UInt64 → Option (List Bool)
  | [] => some []
  | counter::counters => do
    let (ok,w') ← w.admitCounter usizeBits counter
    let rest ← answers usizeBits w' counters
    pure (ok::rest)

theorem answers_total (usizeBits : ℕ) (counters : List UInt64) (w : SenderWindow) :
    ∃ oks, w.answers usizeBits counters = some oks := by
  induction counters generalizing w with
  | nil => exact ⟨[],rfl⟩
  | cons counter counters ih =>
    have hstep : ∃ ok w', w.admitCounter usizeBits counter = some (ok,w') := by
      obtain ⟨-,bits,ha,-⟩ | ⟨-,-,bits,ha,-⟩ | ⟨-,-,-,ha⟩ | ⟨-,-,-,-,bits,ha,-⟩ :=
        admitCounter_cases_on usizeBits w counter
      · exact ⟨_,_,ha⟩
      · exact ⟨_,_,ha⟩
      · exact ⟨_,_,ha⟩
      · exact ⟨_,_,ha⟩
    obtain ⟨ok,w',ha⟩ := hstep
    obtain ⟨oks,hrest⟩ := ih w'
    refine ⟨ok::oks,?_⟩
    simp only [answers,ha,hrest,Option.bind_eq_bind,Option.bind_some,Option.pure_def]

/-- The window shows the seen counters `S` and the ghosts `G` by their distance from the highest
of `S`. -/
structure Shows (S G : Finset ℕ) (w : SenderWindow) : Prop where
  started : w.started = true ↔ S.Nonempty
  highest : w.highest.toNat = S.sup id
  bit : ∀ i < replayWindow, w.bits.bit i = true ↔
    i ≤ w.highest.toNat ∧ w.highest.toNat-i ∈ S ∪ G
  below : ∀ x ∈ S ∪ G, x ≤ S.sup id
  ghost : G.Nonempty → S.Nonempty

theorem new_shows : Shows ∅ ∅ new where
  started := by simp [new]
  highest := rfl
  bit i _ := by simp [new]
  below := by simp
  ghost := id

variable {S G : Finset ℕ} {w : SenderWindow} {counter : UInt64} {bits : Bitmap}

theorem Shows.begin (h : Shows S G w) (hs : w.started = false)
    (hb : ∀ i, bits.bit i = (decide (i = 0) || w.bits.bit i)) :
    S = ∅ ∧ G = ∅ ∧ Shows {counter.toNat} ∅ {w with bits,started := true,highest := counter} := by
  have hempty : S = ∅ := by
    have hn := h.started.not.mp (by simp [hs])
    exact Finset.not_nonempty_iff_eq_empty.mp hn
  subst hempty
  have hghost : G = ∅ := by
    by_contra hne
    exact Finset.not_nonempty_empty (h.ghost (Finset.nonempty_iff_ne_empty.mpr hne))
  subst hghost
  refine ⟨rfl,rfl,by simp,by simp,fun i hi => ?_,by simp,fun hg => absurd hg Finset.not_nonempty_empty⟩
  have hold := h.bit i hi
  simp only [Finset.union_empty,Finset.notMem_empty,and_false,iff_false,Bool.not_eq_true] at hold
  simp only [hb,hold,Bool.or_false,decide_eq_true_eq,Finset.union_empty,Finset.mem_singleton]
  omega

/-- The place `i` after a jump to `counter` is one that a mark is moved to, by the cast distance. -/
def Moved (S G : Finset ℕ) (counter i : ℕ) : Prop :=
  (counter-S.sup id) % narrow ≤ i ∧ i-(counter-S.sup id) % narrow ≤ S.sup id ∧
    S.sup id-(i-(counter-S.sup id) % narrow) ∈ S ∪ G

theorem below_jump {c : ℕ} (hbelow : ∀ x ∈ S ∪ G, x ≤ S.sup id) (hlt : S.sup id < c) :
    ∀ x ∈ insert c S ∪ ghosts S G c, x ≤ c := by
  intro x hx
  simp only [Finset.insert_union,Finset.mem_insert] at hx
  rcases hx with rfl | hx
  · exact le_rfl
  · rcases Finset.mem_union.mp hx with hx | hx
    · have hle := hbelow x (Finset.mem_union_left _ hx)
      omega
    · unfold ghosts at hx
      split at hx
      · obtain ⟨y,hy,rfl⟩ := Finset.mem_image.mp hx
        have hle := hbelow y hy
        have hdiv := Nat.div_mul_le_self (c-S.sup id) narrow
        omega
      · have hle := hbelow x (Finset.mem_union_right _ hx)
        omega

/-- A jump whose cast distance is short of the true one, and in the window, makes every mark a
ghost. -/
theorem moved_iff_ghost {c i : ℕ} (hbelow : ∀ x ∈ S ∪ G, x ≤ S.sup id) (hlt : S.sup id < c)
    (hi : i < replayWindow)
    (hcast : narrow ≤ c-S.sup id ∧ (c-S.sup id) % narrow < replayWindow) :
    i = 0 ∨ Moved S G c i ↔ i ≤ c ∧ c-i ∈ insert c S ∪ ghosts S G c := by
  have hdiv := Nat.div_add_mod (c-S.sup id) narrow
  rw [Nat.mul_comm] at hdiv
  rw [ghosts,if_pos hcast,Moved]
  simp only [Finset.insert_union,Finset.mem_insert,Finset.mem_union,Finset.mem_image]
  constructor
  · rintro (rfl | ⟨hd,hle,hm⟩)
    · exact ⟨Nat.zero_le _,Or.inl rfl⟩
    · refine ⟨by omega,Or.inr (Or.inr ⟨_,hm,?_⟩)⟩
      omega
  · rintro ⟨hle,hz | hold | ⟨x,hx,he⟩⟩
    · exact Or.inl (by omega)
    · have hx := hbelow _ (Finset.mem_union_left _ hold)
      simp only [narrow,replayWindow] at *
      omega
    · have hx' := hbelow x (Finset.mem_union.mpr hx)
      refine Or.inr ⟨by omega,by omega,?_⟩
      rw [show S.sup id-(i-(c-S.sup id) % narrow) = x by omega]
      exact hx

/-- In any other jump the distance is exact, or its cast is past the window: marks stay what they
are, and no ghost is made. -/
theorem moved_iff_exact {c i : ℕ} (hbelow : ∀ x ∈ S ∪ G, x ≤ S.sup id) (hlt : S.sup id < c)
    (hi : i < replayWindow)
    (hcast : ¬ (narrow ≤ c-S.sup id ∧ (c-S.sup id) % narrow < replayWindow)) :
    i = 0 ∨ Moved S G c i ↔ i ≤ c ∧ c-i ∈ insert c S ∪ ghosts S G c := by
  have hexact : (c-S.sup id) % narrow = c-S.sup id ∨ replayWindow ≤ (c-S.sup id) % narrow := by
    by_cases hn : narrow ≤ c-S.sup id
    · exact Or.inr (by omega)
    · exact Or.inl (Nat.mod_eq_of_lt (Nat.not_le.mp hn))
  have hmodle := Nat.mod_le (c-S.sup id) narrow
  rw [ghosts,if_neg hcast,Moved]
  simp only [Finset.insert_union,Finset.mem_insert]
  constructor
  · rintro (rfl | ⟨hd,hle,hm⟩)
    · exact ⟨Nat.zero_le _,Or.inl rfl⟩
    · rcases hexact with he | hout
      · rw [he] at hm hd hle
        rw [show S.sup id-(i-(c-S.sup id)) = c-i by omega] at hm
        exact ⟨by omega,Or.inr hm⟩
      · omega
  · rintro ⟨hle,hz | hm⟩
    · exact Or.inl (by omega)
    · have hx := hbelow _ hm
      rcases hexact with he | hout
      · rw [he]
        refine Or.inr ⟨by omega,by omega,?_⟩
        rw [show S.sup id-(i-(c-S.sup id)) = c-i by omega]
        exact hm
      · omega

/-- A jump moves every mark by its cast distance: by its true distance, off the window, or to
the place of a ghost. -/
theorem Shows.jump (h : Shows S G w) (hs : w.started = true) (hlt : w.highest.toNat < counter.toNat)
    (hb : ∀ i, i < replayWindow → bits.bit i = (decide (i = 0) ||
      (decide ((counter.toNat-w.highest.toNat) % narrow ≤ i) &&
        w.bits.bit (i-(counter.toNat-w.highest.toNat) % narrow)))) :
    Shows (insert counter.toNat S) (ghosts S G counter.toNat) {w with bits,highest := counter} := by
  have hsup : (insert counter.toNat S).sup id = counter.toNat := by
    have hhigh := h.highest
    rw [sup_insert]
    omega
  rw [h.highest] at hlt hb
  have hmark : ∀ i < replayWindow, bits.bit i = true ↔ i = 0 ∨ Moved S G counter.toNat i := by
    intro i hi
    have hold := h.bit (i-(counter.toNat-S.sup id) % narrow) (by omega)
    rw [h.highest] at hold
    simp only [hb i hi,Bool.or_eq_true,Bool.and_eq_true,decide_eq_true_eq,hold,Moved]
  refine ⟨by simp [hs],hsup.symm,fun i hi => ?_,?_,fun _ => Finset.insert_nonempty _ _⟩
  · rw [hmark i hi]
    by_cases hcast : narrow ≤ counter.toNat-S.sup id ∧
        (counter.toNat-S.sup id) % narrow < replayWindow
    · exact moved_iff_ghost h.below hlt hi hcast
    · exact moved_iff_exact h.below hlt hi hcast
  · rw [hsup]
    exact below_jump h.below hlt

theorem Shows.fill (h : Shows S G w) (hs : w.started = true) (hle : counter.toNat ≤ w.highest.toNat)
    (hb : ∀ i, bits.bit i = (decide (i = w.highest.toNat-counter.toNat) || w.bits.bit i)) :
    Shows (insert counter.toNat S) G {w with bits} := by
  have hsup : (insert counter.toNat S).sup id = S.sup id := by
    have hhigh := h.highest
    rw [sup_insert]
    omega
  have hstart : ({w with bits} : SenderWindow).highest.toNat = (insert counter.toNat S).sup id := by
    rw [hsup]
    exact h.highest
  refine ⟨by simp [hs],hstart,fun i hi => ?_,?_,fun _ => Finset.insert_nonempty _ _⟩
  · have hold := h.bit i hi
    simp only [hb,Bool.or_eq_true,decide_eq_true_eq,Finset.insert_union,Finset.mem_insert,hold]
    constructor
    · rintro (rfl | ⟨hi',hm⟩)
      · exact ⟨by omega,Or.inl (by omega)⟩
      · exact ⟨hi',Or.inr hm⟩
    · rintro ⟨hi',hz | hm⟩
      · exact Or.inl (by omega)
      · exact Or.inr ⟨hi',hm⟩
  · rw [hsup]
    intro x hx
    simp only [Finset.insert_union,Finset.mem_insert] at hx
    rcases hx with rfl | hx
    · have hhigh := h.highest
      omega
    · exact h.below x hx

theorem ghosts_of_le (hle : counter.toNat ≤ S.sup id) : ghosts S G counter.toNat = G := by
  refine if_neg fun hcast => ?_
  have hz : counter.toNat-S.sup id = 0 := by omega
  rw [hz,narrow] at hcast
  omega

theorem mod_narrow {d : ℕ} (h : d < replayWindow) : d % narrow = d := by
  refine Nat.mod_eq_of_lt ?_
  simp only [narrow,replayWindow] at *
  omega

theorem Shows.refused_iff (h : Shows S G w) (hs : w.started = true)
    (hle : counter.toNat ≤ S.sup id)
    (hd : replayWindow ≤ (S.sup id-counter.toNat) % narrow ∨
      w.bits.bit ((S.sup id-counter.toNat) % narrow) = true) :
    ¬ Admissible S counter.toNat ↔ ¬ Misread S G counter.toNat := by
  have hne : S.Nonempty := h.started.mp hs
  have hmarked : (S.sup id-counter.toNat) % narrow < replayWindow →
      S.sup id-(S.sup id-counter.toNat) % narrow ∈ S ∪ G := fun hin => by
    have hbit := hd.resolve_left (Nat.not_le.mpr hin)
    have hold := ((h.bit _ hin).mp hbit).2
    rwa [h.highest] at hold
  by_cases hreach : S.sup id-counter.toNat < replayWindow
  · have hm := hmarked (by rwa [mod_narrow hreach])
    rw [mod_narrow hreach,show S.sup id-(S.sup id-counter.toNat) = counter.toNat by omega] at hm
    by_cases hseen : counter.toNat ∈ S
    · have hno : ¬ Admissible S counter.toNat := fun hadm => hadm.1 hseen
      refine iff_of_true hno ?_
      rintro ⟨-,-,⟨-,-,hn⟩ | ⟨hout,-⟩⟩
      · exact hn hseen
      · omega
    · have hghost := (Finset.mem_union.mp hm).resolve_left hseen
      have hadm : Admissible S counter.toNat := ⟨hseen,Or.inr (by omega)⟩
      have hread : Misread S G counter.toNat := ⟨hne,hle,Or.inl ⟨hreach,hghost,hseen⟩⟩
      exact iff_of_false (not_not.mpr hadm) (not_not.mpr hread)
  · have hno : ¬ Admissible S counter.toNat := fun hadm => by
      have hnear := hadm.2.resolve_left hne.ne_empty
      omega
    refine iff_of_true hno ?_
    rintro ⟨-,-,⟨hin,-⟩ | ⟨-,hin,hn⟩⟩
    · exact hreach hin
    · exact hn (hmarked hin)

theorem Shows.free_iff (h : Shows S G w) (hs : w.started = true) (hle : counter.toNat ≤ S.sup id)
    (hr : (S.sup id-counter.toNat) % narrow < replayWindow)
    (hu : w.bits.bit ((S.sup id-counter.toNat) % narrow) = false) :
    (Admissible S counter.toNat ↔ S.sup id-counter.toNat < replayWindow) ∧
    (¬ Misread S G counter.toNat ↔ S.sup id-counter.toNat < replayWindow) := by
  have hne : S.Nonempty := h.started.mp hs
  have hmod := Nat.mod_le (S.sup id-counter.toNat) narrow
  have hunmarked : S.sup id-(S.sup id-counter.toNat) % narrow ∉ S ∪ G := fun hm => by
    have hbit := (h.bit _ hr).mpr (by rw [h.highest]; exact ⟨by omega,hm⟩)
    rw [hu] at hbit
    cases hbit
  by_cases hreach : S.sup id-counter.toNat < replayWindow
  · rw [mod_narrow hreach,show S.sup id-(S.sup id-counter.toNat) = counter.toNat by omega]
      at hunmarked
    have hadm : Admissible S counter.toNat :=
      ⟨fun hm => hunmarked (Finset.mem_union_left _ hm),Or.inr (by omega)⟩
    have hread : ¬ Misread S G counter.toNat := by
      rintro ⟨-,-,⟨-,hg,-⟩ | ⟨hout,-⟩⟩
      · exact hunmarked (Finset.mem_union_right _ hg)
      · omega
    exact ⟨iff_of_true hadm hreach,iff_of_true hread hreach⟩
  · have hno : ¬ Admissible S counter.toNat := fun hadm => by
      have hnear := hadm.2.resolve_left hne.ne_empty
      omega
    have hread : Misread S G counter.toNat :=
      ⟨hne,hle,Or.inr ⟨Nat.not_lt.mp hreach,hr,hunmarked⟩⟩
    exact ⟨iff_of_false hno hreach,iff_of_false (not_not.mpr hread) hreach⟩

/-- One call with 32-bit indices answers as the seen counters demand exactly where it is not
misread, and then it goes on showing them. -/
theorem Shows.step (h : Shows S G w) (counter : UInt64) : ∃ ok w',
    w.admitCounter 32 counter = some (ok,w') ∧
    (ok = decide (Admissible S counter.toNat) ↔ ¬ Misread S G counter.toNat) ∧
    (¬ Misread S G counter.toNat →
      Shows (extend S counter.toNat) (ghosts S G counter.toNat) w') := by
  have hhigh := h.highest
  obtain ⟨hs,bits,ha,hb⟩ | ⟨hs,hlt,bits,ha,hb⟩ | ⟨hs,hle,hd,ha⟩ | ⟨hs,hle,hr,hu,bits,ha,hb⟩ :=
    admitCounter_cases_on 32 w counter
  · obtain ⟨rfl,rfl,hnext⟩ : S = ∅ ∧ G = ∅ ∧
        Shows {counter.toNat} ∅ {w with bits,started := true,highest := counter} := h.begin hs hb
    have hadm : Admissible ∅ counter.toNat := ⟨Finset.notMem_empty _,Or.inl rfl⟩
    have hread : ¬ Misread ∅ ∅ counter.toNat := fun hm => Finset.not_nonempty_empty hm.1
    have hghost : ghosts ∅ ∅ counter.toNat = ∅ := by simp [ghosts]
    refine ⟨true,_,ha,?_,fun _ => ?_⟩
    · simp [hadm,hread]
    · rw [hghost,extend,if_pos hadm]
      exact hnext
  · have hadm : Admissible S counter.toNat := by
      refine ⟨fun hm => ?_,Or.inr (by omega)⟩
      have hbelow := h.below _ (Finset.mem_union_left G hm)
      omega
    have hread : ¬ Misread S G counter.toNat := fun hm => by
      have hreach := hm.2.1
      omega
    refine ⟨true,_,ha,?_,fun _ => ?_⟩
    · simp [hadm,hread]
    · rw [extend,if_pos hadm]
      exact h.jump hs hlt hb
  · rw [hhigh] at hle hd
    have hiff := h.refused_iff hs hle hd
    refine ⟨false,w,ha,?_,fun hread => ?_⟩
    · rw [eq_comm,decide_eq_false_iff_not]
      exact hiff
    · rw [extend,if_neg (hiff.mpr hread),ghosts_of_le hle]
      exact h
  · have hle' := hle
    rw [hhigh] at hle' hr hu
    obtain ⟨hadm,hread⟩ := h.free_iff hs hle' hr hu
    refine ⟨true,_,ha,?_,fun hn => ?_⟩
    · rw [eq_comm,decide_eq_true_iff,hadm,hread]
    · have hreach := hread.mp hn
      rw [extend,if_pos (hadm.mpr hreach),ghosts_of_le hle']
      refine h.fill hs hle fun i => ?_
      rw [hb i,hhigh]
      have hcast : (S.sup id-counter.toNat) % 2^32 = S.sup id-counter.toNat := mod_narrow hreach
      rw [hcast]

/-- From windows that show the same, the two targets answer a run alike exactly where none of
its calls is misread. -/
theorem answers_agree_iff (counters : List UInt64) {S G : Finset ℕ} {w v : SenderWindow}
    (hw : Tracks S w) (hv : Shows S G v) :
    v.answers 32 counters = w.answers 64 counters ↔ NoneMisread S G counters := by
  induction counters generalizing S G w v with
  | nil => simp [answers,NoneMisread]
  | cons counter counters ih =>
    obtain ⟨w',ha,htrack,-⟩ := admitCounter_tracks hw counter
    obtain ⟨ok,v',hb,hok,hnext⟩ := hv.step counter
    obtain ⟨xs,hxs⟩ := answers_total 64 counters w'
    obtain ⟨ys,hys⟩ := answers_total 32 counters v'
    have hcons : v.answers 32 (counter::counters) = w.answers 64 (counter::counters) ↔
        ok = decide (Admissible S counter.toNat) ∧ ys = xs := by
      simp only [answers,ha,hb,hxs,hys,Option.bind_eq_bind,Option.bind_some,Option.pure_def,
        Option.some.injEq,List.cons.injEq]
    rw [hcons,hok,NoneMisread]
    refine and_congr_right fun hread => ?_
    have hrest := ih htrack (hnext hread)
    rw [hxs,hys,Option.some.injEq] at hrest
    exact hrest

/-- A new window answers a sequence of counters alike with 32-bit and 64-bit indices exactly
where none of them is misread, and so wherever no distance is cast into the window. -/
theorem widths_agree_iff (counters : List UInt64) :
    (new.answers 32 counters = new.answers 64 counters ↔ NoneMisread ∅ ∅ counters) ∧
    (NoneCast ∅ counters → new.answers 32 counters = new.answers 64 counters) := by
  have hiff := answers_agree_iff counters new_tracks new_shows
  exact ⟨hiff,fun h => hiff.mpr (noneMisread_of_noneCast counters ∅ h)⟩

/-- The answers do not depend on the width of an index. -/
def WidthIndependent : Prop :=
  ∀ counters : List UInt64, new.answers 32 counters = new.answers 64 counters

/-- With 32-bit indices the counter zero, long out of reach, is admitted a second time. -/
theorem narrow_readmits : ¬ WidthIndependent := by
  intro h
  have hrun := h [0,5000,4294967297,0]
  have hnarrow : new.answers 32 [0,5000,4294967297,0] = some [true,true,true,true] := by
    decide +kernel
  have hwide : new.answers 64 [0,5000,4294967297,0] = some [true,true,true,false] := by
    decide +kernel
  rw [hnarrow,hwide] at hrun
  exact absurd hrun (by decide)

end SenderWindow
end DigMessage
