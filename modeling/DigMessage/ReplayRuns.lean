import DigMessage.ReplayGuard

/-! Runs of the anti-replay table: an admitted message stays refused until its sender is
evicted, and only a table full of senders seen at least as late evicts it. -/
namespace DigMessage
open FixedWidth

/-- One call of `check_and_admit`, with the table's iteration order at that call. -/
structure Check where
  sender : Bytes32
  senderEpoch : UInt32
  counter : UInt64
  timestampMs : UInt64
  nowMs : UInt64
  order : HashOrder

namespace Check

def key (c : Check) : SenderKey := (c.sender,c.senderEpoch)

def Step (c : Check) (g : ReplayGuard) (admitted : Bool) (g' : ReplayGuard) : Prop :=
  ReplayGuard.checkAndAdmit (ε:=MessageError) c.order c.sender c.senderEpoch c.counter c.timestampMs
    c.nowMs g = some (.ok admitted,g')

/-- The two calls present the same message. -/
def SameMessage (c d : Check) : Prop :=
  c.sender = d.sender ∧ c.senderEpoch = d.senderEpoch ∧ c.counter = d.counter ∧
    c.timestampMs = d.timestampMs

end Check

inductive Checked : ReplayGuard → List (Check × Bool) → ReplayGuard → Prop
  | nil (g : ReplayGuard) : Checked g [] g
  | cons {g g₁ g₂ : ReplayGuard} {c : Check} {b : Bool} {calls : List (Check × Bool)} :
      c.Step g b g₁ → Checked g₁ calls g₂ → Checked g ((c,b)::calls) g₂

namespace ReplayGuard

/-- The table remembers `counter` for `key`, as seen no earlier than `timestampMs`. -/
def Holds (g : ReplayGuard) (key : SenderKey) (counter timestampMs : UInt64) : Prop :=
  ∃ w, g.senders.lookup key = some w ∧ w.Seen counter ∧ timestampMs.toNat ≤ w.lastSeenMs.toNat

/-- The table is at its cap with senders all seen at `timestampMs` or later. -/
def Crowded (g : ReplayGuard) (timestampMs : UInt64) : Prop :=
  maxTrackedSenders ≤ g.trackedSenders ∧
    ∀ key w, g.senders.lookup key = some w → timestampMs.toNat ≤ w.lastSeenMs.toNat

theorem holds_of_admitted {c : Check} {g g' : ReplayGuard} (h : c.Step g true g') :
    g'.Holds c.key c.counter c.timestampMs := by
  obtain ⟨-,hr⟩ | ⟨-,-,base,w,w',-,-,-,ha,hr⟩ := checkAndAdmit_cases (ε:=MessageError) c.order
    c.sender c.senderEpoch c.counter c.timestampMs c.nowMs g
  · rw [Check.Step,hr] at h
    cases h
  · rw [Check.Step,hr] at h
    cases h
    obtain ⟨-,hf⟩ | ⟨-,w₁,ha₁,-,hst,hseen,-⟩ := SenderWindow.admitCounter_total w c.counter
    · rw [ha] at hf
      cases hf
    · rw [ha] at ha₁
      cases ha₁
      refine ⟨_,Finmap.lookup_insert _,hseen,?_⟩
      simp only [max_toNat]
      exact le_max_right _ _

theorem refused_of_holds {c : Check} {g g' : ReplayGuard} {b : Bool}
    (hh : g.Holds c.key c.counter c.timestampMs) (h : c.Step g b g') : b = false := by
  obtain ⟨w,hl,hs,-⟩ := hh
  obtain ⟨-,hr⟩ | ⟨-,hn,-⟩ := checkAndAdmit_cases (ε:=MessageError) c.order
    c.sender c.senderEpoch c.counter c.timestampMs c.nowMs g
  · rw [Check.Step,hr] at h
    cases h
    rfl
  · exact absurd ⟨w,hl,hs⟩ hn

/-- One call keeps what the table holds, unless the table is crowded. -/
theorem holds_step {c : Check} {g g' : ReplayGuard} {b : Bool} {key : SenderKey}
    {counter timestampMs : UInt64} (h : c.Step g b g') (hh : g.Holds key counter timestampMs) :
    g'.Holds key counter timestampMs ∨ g.Crowded timestampMs := by
  obtain ⟨w,hl,hs,ht⟩ := hh
  obtain ⟨-,hr⟩ | ⟨-,-,base,w₀,w',hbase,hw₀,-,ha,hr⟩ := checkAndAdmit_cases (ε:=MessageError)
    c.order c.sender c.senderEpoch c.counter c.timestampMs c.nowMs g
  · rw [Check.Step,hr] at h
    cases h
    exact Or.inl ⟨w,hl,hs,ht⟩
  · rw [Check.Step,hr] at h
    cases h
    -- the sender survives in `base` or was the victim of a crowded table
    have hsurvive : base.senders.lookup key = some w ∨ g.Crowded timestampMs := by
      by_cases hk : (c.sender,c.senderEpoch) ∈ g.senders
      · rw [if_pos hk] at hbase
        exact Or.inl (by rw [hbase,hl])
      · rw [if_neg hk] at hbase
        obtain ⟨-,he⟩ | ⟨hfull,victim,v,hv,hmin,he⟩ := evictIfFull_cases c.order g
        · exact Or.inl (by rw [hbase,he,hl])
        · by_cases hvk : key = victim
          · subst hvk
            rw [hl] at hv
            cases hv
            exact Or.inr ⟨hfull,fun k w₁ hw₁ => ht.trans (hmin k w₁ hw₁)⟩
          · exact Or.inl (by rw [hbase,he]; simp only; rw [Finmap.lookup_erase_ne hvk,hl])
    rcases hsurvive with hb | hc
    · refine Or.inl ?_
      by_cases hkey : key = (c.sender,c.senderEpoch)
      · subst hkey
        rw [hb] at hw₀
        simp only [Option.getD_some] at hw₀
        subst hw₀
        obtain ⟨-,hf⟩ | ⟨-,w₁,ha₁,hlast,-,-,hmono,-⟩ := SenderWindow.admitCounter_total w₀ c.counter
        · rw [ha] at hf
          cases hf
        · rw [ha] at ha₁
          cases ha₁
          refine ⟨_,Finmap.lookup_insert _,hmono _ hs,?_⟩
          simp only [max_toNat,hlast]
          exact ht.trans (le_max_left _ _)
      · exact ⟨w,by simp only; rw [Finmap.lookup_insert_of_ne _ hkey,hb],hs,ht⟩
    · exact Or.inr hc

theorem seen_of_admitted {c : Check} {g g' : ReplayGuard} (h : c.Step g true g') :
    g'.Seen c.key c.counter := by
  obtain ⟨w,hl,hs,-⟩ := holds_of_admitted h
  exact ⟨w,hl,hs⟩

theorem seen_step {c : Check} {g g' : ReplayGuard} {b : Bool} {key : SenderKey} {counter : UInt64}
    (h : c.Step g b g') (hcap : g.trackedSenders < maxTrackedSenders) (hs : g.Seen key counter) :
    g'.Seen key counter := by
  obtain ⟨w,hl,hw⟩ := hs
  have hheld : g.Holds key counter 0 := ⟨w,hl,hw,Nat.zero_le _⟩
  obtain ⟨w',hl',hw',-⟩ | hc := holds_step h hheld
  · exact ⟨w',hl',hw'⟩
  · exact absurd hc.1 (by omega)

/-- An accepted call raises the top of no window but its own key's, and that to its counter at
most. -/
theorem highest_step {c : Check} {g g' : ReplayGuard} {key : SenderKey} {w' : SenderWindow}
    (h : c.Step g true g') (hl : g'.senders.lookup key = some w') :
    (∃ w, g.senders.lookup key = some w ∧ w.started = w'.started ∧
      w'.highest.toNat ≤ w.highest.toNat) ∨
    key = c.key ∧ w'.highest.toNat ≤ c.counter.toNat := by
  obtain ⟨-,hr⟩ | ⟨-,-,base,w,w₁,hbase,hw,-,ha,hr⟩ := checkAndAdmit_cases (ε:=MessageError) c.order
    c.sender c.senderEpoch c.counter c.timestampMs c.nowMs g
  · rw [Check.Step,hr] at h
    cases h
  · rw [Check.Step,hr] at h
    cases h
    -- an eviction only removes entries
    have hkept : ∀ k v, base.senders.lookup k = some v → g.senders.lookup k = some v := by
      intro k v hv
      rw [hbase] at hv
      split at hv
      · exact hv
      · obtain ⟨-,he⟩ | ⟨-,victim,_,-,-,he⟩ := evictIfFull_cases c.order g
        · rwa [he] at hv
        · rw [he] at hv
          by_cases hk : k = victim
          · subst hk
            simp at hv
          · simpa [Finmap.lookup_erase_ne hk] using hv
    by_cases hkey : key = (c.sender,c.senderEpoch)
    · subst hkey
      simp only [Finmap.lookup_insert,Option.some.injEq] at hl
      subst hl
      obtain ⟨-,hf⟩ | ⟨-,w₂,ha₂,-,hst,-,-,hbound⟩ := SenderWindow.admitCounter_total w c.counter
      · rw [ha] at hf
        cases hf
      · rw [ha] at ha₂
        cases ha₂
        cases hlook : base.senders.lookup (c.sender,c.senderEpoch) with
        | none =>
          rw [hlook] at hw
          subst hw
          exact Or.inr ⟨rfl,hbound _ nofun le_rfl⟩
        | some v =>
          rw [hlook] at hw
          simp only [Option.getD_some] at hw
          subst hw
          by_cases hle : w.started = true ∧ c.counter.toNat ≤ w.highest.toNat
          · exact Or.inl ⟨w,hkept _ _ hlook,hle.1.trans hst.symm,hbound _ (fun _ => le_rfl) hle.2⟩
          · refine Or.inr ⟨rfl,hbound _ (fun hs => ?_) le_rfl⟩
            have hlt : ¬ c.counter.toNat ≤ w.highest.toNat := fun hc => hle ⟨hs,hc⟩
            omega
    · simp only [Finmap.lookup_insert_of_ne _ hkey] at hl
      exact Or.inl ⟨w',hkept _ _ hl,rfl,le_rfl⟩

/-- A call is accepted exactly where its timestamp is fresh and its counter not seen. -/
theorem admitted_iff (c : Check) (g : ReplayGuard) :
    (∃ g', c.Step g true g') ↔ fresh c.timestampMs c.nowMs = true ∧ ¬ g.Seen c.key c.counter := by
  obtain ⟨hn,hr⟩ | ⟨hf,hn,base,w,w',-,-,-,-,hr⟩ := checkAndAdmit_cases (ε:=MessageError) c.order
    c.sender c.senderEpoch c.counter c.timestampMs c.nowMs g
  · constructor
    · rintro ⟨g',h⟩
      rw [Check.Step,hr] at h
      cases h
    · rintro ⟨hf,hs⟩
      rcases hn with hn | hn
      · rw [hf] at hn
        cases hn
      · exact absurd hn hs
  · exact ⟨fun _ => ⟨hf,hn⟩,fun _ => ⟨_,hr⟩⟩

theorem keys_step {c : Check} {g g' : ReplayGuard} {b : Bool} (h : c.Step g b g') :
    g'.senders.keys ⊆ insert c.key g.senders.keys := by
  obtain ⟨-,hr⟩ | ⟨-,-,base,w,w',hbase,-,-,-,hr⟩ := checkAndAdmit_cases (ε:=MessageError) c.order
    c.sender c.senderEpoch c.counter c.timestampMs c.nowMs g
  · rw [Check.Step,hr] at h
    cases h
    exact Finset.subset_insert _ _
  · rw [Check.Step,hr] at h
    cases h
    have hsub : base.senders.keys ⊆ g.senders.keys := by
      rw [hbase]
      split
      · exact subset_rfl
      · obtain ⟨-,he⟩ | ⟨-,victim,_,-,-,he⟩ := evictIfFull_cases c.order g
        · rw [he]
        · rw [he]
          intro k hk
          simp only [Finmap.mem_keys,Finmap.mem_erase] at hk ⊢
          exact hk.2
    intro k hk
    simp only [Finmap.mem_keys,Finmap.mem_insert] at hk
    rcases hk with rfl | hk
    · exact Finset.mem_insert_self _ _
    · exact Finset.mem_insert_of_mem (hsub (Finmap.mem_keys.mpr hk))

/-- Over a run, what is held stays held up to the first crowded table. -/
theorem holds_run {g g' : ReplayGuard} {calls : List (Check × Bool)} {key : SenderKey}
    {counter timestampMs : UInt64} (h : Checked g calls g') (hh : g.Holds key counter timestampMs) :
    g'.Holds key counter timestampMs ∨
    ∃ front x back mid, calls = front++x::back ∧ Checked g front mid ∧ mid.Crowded timestampMs := by
  induction h with
  | nil g => exact Or.inl hh
  | @cons g g₁ g₂ c b calls hstep _ ih =>
    rcases holds_step hstep hh with hnext | hcrowd
    · rcases ih hnext with hdone | ⟨front,x,back,mid,rfl,hrun,hc⟩
      · exact Or.inl hdone
      · exact Or.inr ⟨(c,b)::front,x,back,mid,rfl,.cons hstep hrun,hc⟩
    · exact Or.inr ⟨[],(c,b),calls,g,rfl,.nil g,hcrowd⟩

theorem checked_append {g g' : ReplayGuard} {xs ys : List (Check × Bool)} :
    Checked g (xs++ys) g' ↔ ∃ mid, Checked g xs mid ∧ Checked mid ys g' := by
  induction xs generalizing g with
  | nil =>
    constructor
    · exact fun h => ⟨g,.nil g,h⟩
    · rintro ⟨mid,h₁,h₂⟩
      cases h₁
      exact h₂
  | cons x xs ih =>
    constructor
    · intro h
      cases h with
      | cons hs hr =>
        obtain ⟨mid,h₁,h₂⟩ := ih.mp hr
        exact ⟨mid,.cons hs h₁,h₂⟩
    · rintro ⟨mid,h₁,h₂⟩
      cases h₁ with
      | cons hs hr => exact .cons hs (ih.mpr ⟨mid,hr,h₂⟩)

/-- A message is admitted a second time only where, at some call in between, the table was
full of senders all last seen at the message's timestamp or later. -/
theorem readmission_needs_crowded_table {before mid : List (Check × Bool)}
    {c d : Check} {g : ReplayGuard}
    (h : Checked new (before++(c,true)::mid++[(d,true)]) g) (hsame : c.SameMessage d) :
    ∃ front x back at', mid = front++x::back ∧
      Checked new (before++(c,true)::front) at' ∧ at'.Crowded c.timestampMs := by
  obtain ⟨g₂,h₁,h₂⟩ := checked_append.mp h
  obtain ⟨g₀,h₀,h₃⟩ := checked_append.mp h₁
  cases h₃ with
  | @cons _ g₁ _ _ _ _ hc hmid =>
    rcases holds_run hmid (holds_of_admitted hc) with hheld | ⟨front,x,back,m,rfl,hrun,hcrowd⟩
    · cases h₂ with
      | cons hd _ =>
        obtain ⟨hs,he,hn,ht⟩ := hsame
        have hheld' : g₂.Holds d.key d.counter d.timestampMs := by
          rw [← hn,← ht,Check.key,← hs,← he]
          exact hheld
        exact absurd (refused_of_holds hheld' hd) (by simp)
    · exact ⟨front,x,back,m,rfl,checked_append.mpr ⟨g₀,h₀,.cons hc hrun⟩,hcrowd⟩

/-- No message is admitted twice in a run from the empty table with a clock that does not
go back. -/
def AtMostOnce : Prop :=
  ∀ (before mid : List (Check × Bool)) (c d : Check) (g : ReplayGuard),
    Checked new (before++(c,true)::mid++[(d,true)]) g →
    ((before++(c,true)::mid++[(d,true)]).map fun call => call.1.nowMs.toNat).Pairwise (· ≤ ·) →
    ¬ c.SameMessage d

def epochCheck (order : HashOrder) (k : ℕ) : Check where
  sender := ⟨List.replicate 32 7,rfl⟩
  senderEpoch := UInt32.ofNat k
  counter := 0
  timestampMs := if k = 0 then 1699999999999 else 1700000000000
  nowMs := 1700000000000
  order := order

theorem epochCheck_fresh (order : HashOrder) (k : ℕ) :
    fresh (epochCheck order k).timestampMs (epochCheck order k).nowMs = true := by
  unfold epochCheck
  simp only
  split <;> decide

theorem epochCheck_key_inj (order : HashOrder) {i k : ℕ} (hi : i < 2^32) (hk : k < 2^32)
    (h : (epochCheck order i).key = (epochCheck order k).key) : i = k := by
  have he : UInt32.ofNat i = UInt32.ofNat k := congrArg Prod.snd h
  have hn := congrArg UInt32.toNat he
  rwa [UInt32.toNat_ofNat',UInt32.toNat_ofNat',Nat.mod_eq_of_lt hi,Nat.mod_eq_of_lt hk] at hn

theorem admitted_of_untracked {c : Check} {g : ReplayGuard} (hf : fresh c.timestampMs c.nowMs = true)
    (hk : c.key ∉ g.senders) : ∃ w, w.lastSeenMs = c.timestampMs ∧
      c.Step g true ⟨(g.evictIfFull c.order).senders.insert c.key w⟩ := by
  obtain ⟨hr,-⟩ | ⟨-,-,base,w,w',hbase,hw,-,ha,hr⟩ := checkAndAdmit_cases (ε:=MessageError) c.order
    c.sender c.senderEpoch c.counter c.timestampMs c.nowMs g
  · rcases hr with hr | ⟨w,hw,-⟩
    · rw [hf] at hr
      cases hr
    · exact absurd (Finmap.mem_of_lookup_eq_some hw) hk
  · rw [if_neg (show (c.sender,c.senderEpoch) ∉ g.senders from hk)] at hbase
    have hnone : base.senders.lookup (c.sender,c.senderEpoch) = none := by
      rw [hbase,Finmap.lookup_eq_none]
      obtain ⟨-,he⟩ | ⟨-,victim,_,-,-,he⟩ := evictIfFull_cases c.order g
      · rwa [he]
      · rw [he]
        exact fun hm => hk (Finmap.mem_erase.mp hm).2
    rw [hnone] at hw
    simp only [Option.getD_none] at hw
    subst hw
    obtain ⟨-,hf'⟩ | ⟨-,w₁,ha₁,hlast,-⟩ := SenderWindow.admitCounter_total .new c.counter
    · rw [ha] at hf'
      cases hf'
    · rw [ha] at ha₁
      cases ha₁
      refine ⟨_,?_,by rw [← hbase]; exact hr⟩
      apply UInt64.toNat_inj.mp
      simp [max_toNat,hlast,SenderWindow.new]

structure Fills (f : ℕ → Check) (n : ℕ) : Prop where
  fresh : ∀ i, i < n → fresh (f i).timestampMs (f i).nowMs = true
  distinct : ∀ i j, i < n → j < n → (f i).key = (f j).key → i = j

/-- The table tracks the keys of the first `k` calls and no others, each as its call claimed. -/
def Filled (f : ℕ → Check) (k : ℕ) (g : ReplayGuard) : Prop :=
  g.senders.keys = (Finset.range k).image (fun i => (f i).key) ∧
    ∀ i, i < k → ∃ w, g.senders.lookup (f i).key = some w ∧ w.lastSeenMs = (f i).timestampMs

theorem Filled.card {f : ℕ → Check} {n k : ℕ} {g : ReplayGuard} (hf : Fills f n)
    (h : Filled f k g) (hk : k ≤ n) : g.trackedSenders = k := by
  rw [trackedSenders,h.1,Finset.card_image_of_injOn,Finset.card_range]
  intro i hi j hj he
  simp only [Finset.coe_range,Set.mem_Iio] at hi hj
  exact hf.distinct i j (by omega) (by omega) he

theorem Filled.untracked {f : ℕ → Check} {n k : ℕ} {g : ReplayGuard} (hf : Fills f n)
    (h : Filled f k g) (hk : k < n) : (f k).key ∉ g.senders := by
  rw [← Finmap.mem_keys,h.1]
  simp only [Finset.mem_image,Finset.mem_range,not_exists,not_and]
  intro i hi he
  have := hf.distinct i k (by omega) hk he
  omega

theorem filled_run {f : ℕ → Check} {n : ℕ} (hf : Fills f n) (k : ℕ) (hk : k ≤ maxTrackedSenders)
    (hn : k ≤ n) : ∃ g, Checked new ((List.range k).map fun i => (f i,true)) g ∧ Filled f k g := by
  induction k with
  | zero =>
    refine ⟨new,.nil new,?_,fun i hi => absurd hi (Nat.not_lt_zero i)⟩
    simp [new]
  | succ k ih =>
    obtain ⟨g,hrun,hg⟩ := ih (by omega) (by omega)
    obtain ⟨w,hw,hstep⟩ := admitted_of_untracked (hf.fresh k (by omega)) (hg.untracked hf (by omega))
    obtain ⟨-,he⟩ | ⟨hfull,-⟩ := evictIfFull_cases (f k).order g
    · rw [he] at hstep
      refine ⟨⟨g.senders.insert (f k).key w⟩,?_,?_,?_⟩
      · rw [List.range_succ,List.map_append]
        exact checked_append.mpr ⟨g,hrun,.cons hstep (.nil _)⟩
      · ext key
        simp only [Finmap.mem_keys,Finmap.mem_insert]
        rw [← Finmap.mem_keys,hg.1]
        simp only [Finset.mem_image,Finset.mem_range]
        constructor
        · rintro (rfl | ⟨i,hi,rfl⟩)
          · exact ⟨k,by omega,rfl⟩
          · exact ⟨i,by omega,rfl⟩
        · rintro ⟨i,hi,rfl⟩
          by_cases hik : i = k
          · exact Or.inl (by rw [hik])
          · exact Or.inr ⟨i,by omega,rfl⟩
      · intro i hi
        by_cases hik : i = k
        · subst hik
          exact ⟨w,Finmap.lookup_insert _,hw⟩
        · obtain ⟨w₁,hl,ht⟩ := hg.2 i (by omega)
          refine ⟨w₁,?_,ht⟩
          rw [Finmap.lookup_insert_of_ne _ fun hkey =>
            hik (hf.distinct i k (by omega) (by omega) hkey)]
          exact hl
    · have hc := hg.card hf (by omega)
      omega

/-- After `k` epochs the table tracks exactly those, each seen when its message was sealed. -/
def Flooded (order : HashOrder) (k : ℕ) (g : ReplayGuard) : Prop :=
  g.senders.keys = (Finset.range k).image (fun i => (epochCheck order i).key) ∧
    ∀ i, i < k → ∃ w, g.senders.lookup (epochCheck order i).key = some w ∧
      w.lastSeenMs = (epochCheck order i).timestampMs

theorem epochs_fill (order : HashOrder) : Fills (epochCheck order) (2^32) where
  fresh i _ := epochCheck_fresh order i
  distinct _ _ hi hj he := epochCheck_key_inj order hi hj he

theorem Flooded.card {order : HashOrder} {k : ℕ} {g : ReplayGuard} (h : Flooded order k g)
    (hk : k < 2^32) : g.trackedSenders = k := Filled.card (epochs_fill order) h hk.le

theorem Flooded.untracked {order : HashOrder} {k : ℕ} {g : ReplayGuard} (h : Flooded order k g)
    (hk : k < 2^32) : (epochCheck order k).key ∉ g.senders := Filled.untracked (epochs_fill order) h hk

theorem flooded_run (order : HashOrder) (k : ℕ) (hk : k ≤ maxTrackedSenders) :
    ∃ g, Checked new ((List.range k).map fun i => (epochCheck order i,true)) g ∧
      Flooded order k g :=
  filled_run (epochs_fill order) k hk (hk.trans (by decide))

def laterEpochs (order : HashOrder) (n : ℕ) : List (Check × Bool) :=
  (List.range n).map fun i => (epochCheck order (i+1),true)

theorem laterEpochs_eq (order : HashOrder) (n : ℕ) :
    (List.range (n+1)).map (fun i => (epochCheck order i,true)) =
      (epochCheck order 0,true)::laterEpochs order n := by
  rw [List.range_succ_eq_map,List.map_cons,List.map_map]
  rfl

theorem flood_readmits (order : HashOrder) : ∃ g, Checked new
    ([]++(epochCheck order 0,true)::laterEpochs order maxTrackedSenders++
      [(epochCheck order 0,true)]) g := by
  have hcap : maxTrackedSenders < 2^32 := by decide
  have hpos : 0 < maxTrackedSenders := by decide
  obtain ⟨g,hrun,hg⟩ := flooded_run order maxTrackedSenders le_rfl
  obtain ⟨w,-,hstep⟩ := admitted_of_untracked (epochCheck_fresh order maxTrackedSenders)
    (hg.untracked hcap)
  obtain ⟨hlt,-⟩ | ⟨-,victim,v,hv,hmin,he⟩ := evictIfFull_cases order g
  · rw [hg.card hcap] at hlt
    exact absurd hlt (lt_irrefl _)
  · -- only epoch zero was seen before now
    have hvictim : victim = (epochCheck order 0).key := by
      have hmem : victim ∈ g.senders.keys := Finmap.mem_keys.mpr (Finmap.mem_of_lookup_eq_some hv)
      rw [hg.1] at hmem
      obtain ⟨i,hi,rfl⟩ := Finset.mem_image.mp hmem
      rw [Finset.mem_range] at hi
      obtain ⟨w₀,hl₀,ht₀⟩ := hg.2 0 hpos
      obtain ⟨wi,hli,hti⟩ := hg.2 i hi
      rw [hv] at hli
      cases hli
      have hle := hmin _ w₀ hl₀
      rw [ht₀,hti] at hle
      by_cases hi₀ : i = 0
      · rw [hi₀]
      · simp only [epochCheck,hi₀,if_false,if_true] at hle
        exact absurd hle (by decide)
    have hgone : (epochCheck order 0).key ∉
        (g.evictIfFull order).senders.insert (epochCheck order maxTrackedSenders).key w := by
      rw [he,hvictim]
      simp only [Finmap.mem_insert,Finmap.mem_erase,ne_eq,not_true,false_and,or_false]
      intro hkey
      have := epochCheck_key_inj order (by omega) hcap hkey
      omega
    obtain ⟨w',-,hagain⟩ := admitted_of_untracked (epochCheck_fresh order 0) hgone
    refine ⟨_,checked_append.mpr ⟨_,?_,.cons hagain (.nil _)⟩⟩
    rw [List.nil_append,← laterEpochs_eq,List.range_succ,List.map_append]
    exact checked_append.mpr ⟨g,hrun,.cons hstep (.nil _)⟩

/-- The message of epoch zero is admitted twice at one clock reading. -/
theorem flood_reopens_message : ¬ AtMostOnce := by
  intro h
  obtain ⟨g,hrun⟩ := flood_readmits default
  refine h _ _ _ _ g hrun ?_ ⟨rfl,rfl,rfl,rfl⟩
  generalize maxTrackedSenders = n
  have hnow : ∀ t ∈ ([]++(epochCheck default 0,true)::laterEpochs default n++
      [(epochCheck default 0,true)]).map (fun call : Check × Bool => call.1.nowMs.toNat),
      t = 1700000000000 := by
    intro t ht
    simp only [List.nil_append,List.cons_append,List.map_cons,List.map_append,List.map_nil,
      List.mem_cons,List.mem_append,List.mem_map,laterEpochs,List.mem_range,List.not_mem_nil,
      or_false] at ht
    rcases ht with rfl | ⟨call,⟨i,-,rfl⟩,rfl⟩ | rfl <;> rfl
  refine (List.pairwise_of_forall fun _ _ => trivial : List.Pairwise (fun _ _ => True) _).imp_of_mem
    fun ha hb _ => ?_
  rw [hnow _ ha,hnow _ hb]

/-- In that run the table was crowded in between. -/
theorem flood_crowds_table : ∃ front x back at',
    laterEpochs default maxTrackedSenders = front++x::back ∧
      Checked new ([]++(epochCheck default 0,true)::front) at' ∧
      at'.Crowded (epochCheck default 0).timestampMs := by
  obtain ⟨g,hrun⟩ := flood_readmits default
  exact readmission_needs_crowded_table hrun ⟨rfl,rfl,rfl,rfl⟩

end ReplayGuard
end DigMessage
