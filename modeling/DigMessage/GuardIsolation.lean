import DigMessage.ReplayRuns
import DigMessage.SeenCounters

/-! One key of the anti-replay table among the others. A call moves the window of its own key
and no other, makes room by a single eviction at the cap, and a refused call moves nothing;
so while the keys fit the table each key has a window to itself. -/
namespace DigMessage
open FixedWidth

namespace SenderWindow

theorem Tracks.touch {S : Finset ℕ} {w : SenderWindow} (h : Tracks S w) (t : UInt64) :
    Tracks S {w with lastSeenMs := t} := ⟨h.started,h.highest,h.bit⟩

end SenderWindow

namespace ReplayGuard

def window (g : ReplayGuard) (key : SenderKey) : SenderWindow := (g.senders.lookup key).getD .new

theorem fresh_iff (timestampMs nowMs : UInt64) : fresh timestampMs nowMs = true ↔
    |(timestampMs.toNat : ℤ)-nowMs.toNat| ≤ freshnessWindowMs.toNat := by
  have hfit := timestampMs.toNat_lt
  have hlow : ¬ timestampMs < saturatingSub nowMs freshnessWindowMs ↔
      nowMs.toNat ≤ timestampMs.toNat+freshnessWindowMs.toNat := by
    rw [UInt64.lt_iff_toNat_lt,saturatingSub_toNat]
    omega
  have hhigh : ¬ timestampMs > saturatingAdd nowMs freshnessWindowMs ↔
      timestampMs.toNat ≤ nowMs.toNat+freshnessWindowMs.toNat := by
    rw [gt_iff_lt,UInt64.lt_iff_toNat_lt,saturatingAdd_toNat]
    omega
  rw [abs_le]
  simp only [fresh,Bool.not_eq_true',Bool.or_eq_false_iff,decide_eq_false_iff_not,hlow,hhigh]
  omega

/-- The table once there is room for `key`. -/
def makeRoom (order : HashOrder) (g : ReplayGuard) (key : SenderKey) : ReplayGuard :=
  if key ∈ g.senders then g else g.evictIfFull order

theorem window_makeRoom (order : HashOrder) (g : ReplayGuard) (key : SenderKey) :
    (g.makeRoom order key).window key = g.window key := by
  unfold makeRoom
  split
  · rfl
  · rename_i hk
    have hnone : g.senders.lookup key = none := Finmap.lookup_eq_none.mpr hk
    obtain ⟨-,he⟩ | ⟨-,victim,v,hv,-,he⟩ := evictIfFull_cases order g
    · rw [he]
    · have hne : key ≠ victim := by
        rintro rfl
        rw [hnone] at hv
        cases hv
      have hlook : (g.senders.erase victim).lookup key = g.senders.lookup key :=
        Finmap.lookup_erase_ne hne
      rw [he]
      simp only [window,hlook]

/-- Room is made by removing one entry, and only for a new key at the cap. -/
theorem makeRoom_cases (order : HashOrder) (g : ReplayGuard) (key : SenderKey) :
    ((key ∈ g.senders ∨ g.trackedSenders < maxTrackedSenders) ∧ g.makeRoom order key = g) ∨
    (key ∉ g.senders ∧ maxTrackedSenders ≤ g.trackedSenders ∧
      ∃ victim w, g.senders.lookup victim = some w ∧ victim ≠ key ∧
      (∀ k v, g.senders.lookup k = some v → w.lastSeenMs.toNat ≤ v.lastSeenMs.toNat) ∧
      g.makeRoom order key = ⟨g.senders.erase victim⟩) := by
  unfold makeRoom
  by_cases hk : key ∈ g.senders
  · exact Or.inl ⟨Or.inl hk,if_pos hk⟩
  · rw [if_neg hk]
    obtain ⟨hroom,he⟩ | ⟨hfull,victim,w,hw,hmin,he⟩ := evictIfFull_cases order g
    · exact Or.inl ⟨Or.inr hroom,he⟩
    · refine Or.inr ⟨hk,hfull,victim,w,hw,?_,hmin,he⟩
      rintro rfl
      exact hk (Finmap.mem_of_lookup_eq_some hw)

/-- What a call does, in terms of the window of its key. -/
theorem step_cases {c : Check} {g g' : ReplayGuard} {b : Bool} (h : c.Step g b g') :
    (b = false ∧ g' = g ∧
      (fresh c.timestampMs c.nowMs = true →
        (g.window c.key).admitCounter 64 c.counter = some (false,g.window c.key))) ∨
    (b = true ∧ fresh c.timestampMs c.nowMs = true ∧ ∃ w',
      (g.window c.key).admitCounter 64 c.counter = some (true,w') ∧
      g' = ⟨(g.makeRoom c.order c.key).senders.insert c.key
        {w' with lastSeenMs := max w'.lastSeenMs c.timestampMs}⟩) := by
  obtain ⟨hno,hr⟩ | ⟨hf,-,base,w,w',hbase,hw,-,ha,hr⟩ := checkAndAdmit_cases (ε:=MessageError)
    c.order c.sender c.senderEpoch c.counter c.timestampMs c.nowMs g
  · rw [Check.Step,hr] at h
    cases h
    refine Or.inl ⟨rfl,rfl,fun hf => ?_⟩
    obtain ⟨w,hl,hs⟩ := hno.resolve_left (by simp [hf])
    have hwin : g.window c.key = w := by simp [window,Check.key,hl]
    rw [hwin]
    obtain ⟨-,ha⟩ | ⟨hn,-⟩ := SenderWindow.admitCounter_total w c.counter
    · exact ha
    · exact absurd hs hn
  · rw [Check.Step,hr] at h
    cases h
    have hroom : base = g.makeRoom c.order c.key := hbase
    have hwin : w = g.window c.key := by
      rw [hw,hroom]
      exact window_makeRoom c.order g c.key
    refine Or.inr ⟨rfl,hf,w',by rw [← hwin]; exact ha,?_⟩
    rw [hroom]
    rfl

theorem step_total (c : Check) (g : ReplayGuard) : ∃ b g', c.Step g b g' := by
  obtain ⟨-,hr⟩ | ⟨-,-,base,w,w',-,-,-,-,hr⟩ := checkAndAdmit_cases (ε:=MessageError)
    c.order c.sender c.senderEpoch c.counter c.timestampMs c.nowMs g
  · exact ⟨false,g,hr⟩
  · exact ⟨true,_,hr⟩

theorem checked_total (checks : List Check) (g : ReplayGuard) :
    ∃ calls g', Checked g calls g' ∧ calls.map Prod.fst = checks := by
  induction checks generalizing g with
  | nil => exact ⟨[],g,.nil g,rfl⟩
  | cons c checks ih =>
    obtain ⟨b,g₁,hstep⟩ := step_total c g
    obtain ⟨calls,g₂,hrun,hmap⟩ := ih g₁
    exact ⟨(c,b)::calls,g₂,.cons hstep hrun,by rw [List.map_cons,hmap]⟩

structure Admission (c : Check) (g g' : ReplayGuard) : Prop where
  /-- Its own window is the one its counter was admitted to. -/
  own : ∃ w', (g.window c.key).admitCounter 64 c.counter = some (true,w') ∧
    g'.senders.lookup c.key = some {w' with lastSeenMs := max w'.lastSeenMs c.timestampMs}
  others : c.key ∈ g.senders ∨ g.trackedSenders < maxTrackedSenders →
    ∀ key, key ≠ c.key → g'.senders.lookup key = g.senders.lookup key
  evicts : c.key ∉ g.senders → g.trackedSenders = maxTrackedSenders →
    ∃ victim, victim ∈ g.senders ∧ victim ≠ c.key ∧ victim ∉ g'.senders ∧
      ∀ key, key ≠ c.key → key ≠ victim → g'.senders.lookup key = g.senders.lookup key

theorem admission {c : Check} {g g' : ReplayGuard} (h : c.Step g true g') : Admission c g g' := by
  obtain ⟨hb,-⟩ | ⟨-,-,w',ha,he⟩ := step_cases h
  · cases hb
  have hother : ∀ key, key ≠ c.key →
      g'.senders.lookup key = (g.makeRoom c.order c.key).senders.lookup key := by
    intro key hk
    rw [he]
    exact Finmap.lookup_insert_of_ne _ hk
  have hown : g'.senders.lookup c.key =
      some {w' with lastSeenMs := max w'.lastSeenMs c.timestampMs} := by
    rw [he]
    exact Finmap.lookup_insert _
  obtain ⟨hroom,hm⟩ | ⟨hk,hfull,victim,w,hv,hne,-,hm⟩ := makeRoom_cases c.order g c.key
  · rw [hm] at hother
    refine ⟨⟨w',ha,hown⟩,fun _ => hother,fun hk hfull => ?_⟩
    rcases hroom with hin | hlt
    · exact absurd hin hk
    · omega
  · rw [hm] at hother
    refine ⟨⟨w',ha,hown⟩,fun hroom => ?_,fun _ _ => ⟨victim,?_,hne,?_,?_⟩⟩
    · rcases hroom with hin | hlt
      · exact absurd hin hk
      · omega
    · exact Finmap.mem_of_lookup_eq_some hv
    · rw [← Finmap.lookup_eq_none,hother victim hne]
      exact Finmap.lookup_erase _ _
    · intro key hkey hvic
      rw [hother key hkey]
      exact Finmap.lookup_erase_ne hvic

theorem tracked_step {c : Check} {g g' : ReplayGuard} {b : Bool} (h : c.Step g b g')
    (hg : g.trackedSenders ≤ maxTrackedSenders) : g'.trackedSenders ≤ maxTrackedSenders := by
  obtain ⟨-,rfl,-⟩ | ⟨-,-,w',-,rfl⟩ := step_cases h
  · exact hg
  · have hkeys : ∀ t : SenderTable, ∀ w, (t.insert c.key w).keys = insert c.key t.keys := by
      intro t w
      ext key
      simp only [Finmap.mem_keys,Finmap.mem_insert,Finset.mem_insert]
    simp only [trackedSenders,hkeys] at hg ⊢
    obtain ⟨hroom,hm⟩ | ⟨-,-,victim,w,hv,-,-,hm⟩ := makeRoom_cases c.order g c.key
    · rw [hm]
      rcases hroom with hin | hlt
      · rw [Finset.insert_eq_of_mem (Finmap.mem_keys.mpr hin)]
        exact hg
      · have hcard := Finset.card_insert_le c.key g.senders.keys
        simp only [trackedSenders] at hlt
        omega
    · simp only [hm]
      have hmem : victim ∈ g.senders.keys := Finmap.mem_keys.mpr (Finmap.mem_of_lookup_eq_some hv)
      have hcard := Finset.card_insert_le c.key (g.senders.erase victim).keys
      have herase : ((g.senders.erase victim).keys).card = g.senders.keys.card-1 := by
        rw [Finmap.keys_erase,Finset.card_erase_of_mem hmem]
      have hpos : 0 < g.senders.keys.card := Finset.card_pos.mpr ⟨victim,hmem⟩
      omega

theorem tracked_run {g g' : ReplayGuard} {calls : List (Check × Bool)} (h : Checked g calls g')
    (hg : g.trackedSenders ≤ maxTrackedSenders) : g'.trackedSenders ≤ maxTrackedSenders := by
  induction h with
  | nil => exact hg
  | cons hstep _ ih => exact ih (tracked_step hstep hg)

/-- In every state the guard reaches, the table is within its cap; the next call answers, a
refusal leaves the table as it is, and an admission changes it as `Admission` says. -/
theorem guard_updates_atomic {calls : List (Check × Bool)} {g : ReplayGuard}
    (h : Checked new calls g) : g.trackedSenders ≤ maxTrackedSenders ∧
    ∀ c : Check, ∃ b g', c.Step g b g' ∧ (b = false → g' = g) ∧
      (b = true → Admission c g g') := by
  have hnew : new.trackedSenders ≤ maxTrackedSenders := Nat.zero_le _
  refine ⟨tracked_run h hnew,fun c => ?_⟩
  obtain ⟨b,g',hstep⟩ := step_total c g
  refine ⟨b,g',hstep,fun hb => ?_,fun hb => ?_⟩
  · subst hb
    obtain ⟨-,he,-⟩ | ⟨hb,-⟩ := step_cases hstep
    · exact he
    · cases hb
  · subst hb
    exact admission hstep

/-- At the cap the first message of one epoch more evicts a single other one. -/
theorem full_table_atomic : ∃ g, g.trackedSenders = maxTrackedSenders ∧
    ∀ c : Check, ∃ b g', c.Step g b g' ∧ (b = false → g' = g) ∧ (b = true → Admission c g g') := by
  obtain ⟨g,hrun,hg⟩ := flooded_run default maxTrackedSenders le_rfl
  exact ⟨g,hg.card (by decide),(guard_updates_atomic hrun).2⟩

end ReplayGuard

namespace Check

/-- The timestamp is within the freshness window of the clock, as integers. -/
def Recent (c : Check) : Prop :=
  |(c.timestampMs.toNat : ℤ)-c.nowMs.toNat| ≤ freshnessWindowMs.toNat

instance (c : Check) : Decidable c.Recent := inferInstanceAs (Decidable (_ ≤ _))

def counted (key : SenderKey) (x : Check × Bool) : Bool := x.1.key = key ∧ x.1.Recent

end Check

namespace ReplayGuard

/-- Where there is room, a call leaves the windows of the other keys alone, and its answer
is that of its own window. -/
theorem step_tracks {c : Check} {g g' : ReplayGuard} {b : Bool} {key : SenderKey} {S : Finset ℕ}
    (h : c.Step g b g') (hroom : c.key ∈ g.senders ∨ g.trackedSenders < maxTrackedSenders)
    (ht : (g.window key).Tracks S) :
    (c.key = key → c.Recent → b = decide (Admissible S c.counter.toNat) ∧
      (g'.window key).Tracks (if Admissible S c.counter.toNat then insert c.counter.toNat S else S)) ∧
    (¬ (c.key = key ∧ c.Recent) → (g'.window key).Tracks S) ∧
    (¬ c.Recent → b = false) := by
  have hiff := fresh_iff c.timestampMs c.nowMs
  obtain ⟨w,ha,htrack,hsame⟩ := SenderWindow.admitCounter_tracks ht c.counter
  obtain ⟨rfl,rfl,hno⟩ | ⟨rfl,hf,w',hw,-⟩ := step_cases h
  · refine ⟨fun hk hr => ?_,fun _ => ht,fun _ => rfl⟩
    subst hk
    have hrefused := hno (hiff.mpr hr)
    rw [ha,Option.some.injEq,Prod.mk.injEq] at hrefused
    obtain ⟨hans,hwin⟩ := hrefused
    refine ⟨hans.symm,?_⟩
    rw [if_neg (of_decide_eq_false hans)]
    exact ht
  · have hrecent : c.Recent := hiff.mp hf
    obtain ⟨⟨w₁,hw₁,hown⟩,hothers,-⟩ := admission h
    refine ⟨fun hk _ => ?_,fun hnot => ?_,fun hn => absurd hrecent hn⟩
    · subst hk
      rw [ha,Option.some.injEq,Prod.mk.injEq] at hw₁
      obtain ⟨hans,rfl⟩ := hw₁
      refine ⟨hans.symm,?_⟩
      have hwin : g'.window c.key = {w with lastSeenMs := max w.lastSeenMs c.timestampMs} := by
        simp only [window,hown,Option.getD_some]
      rw [hwin]
      exact htrack.touch _
    · have hne : key ≠ c.key := fun he => hnot ⟨he.symm,hrecent⟩
      have hwin : g'.window key = g.window key := by
        simp only [window,hothers hroom key hne]
      rw [hwin]
      exact ht

/-- From a table and a lone window that have seen the same of `key`, a run whose keys fit the
table answers for `key` as the lone window does. -/
theorem run_tracks {g g' : ReplayGuard} {calls : List (Check × Bool)} {key : SenderKey}
    {S : Finset ℕ} {w : SenderWindow} {K : Finset SenderKey} (h : Checked g calls g')
    (hK : K.card ≤ maxTrackedSenders) (hg : g.senders.keys ⊆ K) (hcalls : ∀ x ∈ calls, x.1.key ∈ K)
    (ht : (g.window key).Tracks S) (hw : w.Tracks S) :
    (∃ w', w.admitAll ((calls.filter (Check.counted key)).map fun x => x.1.counter) =
      some ((calls.filter (Check.counted key)).map fun x => (x.1.counter,x.2),w')) ∧
    ∀ x ∈ calls, ¬ x.1.Recent → x.2 = false := by
  induction h generalizing S w with
  | nil g => exact ⟨⟨w,rfl⟩,fun x hx => absurd hx List.not_mem_nil⟩
  | @cons g g₁ g₂ c b calls hstep hrun ih =>
    have hc : c.key ∈ K := hcalls (c,b) (List.mem_cons_self ..)
    have hrest : ∀ x ∈ calls, x.1.key ∈ K := fun x hx => hcalls x (List.mem_cons_of_mem _ hx)
    have hg₁ : g₁.senders.keys ⊆ K :=
      (keys_step hstep).trans (Finset.insert_subset hc hg)
    have hroom : c.key ∈ g.senders ∨ g.trackedSenders < maxTrackedSenders := by
      by_cases hin : c.key ∈ g.senders
      · exact Or.inl hin
      · have hss : g.senders.keys ⊂ K :=
          Finset.ssubset_iff_subset_ne.mpr ⟨hg,fun he => hin (Finmap.mem_keys.mp (he ▸ hc))⟩
        have hlt := Finset.card_lt_card hss
        exact Or.inr (lt_of_lt_of_le hlt hK)
    obtain ⟨hown,hother,hstale⟩ := step_tracks hstep hroom ht
    have hstales : (¬ c.Recent → b = false) → (∀ x ∈ calls, ¬ x.1.Recent → x.2 = false) →
        ∀ x ∈ (c,b)::calls, ¬ x.1.Recent → x.2 = false := by
      intro h₀ hs x hx
      rcases List.mem_cons.mp hx with rfl | hx
      · exact h₀
      · exact hs x hx
    by_cases hmine : c.key = key ∧ c.Recent
    · obtain ⟨hans,ht₁⟩ := hown hmine.1 hmine.2
      obtain ⟨w₁,ha,hw₁,-⟩ := SenderWindow.admitCounter_tracks hw c.counter
      obtain ⟨⟨w',hrec⟩,hs⟩ := ih hg₁ hrest ht₁ hw₁
      refine ⟨⟨w',?_⟩,hstales hstale hs⟩
      have hcount : Check.counted key (c,b) = true := decide_eq_true hmine
      rw [List.filter_cons_of_pos hcount]
      simp only [List.map_cons,SenderWindow.admitAll,ha,hrec,Option.bind_eq_bind,Option.bind_some,
        Option.pure_def,hans]
    · obtain ⟨⟨w',hrec⟩,hs⟩ := ih hg₁ hrest (hother hmine) hw
      refine ⟨⟨w',?_⟩,hstales hstale hs⟩
      have hcount : ¬ Check.counted key (c,b) = true := fun hc => hmine (of_decide_eq_true hc)
      rw [List.filter_cons_of_neg hcount]
      exact hrec

/-- However the calls of other keys are interleaved, while all keys fit the table: the fresh
calls of a key are answered as a window of its own answers their counters, and the stale ones
are refused. -/
theorem senders_do_not_interfere {calls : List (Check × Bool)} {g : ReplayGuard}
    (h : Checked new calls g)
    (hfew : (calls.map fun x => x.1.key).toFinset.card ≤ maxTrackedSenders) (key : SenderKey) :
    (∃ w, SenderWindow.new.admitAll
        ((calls.filter (Check.counted key)).map fun x => x.1.counter) =
      some ((calls.filter (Check.counted key)).map fun x => (x.1.counter,x.2),w)) ∧
    ∀ x ∈ calls, x.1.key = key → ¬ x.1.Recent → x.2 = false := by
  have hnew : (new.window key).Tracks ∅ := SenderWindow.new_tracks
  have hin : ∀ x ∈ calls, x.1.key ∈ (calls.map fun x => x.1.key).toFinset := by
    intro x hx
    rw [List.mem_toFinset]
    exact List.mem_map_of_mem hx
  have hempty : new.senders.keys ⊆ (calls.map fun x => x.1.key).toFinset := by simp [new]
  obtain ⟨hall,hstale⟩ := run_tracks h hfew hempty hin hnew SenderWindow.new_tracks
  exact ⟨hall,fun x hx _ => hstale x hx⟩

/-- A table filled up to its cap still gives each epoch a window of its own. -/
theorem full_table_separates : ∃ (calls : List (Check × Bool)) (g : ReplayGuard),
    Checked new calls g ∧ calls.length = maxTrackedSenders ∧ ∀ key, ∃ w, SenderWindow.new.admitAll
        ((calls.filter (Check.counted key)).map fun x => x.1.counter) =
      some ((calls.filter (Check.counted key)).map fun x => (x.1.counter,x.2),w) := by
  obtain ⟨g,hrun,hg⟩ := flooded_run default maxTrackedSenders le_rfl
  have hfew : (((List.range maxTrackedSenders).map fun i =>
      (epochCheck default i,true)).map fun x => x.1.key).toFinset.card ≤ maxTrackedSenders := by
    refine (List.toFinset_card_le _).trans ?_
    rw [List.length_map,List.length_map,List.length_range]
  refine ⟨_,g,hrun,by rw [List.length_map,List.length_range],fun key => ?_⟩
  exact (senders_do_not_interfere hrun hfew key).1

end ReplayGuard
end DigMessage
