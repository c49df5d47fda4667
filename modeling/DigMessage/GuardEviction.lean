import DigMessage.GuardIsolation

/-! Whom the anti-replay table evicts. The victim is the sender whose newest claimed timestamp
is least, and a claim may be off the time of receipt by the freshness window either way; so a
sender that has gone idle can outlast one that is active. -/
namespace DigMessage
open FixedWidth

namespace ReplayGuard

/-- When a message of `key` was last admitted, by the receiver's clock. -/
def lastAdmitted (calls : List (Check × Bool)) (key : SenderKey) : Option UInt64 :=
  ((calls.filter fun x => x.2 ∧ x.1.key = key).getLast?).map fun x => x.1.nowMs

/-- The last admitted message of `key` was received more than a freshness window ago. -/
def Idle (calls : List (Check × Bool)) (nowMs : UInt64) (key : SenderKey) : Prop :=
  ∃ t, lastAdmitted calls key = some t ∧ t.toNat+freshnessWindowMs.toNat < nowMs.toNat

/-- A message of `key` was admitted within the last freshness window. -/
def Active (calls : List (Check × Bool)) (nowMs : UInt64) (key : SenderKey) : Prop :=
  ∃ x ∈ calls, x.2 = true ∧ x.1.key = key ∧ nowMs.toNat ≤ x.1.nowMs.toNat+freshnessWindowMs.toNat

def Clocked (calls : List (Check × Bool)) : Prop :=
  (calls.map fun x => x.1.nowMs.toNat).Pairwise (· ≤ ·)

/-- While an idle sender is tracked, the call evicts an idle one and no active one. -/
structure IdleFirst (calls : List (Check × Bool)) (c : Check) (g g' : ReplayGuard) : Prop where
  idle : (∃ key ∈ g.senders, Idle calls c.nowMs key) →
    ∀ victim ∈ g.senders, victim ∉ g'.senders → Idle calls c.nowMs victim
  active : (∃ key ∈ g.senders, Idle calls c.nowMs key) →
    ∀ key ∈ g.senders, Active calls c.nowMs key → key ∈ g'.senders

/-- While an idle sender is tracked, some idle sender's newest claim is before every claim of
a sender that is not idle. -/
def IdleOldest (calls : List (Check × Bool)) (nowMs : UInt64) (g : ReplayGuard) : Prop :=
  (∃ key ∈ g.senders, Idle calls nowMs key) → ∃ key w, g.senders.lookup key = some w ∧
    Idle calls nowMs key ∧ ∀ other v, g.senders.lookup other = some v →
      ¬ Idle calls nowMs other → w.lastSeenMs.toNat < v.lastSeenMs.toNat

theorem lastAdmitted_snoc (calls : List (Check × Bool)) (c : Check) (b : Bool) (key : SenderKey) :
    lastAdmitted (calls++[(c,b)]) key =
      if b = true ∧ c.key = key then some c.nowMs else lastAdmitted calls key := by
  unfold lastAdmitted
  rw [List.filter_append]
  by_cases h : b = true ∧ c.key = key
  · rw [if_pos h,List.filter_cons_of_pos (by simpa using h)]
    simp
  · rw [if_neg h,List.filter_cons_of_neg (by simpa using h)]
    simp

theorem lastAdmitted_mem {calls : List (Check × Bool)} {key : SenderKey} {t : UInt64}
    (h : lastAdmitted calls key = some t) :
    ∃ x ∈ calls, x.2 = true ∧ x.1.key = key ∧ x.1.nowMs = t := by
  obtain ⟨x,hx,ht⟩ := Option.map_eq_some_iff.mp h
  have hmem := List.mem_of_getLast? hx
  have hp := List.of_mem_filter hmem
  rw [decide_eq_true_eq] at hp
  exact ⟨x,List.mem_of_mem_filter hmem,hp.1,hp.2,ht⟩

theorem le_lastAdmitted {calls : List (Check × Bool)} {key : SenderKey} (hclock : Clocked calls)
    {x : Check × Bool} (hx : x ∈ calls) (hb : x.2 = true) (hk : x.1.key = key) :
    ∃ t, lastAdmitted calls key = some t ∧ x.1.nowMs.toNat ≤ t.toNat := by
  induction calls using List.reverseRecOn with
  | nil => exact absurd hx List.not_mem_nil
  | append_singleton calls y ih =>
    obtain ⟨c,b⟩ := y
    rw [Clocked,List.map_append,List.pairwise_append] at hclock
    obtain ⟨hfront,-,hlate⟩ := hclock
    rw [lastAdmitted_snoc]
    have hbefore : x ∈ calls → x.1.nowMs.toNat ≤ c.nowMs.toNat := fun hx =>
      hlate _ (List.mem_map_of_mem (f:=fun y : Check × Bool => y.1.nowMs.toNat) hx) _
        (List.mem_singleton_self _)
    rcases List.mem_append.mp hx with hx | hx
    · split
      · exact ⟨c.nowMs,rfl,hbefore hx⟩
      · exact ih hfront hx
    · rw [List.mem_singleton] at hx
      subst hx
      rw [if_pos ⟨hb,hk⟩]
      exact ⟨c.nowMs,rfl,le_rfl⟩

theorem not_idle_of_active {calls : List (Check × Bool)} {nowMs : UInt64} {key : SenderKey}
    (hclock : Clocked calls) (h : Active calls nowMs key) : ¬ Idle calls nowMs key := by
  obtain ⟨x,hx,hb,hk,hnear⟩ := h
  obtain ⟨t,ht,hle⟩ := le_lastAdmitted hclock hx hb hk
  rintro ⟨t',ht',hfar⟩
  rw [ht] at ht'
  cases ht'
  omega

theorem evicted_least {c : Check} {g g' : ReplayGuard} {b : Bool} {victim : SenderKey}
    {w : SenderWindow} (h : c.Step g b g') (hw : g.senders.lookup victim = some w)
    (hgone : victim ∉ g'.senders) :
    ∀ key v, g.senders.lookup key = some v → w.lastSeenMs.toNat ≤ v.lastSeenMs.toNat := by
  obtain ⟨-,rfl,-⟩ | ⟨-,-,w',-,rfl⟩ := step_cases h
  · exact absurd (Finmap.mem_of_lookup_eq_some hw) hgone
  · simp only [Finmap.mem_insert,not_or] at hgone
    obtain ⟨-,hm⟩ | ⟨-,-,least,v,hv,-,hmin,hm⟩ := makeRoom_cases c.order g c.key
    · rw [hm] at hgone
      exact absurd (Finmap.mem_of_lookup_eq_some hw) hgone.2
    · rw [hm] at hgone
      have he : victim = least := by
        by_contra hne
        exact hgone.2 (Finmap.mem_erase.mpr ⟨hne,Finmap.mem_of_lookup_eq_some hw⟩)
      subst he
      rw [hw] at hv
      cases hv
      exact hmin

theorem gone_of_least {c : Check} {g g' : ReplayGuard} {key : SenderKey} {w : SenderWindow}
    (h : c.Step g true g') (hnew : c.key ∉ g.senders) (hfull : g.trackedSenders = maxTrackedSenders)
    (hw : g.senders.lookup key = some w) (hless : ∀ k v, g.senders.lookup k = some v → k ≠ key →
      w.lastSeenMs.toNat < v.lastSeenMs.toNat) : key ∉ g'.senders := by
  obtain ⟨hb,-⟩ | ⟨-,-,w',-,rfl⟩ := step_cases h
  · cases hb
  obtain ⟨hroom,-⟩ | ⟨-,-,victim,v,hv,-,hmin,hm⟩ := makeRoom_cases c.order g c.key
  · rcases hroom with hin | hlt
    · exact absurd hin hnew
    · omega
  · have hvictim : victim = key := by
      by_contra hne
      have hlt := hless victim v hv hne
      have hle := hmin key w hw
      omega
    rw [hm,hvictim]
    intro hin
    rcases Finmap.mem_insert.mp hin with he | hin
    · exact hnew (he ▸ Finmap.mem_of_lookup_eq_some hw)
    · exact (Finmap.mem_erase.mp hin).1 rfl

theorem tracked_of_room {c : Check} {g g' : ReplayGuard} {b : Bool} (h : c.Step g b g')
    (hroom : c.key ∈ g.senders ∨ g.trackedSenders < maxTrackedSenders) {key : SenderKey}
    (hk : key ∈ g.senders) : key ∈ g'.senders := by
  obtain ⟨-,rfl,-⟩ | ⟨-,-,w',-,rfl⟩ := step_cases h
  · exact hk
  · obtain ⟨-,hm⟩ | ⟨hnew,hfull,-⟩ := makeRoom_cases c.order g c.key
    · rw [hm]
      exact Finmap.mem_insert.mpr (Or.inr hk)
    · rcases hroom with hin | hlt
      · exact absurd hin hnew
      · omega

/-- Every admitted message claimed a time within `δ` of its receipt. -/
def ClaimsWithin (δ : ℕ) (calls : List (Check × Bool)) : Prop :=
  ∀ x ∈ calls, x.2 = true → x.1.timestampMs.toNat ≤ x.1.nowMs.toNat+δ ∧
    x.1.nowMs.toNat ≤ x.1.timestampMs.toNat+δ

theorem lookup_step {c : Check} {g g' : ReplayGuard} {b : Bool} {key : SenderKey} {w : SenderWindow}
    (h : c.Step g b g') (hne : key ≠ c.key) (hw : g'.senders.lookup key = some w) :
    g.senders.lookup key = some w := by
  obtain ⟨-,rfl,-⟩ | ⟨-,-,w',-,rfl⟩ := step_cases h
  · exact hw
  · rw [Finmap.lookup_insert_of_ne _ hne] at hw
    obtain ⟨-,hm⟩ | ⟨-,-,victim,_,-,-,-,hm⟩ := makeRoom_cases c.order g c.key
    · rw [hm] at hw
      exact hw
    · rw [hm] at hw
      by_cases hv : key = victim
      · rw [hv,Finmap.lookup_erase] at hw
        cases hw
      · rw [Finmap.lookup_erase_ne hv] at hw
        exact hw

theorem claims_near {δ : ℕ} {calls : List (Check × Bool)} {g : ReplayGuard}
    (h : Checked new calls g) (hclock : Clocked calls) (hδ : ClaimsWithin δ calls)
    {key : SenderKey} {w : SenderWindow} (hw : g.senders.lookup key = some w) :
    ∃ t, lastAdmitted calls key = some t ∧ w.lastSeenMs.toNat ≤ t.toNat+δ ∧
      t.toNat ≤ w.lastSeenMs.toNat+δ := by
  induction calls using List.reverseRecOn generalizing g w with
  | nil =>
    cases h
    rw [new,Finmap.lookup_empty] at hw
    cases hw
  | append_singleton calls x ih =>
    obtain ⟨c,b⟩ := x
    obtain ⟨mid,hrun,hlast⟩ := checked_append.mp h
    have hstep : c.Step mid b g := by
      cases hlast with
      | cons hstep hnil =>
        cases hnil
        exact hstep
    have hfront : Clocked calls := by
      rw [Clocked,List.map_append,List.pairwise_append] at hclock
      exact hclock.1
    have hbefore : ∀ t, lastAdmitted calls key = some t → t.toNat ≤ c.nowMs.toNat := by
      intro t ht
      obtain ⟨x,hx,-,-,rfl⟩ := lastAdmitted_mem ht
      rw [Clocked,List.map_append,List.pairwise_append] at hclock
      exact hclock.2.2 _ (List.mem_map_of_mem (f:=fun y : Check × Bool => y.1.nowMs.toNat) hx) _
        (List.mem_singleton_self _)
    have hrec : ∀ v, mid.senders.lookup key = some v → ∃ t, lastAdmitted calls key = some t ∧
        v.lastSeenMs.toNat ≤ t.toNat+δ ∧ t.toNat ≤ v.lastSeenMs.toNat+δ := fun v hv =>
      ih hrun hfront (fun x hx => hδ x (List.mem_append_left _ hx)) hv
    rw [lastAdmitted_snoc]
    by_cases hmine : b = true ∧ c.key = key
    · obtain ⟨rfl,rfl⟩ := hmine
      rw [if_pos ⟨rfl,rfl⟩]
      have hclaim : c.timestampMs.toNat ≤ c.nowMs.toNat+δ ∧ c.nowMs.toNat ≤ c.timestampMs.toNat+δ :=
        hδ (c,true) (List.mem_append_right _ (List.mem_singleton_self _)) rfl
      obtain ⟨w',ha,hown⟩ := (admission hstep).own
      rw [hown,Option.some.injEq] at hw
      subst hw
      have hold : (mid.window c.key).lastSeenMs.toNat ≤ c.nowMs.toNat+δ := by
        cases hl : mid.senders.lookup c.key with
        | none => simp [window,hl,SenderWindow.new]
        | some v =>
          obtain ⟨t,ht,hle,-⟩ := hrec v hl
          have hnow := hbefore t ht
          simp only [window,hl,Option.getD_some]
          omega
      obtain ⟨-,hf⟩ | ⟨-,w₁,ha₁,hsame,-⟩ :=
        SenderWindow.admitCounter_total (mid.window c.key) c.counter
      · rw [ha] at hf
        cases hf
      · rw [ha] at ha₁
        cases ha₁
        refine ⟨c.nowMs,rfl,?_⟩
        simp only [max_toNat,hsame]
        omega
    · rw [if_neg hmine]
      by_cases hk : key = c.key
      · have hb : b = false := by
          by_contra hb
          exact hmine ⟨by simpa using hb,hk.symm⟩
        subst hb
        obtain ⟨-,rfl,-⟩ | ⟨hb,-⟩ := step_cases hstep
        · exact hrec w hw
        · cases hb
      · exact hrec w (lookup_step hstep hk hw)

/-- Claims within `δ` of their receipt keep a sender that was silent for `2δ` more than the
freshness window behind every sender that is not idle. -/
theorem oldest_of_claims {δ : ℕ} {calls : List (Check × Bool)} {g : ReplayGuard} {nowMs : UInt64}
    (h : Checked new calls g) (hclock : Clocked calls) (hδ : ClaimsWithin δ calls)
    {key : SenderKey} {t : UInt64} (hk : key ∈ g.senders) (ht : lastAdmitted calls key = some t)
    (hsilent : t.toNat+freshnessWindowMs.toNat+2*δ < nowMs.toNat) : IdleOldest calls nowMs g := by
  intro _
  obtain ⟨w,hw⟩ := Finmap.mem_iff.mp hk
  refine ⟨key,w,hw,⟨t,ht,by omega⟩,fun other v hv hnot => ?_⟩
  obtain ⟨t₁,ht₁,hle,-⟩ := claims_near h hclock hδ hw
  obtain ⟨t₂,ht₂,-,hge⟩ := claims_near h hclock hδ hv
  rw [ht] at ht₁
  cases ht₁
  have hnear : nowMs.toNat ≤ t₂.toNat+freshnessWindowMs.toNat := by
    by_contra hfar
    exact hnot ⟨t₂,ht₂,by omega⟩
  omega

/-- Where the oldest claims are an idle sender's, eviction takes an idle one. -/
theorem idleFirst_of_oldest {calls : List (Check × Bool)} {c : Check} {g g' : ReplayGuard} {b : Bool}
    (hclock : Clocked calls) (h : c.Step g b g') (hold : IdleOldest calls c.nowMs g) :
    IdleFirst calls c g g' := by
  have hidle : (∃ key ∈ g.senders, Idle calls c.nowMs key) →
      ∀ victim ∈ g.senders, victim ∉ g'.senders → Idle calls c.nowMs victim := by
    intro hany victim hin hgone
    obtain ⟨w,hw⟩ := Finmap.mem_iff.mp hin
    obtain ⟨key,v,hv,-,hless⟩ := hold hany
    have hle := evicted_least h hw hgone key v hv
    by_contra hnot
    have hlt := hless victim w hw hnot
    omega
  refine ⟨hidle,fun hany key hin hact => ?_⟩
  by_contra hgone
  exact not_idle_of_active hclock hact (hidle hany key hin hgone)

end ReplayGuard

namespace HashOrder

def first (order : HashOrder) (key : SenderKey) : HashOrder where
  iter t := (order.iter t).filter (fun x => decide (x.1 = key))++
    (order.iter t).filter (fun x => !decide (x.1 = key))
  nodup t := ((List.filter_append_perm _ _).map _).nodup_iff.mpr (order.nodup t)
  mem_iter t k w := by
    rw [(List.filter_append_perm _ _).mem_iff]
    exact order.mem_iter t k w

theorem first_iter {order : HashOrder} {t : SenderTable} {key : SenderKey} {w : SenderWindow}
    (h : t.lookup key = some w) : ∃ rest, (order.first key).iter t = (key,w)::rest := by
  have hmem : (key,w) ∈ (order.iter t).filter (fun x => decide (x.1 = key)) :=
    List.mem_filter.mpr ⟨(order.mem_iter t key w).mpr h,decide_eq_true rfl⟩
  cases hf : (order.iter t).filter (fun x => decide (x.1 = key)) with
  | nil =>
    rw [hf] at hmem
    exact absurd hmem List.not_mem_nil
  | cons x rest =>
    obtain ⟨k,v⟩ := x
    have hx : (k,v) ∈ (order.iter t).filter (fun x => decide (x.1 = key)) := by
      rw [hf]
      exact List.mem_cons_self ..
    obtain ⟨hin,hk⟩ := List.mem_filter.mp hx
    have hkey : k = key := of_decide_eq_true hk
    subst hkey
    have hv := (order.mem_iter t k v).mp hin
    rw [h] at hv
    cases hv
    refine ⟨rest++(order.iter t).filter (fun x => !decide (x.1 = k)),?_⟩
    simp only [first,hf,List.cons_append]

end HashOrder

namespace ReplayGuard

theorem evictIfFull_first {order : HashOrder} {g : ReplayGuard} {key : SenderKey} {w : SenderWindow}
    (hfull : maxTrackedSenders ≤ g.trackedSenders) (hw : g.senders.lookup key = some w)
    (hmin : ∀ k v, g.senders.lookup k = some v → w.lastSeenMs.toNat ≤ v.lastSeenMs.toNat) :
    g.evictIfFull (order.first key) = ⟨g.senders.erase key⟩ := by
  obtain ⟨rest,hiter⟩ : ∃ rest, (order.first key).iter g.senders = (key,w)::rest :=
    HashOrder.first_iter hw
  have hcap : ¬ g.senders.keys.card < maxTrackedSenders := Nat.not_lt.mpr hfull
  have hleast : ((order.first key).iter g.senders).argmin
      (fun entry : SenderKey × SenderWindow => entry.2.lastSeenMs.toNat) = some (key,w) := by
    rw [hiter,List.argmin_cons]
    cases ha : rest.argmin (fun entry : SenderKey × SenderWindow => entry.2.lastSeenMs.toNat) with
    | none => rfl
    | some entry =>
      have hin : entry ∈ (order.first key).iter g.senders := by
        rw [hiter]
        exact List.mem_cons_of_mem _ (List.argmin_mem ha)
      have hle := hmin entry.1 entry.2 (((order.first key).mem_iter _ _ _).mp hin)
      simp only
      rw [if_neg (Nat.not_lt.mpr hle)]
  rw [evictIfFull,if_neg hcap,hleast]

theorem exists_least {g : ReplayGuard} {p : SenderKey → Prop} {key : SenderKey} {w : SenderWindow}
    (hw : g.senders.lookup key = some w) (hp : p key) : ∃ k v, g.senders.lookup k = some v ∧ p k ∧
      ∀ other u, g.senders.lookup other = some u → p other →
        v.lastSeenMs.toNat ≤ u.lastSeenMs.toNat := by
  classical
  have hne : (g.senders.keys.filter p).Nonempty :=
    ⟨key,Finset.mem_filter.mpr ⟨Finmap.mem_keys.mpr (Finmap.mem_of_lookup_eq_some hw),hp⟩⟩
  obtain ⟨k,hk,hmin⟩ := Finset.exists_min_image _ (fun k => (g.window k).lastSeenMs.toNat) hne
  obtain ⟨hin,hpk⟩ := Finset.mem_filter.mp hk
  obtain ⟨v,hv⟩ := Finmap.mem_iff.mp (Finmap.mem_keys.mp hin)
  refine ⟨k,v,hv,hpk,fun other u hu hpo => ?_⟩
  have hle := hmin other
    (Finset.mem_filter.mpr ⟨Finmap.mem_keys.mpr (Finmap.mem_of_lookup_eq_some hu),hpo⟩)
  simpa only [window,hv,hu,Option.getD_some] using hle

/-- Where an idle sender does not hold the least claim, some order of the table evicts a
sender that is not idle. -/
theorem oldest_of_idleFirst {calls : List (Check × Bool)} {c : Check} {g : ReplayGuard}
    (hnew : c.key ∉ g.senders) (hfull : g.trackedSenders = maxTrackedSenders)
    (hfresh : fresh c.timestampMs c.nowMs = true)
    (h : ∀ order g', Check.Step {c with order} g true g' → IdleFirst calls c g g') :
    IdleOldest calls c.nowMs g := by
  rintro ⟨key,hin,hidle⟩
  obtain ⟨w,hw⟩ := Finmap.mem_iff.mp hin
  obtain ⟨k,v,hv,hk,hmin⟩ := exists_least hw hidle
  refine ⟨k,v,hv,hk,fun other u hu hnot => ?_⟩
  by_contra hge
  obtain ⟨o,x,hx,ho,homin⟩ := exists_least (p:=fun key => ¬ Idle calls c.nowMs key) hu hnot
  -- the least claim of the senders that are not idle is the least of all
  have hleast : ∀ key y, g.senders.lookup key = some y →
      x.lastSeenMs.toNat ≤ y.lastSeenMs.toNat := by
    intro key y hy
    by_cases hi : Idle calls c.nowMs key
    · have hvy := hmin key y hy hi
      have hxu := homin other u hu hnot
      omega
    · exact homin key y hy hi
  obtain ⟨w',-,hstep⟩ := admitted_of_untracked (c:={c with order := c.order.first o}) hfresh hnew
  have hevict : g.evictIfFull (c.order.first o) = ⟨g.senders.erase o⟩ :=
    evictIfFull_first hfull.ge hx hleast
  have hfirst := h _ _ hstep
  have hgone : o ∉ ((g.evictIfFull (c.order.first o)).senders.insert c.key w') := by
    rw [hevict]
    intro hm
    rcases Finmap.mem_insert.mp hm with he | hm
    · exact hnew (he ▸ Finmap.mem_of_lookup_eq_some hx)
    · exact (Finmap.mem_erase.mp hm).1 rfl
  exact ho (hfirst.idle ⟨key,hin,hidle⟩ o (Finmap.mem_of_lookup_eq_some hx) hgone)

/-- Idle senders go first exactly where they hold the oldest claims: in every run whose
evictions find it so, each call evicts idle senders first; and in a state that any run reaches,
a new sender at the cap has an idle one evicted whatever the table's order, if and only if it
is so there. It is so where claims keep within `δ` of their receipt and a sender has been
silent for `2δ` beyond the freshness window. -/
theorem idle_senders_first {calls : List (Check × Bool)} {g : ReplayGuard} (h : Checked new calls g)
    (hclock : Clocked calls) :
    ((∀ front x back mid, calls = front++x::back → Checked new front mid →
        x.1.key ∉ mid.senders → mid.trackedSenders = maxTrackedSenders →
        IdleOldest front x.1.nowMs mid) →
      ∀ front c b back mid mid', calls = front++(c,b)::back → Checked new front mid →
        c.Step mid b mid' → IdleFirst front c mid mid') ∧
    (∀ c : Check, c.key ∉ g.senders → g.trackedSenders = maxTrackedSenders →
      fresh c.timestampMs c.nowMs = true →
      ((∀ order g', Check.Step {c with order} g true g' → IdleFirst calls c g g') ↔
        IdleOldest calls c.nowMs g)) ∧
    ∀ δ nowMs key t, ClaimsWithin δ calls → key ∈ g.senders → lastAdmitted calls key = some t →
      t.toNat+freshnessWindowMs.toNat+2*δ < nowMs.toNat → IdleOldest calls nowMs g := by
  refine ⟨fun hold front c b back mid mid' he hrun hstep => ?_,
    fun c hnew hfull hfresh => ⟨oldest_of_idleFirst hnew hfull hfresh,?_⟩,
    fun δ nowMs key t hδ hk ht hsilent => oldest_of_claims h hclock hδ hk ht hsilent⟩
  · have hfront : Clocked front := by
      rw [Clocked,he,List.map_append,List.pairwise_append] at hclock
      exact hclock.1
    by_cases hroom : c.key ∈ mid.senders ∨ mid.trackedSenders < maxTrackedSenders
    · have hkept : ∀ key ∈ mid.senders, key ∈ mid'.senders :=
        fun key hk => tracked_of_room hstep hroom hk
      exact ⟨fun _ key hk hgone => absurd (hkept key hk) hgone,fun _ key hk _ => hkept key hk⟩
    · push Not at hroom
      have hcap := tracked_run hrun (Nat.zero_le _)
      have hfull : mid.trackedSenders = maxTrackedSenders := le_antisymm hcap hroom.2
      exact idleFirst_of_oldest hfront hstep (hold front (c,b) back mid he hrun hroom.1 hfull)
  · intro hold order g' hstep
    obtain ⟨hidle,hactive⟩ := idleFirst_of_oldest hclock hstep hold
    exact ⟨hidle,hactive⟩

/-- Idle senders are evicted first, whatever times the senders claim. -/
def EvictsIdleFirst : Prop :=
  ∀ (calls : List (Check × Bool)) (g g' : ReplayGuard) (c : Check), Checked new calls g →
    Clocked (calls++[(c,true)]) → c.key ∉ g.senders → g.trackedSenders = maxTrackedSenders →
    c.Step g true g' → IdleFirst calls c g g'

/-- The last sender up to the cap claims a time just in the window, received when the others,
which claimed a window ahead, have all gone idle; one more sender arrives with it. -/
def skewedCheck (order : HashOrder) (k : ℕ) : Check :=
  {epochCheck order k with
    timestampMs := if k+1 = maxTrackedSenders then 1700000000001 else 1700000300000
    nowMs := if k+1 < maxTrackedSenders then 1700000000000 else 1700000300001}

theorem skewed_fill (order : HashOrder) : Fills (skewedCheck order) (2^32) where
  fresh i _ := by
    unfold skewedCheck
    simp only
    split_ifs with h₁ h₂
    · omega
    · decide
    · decide
    · decide
  distinct i j hi hj he := epochCheck_key_inj order hi hj he

theorem lastAdmitted_range {f : ℕ → Check} {n : ℕ} (hf : Fills f n) {k i : ℕ} (hk : k ≤ n)
    (hi : i < k) :
    lastAdmitted ((List.range k).map fun i => (f i,true)) (f i).key = some (f i).nowMs := by
  induction k with
  | zero => exact absurd hi (Nat.not_lt_zero i)
  | succ k ih =>
    rw [List.range_succ,List.map_append]
    change lastAdmitted (_++[(f k,true)]) _ = _
    rw [lastAdmitted_snoc]
    by_cases hik : i = k
    · rw [hik,if_pos ⟨rfl,rfl⟩]
    · have hne : ¬ (true = true ∧ (f k).key = (f i).key) := fun he =>
        hik (hf.distinct i k (by omega) (by omega) he.2.symm)
      rw [if_neg hne]
      exact ih (by omega) (by omega)

theorem skewed_clocked (order : HashOrder) (n : ℕ) :
    Clocked ((List.range n).map fun i => (skewedCheck order i,true)) := by
  rw [Clocked,List.map_map,List.pairwise_map]
  refine List.pairwise_lt_range.imp fun {i j} hij => ?_
  simp only [Function.comp_apply,skewedCheck]
  split_ifs with h₁ h₂
  · exact le_rfl
  · decide
  · omega
  · exact le_rfl

/-- The sender admitted in the same millisecond is evicted, and the idle ones stay. -/
theorem skewed_claims_evict_active : ¬ EvictsIdleFirst := by
  intro h
  have hcap : maxTrackedSenders < 2^32 := by decide
  have hone : 1 < maxTrackedSenders := by decide
  have hfill := skewed_fill default
  obtain ⟨g,hrun,hg⟩ := filled_run hfill maxTrackedSenders le_rfl hcap.le
  have hnew := hg.untracked hfill hcap
  have hfull := hg.card hfill hcap.le
  obtain ⟨w,-,hstep⟩ := admitted_of_untracked (hfill.fresh maxTrackedSenders hcap) hnew
  have hclock : Clocked ((List.range maxTrackedSenders).map (fun i => (skewedCheck default i,true))++
      [(skewedCheck default maxTrackedSenders,true)]) := by
    have hsnoc := skewed_clocked default (maxTrackedSenders+1)
    rwa [List.range_succ,List.map_append] at hsnoc
  have hfirst := h _ g _ _ hrun hclock hnew hfull hstep
  have hidle : ∃ key ∈ g.senders, Idle ((List.range maxTrackedSenders).map fun i =>
      (skewedCheck default i,true)) (skewedCheck default maxTrackedSenders).nowMs key := by
    obtain ⟨v,hv,-⟩ := hg.2 0 (by omega)
    have hold := lastAdmitted_range hfill hcap.le (show 0 < maxTrackedSenders by omega)
    exact ⟨_,Finmap.mem_of_lookup_eq_some hv,_,hold,by decide⟩
  obtain ⟨v,hv,hclaim⟩ := hg.2 (maxTrackedSenders-1) (by omega)
  have hactive : Active ((List.range maxTrackedSenders).map fun i => (skewedCheck default i,true))
      (skewedCheck default maxTrackedSenders).nowMs
      (skewedCheck default (maxTrackedSenders-1)).key := by
    refine ⟨(skewedCheck default (maxTrackedSenders-1),true),?_,rfl,rfl,?_⟩
    · exact List.mem_map_of_mem (List.mem_range.mpr (by omega))
    · decide
  have hgone := gone_of_least hstep hnew hfull hv fun k u hu hne => ?_
  · exact hgone (hfirst.active hidle _ (Finmap.mem_of_lookup_eq_some hv) hactive)
  · -- every other sender claims a window ahead of the first clock reading
    have hmem : k ∈ g.senders.keys := Finmap.mem_keys.mpr (Finmap.mem_of_lookup_eq_some hu)
    rw [hg.1] at hmem
    obtain ⟨i,hi,rfl⟩ := Finset.mem_image.mp hmem
    rw [Finset.mem_range] at hi
    obtain ⟨u',hu',hahead⟩ := hg.2 i hi
    rw [hu] at hu'
    cases hu'
    have hi' : i+1 ≠ maxTrackedSenders := by
      intro he
      exact hne (by rw [show maxTrackedSenders-1 = i by omega])
    rw [hclaim,hahead]
    simp only [skewedCheck,hi',if_false,show maxTrackedSenders-1+1 = maxTrackedSenders by omega,
      if_true]
    decide

def lateCheck (order : HashOrder) : Check :=
  {epochCheck order maxTrackedSenders with
    timestampMs := 1700000400000
    nowMs := 1700000400000}

/-- After a flood whose claims were true to the millisecond, it has an idle one evicted. -/
theorem prompt_claims_evict_idle : ∃ (calls : List (Check × Bool)) (g : ReplayGuard) (c : Check),
    Checked new calls g ∧ Clocked calls ∧ g.trackedSenders = maxTrackedSenders ∧
    IdleOldest calls c.nowMs g ∧
    ∀ order g', Check.Step {c with order} g true g' → IdleFirst calls c g g' := by
  have hcap : maxTrackedSenders < 2^32 := by decide
  obtain ⟨g,hrun,hg⟩ := flooded_run default maxTrackedSenders le_rfl
  have hclock : Clocked ((List.range maxTrackedSenders).map fun i => (epochCheck default i,true)) := by
    rw [Clocked,List.map_map,List.pairwise_map]
    exact List.pairwise_of_forall fun _ _ => le_rfl
  have hclaims : ClaimsWithin 1
      ((List.range maxTrackedSenders).map fun i => (epochCheck default i,true)) := by
    intro x hx _
    obtain ⟨i,-,rfl⟩ := List.mem_map.mp hx
    unfold epochCheck
    simp only
    split <;> decide
  obtain ⟨w,hw,-⟩ := hg.2 0 (by decide)
  have hlast := lastAdmitted_range (epochs_fill default) (k:=maxTrackedSenders) hcap.le
    (show 0 < maxTrackedSenders by decide)
  have hfirst := idle_senders_first hrun hclock
  have hold := hfirst.2.2 1 1700000400000 _ _ hclaims (Finmap.mem_of_lookup_eq_some hw) hlast
    (by decide)
  have hstep := (hfirst.2.1 (lateCheck default) (hg.untracked hcap) (hg.card hcap) (by decide)).mpr hold
  exact ⟨_,g,lateCheck default,hrun,hclock,hg.card hcap,hold,hstep⟩

end ReplayGuard
end DigMessage
