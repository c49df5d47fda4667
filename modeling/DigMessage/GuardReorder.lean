import DigMessage.GuardIsolation
import DigMessage.RecipientReplay

/-! The order of arrival. While its senders fit the table, what the guard answers is settled by
what was presented to it before, and what it holds by which messages it let in: neither remembers
in which order they came, at which clock, or what was refused in between. -/
namespace DigMessage
open FixedWidth

/-- Of the presented counters some were taken, and the others are out of reach below these. -/
structure Presents (P S : Finset ℕ) : Prop where
  taken : S ⊆ P
  missed : ∀ n ∈ P, n ∈ S ∨ ∃ m ∈ S, n+replayWindow ≤ m

namespace Presents
variable {P S : Finset ℕ}

theorem admissible (h : Presents P S) (counter : ℕ) : Admissible S counter ↔ Admissible P counter := by
  rw [admissible_iff,admissible_iff]
  constructor
  · intro hS n hn
    rcases h.missed n hn with hn | ⟨m,hm,hle⟩
    · exact hS n hn
    · have hnear := (hS m hm).2
      omega
  · exact fun hP n hn => hP n (h.taken hn)

theorem extend (h : Presents P S) (counter : ℕ) :
    Presents (insert counter P) (if Admissible S counter then insert counter S else S) := by
  split
  · refine ⟨Finset.insert_subset_insert _ h.taken,fun n hn => ?_⟩
    rcases Finset.mem_insert.mp hn with rfl | hn
    · exact Or.inl (Finset.mem_insert_self _ _)
    · rcases h.missed n hn with hn | ⟨m,hm,hle⟩
      · exact Or.inl (Finset.mem_insert_of_mem hn)
      · exact Or.inr ⟨m,Finset.mem_insert_of_mem hm,hle⟩
  · rename_i hnot
    refine ⟨h.taken.trans (Finset.subset_insert _ _),fun n hn => ?_⟩
    rcases Finset.mem_insert.mp hn with rfl | hn
    · rw [admissible_iff] at hnot
      push Not at hnot
      obtain ⟨m,hm,hfar⟩ := hnot
      by_cases he : m = n
      · exact Or.inl (he ▸ hm)
      · exact Or.inr ⟨m,hm,hfar he⟩
    · exact h.missed n hn

end Presents

namespace ReplayGuard

structure Roomy (K : Finset SenderKey) (g : ReplayGuard) : Prop where
  few : K.card ≤ maxTrackedSenders
  known : g.senders.keys ⊆ K

namespace Roomy
variable {K : Finset SenderKey} {g g' : ReplayGuard} {c : Check} {b : Bool}

theorem room (h : Roomy K g) {key : SenderKey} (hk : key ∈ K) :
    key ∈ g.senders ∨ g.trackedSenders < maxTrackedSenders := by
  by_cases hin : key ∈ g.senders
  · exact Or.inl hin
  · have hss : g.senders.keys ⊂ K :=
      Finset.ssubset_iff_subset_ne.mpr ⟨h.known,fun he => hin (Finmap.mem_keys.mp (he ▸ hk))⟩
    exact Or.inr (lt_of_lt_of_le (Finset.card_lt_card hss) h.few)

theorem step (h : Roomy K g) (hs : c.Step g b g') (hc : c.key ∈ K) : Roomy K g' :=
  ⟨h.few,(keys_step hs).trans (Finset.insert_subset hc h.known)⟩

theorem seen_step (h : Roomy K g) (hs : c.Step g b g') (hc : c.key ∈ K) {key : SenderKey}
    {counter : UInt64} (hseen : g.Seen key counter) : g'.Seen key counter := by
  cases b with
  | false =>
    obtain ⟨-,rfl,-⟩ | ⟨hb,-⟩ := step_cases hs
    · exact hseen
    · cases hb
  | true =>
    obtain ⟨⟨w',ha,hown⟩,hothers,-⟩ := admission hs
    obtain ⟨w,hw,hin⟩ := hseen
    by_cases hk : key = c.key
    · subst hk
      rw [window,hw,Option.getD_some] at ha
      obtain ⟨-,hf⟩ | ⟨-,w₁,ha₁,-,-,-,hkept,-⟩ := SenderWindow.admitCounter_total w c.counter
      · rw [ha] at hf
        cases hf
      · rw [ha] at ha₁
        cases ha₁
        exact ⟨_,hown,hkept counter hin⟩
    · exact ⟨w,(hothers (h.room hc) key hk).trans hw,hin⟩

end Roomy

def senderKeys (calls : List (Check × Bool)) : Finset SenderKey := (calls.map fun x => x.1.key).toFinset

theorem new_roomy {calls : List (Check × Bool)} (h : (senderKeys calls).card ≤ maxTrackedSenders) :
    Roomy (senderKeys calls) new := ⟨h,by simp [new]⟩

theorem mem_senderKeys {calls : List (Check × Bool)} {x : Check × Bool} (h : x ∈ calls) :
    x.1.key ∈ senderKeys calls := by
  rw [senderKeys,List.mem_toFinset]
  exact List.mem_map_of_mem h

/-- The counters presented for `key` while fresh. -/
def presented (key : SenderKey) (calls : List (Check × Bool)) : Finset ℕ :=
  ((calls.filter (Check.counted key)).map fun x => x.1.counter.toNat).toFinset

theorem mem_presented {key : SenderKey} {calls : List (Check × Bool)} {n : ℕ} :
    n ∈ presented key calls ↔ ∃ x ∈ calls, x.1.key = key ∧ x.1.Recent ∧ x.1.counter.toNat = n := by
  simp only [presented,List.mem_toFinset,List.mem_map,List.mem_filter,Check.counted,decide_eq_true_eq]
  constructor
  · rintro ⟨x,⟨hx,hk,hr⟩,hn⟩
    exact ⟨x,hx,hk,hr,hn⟩
  · rintro ⟨x,hx,hk,hr,hn⟩
    exact ⟨x,⟨hx,hk,hr⟩,hn⟩

theorem presented_cons (key : SenderKey) (c : Check) (b : Bool) (calls : List (Check × Bool)) :
    presented key ((c,b)::calls) =
      if c.key = key ∧ c.Recent then insert c.counter.toNat (presented key calls)
      else presented key calls := by
  by_cases h : c.key = key ∧ c.Recent <;> simp [presented,Check.counted,h]

/-- A run takes a window from what it took before to what it took of all that was presented. -/
theorem run_presents {g g' : ReplayGuard} {calls : List (Check × Bool)} {key : SenderKey}
    {K : Finset SenderKey} {P S : Finset ℕ} (h : Checked g calls g') (hg : Roomy K g)
    (hcalls : ∀ x ∈ calls, x.1.key ∈ K) (ht : (g.window key).Tracks S) (hp : Presents P S) :
    Roomy K g' ∧ ∃ S', (g'.window key).Tracks S' ∧ Presents (P ∪ presented key calls) S' := by
  induction h generalizing P S with
  | nil g =>
    refine ⟨hg,S,ht,?_⟩
    simpa [presented] using hp
  | @cons g g₁ g₂ c b calls hstep hrun ih =>
    have hc : c.key ∈ K := hcalls (c,b) List.mem_cons_self
    have hrest : ∀ x ∈ calls, x.1.key ∈ K := fun x hx => hcalls x (List.mem_cons_of_mem _ hx)
    obtain ⟨hown,hother,-⟩ := step_tracks hstep (hg.room hc) ht
    rw [presented_cons]
    by_cases hmine : c.key = key ∧ c.Recent
    · rw [if_pos hmine,Finset.union_insert,← Finset.insert_union]
      exact ih (hg.step hstep hc) hrest (hown hmine.1 hmine.2).2 (hp.extend _)
    · rw [if_neg hmine]
      exact ih (hg.step hstep hc) hrest (hother hmine) hp

theorem admissible_presented (key : SenderKey) (calls : List (Check × Bool)) (c : Check) :
    Admissible (presented key calls) c.counter.toNat ↔ ∀ x ∈ calls, x.1.key = key → x.1.Recent →
      x.1.counter ≠ c.counter ∧ x.1.counter.toNat < c.counter.toNat+replayWindow := by
  rw [admissible_iff]
  constructor
  · intro h x hx hk hr
    obtain ⟨hne,hlt⟩ := h _ (mem_presented.mpr ⟨x,hx,hk,hr,rfl⟩)
    exact ⟨fun he => hne (congrArg UInt64.toNat he),hlt⟩
  · intro h n hn
    obtain ⟨x,hx,hk,hr,rfl⟩ := mem_presented.mp hn
    obtain ⟨hne,hlt⟩ := h x hx hk hr
    exact ⟨fun he => hne (UInt64.toNat_inj.mp he),hlt⟩

theorem answer_iff {before : List (Check × Bool)} {g g' : ReplayGuard} {c : Check} {b : Bool}
    {K : Finset SenderKey} (h : Checked new before g) (hs : c.Step g b g') (hnew : Roomy K new)
    (hcalls : ∀ x ∈ before, x.1.key ∈ K) (hc : c.key ∈ K) :
    b = true ↔ c.Recent ∧ ∀ x ∈ before, x.1.key = c.key → x.1.Recent →
      x.1.counter ≠ c.counter ∧ x.1.counter.toNat < c.counter.toNat+replayWindow := by
  have ht : (new.window c.key).Tracks ∅ := SenderWindow.new_tracks
  have hp : Presents ∅ ∅ := ⟨subset_rfl,fun n hn => absurd hn (Finset.notMem_empty n)⟩
  obtain ⟨hroom,S,htrack,hpresent⟩ := run_presents h hnew hcalls ht hp
  obtain ⟨hown,-,hstale⟩ := step_tracks hs (hroom.room hc) htrack
  rw [Finset.empty_union] at hpresent
  rw [← admissible_presented,← hpresent.admissible]
  by_cases hr : c.Recent
  · rw [(hown rfl hr).1,decide_eq_true_iff]
    exact ⟨fun ha => ⟨hr,ha⟩,And.right⟩
  · rw [hstale hr]
    simp [hr]

/-- While the senders fit the table, a fresh message is refused exactly where its counter, or one a
whole window above it, was presented before by the same sender: whatever was answered then, and
whatever the others did. -/
theorem answered_by_presented {calls : List (Check × Bool)} {g : ReplayGuard} (h : Checked new calls g)
    (hfew : (senderKeys calls).card ≤ maxTrackedSenders) {before after : List (Check × Bool)} {c : Check}
    {b : Bool} (hsplit : calls = before++(c,b)::after) :
    b = true ↔ c.Recent ∧ ∀ x ∈ before, x.1.key = c.key → x.1.Recent →
      x.1.counter ≠ c.counter ∧ x.1.counter.toNat < c.counter.toNat+replayWindow := by
  have hkeys : ∀ x ∈ calls, x.1.key ∈ senderKeys calls := fun x hx => mem_senderKeys hx
  rw [hsplit] at h
  obtain ⟨mid,hbefore,hrest⟩ := checked_append.mp h
  cases hrest with
  | cons hs _ =>
    refine answer_iff hbefore hs (new_roomy hfew) (fun x hx => hkeys x ?_) (hkeys (c,b) ?_)
    · rw [hsplit]
      exact List.mem_append_left _ hx
    · rw [hsplit]
      exact List.mem_append_right _ List.mem_cons_self

def numbered (order : HashOrder) (k : UInt64) : Check := {epochCheck order 1 with counter := k}

/-- A counter is refused below one that a whole window separates from it, and on its return. -/
theorem overtaken_refused : ∃ (calls : List (Check × Bool)) (g : ReplayGuard), Checked new calls g ∧
    calls.map (fun x => x.1.counter) = [1029,5,6,6] ∧ calls.map Prod.snd = [true,false,true,false] := by
  obtain ⟨calls,g,h,hmap⟩ := checked_total ([1029,5,6,6].map (numbered default)) new
  obtain ⟨⟨c₀,b₀⟩,_,rfl,h₀,hrest₀⟩ := List.map_eq_cons_iff.mp hmap
  obtain ⟨⟨c₁,b₁⟩,_,rfl,h₁,hrest₁⟩ := List.map_eq_cons_iff.mp hrest₀
  obtain ⟨⟨c₂,b₂⟩,_,rfl,h₂,hrest₂⟩ := List.map_eq_cons_iff.mp hrest₁
  obtain ⟨⟨c₃,b₃⟩,_,rfl,h₃,hrest₃⟩ := List.map_eq_cons_iff.mp hrest₂
  obtain rfl := List.map_eq_nil_iff.mp hrest₃
  simp only at h₀ h₁ h₂ h₃
  have hfew : (senderKeys [(c₀,b₀),(c₁,b₁),(c₂,b₂),(c₃,b₃)]).card ≤ maxTrackedSenders :=
    (List.toFinset_card_le _).trans (show 4 ≤ maxTrackedSenders by decide)
  subst h₀ h₁ h₂ h₃
  obtain rfl : b₀ = true := (answered_by_presented h hfew (List.nil_append _).symm).mpr (by decide)
  obtain rfl : b₁ = false := by
    rw [Bool.eq_false_iff,ne_eq,answered_by_presented h hfew (List.singleton_append).symm]
    decide
  obtain rfl : b₂ = true := (answered_by_presented h hfew
    (show _ = [(_,true),(_,false)]++(_,b₂)::_ from rfl)).mpr (by decide)
  obtain rfl : b₃ = false := by
    rw [Bool.eq_false_iff,ne_eq,answered_by_presented h hfew
      (show _ = [(_,true),(_,false),(_,true)]++(_,b₃)::_ from rfl)]
    decide
  exact ⟨_,g,h,rfl,rfl⟩

/-- In whatever order the messages of a run arrive, where none is overtaken by one a whole window
above it and none comes twice, they are all let in. -/
theorem all_admitted {K : Finset SenderKey} {checks : List Check} (hnew : Roomy K new)
    (hkeys : ∀ c ∈ checks, c.key ∈ K) (hfresh : ∀ c ∈ checks, c.Recent)
    (horder : checks.Pairwise fun c d => c.key = d.key →
      c.counter ≠ d.counter ∧ c.counter.toNat < d.counter.toNat+replayWindow) :
    ∃ g, Checked new (checks.map fun c => (c,true)) g := by
  induction checks using List.reverseRecOn with
  | nil => exact ⟨new,.nil new⟩
  | append_singleton checks c ih =>
    rw [List.pairwise_append] at horder
    obtain ⟨hbefore,-,hlast⟩ := horder
    obtain ⟨g,hrun⟩ := ih (fun d hd => hkeys d (List.mem_append_left _ hd))
      (fun d hd => hfresh d (List.mem_append_left _ hd)) hbefore
    have hmem : c ∈ checks++[c] := List.mem_append_right _ List.mem_cons_self
    obtain ⟨b,g',hstep⟩ := step_total c g
    have hin : ∀ x ∈ checks.map (fun d => (d,true)), ∃ d ∈ checks, (d,true) = x :=
      fun x hx => List.mem_map.mp hx
    have hanswer := answer_iff hrun hstep hnew (fun x hx => by
      obtain ⟨d,hd,rfl⟩ := hin x hx
      exact hkeys d (List.mem_append_left _ hd)) (hkeys c hmem)
    have hb : b = true := by
      refine hanswer.mpr ⟨hfresh c hmem,fun x hx hk _ => ?_⟩
      obtain ⟨d,hd,rfl⟩ := hin x hx
      exact hlast d hd c List.mem_cons_self hk
    rw [hb] at hstep
    refine ⟨g',?_⟩
    rw [List.map_append]
    exact checked_append.mpr ⟨g,hrun,.cons hstep (.nil g')⟩

end ReplayGuard

/-- What the table keeps of a message it let in. -/
structure Receipt where
  key : SenderKey
  counter : UInt64
  timestampMs : UInt64
  deriving DecidableEq

def Check.receipt (c : Check) : Receipt := ⟨c.key,c.counter,c.timestampMs⟩

namespace ReplayGuard

/-- The receipts of the messages a run let in. -/
def receipts (calls : List (Check × Bool)) : Finset Receipt :=
  ((calls.filter Prod.snd).map fun x => x.1.receipt).toFinset

theorem receipts_cons (c : Check) (b : Bool) (calls : List (Check × Bool)) :
    receipts ((c,b)::calls) = if b then insert c.receipt (receipts calls) else receipts calls := by
  cases b <;> simp [receipts]

def countersOf (key : SenderKey) (R : Finset Receipt) : Finset ℕ :=
  (R.filter fun r => r.key = key).image fun r => r.counter.toNat

def latestOf (key : SenderKey) (R : Finset Receipt) : ℕ :=
  (R.filter fun r => r.key = key).sup fun r => r.timestampMs.toNat

theorem countersOf_insert (key : SenderKey) (r : Receipt) (R : Finset Receipt) :
    countersOf key (insert r R) =
      if r.key = key then insert r.counter.toNat (countersOf key R) else countersOf key R := by
  by_cases h : r.key = key <;> simp [countersOf,Finset.filter_insert,h]

theorem latestOf_insert (key : SenderKey) (r : Receipt) (R : Finset Receipt) :
    latestOf key (insert r R) =
      if r.key = key then max r.timestampMs.toNat (latestOf key R) else latestOf key R := by
  by_cases h : r.key = key <;> simp [latestOf,Finset.filter_insert,h]

/-- The table is the one these receipts account for. -/
structure Shows (g : ReplayGuard) (R : Finset Receipt) : Prop where
  tracked : ∀ key, key ∈ g.senders ↔ ∃ r ∈ R, r.key = key
  windows : ∀ key, (g.window key).Tracks (countersOf key R)
  lastSeen : ∀ key, (g.window key).lastSeenMs.toNat = latestOf key R

theorem new_shows : Shows new ∅ where
  tracked key := by
    have hnone : key ∉ (∅ : SenderTable) := Finmap.notMem_empty
    simpa [new] using hnone
  windows key := SenderWindow.new_tracks
  lastSeen key := rfl

theorem Shows.step {g g' : ReplayGuard} {R : Finset Receipt} {c : Check} {b : Bool} (h : Shows g R)
    (hs : c.Step g b g') (hroom : c.key ∈ g.senders ∨ g.trackedSenders < maxTrackedSenders) :
    Shows g' (if b then insert c.receipt R else R) := by
  cases b with
  | false =>
    obtain ⟨-,rfl,-⟩ | ⟨hb,-⟩ := step_cases hs
    · exact h
    · cases hb
  | true =>
    rw [if_pos rfl]
    obtain ⟨⟨w',ha,hown⟩,hothers,-⟩ := admission hs
    have hsame := hothers hroom
    have hwin : g'.window c.key = {w' with lastSeenMs := max w'.lastSeenMs c.timestampMs} := by
      rw [window,hown,Option.getD_some]
    have hkeep : ∀ key, key ≠ c.key → g'.window key = g.window key := by
      intro key hk
      rw [window,hsame key hk,window]
    refine ⟨fun key => ?_,fun key => ?_,fun key => ?_⟩
    · rw [Finset.exists_mem_insert,← h.tracked]
      by_cases hk : key = c.key
      · subst hk
        exact ⟨fun _ => Or.inl rfl,fun _ => Finmap.mem_of_lookup_eq_some hown⟩
      · rw [Finmap.mem_iff,Finmap.mem_iff,hsame key hk]
        exact ⟨Or.inr,fun hr => hr.resolve_left fun he => hk he.symm⟩
    · rw [countersOf_insert]
      split
      · rename_i hk
        subst hk
        obtain ⟨w₁,ha₁,htrack,-⟩ := SenderWindow.admitCounter_tracks (h.windows c.key) c.counter
        rw [ha,Option.some.injEq,Prod.mk.injEq] at ha₁
        obtain ⟨hans,rfl⟩ := ha₁
        rw [if_pos (of_decide_eq_true hans.symm)] at htrack
        change (g'.window c.key).Tracks _
        rw [hwin]
        exact htrack.touch _
      · rename_i hk
        rw [hkeep key fun he => hk he.symm]
        exact h.windows key
    · rw [latestOf_insert]
      split
      · rename_i hk
        subst hk
        obtain ⟨-,hf⟩ | ⟨-,w₁,ha₁,hlast,-⟩ :=
          SenderWindow.admitCounter_total (g.window c.key) c.counter
        · rw [ha] at hf
          cases hf
        · rw [ha] at ha₁
          cases ha₁
          change (g'.window c.key).lastSeenMs.toNat = _
          rw [hwin,max_toNat,hlast,Nat.max_comm]
          congr 1
          exact h.lastSeen c.key
      · rename_i hk
        rw [hkeep key fun he => hk he.symm]
        exact h.lastSeen key

theorem run_shows {g g' : ReplayGuard} {calls : List (Check × Bool)} {K : Finset SenderKey}
    {R : Finset Receipt} (h : Checked g calls g') (hg : Roomy K g) (hcalls : ∀ x ∈ calls, x.1.key ∈ K)
    (hR : Shows g R) : Shows g' (R ∪ receipts calls) := by
  induction h generalizing R with
  | nil g => simpa [receipts] using hR
  | @cons g g₁ g₂ c b calls hstep hrun ih =>
    have hc : c.key ∈ K := hcalls (c,b) List.mem_cons_self
    have hnext := ih (hg.step hstep hc) (fun x hx => hcalls x (List.mem_cons_of_mem _ hx))
      (hR.step hstep (hg.room hc))
    rw [receipts_cons]
    cases b with
    | false => exact hnext
    | true =>
      rw [if_pos rfl] at hnext ⊢
      rwa [Finset.union_insert,← Finset.insert_union]

end ReplayGuard

theorem Bitmap.ext_bit {xs ys : Bitmap} (h : ∀ i < replayWindow, xs.bit i = ys.bit i) : xs = ys := by
  apply Vector.ext
  intro j hj
  apply BitVec.eq_of_getLsbD_eq
  intro k hk
  have hwords : windowWords*64 = replayWindow := by decide
  have hdiv : (64*j+k)/64 = j := by omega
  have hmod : (64*j+k) % 64 = k := by omega
  have hsame := h (64*j+k) (by omega)
  rw [Bitmap.bit_of_word _ _ (by omega),Bitmap.bit_of_word _ _ (by omega)] at hsame
  simpa only [hdiv,hmod] using hsame

theorem SenderWindow.Tracks.unique {S : Finset ℕ} {w w' : SenderWindow} (h : w.Tracks S)
    (h' : w'.Tracks S) (hseen : w.lastSeenMs = w'.lastSeenMs) : w = w' := by
  have hhighest : w.highest = w'.highest := UInt64.toNat_inj.mp (h.highest.trans h'.highest.symm)
  have hstarted : w.started = w'.started := Bool.eq_iff_iff.mpr (h.started.trans h'.started.symm)
  have hbits : w.bits = w'.bits := by
    refine Bitmap.ext_bit fun i hi => Bool.eq_iff_iff.mpr ?_
    rw [h.bit i hi,h'.bit i hi,hhighest]
  cases w
  cases w'
  simp_all

namespace ReplayGuard

theorem Shows.unique {g g' : ReplayGuard} {R : Finset Receipt} (h : Shows g R) (h' : Shows g' R) :
    g = g' := by
  have hwin : ∀ key, g.window key = g'.window key := fun key => (h.windows key).unique (h'.windows key)
    (UInt64.toNat_inj.mp ((h.lastSeen key).trans (h'.lastSeen key).symm))
  have hsenders : g.senders = g'.senders := by
    apply Finmap.ext_lookup
    intro key
    have hkey : key ∈ g.senders ↔ key ∈ g'.senders := (h.tracked key).trans (h'.tracked key).symm
    have hsame := hwin key
    cases hl : g.senders.lookup key with
    | none =>
      have hno := hkey.not.mp (Finmap.lookup_eq_none.mp hl)
      rw [Finmap.lookup_eq_none.mpr hno]
    | some w =>
      obtain ⟨w',hl'⟩ := Finmap.mem_iff.mp (hkey.mp (Finmap.mem_of_lookup_eq_some hl))
      rw [window,window,hl,hl'] at hsame
      rw [hl',← show w = w' from hsame]
  cases g
  cases g'
  exact congrArg ReplayGuard.mk hsenders

/-- While the senders fit the table, two runs that let in the same messages, in any order, at any
clocks and with any refusals in between, leave the very same table. -/
theorem same_receipts_same_table {calls calls' : List (Check × Bool)} {g g' : ReplayGuard}
    (h : Checked new calls g) (h' : Checked new calls' g')
    (hfew : (senderKeys calls).card ≤ maxTrackedSenders)
    (hfew' : (senderKeys calls').card ≤ maxTrackedSenders) (hsame : receipts calls = receipts calls') :
    g = g' := by
  have hshows := run_shows h (new_roomy hfew) (fun x hx => mem_senderKeys hx) new_shows
  have hshows' := run_shows h' (new_roomy hfew') (fun x hx => mem_senderKeys hx) new_shows
  rw [Finset.empty_union] at hshows hshows'
  rw [hsame] at hshows
  exact hshows.unique hshows'

/-- Three messages in order, and with the last one first. -/
theorem swapped_same_table : ∃ g,
    Checked new ([0,1,2].map fun k => (numbered default k,true)) g ∧
    Checked new ([2,0,1].map fun k => (numbered default k,true)) g := by
  have hone : Roomy {(numbered default 0).key} new := ⟨by decide,by simp [new]⟩
  obtain ⟨g,h⟩ := all_admitted hone (show ∀ c ∈ [0,1,2].map (numbered default), c.key ∈ _ by decide)
    (by decide) (by decide)
  obtain ⟨g',h'⟩ := all_admitted hone (show ∀ c ∈ [2,0,1].map (numbered default), c.key ∈ _ by decide)
    (by decide) (by decide)
  have hfew (calls : List (Check × Bool)) (hlen : calls.length = 3) :
      (senderKeys calls).card ≤ maxTrackedSenders := by
    have hcard := List.toFinset_card_le (calls.map fun x => x.1.key)
    rw [List.length_map,hlen] at hcard
    exact hcard.trans (by decide)
  have hsame := same_receipts_same_table h h' (hfew _ rfl) (hfew _ rfl) (by decide)
  exact ⟨g,h,hsame ▸ h'⟩

end ReplayGuard
end DigMessage
