import DigMessage.StreamPair

/-! In-order delivery on one stream. A side is established at most once, so its sequence
numbers belong to one session, and what is reported is what was sent, from the start. -/
namespace DigMessage
open FixedWidth

section observers
variable (x : Side) (ls : List Label) (l : Label)

@[simp] theorem dataSent_snoc : dataSent x (ls++[l]) = dataSent x ls++(Label.dataSent x l).toList :=
  Lists.filterMap_snoc _ ls l

@[simp] theorem dataReported_snoc :
    dataReported x (ls++[l]) = dataReported x ls++(Label.dataReported x l).toList :=
  Lists.filterMap_snoc _ ls l

@[simp] theorem dataOpened_snoc :
    dataOpened x (ls++[l]) = dataOpened x ls++(Label.dataOpened x l).toList :=
  Lists.filterMap_snoc _ ls l

theorem establishments_snoc : establishments x (ls++[l]) =
    establishments x ls+(if Label.acks x l || Label.acked x l then 1 else 0) := by
  have hne : ¬ (Label.acks x l = true ∧ Label.acked x l = true) := by
    cases l <;> simp [Label.acks,Label.acked]
  unfold establishments acks acked
  rw [List.countP_append,List.countP_append]
  cases h₁ : Label.acks x l <;> cases h₂ : Label.acked x l <;> simp_all <;> omega

theorem opened_snoc : opened ls ≤ opened (ls++[l]) := by
  unfold opened opens
  rw [List.countP_append,List.countP_append]
  omega

end observers

namespace StreamPair

/-- What the slot of a side says of the data it has sent, opened and reported. -/
structure SlotSound (x : Side) (ls : List Label) (slot : Option StreamSession) : Prop where
  quiet : establishments x ls = 0 → dataSent x ls = [] ∧ dataOpened x ls = [] ∧ dataReported x ls = []
  established : ∀ s, slot = some s → s.handshake = .established → 1 ≤ establishments x ls ∧
    (∀ d ∈ dataSent x ls, d.1 < s.sendSeq.toNat) ∧ (dataReported x ls).length = s.recvSeq.toNat ∧
    dataOpened x ls = dataReported x ls
  opening : ∀ s, slot = some s → s.handshake = .opening → s.sendSeq = 0 ∧ s.recvSeq = 0
  increasing : (dataSent x ls).Pairwise fun a b => a.1 < b.1

theorem SlotSound.frame {x : Side} {ls : List Label} {slot : Option StreamSession} {l : Label}
    (h : SlotSound x ls slot) (hs : Label.dataSent x l = none) (hr : Label.dataReported x l = none)
    (ho : Label.dataOpened x l = none) (ha : Label.acks x l = false) (hd : Label.acked x l = false) :
    SlotSound x (ls++[l]) slot := by
  have he : establishments x (ls++[l]) = establishments x ls := by
    simp [establishments_snoc,ha,hd]
  constructor
  · simpa [he,hs,hr,ho] using h.quiet
  · simpa [he,hs,hr,ho] using h.established
  · exact h.opening
  · simpa [hs] using h.increasing

theorem SlotSound.clear {x : Side} {ls : List Label} {slot : Option StreamSession}
    (h : SlotSound x ls slot) : SlotSound x ls none where
  quiet := h.quiet
  established s hs := by cases hs
  opening s hs := by cases hs
  increasing := h.increasing

theorem SlotSound.settle {x : Side} {ls : List Label} {s : StreamSession}
    (h : SlotSound x ls (some s)) : SlotSound x ls s.settle := by
  unfold StreamSession.settle
  split
  · exact h.clear
  · exact h

/-- A request that neither sends data nor establishes keeps the account, for the session
it moves to. -/
theorem SlotSound.keep {x : Side} {ls : List Label} {s s' : StreamSession} {l : Label}
    (h : SlotSound x ls (some s)) (hs : Label.dataSent x l = none)
    (hr : Label.dataReported x l = none) (ho : Label.dataOpened x l = none)
    (ha : Label.acks x l = false) (hd : Label.acked x l = false)
    (hh : s'.handshake = s.handshake) (hsend : s'.sendSeq = s.sendSeq)
    (hrecv : s'.recvSeq = s.recvSeq) : SlotSound x (ls++[l]) (some s') := by
  have h₁ := h.frame hs hr ho ha hd
  refine ⟨h₁.quiet,?_,?_,h₁.increasing⟩
  · intro t ht he
    cases ht
    rw [hsend,hrecv]
    exact h₁.established s rfl (hh ▸ he)
  · intro t ht he
    cases ht
    rw [hsend,hrecv]
    exact h₁.opening s rfl (hh ▸ he)

theorem SlotSound.establish {x : Side} {ls : List Label} {s s' : StreamSession} {l : Label}
    (h : SlotSound x ls (some s)) (hopening : s.handshake = .opening)
    (hest : (Label.acks x l || Label.acked x l) = true) (hs : Label.dataSent x l = none)
    (hr : Label.dataReported x l = none) (ho : Label.dataOpened x l = none)
    (honce : establishments x (ls++[l]) ≤ 1) (hrecv : s'.recvSeq = s.recvSeq)
    (hh : s'.handshake = .established) :
    SlotSound x (ls++[l]) (some s') := by
  rw [establishments_snoc,hest,if_pos rfl] at honce
  obtain ⟨hq₁,hq₂,hq₃⟩ := h.quiet (by omega)
  obtain ⟨hz₁,hz₂⟩ := h.opening s rfl hopening
  have he : establishments x (ls++[l]) = establishments x ls+1 := by
    rw [establishments_snoc,hest,if_pos rfl]
  refine ⟨?_,?_,?_,?_⟩
  · rw [he]
    exact fun h₀ => absurd h₀ (Nat.succ_ne_zero _)
  · intro t ht _
    cases ht
    rw [he,hrecv,hz₂]
    simp [hs,hr,ho,hq₁,hq₂,hq₃]
  · intro t ht he'
    cases ht
    rw [hh] at he'
    cases he'
  · simp [hs,hq₁]

theorem SlotSound.begin {x : Side} {ls : List Label} {s : StreamSession} {l : Label}
    (h : SlotSound x ls none) (hs : Label.dataSent x l = none) (hr : Label.dataReported x l = none)
    (ho : Label.dataOpened x l = none) (ha : Label.acks x l = false) (hd : Label.acked x l = false)
    (hh : s.handshake = .opening) (hsend : s.sendSeq = 0) (hrecv : s.recvSeq = 0) :
    SlotSound x (ls++[l]) (some s) := by
  have h₁ := h.frame hs hr ho ha hd
  refine ⟨h₁.quiet,?_,?_,h₁.increasing⟩
  · intro t ht he
    cases ht
    rw [hh] at he
    cases he
  · intro t ht _
    cases ht
    exact ⟨hsend,hrecv⟩

/-- The account of a sender, for the session its request moved to. `l` is the label of the
request, whether or not its frame was sealed. -/
theorem SlotSound.send {x : Side} {ls : List Label} {s s' : StreamSession} {r : Request} {l : Label}
    (h : SlotSound x ls (some s)) (hsend : s.Send r s')
    (hs : Label.dataSent x l = none ∨
      ∃ payload, r = .sendData payload ∧ Label.dataSent x l = some (s.sendSeq.toNat,payload))
    (hr : Label.dataReported x l = none) (ho : Label.dataOpened x l = none)
    (ha : Label.acks x l = decide (r.kind = .openAck)) (hd : Label.acked x l = false)
    (honce : establishments x (ls++[l]) ≤ 1) : SlotSound x (ls++[l]) (some s') := by
  have hquiet : (∀ payload, r ≠ .sendData payload) → Label.dataSent x l = none := by
    intro hother
    rcases hs with hs | ⟨payload,hpayload,-⟩
    · exact hs
    · exact absurd hpayload (hother payload)
  cases hsend with
  | openAck w hrole hh =>
    exact h.establish hh (by simp [ha,Request.kind]) (hquiet (by simp)) hr ho honce rfl rfl
  | sendData payload next hh hl hc hn =>
    obtain ⟨h₁,h₂,h₃,h₄⟩ := h.established s rfl hh
    have hle : ∀ d ∈ dataSent x (ls++[l]), d.1 < next.toNat := by
      intro d hd'
      rw [dataSent_snoc,List.mem_append] at hd'
      rcases hd' with hd' | hd'
      · have := h₂ d hd'
        omega
      · rcases hs with hs | ⟨payload',-,hs⟩
        · simp [hs] at hd'
        · simp only [hs,Option.toList_some,List.mem_singleton] at hd'
          rw [hd']
          simp only
          omega
    have he : establishments x (ls++[l]) = establishments x ls := by
      simp [establishments_snoc,ha,hd,Request.kind]
    refine ⟨?_,?_,?_,?_⟩
    · rw [he]
      exact fun h₀ => by omega
    · intro t ht _
      cases ht
      rw [he]
      exact ⟨h₁,hle,by simpa [hr] using h₃,by simpa [hr,ho] using h₄⟩
    · intro t ht he'
      cases ht
      simp only at he'
      rw [hh] at he'
      cases he'
    · rw [dataSent_snoc,List.pairwise_append]
      refine ⟨h.increasing,?_,?_⟩
      · rcases hs with hs | ⟨payload',-,hs⟩ <;> simp [hs]
      · intro a ha' b hb
        rcases hs with hs | ⟨payload',-,hs⟩
        · simp [hs] at hb
        · simp only [hs,Option.toList_some,List.mem_singleton] at hb
          rw [hb]
          exact h₂ a ha'
  | grantCredit n hh =>
    exact h.keep (hquiet (by simp)) hr ho (by simp [ha,Request.kind]) hd rfl rfl rfl
  | close hl =>
    exact h.keep (hquiet (by simp)) hr ho (by simp [ha,Request.kind]) hd rfl rfl rfl
  | reset =>
    exact h.keep (hquiet (by simp)) hr ho (by simp [ha,Request.kind]) hd rfl rfl rfl

theorem settle_cases (r : Request) (s : StreamSession) : r.settle s = some s ∨ r.settle s = none := by
  cases r with
  | close =>
    simp only [Request.settle,StreamSession.settle]
    split
    · exact Or.inr rfl
    · exact Or.inl rfl
  | reset => exact Or.inr rfl
  | «open» w => exact Or.inl rfl
  | openAck w => exact Or.inl rfl
  | sendData payload => exact Or.inl rfl
  | grantCredit n => exact Or.inl rfl

theorem SlotSound.sent {x : Side} {ls : List Label} {slot after failed : Option StreamSession}
    {r : Request} {f : Frame} (h : SlotSound x ls slot) (hsend : Sends slot r f.header after failed)
    (honce : establishments x (ls++[.sent x r f]) ≤ 1) :
    SlotSound x (ls++[.sent x r f]) after := by
  generalize hhdr : f.header = hdr at hsend
  cases hsend with
  | «open» w => exact h.begin rfl rfl rfl (by simp [Label.acks,Request.kind]) rfl rfl rfl rfl
  | @live s s' _ hs =>
    have hnext : SlotSound x (ls++[.sent x r f]) (some s') := by
      refine h.send hs ?_ rfl rfl (by simp [Label.acks]) rfl honce
      cases hs with
      | sendData payload next =>
        refine Or.inr ⟨payload,rfl,?_⟩
        simp only [Label.dataSent,if_true]
        rw [hhdr]
        rfl
      | openAck w => exact Or.inl rfl
      | grantCredit n => exact Or.inl rfl
      | close => exact Or.inl rfl
      | reset => exact Or.inl rfl
    rcases settle_cases r s' with hk | hk
    · rw [hk]
      exact hnext
    · rw [hk]
      exact hnext.clear

theorem SlotSound.failed {x : Side} {ls : List Label} {slot after failed : Option StreamSession}
    {r : Request} {hdr : StreamHeader} (h : SlotSound x ls slot) (hsend : Sends slot r hdr after failed)
    (honce : establishments x (ls++[.failed x r]) ≤ 1) :
    SlotSound x (ls++[.failed x r]) failed := by
  cases hsend with
  | «open» w => exact h.begin rfl rfl rfl (by simp [Label.acks,Request.kind]) rfl rfl rfl rfl
  | live hs => exact h.send hs (Or.inl rfl) rfl rfl (by simp [Label.acks]) rfl honce

/-- A frame that leaves the slot empty keeps the account: data is only lost with the
session it was taken on. -/
theorem SlotSound.drop {x : Side} {ls : List Label} {slot : Option StreamSession} {f : Frame}
    {reaction : Reaction} (h : SlotSound x ls slot)
    (hr : Label.dataReported x (.received x slot f reaction) = none)
    (hd : Label.acked x (.received x slot f reaction) = false) :
    SlotSound x (ls++[.received x slot f reaction]) none := by
  have he : establishments x (ls++[.received x slot f reaction]) = establishments x ls := by
    rw [establishments_snoc,hd]
    simp [Label.acks]
  refine ⟨?_,by rintro _ ⟨⟩,by rintro _ ⟨⟩,?_⟩
  · rw [he]
    intro h₀
    obtain ⟨hq₁,hq₂,hq₃⟩ := h.quiet h₀
    have ho : Label.dataOpened x (.received x slot f reaction) = none := by
      cases slot with
      | none => rfl
      | some s =>
        by_cases hh : s.handshake = .established
        · have := (h.established s rfl hh).1
          omega
        · simp [Label.dataOpened,hh]
    exact ⟨by simp [hq₁,Label.dataSent],by simp [hq₂,ho],by simp [hq₃,hr]⟩
  · simpa [Label.dataSent] using h.increasing

theorem SlotSound.received {x : Side} {ls : List Label} {slot slot' : Option StreamSession}
    {full : Bool} {f : Frame} {reaction : Reaction} (h : SlotSound x ls slot)
    (hrecv : Receives slot full f.header f.payload f.kind reaction slot')
    (honce : establishments x (ls++[.received x slot f reaction]) ≤ 1) :
    SlotSound x (ls++[.received x slot f reaction]) slot' := by
  generalize hkind : f.kind = kind at hrecv
  cases hrecv with
  | peerReset hs => exact h.drop rfl (by simp [Label.acked])
  | strayReset cause hs => exact h.drop rfl (by simp [Label.acked])
  | reopened cause hs => exact h.drop rfl (by simp [Label.acked])
  | refused cause hs hf => exact h.drop rfl (by simp [Label.acked])
  | stray cause hs hf ho => exact h.drop rfl (by simp [Label.acked])
  | violated cause hs hf ho hn => exact h.drop rfl (by simp [Label.acked])
  | opened hs hf =>
    subst hs
    exact h.begin rfl rfl rfl rfl (by simp [Label.acked]) rfl rfl rfl
  | @accepted s s' _ _ hs hf hreset hrecv =>
    subst hs
    apply SlotSound.settle
    cases hrecv with
    | openAck hrole hh =>
      exact h.establish hh (by simp [Label.acks,Label.acked,toEvent]) rfl rfl
        (by simp [Label.dataOpened,hkind]) honce rfl rfl
    | data next hh hc hseq hw hn =>
      obtain ⟨h₁,h₂,h₃,h₄⟩ := h.established _ rfl hh
      have he : establishments x (ls++[.received x (some s) f (.event (toEvent .data f.payload))]) =
          establishments x ls := by
        simp [establishments_snoc,Label.acks,Label.acked,toEvent]
      refine ⟨?_,?_,?_,?_⟩
      · rw [he]
        exact fun h₀ => by omega
      · intro t ht _
        cases ht
        rw [he]
        refine ⟨h₁,by simpa [Label.dataSent] using h₂,?_,?_⟩
        · simp [Label.dataReported,toEvent,h₃,hn]
        · simp [Label.dataReported,Label.dataOpened,toEvent,hh,hkind,h₄]
      · intro t ht he'
        cases ht
        simp only at he'
        rw [hh] at he'
        cases he'
      · simpa [Label.dataSent] using h.increasing
    | credit hh =>
      exact h.keep rfl rfl (by simp [Label.dataOpened,hkind]) rfl (by simp [Label.acked,toEvent])
        rfl rfl rfl
    | close hh hc =>
      exact h.keep rfl rfl (by simp [Label.dataOpened,hkind]) rfl (by simp [Label.acked,toEvent])
        rfl rfl rfl
    | closeAck hl =>
      exact h.keep rfl rfl (by simp [Label.dataOpened,hkind]) rfl (by simp [Label.acked,toEvent])
        rfl rfl rfl
    | reset => exact absurd rfl hf

/-- What holds between the two sides of a stream that is opened at most once. -/
structure Delivery (ls : List Label) (σ : StreamPair) : Prop where
  sound : ∀ x, SlotSound x ls (σ.slot x)
  inFlight : ∀ x, ∀ f ∈ σ.flight x, f.kind = .data → (f.header.seq.toNat,f.payload) ∈ dataSent x ls
  genuine : ∀ y (i : ℕ) p, (dataReported y ls)[i]? = some p → (i,p) ∈ dataSent y.other ls

theorem Fresh.delivery {σ : StreamPair} (h : Fresh σ) : Delivery [] σ where
  sound x := by
    rw [h.slots x]
    exact ⟨fun _ => ⟨rfl,rfl,rfl⟩,nofun,nofun,List.Pairwise.nil⟩
  inFlight x f hf hk := absurd hk (h.flights x f hf).2.2
  genuine y i p hp := by simp [dataReported] at hp

theorem dataSent_mono {x : Side} {ls : List Label} {l : Label} {d : ℕ × List UInt8}
    (h : d ∈ dataSent x ls) : d ∈ dataSent x (ls++[l]) := by
  rw [dataSent_snoc]
  exact List.mem_append_left _ h

theorem dataReported_eq_some {y : Side} {l : Label} {p : List UInt8} :
    Label.dataReported y l = some p ↔ ∃ slot f, l = .received y slot f (.event (.data p)) := by
  constructor
  · intro h
    unfold Label.dataReported at h
    split at h
    · split at h
      · cases h
        subst ‹_ = y›
        exact ⟨_,_,rfl⟩
      · cases h
    · cases h
  · rintro ⟨slot,f,rfl⟩
    exact if_pos rfl

/-- Each side keeps its account, of its own sends and receptions and past those of the other. -/
theorem Delivery.step_sound {ls : List Label} {σ σ' : StreamPair} {l : Label} (h : Delivery ls σ)
    (hs : Step σ l σ') (honce : ∀ x, establishments x (ls++[l]) ≤ 1) (x : Side) :
    SlotSound x (ls++[l]) (σ'.slot x) := by
  cases hs with
  | @sent z r f after failed hsend =>
    rcases Side.eq_or_other x z with rfl | rfl
    · simpa using (h.sound x).sent hsend (honce x)
    · simpa using (h.sound z.other).frame (by cases r <;> simp [Label.dataSent]) rfl rfl
        (by simp [Label.acks]) rfl
  | @failed z r hdr after failed hsend =>
    rcases Side.eq_or_other x z with rfl | rfl
    · simpa using (h.sound x).failed hsend (honce x)
    · simpa using (h.sound z.other).frame rfl rfl rfl (by simp [Label.acks]) rfl
  | @received z f full reaction slot rest reply hmem hrest hrecv =>
    rcases Side.eq_or_other x z with rfl | rfl
    · simpa using (h.sound x).received hrecv (honce x)
    · have hr : Label.dataReported z.other (.received z (σ.slot z) f reaction) = none := by
        unfold Label.dataReported
        split <;> simp_all
      have ho : Label.dataOpened z.other (.received z (σ.slot z) f reaction) = none := by
        unfold Label.dataOpened
        split <;> simp_all
      simpa using (h.sound z.other).frame rfl hr ho rfl (by simp [Label.acked])
  | lost => exact (h.sound x).frame rfl rfl rfl rfl rfl

theorem Delivery.step_inFlight {ls : List Label} {σ σ' : StreamPair} {l : Label} (h : Delivery ls σ)
    (hs : Step σ l σ') (x : Side) {g : Frame} (hg : g ∈ σ'.flight x) (hd : g.kind = .data) :
    (g.header.seq.toNat,g.payload) ∈ dataSent x (ls++[l]) := by
  cases hs with
  | @sent z r f after failed hsend hkind hpayload =>
    rcases Side.eq_or_other x z with rfl | rfl
    · simp only [Function.update_self,List.mem_append,List.mem_singleton] at hg
      rcases hg with hg | rfl
      · exact dataSent_mono (h.inFlight x g hg hd)
      · rw [hkind] at hd
        cases r with
        | sendData payload => simp [Label.dataSent,hpayload,Request.payload]
        | «open» w => cases hd
        | openAck w => cases hd
        | grantCredit n => cases hd
        | close => cases hd
        | reset => cases hd
    · simp only [ne_eq,Side.other_ne,not_false_eq_true,Function.update_of_ne] at hg
      exact dataSent_mono (h.inFlight _ g hg hd)
  | failed => exact dataSent_mono (h.inFlight x g hg hd)
  | @received z f full reaction slot rest reply hmem hrest hrecv hreply =>
    apply dataSent_mono
    rcases Side.eq_or_other x z with rfl | rfl
    · simp only [Function.update_self,List.mem_append] at hg
      rcases hg with hg | hg
      · exact h.inFlight _ g hg hd
      · rw [hreply g hg] at hd
        cases hd
    · simp only [ne_eq,Side.other_ne,not_false_eq_true,Function.update_of_ne,
        Function.update_self] at hg
      exact h.inFlight _ g (List.erase_subset (hrest.subset hg)) hd
  | @lost z rest hrest =>
    rcases Side.eq_or_other x z with rfl | rfl
    · simp only [Function.update_self] at hg
      exact dataSent_mono (h.inFlight _ g (hrest.subset hg) hd)
    · simp only [ne_eq,Side.other_ne,not_false_eq_true,Function.update_of_ne] at hg
      exact dataSent_mono (h.inFlight _ g hg hd)

/-- The report of a step is the payload of the DATA frame of the next sequence number. -/
theorem Delivery.reported_next {ls : List Label} {σ σ' : StreamPair} {l : Label} {y : Side}
    {p : List UInt8} (h : Delivery ls σ) (hs : Step σ l σ') (hl : Label.dataReported y l = some p) :
    ((dataReported y ls).length,p) ∈ dataSent y.other ls := by
  obtain ⟨slot,f,rfl⟩ := dataReported_eq_some.mp hl
  cases hs with
  | received hmem hrest hrecv hreply =>
    obtain ⟨s,hslot,hh,hkind,hseq,hpay⟩ := hrecv.data
    have hlen := ((h.sound y).established s hslot hh).2.2.1
    have hsent := h.inFlight _ f hmem hkind
    rwa [hseq,← hlen,← hpay] at hsent

theorem Delivery.step_genuine {ls : List Label} {σ σ' : StreamPair} {l : Label} (h : Delivery ls σ)
    (hs : Step σ l σ') (y : Side) {i : ℕ} {p : List UInt8}
    (hp : (dataReported y (ls++[l]))[i]? = some p) : (i,p) ∈ dataSent y.other (ls++[l]) := by
  apply dataSent_mono
  rw [dataReported_snoc] at hp
  cases hl : Label.dataReported y l with
  | none =>
    rw [hl,Option.toList_none,List.append_nil] at hp
    exact h.genuine y i p hp
  | some payload =>
    rw [hl,Option.toList_some] at hp
    obtain ⟨-,hp⟩ | ⟨rfl,rfl⟩ := Lists.getElem?_snoc_cases hp
    · exact h.genuine y i p hp
    · exact h.reported_next hs hl

theorem Delivery.step {ls : List Label} {σ σ' : StreamPair} {l : Label} (h : Delivery ls σ)
    (hs : Step σ l σ') (honce : ∀ x, establishments x (ls++[l]) ≤ 1) : Delivery (ls++[l]) σ' where
  sound := h.step_sound hs honce
  inFlight x _ hg hd := h.step_inFlight hs x hg hd
  genuine y _ _ hp := h.step_genuine hs y hp

theorem opened_le_of_snoc {ls : List Label} {l : Label} {n : ℕ} (h : opened (ls++[l]) ≤ n) :
    opened ls ≤ n := (opened_snoc ls l).trans h

theorem Run.delivery {σ₀ σ : StreamPair} {ls : List Label} (h₀ : Fresh σ₀) (h : Run σ₀ ls σ)
    (honce : opened ls ≤ 1) : Delivery ls σ := by
  induction h with
  | nil => exact h₀.delivery
  | @snoc ls σ σ' l hrun hs ih =>
    refine (ih (opened_le_of_snoc honce)).step hs fun x => ?_
    exact ((hrun.snoc hs).tokens h₀ |>.establishments_le x).trans honce

theorem Delivery.prefix_of_sent {ls : List Label} {σ : StreamPair} (h : Delivery ls σ) (y : Side) :
    dataReported y ls <+: (dataSent y.other ls).map Prod.snd :=
  Lists.prefix_of_increasing (h.sound y.other).increasing (h.genuine y)

end StreamPair
end DigMessage
