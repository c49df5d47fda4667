import DigMessage.Lists
import DigMessage.OpenGates

/-! One anti-replay table, several recipients. The table keys its windows by sender and epoch
alone, so the counters a sender numbers for each recipient meet in one window: what one
recipient opened can make another's message a replay. -/
namespace DigMessage
open FixedWidth

section
variable {SK : Type} (P : Primitives SK)

structure Parcel (SK : Type) where
  params : SealParams SK
  esk : SK
  env : DigMessageEnvelope
  recipientSk : SK
  resolveSenderPub : Bytes32 → UInt32 → Option Bytes48
  nowMs : UInt64
  order : HashOrder

namespace Parcel

/-- Sealed by its sender for the key that opens it. -/
structure Genuine (x : Parcel SK) : Prop where
  sealed : sealWithEphemeral P x.params x.esk = .ok x.env
  keys : KeysMatch P x.params x.recipientSk x.resolveSenderPub

/-- Opened within its lifetime and the freshness window, so that its counter decides. -/
def Live (x : Parcel SK) : Prop :=
  checkExpiry x.params.timestampMs x.params.expiresAt x.nowMs = .ok () ∧
    ReplayGuard.fresh x.params.timestampMs x.nowMs = true

instance (x : Parcel SK) : Decidable x.Live := inferInstanceAs (Decidable (_ ∧ _))

def counter (x : Parcel SK) : ℕ := x.params.counter.toNat

def check (x : Parcel SK) : Check where
  sender := x.params.sender
  senderEpoch := x.params.senderEpoch
  counter := x.params.counter
  timestampMs := x.params.timestampMs
  nowMs := x.nowMs
  order := x.order

/-- Refused as a replay for its clock, whatever was opened before. -/
def stale (x : Parcel SK) : Bool :=
  decide (checkExpiry x.params.timestampMs x.params.expiresAt x.nowMs = .ok ()) &&
    !ReplayGuard.fresh x.params.timestampMs x.nowMs

theorem stale_of_live {x : Parcel SK} (h : x.Live) : x.stale = false := by simp [stale,h.2]

end Parcel

def isReplay : Except MessageError OpenedMessage → Bool
  | .error .replay => true
  | _ => false

/-- Open the parcels in order through one table, and note which are refused as replays. -/
def replayVerdicts (g : ReplayGuard) : List (Parcel SK) → Option (List (Parcel SK × Bool))
  | [] => some []
  | x::xs =>
    match openMessage P x.order x.recipientSk x.env x.resolveSenderPub x.nowMs g with
    | none => none
    | some (res,g') => (replayVerdicts g' xs).map fun vs => (x,isReplay res)::vs

/-- The verdicts for each recipient are those its own parcels get from a table of their own. -/
def RecipientsApart (xs : List (Parcel SK)) : Prop :=
  ∃ vs, replayVerdicts P .new xs = some vs ∧
    ∀ recipient, replayVerdicts P .new (xs.filter fun x => x.params.recipient = recipient) =
      some (vs.filter fun v => v.1.params.recipient = recipient)

/-- One sender's parcels under one epoch, numbered upwards for each recipient. -/
structure Correspondence (sender : Bytes32) (senderEpoch : UInt32) (xs : List (Parcel SK)) :
    Prop where
  genuine : ∀ x ∈ xs, x.Genuine P
  sender : ∀ x ∈ xs, x.params.sender = sender
  senderEpoch : ∀ x ∈ xs, x.params.senderEpoch = senderEpoch
  numbered : ∀ recipient, (xs.filter fun x => x.params.recipient = recipient).Pairwise
    fun x y => x.counter < y.counter

/-- No live parcel carries the counter of a live one opened before it for another recipient, or
one a window's width or more below it. -/
def CountersApart (xs : List (Parcel SK)) : Prop :=
  xs.Pairwise fun x y => x.params.recipient ≠ y.params.recipient → x.Live → y.Live →
    x.counter ≠ y.counter ∧ x.counter < y.counter+replayWindow

variable {P}

def verdictsFrom (S : Finset ℕ) : List (Parcel SK) → List (Parcel SK × Bool)
  | [] => []
  | x::xs =>
    if x.Live then (x,!decide (Admissible S x.counter))::verdictsFrom (extend S x.counter) xs
    else (x,x.stale)::verdictsFrom S xs

/-- A genuine parcel past its lifetime fails for it; another opens as its call on the table
answers. -/
theorem Parcel.Genuine.opens {x : Parcel SK} (hP : P.Lawful) (h : x.Genuine P) (g : ReplayGuard) :
    (∃ err, checkExpiry x.params.timestampMs x.params.expiresAt x.nowMs = .error err ∧
      openMessage P x.order x.recipientSk x.env x.resolveSenderPub x.nowMs g =
        some (.error err,g)) ∨
    (checkExpiry x.params.timestampMs x.params.expiresAt x.nowMs = .ok () ∧ ∃ b g' res,
      x.check.Step g b g' ∧ isReplay res = !b ∧
      openMessage P x.order x.recipientSk x.env x.resolveSenderPub x.nowMs g = some (res,g')) := by
  obtain ⟨compressed,-,ha,ct,henv⟩ := authentic_of_sealed hP h.sealed h.keys
  have hm : (sealedInner P x.params (P.publicKeyBytes x.esk) compressed).messageType =
      x.env.messageType := by rw [henv]; rfl
  have hc : (sealedInner P x.params (P.publicKeyBytes x.esk) compressed).correlationId =
      x.env.correlationId := by rw [henv]; rfl
  cases hx : checkExpiry x.params.timestampMs x.params.expiresAt x.nowMs with
  | error err => exact Or.inl ⟨err,rfl,openMessage_of_expiry ha hm hc hx⟩
  | ok u =>
    refine Or.inr ⟨rfl,?_⟩
    obtain ⟨b,g',hstep⟩ := ReplayGuard.step_total x.check g
    cases b with
    | true =>
      have hopen := openMessage_sealed hP h.sealed h.keys hstep hx
      refine ⟨true,g',_,hstep,?_,hopen⟩
      split <;> rfl
    | false =>
      have hg : ReplayGuard.checkAndAdmit (ε:=MessageError) x.order x.env.sender x.env.senderEpoch
          x.params.counter x.params.timestampMs x.nowMs g = some (.ok false,g') := by
        rw [henv]
        exact hstep
      exact ⟨false,g',_,hstep,rfl,openMessage_of_replay ha hm hc hx hg⟩

theorem isReplay_expiry {timestampMs expiresAt nowMs : UInt64} {err : MessageError}
    (h : checkExpiry timestampMs expiresAt nowMs = .error err) : isReplay (.error err) = false := by
  unfold checkExpiry at h
  split_ifs at h
  · cases h
    rfl
  · cases h
    rfl

/-- What one opening makes of the sender's window. -/
theorem Parcel.Genuine.step {x : Parcel SK} (hP : P.Lawful) (h : x.Genuine P) {g : ReplayGuard}
    {key : SenderKey} {S : Finset ℕ} (hkey : x.check.key = key) (hkeys : g.senders.keys ⊆ {key})
    (ht : (g.window key).Tracks S) : ∃ res g',
      openMessage P x.order x.recipientSk x.env x.resolveSenderPub x.nowMs g = some (res,g') ∧
      g'.senders.keys ⊆ {key} ∧
      (x.Live → isReplay res = !decide (Admissible S x.counter) ∧
        (g'.window key).Tracks (extend S x.counter)) ∧
      (¬ x.Live → isReplay res = x.stale ∧ (g'.window key).Tracks S) := by
  obtain ⟨err,hx,ho⟩ | ⟨hx,b,g',res,hstep,hres,ho⟩ := h.opens hP g
  · have hnot : ¬ x.Live := fun hl => by
      have hok := hl.1
      rw [hx] at hok
      cases hok
    have hstale : x.stale = false := by simp [Parcel.stale,hx]
    exact ⟨_,g,ho,hkeys,fun hl => absurd hl hnot,fun _ => ⟨by rw [hstale,isReplay_expiry hx],ht⟩⟩
  · have hroom : x.check.key ∈ g.senders ∨ g.trackedSenders < maxTrackedSenders := by
      have hcard := Finset.card_le_card hkeys
      rw [Finset.card_singleton] at hcard
      exact Or.inr (lt_of_le_of_lt hcard (by decide))
    have hkeys' : g'.senders.keys ⊆ {key} := by
      refine (ReplayGuard.keys_step hstep).trans ?_
      rw [hkey]
      exact Finset.insert_subset (Finset.mem_singleton_self _) hkeys
    obtain ⟨hown,hother,hrefused⟩ := ReplayGuard.step_tracks hstep hroom ht
    have hrecent := ReplayGuard.fresh_iff x.params.timestampMs x.nowMs
    refine ⟨res,g',ho,hkeys',fun hl => ?_,fun hl => ?_⟩
    · obtain ⟨hans,htrack⟩ := hown hkey (hrecent.mp hl.2)
      exact ⟨by rw [hres,hans]; rfl,htrack⟩
    · have hno : ¬ x.check.Recent := fun hr => hl ⟨hx,hrecent.mpr hr⟩
      have hfresh : ReplayGuard.fresh x.params.timestampMs x.nowMs = false := by
        by_contra hf
        exact hl ⟨hx,by simpa using hf⟩
      refine ⟨?_,hother fun hr => hno hr.2⟩
      rw [hres,hrefused hno]
      simp [Parcel.stale,hx,hfresh]

theorem verdicts_run (hP : P.Lawful) {key : SenderKey} {xs : List (Parcel SK)}
    (hgen : ∀ x ∈ xs, x.Genuine P) (hkey : ∀ x ∈ xs, x.check.key = key) {g : ReplayGuard}
    {S : Finset ℕ} (hkeys : g.senders.keys ⊆ {key}) (ht : (g.window key).Tracks S) :
    replayVerdicts P g xs = some (verdictsFrom S xs) := by
  induction xs generalizing g S with
  | nil => rfl
  | cons x xs ih =>
    obtain ⟨res,g',ho,hkeys',hlive,hdead⟩ :=
      (hgen x (List.mem_cons_self ..)).step hP (hkey x (List.mem_cons_self ..)) hkeys ht
    have hrest := fun S ht => ih (fun y hy => hgen y (List.mem_cons_of_mem _ hy))
      (fun y hy => hkey y (List.mem_cons_of_mem _ hy)) hkeys' (S:=S) ht
    rw [replayVerdicts,ho]
    simp only
    by_cases hl : x.Live
    · obtain ⟨hres,htrack⟩ := hlive hl
      rw [hrest _ htrack,hres,verdictsFrom,if_pos hl]
      rfl
    · obtain ⟨hres,htrack⟩ := hdead hl
      rw [hrest _ htrack,hres,verdictsFrom,if_neg hl]
      rfl

theorem verdictsFrom_fst (S : Finset ℕ) (xs : List (Parcel SK)) :
    (verdictsFrom S xs).map Prod.fst = xs := by
  induction xs generalizing S with
  | nil => rfl
  | cons x xs ih =>
    rw [verdictsFrom]
    split
    · rw [List.map_cons,ih]
    · rw [List.map_cons,ih]

theorem admissible_iff (S : Finset ℕ) (counter : ℕ) :
    Admissible S counter ↔ ∀ n ∈ S, n ≠ counter ∧ n < counter+replayWindow := by
  have hpos : 0 < replayWindow := by decide
  constructor
  · rintro ⟨hnew,hreach⟩ n hn
    have hne : S ≠ ∅ := Finset.ne_empty_of_mem hn
    have hsup := hreach.resolve_left hne
    have hle : n ≤ S.sup id := Finset.le_sup (f:=id) hn
    exact ⟨fun he => hnew (he ▸ hn),by omega⟩
  · intro h
    refine ⟨fun hn => (h counter hn).1 rfl,Or.inr ?_⟩
    rw [Finset.sup_lt_iff (by rw [Nat.bot_eq_zero]; omega)]
    exact fun n hn => (h n hn).2

/-- Nothing is refused for its counter exactly where each live parcel is apart from the seen
counters and from the live parcels before it. -/
theorem verdictsFrom_eq_stale_iff (S : Finset ℕ) (xs : List (Parcel SK)) :
    verdictsFrom S xs = xs.map (fun x => (x,x.stale)) ↔
      (∀ x ∈ xs, x.Live → Admissible S x.counter) ∧
      xs.Pairwise fun x y => x.Live → y.Live →
        x.counter ≠ y.counter ∧ x.counter < y.counter+replayWindow := by
  induction xs generalizing S with
  | nil => simp [verdictsFrom]
  | cons x xs ih =>
    rw [verdictsFrom,List.map_cons,List.pairwise_cons,List.forall_mem_cons]
    by_cases hl : x.Live
    · rw [if_pos hl,List.cons.injEq,Prod.mk.injEq,ih]
      have hhead : (!decide (Admissible S x.counter)) = x.stale ↔ Admissible S x.counter := by
        rw [Parcel.stale_of_live hl]
        simp
      have htail : Admissible S x.counter → ∀ y, Admissible (extend S x.counter) y ↔
          Admissible S y ∧ x.counter ≠ y ∧ x.counter < y+replayWindow := by
        intro hadm y
        rw [extend,if_pos hadm,admissible_iff,admissible_iff,Finset.forall_mem_insert,and_comm]
      simp only [true_and,hhead,hl,true_implies]
      constructor
      · rintro ⟨hadm,hall,hpair⟩
        refine ⟨⟨hadm,fun y hy hly => ((htail hadm _).mp (hall y hy hly)).1⟩,
          fun y hy hly => ((htail hadm _).mp (hall y hy hly)).2,hpair⟩
      · rintro ⟨⟨hadm,hall⟩,hfirst,hpair⟩
        exact ⟨hadm,fun y hy hly => (htail hadm _).mpr ⟨hall y hy hly,hfirst y hy hly⟩,hpair⟩
    · rw [if_neg hl,List.cons.injEq,ih]
      simp [hl]

theorem verdictsFrom_of_increasing {xs : List (Parcel SK)}
    (h : xs.Pairwise fun x y => x.counter < y.counter) :
    verdictsFrom ∅ xs = xs.map (fun x => (x,x.stale)) := by
  rw [verdictsFrom_eq_stale_iff]
  refine ⟨fun x _ _ => ⟨Finset.notMem_empty _,Or.inl rfl⟩,h.imp fun hlt _ _ => ⟨?_,?_⟩⟩
  · omega
  · omega

/-- Each recipient's parcels fare as if the others' were absent exactly where no live counter
meets one opened before it for another recipient. -/
theorem recipients_apart_iff {sender : Bytes32} {senderEpoch : UInt32} {xs : List (Parcel SK)}
    (hP : P.Lawful) (h : Correspondence P sender senderEpoch xs) :
    RecipientsApart P xs ↔ CountersApart xs := by
  have hkey : ∀ x ∈ xs, x.check.key = (sender,senderEpoch) := fun x hx => by
    rw [← h.sender x hx,← h.senderEpoch x hx]
    rfl
  have hnew : (ReplayGuard.new.window (sender,senderEpoch)).Tracks ∅ := SenderWindow.new_tracks
  have hempty : ReplayGuard.new.senders.keys ⊆ {(sender,senderEpoch)} := by simp [ReplayGuard.new]
  have hall := verdicts_run hP h.genuine hkey hempty hnew
  have halone : ∀ recipient, replayVerdicts P .new (xs.filter fun x => x.params.recipient = recipient) =
      some ((xs.map fun x => (x,x.stale)).filter fun v => v.1.params.recipient = recipient) := by
    intro recipient
    rw [verdicts_run hP (fun x hx => h.genuine x (List.mem_of_mem_filter hx))
      (fun x hx => hkey x (List.mem_of_mem_filter hx)) hempty hnew,
      verdictsFrom_of_increasing (h.numbered recipient),List.filter_map]
    rfl
  -- the verdicts agree for every recipient just where no counter decides at all
  have hiff : RecipientsApart P xs ↔ verdictsFrom ∅ xs = xs.map fun x => (x,x.stale) := by
    constructor
    · rintro ⟨vs,hvs,heach⟩
      rw [hall,Option.some.injEq] at hvs
      subst hvs
      refine Lists.eq_of_filters (fun x : Parcel SK => x.params.recipient) ?_ fun recipient => ?_
      · rw [verdictsFrom_fst,List.map_map]
        exact (List.map_id xs).symm
      · have hsame := heach recipient
        rw [halone,Option.some.injEq] at hsame
        exact hsame.symm
    · intro he
      exact ⟨_,hall,fun recipient => by rw [halone,he]⟩
  rw [hiff,verdictsFrom_eq_stale_iff,CountersApart]
  have hnone : ∀ x ∈ xs, x.Live → Admissible ∅ x.counter :=
    fun x _ _ => ⟨Finset.notMem_empty _,Or.inl rfl⟩
  have hsame : xs.Pairwise fun x y => x.params.recipient = y.params.recipient →
      x.counter < y.counter := by
    have hper := fun recipient => List.pairwise_filter.mp (h.numbered recipient)
    refine List.pairwise_iff_getElem.mpr fun i j hi hj hij he => ?_
    have hlt := List.pairwise_iff_getElem.mp (hper xs[j].params.recipient) i j hi hj hij
    exact hlt (decide_eq_true he) (decide_eq_true rfl)
  constructor
  · rintro ⟨-,hpair⟩
    refine hpair.imp ?_
    intro x y hxy _
    exact hxy
  · intro hpair
    refine ⟨hnone,(hpair.and hsame).imp fun {x y} hxy hx hy => ?_⟩
    by_cases hr : x.params.recipient = y.params.recipient
    · have hlt := hxy.2 hr
      exact ⟨by omega,by omega⟩
    · exact hxy.1 hr hx hy

end

/-- Every correspondence numbered from zero for each recipient keeps its recipients apart. -/
def RecipientsIndependent : Prop :=
  ∀ P : Primitives Bytes32, P.Lawful → ∀ sender senderEpoch xs,
    Correspondence P sender senderEpoch xs →
    (∀ recipient x, (xs.filter fun x => x.params.recipient = recipient).head? = some x →
      x.counter = 0) → RecipientsApart P xs

def letterTo (n : UInt8) (counter : UInt64) : SealParams Bytes32 :=
  {letter [1,2,3] 2000 with
    recipient := byte32 n
    recipientPub := Primitives.point (byte32 (n+10))
    counter := counter}

def parcelTo (n : UInt8) (counter : UInt64) (env : DigMessageEnvelope) (order : HashOrder) :
    Parcel Bytes32 where
  params := letterTo n counter
  esk := byte32 7
  env := env
  recipientSk := byte32 (n+10)
  resolveSenderPub := lettersSender
  nowMs := 1000
  order := order

theorem parcelTo_live (n : UInt8) (counter : UInt64) (env : DigMessageEnvelope) (order : HashOrder) :
    (parcelTo n counter env order).Live := by
  refine ⟨?_,?_⟩
  · change checkExpiry 1000 2000 1000 = .ok ()
    decide
  · change ReplayGuard.fresh 1000 1000 = true
    decide

theorem letters_correspond {m n : UInt8} {i k : UInt64} {a b : DigMessageEnvelope}
    (hmn : byte32 m ≠ byte32 n) (ha : sealWithEphemeral .plain (letterTo m i) (byte32 7) = .ok a)
    (hb : sealWithEphemeral .plain (letterTo n k) (byte32 7) = .ok b) (order : HashOrder) :
    Correspondence .plain (byte32 1) 0 [parcelTo m i a order,parcelTo n k b order] where
  genuine := by
    rintro x hx
    rcases List.mem_cons.mp hx with rfl | hx
    · exact ⟨ha,⟨rfl,rfl⟩⟩
    · rw [List.mem_singleton.mp hx]
      exact ⟨hb,⟨rfl,rfl⟩⟩
  sender := by simp [parcelTo,letterTo,letter]
  senderEpoch := by simp [parcelTo,letterTo,letter]
  numbered recipient := by
    rw [List.pairwise_filter,List.pairwise_pair]
    intro hm hn
    have hm' : byte32 m = recipient := of_decide_eq_true hm
    have hn' : byte32 n = recipient := of_decide_eq_true hn
    exact absurd (hm'.trans hn'.symm) hmn

theorem letters_sealed {n : UInt8} {k : UInt64}
    (h : (sealWithEphemeral .plain (letterTo n k) (byte32 7)).isOk = true) :
    ∃ env, sealWithEphemeral .plain (letterTo n k) (byte32 7) = .ok env := exists_of_isOk h

/-- The first letter to a second recipient, opened after the first to another, is refused. -/
theorem first_letters_collide : ¬ RecipientsIndependent := by
  intro h
  obtain ⟨a,ha⟩ := letters_sealed (n:=2) (k:=0) (by decide +kernel)
  obtain ⟨b,hb⟩ := letters_sealed (n:=3) (k:=0) (by decide +kernel)
  have hcor := letters_correspond (by decide) ha hb default
  have hzero : ∀ recipient x, ([parcelTo 2 0 a default,parcelTo 3 0 b default].filter
      fun x => x.params.recipient = recipient).head? = some x → x.counter = 0 := by
    intro recipient x hx
    have hmem := List.mem_of_mem_filter (List.mem_of_head? hx)
    rcases List.mem_cons.mp hmem with rfl | hmem
    · rfl
    · rw [List.mem_singleton.mp hmem]
      rfl
  obtain ⟨vs,hvs,heach⟩ := h _ Primitives.plain_lawful _ _ _ hcor hzero
  have hkey : ∀ x ∈ [parcelTo 2 0 a default,parcelTo 3 0 b default],
      x.check.key = (byte32 1,0) := by
    simp [parcelTo,letterTo,letter,Parcel.check,Check.key]
  have hempty : ReplayGuard.new.senders.keys ⊆ {(byte32 1,0)} := by simp [ReplayGuard.new]
  have hboth := verdicts_run Primitives.plain_lawful hcor.genuine hkey hempty
    SenderWindow.new_tracks
  have hgen : ∀ x ∈ [parcelTo 3 0 b default], x.Genuine .plain :=
    fun x hx => hcor.genuine x (List.mem_cons_of_mem _ hx)
  have halone := verdicts_run Primitives.plain_lawful hgen
    (fun x hx => hkey x (List.mem_cons_of_mem _ hx)) hempty SenderWindow.new_tracks
  have hadm : Admissible ∅ 0 := by decide
  have hdup : ¬ Admissible {0} 0 := by decide
  have hnext : extend ∅ 0 = {0} := by decide
  have hpair : verdictsFrom ∅ [parcelTo 2 0 a default,parcelTo 3 0 b default] =
      [(parcelTo 2 0 a default,false),(parcelTo 3 0 b default,true)] := by
    have h₂ : (parcelTo 2 0 a default).counter = 0 := rfl
    have h₃ : (parcelTo 3 0 b default).counter = 0 := rfl
    simp only [verdictsFrom,parcelTo_live,if_true,h₂,h₃,hnext,hadm,hdup,decide_true,decide_false,
      Bool.not_true,Bool.not_false]
  have hlone : verdictsFrom ∅ [parcelTo 3 0 b default] = [(parcelTo 3 0 b default,false)] := by
    have h₃ : (parcelTo 3 0 b default).counter = 0 := rfl
    simp only [verdictsFrom,parcelTo_live,if_true,h₃,hadm,decide_true,Bool.not_true]
  rw [hboth,hpair,Option.some.injEq] at hvs
  have hsecond := heach (byte32 3)
  rw [← hvs] at hsecond
  have hfirst : byte32 2 ≠ byte32 3 := by decide
  have hto : (parcelTo 2 0 a default).params.recipient = byte32 2 := rfl
  have hto' : (parcelTo 3 0 b default).params.recipient = byte32 3 := rfl
  simp only [List.filter_cons,List.filter_nil,hto,hto',hfirst,decide_true,decide_false,if_true,
    Bool.false_eq_true,if_false] at hsecond
  rw [halone,hlone] at hsecond
  simp at hsecond

/-- Letters that happen to carry different counters do not meet. -/
theorem later_letter_apart : ∃ a b, RecipientsApart .plain
    [parcelTo 2 0 a default,parcelTo 3 1 b default] := by
  obtain ⟨a,ha⟩ := letters_sealed (n:=2) (k:=0) (by decide +kernel)
  obtain ⟨b,hb⟩ := letters_sealed (n:=3) (k:=1) (by decide +kernel)
  have hcor := letters_correspond (by decide) ha hb default
  refine ⟨a,b,(recipients_apart_iff Primitives.plain_lawful hcor).mpr ?_⟩
  rw [CountersApart,List.pairwise_pair]
  intro _ _ _
  have h₂ : (parcelTo 2 0 a default).counter = 0 := rfl
  have h₃ : (parcelTo 3 1 b default).counter = 1 := rfl
  rw [h₂,h₃]
  decide

end DigMessage
