import DigMessage.EndpointCounters
import DigMessage.FrameSize
import DigMessage.LinkLifecycle
import DigMessage.LinkPipe

/-! Left alone, two joined endpoints come to rest: delivering what is under way ends, in whatever
order the two channels are served, and both sides then know the same. -/
namespace DigMessage
open FixedWidth

/-- What a frame may still cause: its delivery, and that of a RESET in answer. -/
def Frame.load (f : Frame) : ℕ := if f.kind = .reset then 1 else 2

section
variable {SK : Type} {P : Primitives SK}

def loadOf (frames : List (SealedFrame SK)) : ℕ := (frames.map fun s => s.frame.load).sum

@[simp] theorem loadOf_nil : loadOf ([] : List (SealedFrame SK)) = 0 := rfl

@[simp] theorem loadOf_cons (s : SealedFrame SK) (frames : List (SealedFrame SK)) :
    loadOf (s::frames) = s.frame.load+loadOf frames := by simp [loadOf]

@[simp] theorem loadOf_append (xs ys : List (SealedFrame SK)) :
    loadOf (xs++ys) = loadOf xs+loadOf ys := by simp [loadOf]

def Channels.load (ch : Channels SK) : ℕ := loadOf (ch .a)+loadOf (ch .b)

theorem Channels.load_eq (ch : Channels SK) (x : Side) : ch.load = loadOf (ch x)+loadOf (ch x.other) := by
  cases x
  · rfl
  · exact Nat.add_comm _ _

/-- At some clock reading the frame is fresh and has not expired. -/
def SealedFrame.Timely (s : SealedFrame SK) : Prop :=
  s.params.expiresAt = 0 ∨ s.params.timestampMs ≤ s.params.expiresAt ∧
    s.params.expiresAt ≤ saturatingAdd s.params.timestampMs maxMessageTtlMs

theorem SealedFrame.Timely.now {s : SealedFrame SK} (h : s.Timely) :
    ReplayGuard.fresh s.params.timestampMs s.params.timestampMs = true ∧
      checkExpiry s.params.timestampMs s.params.expiresAt s.params.timestampMs = .ok () := by
  constructor
  · simp only [ReplayGuard.fresh,Bool.not_eq_true',Bool.or_eq_false_iff,decide_eq_false_iff_not,
      UInt64.lt_iff_toNat_lt,saturatingSub_toNat,saturatingAdd_toNat,gt_iff_lt]
    have hlt := s.params.timestampMs.toNat_lt
    omega
  · rw [checkExpiry_ok]
    exact h.imp_right And.symm

variable (P)

/-- Each side can seal a RESET to its peer: its keys are good and the system has entropy. -/
def SealsResets (party : Side → Party SK) : Prop :=
  ∀ (y : Side) (e : StreamEndpoint SK) (c : Bytes32) (nowMs : UInt64),
    (party y).Owns P (party y.other) e → ∃ ikm reply,
      sealMessage P (.ok ikm) (e.frameParams c (header .reset 0 0) [] nowMs 0) = .ok reply

/-- The delivery of the oldest frame on the channel to `y`. -/
inductive Delivery (party : Side → Party SK) (st : LinkState SK) (y : Side) : LinkState SK → Prop
  | mk {s : SealedFrame SK} {rest : List (SealedFrame SK)} {ev : Event SK} {e' : StreamEndpoint SK} :
      Delivers P party st.world st.channels y s rest ev →
      ev.input.perform P ev.before = some (ev.outcome,e') → ev.Seals e' →
      Delivery party st y (st.record y ev e' (Function.update st.channels y.other rest))

/-- Deliveries alone, to the sides `ys`. -/
abbrev Deliveries (party : Side → Party SK) : LinkState SK → List Side → LinkState SK → Prop :=
  Lists.Along (Delivery P party)

/-- A state from which deliveries do no harm: it was reached, its frames arrive in time, and no
counter runs out before they are all taken. -/
structure Settling (party : Side → Party SK) (st : LinkState SK) : Prop where
  linked : Linked P party st.history st.world st.channels
  timely : ∀ x, ∀ s ∈ st.channels x, s.Timely
  room : st.history.length+st.channels.load < 2^64

variable {P} {party : Side → Party SK} {st st' : LinkState SK} {y : Side}

theorem Event.sealed_timely {ev : Event SK} {s : SealedFrame SK} (hs : ev.sealed? = some s)
    (hi : ev.presented? ≠ none) : s.Timely := by
  unfold Event.sealed? at hs
  split at hs
  · rename_i hcall _
    exact absurd (by simp [Event.presented?,hcall]) hi
  · cases hs
    exact Or.inl rfl
  · cases hs

theorem Linked.reset_unanswered {tr : History SK} {w : World SK} {ch : Channels SK} {ev : Event SK}
    {e' : StreamEndpoint SK} {s : SealedFrame SK} {rest : List (SealedFrame SK)} (hP : P.Lawful)
    (h : Linked P party tr w ch) (hd : Delivers P party w ch y s rest ev)
    (hp : ev.input.perform P ev.before = some (ev.outcome,e')) (hk : s.frame.kind = .reset) :
    ev.sealed? = none := by
  obtain ⟨_,_,_,_,-,-,-,hi⟩ := hd.presented
  obtain ⟨cause,hout,-⟩ | ⟨reaction,slot,res,hout,ht⟩ := h.arrives hP hd hp
  · simp [Event.sealed?,hi,hout]
  · have hrecv := ht.receives
    rw [hk] at hrecv
    have hrep := ht.reported
    cases hrecv with
    | peerReset hs =>
      cases hrep
      simp [Event.sealed?,hi,hout]
    | strayReset cause hs =>
      cases hrep
      simp [Event.sealed?,hi,hout]
    | stray cause hs hreset ho => exact absurd rfl hreset
    | accepted hs hreset hlive hrecv => exact absurd rfl hreset
    | violated cause hs hreset ho hnot => exact absurd rfl hreset

theorem Delivery.linked (hd : Delivery P party st y st')
    (h : Linked P party st.history st.world st.channels) :
    Linked P party st'.history st'.world st'.channels := by
  obtain ⟨hd,hp,hseals⟩ := hd
  exact h.deliver hd hp hseals

theorem Delivery.load_lt (hP : P.Lawful) (hd : Delivery P party st y st')
    (h : Linked P party st.history st.world st.channels) : st'.channels.load < st.channels.load := by
  cases hd with
  | @mk s rest ev e' hd hp hseals =>
    have hafter : (st.record y ev e' (Function.update st.channels y.other rest)).channels.load =
        loadOf (st.channels y)+loadOf ev.sealed?.toList+loadOf rest := by
      rw [Channels.load_eq _ y]
      simp [LinkState.record]
    rw [hafter,Channels.load_eq st.channels y,hd.oldest,loadOf_cons]
    cases hs : ev.sealed? with
    | none =>
      have hpos : 0 < s.frame.load := by
        unfold Frame.load
        split <;> omega
      simp only [Option.toList_none,loadOf_nil]
      omega
    | some s' =>
      obtain ⟨_,_,_,_,-,-,-,hi⟩ := hd.presented
      have hreply : s'.frame.load = 1 := if_pos (sealed_of_accept hi hs).2
      have htwo : s.frame.load = 2 := by
        refine if_neg fun hk => ?_
        rw [h.reset_unanswered hP hd hp hk] at hs
        cases hs
      simp only [Option.toList_some,loadOf_cons,loadOf_nil]
      omega

/-- A delivery leaves what it finds, and brings rest nearer. -/
theorem Settling.step (hP : P.Lawful) (h : Settling P party st) (hd : Delivery P party st y st') :
    Settling P party st' ∧ st'.channels.load < st.channels.load := by
  have hlt := hd.load_lt hP h.linked
  refine ⟨⟨hd.linked h.linked,?_,?_⟩,hlt⟩
  · cases hd with
    | @mk s rest ev e' hd hp hseals =>
      obtain ⟨_,_,_,_,-,-,-,hi⟩ := hd.presented
      intro x s' hs'
      rcases Side.eq_or_other x y with rfl | rfl
      · simp only [LinkState.record,Function.update_self,List.mem_append,Option.mem_toList] at hs'
        rcases hs' with hs' | hs'
        · exact h.timely x s' hs'
        · exact Event.sealed_timely hs' (by simp [Event.presented?,hi])
      · simp only [LinkState.record,ne_eq,Side.other_ne,not_false_eq_true,Function.update_of_ne,
          Function.update_self] at hs'
        refine h.timely y.other s' ?_
        rw [hd.oldest]
        exact List.mem_cons_of_mem _ hs'
  · have hlen : st'.history.length = st.history.length+1 := by
      cases hd
      simp [LinkState.record]
    have hroom := h.room
    omega

theorem Linked.within {tr : History SK} {w : World SK} {ch : Channels SK}
    (h : Linked P party tr w ch) : ∀ x, (w x).Within tr.length := by
  induction h with
  | nil =>
    intro x
    refine ⟨le_rfl,fun c s hs => ?_⟩
    cases hs
  | @call tr w ch x ev e' c r nowMs expiresAt entropy hr hb hi hp hseals ih =>
    rw [List.length_append,List.length_singleton]
    exact StreamEndpoint.Within.update ih (hb ▸ hp)
  | @deliver tr w ch y ev e' s rest hr hd hp hseals ih =>
    rw [List.length_append,List.length_singleton]
    exact StreamEndpoint.Within.update ih (hd.before ▸ hp)

/-- As long as a frame is under way, one can be delivered. -/
theorem Settling.progress (h : Settling P party st) (hseal : SealsResets P party)
    (hbusy : st.channels y.other ≠ []) : ∃ st', Delivery P party st y st' := by
  obtain ⟨s,rest,hch⟩ := List.exists_cons_of_ne_nil hbusy
  have hmem : s ∈ st.channels y.other := by rw [hch]; exact List.mem_cons_self
  obtain ⟨hfresh,hexp⟩ := (h.timely _ s hmem).now
  obtain ⟨ikm,reply,hreply⟩ := hseal y (st.world y) s.envelope.correlationId s.params.timestampMs
    (h.linked.owns y)
  have hroom : st.history.length+1 < 2^64 := by
    have hpos : 0 < s.frame.load := by
      unfold Frame.load
      split <;> omega
    have hroom := h.room
    rw [Channels.load_eq _ y,hch,loadOf_cons] at hroom
    omega
  let arrival : Input := .accept s.envelope (knows P (party y.other)) s.params.timestampMs default (.ok ikm)
  obtain ⟨out,e',hp⟩ := (h.linked.within y).runs (P:=P) hroom arrival
  have hd : Delivers P party st.world st.channels y s rest ⟨st.world y,arrival,out⟩ :=
    ⟨rfl,hch,_,_,_,_,resolves_knows _,hfresh,hexp,rfl⟩
  have hseals : Event.Seals ⟨st.world y,arrival,out⟩ e' := by
    refine ⟨fun err hout => ?_,fun err hout => ?_⟩
    · obtain ⟨res,hres,-⟩ := Input.perform_accept P hp
      rw [show out = _ from hout] at hres
      cases hres
    · obtain ⟨res,hres,hacc⟩ := Input.perform_accept P hp
      rw [show out = _ from hout] at hres
      cases hres
      cases hacc with
      | unanswered ho ha hr hn hs =>
        rw [hreply] at hs
        cases hs
  exact ⟨_,.mk hd hp hseals⟩

/-- The later history tells of no OPEN, no DATA sent and no payload past the cap that the earlier
one does not tell of. -/
structure Unsent (tr tr' : History SK) : Prop where
  opened : ∀ c, timesOpened c tr' = timesOpened c tr
  sent : ∀ x c, payloadsSent x c tr' = payloadsSent x c tr
  small : Oversize tr' → Oversize tr

theorem Delivery.unsent (hd : Delivery P party st y st') : Unsent st.history st'.history := by
  cases hd with
  | @mk s rest ev e' hd hp hseals =>
    obtain ⟨_,_,_,_,-,-,-,hi⟩ := hd.presented
    simp only [LinkState.record]
    constructor
    · intro c
      simp [timesOpened_snoc,Event.opens,hi]
    · intro x c
      simp [payloadsSent,observe_snoc,Event.dataSent?,hi]
    · rintro ⟨x,s',hs',hbig⟩
      rw [sealedBy_snoc,List.mem_append,Option.mem_toList] at hs'
      rcases hs' with hs' | hs'
      · exact ⟨x,s',hs',hbig⟩
      · split at hs'
        · have hk := (sealed_of_accept hi hs').2
          rw [Event.sealed_payload hs' (by simp [hk])] at hbig
          exact absurd hbig (Nat.not_lt_zero _)
        · cases hs'

theorem deliveries_unsent {ys : List Side} (h : Deliveries P party st ys st') :
    Unsent st.history st'.history := by
  induction h with
  | nil => exact ⟨fun _ => rfl,fun _ _ => rfl,id⟩
  | cons hd _ ih =>
    have hfirst := hd.unsent
    exact ⟨fun c => (ih.opened c).trans (hfirst.opened c),
      fun x c => (ih.sent x c).trans (hfirst.sent x c),fun hbig => hfirst.small (ih.small hbig)⟩

/-- Both sides hold an end of stream `c`, or neither does; and all that was sent on it in `tr` has
been reported, unless its reader sent a RESET. -/
structure AtRest (c : Bytes32) (tr : History SK) (st : LinkState SK) : Prop where
  sessions : (st.world .a).session c = none ↔ (st.world .b).session c = none
  ends : ∀ s t, (st.world .a).session c = some s → (st.world .b).session c = some t → s.Ends t
  reported : ∀ x, ¬ HungUp x.other c st.history →
    payloadsReported x.other c st.history = payloadsSent x c tr

theorem Linked.atRest (hP : P.Lawful) {tr : History SK} (h : Linked P party st.history st.world st.channels)
    (hu : Unsent tr st.history) (hsmall : ¬ Oversize tr) {c : Bytes32} (honce : timesOpened c tr ≤ 1)
    (hrest : ∀ x, st.channels x = []) : AtRest c tr st := by
  have honce' : timesOpened c st.history ≤ 1 := (hu.opened c).trans_le honce
  have hidle : ∀ x, framesOn c (st.channels x) = [] := by
    intro x
    rw [hrest]
    rfl
  have hpair := h.agreed hP honce' .a
  change Paired _ _ (framesOn c (st.channels .a)) (framesOn c (st.channels .b)) at hpair
  rw [hidle,hidle] at hpair
  refine ⟨hpair.at_rest.1,hpair.at_rest.2,fun x hno => ?_⟩
  obtain ⟨p,hrun,hcar⟩ := h.carried hP (fun hbig => hsmall (hu.small hbig)) honce' x
  have hwhole := HungUp.whole_of_not hrun hno
  have hkept := hrun.accounts.kept hwhole
  rw [hcar.queue hwhole,hidle,payloads_nil,List.append_nil,written_piped,reads_piped] at hkept
  rw [← hu.sent x c,hkept]

/-- What is under way is taken in boundedly many deliveries, in any order: none of them but the last
leaves the link stuck, and when nothing is left both sides of every stream agree and all that was
sent has been reported. -/
theorem link_settles (hP : P.Lawful) (h : Settling P party st) (hseal : SealsResets P party) :
    (∀ ys st', Deliveries P party st ys st' → ys.length ≤ st.channels.load ∧
      ((∀ x, st'.channels x = []) ∨ ∃ y st'', Delivery P party st' y st'')) ∧
    (∃ ys st', Deliveries P party st ys st' ∧ ∀ x, st'.channels x = []) ∧
    ∀ ys st', Deliveries P party st ys st' → (∀ x, st'.channels x = []) → ¬ Oversize st.history →
      ∀ c, timesOpened c st.history ≤ 1 → AtRest c st.history st' := by
  have hstep {u u' : LinkState SK} {y : Side} (hu : Settling P party u) (hd : Delivery P party u y u') :=
    hu.step hP hd
  have hmore {u : LinkState SK} (hu : Settling P party u) (hbusy : ¬ ∀ x, u.channels x = []) :
      ∃ y u', Delivery P party u y u' := by
    push Not at hbusy
    obtain ⟨x,hx⟩ := hbusy
    obtain ⟨u',hd⟩ := hu.progress (y:=x.other) hseal (by rwa [Side.other_other])
    exact ⟨x.other,u',hd⟩
  refine ⟨fun ys st' hd => ?_,?_,fun ys st' hd hrest hsmall c honce => ?_⟩
  · obtain ⟨hle,hlast⟩ := Lists.Along.length_le (fun u : LinkState SK => u.channels.load) hstep h hd
    refine ⟨by omega,?_⟩
    by_cases hrest : ∀ x, st'.channels x = []
    · exact Or.inl hrest
    · exact Or.inr (hmore hlast hrest)
  · exact Lists.Along.reaches (fun u : LinkState SK => u.channels.load) hstep hmore st h
  · obtain ⟨-,hlast⟩ := Lists.Along.length_le (fun u : LinkState SK => u.channels.load) hstep h hd
    exact hlast.linked.atRest hP (deliveries_unsent hd) hsmall honce hrest

end

theorem aliceAndBob_seal_resets : SealsResets .plain aliceAndBob := by
  intro y e c nowMs _
  obtain ⟨reply,hreply⟩ := plain_seals (byte32 7)
    (show (e.frameParams c (header .reset 0 0) [] nowMs 0).payload.length < 2^32 by
      simp [StreamEndpoint.frameParams])
  exact ⟨byte32 7,reply,hreply⟩

theorem settling_of_check {st : LinkState Bytes32}
    (hr : Linked .plain aliceAndBob st.history st.world st.channels)
    (h : ([Side.a,Side.b].all fun x => (st.channels x).all fun s => decide (s.params.expiresAt = 0)) = true)
    (hroom : st.history.length+st.channels.load < 2^64) : Settling .plain aliceAndBob st := by
  simp only [List.all_eq_true,decide_eq_true_eq] at h
  refine ⟨hr,fun x s hs => Or.inl (h x ?_ s hs),hroom⟩
  cases x <;> simp

/-- A CREDIT and a DATA cross, and are both taken. -/
theorem crossing_frames_settle : ∃ (st st' : LinkState Bytes32) (ys : List Side),
    Linked .plain aliceAndBob st.history st.world st.channels ∧
    Deliveries .plain aliceAndBob st ys st' ∧ st.channels .a ≠ [] ∧ st.channels .b ≠ [] ∧
    (∀ x, st'.channels x = []) ∧ ys.length ≤ 4 ∧ AtRest (byte32 8) st.history st' := by
  obtain ⟨st,hr,hcheck⟩ := linked_of_check .plain aliceAndBob default
    (joining (byte32 8) 4 1000++([.call .a (byte32 8) (.sendData [1]) 1000 0,
      .call .b (byte32 8) (.grantCredit 3) 1000 0] : List Move))
    (fun st => withinBounds st.history &&
      ([Side.a,Side.b].all fun x => (st.channels x).all fun s => decide (s.params.expiresAt = 0)) &&
      decide (st.history.length = 6 ∧ st.channels.load = 4) &&
      !(st.channels .a).isEmpty && !(st.channels .b).isEmpty) (by decide +kernel)
  simp only [Bool.and_eq_true,decide_eq_true_eq,Bool.not_eq_true',List.isEmpty_eq_false_iff] at hcheck
  obtain ⟨⟨⟨⟨hbounds,hexp⟩,hlen,hload⟩,ha⟩,hb⟩ := hcheck
  have hset := settling_of_check hr hexp (by rw [hlen,hload]; decide)
  obtain ⟨hall,⟨ys,st',hd,hrest⟩,hend⟩ := link_settles Primitives.plain_lawful hset
    aliceAndBob_seal_resets
  have hbound := bounded_of_check hbounds
  exact ⟨st,st',ys,hr,hd,ha,hb,hrest,hload ▸ (hall ys st' hd).1,
    hend ys st' hd hrest hbound.small (byte32 8) (hbound.once _)⟩

end DigMessage
