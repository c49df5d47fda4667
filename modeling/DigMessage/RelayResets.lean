import DigMessage.RelayDelivery

/-! A RESET never begets a RESET. Each one an accept answers with is charged to the frame it
answers, which the peer sealed by a call of its own and this side admits only once. -/
namespace DigMessage
open FixedWidth

theorem Receives.reset {slot slot' : Option StreamSession} {full : Bool} {hdr : StreamHeader}
    {payload : List UInt8} {frame : StreamFrame} {cause : MessageError}
    (h : Receives slot full hdr payload frame (.reset cause) slot') :
    frame ≠ .reset ∧ (frame = .open ∨ slot ≠ none) := by
  cases h with
  | reopened cause hs => exact ⟨nofun,Or.inl rfl⟩
  | refused cause hs hf => exact ⟨nofun,Or.inl rfl⟩
  | violated cause hs hf ho hn => exact ⟨hf,Or.inr (by simp [hs])⟩

section
variable {SK : Type} {P : Primitives SK} {party : Side → Party SK} {tr : History SK} {w : World SK}

namespace Event

def resets (ev : Event SK) : Bool :=
  match ev.outcome with
  | .accepted (.ok (.reset _ _)) => true
  | _ => false

/-- A successful `open`, `open_ack`, `send_data`, `grant_credit` or `close`. -/
def sends (ev : Event SK) : Bool :=
  match ev.input,ev.outcome with
  | .call _ r _ _ _,.called (.ok _) => r.kind ≠ .reset
  | _,_ => false

end Event

theorem resets_cases {ev : Event SK} {e' : StreamEndpoint SK}
    (hp : ev.input.perform P ev.before = some (ev.outcome,e')) (hr : ev.resets = true) :
    ∃ envelope resolveSenderPub nowMs order entropy shape inner hdr frame,
      ev.input = .accept envelope resolveSenderPub nowMs order entropy ∧
      authenticate P ev.before.identitySk envelope resolveSenderPub = .ok (shape,inner) ∧
      ev.refused P = false ∧ envelope.stream = some hdr ∧ StreamFrame.fromU8 hdr.frame = some frame ∧
      frame ≠ .reset ∧ (frame = .open ∨ envelope.correlationId ∈ ev.before.sessions) := by
  unfold Event.resets at hr
  split at hr
  · rename_i reply cause hout
    cases hi : ev.input with
    | call c r nowMs expiresAt entropy =>
      rw [hi] at hp
      obtain ⟨res,hres,-⟩ := Input.perform_call P hp
      rw [hout] at hres
      cases hres
    | accept envelope resolveSenderPub nowMs order entropy =>
      rw [hi] at hp
      obtain ⟨res,hres,hacc⟩ := Input.perform_accept P hp
      rw [hout] at hres
      cases hres
      cases hacc with
      | answered hopen ha hr' hn hseal =>
        obtain ⟨err,ho,-⟩ | ⟨shape,inner,g',had,-⟩ := openMessage_cases P order
          ev.before.identitySk envelope resolveSenderPub nowMs ev.before.guard
        · rw [ho] at hopen
          cases hopen
        · obtain ⟨hk,hlive⟩ := hr'.reset
          refine ⟨_,_,_,_,_,_,_,_,_,rfl,had.authentic,?_,ha.stream,ha.kind,hk,?_⟩
          · simpa [Event.refused,hi] using (admits_iff P).mpr ⟨shape,inner,g',had⟩
          · refine hlive.imp_right fun hs => ?_
            obtain ⟨s,hs⟩ := Option.ne_none_iff_exists'.mp hs
            exact Finmap.mem_of_lookup_eq_some hs
  · cases hr

/-- The frame a RESET answers was sealed earlier by a call of the peer. -/
theorem Relayed.reset_source (hd : (party .a).did ≠ (party .b).did)
    (h : Relayed P (startWorld P party) tr w) {i : ℕ} {y : Side} {ev : Event SK}
    (hi : tr[i]? = some (y,ev)) (hr : ev.resets = true) :
    ∃ j < i, ∃ sent s, tr[j]? = some (y.other,sent) ∧ sent.sealed? = some s ∧ sent.sends = true ∧
      sent.returned? = some s.envelope ∧ ev.presented? = some s.envelope ∧ ev.refused P = false ∧
      ev.Presents P (party y.other).key s.frame.counter := by
  obtain ⟨w₁,e',hr₁,hb,hp,hg,-⟩ := h.at_index hi
  obtain ⟨envelope,resolveSenderPub,nowMs,order,entropy,shape,inner,hdr,frame,hin,ha,hn,hstream,hkind,
    hk,-⟩ := resets_cases hp hr
  obtain ⟨s,hs,r',n',o',en',hin',hy⟩ := hr₁.genuine_crosses hd hb hin (hg _ _ _ _ _ hin) ha
  rw [hin] at hin'
  cases hin'
  have hsound := hr₁.sound y.other s hs
  -- the frame is no RESET, so it was sealed by a call
  have hkind' : s.frame.kind ≠ .reset := by
    have h₁ := hsound.stream
    rw [hstream] at h₁
    cases h₁
    have h₂ := hsound.kind
    rw [hkind] at h₂
    cases h₂
    exact hk
  obtain ⟨j,sent,hj,hsent⟩ := mem_sealedBy.mp hs
  obtain ⟨hji,hj⟩ := Lists.getElem?_take_eq_some.mp hj
  have hcall : sent.sends = true ∧ sent.returned? = some s.envelope := by
    have hs' := hsent
    unfold Event.sealed? at hs'
    split at hs'
    · rename_i c r nowMs expiresAt entropy envelope h₁ h₂
      cases hs'
      have hr' : r.kind ≠ .reset := hkind'
      exact ⟨by simpa [Event.sends,h₁,h₂] using hr',by simp [Event.returned?,h₂,sealedFrame]⟩
    · cases hs'
      exact absurd rfl hkind'
    · cases hs'
  refine ⟨j,hji,sent,s,hj,hsent,hcall.1,hcall.2,by simp [Event.presented?,hin],hn,?_⟩
  exact ⟨_,_,_,_,_,_,_,hin,ha,hsound.sender.symm,(hy _ _ ha).counter hsound |>.symm⟩

/-- A RESET never begets a RESET. The RESETs accepts answer with are charged, each to its own,
to earlier calls of the peer that sealed no RESET, whose envelope the accept was presented
with; an accept of a RESET, of a refused envelope, or of another frame of an unknown stream
answers nothing; and there are no more answers than such calls. -/
theorem resets_charged (hd : (party .a).did ≠ (party .b).did)
    (h : Relayed P (startWorld P party) tr w) :
    (∃ charge : ℕ → ℕ,
      (∀ (i : ℕ) (y : Side) (ev : Event SK), tr[i]? = some (y,ev) → ev.resets = true → charge i < i ∧
        ∃ sent envelope, tr[charge i]? = some (y.other,sent) ∧ sent.sends = true ∧
          sent.returned? = some envelope ∧ ev.presented? = some envelope) ∧
      Set.InjOn charge {i | ∃ p, tr[i]? = some p ∧ p.2.resets = true}) ∧
    (∀ (i : ℕ) (y : Side) (ev : Event SK), tr[i]? = some (y,ev) → ev.resets = true → ev.refused P = false ∧
      ∃ envelope hdr frame, ev.presented? = some envelope ∧ envelope.stream = some hdr ∧
        StreamFrame.fromU8 hdr.frame = some frame ∧ frame ≠ .reset ∧
        (frame = .open ∨ envelope.correlationId ∈ ev.before.sessions)) ∧
    tr.countP (fun p => p.2.resets) ≤ tr.countP (fun p => p.2.sends) := by
  have hex : ∀ i : ℕ, ∃ j : ℕ, ∀ (y : Side) (ev : Event SK), tr[i]? = some (y,ev) → ev.resets = true →
      j < i ∧ ∃ sent s, tr[j]? = some (y.other,sent) ∧ sent.sealed? = some s ∧ sent.sends = true ∧
        sent.returned? = some s.envelope ∧ ev.presented? = some s.envelope ∧ ev.refused P = false ∧
        ev.Presents P (party y.other).key s.frame.counter := by
    intro i
    by_cases hi : ∃ (y : Side) (ev : Event SK), tr[i]? = some (y,ev) ∧ ev.resets = true
    · obtain ⟨y,ev,hi,hr⟩ := hi
      obtain ⟨j,hj,hrest⟩ := h.reset_source hd hi hr
      refine ⟨j,fun y' ev' hi' _ => ?_⟩
      rw [hi] at hi'
      cases hi'
      exact ⟨hj,hrest⟩
    · exact ⟨0,fun y ev hi' hr => absurd ⟨y,ev,hi',hr⟩ hi⟩
  choose charge hcharge using hex
  have hinj : Set.InjOn charge {i | ∃ p, tr[i]? = some p ∧ p.2.resets = true} := by
    rintro i ⟨⟨y,ev⟩,hi,hr⟩ j ⟨⟨z,ev'⟩,hj,hr'⟩ hij
    obtain ⟨-,sent,s,hs,hseal,-,-,-,hn,hp⟩ := hcharge i y ev hi hr
    obtain ⟨-,sent',s',hs',hseal',-,-,-,hn',hp'⟩ := hcharge j z ev' hj hr'
    rw [← hij,hs] at hs'
    simp only [Option.some.injEq,Prod.mk.injEq,Side.other_inj] at hs'
    obtain ⟨rfl,rfl⟩ := hs'
    rw [hseal] at hseal'
    cases hseal'
    exact h.admitted_once hi hj hn hn' hp hp'
  refine ⟨⟨charge,?_,hinj⟩,?_,?_⟩
  · intro i y ev hi hr
    obtain ⟨hlt,sent,s,hs,-,hsends,hret,hpres,-⟩ := hcharge i y ev hi hr
    exact ⟨hlt,sent,s.envelope,hs,hsends,hret,hpres⟩
  · intro i y ev hi hr
    obtain ⟨w₁,e',-,-,hp,-⟩ := h.at_index hi
    obtain ⟨envelope,_,_,_,_,_,_,hdr,frame,hin,-,hn,hstream,hkind,hk,hlive⟩ := resets_cases hp hr
    exact ⟨hn,envelope,hdr,frame,by simp [Event.presented?,hin],hstream,hkind,hk,hlive⟩
  · refine Lists.countP_le_of_injOn charge ?_ hinj
    rintro i ⟨y,ev⟩ hi hr
    obtain ⟨-,sent,s,hs,-,hsends,-⟩ := hcharge i y ev hi hr
    exact ⟨_,hs,hsends⟩

end

/-- A CLOSE before the handshake ends is answered with a RESET, which then tears down the
other side. -/
def closedEarly (c : Bytes32) : List Action :=
  [.call .a c (.open 4) 1000 0,.call .a c .close 1000 0,.present .b .a 0 1001,.present .b .a 1 1001,
    .present .b .a 1 1002,.present .a .b 0 1002]

theorem closed_early_charged : ∃ tr w, Relayed .plain (startWorld .plain aliceAndBob) tr w ∧
    tr.countP (fun p => p.2.resets) = 1 ∧
    tr.countP (fun p => p.2.resets) ≤ tr.countP (fun p => p.2.sends) := by
  obtain ⟨tr,w,hr,hc⟩ := aliceAndBob_run default (closedEarly (byte32 9))
    (fun tr => tr.countP (fun p => p.2.resets) = 1) (by decide +kernel)
  exact ⟨tr,w,hr,of_decide_eq_true hc,(resets_charged alice_ne_bob hr).2.2⟩

end DigMessage
