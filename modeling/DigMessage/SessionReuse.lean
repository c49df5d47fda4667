import DigMessage.RelayDelivery

/-! Opening a stream's id again. Sequence numbers restart with each session while the
anti-replay table tolerates late frames, so a frame held back from an earlier session can
fit the next one. It cannot where nothing of the earlier session is left to admit. -/
namespace DigMessage
open FixedWidth

section
variable {SK : Type} (P : Primitives SK)

namespace Event

def after (ev : Event SK) : Option (StreamEndpoint SK) := (ev.input.perform P ev.before).map Prod.snd

def starts (c : Bytes32) (ev : Event SK) : Bool :=
  (ev.before.sessions.lookup c).isNone && (ev.after P).any fun e => (e.sessions.lookup c).isSome

end Event

def worldAfter (w₀ : World SK) (tr : History SK) : World SK :=
  tr.foldl (fun w p => match p.2.after P with
    | some e => Function.update w p.1 e
    | none => w) w₀

/-- The `open` calls the latest session of side `x` on stream `c` goes back to, from the
newest event: the call that started it, or those that returned the OPEN it was started by. -/
def originsOf (x : Side) (c : Bytes32) : History SK → List ℕ
  | [] => []
  | (y,ev)::past =>
    if y = x ∧ ev.starts P c = true then
      match ev.presented? with
      | none => [past.length]
      | some envelope => (List.range past.length).filter fun o => past.reverse[o]?.any fun p =>
        p.1 = x.other && p.2.opens c && p.2.returned? = some envelope
    else originsOf x c past

def origins (x : Side) (c : Bytes32) (tr : History SK) : List ℕ := originsOf P x c tr.reverse

/-- The payload reported at `i` was sent by the peer, in the session of stream `c` that goes
back to the same `open` as the one it was reported in. -/
def FromMatchingSession (c : Bytes32) (tr : History SK) (i : ℕ) (y : Side) (ev : Event SK)
    (payload : List UInt8) : Prop :=
  ∃ (j : ℕ) (sent : Event SK), j < i ∧ tr[j]? = some (y.other,sent) ∧
    sent.dataSent? c = some payload ∧ sent.returned? = ev.presented? ∧
    ∃ o, o ∈ origins P y c (tr.take i) ∧ o ∈ origins P y.other c (tr.take j)

/-- Neither side holds a session of stream `c`, and no OPEN or DATA frame sealed on it would
still be admitted by its receiver's table. -/
def Settled (party : Side → Party SK) (c : Bytes32) (tr : History SK) (w : World SK) : Prop :=
  ∀ x, (w x).sessions.lookup c = none ∧ ∀ s ∈ sealedBy x tr, s.params.correlationId = c →
    s.frame.kind = .open ∨ s.frame.kind = .data →
    (w x.other).guard.Seen (party x).key s.frame.counter

/-- Every `open` that starts a session of stream `c` finds the stream settled. -/
def ReusedSettled (party : Side → Party SK) (c : Bytes32) (tr : History SK) : Prop :=
  ∀ (i : ℕ) (x : Side) (ev : Event SK), tr[i]? = some (x,ev) → ev.presented? = none →
    ev.starts P c = true →
    Settled party c (tr.take i) (worldAfter P (startWorld P party) (tr.take i))

instance (party : Side → Party SK) (c : Bytes32) (tr : History SK) (w : World SK) :
    Decidable (Settled party c tr w) :=
  inferInstanceAs (Decidable (∀ x, _ ∧ ∀ s ∈ sealedBy x tr, _ → _ → _))

instance (party : Side → Party SK) (c : Bytes32) (tr : History SK) :
    Decidable (ReusedSettled P party c tr) :=
  decidable_of_iff (∀ i < tr.length, ∀ p ∈ tr[i]?, p.2.presented? = none → p.2.starts P c = true →
    Settled party c (tr.take i) (worldAfter P (startWorld P party) (tr.take i)))
    ⟨fun h i x ev hi => h i (List.getElem?_eq_some_iff.mp hi).1 (x,ev) hi,
      fun h i _ p hp => h i p.1 p.2 hp⟩

variable {P}

theorem Relayed.world_eq {w₀ w : World SK} {tr : History SK} (h : Relayed P w₀ tr w) :
    w = worldAfter P w₀ tr := by
  induction h with
  | nil => rfl
  | snoc hr hb hp hg ih =>
    simp only [worldAfter,List.foldl_append,List.foldl_cons,List.foldl_nil] at ih ⊢
    rw [← ih]
    simp [Event.after,hp]

theorem starts_iff {c : Bytes32} {ev : Event SK} {e' : StreamEndpoint SK}
    (hp : ev.input.perform P ev.before = some (ev.outcome,e')) :
    ev.starts P c = true ↔ ev.before.sessions.lookup c = none ∧ e'.sessions.lookup c ≠ none := by
  simp [Event.starts,Event.after,hp,Option.isSome_iff_ne_none]

theorem origins_snoc {x y : Side} {c : Bytes32} {tr : History SK} {ev : Event SK}
    (h : ¬ (y = x ∧ ev.starts P c = true)) : origins P x c (tr++[(y,ev)]) = origins P x c tr := by
  simp [origins,originsOf,h]

theorem origins_open {x : Side} {c : Bytes32} {tr : History SK} {ev : Event SK}
    (h : ev.starts P c = true) (hn : ev.presented? = none) :
    origins P x c (tr++[(x,ev)]) = [tr.length] := by
  simp [origins,originsOf,h,hn]

theorem mem_origins_join {x : Side} {c : Bytes32} {tr : History SK} {ev sent : Event SK}
    {envelope : DigMessageEnvelope} {o : ℕ} (h : ev.starts P c = true)
    (hn : ev.presented? = some envelope) (ho : tr[o]? = some (x.other,sent))
    (hs : sent.opens c = true) (hr : sent.returned? = some envelope) :
    o ∈ origins P x c (tr++[(x,ev)]) := by
  have hlt := (List.getElem?_eq_some_iff.mp ho).1
  simp only [origins,List.reverse_append,List.reverse_singleton,List.singleton_append,originsOf,h,hn,
    and_self,if_true,List.reverse_reverse,List.length_reverse,List.mem_filter,List.mem_range]
  exact ⟨hlt,by simp [ho,hs,hr]⟩

theorem sealed_open {ev : Event SK} {e' : StreamEndpoint SK} {s : SealedFrame SK}
    (hp : ev.input.perform P ev.before = some (ev.outcome,e')) (hs : ev.sealed? = some s)
    (hk : s.frame.kind = .open) : ev.starts P s.params.correlationId = true ∧ ev.presented? = none ∧
      ev.opens s.params.correlationId = true ∧ ev.returned? = some s.envelope := by
  unfold Event.sealed? at hs
  split at hs
  · rename_i c r nowMs expiresAt entropy envelope hi hout
    cases hs
    have hr : r.kind = .open := hk
    have hp' := hp
    rw [hi] at hp'
    obtain ⟨res,hres,hcall⟩ := Input.perform_call P hp'
    rw [hout] at hres
    cases hres
    cases hcall with
    | @«sealed» hdr after failed next _ hsend hn hseal =>
      cases r with
      | «open» w =>
        refine ⟨(starts_iff hp).mpr ?_,?_⟩
        · change ev.before.sessions.lookup c = none ∧
            (putSession ev.before.sessions c after).lookup c ≠ none
          rw [lookup_putSession_self]
          generalize ev.before.sessions.lookup c = slot at hsend
          cases hsend with
          | «open» w => exact ⟨rfl,by simp⟩
          | live hs => cases hs
        · simp [Event.presented?,Event.opens,Event.returned?,hi,hout,sealedFrame,
            StreamEndpoint.frameParams]
      | openAck w => cases hr
      | sendData payload => cases hr
      | grantCredit n => cases hr
      | close => cases hr
      | reset => cases hr
  · cases hs
    cases hk
  · cases hs

theorem sealed_data {ev : Event SK} {e' : StreamEndpoint SK} {s : SealedFrame SK}
    (hp : ev.input.perform P ev.before = some (ev.outcome,e')) (hs : ev.sealed? = some s)
    (hk : s.frame.kind = .data) : ev.before.sessions.lookup s.params.correlationId ≠ none ∧
      ev.dataSent? s.params.correlationId = some s.frame.payload ∧ ev.returned? = some s.envelope := by
  unfold Event.sealed? at hs
  split at hs
  · rename_i c r nowMs expiresAt entropy envelope hi hout
    cases hs
    have hr : r.kind = .data := hk
    have hp' := hp
    rw [hi] at hp'
    obtain ⟨res,hres,hcall⟩ := Input.perform_call P hp'
    rw [hout] at hres
    cases hres
    cases hcall with
    | @«sealed» hdr after failed next _ hsend hn hseal =>
      cases r with
      | sendData payload =>
        refine ⟨?_,?_⟩
        · change ev.before.sessions.lookup c ≠ none
          generalize ev.before.sessions.lookup c = slot at hsend
          cases hsend with
          | live hs => simp
        · simp [Event.dataSent?,Event.returned?,hi,hout,sealedFrame,StreamEndpoint.frameParams,
            Request.payload]
      | «open» w => cases hr
      | openAck w => cases hr
      | grantCredit n => cases hr
      | close => cases hr
      | reset => cases hr
  · cases hs
    cases hk
  · cases hs

theorem Receives.starts {full : Bool} {hdr : StreamHeader} {payload : List UInt8}
    {frame : StreamFrame} {reaction : Reaction} {s : StreamSession}
    (h : Receives none full hdr payload frame reaction (some s)) : frame = .open := by
  generalize hn : (none : Option StreamSession) = slot at h
  generalize hs' : some s = slot' at h
  cases h with
  | opened hs hf => rfl
  | accepted hs hf hr hrecv => rw [← hn] at hs; cases hs
  | peerReset hs => cases hs'
  | strayReset cause hs => cases hs'
  | reopened cause hs => cases hs'
  | refused cause hs hf => cases hs'
  | stray cause hs hf ho => cases hs'
  | violated cause hs hf ho hn => cases hs'

/-- The sessions of stream `c`, and the OPEN and DATA frames that may still be admitted, go
back to the `open` at `o`. -/
structure OneSession (P : Primitives SK) (party : Side → Party SK) (c : Bytes32) (tr : History SK)
    (w : World SK) (o : ℕ) : Prop where
  live : ∀ x, (w x).sessions.lookup c ≠ none → o ∈ origins P x c tr
  data : ∀ (x : Side) (j : ℕ) (sent : Event SK) (s : SealedFrame SK), tr[j]? = some (x,sent) →
    sent.sealed? = some s → s.params.correlationId = c → s.frame.kind = .data →
    ¬ (w x.other).guard.Seen (party x).key s.frame.counter → o ∈ origins P x c (tr.take j)
  start : ∀ (x : Side) (j : ℕ) (sent : Event SK) (s : SealedFrame SK), tr[j]? = some (x,sent) →
    sent.sealed? = some s → s.params.correlationId = c → s.frame.kind = .open →
    ¬ (w x.other).guard.Seen (party x).key s.frame.counter →
    o = j ∧ sent.opens c = true ∧ sent.returned? = some s.envelope

variable {party : Side → Party SK} {c : Bytes32} {tr : History SK} {w : World SK}

theorem OneSession.nil (c : Bytes32) (o : ℕ) : OneSession P party c [] (startWorld P party) o where
  live x h := absurd rfl h
  data x j sent s h := by simp at h
  start x j sent s h := by simp at h

namespace OneSession
variable {o : ℕ} {x : Side} {ev : Event SK} {e' : StreamEndpoint SK}

/-- An `open` that starts a session on a settled stream is all the stream goes back to. -/
theorem begin (hr : Relayed P (startWorld P party) tr w) (hb : ev.before = w x)
    (hp : ev.input.perform P ev.before = some (ev.outcome,e')) (hs : ev.starts P c = true)
    (hn : ev.presented? = none) (hset : Settled party c tr w) :
    OneSession P party c (tr++[(x,ev)]) (Function.update w x e') tr.length where
  live z hl := by
    by_cases hz : z = x
    · subst hz
      rw [origins_open hs hn]
      exact List.mem_singleton_self _
    · rw [Function.update_of_ne hz] at hl
      exact absurd (hset z).1 hl
  data z j sent s hj hsent hc hk hun := by
    obtain ⟨-,hj⟩ | ⟨-,he⟩ := Lists.getElem?_snoc_cases hj
    · exact absurd ((hset z).2 s (mem_sealedBy.mpr ⟨j,sent,hj,hsent⟩) hc (Or.inr hk))
        (hr.unseen_before hb hp hun)
    · cases he
      have hlive := (sealed_data hp hsent hk).1
      rw [hc] at hlive
      exact absurd ((starts_iff hp).mp hs).1 hlive
  start z j sent s hj hsent hc hk hun := by
    obtain ⟨-,hj⟩ | ⟨rfl,he⟩ := Lists.getElem?_snoc_cases hj
    · exact absurd ((hset z).2 s (mem_sealedBy.mpr ⟨j,sent,hj,hsent⟩) hc (Or.inl hk))
        (hr.unseen_before hb hp hun)
    · cases he
      obtain ⟨-,-,ho,hret⟩ := sealed_open hp hsent hk
      rw [hc] at ho
      exact ⟨rfl,ho,hret⟩

theorem step (h : OneSession P party c tr w o) (hr : Relayed P (startWorld P party) tr w)
    (hb : ev.before = w x) (hp : ev.input.perform P ev.before = some (ev.outcome,e'))
    (hjoin : ev.starts P c = true → ∃ s ∈ sealedBy x.other tr, ev.presented? = some s.envelope ∧
      s.params.correlationId = c ∧ s.frame.kind = .open ∧
      ¬ (w x).guard.Seen (party x.other).key s.frame.counter) :
    OneSession P party c (tr++[(x,ev)]) (Function.update w x e') o where
  live z hl := by
    by_cases hz : z = x
    · subst hz
      rw [Function.update_self] at hl
      by_cases hs : ev.starts P c = true
      · obtain ⟨s,hmem,hpres,hc,hk,hun⟩ := hjoin hs
        obtain ⟨j,sent,hj,hsent⟩ := mem_sealedBy.mp hmem
        obtain ⟨rfl,hopens,hret⟩ := h.start z.other j sent s hj hsent hc hk
          (by rw [Side.other_other]; exact hun)
        exact mem_origins_join hs hpres hj hopens hret
      · rw [origins_snoc (by simp [hs])]
        refine h.live z fun hnone => hs ((starts_iff hp).mpr ⟨?_,hl⟩)
        rw [hb,hnone]
    · rw [Function.update_of_ne hz] at hl
      rw [origins_snoc fun hx => hz hx.1.symm]
      exact h.live z hl
  data z j sent s hj hsent hc hk hun := by
    obtain ⟨hlt,hj⟩ | ⟨rfl,he⟩ := Lists.getElem?_snoc_cases hj
    · rw [List.take_append_of_le_length (by omega)]
      exact h.data z j sent s hj hsent hc hk (hr.unseen_before hb hp hun)
    · cases he
      rw [List.take_left]
      have hlive := (sealed_data hp hsent hk).1
      rw [hc,hb] at hlive
      exact h.live x hlive
  start z j sent s hj hsent hc hk hun := by
    obtain ⟨-,hj⟩ | ⟨rfl,he⟩ := Lists.getElem?_snoc_cases hj
    · exact h.start z j sent s hj hsent hc hk (hr.unseen_before hb hp hun)
    · cases he
      obtain ⟨hs,hn,-⟩ := sealed_open hp hsent hk
      rw [hc] at hs
      obtain ⟨s',-,hpres,-⟩ := hjoin hs
      rw [hn] at hpres
      cases hpres

end OneSession

theorem Relayed.starts_of_accept (hz : P.ZstdLossless) (hd : (party .a).did ≠ (party .b).did)
    (hr : Relayed P (startWorld P party) tr w) {x : Side} {ev : Event SK} {e' : StreamEndpoint SK}
    (hb : ev.before = w x) (hp : ev.input.perform P ev.before = some (ev.outcome,e'))
    (hg : ∀ envelope resolveSenderPub nowMs order entropy,
      ev.input = .accept envelope resolveSenderPub nowMs order entropy →
      Genuine P tr ev.before envelope resolveSenderPub)
    (hs : ev.starts P c = true) (hn : ev.presented? ≠ none) :
    ∃ s ∈ sealedBy x.other tr, ev.presented? = some s.envelope ∧ s.params.correlationId = c ∧
      s.frame.kind = .open ∧ ¬ (w x).guard.Seen (party x.other).key s.frame.counter := by
  obtain ⟨hempty,hlive⟩ := (starts_iff hp).mp hs
  cases hi : ev.input with
  | call d r nowMs expiresAt entropy => simp [Event.presented?,hi] at hn
  | accept envelope resolveSenderPub nowMs order entropy =>
    obtain ⟨hsame,-⟩ | ⟨s,hmem,reaction,slot,res,henv,-,ht⟩ :=
      hr.accept_cases hz hd hb hp hi (hg _ _ _ _ _ hi)
    · rw [hsame] at hlive
      exact absurd hempty hlive
    · have hc : s.params.correlationId = c := by
        by_contra hc
        rw [ht.sessions,lookup_putSession_ne _ _ (Ne.symm hc)] at hlive
        exact hlive hempty
      subst hc
      have hrecv := ht.receives
      rw [ht.sessions,lookup_putSession_self] at hlive
      obtain ⟨t,rfl⟩ := Option.ne_none_iff_exists'.mp hlive
      rw [hempty] at hrecv
      exact ⟨s,hmem,by simp [Event.presented?,hi,henv],rfl,hrecv.starts,hb ▸ ht.unseen⟩

/-- Where every re-use of the id finds the stream settled, the stream always goes back to one
`open`. -/
theorem Relayed.oneSession (hz : P.ZstdLossless) (hd : (party .a).did ≠ (party .b).did)
    (hr : Relayed P (startWorld P party) tr w) (hreuse : ReusedSettled P party c tr) :
    ∃ o, OneSession P party c tr w o := by
  induction hr with
  | nil => exact ⟨0,.nil c 0⟩
  | @snoc tr w x ev e' hr hb hp hg ih =>
    have hprev : ReusedSettled P party c tr := by
      intro i z ev' hi hn hs
      have hlt := (List.getElem?_eq_some_iff.mp hi).1
      have := hreuse i z ev' (by rw [List.getElem?_append_left hlt,hi]) hn hs
      rwa [List.take_append_of_le_length (by omega)] at this
    obtain ⟨o,ho⟩ := ih hprev
    by_cases hopen : ev.starts P c = true ∧ ev.presented? = none
    · have hset := hreuse tr.length x ev (by simp) hopen.2 hopen.1
      rw [List.take_left,← hr.world_eq] at hset
      exact ⟨tr.length,.begin hr hb hp hopen.1 hopen.2 hset⟩
    · refine ⟨o,ho.step hr hb hp fun hs => ?_⟩
      exact hr.starts_of_accept hz hd hb hp hg hs fun hn => hopen ⟨hs,hn⟩

/-- Where every re-use of an id finds its stream settled, each payload reported was sent in
the peer's session of the same `open`. -/
theorem data_from_matching_session (hz : P.ZstdLossless) (hd : (party .a).did ≠ (party .b).did)
    (hr : Relayed P (startWorld P party) tr w) (hreuse : ReusedSettled P party c tr) {i : ℕ}
    {y : Side} {ev : Event SK} {payload : List UInt8} (hi : tr[i]? = some (y,ev))
    (hdata : ev.dataReported? c = some payload) : FromMatchingSession P c tr i y ev payload := by
  obtain ⟨w₁,e',hr₁,hb,hp,hg,-⟩ := hr.at_index hi
  have hprev : ReusedSettled P party c (tr.take i) := by
    intro k z ev' hk hn hs
    obtain ⟨hlt,hk'⟩ := Lists.getElem?_take_eq_some.mp hk
    have := hreuse k z ev' hk' hn hs
    rwa [List.take_take,Nat.min_eq_left hlt.le]
  obtain ⟨o,ho⟩ := hr₁.oneSession hz hd hprev
  unfold Event.dataReported? at hdata
  split at hdata
  · rename_i envelope resolveSenderPub nowMs order entropy p hin hout
    split at hdata
    · cases hdata
      rename_i hcid
      obtain ⟨-,-,hq⟩ | ⟨s,hmem,reaction,slot,res,rfl,hout',ht⟩ :=
        hr₁.accept_cases hz hd hb hp hin (hg _ _ _ _ _ hin)
      · have := (hq c).reported
        simp [Event.dataReported?,hin,hout,hcid] at this
      · have hsound := hr₁.sound y.other s hmem
        have hc : s.params.correlationId = c := by rw [← hsound.correlationId,hcid]
        rw [hout] at hout'
        cases hout'
        have hrecv := ht.receives
        have hreaction : reaction = .event (.data payload) := by
          have hrep := ht.reported
          cases reaction with
          | event e =>
            simp only [Reaction.Reported,Except.ok.injEq,StreamAccept.event.injEq] at hrep
            rw [hrep]
          | dropped cause => simp [Reaction.Reported] at hrep
          | reset cause => simp [Reaction.Reported] at hrep
        rw [hreaction] at hrecv
        obtain ⟨t,hslot,-,hk,-,rfl⟩ := hrecv.data
        obtain ⟨j,sent,hj,hsent⟩ := mem_sealedBy.mp hmem
        obtain ⟨hlt,hj'⟩ := Lists.getElem?_take_eq_some.mp hj
        obtain ⟨w₂,e₂,-,-,hp₂,-⟩ := hr₁.at_index hj
        obtain ⟨-,hsentdata,hret⟩ := sealed_data hp₂ hsent hk
        rw [hc] at hslot hsentdata
        refine ⟨j,sent,hlt,hj',hsentdata,by simp [hret,Event.presented?,hin],o,?_,?_⟩
        · exact ho.live y (by rw [← hb,hslot]; simp)
        · have := ho.data y.other j sent s hj hsent hc hk
            (by rw [Side.other_other,← hb]; exact ht.unseen)
          rwa [List.take_take,Nat.min_eq_left hlt.le] at this
    · cases hdata
  · cases hdata

end
/-- Every payload reported was sent in the peer's session of the same `open`. -/
def SessionsIsolated {SK : Type} (P : Primitives SK) (party : Side → Party SK) : Prop :=
  ∀ (tr : History SK) (w : World SK) (c : Bytes32) (i : ℕ) (y : Side) (ev : Event SK)
    (payload : List UInt8), Relayed P (startWorld P party) tr w → forgesNothing tr = true →
    tr[i]? = some (y,ev) → ev.dataReported? c = some payload →
    FromMatchingSession P c tr i y ev payload

/-- A DATA frame is held back over a RESET and a new OPEN, and then presented. -/
def heldBack (c : Bytes32) : List Action :=
  establish c 4 1000++([.call .a c (.sendData [1]) 1001 0,.call .a c .reset 1002 0,
    .present .b .a 2 1003,.call .a c (.open 4) 1004 0,.present .b .a 3 1005,
    .call .b c (.openAck 4) 1006 0,.present .a .b 1 1007,.present .b .a 1 1008] : List Action)

/-- The frame is reported, in a session of another `open` than its own. -/
def crossed (c : Bytes32) (tr : History Bytes32) : Bool :=
  forgesNothing tr && tr[11]?.any (fun p => p.1 = .b && p.2.dataReported? c = some [1]) &&
    (List.range 11).all fun j => tr[j]?.all fun p => p.2.dataSent? c ≠ some [1] ||
      (origins .plain .b c (tr.take 11)).all fun o => o ∉ origins .plain .a c (tr.take j)

theorem held_back_crosses : ¬ SessionsIsolated .plain aliceAndBob := by
  intro h
  obtain ⟨tr,w,hr,hc⟩ := aliceAndBob_run default (heldBack (byte32 9)) (crossed (byte32 9))
    (by decide +kernel)
  simp only [crossed,Bool.and_eq_true,decide_eq_true_eq,Option.any_eq_true,List.all_eq_true] at hc
  obtain ⟨⟨hf,⟨y,ev⟩,hi,rfl,hdata⟩,hall⟩ := hc
  obtain ⟨j,sent,hlt,hj,hsent,-,o,ho,ho'⟩ := h tr w (byte32 9) 11 .b ev [1] hr hf hi hdata
  have := hall j (List.mem_range.mpr hlt)
  rw [hj] at this
  simp only [Option.all_some,hsent,ne_eq,not_true,decide_false,Bool.false_or,List.all_eq_true,
    decide_eq_true_eq] at this
  exact this o ho ho'

/-- The same, with the frame presented before the id is used again. -/
def drained (c : Bytes32) : List Action :=
  establish c 4 1000++([.call .a c (.sendData [1]) 1001 0,.call .a c .reset 1002 0,
    .present .b .a 2 1003,.present .b .a 1 1003,.call .a c (.open 4) 1004 0,.present .b .a 3 1005,
    .call .b c (.openAck 4) 1006 0,.present .a .b 1 1007,.call .a c (.sendData [2]) 1008 0,
    .present .b .a 4 1009] : List Action)

theorem drained_isolated : ∃ tr w ev, Relayed .plain (startWorld .plain aliceAndBob) tr w ∧
    tr[13]? = some (.b,ev) ∧ FromMatchingSession .plain (byte32 9) tr 13 .b ev [2] := by
  obtain ⟨tr,w,hr,hc⟩ := aliceAndBob_run default (drained (byte32 9)) (fun tr =>
    decide (ReusedSettled .plain aliceAndBob (byte32 9) tr) &&
      tr[13]?.any (fun p => p.1 = .b && p.2.dataReported? (byte32 9) = some [2]))
    (by decide +kernel)
  simp only [Bool.and_eq_true,decide_eq_true_eq,Option.any_eq_true] at hc
  obtain ⟨hreuse,⟨y,ev⟩,hi,rfl,hdata⟩ := hc
  exact ⟨tr,w,ev,hr,hi,
    data_from_matching_session Primitives.plain_lawful.zstd alice_ne_bob hr hreuse hi hdata⟩

end DigMessage
