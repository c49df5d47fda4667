import DigMessage.LinkSchedule

/-! The life of a stream between joined endpoints: what becomes of a CLOSE, and what the two
sides hold once nothing is under way. -/
namespace DigMessage
open FixedWidth

section
variable {SK : Type} {P : Primitives SK} {party : Side → Party SK} {tr : History SK} {w : World SK}
  {ch : Channels SK}

theorem Linked.agreed (hP : P.Lawful) (h : Linked P party tr w ch) {c : Bytes32}
    (honce : timesOpened c tr ≤ 1) : (streamOf c w ch).Agreed := by
  obtain ⟨ls,hrun,htold⟩ := h.projects hP c
  rw [← htold.opened] at honce
  exact hrun.agreed honce

/-- The CLOSE was not punished: it was reported, or its stream was gone. -/
def Event.Graceful (c : Bytes32) (ev : Event SK) : Prop :=
  ev.outcome = .accepted (.ok (.event .remoteClosed)) ∨
  (∃ cause, ev.outcome = .accepted (.ok (.dropped cause))) ∧ ev.before.session c = none

/-- A CLOSE is graceful exactly where it finds no session, or an established one. -/
theorem close_graceful_iff (hP : P.Lawful) (h : Linked P party tr w ch)
    {y : Side} {s : SealedFrame SK} {rest : List (SealedFrame SK)} {ev : Event SK}
    {e' : StreamEndpoint SK} (hd : Delivers P party w ch y s rest ev)
    (hp : ev.input.perform P ev.before = some (ev.outcome,e'))
    (hk : s.frame.kind = .close) (honce : timesOpened s.params.correlationId tr ≤ 1) :
    ev.Graceful s.params.correlationId ↔
      ∀ t, (w y).session s.params.correlationId = some t → t.handshake = .established := by
  have hpair := h.agreed hP honce y
  have hflight : (streamOf s.params.correlationId w ch).flight y.other =
      s.frame::framesOn s.params.correlationId rest := by
    change framesOn _ (ch y.other) = _
    rw [hd.oldest,framesOn_cons,if_pos rfl]
  rw [hflight] at hpair
  change Paired ((w y).session s.params.correlationId) _ _ _ at hpair
  unfold Event.Graceful
  rw [hd.before]
  obtain ⟨_,-,-,hdata,-⟩ | ⟨reaction,slot,res,hout,ht⟩ := h.arrives hP hd hp
  · rw [hk] at hdata
    cases hdata
  · have hrecv := ht.receives
    rw [hk,hd.before] at hrecv
    change Receives ((w y).session s.params.correlationId) _ _ _ _ _ _ at hrecv
    have hrep := ht.reported
    cases hsession : (w y).session s.params.correlationId with
    | none =>
      rw [hsession] at hrecv
      obtain hopen | ⟨-,cause,rfl⟩ := hrecv.none_cases
      · cases hopen
      · rw [show res = _ from hrep] at hout
        exact iff_of_true (Or.inr ⟨⟨cause,hout⟩,rfl⟩) nofun
    | some t =>
      rw [hsession] at hrecv hpair
      have hiff := hpair.close_taken_iff hk hrecv
      have hforall : (∀ u, some t = some u → u.handshake = .established) ↔
          t.handshake = .established := by simp
      rw [hforall,← hiff,hout]
      constructor
      · rintro (he | ⟨-,hnone⟩)
        · cases he
          cases reaction with
          | event e =>
            cases hrep
            rfl
          | dropped cause => cases hrep
          | reset cause => obtain ⟨reply,hres⟩ | ⟨err,hres⟩ := hrep <;> cases hres
        · cases hnone
      · rintro rfl
        rw [show res = _ from hrep]
        exact Or.inl rfl

/-- At rest each stream is held by both sides or by neither, and both hold the two ends of it. -/
theorem sessions_at_rest (hP : P.Lawful) (h : Linked P party tr w ch)
    (honce : ∀ c, timesOpened c tr ≤ 1) (hrest : ∀ x, ch x = []) (c : Bytes32) :
    ((w .a).session c = none ↔ (w .b).session c = none) ∧
    ∀ s t, (w .a).session c = some s → (w .b).session c = some t → s.Ends t := by
  have hpair := h.agreed hP (honce c) .a
  have hidle : ∀ x, (streamOf c w ch).flight x = [] := by
    intro x
    change framesOn c (ch x) = []
    rw [hrest]
    rfl
  rw [hidle,hidle] at hpair
  exact hpair.at_rest

end

/-- Every CLOSE between joined endpoints is graceful. -/
def ClosesGracefully {SK : Type} (P : Primitives SK) (party : Side → Party SK) : Prop :=
  ∀ (tr : History SK) (w : World SK) (ch : Channels SK) (y : Side) (s : SealedFrame SK)
    (rest : List (SealedFrame SK)) (ev : Event SK) (e' : StreamEndpoint SK),
    Linked P party tr w ch → (∀ c, timesOpened c tr ≤ 1) → Delivers P party w ch y s rest ev →
    ev.input.perform P ev.before = some (ev.outcome,e') → ev.Seals e' → s.frame.kind = .close →
    ev.Graceful s.params.correlationId

/-- A CLOSE is the oldest frame on the channel to `b`, no more than one OPEN was sealed, and
`check` holds of the delivery. -/
def closeArrives (order : HashOrder) (check : Event Bytes32 → Bool) (st : LinkState Bytes32) : Bool :=
  decide ((st.history.countP fun p => p.2.opensAny) ≤ 1) &&
  (st.arrival .plain aliceAndBob order .b 1000).any fun p =>
    decide (p.1.1.frame.kind = .close ∧ p.1.1.params.correlationId = byte32 8) && check p.2.1

theorem close_arrives (order : HashOrder) (ms : List Move) (check : Event Bytes32 → Bool)
    (h : (enactMoves .plain aliceAndBob order (.start .plain aliceAndBob) ms).any
      (closeArrives order check) = true) :
    ∃ (st : LinkState Bytes32) (s : SealedFrame Bytes32) (rest : List (SealedFrame Bytes32))
      (ev : Event Bytes32) (e' : StreamEndpoint Bytes32),
      Linked .plain aliceAndBob st.history st.world st.channels ∧
      (∀ c, timesOpened c st.history ≤ 1) ∧
      Delivers .plain aliceAndBob st.world st.channels .b s rest ev ∧
      ev.input.perform .plain ev.before = some (ev.outcome,e') ∧ ev.Seals e' ∧
      s.frame.kind = .close ∧ s.params.correlationId = byte32 8 ∧ check ev = true := by
  obtain ⟨st,hr,hcheck⟩ := linked_of_check .plain aliceAndBob order ms _ h
  simp only [closeArrives,Bool.and_eq_true,decide_eq_true_eq,Option.any_eq_true] at hcheck
  obtain ⟨honce,⟨⟨s,rest⟩,ev,e'⟩,harrival,⟨hk,hc⟩,hev⟩ := hcheck
  obtain ⟨hd,hp,hseals⟩ := LinkState.arrival_eq_some harrival
  exact ⟨st,s,rest,ev,e',hr,fun c => (timesOpened_le c _).trans honce,hd,hp,hseals,hk,hc,hev⟩

def Outcome.isReset : Outcome → Bool
  | .accepted (.ok (.reset _ _)) => true
  | _ => false

/-- Closed before the peer answered its OPEN, a stream is reset. -/
theorem opening_close_reset : ¬ ClosesGracefully .plain aliceAndBob := by
  intro h
  obtain ⟨st,s,rest,ev,e',hr,honce,hd,hp,hseals,hk,-,hreset⟩ := close_arrives default
    [.call .a (byte32 8) (.open 4) 1000 0,.deliver .b 1000,.call .a (byte32 8) .close 1000 0]
    (fun ev => ev.outcome.isReset) (by decide +kernel)
  rcases h _ _ _ _ _ _ _ _ hr honce hd hp hseals hk with hout | ⟨⟨cause,hout⟩,-⟩
  · rw [hout] at hreset
    cases hreset
  · rw [hout] at hreset
    cases hreset

/-- Closed once established, it is not. -/
theorem established_close_graceful : ∃ (st : LinkState Bytes32) (s : SealedFrame Bytes32)
    (rest : List (SealedFrame Bytes32)) (ev : Event Bytes32),
    Linked .plain aliceAndBob st.history st.world st.channels ∧
    Delivers .plain aliceAndBob st.world st.channels .b s rest ev ∧ s.frame.kind = .close ∧
    ev.before.session s.params.correlationId ≠ none ∧ ev.Graceful s.params.correlationId := by
  obtain ⟨st,s,rest,ev,e',hr,honce,hd,hp,-,hk,hc,hcheck⟩ := close_arrives default
    (joining (byte32 8) 4 1000++([.call .a (byte32 8) .close 1000 0] : List Move))
    (fun ev => (ev.before.session (byte32 8)).any fun t : StreamSession =>
      decide (t.handshake = .established))
    (by decide +kernel)
  obtain ⟨t,ht,hest⟩ := Option.any_eq_true _ _ |>.mp hcheck
  rw [← hc] at ht
  refine ⟨st,s,rest,ev,hr,hd,hk,by simp [ht],?_⟩
  refine (close_graceful_iff Primitives.plain_lawful hr hd hp hk
    (honce _)).mpr fun u hu => ?_
  rw [← hd.before,ht] at hu
  cases hu
  exact of_decide_eq_true hest

/-- Both sides keep a stream that one of them has closed. -/
theorem half_closed_at_rest : ∃ (st : LinkState Bytes32) (s t : StreamSession),
    Linked .plain aliceAndBob st.history st.world st.channels ∧ (∀ x, st.channels x = []) ∧
    (st.world .a).session (byte32 8) = some s ∧ (st.world .b).session (byte32 8) = some t ∧
    s.localClosed = true ∧ s.Ends t := by
  obtain ⟨st,hr,hcheck⟩ := linked_of_check .plain aliceAndBob default
    (joining (byte32 8) 4 1000++([.call .a (byte32 8) .close 1000 0,.deliver .b 1000] : List Move))
    (fun st => decide ((st.history.countP fun p => p.2.opensAny) ≤ 1) &&
      (st.channels .a).isEmpty && (st.channels .b).isEmpty &&
      ((st.world .a).session (byte32 8)).any StreamSession.localClosed) (by decide +kernel)
  simp only [Bool.and_eq_true,decide_eq_true_eq,List.isEmpty_iff,Option.any_eq_true] at hcheck
  obtain ⟨⟨⟨honce,ha⟩,hb⟩,s,hs,hclosed⟩ := hcheck
  have hrest : ∀ x, st.channels x = [] := by
    intro x
    cases x
    · exact ha
    · exact hb
  have hagree := sessions_at_rest Primitives.plain_lawful hr
    (fun c => (timesOpened_le c _).trans honce) hrest (byte32 8)
  cases ht : (st.world .b).session (byte32 8) with
  | none =>
    rw [hagree.1.mpr ht] at hs
    cases hs
  | some t => exact ⟨st,s,t,hr,hrest,hs,ht,hclosed,hagree.2 s t hs ht⟩

end DigMessage
