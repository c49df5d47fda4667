import DigMessage.Link
import DigMessage.SessionClosed
import DigMessage.SessionDeadline
import DigMessage.StreamIsolation

/-! The cap on the streams of an endpoint. A slot is taken only below the cap, and where no seal
fails every stream that is over gives its slot back. -/
namespace DigMessage
open FixedWidth

theorem card_putSession_none (t : Sessions) (c : Bytes32) :
    (putSession t c none).keys.card ≤ t.keys.card := by
  have hkeys : (putSession t c none).keys = t.keys.erase c := Finmap.keys_erase c t
  rw [hkeys]
  exact Finset.card_erase_le

theorem card_putSession_live {t : Sessions} {c : Bytes32} {s : StreamSession}
    (h : t.lookup c = some s) (slot : Option StreamSession) :
    (putSession t c slot).keys.card ≤ t.keys.card := by
  cases slot with
  | none => exact card_putSession_none t c
  | some s' =>
    have hmem : c ∈ t.keys := Finmap.mem_keys.mpr (Finmap.mem_of_lookup_eq_some h)
    rw [keys_putSession_some,Finset.insert_eq_self.mpr hmem]

section
variable {SK : Type} {P : Primitives SK}

/-- The step starts no stream, or it found room for one. -/
def Roomy (e e' : StreamEndpoint SK) : Prop :=
  e'.streamCount ≤ e.streamCount ∨
  e.streamCount < e.maxConcurrent ∧ e'.streamCount ≤ e.streamCount+1

theorem Sends.roomy {c : Bytes32} {r : Request} {hdr : StreamHeader}
    {after failed : Option StreamSession} {e : StreamEndpoint SK}
    (h : Sends (e.sessions.lookup c) r hdr after failed) {slot : Option StreamSession}
    (hlive : ∀ w, r ≠ .open w) : (putSession e.sessions c slot).keys.card ≤ e.streamCount := by
  generalize hl : e.sessions.lookup c = before at h
  cases h with
  | «open» w => exact absurd rfl (hlive w)
  | live hsend => exact card_putSession_live hl slot

theorem open_roomy {entropy : Except String Bytes32} {c : Bytes32} {w : UInt32}
    {nowMs expiresAt : UInt64} {e e' : StreamEndpoint SK}
    {res : Except MessageError DigMessageEnvelope}
    (h : StreamEndpoint.open P entropy c w nowMs expiresAt e = some (res,e')) :
    Roomy e e' ∧ ∀ k, res = .error (.streamLimit k) → e'.sendCounter = e.sendCounter →
      k = e.maxConcurrent ∧ e.maxConcurrent ≤ e.streamCount := by
  unfold StreamEndpoint.open at h
  rw [Fallible.bind_of_ok (Fallible.read_apply e)] at h
  split_ifs at h with hm hf
  · cases h
    exact ⟨Or.inl le_rfl,fun k hk => by cases hk⟩
  · cases h
    exact ⟨Or.inl le_rfl,fun k hk _ => by cases hk; exact ⟨rfl,hf⟩⟩
  · rw [Fallible.bind_of_ok (Fallible.write_apply _ _)] at h
    obtain ⟨next,hn,rfl,-⟩ := StreamEndpoint.sealFrame_cases P h
    refine ⟨Or.inr ⟨Nat.not_le.mp hf,card_putSession_le e.sessions c (.initiator w)⟩,
      fun k _ hsame => ?_⟩
    have hcount : next = e.sendCounter := hsame
    have hnext : next.toNat = e.sendCounter.toNat+1 := hn
    rw [hcount] at hnext
    omega

theorem Receives.roomy {c : Bytes32} {e : StreamEndpoint SK} {hdr : StreamHeader}
    {payload : List UInt8} {frame : StreamFrame} {reaction : Reaction} {slot : Option StreamSession}
    (h : Receives (e.sessions.lookup c) (decide (e.sessions.keys.card ≥ e.maxConcurrent)) hdr payload
      frame reaction slot) :
    (putSession e.sessions c slot).keys.card ≤ e.streamCount ∨
    e.streamCount < e.maxConcurrent ∧ (putSession e.sessions c slot).keys.card ≤ e.streamCount+1 := by
  cases h with
  | opened hnone hroom =>
    rw [decide_eq_false_iff_not,Nat.not_le] at hroom
    exact Or.inr ⟨hroom,card_putSession_le e.sessions c (.responder hdr.window)⟩
  | accepted hlive => exact Or.inl (card_putSession_live hlive _)
  | _ => exact Or.inl (card_putSession_none e.sessions c)

theorem Called.roomy {entropy : Except String Bytes32} {c : Bytes32} {nowMs expiresAt : UInt64}
    {r : Request} {e e' : StreamEndpoint SK} {res : Except MessageError DigMessageEnvelope}
    (h : Called P entropy c nowMs expiresAt r e res e') :
    e'.maxConcurrent = e.maxConcurrent ∧
    ((∀ w, r ≠ .open w) → e'.streamCount ≤ e.streamCount) := by
  cases h with
  | rejected err => exact ⟨rfl,fun _ => le_rfl⟩
  | «sealed» hs => exact ⟨rfl,hs.roomy⟩
  | unsealed hs => exact ⟨rfl,hs.roomy⟩

theorem perform_roomy {ev : Event SK} {e' : StreamEndpoint SK}
    (h : ev.input.perform P ev.before = some (ev.outcome,e')) :
    e'.maxConcurrent = ev.before.maxConcurrent ∧ Roomy ev.before e' := by
  obtain ⟨e,input,out⟩ := ev
  cases input with
  | call c r nowMs expiresAt entropy =>
    obtain ⟨⟨res,u⟩,hc,hp⟩ := Option.map_eq_some_iff.mp h
    cases hp
    obtain ⟨hmax,hlive⟩ := (StreamEndpoint.call_cases P hc).roomy
    refine ⟨hmax,?_⟩
    by_cases hopen : ∃ w, r = .open w
    · obtain ⟨w,rfl⟩ := hopen
      exact (open_roomy hc).1
    · exact Or.inl (hlive fun w hw => hopen ⟨w,hw⟩)
  | accept envelope resolveSenderPub nowMs order entropy =>
    obtain ⟨res,-,hacc⟩ := Input.perform_accept P h
    cases hacc with
    | refused => exact ⟨rfl,Or.inl le_rfl⟩
    | idle => exact ⟨rfl,Or.inl le_rfl⟩
    | ignored => exact ⟨rfl,Or.inl le_rfl⟩
    | event hopen ha hr => exact ⟨rfl,hr.roomy⟩
    | answered hopen ha hr => exact ⟨rfl,hr.roomy⟩
    | unanswered hopen ha hr => exact ⟨rfl,hr.roomy⟩

/-- A run keeps the cap and stays below it. -/
theorem Trace.capped {e e' : StreamEndpoint SK} {tr : List (Event SK)} (h : Trace P e tr e')
    (hc : e.streamCount ≤ e.maxConcurrent) :
    e'.maxConcurrent = e.maxConcurrent ∧ e'.streamCount ≤ e'.maxConcurrent := by
  induction h with
  | nil e => exact ⟨rfl,hc⟩
  | cons hp _ ih =>
    obtain ⟨hmax,hroom⟩ := perform_roomy hp
    have hnext := ih (by rcases hroom with hroom | ⟨hroom,hroom'⟩ <;> omega)
    exact ⟨hnext.1.trans hmax,hnext.2⟩

def NoneClosed (t : Sessions) : Prop := ∀ c s, t.lookup c = some s → s.state ≠ .closed

/-- The slot is free, or its session is not closed. -/
def Reclaimed (slot : Option StreamSession) : Prop := ∀ s, slot = some s → s.state ≠ .closed

theorem reclaimed_settle (s : StreamSession) : Reclaimed s.settle := by
  intro t ht hclosed
  rw [StreamSession.settle_eq] at ht
  split at ht
  · cases ht
  · rename_i hopen
    cases ht
    have hflags := StreamSession.state_eq_closed.mp hclosed
    simp at hopen
    rcases hflags with hreset | ⟨hlocal,hremote⟩
    · rw [hreset] at hopen
      cases hopen.1
    · have hno := hopen.2 hlocal
      rw [hremote] at hno
      cases hno

theorem Sends.reclaims {slot after failed : Option StreamSession} {r : Request} {hdr : StreamHeader}
    (h : Sends slot r hdr after failed) (hs : Reclaimed slot) : Reclaimed after := by
  cases h with
  | «open» w =>
    intro t ht
    cases ht
    simp [StreamSession.state_eq_closed,StreamSession.initiator]
  | @live s s' _ hsend =>
    have hopen := hs s rfl
    rw [Ne,StreamSession.state_eq_closed] at hopen
    have hkept : s'.reset = s.reset → s'.localClosed = s.localClosed →
        s'.remoteClosed = s.remoteClosed → Reclaimed (some s') := by
      intro hx hl hr t ht
      cases ht
      rw [Ne,StreamSession.state_eq_closed,hx,hl,hr]
      exact hopen
    cases hsend with
    | openAck w => exact hkept rfl rfl rfl
    | sendData payload next => exact hkept rfl rfl rfl
    | grantCredit n => exact hkept rfl rfl rfl
    | close => exact reclaimed_settle _
    | reset => rintro _ ⟨⟩

theorem Receives.reclaims {slot slot' : Option StreamSession} {full : Bool} {hdr : StreamHeader}
    {payload : List UInt8} {frame : StreamFrame} {reaction : Reaction}
    (h : Receives slot full hdr payload frame reaction slot') : Reclaimed slot' := by
  cases h with
  | opened =>
    intro t ht
    cases ht
    simp [StreamSession.state_eq_closed,StreamSession.responder]
  | accepted => exact reclaimed_settle _
  | _ => rintro _ ⟨⟩

theorem noneClosed_putSession {t : Sessions} {c : Bytes32} {slot : Option StreamSession}
    (h : NoneClosed t) (hs : Reclaimed slot) : NoneClosed (putSession t c slot) := by
  intro d s hd
  rw [lookup_putSession] at hd
  split at hd
  · exact hs s hd
  · exact h d s hd

theorem Event.Seals.noneClosed {ev : Event SK} {e' : StreamEndpoint SK} (hs : ev.Seals e')
    (hp : ev.input.perform P ev.before = some (ev.outcome,e'))
    (h : NoneClosed ev.before.sessions) : NoneClosed e'.sessions := by
  obtain ⟨e,input,out⟩ := ev
  cases input with
  | call c r nowMs expiresAt entropy =>
    obtain ⟨res,hout,hcall⟩ := Input.perform_call P hp
    cases hcall with
    | rejected err => exact h
    | «sealed» hsend => exact noneClosed_putSession h (hsend.reclaims (h c))
    | @unsealed hdr after failed next err hsend hn =>
      have hcount : next = e.sendCounter := hs.called err hout
      have hnext : next.toNat = e.sendCounter.toNat+1 := hn
      rw [hcount] at hnext
      omega
  | accept envelope resolveSenderPub nowMs order entropy =>
    obtain ⟨res,hout,hacc⟩ := Input.perform_accept P hp
    cases hacc with
    | refused => exact h
    | idle => exact h
    | ignored => exact h
    | event hopen ha hr => exact noneClosed_putSession h hr.reclaims
    | answered hopen ha hr => exact noneClosed_putSession h hr.reclaims
    | unanswered => exact absurd hout (hs.accepted _)

variable (P)

/-- Every event of the run seals what it has to seal. -/
def AllSeal (tr : List (Event SK)) : Prop :=
  ∀ ev ∈ tr, ∀ e', ev.input.perform P ev.before = some (ev.outcome,e') → ev.Seals e'

variable {P}

theorem Trace.noneClosed {e e' : StreamEndpoint SK} {tr : List (Event SK)} (h : Trace P e tr e')
    (hs : AllSeal P tr) (hc : NoneClosed e.sessions) : NoneClosed e'.sessions := by
  induction h with
  | nil e => exact hc
  | cons hp _ ih =>
    have hseals := hs _ List.mem_cons_self _ hp
    exact ih (fun ev hmem => hs ev (List.mem_cons_of_mem _ hmem)) (hseals.noneClosed hp hc)

theorem onRecv_protocol {s s' : StreamSession} {frame : StreamFrame} {hdr : StreamHeader}
    {err : MessageError} (h : StreamSession.onRecv frame hdr s = some (.error err,s')) :
    ∃ text, err = .streamProtocol text := by
  unfold StreamSession.onRecv at h
  rw [Fallible.bind_of_ok (Fallible.read_apply s)] at h
  cases hadd : checkedAdd s.recvSeq 1 <;> cases frame <;> simp only [hadd] at h <;> split_ifs at h <;>
    first
      | (cases h; exact ⟨_,rfl⟩)
      | cases h

theorem resetResponse_cause {entropy : Except String Bytes32} {c : Bytes32} {nowMs : UInt64}
    {cause cause' : MessageError} {e e' : StreamEndpoint SK} {reply : DigMessageEnvelope}
    (h : StreamEndpoint.resetResponse P entropy c nowMs cause e = some (.ok (.reset reply cause'),e')) :
    cause' = cause := by
  obtain ⟨next,-,-,hres⟩ := StreamEndpoint.resetResponse_cases P h
  cases hseal : sealMessage P entropy (e.frameParams c (header .reset 0 0) [] nowMs 0) with
  | error err =>
    rw [hseal] at hres
    cases hres
  | ok env =>
    rw [hseal] at hres
    cases hres
    rfl

theorem acceptFrame_limit {entropy : Except String Bytes32} {c : Bytes32} {frame : StreamFrame}
    {hdr : StreamHeader} {payload : List UInt8} {nowMs : UInt64} {e e' : StreamEndpoint SK}
    {reply : DigMessageEnvelope} {k : ℕ}
    (h : StreamEndpoint.acceptFrame P entropy c frame hdr payload nowMs e =
      some (.ok (.reset reply (.streamLimit k)),e')) :
    k = e.maxConcurrent ∧ e.maxConcurrent ≤ e.streamCount := by
  unfold StreamEndpoint.acceptFrame at h
  rw [Fallible.bind_of_ok (Fallible.read_apply e)] at h
  split_ifs at h with hreset hm hopen hm
  · rw [Fallible.bind_of_ok (StreamEndpoint.removeSession_apply c e)] at h
    cases h
  · cases h
  · unfold StreamEndpoint.acceptOpen at h
    rw [Fallible.bind_of_ok (Fallible.read_apply e)] at h
    split_ifs at h with hm hf
    · rw [Fallible.bind_of_ok (StreamEndpoint.removeSession_apply c e)] at h
      cases resetResponse_cause h
    · cases resetResponse_cause h
      exact ⟨rfl,hf⟩
    · cases h
  · rcases Fallible.bind_eq_some.mp h with ⟨err,-,hbad⟩ | ⟨transition,u,ha,ht⟩
    · cases hbad
    · obtain ⟨r,hs,hr⟩ := Fallible.attempt_eq_some.mp ha
      cases hr
      rw [StreamEndpoint.expectSession_eq hm] at hs
      cases transition with
      | ok accepted =>
        simp only at ht
        rw [Fallible.bind_of_ok (StreamEndpoint.dropIfClosed_apply c u)] at ht
        cases ht
      | error cause =>
        simp only at ht
        rw [Fallible.bind_of_ok (StreamEndpoint.removeSession_apply c u)] at ht
        cases resetResponse_cause ht
        obtain ⟨hnone,-⟩ | ⟨s₁,s',hl₁,hx,-⟩ := StreamEndpoint.sessionMut_cases hs
        · exact absurd hm (Finmap.lookup_eq_none.mp hnone)
        · obtain ⟨text,htext⟩ := onRecv_protocol hx
          cases htext
  · cases h

theorem accept_limit {order : HashOrder} {entropy : Except String Bytes32}
    {envelope : DigMessageEnvelope} {resolveSenderPub : Bytes32 → UInt32 → Option Bytes48}
    {nowMs : UInt64} {e e' : StreamEndpoint SK} {reply : DigMessageEnvelope} {k : ℕ}
    (h : StreamEndpoint.accept P order entropy envelope resolveSenderPub nowMs e =
      some (.ok (.reset reply (.streamLimit k)),e')) :
    k = e.maxConcurrent ∧ e.maxConcurrent ≤ e.streamCount := by
  obtain ⟨cause,g,-,hres,-⟩ | ⟨m,g,-,⟨cause,-,hres,-⟩ | ⟨hdr,frame,-,ht⟩⟩ :=
    StreamEndpoint.accept_enters P h
  · cases hres
  · cases hres
  · exact acceptFrame_limit (e:={e with guard := g}) ht

namespace Event

/-- An `open` call, or an inbound frame, refused for a cap of `k`. -/
inductive Limited (ev : Event SK) (k : ℕ) : Prop
  | called {c : Bytes32} {w : UInt32} {nowMs expiresAt : UInt64} {entropy : Except String Bytes32} :
      ev.input = .call c (.open w) nowMs expiresAt entropy →
      ev.outcome = .called (.error (.streamLimit k)) → Limited ev k
  | accepted {reply : DigMessageEnvelope} :
      ev.outcome = .accepted (.ok (.reset reply (.streamLimit k))) → Limited ev k

theorem Limited.full {ev : Event SK} {k : ℕ} {e' : StreamEndpoint SK} (h : ev.Limited k)
    (hp : ev.input.perform P ev.before = some (ev.outcome,e')) (hs : ev.Seals e') :
    k = ev.before.maxConcurrent ∧ ev.before.maxConcurrent ≤ ev.before.streamCount := by
  obtain ⟨e,input,out⟩ := ev
  cases h with
  | called hi hout =>
    cases hi
    cases hout
    obtain ⟨⟨res,u⟩,hc,hpair⟩ := Option.map_eq_some_iff.mp hp
    cases hpair
    exact (open_roomy hc).2 k rfl (hs.called _ rfl)
  | accepted hout =>
    cases hout
    cases input with
    | call c r nowMs expiresAt entropy =>
      obtain ⟨res,hres,-⟩ := Input.perform_call P hp
      cases hres
    | accept envelope resolveSenderPub nowMs order entropy =>
      obtain ⟨⟨res,u⟩,hc,hpair⟩ := Option.map_eq_some_iff.mp hp
      cases hpair
      exact accept_limit hc

/-- The event ends stream `c`: our own RESET, the peer's, or one in answer to its frame. -/
inductive Ends (ev : Event SK) (c : Bytes32) : Prop
  | reset {nowMs expiresAt : UInt64} {entropy : Except String Bytes32} {env : DigMessageEnvelope} :
      ev.input = .call c .reset nowMs expiresAt entropy → ev.outcome = .called (.ok env) → Ends ev c
  | peerReset {envelope : DigMessageEnvelope} {resolveSenderPub : Bytes32 → UInt32 → Option Bytes48}
      {nowMs : UInt64} {order : HashOrder} {entropy : Except String Bytes32} :
      ev.input = .accept envelope resolveSenderPub nowMs order entropy →
      envelope.correlationId = c → ev.outcome = .accepted (.ok (.event .peerReset)) → Ends ev c
  | answered {envelope : DigMessageEnvelope} {resolveSenderPub : Bytes32 → UInt32 → Option Bytes48}
      {nowMs : UInt64} {order : HashOrder} {entropy : Except String Bytes32}
      {reply : DigMessageEnvelope} {cause : MessageError} :
      ev.input = .accept envelope resolveSenderPub nowMs order entropy →
      envelope.correlationId = c → ev.outcome = .accepted (.ok (.reset reply cause)) → Ends ev c

theorem Ends.freed {ev : Event SK} {c : Bytes32} {e' : StreamEndpoint SK} (h : ev.Ends c)
    (hp : ev.input.perform P ev.before = some (ev.outcome,e')) : e'.session c = none := by
  obtain ⟨e,input,out⟩ := ev
  cases h with
  | reset hi hout =>
    cases hi
    cases hout
    obtain ⟨⟨res,u⟩,hc,hpair⟩ := Option.map_eq_some_iff.mp hp
    cases hpair
    rcases StreamEndpoint.reset_cases hc with ⟨hnone,-⟩ | ⟨err,s,herr,-⟩
    · exact hnone
    · cases herr
  | peerReset hi hcid hout =>
    cases hi
    cases hout
    subst hcid
    obtain ⟨res,hres,hacc⟩ := Input.perform_accept P hp
    cases hres
    exact hacc.effect.2.2.2
  | answered hi hcid hout =>
    cases hi
    cases hout
    subst hcid
    obtain ⟨res,hres,hacc⟩ := Input.perform_accept P hp
    cases hres
    exact hacc.effect.2.1

end Event

/-- From an endpoint without streams every run stays within the cap. Where every seal succeeds no
session in the table is closed, a stream that is reset frees its slot, and the cap refuses a
stream only while that many sessions, none of them closed, hold every slot. -/
theorem stream_cap_reclaimed {e₀ e : StreamEndpoint SK} {m : ℕ} {tr : List (Event SK)}
    (h₀ : e₀.sessions = ∅) (h : Trace P (e₀.withMaxConcurrent m) tr e) :
    e.streamCount ≤ m ∧ (AllSeal P tr → NoneClosed e.sessions ∧ ∀ (ev : Event SK) e', ev.before = e →
      ev.input.perform P ev.before = some (ev.outcome,e') → ev.Seals e' →
      (∀ c, ev.Ends c → e'.session c = none) ∧ ∀ k, ev.Limited k → k = m ∧ e.streamCount = m) := by
  have hempty : (e₀.withMaxConcurrent m).streamCount = 0 := by
    change e₀.sessions.keys.card = 0
    rw [h₀]
    rfl
  obtain ⟨hmax,hcount⟩ := h.capped (by rw [hempty]; exact Nat.zero_le _)
  have hcap : e.maxConcurrent = m := hmax
  rw [hcap] at hcount
  refine ⟨hcount,fun hs => ⟨?_,fun ev e' hb hp hseals => ⟨fun c hc => hc.freed hp,fun k hk => ?_⟩⟩⟩
  · refine h.noneClosed hs fun c s hl => ?_
    change e₀.sessions.lookup c = some s at hl
    rw [h₀] at hl
    cases hl
  · obtain ⟨hkm,hfull⟩ := hk.full hp hseals
    rw [hb] at hkm hfull
    omega

end

def single : StreamEndpoint Bytes32 := lone.withMaxConcurrent 1

def occupied : StreamEndpoint Bytes32 :=
  {single with sendCounter := 1,sessions := single.sessions.insert (byte32 9) (.initiator 4)}

def occupying : Event Bytes32 where
  before := single
  input := .call (byte32 9) (.open 4) 1000 0 (.ok (byte32 7))
  outcome := .called (sealMessage .plain (.ok (byte32 7))
    (single.frameParams (byte32 9) (header .open 0 4) [] 1000 0))

def crowding : Event Bytes32 where
  before := occupied
  input := .call (byte32 10) (.open 4) 1000 0 (.ok (byte32 7))
  outcome := .called (.error (.streamLimit 1))

theorem occupying_performs :
    occupying.input.perform .plain single = some (occupying.outcome,occupied) := by
  have hopen : StreamEndpoint.open .plain (.ok (byte32 7)) (byte32 9) 4 1000 0 single =
      some (_,occupied) :=
    open_apply (Finmap.notMem_empty (a:=byte32 9)) (by decide) (by decide)
  exact congrArg (Option.map fun p => (Outcome.called p.1,p.2)) hopen

theorem occupying_seals : AllSeal .plain [occupying] := by
  intro ev hmem e' hp
  rw [List.mem_singleton] at hmem
  subst hmem
  have hok : (sealMessage .plain (.ok (byte32 7))
      (single.frameParams (byte32 9) (header .open 0 4) [] 1000 0)).isOk = true := by decide +kernel
  constructor
  · intro err hout
    simp only [occupying,Outcome.called.injEq] at hout
    rw [hout] at hok
    cases hok
  · exact nofun

/-- The second stream is refused while the first holds the only slot. -/
theorem crowded_refused : Trace .plain (lone.withMaxConcurrent 1) [occupying] occupied ∧
    crowding.Limited 1 ∧ NoneClosed occupied.sessions ∧ occupied.streamCount = 1 := by
  have hrun : Trace .plain (lone.withMaxConcurrent 1) [occupying] occupied :=
    .cons occupying_performs (.nil occupied)
  have hlimited : crowding.Limited 1 := .called rfl rfl
  have hp : crowding.input.perform .plain occupied = some (crowding.outcome,occupied) := rfl
  have hfresh : lone.sessions = ∅ := rfl
  obtain ⟨hnone,hnext⟩ := (stream_cap_reclaimed hfresh hrun).2 occupying_seals
  exact ⟨hrun,hlimited,hnone,((hnext crowding occupied rfl hp ⟨fun _ _ => rfl,nofun⟩).2 1 hlimited).2⟩

end DigMessage
