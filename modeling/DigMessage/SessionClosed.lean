import DigMessage.FailedCalls
import DigMessage.LinkSchedule
import DigMessage.SessionReuse
import DigMessage.SessionTrace

/-! The end of a stream. The state of a session only moves forward, but the calls that build
frames do not ask whether it is closed. -/
namespace DigMessage
open FixedWidth

namespace StreamState

/-- How far a stream has come; the half-closed states are level. -/
def position : StreamState → ℕ
  | .opening => 0
  | .open => 1
  | .halfClosedLocal => 2
  | .halfClosedRemote => 2
  | .closed => 3

def Forward (a b : StreamState) : Prop := a = b ∨ a.position < b.position

theorem Forward.trans {a b c : StreamState} (h : a.Forward b) (h' : b.Forward c) : a.Forward c := by
  rcases h with rfl | h
  · exact h'
  · rcases h' with rfl | h'
    · exact Or.inr h
    · exact Or.inr (h.trans h')

end StreamState

namespace SessionCall

def advances : SessionCall → Bool
  | .openAck _ | .data | .credit _ | .close => true
  | .reset => false
  | .recv frame _ => frame = .openAck || frame = .data || frame = .credit || frame = .close

end SessionCall

namespace StreamSession

theorem Books.forward {s s' : StreamSession} {ev : SessionEvent} (h : Books s ev s') :
    s.state.Forward s'.state := by
  have hh : s.handshake = .established → s'.handshake = .established :=
    fun hs => h.established.mpr (Or.inl hs)
  have hl : s.localClosed = true → s'.localClosed = true := fun hs => by simp [h.localClosed,hs]
  have hr : s.remoteClosed = true → s'.remoteClosed = true := fun hs => by simp [h.remoteClosed,hs]
  have hx : s.reset = true → s'.reset = true := fun hs => h.reset (by simp [hs])
  unfold state StreamState.Forward
  cases h₁ : s.handshake <;> cases h₂ : s.localClosed <;> cases h₃ : s.remoteClosed <;>
    cases h₄ : s.reset <;> simp_all
  all_goals split_ifs <;> simp_all [StreamState.position]
  -- both half-closed positions are left open
  all_goals cases h₅ : s'.localClosed <;> cases h₆ : s'.remoteClosed <;> simp_all

theorem Run.forward {s s' : StreamSession} {tr : List SessionEvent} (h : Run s tr s') :
    s.state.Forward s'.state :=
  h.records (J:=fun _ t => s.state.Forward t.state)
    (fun hfront hp => hfront.trans (perform_books hp).forward) (k:=[]) (Or.inl rfl)

theorem Moves.remote {s s' : StreamSession} {call : SessionCall} {reply : SessionReply}
    (h : s.Moves call reply s') (hs : s.remoteClosed = true → s.handshake = .established)
    (hr : s'.remoteClosed = true) : s'.handshake = .established := by
  cases h with
  | send hreq hsend =>
    cases hsend with
    | openAck => rfl
    | sendData payload next established => exact established
    | grantCredit n established => exact established
    | close => exact hs hr
    | reset => exact hs hr
  | recv live hrecv =>
    cases hrecv with
    | openAck => rfl
    | data next established => exact established
    | credit established => exact established
    | close established => exact established
    | closeAck => exact hs hr
    | reset => exact hs hr

theorem Run.remote {s₀ s : StreamSession} {tr : List SessionEvent} (hs : s₀.Started)
    (h : Run s₀ tr s) : s.remoteClosed = true → s.handshake = .established := by
  have hstart : s₀.remoteClosed = true → s₀.handshake = .established := by
    obtain ⟨w,rfl | rfl⟩ := hs <;> exact nofun
  refine h.records (J:=fun _ t => t.remoteClosed = true → t.handshake = .established)
    (fun {front t ev t'} ht hp => ?_) (k:=[]) hstart
  rcases perform_cases hp with ⟨rfl,-⟩ | ⟨reply,-,hm⟩
  · exact ht
  · exact hm.remote ht

/-- The call fails, and changes nothing. -/
def Refuses (s : StreamSession) (call : SessionCall) : Prop :=
  ∃ e, call.perform s = some (.error e,s)

/-- What still bars a call on a closed session. -/
def Bars (s : StreamSession) : SessionCall → Prop
  | .openAck _ => s.role = .initiator ∨ s.handshake = .established
  | .data => s.handshake = .opening ∨ s.localClosed = true ∨ s.sendCredit = 0
  | .credit _ => s.handshake = .opening
  | .close => s.localClosed = true
  | .reset => False
  | .recv frame _ => frame = .credit → s.reset = true

/-- Reset by an initiator whose OPEN was not answered and whose own direction is closed. -/
structure Dead (s : StreamSession) : Prop where
  reset : s.reset = true
  role : s.role = .initiator
  opening : s.handshake = .opening
  localClosed : s.localClosed = true

/-- From here on every call that would carry the stream on is refused. -/
def Over (s : StreamSession) : Prop :=
  ∀ tr s', Run s tr s' → ∀ call, call.advances = true → s'.Refuses call

theorem state_eq_closed {s : StreamSession} :
    s.state = .closed ↔ s.reset = true ∨ s.localClosed = true ∧ s.remoteClosed = true := by
  unfold state
  cases s.reset <;> cases s.localClosed <;> cases s.remoteClosed <;> cases s.handshake <;> simp

theorem refuses_iff {s : StreamSession} {call : SessionCall}
    (hr : s.remoteClosed = true → s.handshake = .established) (hc : s.state = .closed)
    (ha : call.advances = true) : s.Refuses call ↔ s.Bars call := by
  cases call with
  | openAck w =>
    cases hrole : s.role <;> cases hh : s.handshake <;>
      simp [Refuses,Bars,SessionCall.perform,buildOpenAck,bind,Fallible.andThen,hrole,hh]
  | data =>
    cases hh : s.handshake <;> cases hl : s.localClosed <;> by_cases hw : s.sendCredit = 0 <;>
      simp [Refuses,Bars,SessionCall.perform,buildData,bind,Fallible.andThen,hh,hl,hw]
    rcases checkedAdd s.sendSeq 1 with - | next <;> simp [Fallible.unwrap]
  | credit n =>
    cases hh : s.handshake <;>
      simp [Refuses,Bars,SessionCall.perform,buildCredit,bind,Fallible.andThen,hh]
  | close =>
    cases hl : s.localClosed <;>
      simp [Refuses,Bars,SessionCall.perform,buildClose,bind,Fallible.andThen,hl]
  | reset => cases ha
  | recv frame hdr =>
    cases hx : s.reset with
    | true => simp [Refuses,Bars,SessionCall.perform,onRecv,bind,Fallible.andThen,hx]
    | false =>
      have hboth : s.localClosed = true ∧ s.remoteClosed = true := by
        simpa [hx] using state_eq_closed.mp hc
      have hh := hr hboth.2
      cases frame <;> simp [SessionCall.advances] at ha <;>
        simp [Refuses,Bars,SessionCall.perform,onRecv,bind,Fallible.andThen,hx,hh,hboth]

theorem Dead.moves {s s' : StreamSession} {call : SessionCall} {reply : SessionReply}
    (h : s.Dead) (hm : s.Moves call reply s') : s'.Dead := by
  obtain ⟨reset,role,opening,closed⟩ := h
  cases hm with
  | recv live => simp [reset] at live
  | send hr hs =>
    cases hs with
    | openAck w responder => simp [role] at responder
    | sendData payload next established => simp [opening] at established
    | grantCredit n established => simp [opening] at established
    | close «open» => simp [closed] at «open»
    | reset => exact ⟨rfl,role,opening,closed⟩

theorem Dead.refuses {s : StreamSession} (h : s.Dead) {call : SessionCall}
    (ha : call.advances = true) : s.Refuses call := by
  obtain ⟨reset,role,opening,closed⟩ := h
  cases call <;> simp [SessionCall.advances] at ha <;>
    simp [Refuses,SessionCall.perform,buildOpenAck,buildData,buildCredit,buildClose,onRecv,bind,
      Fallible.andThen,reset,role,opening,closed]

theorem over_iff {s : StreamSession} (hr : s.remoteClosed = true → s.handshake = .established)
    (hc : s.state = .closed) : s.Over ↔ s.Dead := by
  constructor
  · intro h
    have hbars : ∀ call, call.advances = true → s.Bars call :=
      fun call ha => (refuses_iff hr hc ha).mp (h [] s .nil call ha)
    have opening : s.handshake = .opening := hbars (.credit 0) rfl
    have role : s.role = .initiator := by simpa [Bars,opening] using hbars (.openAck 0) rfl
    have closed : s.localClosed = true := hbars .close rfl
    refine ⟨?_,role,opening,closed⟩
    rcases state_eq_closed.mp hc with hx | ⟨-,hremote⟩
    · exact hx
    · rw [hr hremote] at opening
      cases opening
  · intro h tr s' hrun call ha
    have hdead : s'.Dead := hrun.records (J:=fun _ t => t.Dead) (fun {front t ev t'} ht hp => by
      rcases perform_cases hp with ⟨rfl,-⟩ | ⟨reply,-,hm⟩
      · exact ht
      · exact ht.moves hm) (k:=[]) h
    exact hdead.refuses ha

end StreamSession

section
variable {SK : Type} (P : Primitives SK)

/-- A run in which no new session of stream `c` starts. -/
def Continues (c : Bytes32) (e : StreamEndpoint SK) (tr : List (Event SK))
    (e' : StreamEndpoint SK) : Prop := Trace P e tr e' ∧ ∀ ev ∈ tr, ev.starts P c = false

def Request.Carries (r : Request) : Prop := r.kind = .data ∨ r.kind = .credit

def StreamEndpoint.HandsOver (c : Bytes32) (e : StreamEndpoint SK) : Prop :=
  ∃ r hdr, r.Carries ∧ ∀ entropy nowMs expiresAt, ∃ e',
    StreamEndpoint.call P entropy c nowMs expiresAt r e =
      some (sealMessage P entropy (e.frameParams c hdr r.payload nowMs expiresAt),e') ∧
    e'.sendCounter.toNat = e.sendCounter.toNat+1

def Carried (c : Bytes32) (tr : List (Event SK)) : Prop :=
  ∃ ev ∈ tr, ∃ s, ev.sealed? = some s ∧ s.params.correlationId = c ∧
    (s.frame.kind = .data ∨ s.frame.kind = .credit)

/-- No session, or that of an initiator whose OPEN was not answered. -/
def Unanswered (slot : Option StreamSession) : Prop :=
  ∀ s, slot = some s → s.role = .initiator ∧ s.handshake = .opening

/-- Unanswered, and reset where there is a session. -/
def Aborted (slot : Option StreamSession) : Prop :=
  Unanswered slot ∧ ∀ s, slot = some s → s.reset = true

variable {P}

theorem Aborted.step {c : Bytes32} {ev : Event SK} {e' : StreamEndpoint SK}
    (h : Aborted (ev.before.sessions.lookup c))
    (hp : ev.input.perform P ev.before = some (ev.outcome,e')) (hn : ev.starts P c = false) :
    Aborted (e'.sessions.lookup c) := by
  have hfresh : ev.before.sessions.lookup c = none → e'.sessions.lookup c = none := by
    intro hb
    by_contra hs
    rw [(starts_iff hp).mpr ⟨hb,hs⟩] at hn
    cases hn
  have hempty : e'.sessions.lookup c = none → Aborted (e'.sessions.lookup c) := by
    intro he
    rw [he]
    exact ⟨nofun,nofun⟩
  cases hb : ev.before.sessions.lookup c with
  | none => exact hempty (hfresh hb)
  | some s =>
    rw [hb] at h
    obtain ⟨role,opening⟩ := h.1 s rfl
    have reset := h.2 s rfl
    rcases perform_slot hp c with hsame | ⟨r,hdr,after,failed,hs,hafter⟩ | ⟨_,_,_,_,_,hrecv⟩
    · rw [hsame,hb]
      exact h
    · rw [hb] at hs
      cases hs with
      | live hsend =>
        have hafterReset : ∀ t : StreamSession, t.role = .initiator → t.handshake = .opening →
            t.reset = true → Aborted (some t) := by
          intro t hrole hopen hreset
          constructor <;> intro u hu <;> cases hu
          · exact ⟨hrole,hopen⟩
          · exact hreset
        cases hsend with
        | openAck w responder => simp [role] at responder
        | sendData payload next established => simp [opening] at established
        | grantCredit n established => simp [opening] at established
        | close «open» =>
          rcases hafter with he | he
          · apply hempty
            simpa [Request.settle,StreamSession.settle_eq,reset] using he
          · rw [he]
            exact hafterReset _ role opening reset
        | reset =>
          rcases hafter with he | he
          · exact hempty he
          · rw [he]
            exact hafterReset _ role opening rfl
    · rw [hb] at hrecv
      apply hempty
      generalize hslot : e'.sessions.lookup c = slot at hrecv ⊢
      cases hrecv with
      | opened hs => cases hs
      | accepted hs hf live =>
        cases hs
        simp [reset] at live
      | _ => rfl

theorem Aborted.trace {c : Bytes32} {e e' : StreamEndpoint SK} {tr : List (Event SK)}
    (h : Aborted (e.sessions.lookup c)) (hc : Continues P c e tr e') :
    Aborted (e'.sessions.lookup c) := by
  obtain ⟨htr,hn⟩ := hc
  induction htr with
  | nil e => exact h
  | cons hp _ ih =>
    rw [List.forall_mem_cons] at hn
    exact ih (h.step hp hn.1) hn.2

theorem Unanswered.silent {c : Bytes32} {e : StreamEndpoint SK}
    (h : Unanswered (e.sessions.lookup c)) {r : Request} (hr : r.Carries) {hdr : StreamHeader}
    {after failed : Option StreamSession} : ¬ Sends (e.sessions.lookup c) r hdr after failed := by
  intro hs
  generalize hl : e.sessions.lookup c = slot at hs h
  cases hs with
  | «open» w => rcases hr with hr | hr <;> cases hr
  | live hsend =>
    have opening := (h _ rfl).2
    cases hsend with
    | sendData payload next established => simp [opening] at established
    | grantCredit n established => simp [opening] at established
    | _ => rcases hr with hr | hr <;> cases hr

theorem Unanswered.not_handsOver {c : Bytes32} {e : StreamEndpoint SK}
    (h : Unanswered (e.sessions.lookup c)) : ¬ e.HandsOver P c := by
  rintro ⟨r,hdr,hr,hcall⟩
  obtain ⟨e',hp,hcount⟩ := hcall (.error "") 0 0
  generalize hres : sealMessage P (.error "") (e.frameParams c hdr r.payload 0 0) = res at hp
  cases StreamEndpoint.call_cases P hp with
  | rejected err => omega
  | «sealed» hs => exact h.silent hr hs
  | unsealed hs => exact h.silent hr hs

theorem Unanswered.not_carried {c : Bytes32} {ev : Event SK} {e' : StreamEndpoint SK}
    {s : SealedFrame SK} (h : Unanswered (ev.before.sessions.lookup c))
    (hp : ev.input.perform P ev.before = some (ev.outcome,e')) (hs : ev.sealed? = some s)
    (hc : s.params.correlationId = c) : ¬ (s.frame.kind = .data ∨ s.frame.kind = .credit) := by
  intro hk
  unfold Event.sealed? at hs
  split at hs
  · rename_i d r nowMs expiresAt entropy envelope hi hout
    cases hs
    have hd : d = c := hc
    subst hd
    rw [hi] at hp
    obtain ⟨res,hres,hcall⟩ := Input.perform_call P hp
    rw [hout] at hres
    cases hres
    cases hcall with
    | «sealed» hsend => exact h.silent hk hsend
  · cases hs
    rcases hk with hk | hk <;> cases hk
  · cases hs

namespace StreamEndpoint

theorem sealFrame_apply {e : StreamEndpoint SK} (h : e.sendCounter.toNat+1 < 2^64)
    (entropy : Except String Bytes32) (c : Bytes32) (hdr : StreamHeader) (payload : List UInt8)
    (nowMs expiresAt : UInt64) :
    sealFrame P entropy c hdr payload nowMs expiresAt e =
      some (sealMessage P entropy (e.frameParams c hdr payload nowMs expiresAt),
        {e with sendCounter := e.sendCounter+1}) := by
  have hnext : checkedAdd e.sendCounter 1 = some (e.sendCounter+1) := if_pos h
  unfold sealFrame
  rw [Fallible.bind_of_ok (Fallible.read_apply e),hnext]
  rfl

theorem moveAndSeal_apply {e : StreamEndpoint SK} (h : e.sendCounter.toNat+1 < 2^64)
    {c : Bytes32} {s s' : StreamSession} {hdr : StreamHeader}
    {build : Fallible MessageError StreamSession StreamHeader} (hl : e.sessions.lookup c = some s)
    (hb : build s = some (.ok hdr,s')) (entropy : Except String Bytes32) (payload : List UInt8)
    (nowMs expiresAt : UInt64) :
    (sessionMut c build >>= fun hdr => sealFrame P entropy c hdr payload nowMs expiresAt) e =
      some (sealMessage P entropy (e.frameParams c hdr payload nowMs expiresAt),
        {e with sendCounter := e.sendCounter+1,sessions := e.sessions.insert c s'}) := by
  have hmut : sessionMut c build e =
      some (.ok hdr,{e with sessions := e.sessions.insert c s'}) := by
    unfold sessionMut
    rw [Fallible.bind_of_ok (Fallible.read_apply e)]
    simp only [hl]
    exact Fallible.onPart_eq_some.mpr ⟨s',hb,rfl⟩
  rw [Fallible.bind_of_ok hmut]
  exact sealFrame_apply (e:={e with sessions := e.sessions.insert c s'}) h entropy c hdr payload
    nowMs expiresAt

theorem handsOver_of_established {e : StreamEndpoint SK} (h : e.sendCounter.toNat+1 < 2^64)
    {c : Bytes32} {s : StreamSession} (hl : e.sessions.lookup c = some s)
    (hs : s.handshake = .established) : e.HandsOver P c := by
  have hb : StreamSession.buildCredit 0 s = some (.ok (header .credit 0 0),
      {s with recvWindowRemaining := saturatingAdd s.recvWindowRemaining (0 : UInt32).toUInt64}) := by
    simp [StreamSession.buildCredit,bind,Fallible.andThen,hs]
  refine ⟨.grantCredit 0,header .credit 0 0,Or.inr rfl,fun entropy nowMs expiresAt => ⟨_,
    moveAndSeal_apply h hl hb entropy [] nowMs expiresAt,?_⟩⟩
  exact (checkedAdd_eq_some (b:=1)).mp (if_pos h)

theorem answered_established {e : StreamEndpoint SK} (h : e.sendCounter.toNat+1 < 2^64)
    {c : Bytes32} {s : StreamSession} (hl : e.sessions.lookup c = some s)
    (hr : s.role = .responder) (hs : s.handshake = .opening) :
    ∃ tr e' s', Continues P c e tr e' ∧ e'.sessions.lookup c = some s' ∧
      s'.handshake = .established ∧ e'.sendCounter.toNat = e.sendCounter.toNat+1 := by
  obtain ⟨s',hb,hest⟩ : ∃ s', StreamSession.buildOpenAck 0 s =
      some (.ok (header .openAck 0 0),s') ∧ s'.handshake = .established := by
    simp [StreamSession.buildOpenAck,bind,Fallible.andThen,hr,hs]
  have hcall : call P (.error "") c 0 0 (.openAck 0) e = some (_,_) :=
    moveAndSeal_apply h hl hb (.error "") [] 0 0
  have hp : (Input.call c (.openAck 0) 0 0 (.error "")).perform P e = some (.called _,_) :=
    Option.map_eq_some_iff.mpr ⟨_,hcall,rfl⟩
  have htr : Trace P e [⟨e,_,_⟩] {e with
      sendCounter := e.sendCounter+1,sessions := e.sessions.insert c s'} :=
    @Trace.cons SK P ⟨e,_,_⟩ _ _ _ hp (.nil _)
  refine ⟨_,_,s',⟨htr,fun ev hmem => ?_⟩,Finmap.lookup_insert _,hest,?_⟩
  · rw [List.mem_singleton] at hmem
    subst hmem
    simp [Event.starts,hl]
  · exact (checkedAdd_eq_some (b:=1)).mp (if_pos h)

theorem reset_cases {entropy : Except String Bytes32} {c : Bytes32} {nowMs expiresAt : UInt64}
    {e e' : StreamEndpoint SK} {res : Except MessageError DigMessageEnvelope}
    (h : call P entropy c nowMs expiresAt .reset e = some (res,e')) :
    (e'.sessions.lookup c = none ∧ ((∃ env, res = .ok env) ∨ e.sessions.lookup c = none)) ∨
    ∃ err s, res = .error err ∧ e.sessions.lookup c = some s ∧
      e'.sessions.lookup c = some {s with reset := true} := by
  cases res with
  | ok env =>
    refine Or.inl ⟨?_,Or.inl ⟨env,rfl⟩⟩
    cases call_cases P h with
    | «sealed» hs =>
      generalize e.sessions.lookup c = slot at hs
      cases hs with
      | live hsend => exact lookup_putSession_self _ _ _
  | error err =>
    cases call_failed h with
    | refused hno =>
      have hnone : e.sessions.lookup c = none := by
        by_contra hs
        obtain ⟨s,hs⟩ := Option.ne_none_iff_exists'.mp hs
        exact hno ⟨s,hs,trivial⟩
      exact Or.inl ⟨hnone,Or.inr hnone⟩
    | started hr => cases hr
    | moved ha hl hsend =>
      cases hsend
      exact Or.inr ⟨err,_,rfl,hl,Finmap.lookup_insert _⟩

end StreamEndpoint

/-- The RESET was sealed, or the stream had no session or one that was not answered. -/
def Ended (c : Bytes32) (e : StreamEndpoint SK) (res : Except MessageError DigMessageEnvelope) : Prop :=
  (∃ env, res = .ok env) ∨ Unanswered (e.sessions.lookup c)

theorem Ended.aborted {entropy : Except String Bytes32} {c : Bytes32} {nowMs expiresAt : UInt64}
    {e e' : StreamEndpoint SK} {res : Except MessageError DigMessageEnvelope} (h : Ended c e res)
    (hp : StreamEndpoint.call P entropy c nowMs expiresAt .reset e = some (res,e')) :
    Aborted (e'.sessions.lookup c) := by
  rcases StreamEndpoint.reset_cases hp with ⟨hnone,-⟩ | ⟨err,s,rfl,hs,hs'⟩
  · rw [hnone]
    exact ⟨nofun,nofun⟩
  · rcases h with ⟨env,henv⟩ | h
    · cases henv
    · rw [hs']
      constructor <;> intro t ht <;> cases ht
      · exact h s hs
      · rfl

/-- Where the stream did not end, some run takes a CREDIT frame of it to the sealer. -/
theorem handsOver_of_not_ended {entropy : Except String Bytes32} {c : Bytes32}
    {nowMs expiresAt : UInt64} {e e' : StreamEndpoint SK}
    {res : Except MessageError DigMessageEnvelope} (h : ¬ Ended c e res)
    (hp : StreamEndpoint.call P entropy c nowMs expiresAt .reset e = some (res,e'))
    (hroom : e'.sendCounter.toNat+2 < 2^64) :
    ∃ tr e₂, Continues P c e' tr e₂ ∧ e₂.HandsOver P c := by
  rcases StreamEndpoint.reset_cases hp with ⟨-,hok | hnone⟩ | ⟨err,s,rfl,hs,hs'⟩
  · exact absurd (Or.inl hok) h
  · rw [Ended,hnone] at h
    exact absurd (Or.inr nofun) h
  · cases hh : s.handshake with
    | established =>
      exact ⟨[],e',⟨.nil e',by simp⟩,
        StreamEndpoint.handsOver_of_established (by omega) hs' hh⟩
    | opening =>
      have hrole : s.role = .responder := by
        cases hrole : s.role with
        | responder => rfl
        | initiator =>
          refine absurd (Or.inr fun t ht => ?_) h
          rw [hs] at ht
          cases ht
          exact ⟨hrole,hh⟩
      obtain ⟨tr,e₂,s₂,hc,hl,hest,hcount⟩ :=
        StreamEndpoint.answered_established (P:=P) (by omega) hs' hrole hh
      exact ⟨tr,e₂,hc,StreamEndpoint.handsOver_of_established (by omega) hl hest⟩

theorem reset_ends_iff {entropy : Except String Bytes32} {c : Bytes32} {nowMs expiresAt : UInt64}
    {e e' : StreamEndpoint SK} {res : Except MessageError DigMessageEnvelope}
    (h : StreamEndpoint.call P entropy c nowMs expiresAt .reset e = some (res,e')) :
    (Ended c e res → ∀ tr e₂, Continues P c e' tr e₂ → ¬ Carried c tr) ∧
    (e'.sendCounter.toNat+2 < 2^64 →
      ((∃ tr e₂, Continues P c e' tr e₂ ∧ e₂.HandsOver P c) ↔ ¬ Ended c e res)) := by
  refine ⟨fun hend tr e₂ hb => ?_,fun hroom => ⟨?_,fun hno => handsOver_of_not_ended hno h hroom⟩⟩
  · rintro ⟨ev,hmem,f,hf,hfc,hk⟩
    obtain ⟨xs,ys,rfl⟩ := List.append_of_mem hmem
    obtain ⟨htr,hn⟩ := hb
    obtain ⟨mid,hxs,hys⟩ := (trace_append P).mp htr
    have haborted := (hend.aborted h).trace (c:=c) ⟨hxs,fun x hx => hn x (by simp [hx])⟩
    cases hys with
    | cons hp => exact haborted.1.not_carried hp hf hfc hk
  · rintro ⟨tr,e₂,hb,hhands⟩ hend
    exact ((hend.aborted h).trace hb).1.not_handsOver hhands

variable (P)

/-- The state of a session only moves forward. Once it is closed, the calls that would carry the
stream on are each refused exactly where `Bars` says, and all of them for good exactly where the
session is `Dead`. After `reset` an endpoint carries no DATA and no CREDIT of the stream where it
has `Ended`, and where it has not, some run takes a CREDIT to the sealer. -/
theorem closed_terminal_iff :
    (∀ (s₀ s : StreamSession) (tr : List SessionEvent), s₀.Started → s₀.Run tr s →
      (∀ back s', s.Run back s' → s.state.Forward s'.state) ∧
      (s.state = .closed → (∀ call, call.advances = true → (s.Refuses call ↔ s.Bars call)) ∧
        (s.Over ↔ s.Dead))) ∧
    ∀ (entropy : Except String Bytes32) (c : Bytes32) (nowMs expiresAt : UInt64)
      (e e' : StreamEndpoint SK) (res : Except MessageError DigMessageEnvelope),
      StreamEndpoint.call P entropy c nowMs expiresAt .reset e = some (res,e') →
      (Ended c e res → ∀ tr e₂, Continues P c e' tr e₂ → ¬ Carried c tr) ∧
      (e'.sendCounter.toNat+2 < 2^64 →
        ((∃ tr e₂, Continues P c e' tr e₂ ∧ e₂.HandsOver P c) ↔ ¬ Ended c e res)) := by
  refine ⟨fun s₀ s tr hs h => ⟨fun back s' hb => hb.forward,fun hc => ?_⟩,
    fun entropy c nowMs expiresAt e e' res h => reset_ends_iff h⟩
  have hremote := h.remote hs
  exact ⟨fun call ha => StreamSession.refuses_iff hremote hc ha,StreamSession.over_iff hremote hc⟩

end

namespace StreamSession

def aborted : List SessionEvent :=
  [⟨.recv .openAck (header .openAck 0 1),.ok (.accepted .established)⟩,
   ⟨.reset,.ok (.built (header .reset 0 0))⟩]

def closedTwice : List SessionEvent :=
  [⟨.recv .openAck (header .openAck 0 1),.ok (.accepted .established)⟩,
   ⟨.close,.ok (.built (header .close 0 0))⟩,
   ⟨.recv .close (header .close 0 0),.ok (.accepted .remoteClosed)⟩]

theorem run_aborted : (initiator 1).Run aborted
    ⟨.initiator,.established,0,0,1,1,false,false,true⟩ := .cons rfl (.cons rfl .nil)

theorem run_closedTwice : (initiator 1).Run closedTwice
    ⟨.initiator,.established,0,0,1,1,true,true,false⟩ := .cons rfl (.cons rfl (.cons rfl .nil))

end StreamSession

/-- The RESET fails to be sealed, and a CREDIT after it is sealed. -/
def carriesOn (st : LinkState Bytes32) : Bool :=
  (StreamEndpoint.call .plain (.error "no entropy") (byte32 8) 1000 0 .reset (st.world .a)).any
    fun p => !p.1.isOk &&
      (StreamEndpoint.call .plain (.ok (byte32 7)) (byte32 8) 1000 0 (.grantCredit 5) p.2).any
        fun q => q.1.isOk

/-- Closed sessions build DATA and take CREDIT, and an endpoint seals CREDIT after its RESET. -/
theorem closed_carries_on :
    (∃ s s', (StreamSession.initiator 1).Run StreamSession.aborted s ∧ s.state = .closed ∧
      SessionCall.data.perform s = some (.ok (.built (header .data 0 0)),s')) ∧
    (∃ s s', (StreamSession.initiator 1).Run StreamSession.closedTwice s ∧ s.state = .closed ∧
      SessionCall.perform (.recv .credit (header .credit 0 5)) s =
        some (.ok (.accepted (.credit 5)),s')) ∧
    ∃ st : LinkState Bytes32, Linked .plain aliceAndBob st.history st.world st.channels ∧
      carriesOn st = true := by
  refine ⟨⟨_,_,StreamSession.run_aborted,rfl,rfl⟩,⟨_,_,StreamSession.run_closedTwice,rfl,rfl⟩,?_⟩
  exact linked_of_check .plain aliceAndBob default (joining (byte32 8) 4 1000) carriesOn
    (by decide +kernel)

theorem aborted_not_over : ∃ s, (StreamSession.initiator 1).Run StreamSession.aborted s ∧
    ¬ s.Over ∧ ¬ s.Refuses .data := by
  have hstart : (StreamSession.initiator 1).Started := ⟨1,Or.inl rfl⟩
  have h := ((closed_terminal_iff Primitives.plain).1 _ _ _ hstart StreamSession.run_aborted).2 rfl
  refine ⟨_,StreamSession.run_aborted,fun hover => ?_,fun hr => ?_⟩
  · cases (h.2.mp hover).opening
  · have hbars := (h.1 .data rfl).mp hr
    simp [StreamSession.Bars] at hbars

end DigMessage
