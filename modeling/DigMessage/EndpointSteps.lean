import DigMessage.StreamEndpoint

/-! What one call does to an endpoint, said once. Every operation and every inbound
frame touches the slot of a single stream, so the two machines on a slot, `Sends` and
`Receives`, carry all later arguments about sessions. -/
namespace DigMessage
open FixedWidth

def putSession (t : Sessions) (correlationId : Bytes32) : Option StreamSession → Sessions
  | some s => t.insert correlationId s
  | none => t.erase correlationId

theorem lookup_putSession (t : Sessions) (c d : Bytes32) (slot : Option StreamSession) :
    (putSession t c slot).lookup d = if d = c then slot else t.lookup d := by
  cases slot with
  | none =>
    by_cases h : d = c
    · subst h
      simp [putSession]
    · simp [putSession,h,Finmap.lookup_erase_ne h]
  | some s =>
    by_cases h : d = c
    · subst h
      simp [putSession]
    · simp [putSession,h,Finmap.lookup_insert_of_ne t h]

@[simp] theorem lookup_putSession_self (t : Sessions) (c : Bytes32) (slot : Option StreamSession) :
    (putSession t c slot).lookup c = slot := by rw [lookup_putSession,if_pos rfl]

theorem lookup_putSession_ne (t : Sessions) {c d : Bytes32} (slot : Option StreamSession)
    (h : d ≠ c) : (putSession t c slot).lookup d = t.lookup d := by
  rw [lookup_putSession,if_neg h]

theorem putSession_lookup (t : Sessions) (c : Bytes32) : putSession t c (t.lookup c) = t := by
  apply Finmap.ext_lookup
  intro d
  rw [lookup_putSession]
  split
  · rename_i h
    rw [h]
  · rfl

theorem putSession_putSession (t : Sessions) (c : Bytes32) (a b : Option StreamSession) :
    putSession (putSession t c a) c b = putSession t c b := by
  apply Finmap.ext_lookup
  intro d
  simp only [lookup_putSession]
  split <;> rfl

namespace StreamSession

/-- The slot a session leaves: a closed session frees it. -/
def settle (s : StreamSession) : Option StreamSession := if s.isClosed then none else some s

/-- Closed is reset, or closed in both directions, at whatever handshake position. -/
theorem settle_eq (s : StreamSession) :
    s.settle = if s.reset || (s.localClosed && s.remoteClosed) then none else some s := by
  unfold settle isClosed state
  cases hr : s.reset <;> cases hl : s.localClosed <;> cases hc : s.remoteClosed <;>
    cases hh : s.handshake <;> simp

end StreamSession

/-- The slot once the frame of a request is sealed, from the session it moved to. -/
def Request.settle (r : Request) (s : StreamSession) : Option StreamSession :=
  match r with
  | .close => s.settle
  | .reset => none
  | _ => some s

/-- A request on a slot: the header it sends, the slot once that is sealed, and the slot
where sealing fails. -/
inductive Sends : Option StreamSession → Request → StreamHeader → Option StreamSession →
    Option StreamSession → Prop
  | «open» (w : UInt32) : Sends none (.open w) (Request.header 0 (.open w))
      (some (.initiator w)) (some (.initiator w))
  | live {s s' : StreamSession} {r : Request} : s.Send r s' →
      Sends (some s) r (r.header s.sendSeq) (r.settle s') (some s')

inductive Reaction
  | event (event : StreamEvent) | dropped (cause : MessageError) | reset (cause : MessageError)
  deriving DecidableEq, Repr

/-- A verified frame on a slot of a table that may be full: the answer and the new slot. -/
inductive Receives (slot : Option StreamSession) (full : Bool) (hdr : StreamHeader)
    (payload : List UInt8) : StreamFrame → Reaction → Option StreamSession → Prop
  | peerReset {s : StreamSession} : slot = some s →
      Receives slot full hdr payload .reset (.event .peerReset) none
  | strayReset (cause : MessageError) : slot = none →
      Receives slot full hdr payload .reset (.dropped cause) none
  | reopened {s : StreamSession} (cause : MessageError) : slot = some s →
      Receives slot full hdr payload .open (.reset cause) none
  | refused (cause : MessageError) : slot = none → full = true →
      Receives slot full hdr payload .open (.reset cause) none
  | opened : slot = none → full = false →
      Receives slot full hdr payload .open (.event .opened) (some (.responder hdr.window))
  | stray (cause : MessageError) {frame : StreamFrame} : slot = none → frame ≠ .reset →
      frame ≠ .open → Receives slot full hdr payload frame (.dropped cause) none
  | accepted {s s' : StreamSession} {frame : StreamFrame} {a : Accepted} : slot = some s →
      frame ≠ .reset → s.reset = false → s.Recv hdr frame a s' →
      Receives slot full hdr payload frame (.event (toEvent a payload)) s'.settle
  | violated {s : StreamSession} (cause : MessageError) {frame : StreamFrame} : slot = some s →
      frame ≠ .reset → frame ≠ .open → (∀ a t, s.reset = false → ¬ s.Recv hdr frame a t) →
      Receives slot full hdr payload frame (.reset cause) none

theorem Receives.dropped {slot slot' : Option StreamSession} {full : Bool} {hdr : StreamHeader}
    {payload : List UInt8} {frame : StreamFrame} {cause : MessageError}
    (h : Receives slot full hdr payload frame (.dropped cause) slot') :
    slot = none ∧ frame ≠ .open := by
  cases h with
  | strayReset cause hs => exact ⟨hs,nofun⟩
  | stray cause hs hf ho => exact ⟨hs,ho⟩

theorem Receives.none_cases {slot : Option StreamSession} {full : Bool} {hdr : StreamHeader}
    {payload : List UInt8} {frame : StreamFrame} {reaction : Reaction}
    (h : Receives none full hdr payload frame reaction slot) :
    frame = .open ∨ (slot = none ∧ ∃ cause, reaction = .dropped cause) := by
  generalize hn : (none : Option StreamSession) = s at h
  cases h with
  | strayReset cause hs => exact Or.inr ⟨hn,cause,rfl⟩
  | stray cause hs hf ho => exact Or.inr ⟨hn,cause,rfl⟩
  | reopened cause hs => exact Or.inl rfl
  | refused cause hs hf => exact Or.inl rfl
  | opened hs hf => exact Or.inl rfl
  | peerReset hs => rw [← hn] at hs; cases hs
  | accepted hs hf hr hrecv => rw [← hn] at hs; cases hs
  | violated cause hs hf ho hno => rw [← hn] at hs; cases hs

section
variable {SK : Type} (P : Primitives SK)

inductive Called (entropy : Except String Bytes32) (correlationId : Bytes32)
    (nowMs expiresAt : UInt64) (r : Request) (e : StreamEndpoint SK) :
    Except MessageError DigMessageEnvelope → StreamEndpoint SK → Prop
  | rejected (err : MessageError) :
      Called entropy correlationId nowMs expiresAt r e (.error err) e
  | sealed {hdr : StreamHeader} {after failed : Option StreamSession} {next : UInt64}
      {env : DigMessageEnvelope} : Sends (e.sessions.lookup correlationId) r hdr after failed →
      next.toNat = e.sendCounter.toNat+1 →
      sealMessage P entropy (e.frameParams correlationId hdr r.payload nowMs expiresAt) = .ok env →
      Called entropy correlationId nowMs expiresAt r e (.ok env)
        {e with sendCounter := next,sessions := putSession e.sessions correlationId after}
  | unsealed {hdr : StreamHeader} {after failed : Option StreamSession} {next : UInt64}
      {err : MessageError} : Sends (e.sessions.lookup correlationId) r hdr after failed →
      next.toNat = e.sendCounter.toNat+1 →
      sealMessage P entropy (e.frameParams correlationId hdr r.payload nowMs expiresAt) =
        .error err →
      Called entropy correlationId nowMs expiresAt r e (.error err)
        {e with sendCounter := next,sessions := putSession e.sessions correlationId failed}

/-- An opened message is a frame of a known kind from this endpoint's peer. -/
structure Addressed (e : StreamEndpoint SK) (envelope : DigMessageEnvelope) (m : OpenedMessage)
    (hdr : StreamHeader) (frame : StreamFrame) : Prop where
  sender : m.sender = e.peerDid
  stream : envelope.stream = some hdr
  kind : StreamFrame.fromU8 hdr.frame = some frame
  shape : m.shape = .streamFrame

inductive Accepts (order : HashOrder) (entropy : Except String Bytes32)
    (envelope : DigMessageEnvelope) (resolveSenderPub : Bytes32 → UInt32 → Option Bytes48)
    (nowMs : UInt64) (e : StreamEndpoint SK) :
    Except MessageError StreamAccept → StreamEndpoint SK → Prop
  | refused {cause : MessageError} {g : ReplayGuard} :
      openMessage P order e.identitySk envelope resolveSenderPub nowMs e.guard =
        some (.error cause,g) →
      Accepts order entropy envelope resolveSenderPub nowMs e (.ok (.dropped cause))
        {e with guard := g}
  | idle {m : OpenedMessage} {g : ReplayGuard} (cause : MessageError) :
      openMessage P order e.identitySk envelope resolveSenderPub nowMs e.guard = some (.ok m,g) →
      (∀ hdr frame, ¬ Addressed e envelope m hdr frame) →
      Accepts order entropy envelope resolveSenderPub nowMs e (.ok (.dropped cause))
        {e with guard := g}
  | event {m : OpenedMessage} {g : ReplayGuard} {hdr : StreamHeader} {frame : StreamFrame}
      {event : StreamEvent} {slot : Option StreamSession} :
      openMessage P order e.identitySk envelope resolveSenderPub nowMs e.guard = some (.ok m,g) →
      Addressed e envelope m hdr frame →
      Receives (e.sessions.lookup envelope.correlationId)
        (decide (e.sessions.keys.card ≥ e.maxConcurrent)) hdr m.payload frame (.event event) slot →
      Accepts order entropy envelope resolveSenderPub nowMs e (.ok (.event event))
        {e with guard := g,sessions := putSession e.sessions envelope.correlationId slot}
  | ignored {m : OpenedMessage} {g : ReplayGuard} {hdr : StreamHeader} {frame : StreamFrame}
      {cause : MessageError} :
      openMessage P order e.identitySk envelope resolveSenderPub nowMs e.guard = some (.ok m,g) →
      Addressed e envelope m hdr frame →
      Receives (e.sessions.lookup envelope.correlationId)
        (decide (e.sessions.keys.card ≥ e.maxConcurrent)) hdr m.payload frame (.dropped cause)
        none →
      Accepts order entropy envelope resolveSenderPub nowMs e (.ok (.dropped cause))
        {e with guard := g}
  | answered {m : OpenedMessage} {g : ReplayGuard} {hdr : StreamHeader} {frame : StreamFrame}
      {cause : MessageError} {next : UInt64} {reply : DigMessageEnvelope} :
      openMessage P order e.identitySk envelope resolveSenderPub nowMs e.guard = some (.ok m,g) →
      Addressed e envelope m hdr frame →
      Receives (e.sessions.lookup envelope.correlationId)
        (decide (e.sessions.keys.card ≥ e.maxConcurrent)) hdr m.payload frame (.reset cause) none →
      next.toNat = e.sendCounter.toNat+1 →
      sealMessage P entropy (e.frameParams envelope.correlationId (header .reset 0 0) [] nowMs 0) =
        .ok reply →
      Accepts order entropy envelope resolveSenderPub nowMs e (.ok (.reset reply cause))
        {e with
          guard := g
          sendCounter := next
          sessions := putSession e.sessions envelope.correlationId none}
  | unanswered {m : OpenedMessage} {g : ReplayGuard} {hdr : StreamHeader} {frame : StreamFrame}
      {cause err : MessageError} {next : UInt64} :
      openMessage P order e.identitySk envelope resolveSenderPub nowMs e.guard = some (.ok m,g) →
      Addressed e envelope m hdr frame →
      Receives (e.sessions.lookup envelope.correlationId)
        (decide (e.sessions.keys.card ≥ e.maxConcurrent)) hdr m.payload frame (.reset cause) none →
      next.toNat = e.sendCounter.toNat+1 →
      sealMessage P entropy (e.frameParams envelope.correlationId (header .reset 0 0) [] nowMs 0) =
        .error err →
      Accepts order entropy envelope resolveSenderPub nowMs e (.error err)
        {e with
          guard := g
          sendCounter := next
          sessions := putSession e.sessions envelope.correlationId none}

variable {P}

theorem Accepts.of_error {order : HashOrder} {entropy : Except String Bytes32}
    {envelope : DigMessageEnvelope} {resolveSenderPub : Bytes32 → UInt32 → Option Bytes48}
    {nowMs : UInt64} {e e' : StreamEndpoint SK} {res : Except MessageError StreamAccept}
    {cause : MessageError} {g : ReplayGuard}
    (h : Accepts P order entropy envelope resolveSenderPub nowMs e res e')
    (ho : openMessage P order e.identitySk envelope resolveSenderPub nowMs e.guard =
      some (.error cause,g)) : res = .ok (.dropped cause) ∧ e' = {e with guard := g} := by
  cases h with
  | refused ho' =>
    rw [ho] at ho'
    cases ho'
    exact ⟨rfl,rfl⟩
  | idle cause' ho' hn => rw [ho] at ho'; cases ho'
  | event ho' ha hr => rw [ho] at ho'; cases ho'
  | ignored ho' ha hr => rw [ho] at ho'; cases ho'
  | answered ho' ha hr hn hseal => rw [ho] at ho'; cases ho'
  | unanswered ho' ha hr hn hseal => rw [ho] at ho'; cases ho'

variable (P)

namespace StreamEndpoint

theorem sessionMut_cases {α : Type} {c : Bytes32} {x : Fallible MessageError StreamSession α}
    {e e' : StreamEndpoint SK} {res : Except MessageError α}
    (h : sessionMut c x e = some (res,e')) :
    (e.sessions.lookup c = none ∧ e' = e ∧ ∃ err, res = .error err) ∨
    ∃ s s', e.sessions.lookup c = some s ∧ x s = some (res,s') ∧
      e' = {e with sessions := e.sessions.insert c s'} := by
  unfold sessionMut at h
  rw [Fallible.bind_of_ok (Fallible.read_apply e)] at h
  cases hl : e.sessions.lookup c with
  | none =>
    simp only [hl,Fallible.fail_apply,Option.some.injEq,Prod.mk.injEq] at h
    exact Or.inl ⟨rfl,h.2.symm,_,h.1.symm⟩
  | some s =>
    simp only [hl] at h
    obtain ⟨s',hx,he⟩ := Fallible.onPart_eq_some.mp h
    exact Or.inr ⟨s,s',rfl,hx,he⟩

theorem expectSession_eq {α : Type} {c : Bytes32} {e : StreamEndpoint SK} (hm : c ∈ e.sessions)
    (x : Fallible MessageError StreamSession α) : expectSession c x e = sessionMut c x e := by
  obtain ⟨s,hl⟩ := Finmap.mem_iff.mp hm
  have hs : (Fallible.unwrap (e.sessions.lookup c) :
      Fallible MessageError (StreamEndpoint SK) StreamSession) e = some (.ok s,e) :=
    Fallible.unwrap_eq_some.mpr ⟨s,hl,rfl,rfl⟩
  unfold expectSession sessionMut
  rw [Fallible.bind_of_ok (Fallible.read_apply e),Fallible.bind_of_ok (Fallible.read_apply e),
    Fallible.bind_of_ok hs]
  simp only [hl]

theorem sealFrame_cases {entropy : Except String Bytes32} {c : Bytes32} {hdr : StreamHeader}
    {payload : List UInt8} {nowMs expiresAt : UInt64} {e e' : StreamEndpoint SK}
    {res : Except MessageError DigMessageEnvelope}
    (h : sealFrame P entropy c hdr payload nowMs expiresAt e = some (res,e')) :
    ∃ next : UInt64, next.toNat = e.sendCounter.toNat+1 ∧ e' = {e with sendCounter := next} ∧
      res = sealMessage P entropy (e.frameParams c hdr payload nowMs expiresAt) := by
  unfold sealFrame at h
  rw [Fallible.bind_of_ok (Fallible.read_apply e)] at h
  rcases Fallible.bind_eq_some.mp h with ⟨err,hn,-⟩ | ⟨next,u,hn,hw⟩
  · obtain ⟨n,-,hok,-⟩ := Fallible.unwrap_eq_some.mp hn
    cases hok
  · obtain ⟨n,hadd,hok,-⟩ := Fallible.unwrap_eq_some.mp hn
    cases hok
    rw [Fallible.bind_of_ok (Fallible.write_apply _ _)] at hw
    cases hw
    exact ⟨next,checkedAdd_eq_some.mp hadd,rfl,rfl⟩

theorem dropIfClosed_apply (c : Bytes32) (e : StreamEndpoint SK) :
    dropIfClosed c e = some (.ok (),{e with
      sessions := putSession e.sessions c ((e.sessions.lookup c).bind StreamSession.settle)}) := by
  unfold dropIfClosed
  rw [Fallible.bind_of_ok (Fallible.read_apply e)]
  cases hl : e.sessions.lookup c with
  | none =>
    have hp := putSession_lookup e.sessions c
    rw [hl] at hp
    simp [hp]
  | some s =>
    have hp := putSession_lookup e.sessions c
    rw [hl] at hp
    by_cases hc : s.isClosed
    · simp [StreamSession.settle,hc,putSession]
    · simp [StreamSession.settle,hc,hp]

/-- Move the session of a stream, then seal its frame: the shape of every operation on a
live stream. -/
theorem moveAndSeal_cases {entropy : Except String Bytes32} {c : Bytes32}
    {nowMs expiresAt : UInt64} {build : Fallible MessageError StreamSession StreamHeader}
    {r : Request} (hb : StreamSession.Builds build r) {e e' : StreamEndpoint SK}
    {res : Except MessageError DigMessageEnvelope}
    (h : (sessionMut c build >>= fun hdr =>
      sealFrame P entropy c hdr r.payload nowMs expiresAt) e = some (res,e')) :
    (e' = e ∧ ∃ err, res = .error err) ∨
    ∃ (s s' : StreamSession) (next : UInt64), e.sessions.lookup c = some s ∧ s.Send r s' ∧
      next.toNat = e.sendCounter.toNat+1 ∧
      res = sealMessage P entropy
        (e.frameParams c (r.header s.sendSeq) r.payload nowMs expiresAt) ∧
      e' = {e with sendCounter := next,sessions := e.sessions.insert c s'} := by
  rcases Fallible.bind_eq_some.mp h with ⟨err,hm,rfl⟩ | ⟨hdr,u,hm,hs⟩
  · obtain ⟨-,rfl,-⟩ | ⟨s,s',hl,hx,rfl⟩ := sessionMut_cases hm
    · exact Or.inl ⟨rfl,err,rfl⟩
    · cases hb.error hx
      have hp := putSession_lookup e.sessions c
      rw [hl] at hp
      have hsame : e.sessions.insert c s = e.sessions := hp
      exact Or.inl ⟨by rw [hsame],err,rfl⟩
  · obtain ⟨-,-,err,he⟩ | ⟨s,s',hl,hx,rfl⟩ := sessionMut_cases hm
    · cases he
    · obtain ⟨hsend,rfl⟩ := hb.ok hx
      obtain ⟨next,hn,rfl,rfl⟩ := sealFrame_cases P hs
      exact Or.inr ⟨s,s',next,hl,hsend,hn,rfl,rfl⟩

theorem moveAndSeal_error {entropy : Except String Bytes32} {c : Bytes32}
    {nowMs expiresAt : UInt64} {build : Fallible MessageError StreamSession StreamHeader}
    {r : Request} (hb : StreamSession.Builds build r) {e e' : StreamEndpoint SK} {err : MessageError}
    (h : (sessionMut c build >>= fun hdr =>
      sealFrame P entropy c hdr r.payload nowMs expiresAt) e = some (.error err,e')) :
    Called P entropy c nowMs expiresAt r e (.error err) e' := by
  obtain ⟨rfl,-⟩ | ⟨s,s',next,hl,hsend,hn,hres,rfl⟩ := moveAndSeal_cases P hb h
  · exact .rejected err
  · have hs := Sends.live hsend
    rw [← hl] at hs
    exact .unsealed hs hn hres.symm

theorem moveAndSeal_ok {entropy : Except String Bytes32} {c : Bytes32}
    {nowMs expiresAt : UInt64} {build : Fallible MessageError StreamSession StreamHeader}
    {r : Request} (hb : StreamSession.Builds build r) {e e' : StreamEndpoint SK}
    {env : DigMessageEnvelope}
    (h : (sessionMut c build >>= fun hdr =>
      sealFrame P entropy c hdr r.payload nowMs expiresAt) e = some (.ok env,e')) :
    ∃ s', e'.sessions.lookup c = some s' ∧ Called P entropy c nowMs expiresAt r e (.ok env)
      {e' with sessions := putSession e'.sessions c (r.settle s')} := by
  obtain ⟨-,err,he⟩ | ⟨s,s',next,hl,hsend,hn,hres,rfl⟩ := moveAndSeal_cases P hb h
  · cases he
  · have hs := Sends.live hsend
    rw [← hl] at hs
    have hput : putSession (e.sessions.insert c s') c (r.settle s') =
        putSession e.sessions c (r.settle s') := putSession_putSession _ c (some s') _
    refine ⟨s',Finmap.lookup_insert _,?_⟩
    simp only [hput]
    exact .sealed hs hn hres.symm

theorem call_cases_of_settle {entropy : Except String Bytes32} {c : Bytes32}
    {nowMs expiresAt : UInt64} {build : Fallible MessageError StreamSession StreamHeader}
    {r : Request} (hb : StreamSession.Builds build r) (hr : ∀ s, r.settle s = some s)
    {e e' : StreamEndpoint SK} {res : Except MessageError DigMessageEnvelope}
    (h : (sessionMut c build >>= fun hdr =>
      sealFrame P entropy c hdr r.payload nowMs expiresAt) e = some (res,e')) :
    Called P entropy c nowMs expiresAt r e res e' := by
  cases res with
  | error err => exact moveAndSeal_error P hb h
  | ok env =>
    obtain ⟨s',hl,hcall⟩ := moveAndSeal_ok P hb h
    rw [hr,← hl,putSession_lookup] at hcall
    exact hcall

/-- Every send-side operation has one of the outcomes of `Called`. -/
theorem call_cases {entropy : Except String Bytes32} {c : Bytes32} {nowMs expiresAt : UInt64}
    {r : Request} {e e' : StreamEndpoint SK} {res : Except MessageError DigMessageEnvelope}
    (h : call P entropy c nowMs expiresAt r e = some (res,e')) :
    Called P entropy c nowMs expiresAt r e res e' := by
  cases r with
  | «open» w =>
    change «open» P entropy c w nowMs expiresAt e = _ at h
    unfold «open» at h
    rw [Fallible.bind_of_ok (Fallible.read_apply e)] at h
    split_ifs at h with hm hf
    · cases h
      exact .rejected _
    · cases h
      exact .rejected _
    · rw [Fallible.bind_of_ok (Fallible.write_apply _ _)] at h
      obtain ⟨next,hn,rfl,hres⟩ := sealFrame_cases P h
      have hs : Sends (e.sessions.lookup c) (.open w) (header .open 0 w)
          (some (.initiator w)) (some (.initiator w)) := by
        rw [Finmap.lookup_eq_none.mpr hm]
        exact .open w
      cases hseal : sealMessage P entropy
          (e.frameParams c (header .open 0 w) [] nowMs expiresAt) with
      | error err =>
        rw [show res = .error err from hres.trans hseal]
        exact .unsealed hs hn hseal
      | ok env =>
        rw [show res = .ok env from hres.trans hseal]
        exact .sealed hs hn hseal
  | openAck w =>
    exact call_cases_of_settle P (StreamSession.buildOpenAck_builds w) (fun _ => rfl) h
  | sendData payload =>
    exact call_cases_of_settle P (StreamSession.buildData_builds payload) (fun _ => rfl) h
  | grantCredit n =>
    exact call_cases_of_settle P (StreamSession.buildCredit_builds n) (fun _ => rfl) h
  | close =>
    change close P entropy c nowMs expiresAt e = _ at h
    unfold close at h
    rw [← Fallible.bind_assoc] at h
    rcases Fallible.bind_eq_some.mp h with ⟨err,hm,rfl⟩ | ⟨env,u,hm,hd⟩
    · exact moveAndSeal_error P StreamSession.buildClose_builds hm
    · obtain ⟨s',hl,hcall⟩ := moveAndSeal_ok P StreamSession.buildClose_builds hm
      rw [Fallible.bind_of_ok (dropIfClosed_apply c u),hl,Option.bind_some] at hd
      cases hd
      exact hcall
  | reset =>
    change reset P entropy c nowMs expiresAt e = _ at h
    unfold reset at h
    rw [← Fallible.bind_assoc] at h
    rcases Fallible.bind_eq_some.mp h with ⟨err,hm,rfl⟩ | ⟨env,u,hm,hd⟩
    · exact moveAndSeal_error P StreamSession.buildReset_builds hm
    · obtain ⟨s',-,hcall⟩ := moveAndSeal_ok P StreamSession.buildReset_builds hm
      cases hd
      exact hcall

theorem removeSession_apply (c : Bytes32) (e : StreamEndpoint SK) :
    removeSession c e = some (.ok (),{e with sessions := putSession e.sessions c none}) := rfl

theorem resetResponse_cases {entropy : Except String Bytes32} {c : Bytes32} {nowMs : UInt64}
    {cause : MessageError} {e e' : StreamEndpoint SK} {res : Except MessageError StreamAccept}
    (h : resetResponse P entropy c nowMs cause e = some (res,e')) :
    ∃ next : UInt64, next.toNat = e.sendCounter.toNat+1 ∧ e' = {e with sendCounter := next} ∧
      res = (sealMessage P entropy (e.frameParams c (header .reset 0 0) [] nowMs 0)).map
        fun frame => .reset frame cause := by
  unfold resetResponse at h
  rcases Fallible.bind_eq_some.mp h with ⟨err,hs,rfl⟩ | ⟨frame,u,hs,hp⟩
  · obtain ⟨next,hn,rfl,hres⟩ := sealFrame_cases P hs
    exact ⟨next,hn,rfl,by rw [← hres]; rfl⟩
  · obtain ⟨next,hn,rfl,hres⟩ := sealFrame_cases P hs
    cases hp
    exact ⟨next,hn,rfl,by rw [← hres]; rfl⟩

inductive Reacts (entropy : Except String Bytes32) (c : Bytes32) (frame : StreamFrame)
    (hdr : StreamHeader) (payload : List UInt8) (nowMs : UInt64) (e : StreamEndpoint SK) :
    Except MessageError StreamAccept → StreamEndpoint SK → Prop
  | event {event : StreamEvent} {slot : Option StreamSession} :
      Receives (e.sessions.lookup c) (decide (e.sessions.keys.card ≥ e.maxConcurrent)) hdr payload
        frame (.event event) slot →
      Reacts entropy c frame hdr payload nowMs e (.ok (.event event))
        {e with sessions := putSession e.sessions c slot}
  | ignored {cause : MessageError} :
      Receives (e.sessions.lookup c) (decide (e.sessions.keys.card ≥ e.maxConcurrent)) hdr payload
        frame (.dropped cause) none →
      Reacts entropy c frame hdr payload nowMs e (.ok (.dropped cause)) e
  | answered {cause : MessageError} {next : UInt64} :
      Receives (e.sessions.lookup c) (decide (e.sessions.keys.card ≥ e.maxConcurrent)) hdr payload
        frame (.reset cause) none →
      next.toNat = e.sendCounter.toNat+1 →
      Reacts entropy c frame hdr payload nowMs e
        ((sealMessage P entropy (e.frameParams c (header .reset 0 0) [] nowMs 0)).map
          fun reply => .reset reply cause)
        {e with sendCounter := next,sessions := putSession e.sessions c none}

theorem acceptOpen_cases {entropy : Except String Bytes32} {c : Bytes32} {hdr : StreamHeader}
    {payload : List UInt8} {nowMs : UInt64} {e e' : StreamEndpoint SK}
    {res : Except MessageError StreamAccept}
    (h : acceptOpen P entropy c hdr nowMs e = some (res,e')) :
    Reacts P entropy c .open hdr payload nowMs e res e' := by
  unfold acceptOpen at h
  rw [Fallible.bind_of_ok (Fallible.read_apply e)] at h
  split_ifs at h with hm hf
  · rw [Fallible.bind_of_ok (removeSession_apply c e)] at h
    obtain ⟨s,hl⟩ := Finmap.mem_iff.mp hm
    obtain ⟨next,hn,rfl,rfl⟩ := resetResponse_cases P h
    exact .answered (.reopened _ hl) hn
  · have hl := Finmap.lookup_eq_none.mpr hm
    obtain ⟨next,hn,rfl,rfl⟩ := resetResponse_cases P h
    have hp := putSession_lookup e.sessions c
    rw [hl] at hp
    have hr : Reacts P entropy c .open hdr payload nowMs e _ _ :=
      .answered (.refused (.streamLimit e.maxConcurrent) hl (by simpa using hf)) hn
    rw [hp] at hr
    exact hr
  · have hl := Finmap.lookup_eq_none.mpr hm
    cases h
    exact .event (.opened hl (by simpa using hf))

theorem acceptFrame_cases {entropy : Except String Bytes32} {c : Bytes32} {frame : StreamFrame}
    {hdr : StreamHeader} {payload : List UInt8} {nowMs : UInt64} {e e' : StreamEndpoint SK}
    {res : Except MessageError StreamAccept}
    (h : acceptFrame P entropy c frame hdr payload nowMs e = some (res,e')) :
    Reacts P entropy c frame hdr payload nowMs e res e' := by
  unfold acceptFrame at h
  rw [Fallible.bind_of_ok (Fallible.read_apply e)] at h
  by_cases hreset : frame = .reset
  · subst hreset
    rw [if_pos rfl] at h
    split_ifs at h with hm
    · obtain ⟨s,hl⟩ := Finmap.mem_iff.mp hm
      rw [Fallible.bind_of_ok (removeSession_apply c e)] at h
      cases h
      exact .event (.peerReset hl)
    · cases h
      exact .ignored (.strayReset _ (Finmap.lookup_eq_none.mpr hm))
  · rw [if_neg hreset] at h
    by_cases hopen : frame = .open
    · subst hopen
      rw [if_pos rfl] at h
      exact acceptOpen_cases P h
    · rw [if_neg hopen] at h
      split_ifs at h with hm
      · obtain ⟨s,hl⟩ := Finmap.mem_iff.mp hm
        rcases Fallible.bind_eq_some.mp h with ⟨err,ha,-⟩ | ⟨transition,u,ha,ht⟩
        · obtain ⟨r,-,hr⟩ := Fallible.attempt_eq_some.mp ha
          cases hr
        · obtain ⟨r,hs,hr⟩ := Fallible.attempt_eq_some.mp ha
          cases hr
          rw [expectSession_eq hm] at hs
          obtain ⟨hnone,-⟩ | ⟨s₁,s',hl₁,hx,rfl⟩ := sessionMut_cases hs
          · rw [hl] at hnone
            cases hnone
          · rw [hl] at hl₁
            cases hl₁
            cases transition with
            | ok accepted =>
              obtain ⟨hreset,hrecv⟩ := StreamSession.onRecv_ok hx
              simp only at ht
              rw [Fallible.bind_of_ok (dropIfClosed_apply c _)] at ht
              simp only [Finmap.lookup_insert,Option.bind_some] at ht
              cases ht
              have hput : putSession (e.sessions.insert c s') c s'.settle =
                  putSession e.sessions c s'.settle := putSession_putSession _ c (some s') _
              rw [hput]
              exact .event (.accepted hl ‹_› hreset hrecv)
            | error cause =>
              obtain ⟨rfl,hno⟩ := StreamSession.onRecv_error hx
              simp only at ht
              rw [Fallible.bind_of_ok (removeSession_apply c _)] at ht
              obtain ⟨next,hn,rfl,rfl⟩ := resetResponse_cases P ht
              have hput : putSession (e.sessions.insert c s') c none =
                  putSession e.sessions c none := putSession_putSession _ c (some s') none
              simp only [hput]
              exact .answered (.violated _ hl ‹_› hopen hno) hn
      · cases h
        exact .ignored (.stray _ (Finmap.lookup_eq_none.mpr hm) hreset hopen)

/-- `accept` drops the envelope, or drives the state machine with the frame it carries. -/
theorem accept_enters {order : HashOrder} {entropy : Except String Bytes32}
    {envelope : DigMessageEnvelope} {resolveSenderPub : Bytes32 → UInt32 → Option Bytes48}
    {nowMs : UInt64} {e e' : StreamEndpoint SK} {res : Except MessageError StreamAccept}
    (h : accept P order entropy envelope resolveSenderPub nowMs e = some (res,e')) :
    (∃ cause g, openMessage P order e.identitySk envelope resolveSenderPub nowMs e.guard =
        some (.error cause,g) ∧ res = .ok (.dropped cause) ∧ e' = {e with guard := g}) ∨
    ∃ m g, openMessage P order e.identitySk envelope resolveSenderPub nowMs e.guard =
        some (.ok m,g) ∧
      ((∃ cause, (∀ hdr frame, ¬ Addressed e envelope m hdr frame) ∧ res = .ok (.dropped cause) ∧
        e' = {e with guard := g}) ∨
      ∃ hdr frame, Addressed e envelope m hdr frame ∧
        acceptFrame P entropy envelope.correlationId frame hdr m.payload nowMs {e with guard := g} =
          some (res,e')) := by
  unfold accept at h
  rw [Fallible.bind_of_ok (Fallible.read_apply e)] at h
  rcases Fallible.bind_eq_some.mp h with ⟨err,ha,-⟩ | ⟨outcome,u,ha,ht⟩
  · obtain ⟨r,-,hr⟩ := Fallible.attempt_eq_some.mp ha
    cases hr
  · obtain ⟨r,hg,hr⟩ := Fallible.attempt_eq_some.mp ha
    cases hr
    obtain ⟨g,hopen,rfl⟩ := Fallible.onPart_eq_some.mp hg
    cases outcome with
    | error cause =>
      cases ht
      exact Or.inl ⟨_,g,hopen,rfl,rfl⟩
    | ok m =>
      refine Or.inr ⟨m,g,hopen,?_⟩
      simp only at ht
      by_cases hs : m.sender ≠ e.peerDid
      · rw [if_pos hs] at ht
        cases ht
        exact Or.inl ⟨_,fun hdr frame hf => hs hf.sender,rfl,rfl⟩
      · rw [if_neg hs] at ht
        cases hh : envelope.stream with
        | none =>
          rw [hh] at ht
          cases ht
          refine Or.inl ⟨_,fun hdr frame hf => ?_,rfl,rfl⟩
          have hstream := hf.stream
          rw [hh] at hstream
          cases hstream
        | some hdr =>
          rw [hh] at ht
          simp only at ht
          cases hk : StreamFrame.fromU8 hdr.frame with
          | none =>
            rw [hk] at ht
            cases ht
            refine Or.inl ⟨_,fun hdr' frame hf => ?_,rfl,rfl⟩
            have hstream := hf.stream
            rw [hh] at hstream
            cases hstream
            have hkind := hf.kind
            rw [hk] at hkind
            cases hkind
          | some frame =>
            rw [hk] at ht
            simp only at ht
            by_cases hshape : m.shape ≠ .streamFrame
            · rw [if_pos hshape] at ht
              cases ht
              exact Or.inl ⟨_,fun hdr' frame' hf => hshape hf.shape,rfl,rfl⟩
            · rw [if_neg hshape] at ht
              exact Or.inr ⟨hdr,frame,⟨not_not.mp hs,hh,hk,not_not.mp hshape⟩,ht⟩

theorem accept_of_error {order : HashOrder} {envelope : DigMessageEnvelope}
    {resolveSenderPub : Bytes32 → UInt32 → Option Bytes48} {nowMs : UInt64} {e : StreamEndpoint SK}
    {cause : MessageError} {g : ReplayGuard} (entropy : Except String Bytes32)
    (hopen : openMessage P order e.identitySk envelope resolveSenderPub nowMs e.guard =
      some (.error cause,g)) :
    accept P order entropy envelope resolveSenderPub nowMs e =
      some (.ok (.dropped cause),{e with guard := g}) := by
  have hpart : Fallible.onPart guard (fun e guard => {e with guard})
      (openMessage P order e.identitySk envelope resolveSenderPub nowMs) e =
        some (.error cause,{e with guard := g}) := Fallible.onPart_eq_some.mpr ⟨g,hopen,rfl⟩
  have htry := Fallible.attempt_eq_some.mpr ⟨_,hpart,rfl⟩
  unfold accept
  rw [Fallible.bind_of_ok (Fallible.read_apply e),Fallible.bind_of_ok htry]
  rfl

theorem accept_cases {order : HashOrder} {entropy : Except String Bytes32}
    {envelope : DigMessageEnvelope} {resolveSenderPub : Bytes32 → UInt32 → Option Bytes48}
    {nowMs : UInt64} {e e' : StreamEndpoint SK} {res : Except MessageError StreamAccept}
    (h : accept P order entropy envelope resolveSenderPub nowMs e = some (res,e')) :
    Accepts P order entropy envelope resolveSenderPub nowMs e res e' := by
  obtain ⟨cause,g,hopen,rfl,rfl⟩ | ⟨m,g,hopen,⟨cause,hno,rfl,rfl⟩ | ⟨hdr,frame,haddr,ht⟩⟩ :=
    accept_enters P h
  · exact .refused hopen
  · exact .idle _ hopen hno
  · cases acceptFrame_cases P ht with
    | event hr => exact .event hopen haddr hr
    | ignored hr => exact .ignored hopen haddr hr
    | answered hr hn =>
      cases hseal : sealMessage P entropy
          (e.frameParams envelope.correlationId (header .reset 0 0) [] nowMs 0) with
      | error err =>
        have hout := Accepts.unanswered (P:=P) hopen haddr hr hn hseal
        simp only [Except.map]
        have hparams : sealMessage P entropy (StreamEndpoint.frameParams {e with guard := g}
            envelope.correlationId (header .reset 0 0) [] nowMs 0) = .error err := hseal
        rw [hparams]
        exact hout
      | ok reply =>
        have hout := Accepts.answered (P:=P) hopen haddr hr hn hseal
        have hparams : sealMessage P entropy (StreamEndpoint.frameParams {e with guard := g}
            envelope.correlationId (header .reset 0 0) [] nowMs 0) = .ok reply := hseal
        rw [hparams]
        exact hout

end StreamEndpoint
end
end DigMessage
