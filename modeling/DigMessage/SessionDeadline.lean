import DigMessage.EndpointBinding

/-! The lifetime an OPEN carries. A session does not keep it, so a frame that arrives past it is
judged by its own checks alone. -/
namespace DigMessage
open FixedWidth

section
variable {SK : Type} (P : Primitives SK)

/-- The call opens stream `c` with the expiry `deadline`: our own OPEN, or a peer's that is
authentic. -/
def Event.Opens (ev : Event SK) (c : Bytes32) (deadline : UInt64) : Prop :=
  match ev.input with
  | .call correlationId r _ expiresAt _ =>
    correlationId = c ∧ (∃ w, r = .open w) ∧ expiresAt = deadline
  | .accept envelope resolveSenderPub _ _ _ =>
    envelope.correlationId = c ∧
    (∃ hdr, envelope.stream = some hdr ∧ StreamFrame.fromU8 hdr.frame = some .open) ∧
    ∃ shape inner,
      authenticate P ev.before.identitySk envelope resolveSenderPub = .ok (shape,inner) ∧
      inner.expiresAt = deadline

/-- A run to `e`, whose session of `c` was started by an OPEN that expires at `deadline`, and a
clock past that. -/
structure Overdue (e₀ : StreamEndpoint SK) (tr : List (Event SK)) (e : StreamEndpoint SK)
    (c : Bytes32) (deadline nowMs : UInt64) : Prop where
  run : Trace P e₀ tr e
  started : ∃ front ev rest, tr = front++ev::rest ∧ ev.Opens P c deadline ∧
    c ∉ ev.before.sessions ∧ ∀ later ∈ rest, c ∈ later.before.sessions
  live : c ∈ e.sessions
  bounded : deadline ≠ 0
  past : deadline < nowMs

/-- The frame passes every check `accept` makes of a single frame: it authenticates, its own
lifetime and the anti-replay table let it through, it decompresses, and it is a stream frame of
a known kind from the peer. -/
def Actionable (order : HashOrder) (envelope : DigMessageEnvelope)
    (resolveSenderPub : Bytes32 → UInt32 → Option Bytes48) (nowMs : UInt64) (e : StreamEndpoint SK) :
    Prop :=
  ∃ shape inner g' payload hdr frame,
    Admitted P order e.identitySk envelope resolveSenderPub nowMs e.guard shape inner g' ∧
    decompressPayload P inner.compression inner.payload inner.uncompressedLen = .ok payload ∧
    envelope.sender = e.peerDid ∧ shape = .streamFrame ∧ envelope.stream = some hdr ∧
    StreamFrame.fromU8 hdr.frame = some frame

variable {P}

theorem actionable_iff {order : HashOrder} {envelope : DigMessageEnvelope}
    {resolveSenderPub : Bytes32 → UInt32 → Option Bytes48} {nowMs : UInt64} {e : StreamEndpoint SK} :
    Actionable P order envelope resolveSenderPub nowMs e ↔ ∃ m g' hdr frame,
      openMessage P order e.identitySk envelope resolveSenderPub nowMs e.guard = some (.ok m,g') ∧
      Addressed e envelope m hdr frame := by
  constructor
  · rintro ⟨shape,inner,g',payload,hdr,frame,had,hd,hs,hshape,hh,hk⟩
    have hopen := openMessage_of_admitted had
    rw [hd] at hopen
    exact ⟨_,g',hdr,frame,hopen,hs,hh,hk,hshape⟩
  · rintro ⟨m,g',hdr,frame,hopen,haddr⟩
    obtain ⟨shape,inner,payload,had,hd,rfl⟩ := openMessage_ok hopen
    exact ⟨shape,inner,g',payload,hdr,frame,had,hd,haddr.sender,haddr.shape,haddr.stream,haddr.kind⟩

/-- A frame for a live session that passes its own checks is never dropped. -/
theorem Accepts.dropped_iff {order : HashOrder} {entropy : Except String Bytes32}
    {envelope : DigMessageEnvelope} {resolveSenderPub : Bytes32 → UInt32 → Option Bytes48}
    {nowMs : UInt64} {e e' : StreamEndpoint SK} {res : Except MessageError StreamAccept}
    (h : Accepts P order entropy envelope resolveSenderPub nowMs e res e')
    (hlive : envelope.correlationId ∈ e.sessions) :
    ((∃ cause, res = .ok (.dropped cause)) ∧ e'.sessions = e.sessions) ↔
      ¬ Actionable P order envelope resolveSenderPub nowMs e := by
  rw [actionable_iff]
  cases h with
  | refused ho =>
    refine iff_of_true ⟨⟨_,rfl⟩,rfl⟩ ?_
    rintro ⟨m,g',hdr,frame,ho',-⟩
    rw [ho] at ho'
    cases ho'
  | idle cause ho hn =>
    refine iff_of_true ⟨⟨_,rfl⟩,rfl⟩ ?_
    rintro ⟨m,g',hdr,frame,ho',haddr⟩
    rw [ho] at ho'
    cases ho'
    exact hn hdr frame haddr
  | ignored ho ha hr =>
    have hnone := hr.dropped.1
    obtain ⟨s,hs⟩ := Finmap.mem_iff.mp hlive
    rw [hs] at hnone
    cases hnone
  | event ho ha hr =>
    refine iff_of_false ?_ fun hno => hno ⟨_,_,_,_,ho,ha⟩
    rintro ⟨⟨cause,hres⟩,-⟩
    cases hres
  | answered ho ha hr hn hs =>
    refine iff_of_false ?_ fun hno => hno ⟨_,_,_,_,ho,ha⟩
    rintro ⟨⟨cause,hres⟩,-⟩
    cases hres
  | unanswered ho ha hr hn hs =>
    refine iff_of_false ?_ fun hno => hno ⟨_,_,_,_,ho,ha⟩
    rintro ⟨⟨cause,hres⟩,-⟩
    cases hres

theorem not_admitted_of_expired {order : HashOrder} {recipientSk : SK} {envelope : DigMessageEnvelope}
    {resolveSenderPub : Bytes32 → UInt32 → Option Bytes48} {nowMs : UInt64} {g g' : ReplayGuard}
    {shape shape' : InteractionShape} {inner inner' : InnerMessage}
    (ha : authenticate P recipientSk envelope resolveSenderPub = .ok (shape,inner))
    (hx : inner.expiresAt ≠ 0) (hpast : inner.expiresAt < nowMs) :
    ¬ Admitted P order recipientSk envelope resolveSenderPub nowMs g shape' inner' g' := by
  intro had
  have hsame := had.authentic
  rw [ha] at hsame
  obtain ⟨rfl,rfl⟩ := Prod.mk.inj (Except.ok.inj hsame)
  rcases checkExpiry_ok.mp had.unexpired with hzero | ⟨-,hin⟩
  · exact hx hzero
  · exact UInt64.not_lt.mpr hin hpast

theorem Accepts.of_expired {order : HashOrder} {entropy : Except String Bytes32}
    {envelope : DigMessageEnvelope} {resolveSenderPub : Bytes32 → UInt32 → Option Bytes48}
    {nowMs : UInt64} {e e' : StreamEndpoint SK} {res : Except MessageError StreamAccept}
    {shape : InteractionShape} {inner : InnerMessage}
    (h : Accepts P order entropy envelope resolveSenderPub nowMs e res e')
    (ha : authenticate P e.identitySk envelope resolveSenderPub = .ok (shape,inner))
    (hx : inner.expiresAt ≠ 0) (hpast : inner.expiresAt < nowMs) :
    (∃ cause, res = .ok (.dropped cause)) ∧ e' = e := by
  obtain ⟨cause,ho,-⟩ | ⟨shape',inner',g',had,-⟩ :=
    openMessage_cases P order e.identitySk envelope resolveSenderPub nowMs e.guard
  · obtain ⟨hres,he⟩ := h.of_error ho
    exact ⟨⟨cause,hres⟩,he⟩
  · exact absurd had (not_admitted_of_expired ha hx hpast)

/-- Past the deadline of its OPEN a session is left alone by exactly the frames that fail a check
of their own, among them every frame sealed to expire by that deadline. -/
theorem overdue_frame_dropped_iff {order : HashOrder} {entropy : Except String Bytes32}
    {envelope : DigMessageEnvelope} {resolveSenderPub : Bytes32 → UInt32 → Option Bytes48}
    {nowMs deadline : UInt64} {e₀ e e' : StreamEndpoint SK} {tr : List (Event SK)}
    {res : Except MessageError StreamAccept}
    (h : Overdue P e₀ tr e envelope.correlationId deadline nowMs)
    (hacc : StreamEndpoint.accept P order entropy envelope resolveSenderPub nowMs e = some (res,e')) :
    (((∃ cause, res = .ok (.dropped cause)) ∧ e'.sessions = e.sessions) ↔
      ¬ Actionable P order envelope resolveSenderPub nowMs e) ∧
    ∀ shape inner, authenticate P e.identitySk envelope resolveSenderPub = .ok (shape,inner) →
      inner.expiresAt ≠ 0 → inner.expiresAt ≤ deadline →
      (∃ cause, res = .ok (.dropped cause)) ∧ e' = e := by
  have ha := StreamEndpoint.accept_cases P hacc
  refine ⟨ha.dropped_iff h.live,fun shape inner hauth hx hle => ?_⟩
  exact ha.of_expired hauth hx (UInt64.lt_of_le_of_lt hle h.past)

theorem open_apply {entropy : Except String Bytes32} {c : Bytes32} {w : UInt32}
    {nowMs expiresAt next : UInt64} {e : StreamEndpoint SK} (hc : c ∉ e.sessions)
    (hcap : e.sessions.keys.card < e.maxConcurrent) (hn : checkedAdd e.sendCounter 1 = some next) :
    StreamEndpoint.open P entropy c w nowMs expiresAt e =
      some (sealMessage P entropy (e.frameParams c (header .open 0 w) [] nowMs expiresAt),
        {e with sendCounter := next,sessions := e.sessions.insert c (.initiator w)}) := by
  have hcount (s : StreamEndpoint SK) : (Fallible.unwrap (some next) :
      Fallible MessageError (StreamEndpoint SK) UInt64) s = some (.ok next,s) := rfl
  unfold StreamEndpoint.open StreamEndpoint.sealFrame
  rw [Fallible.bind_of_ok (Fallible.read_apply e),if_neg hc,if_neg (Nat.not_le.mpr hcap),
    Fallible.bind_of_ok (Fallible.write_apply _ _),Fallible.bind_of_ok (Fallible.read_apply _)]
  simp only [hn]
  rw [Fallible.bind_of_ok (hcount _),Fallible.bind_of_ok (Fallible.write_apply _ _)]
  rfl

end

def opener : StreamEndpoint Bytes32 :=
  {lone with sendCounter := 1,sessions := lone.sessions.insert (byte32 9) (.initiator 4)}

def opening : Event Bytes32 where
  before := lone
  input := .call (byte32 9) (.open 4) 1000 2000 (.ok (byte32 7))
  outcome := .called (sealMessage .plain (.ok (byte32 7))
    (lone.frameParams (byte32 9) (header .open 0 4) [] 1000 2000))

theorem opening_performs : opening.input.perform .plain lone = some (opening.outcome,opener) := by
  have hopen : StreamEndpoint.open .plain (.ok (byte32 7)) (byte32 9) 4 1000 2000 lone =
      some (_,opener) :=
    open_apply (Finmap.notMem_empty (a:=byte32 9)) (by decide) (by decide)
  exact congrArg (Option.map fun p => (Outcome.called p.1,p.2)) hopen

theorem opener_overdue : Overdue .plain lone [opening] opener (byte32 9) 2000 2500 where
  run := .cons opening_performs (.nil opener)
  started := ⟨[],opening,[],rfl,⟨rfl,⟨4,rfl⟩,rfl⟩,Finmap.notMem_empty,
    fun later h => absurd h List.not_mem_nil⟩
  live := Finmap.mem_insert.mpr (Or.inl rfl)
  bounded := by decide
  past := by decide

/-- An OPEN's deadline bounds its session on every run from `e₀`. -/
def DeadlinesKept {SK : Type} (P : Primitives SK) (e₀ : StreamEndpoint SK) : Prop :=
  ∀ (order : HashOrder) (entropy : Except String Bytes32) (envelope : DigMessageEnvelope)
    (resolveSenderPub : Bytes32 → UInt32 → Option Bytes48) (nowMs deadline : UInt64)
    (e e' : StreamEndpoint SK) (tr : List (Event SK)) (res : Except MessageError StreamAccept),
    Overdue P e₀ tr e envelope.correlationId deadline nowMs →
    StreamEndpoint.accept P order entropy envelope resolveSenderPub nowMs e = some (res,e') →
    (∃ cause, res = .ok (.dropped cause)) ∧ e'.sessions = e.sessions

/-- The handshake is completed past the deadline. -/
theorem late_ack_establishes : ¬ DeadlinesKept .plain lone := by
  intro h
  have hlate : reported default (peersFrame (byte32 11) 0x500 (header .openAck 0 4) 2500 0) 2500
      opener = some (.ok (.event .established)) := by decide +kernel
  obtain ⟨env,esk,e',hseal,hrun⟩ := exists_of_reported hlate
  obtain ⟨_,_,_,_,ct,-,-,-,-,-,rfl⟩ := sealWithEphemeral_ok hseal
  obtain ⟨⟨cause,hres⟩,-⟩ := h _ _ _ _ _ _ _ _ _ _ opener_overdue hrun
  cases hres

/-- An OPEN_ACK sealed to expire with the session is stopped. -/
theorem expired_ack_dropped : ∃ env e' cause,
    StreamEndpoint.accept .plain default (.ok (byte32 7)) env peersKey 2500 opener =
      some (.ok (.dropped cause),e') ∧ e' = opener ∧
    ¬ Actionable .plain default env peersKey 2500 opener := by
  have hlate : reported default (peersFrame (byte32 11) 0x500 (header .openAck 0 4) 1500 2000) 2500
      opener = some (.ok (.dropped .expired)) := by decide +kernel
  obtain ⟨env,esk,e',hseal,hrun⟩ := exists_of_reported hlate
  obtain ⟨compressed,-,ha,ct,he⟩ :=
    authentic_of_sealed Primitives.plain_lawful hseal (peersFrame_keys _ _ _ _ _)
  subst he
  have hiff := overdue_frame_dropped_iff opener_overdue hrun
  have hexpires : (sealedInner .plain
      (peersFrame (byte32 11) 0x500 (header .openAck 0 4) 1500 2000)
      (Primitives.plain.publicKeyBytes esk) compressed).expiresAt = 2000 := rfl
  obtain ⟨⟨cause,hres⟩,hkept⟩ := hiff.2 _ _ ha
    (by rw [hexpires]; decide) (hexpires ▸ UInt64.le_refl _)
  have hno := hiff.1.mp ⟨⟨cause,hres⟩,congrArg StreamEndpoint.sessions hkept⟩
  cases hres
  exact ⟨_,e',_,hrun,hkept,hno⟩

end DigMessage
