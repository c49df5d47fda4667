import DigMessage.EndpointBinding

/-! Streams that share an endpoint. An operation or an inbound frame touches the session of its
own stream and no other, and what `accept` returns says what became of that session. -/
namespace DigMessage
open FixedWidth

section
variable {SK : Type}

/-- The sessions of all streams but `c` are as they were: none changed, added or removed. -/
def Isolated (c : Bytes32) (e e' : StreamEndpoint SK) : Prop :=
  ∀ d, d ≠ c → e'.session d = e.session d

/-- What an event says of the session of its stream. -/
def EventEffect (envelope : DigMessageEnvelope) (e e' : StreamEndpoint SK) : StreamEvent → Prop
  | .opened => e.session envelope.correlationId = none ∧
      (∃ hdr, envelope.stream = some hdr ∧
        e'.session envelope.correlationId = some (.responder hdr.window)) ∧
      e'.streamCount ≤ e'.maxConcurrent
  | .peerReset => (∃ s, e.session envelope.correlationId = some s) ∧
      e'.session envelope.correlationId = none
  | event => ∃ s hdr frame a s' payload, e.session envelope.correlationId = some s ∧
      envelope.stream = some hdr ∧ StreamFrame.fromU8 hdr.frame = some frame ∧
      StreamSession.onRecv frame hdr s = some (.ok a,s') ∧ event = toEvent a payload ∧
      e'.session envelope.correlationId = if s'.isClosed then none else some s'

/-- What the outcome of an accept says of the sessions and the send counter. Where the RESET
could not be sealed its session is gone all the same. -/
def AcceptEffect (envelope : DigMessageEnvelope) (e e' : StreamEndpoint SK) :
    Except MessageError StreamAccept → Prop
  | .ok (.dropped _) => e'.sessions = e.sessions ∧ e'.sendCounter = e.sendCounter
  | .ok (.event event) => e'.sendCounter = e.sendCounter ∧ EventEffect envelope e e' event
  | .ok (.reset _ _) => e'.session envelope.correlationId = none ∧
      e'.sendCounter.toNat = e.sendCounter.toNat+1
  | .error _ => e'.session envelope.correlationId = none ∧
      e'.sendCounter.toNat = e.sendCounter.toNat+1

theorem isolated_putSession {c : Bytes32} {e e' : StreamEndpoint SK} {slot : Option StreamSession}
    (h : e'.sessions = putSession e.sessions c slot) : Isolated c e e' := by
  intro d hd
  unfold StreamEndpoint.session
  rw [h]
  exact lookup_putSession_ne e.sessions slot hd

theorem keys_putSession_some (t : Sessions) (c : Bytes32) (s : StreamSession) :
    (putSession t c (some s)).keys = insert c t.keys := by
  ext d
  simp [putSession,Finmap.mem_keys,Finmap.mem_insert]

theorem card_putSession_le (t : Sessions) (c : Bytes32) (s : StreamSession) :
    (putSession t c (some s)).keys.card ≤ t.keys.card+1 := by
  rw [keys_putSession_some]
  exact Finset.card_insert_le c t.keys

variable {P : Primitives SK}

theorem Receives.effect {envelope : DigMessageEnvelope} {e e' : StreamEndpoint SK}
    {hdr : StreamHeader} {frame : StreamFrame} {payload : List UInt8} {event : StreamEvent}
    {slot : Option StreamSession}
    (h : Receives (e.sessions.lookup envelope.correlationId)
      (decide (e.sessions.keys.card ≥ e.maxConcurrent)) hdr payload frame (.event event) slot)
    (hs : envelope.stream = some hdr) (hf : StreamFrame.fromU8 hdr.frame = some frame)
    (he : e'.sessions = putSession e.sessions envelope.correlationId slot)
    (hm : e'.maxConcurrent = e.maxConcurrent) : EventEffect envelope e e' event := by
  have hslot : e'.session envelope.correlationId = slot := by
    unfold StreamEndpoint.session
    rw [he]
    exact lookup_putSession_self _ _ _
  generalize hreact : Reaction.event event = reaction at h
  cases h with
  | peerReset hlive =>
    cases hreact
    exact ⟨⟨_,hlive⟩,hslot⟩
  | opened hnone hroom =>
    cases hreact
    refine ⟨hnone,⟨hdr,hs,hslot⟩,?_⟩
    have hcard := card_putSession_le e.sessions envelope.correlationId (.responder hdr.window)
    rw [decide_eq_false_iff_not] at hroom
    unfold StreamEndpoint.streamCount
    rw [he,hm]
    omega
  | @accepted s s' _ a hlive hframe hreset hrecv =>
    cases hreact
    have hnext : ∃ s hdr frame a' s' payload', e.session envelope.correlationId = some s ∧
        envelope.stream = some hdr ∧ StreamFrame.fromU8 hdr.frame = some frame ∧
        StreamSession.onRecv frame hdr s = some (.ok a',s') ∧
        toEvent a payload = toEvent a' payload' ∧
        e'.session envelope.correlationId = if s'.isClosed then none else some s' :=
      ⟨s,hdr,frame,a,s',payload,hlive,hs,hf,StreamSession.onRecv_of_recv hreset hrecv,rfl,hslot⟩
    cases hrecv with
    | reset => exact absurd rfl hframe
    | _ => exact hnext
  | _ => cases hreact

theorem Called.isolated {entropy : Except String Bytes32} {c : Bytes32} {nowMs expiresAt : UInt64}
    {r : Request} {e e' : StreamEndpoint SK} {res : Except MessageError DigMessageEnvelope}
    (h : Called P entropy c nowMs expiresAt r e res e') : Isolated c e e' := by
  cases h with
  | rejected err => exact fun d hd => rfl
  | «sealed» hs hn hseal => exact isolated_putSession rfl
  | unsealed hs hn hseal => exact isolated_putSession rfl

theorem Accepts.effect {order : HashOrder} {entropy : Except String Bytes32}
    {envelope : DigMessageEnvelope} {resolveSenderPub : Bytes32 → UInt32 → Option Bytes48}
    {nowMs : UInt64} {e e' : StreamEndpoint SK} {res : Except MessageError StreamAccept}
    (h : Accepts P order entropy envelope resolveSenderPub nowMs e res e') :
    Isolated envelope.correlationId e e' ∧ AcceptEffect envelope e e' res := by
  have hgone : e'.sessions = putSession e.sessions envelope.correlationId none →
      Isolated envelope.correlationId e e' ∧ e'.session envelope.correlationId = none := by
    intro he
    refine ⟨isolated_putSession he,?_⟩
    unfold StreamEndpoint.session
    rw [he]
    exact lookup_putSession_self _ _ _
  cases h with
  | refused hopen => exact ⟨fun d hd => rfl,rfl,rfl⟩
  | idle cause hopen hno => exact ⟨fun d hd => rfl,rfl,rfl⟩
  | ignored hopen ha hr => exact ⟨fun d hd => rfl,rfl,rfl⟩
  | event hopen ha hr =>
    exact ⟨isolated_putSession rfl,rfl,hr.effect ha.stream ha.kind rfl rfl⟩
  | answered hopen ha hr hn hseal => exact ⟨(hgone rfl).1,(hgone rfl).2,hn⟩
  | unanswered hopen ha hr hn hseal => exact ⟨(hgone rfl).1,(hgone rfl).2,hn⟩

/-- Every operation on a stream leaves the sessions of the others alone, and the outcome of an
accept says what became of its own. -/
theorem streams_isolated (P : Primitives SK) :
    (∀ (order : HashOrder) (entropy : Except String Bytes32) (envelope : DigMessageEnvelope)
      (resolveSenderPub : Bytes32 → UInt32 → Option Bytes48) (nowMs : UInt64)
      (e e' : StreamEndpoint SK) (res : Except MessageError StreamAccept),
      StreamEndpoint.accept P order entropy envelope resolveSenderPub nowMs e = some (res,e') →
      Isolated envelope.correlationId e e' ∧ AcceptEffect envelope e e' res) ∧
    ∀ (entropy : Except String Bytes32) (c : Bytes32) (nowMs expiresAt : UInt64) (r : Request)
      (e e' : StreamEndpoint SK) (res : Except MessageError DigMessageEnvelope),
      StreamEndpoint.call P entropy c nowMs expiresAt r e = some (res,e') → Isolated c e e' := by
  constructor
  · intro order entropy envelope resolveSenderPub nowMs e e' res h
    exact (StreamEndpoint.accept_cases P h).effect
  · intro entropy c nowMs expiresAt r e e' res h
    exact (StreamEndpoint.call_cases P h).isolated

end

/-- Beside two live streams the peer's OPEN of a third starts a responder's session, and an OPEN
of our own that is not sealed holds a slot. -/
theorem peers_open_starts :
    (∃ env e', StreamEndpoint.accept .plain default (.ok (byte32 7)) env peersKey 1000 busy =
      some (.ok (.event .opened),e') ∧ EventEffect env busy e' .opened ∧
      e'.session (byte32 8) = some (.initiator 4) ∧ e'.session (byte32 10) = some spent) ∧
    ∃ err e', StreamEndpoint.call .plain (.error "no entropy") (byte32 9) 1000 0 (.open 4) busy =
      some (.error err,e') ∧ e'.session (byte32 8) = some (.initiator 4) ∧
      e'.session (byte32 10) = some spent := by
  have hopened : reported default (peersFrame (byte32 11) 0x500 (header .open 0 4) 1000 0) 1000
      busy = some (.ok (.event .opened)) := by decide +kernel
  obtain ⟨env,esk,e₁,hseal,hrun⟩ := exists_of_reported hopened
  have hown : env.correlationId = byte32 9 := by
    obtain ⟨_,_,_,_,ct,-,-,-,-,-,rfl⟩ := sealWithEphemeral_ok hseal
    rfl
  have hall := streams_isolated Primitives.plain
  obtain ⟨hisolated,heffect⟩ := hall.1 _ _ _ _ _ _ _ _ hrun
  rw [hown] at hisolated
  obtain ⟨err,e₂,hcall⟩ : ∃ err e₂, StreamEndpoint.call .plain (.error "no entropy") (byte32 9) 1000 0
      (.open 4) busy = some (.error err,e₂) := ⟨_,_,rfl⟩
  have hfailed := hall.2 _ _ _ _ _ _ _ _ hcall
  refine ⟨⟨env,e₁,hrun,heffect.2,?_,?_⟩,err,e₂,hcall,?_,?_⟩
  · exact (hisolated _ (by decide)).trans busy_pending
  · exact (hisolated _ (by decide)).trans busy_spent
  · exact (hfailed _ (by decide)).trans busy_pending
  · exact (hfailed _ (by decide)).trans busy_spent

end DigMessage
