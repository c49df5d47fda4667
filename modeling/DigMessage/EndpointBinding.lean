import DigMessage.FailedCalls
import DigMessage.SealRoundTrip

/-! What a frame that moves an endpoint has passed: it opened, its authenticated sender is the
configured peer, and it is a stream frame of a known kind. -/
namespace DigMessage
open FixedWidth

section
variable {SK : Type} {P : Primitives SK}

/-- `accept` reported an event or a RESET, or changed a session. -/
def Effective (e : StreamEndpoint SK) (res : Except MessageError StreamAccept)
    (e' : StreamEndpoint SK) : Prop :=
  (∃ event, res = .ok (.event event)) ∨ (∃ frame cause, res = .ok (.reset frame cause)) ∨
  e'.sessions ≠ e.sessions

theorem Accepts.effective {order : HashOrder} {entropy : Except String Bytes32}
    {envelope : DigMessageEnvelope} {resolveSenderPub : Bytes32 → UInt32 → Option Bytes48}
    {nowMs : UInt64} {e e' : StreamEndpoint SK} {res : Except MessageError StreamAccept}
    (h : Accepts P order entropy envelope resolveSenderPub nowMs e res e')
    (heff : Effective e res e') : ∃ m hdr frame,
    openMessage P order e.identitySk envelope resolveSenderPub nowMs e.guard = some (.ok m,e'.guard) ∧
    Addressed e envelope m hdr frame := by
  have hdropped : ∀ cause, res = .ok (.dropped cause) → e'.sessions = e.sessions → False := by
    intro cause hres hsame
    subst hres
    rcases heff with ⟨event,he⟩ | ⟨frame,cause',he⟩ | hne
    · cases he
    · cases he
    · exact hne hsame
  cases h with
  | refused ho => exact (hdropped _ rfl rfl).elim
  | idle cause ho hn => exact (hdropped _ rfl rfl).elim
  | ignored ho ha hr => exact (hdropped _ rfl rfl).elim
  | event ho ha hr => exact ⟨_,_,_,ho,ha⟩
  | answered ho ha hr hn hs => exact ⟨_,_,_,ho,ha⟩
  | unanswered ho ha hr hn hs => exact ⟨_,_,_,ho,ha⟩

/-- Whatever the resolver, a frame that moves an endpoint was opened, comes from the peer and is
a stream frame of a known kind; its type and stream id are the sealed ones. -/
theorem effective_frame_bound {order : HashOrder} {entropy : Except String Bytes32}
    {envelope : DigMessageEnvelope} {resolveSenderPub : Bytes32 → UInt32 → Option Bytes48}
    {nowMs : UInt64} {e e' : StreamEndpoint SK} {res : Except MessageError StreamAccept}
    (h : StreamEndpoint.accept P order entropy envelope resolveSenderPub nowMs e = some (res,e'))
    (heff : Effective e res e') : ∃ m hdr frame,
    openMessage P order e.identitySk envelope resolveSenderPub nowMs e.guard = some (.ok m,e'.guard) ∧
    envelope.sender = e.peerDid ∧ m.messageType = envelope.messageType ∧
    m.correlationId = envelope.correlationId ∧
    InteractionShape.fromFlags envelope.flags = some .streamFrame ∧ envelope.stream = some hdr ∧
    StreamFrame.fromU8 hdr.frame = some frame := by
  obtain ⟨m,hdr,frame,hopen,haddr⟩ := (StreamEndpoint.accept_cases P h).effective heff
  obtain ⟨shape,inner,payload,had,-,rfl⟩ := openMessage_ok hopen
  have hsender : envelope.sender = e.peerDid := haddr.sender
  have hshape : shape = .streamFrame := haddr.shape
  have hflags := (authenticate_ok had.authentic).1
  rw [hshape] at hflags
  exact ⟨_,hdr,frame,hopen,hsender,had.messageType,had.correlationId,hflags,haddr.stream,haddr.kind⟩

end

/-- Every frame that moves an endpoint that has run names it as the recipient. -/
def RecipientsBound {SK : Type} (P : Primitives SK) (e₀ : StreamEndpoint SK) : Prop :=
  ∀ (tr : List (Event SK)) (e e' : StreamEndpoint SK) (order : HashOrder)
    (entropy : Except String Bytes32) (envelope : DigMessageEnvelope)
    (resolveSenderPub : Bytes32 → UInt32 → Option Bytes48) (nowMs : UInt64)
    (res : Except MessageError StreamAccept), Trace P e₀ tr e →
    StreamEndpoint.accept P order entropy envelope resolveSenderPub nowMs e = some (res,e') →
    Effective e res e' → envelope.recipient = e.localDid

/-- Every frame that moves an endpoint that has run carries its message type. -/
def MessageTypesBound {SK : Type} (P : Primitives SK) (e₀ : StreamEndpoint SK) : Prop :=
  ∀ (tr : List (Event SK)) (e e' : StreamEndpoint SK) (order : HashOrder)
    (entropy : Except String Bytes32) (envelope : DigMessageEnvelope)
    (resolveSenderPub : Bytes32 → UInt32 → Option Bytes48) (nowMs : UInt64)
    (res : Except MessageError StreamAccept), Trace P e₀ tr e →
    StreamEndpoint.accept P order entropy envelope resolveSenderPub nowMs e = some (res,e') →
    Effective e res e' → envelope.messageType = e.messageType

/-- A frame that the peer of `lone` seals to its key, with a recipient and a type of its own. -/
def peersFrame (recipient : Bytes32) (messageType : UInt32) (hdr : StreamHeader)
    (timestampMs expiresAt : UInt64) : SealParams Bytes32 where
  senderSk := byte32 2
  sender := byte32 12
  senderEpoch := 0
  recipient := recipient
  recipientPub := Primitives.point (byte32 1)
  messageType := messageType
  shape := .streamFrame
  correlationId := byte32 9
  stream := some hdr
  counter := 0
  timestampMs := timestampMs
  expiresAt := expiresAt
  payload := []

def peersKey (_ : Bytes32) (_ : UInt32) : Option Bytes48 := some (Primitives.point (byte32 2))

theorem peersFrame_keys (recipient : Bytes32) (messageType : UInt32) (hdr : StreamHeader)
    (timestampMs expiresAt : UInt64) :
    KeysMatch .plain (peersFrame recipient messageType hdr timestampMs expiresAt) (byte32 1)
      peersKey := ⟨rfl,rfl⟩

def reported (order : HashOrder) (params : SealParams Bytes32) (nowMs : UInt64)
    (e : StreamEndpoint Bytes32) : Option (Except MessageError StreamAccept) := do
  let env ← (sealMessage .plain (.ok (byte32 7)) params).toOption
  let p ← StreamEndpoint.accept .plain order (.ok (byte32 7)) env peersKey nowMs e
  pure p.1

theorem exists_of_reported {order : HashOrder} {params : SealParams Bytes32} {nowMs : UInt64}
    {e : StreamEndpoint Bytes32} {res : Except MessageError StreamAccept}
    (h : reported order params nowMs e = some res) :
    ∃ env esk e', sealWithEphemeral .plain params esk = .ok env ∧
      StreamEndpoint.accept .plain order (.ok (byte32 7)) env peersKey nowMs e = some (res,e') := by
  obtain ⟨env,henv,haccept⟩ := Option.bind_eq_some_iff.mp h
  obtain ⟨⟨res',e'⟩,hrun,hres⟩ := Option.bind_eq_some_iff.mp haccept
  cases hres
  have hok : sealMessage .plain (.ok (byte32 7)) params = .ok env := by
    cases hs : sealMessage .plain (.ok (byte32 7)) params with
    | error err =>
      rw [hs] at henv
      cases henv
    | ok env' =>
      rw [hs] at henv
      cases henv
      rfl
  obtain ⟨esk,hseal⟩ := sealMessage_ok hok
  exact ⟨env,esk,e',hseal,hrun⟩

theorem sealed_recipient {SK : Type} {P : Primitives SK} {params : SealParams SK} {esk : SK}
    {env : DigMessageEnvelope} (h : sealWithEphemeral P params esk = .ok env) :
    env.recipient = params.recipient ∧ env.messageType = params.messageType := by
  obtain ⟨_,_,_,_,ct,-,-,-,-,-,rfl⟩ := sealWithEphemeral_ok h
  exact ⟨rfl,rfl⟩

theorem peers_open_bound : ∃ env m hdr frame g,
    openMessage .plain default lone.identitySk env peersKey 1000 lone.guard = some (.ok m,g) ∧
    env.sender = lone.peerDid ∧ m.messageType = env.messageType ∧
    m.correlationId = env.correlationId ∧
    InteractionShape.fromFlags env.flags = some .streamFrame ∧ env.stream = some hdr ∧
    StreamFrame.fromU8 hdr.frame = some frame := by
  have hopened : reported default (peersFrame (byte32 11) 0x500 (header .open 0 4) 1000 0) 1000
      lone = some (.ok (.event .opened)) := by decide +kernel
  obtain ⟨env,esk,e',-,hrun⟩ := exists_of_reported hopened
  obtain ⟨m,hdr,frame,hbound⟩ := effective_frame_bound hrun (Or.inl ⟨_,rfl⟩)
  exact ⟨env,m,hdr,frame,e'.guard,hbound⟩

/-- An OPEN for another identity, and one of another type, open a stream here. -/
theorem stray_frames_open : ¬ RecipientsBound .plain lone ∧ ¬ MessageTypesBound .plain lone := by
  constructor
  · intro h
    have hopened : reported default (peersFrame (byte32 77) 0x500 (header .open 0 4) 1000 0) 1000
        lone = some (.ok (.event .opened)) := by decide +kernel
    obtain ⟨env,esk,e',hseal,hrun⟩ := exists_of_reported hopened
    have hsame := h [] lone e' _ _ env _ _ _ (.nil lone) hrun (Or.inl ⟨_,rfl⟩)
    rw [(sealed_recipient hseal).1] at hsame
    revert hsame
    decide
  · intro h
    have hopened : reported default (peersFrame (byte32 11) 0x501 (header .open 0 4) 1000 0) 1000
        lone = some (.ok (.event .opened)) := by decide +kernel
    obtain ⟨env,esk,e',hseal,hrun⟩ := exists_of_reported hopened
    have hsame := h [] lone e' _ _ env _ _ _ (.nil lone) hrun (Or.inl ⟨_,rfl⟩)
    rw [(sealed_recipient hseal).2] at hsame
    revert hsame
    decide

end DigMessage
