import DigMessage.OpenGates
import DigMessage.SessionClosed
import DigMessage.StreamPair

/-! The caps on one DATA chunk. They are constants that no code reads: what bounds a chunk on
either side is the cap on any message, or the state that refuses it. -/
namespace DigMessage
open FixedWidth Streamable

def maxChunkBytes : ℕ := 1024*1024
def maxChunkDecompressedBytes : ℕ := maxChunkBytes

section
variable {SK : Type} (P : Primitives SK)

/-- The gates of sealing, with the values each hands to the next. -/
structure SealGates (params : SealParams SK) (ikm : Bytes32) (compressed : CompressedPayload)
    (ephemeral staticTerm : Bytes48) (innerBytes aad ciphertext : List UInt8) : Prop where
  compresses : compressPayload P params.payload = .ok compressed
  ephemeralDh : P.g1Dh (P.secretKeyFromSeed ikm) params.recipientPub = some ephemeral
  staticDh : P.g1Dh params.senderSk params.recipientPub = some staticTerm
  encodes : toBytes (sealedInner P params (P.publicKeyBytes (P.secretKeyFromSeed ikm)) compressed) =
    .ok innerBytes
  header : (sealedEnvelope params (P.publicKeyBytes (P.secretKeyFromSeed ikm)) []).headerBytes = .ok aad
  encrypts : aeadSeal P (kdf P (concatDh ephemeral staticTerm)
    (P.publicKeyBytes (P.secretKeyFromSeed ikm)) (P.publicKeyBytes params.senderSk)
    params.recipientPub) aad innerBytes = .ok ciphertext

def Sealable (entropy : Except String Bytes32) (params : SealParams SK) : Prop :=
  ∃ ikm compressed ephemeral staticTerm innerBytes aad ciphertext, entropy = .ok ikm ∧
    SealGates P params ikm compressed ephemeral staticTerm innerBytes aad ciphertext

theorem authEncapSecret_ok_iff {esk senderSk : SK} {recipientPub : Bytes48} {z : Bytes 96} :
    authEncapSecret P esk senderSk recipientPub = .ok z ↔
      ∃ ephemeral staticTerm, P.g1Dh esk recipientPub = some ephemeral ∧
        P.g1Dh senderSk recipientPub = some staticTerm ∧ z = concatDh ephemeral staticTerm := by
  unfold authEncapSecret
  cases he : P.g1Dh esk recipientPub with
  | none => simp
  | some ephemeral =>
    cases hs : P.g1Dh senderSk recipientPub with
    | none => simp
    | some staticTerm => simp [eq_comm]

theorem exists_sealed_iff {entropy : Except String Bytes32} {params : SealParams SK} :
    (∃ env, sealMessage P entropy params = .ok env) ↔ Sealable P entropy params := by
  constructor
  · rintro ⟨env,h⟩
    cases entropy with
    | error e => cases h
    | ok ikm =>
      have hseal : sealWithEphemeral P params (P.secretKeyFromSeed ikm) = .ok env := h
      obtain ⟨compressed,z,innerBytes,aad,ct,hc,hz,hi,haad,hs,rfl⟩ := sealWithEphemeral_ok hseal
      obtain ⟨ephemeral,staticTerm,he,hst,rfl⟩ := (authEncapSecret_ok_iff P).mp hz
      exact ⟨ikm,compressed,ephemeral,staticTerm,innerBytes,aad,ct,rfl,hc,he,hst,hi,haad,hs⟩
  · rintro ⟨ikm,compressed,ephemeral,staticTerm,innerBytes,aad,ct,rfl,h⟩
    have hz := (authEncapSecret_ok_iff P).mpr ⟨_,_,h.ephemeralDh,h.staticDh,rfl⟩
    refine ⟨sealedEnvelope params (P.publicKeyBytes (P.secretKeyFromSeed ikm)) ct,?_⟩
    simp only [sealMessage,randomEphemeral,sealWithEphemeral,h.compresses,hz,h.encodes,h.header,
      h.encrypts,bind,Except.bind,mapStreamable_ok,pure,Except.pure]

/-- A chunk past the cap on a session that takes DATA now, and nothing else in the way; a counter
that has run out is in the way as a panic, not as an error. -/
structure OversizeSend (entropy : Except String Bytes32) (correlationId : Bytes32)
    (payload : List UInt8) (nowMs expiresAt : UInt64) (e : StreamEndpoint SK) (s : StreamSession) :
    Prop where
  oversize : maxChunkBytes < payload.length
  session : e.sessions.lookup correlationId = some s
  taken : s.Takes (.sendData payload)
  passes : s.sendSeq.toNat+1 < 2^64 → e.sendCounter.toNat+1 < 2^64 →
    Sealable P entropy (e.frameParams correlationId (header .data s.sendSeq 0) payload nowMs expiresAt)

theorem StreamSession.buildData_refused {s : StreamSession} (payload : List UInt8)
    (h : ¬ s.Takes (.sendData payload)) : ∃ err, buildData s = some (.error err,s) := by
  unfold buildData
  rw [Fallible.bind_of_ok (Fallible.read_apply s)]
  split_ifs with h₁ h₂ h₃
  · exact ⟨_,rfl⟩
  · exact ⟨_,rfl⟩
  · exact ⟨_,rfl⟩
  · exact absurd ⟨not_not.mp h₁,by simpa using h₂,h₃⟩ h

theorem StreamSession.buildData_taken {s : StreamSession} {payload : List UInt8}
    (h : s.Takes (.sendData payload)) : buildData s = (checkedAdd s.sendSeq 1).map fun next =>
      (.ok (header .data s.sendSeq 0),{s with sendCredit := s.sendCredit-1,sendSeq := next}) := by
  obtain ⟨hh,hl,hc⟩ := h
  unfold buildData
  rw [Fallible.bind_of_ok (Fallible.read_apply s)]
  simp only [hh,ne_eq,not_true_eq_false,if_false,hl,Bool.false_eq_true,hc]
  cases hadd : checkedAdd s.sendSeq 1 with
  | none => rfl
  | some next => rfl

theorem StreamEndpoint.sessionMut_apply {α : Type} {c : Bytes32} {e : StreamEndpoint SK}
    {s : StreamSession} (hl : e.sessions.lookup c = some s)
    (x : Fallible MessageError StreamSession α) : sessionMut c x e =
      (x s).map fun p => (p.1,{e with sessions := e.sessions.insert c p.2}) := by
  unfold sessionMut
  rw [Fallible.bind_of_ok (Fallible.read_apply e)]
  simp only [hl]
  rfl

theorem StreamEndpoint.sealFrame_error_iff {entropy : Except String Bytes32} {c : Bytes32}
    {hdr : StreamHeader} {payload : List UInt8} {nowMs expiresAt : UInt64} {e : StreamEndpoint SK} :
    (∃ err e', sealFrame P entropy c hdr payload nowMs expiresAt e = some (.error err,e')) ↔
      e.sendCounter.toNat+1 < 2^64 ∧
        ¬ Sealable P entropy (e.frameParams c hdr payload nowMs expiresAt) := by
  rw [← exists_sealed_iff]
  by_cases hcount : e.sendCounter.toNat+1 < 2^64
  · rw [sealFrame_apply hcount]
    cases hseal : sealMessage P entropy (e.frameParams c hdr payload nowMs expiresAt) with
    | error err => exact iff_of_true ⟨err,_,rfl⟩ ⟨hcount,by rintro ⟨env,h⟩; cases h⟩
    | ok env =>
      refine iff_of_false ?_ fun h => h.2 ⟨env,rfl⟩
      rintro ⟨err,e',h⟩
      cases h
  · refine iff_of_false ?_ fun h => hcount h.1
    rintro ⟨err,e',h⟩
    have hnext : checkedAdd e.sendCounter 1 = none := if_neg hcount
    unfold sealFrame at h
    rw [Fallible.bind_of_ok (Fallible.read_apply e),hnext] at h
    cases h

theorem StreamEndpoint.sendData_unknown {entropy : Except String Bytes32} {c : Bytes32}
    {payload : List UInt8} {nowMs expiresAt : UInt64} {e : StreamEndpoint SK}
    (hl : e.sessions.lookup c = none) : StreamEndpoint.sendData P entropy c payload nowMs expiresAt e =
      some (.error (.streamProtocol "unknown stream"),e) := by
  have hmut : sessionMut c StreamSession.buildData e =
      some (.error (.streamProtocol "unknown stream"),e) := by
    unfold sessionMut
    rw [Fallible.bind_of_ok (Fallible.read_apply e)]
    simp only [hl,Fallible.fail_apply]
  exact Fallible.bind_of_error hmut

theorem StreamEndpoint.sendData_refused {entropy : Except String Bytes32} {c : Bytes32}
    {payload : List UInt8} {nowMs expiresAt : UInt64} {e : StreamEndpoint SK} {s : StreamSession}
    (hl : e.sessions.lookup c = some s) (ht : ¬ s.Takes (.sendData payload)) :
    ∃ err e', StreamEndpoint.sendData P entropy c payload nowMs expiresAt e = some (.error err,e') := by
  obtain ⟨err,hb⟩ := StreamSession.buildData_refused payload ht
  have hmut := sessionMut_apply hl StreamSession.buildData
  rw [hb] at hmut
  exact ⟨err,_,Fallible.bind_of_error hmut⟩

theorem StreamEndpoint.sendData_taken {entropy : Except String Bytes32} {c : Bytes32}
    {payload : List UInt8} {nowMs expiresAt : UInt64} {e : StreamEndpoint SK} {s : StreamSession}
    (hl : e.sessions.lookup c = some s) (ht : s.Takes (.sendData payload)) :
    StreamEndpoint.sendData P entropy c payload nowMs expiresAt e =
      (checkedAdd s.sendSeq 1).bind fun next =>
        sealFrame P entropy c (header .data s.sendSeq 0) payload nowMs expiresAt
          {e with
            sessions := e.sessions.insert c {s with sendCredit := s.sendCredit-1,sendSeq := next}} := by
  have hmut := sessionMut_apply hl StreamSession.buildData
  rw [StreamSession.buildData_taken ht] at hmut
  unfold StreamEndpoint.sendData
  cases hadd : checkedAdd s.sendSeq 1 with
  | none =>
    simp only [hadd,Option.map_none] at hmut
    exact Fallible.bind_of_none hmut
  | some next =>
    simp only [hadd,Option.map_some] at hmut
    exact Fallible.bind_of_ok hmut

/-- `send_data` fails on a chunk past the cap exactly where something else than its size is in the
way. -/
theorem sendData_error_iff {entropy : Except String Bytes32} {c : Bytes32} {payload : List UInt8}
    {nowMs expiresAt : UInt64} {e : StreamEndpoint SK} (hbig : maxChunkBytes < payload.length) :
    (∃ err e', StreamEndpoint.sendData P entropy c payload nowMs expiresAt e = some (.error err,e')) ↔
      ∀ s, ¬ OversizeSend P entropy c payload nowMs expiresAt e s := by
  cases hl : e.sessions.lookup c with
  | none =>
    refine iff_of_true ⟨_,_,StreamEndpoint.sendData_unknown P hl⟩ fun s h => ?_
    have hs := h.session
    rw [hl] at hs
    cases hs
  | some s =>
    have hsame : ∀ {s'}, e.sessions.lookup c = some s' → s' = s :=
      fun hs => (Option.some.inj (hl.symm.trans hs)).symm
    by_cases ht : s.Takes (.sendData payload)
    · rw [StreamEndpoint.sendData_taken P hl ht]
      by_cases hseq : s.sendSeq.toNat+1 < 2^64
      · have hnext : checkedAdd s.sendSeq 1 = some (s.sendSeq+1) := if_pos hseq
        rw [hnext,Option.bind_some,StreamEndpoint.sealFrame_error_iff]
        constructor
        · rintro ⟨hcount,hno⟩ s' h
          obtain rfl := hsame h.session
          exact hno (h.passes hseq hcount)
        · intro h
          by_contra hgo
          refine h s ⟨hbig,hl,ht,fun _ hcount => ?_⟩
          by_contra hno
          exact hgo ⟨hcount,hno⟩
      · have hnext : checkedAdd s.sendSeq 1 = none := if_neg hseq
        rw [hnext,Option.bind_none]
        refine iff_of_false ?_ fun h => h s ⟨hbig,hl,ht,fun h₁ => absurd h₁ hseq⟩
        rintro ⟨err,e',he⟩
        cases he
    · refine iff_of_true (StreamEndpoint.sendData_refused P hl ht) fun s' h => ?_
      obtain rfl := hsame h.session
      exact ht h.taken

/-- A DATA frame of the peer past the cap that passes every gate of opening and that its session
takes now: only the cap on messages was compared with the length it declares. -/
structure OversizeFrame (envelope : DigMessageEnvelope)
    (resolveSenderPub : Bytes32 → UInt32 → Option Bytes48) (nowMs : UInt64) (e : StreamEndpoint SK)
    (inner : InnerMessage) (payload : List UInt8) (hdr : StreamHeader) (s s' : StreamSession) :
    Prop where
  passes : PassesAll P e.identitySk envelope resolveSenderPub nowMs e.guard inner payload
  oversize : maxChunkDecompressedBytes < inner.uncompressedLen.toNat
  sender : envelope.sender = e.peerDid
  shape : InteractionShape.fromFlags envelope.flags = some .streamFrame
  header : envelope.stream = some hdr
  kind : StreamFrame.fromU8 hdr.frame = some .data
  session : e.sessions.lookup envelope.correlationId = some s
  live : s.reset = false
  taken : s.Recv hdr .data .data s'

theorem acceptFrame_data {c : Bytes32} {hdr : StreamHeader} {e : StreamEndpoint SK}
    {s s' : StreamSession} (entropy : Except String Bytes32) (nowMs : UInt64) (payload : List UInt8)
    (hl : e.sessions.lookup c = some s) (hlive : s.reset = false)
    (hrecv : s.Recv hdr .data .data s') : ∃ e',
    StreamEndpoint.acceptFrame P entropy c .data hdr payload nowMs e =
      some (.ok (.event (.data payload)),e') := by
  have hm : c ∈ e.sessions := Finmap.mem_iff.mpr ⟨s,hl⟩
  have hmut := StreamEndpoint.sessionMut_apply hl (StreamSession.onRecv .data hdr)
  rw [StreamSession.onRecv_of_recv hlive hrecv,Option.map_some,
    ← StreamEndpoint.expectSession_eq hm] at hmut
  have htry := Fallible.attempt_eq_some.mpr ⟨_,hmut,rfl⟩
  unfold StreamEndpoint.acceptFrame
  rw [Fallible.bind_of_ok (Fallible.read_apply e)]
  simp only [reduceCtorEq,if_false,hm,if_true]
  rw [Fallible.bind_of_ok htry]
  simp only
  rw [Fallible.bind_of_ok (StreamEndpoint.dropIfClosed_apply c _)]
  exact ⟨_,rfl⟩

theorem accept_of_addressed {order : HashOrder} {envelope : DigMessageEnvelope}
    {resolveSenderPub : Bytes32 → UInt32 → Option Bytes48} {nowMs : UInt64} {e : StreamEndpoint SK}
    {m : OpenedMessage} {g : ReplayGuard} {hdr : StreamHeader} {frame : StreamFrame}
    (entropy : Except String Bytes32)
    (hopen : openMessage P order e.identitySk envelope resolveSenderPub nowMs e.guard = some (.ok m,g))
    (ha : Addressed e envelope m hdr frame) :
    StreamEndpoint.accept P order entropy envelope resolveSenderPub nowMs e =
      StreamEndpoint.acceptFrame P entropy envelope.correlationId frame hdr m.payload nowMs
        {e with guard := g} := by
  have hpart : Fallible.onPart StreamEndpoint.guard (fun e guard => {e with guard})
      (openMessage P order e.identitySk envelope resolveSenderPub nowMs) e =
        some (.ok m,{e with guard := g}) := Fallible.onPart_eq_some.mpr ⟨g,hopen,rfl⟩
  have htry := Fallible.attempt_eq_some.mpr ⟨_,hpart,rfl⟩
  unfold StreamEndpoint.accept
  rw [Fallible.bind_of_ok (Fallible.read_apply e),Fallible.bind_of_ok htry]
  simp only [ha.sender,ne_eq,not_true_eq_false,if_false,ha.stream,ha.kind,ha.shape]

/-- `accept` reports a chunk past the cap exactly for such a frame. -/
theorem oversize_reported_iff (order : HashOrder) (entropy : Except String Bytes32)
    (envelope : DigMessageEnvelope) (resolveSenderPub : Bytes32 → UInt32 → Option Bytes48)
    (nowMs : UInt64) (e : StreamEndpoint SK) :
    (∃ p e', StreamEndpoint.accept P order entropy envelope resolveSenderPub nowMs e =
        some (.ok (.event (.data p)),e') ∧ maxChunkDecompressedBytes < p.length) ↔
      ∃ inner payload hdr s s',
        OversizeFrame P envelope resolveSenderPub nowMs e inner payload hdr s s' := by
  constructor
  · rintro ⟨p,e',hacc,hbig⟩
    cases StreamEndpoint.accept_cases P hacc with
    | event hopen ha hr =>
      obtain ⟨s,s',hl,hlive,hrecv,rfl,rfl⟩ := hr.data_taken
      obtain ⟨shape,inner,payload,hshape,hall,rfl⟩ := (openMessage_delivers_iff P order).mp ⟨_,hopen⟩
      have hstream : shape = .streamFrame := ha.shape
      rw [hstream] at hshape
      have hlen : payload.length = inner.uncompressedLen.toNat := hall.length
      exact ⟨inner,payload,_,s,s',hall,hlen ▸ hbig,ha.sender,hshape,ha.stream,ha.kind,hl,hlive,hrecv⟩
  · rintro ⟨inner,payload,hdr,s,s',h⟩
    obtain ⟨g,hopen⟩ := (openMessage_delivers_iff P order).mpr
      ⟨_,inner,payload,h.shape,h.passes,rfl⟩
    have ha : Addressed e envelope (openedMessage envelope .streamFrame inner payload) hdr .data :=
      ⟨h.sender,h.header,h.kind,rfl⟩
    obtain ⟨e',hacc⟩ := acceptFrame_data P (e:={e with guard := g}) entropy nowMs payload h.session
      h.live h.taken
    refine ⟨payload,e',?_,?_⟩
    · rw [accept_of_addressed P entropy hopen ha]
      exact hacc
    · rw [h.passes.length]
      exact h.oversize

/-- The caps on one call: no report of a chunk past the one, and no success, nor panic, of
`send_data` past the other. -/
def Input.MeetsCaps (e : StreamEndpoint SK) : Input → Prop
  | .accept envelope resolveSenderPub nowMs order entropy => ∀ p e',
      StreamEndpoint.accept P order entropy envelope resolveSenderPub nowMs e =
        some (.ok (.event (.data p)),e') → p.length ≤ maxChunkDecompressedBytes
  | .call c (.sendData payload) nowMs expiresAt entropy => maxChunkBytes < payload.length →
      ∃ err e', StreamEndpoint.sendData P entropy c payload nowMs expiresAt e = some (.error err,e')
  | _ => True

/-- Something other than a cap stands in the way: the gates or the session refuse the frame, the
session or the seal refuses the chunk. -/
def Input.WithinCaps (e : StreamEndpoint SK) : Input → Prop
  | .accept envelope resolveSenderPub nowMs _ _ => ∀ inner payload hdr s s',
      ¬ OversizeFrame P envelope resolveSenderPub nowMs e inner payload hdr s s'
  | .call c (.sendData payload) nowMs expiresAt entropy =>
      ∀ s, ¬ OversizeSend P entropy c payload nowMs expiresAt e s
  | _ => True

theorem meetsCaps_iff_within (e : StreamEndpoint SK) (i : Input) :
    i.MeetsCaps P e ↔ i.WithinCaps P e := by
  cases i with
  | accept envelope resolveSenderPub nowMs order entropy =>
    have hiff := oversize_reported_iff P order entropy envelope resolveSenderPub nowMs e
    constructor
    · intro h inner payload hdr s s' hover
      obtain ⟨p,e',hacc,hbig⟩ := hiff.mpr ⟨inner,payload,hdr,s,s',hover⟩
      exact absurd (h p e' hacc) (by omega)
    · intro h p e' hacc
      by_contra hbig
      obtain ⟨inner,payload,hdr,s,s',hover⟩ := hiff.mp ⟨p,e',hacc,by omega⟩
      exact h inner payload hdr s s' hover
  | call c r nowMs expiresAt entropy =>
    cases r with
    | sendData payload =>
      by_cases hbig : maxChunkBytes < payload.length
      · have hiff : (∃ err e', StreamEndpoint.sendData P entropy c payload nowMs expiresAt e =
            some (.error err,e')) ↔ _ := sendData_error_iff P hbig
        exact ⟨fun h => hiff.mp (h hbig),fun h _ => hiff.mpr h⟩
      · exact ⟨fun _ s hover => hbig hover.oversize,fun _ h => absurd h hbig⟩
    | «open» w => exact Iff.rfl
    | openAck w => exact Iff.rfl
    | grantCredit n => exact Iff.rfl
    | close => exact Iff.rfl
    | reset => exact Iff.rfl

/-- The caps as a run shows them: no event reported a chunk past the one, and every `send_data`
past the other returned an error. -/
def Event.CapsKept (ev : Event SK) : Prop :=
  match ev.input,ev.outcome with
  | .accept _ _ _ _ _,.accepted (.ok (.event (.data p))) => p.length ≤ maxChunkDecompressedBytes
  | .call _ (.sendData payload) _ _ _,.called res =>
    maxChunkBytes < payload.length → ∃ err, res = .error err
  | _,_ => True

theorem capsKept_iff {ev : Event SK} {e' : StreamEndpoint SK}
    (h : ev.input.perform P ev.before = some (ev.outcome,e')) :
    ev.CapsKept ↔ ev.input.MeetsCaps P ev.before := by
  obtain ⟨e,input,outcome⟩ := ev
  cases input with
  | accept envelope resolveSenderPub nowMs order entropy =>
    obtain ⟨⟨res,u⟩,hacc,hp⟩ := Option.map_eq_some_iff.mp h
    cases hp
    simp only [Input.MeetsCaps,hacc]
    rcases res with err | (event | cause | ⟨frame,cause⟩)
    · exact iff_of_true trivial nofun
    · cases event with
      | data payload =>
        refine ⟨fun hle p e' hsame => ?_,fun hle => hle payload _ rfl⟩
        cases hsame
        exact hle
      | _ => exact iff_of_true trivial nofun
    · exact iff_of_true trivial nofun
    · exact iff_of_true trivial nofun
  | call c r nowMs expiresAt entropy =>
    obtain ⟨⟨res,u⟩,hcall,hp⟩ := Option.map_eq_some_iff.mp h
    cases hp
    cases r with
    | sendData payload =>
      have hsend : StreamEndpoint.sendData P entropy c payload nowMs expiresAt e = some (res,u) := hcall
      simp only [Input.MeetsCaps,hsend]
      refine forall_congr' fun hbig => ?_
      constructor
      · rintro ⟨err,rfl⟩
        exact ⟨err,u,rfl⟩
      · rintro ⟨err,e',hsame⟩
        cases hsame
        exact ⟨err,rfl⟩
    | _ => exact Iff.rfl

/-- In any run of an endpoint the caps are kept exactly where every step keeps them by something
else than the caps: no frame past the one passes the gates and is taken by its session, and no
chunk past the other meets a session that takes DATA and a seal that succeeds. So it is with any
next call. -/
theorem chunk_caps_exact {e₀ e : StreamEndpoint SK} {tr : List (Event SK)} (h : Trace P e₀ tr e) :
    ((∀ ev ∈ tr, ev.CapsKept) ↔ ∀ ev ∈ tr, ev.input.WithinCaps P ev.before) ∧
    ∀ i : Input, i.MeetsCaps P e ↔ i.WithinCaps P e := by
  refine ⟨forall₂_congr fun ev hev => ?_,meetsCaps_iff_within P e⟩
  obtain ⟨e',hp⟩ := h.performs hev
  rw [capsKept_iff P hp,meetsCaps_iff_within]

end

def greeted (order : HashOrder) : Option (List (Event Bytes32) × StreamEndpoint Bytes32) := do
  let env ← (sealMessage .squeezing (.ok (byte32 7))
    (peersFrame (byte32 11) 0x500 (header .open 0 4) 1000 0)).toOption
  let opening : Input := .accept env peersKey 1000 order (.ok (byte32 7))
  let (opened,e₁) ← opening.perform .squeezing lone
  let answer : Input := .call (byte32 9) (.openAck 4) 1000 0 (.ok (byte32 7))
  let (answered,e₂) ← answer.perform .squeezing e₁
  pure ([⟨lone,opening,opened⟩,⟨e₁,answer,answered⟩],e₂)

def greetedSession : StreamSession :=
  {StreamSession.responder 4 with handshake := .established,recvWindowRemaining := 4}

structure Greeted (e : StreamEndpoint Bytes32) : Prop where
  identity : e.identitySk = byte32 1
  localDid : e.localDid = byte32 11
  localEpoch : e.localEpoch = 0
  peerDid : e.peerDid = byte32 12
  peerPub : e.peerPub = Primitives.point (byte32 2)
  messageType : e.messageType = 0x500
  counter : e.sendCounter = 1
  session : e.sessions.lookup (byte32 9) = some greetedSession
  admits : ((ReplayGuard.checkAndAdmit (ε:=MessageError) default (byte32 12) 0 1 1000 1000 e.guard).map
    Prod.fst) = some (.ok true)

theorem greeted_runs : ∃ tr e, Trace .squeezing lone tr e ∧ Greeted e ∧ tr ≠ [] ∧
    e.sessions.lookup (byte32 8) = none ∧ ∀ ev ∈ tr, ev.input.WithinCaps .squeezing ev.before := by
  have hsome : (greeted default).any (fun p => decide (p.2.identitySk = byte32 1 ∧
      p.2.localDid = byte32 11 ∧ p.2.localEpoch = 0 ∧ p.2.peerDid = byte32 12 ∧
      p.2.peerPub = Primitives.point (byte32 2) ∧ p.2.messageType = 0x500 ∧ p.2.sendCounter = 1 ∧
      p.2.sessions.lookup (byte32 9) = some greetedSession ∧
      p.2.sessions.lookup (byte32 8) = none ∧
      ((ReplayGuard.checkAndAdmit (ε:=MessageError) default (byte32 12) 0 1 1000 1000 p.2.guard).map
        Prod.fst) = some (.ok true))) = true := by decide +kernel
  obtain ⟨⟨tr,e⟩,hrun,hfacts⟩ := (Option.any_eq_true _ _).mp hsome
  simp only [decide_eq_true_eq] at hfacts
  obtain ⟨h₁,h₂,h₃,h₄,h₅,h₆,h₇,h₈,hother,h₉⟩ := hfacts
  unfold greeted at hrun
  obtain ⟨env,-,hrun⟩ := Option.bind_eq_some_iff.mp hrun
  obtain ⟨⟨opened,e₁⟩,hopen,hrun⟩ := Option.bind_eq_some_iff.mp hrun
  obtain ⟨⟨answered,e₂⟩,hanswer,hrun⟩ := Option.bind_eq_some_iff.mp hrun
  cases hrun
  have htrace : Trace .squeezing lone [⟨lone,_,opened⟩,⟨e₁,_,answered⟩] e :=
    @Trace.cons _ _ ⟨lone,_,opened⟩ _ _ _ hopen
      (@Trace.cons _ _ ⟨e₁,_,answered⟩ _ _ _ hanswer (.nil e))
  refine ⟨_,e,htrace,⟨h₁,h₂,h₃,h₄,h₅,h₆,h₇,h₈,h₉⟩,List.cons_ne_nil _ _,hother,fun ev hev => ?_⟩
  rcases List.mem_cons.mp hev with rfl | hev
  · intro inner payload hdr s s' hover
    cases hover.session
  · rcases List.mem_singleton.mp hev with rfl
    trivial

def bigChunk : List UInt8 := List.replicate (maxChunkBytes+1) 0

theorem bigChunk_over : maxChunkBytes < bigChunk.length := by
  rw [bigChunk,List.length_replicate]
  exact Nat.lt_succ_self _

/-- No stream but the one opened takes the chunk, and the run kept to the caps. -/
theorem unknown_stream_refuses : ∃ tr e err e', Trace .squeezing lone tr e ∧ tr ≠ [] ∧
    (∀ ev ∈ tr, ev.CapsKept) ∧
    StreamEndpoint.sendData .squeezing (.ok (byte32 7)) (byte32 8) bigChunk 1000 0 e =
      some (.error err,e') := by
  obtain ⟨tr,e,htrace,hgreeted,hne,hother,hwithin⟩ := greeted_runs
  obtain ⟨hrun,hnext⟩ := chunk_caps_exact .squeezing htrace
  have hcaps : (Input.call (byte32 8) (.sendData bigChunk) 1000 0 (.ok (byte32 7))).MeetsCaps
      .squeezing e := by
    refine (hnext _).mpr fun s hover => ?_
    have hs := hover.session
    rw [hother] at hs
    cases hs
  obtain ⟨err,e',hsend⟩ := hcaps bigChunk_over
  exact ⟨tr,e,err,e',htrace,hne,hrun.mpr hwithin,hsend⟩

def ourChunk : SealParams Bytes32 where
  senderSk := byte32 1
  sender := byte32 11
  senderEpoch := 0
  recipient := byte32 12
  recipientPub := Primitives.point (byte32 2)
  messageType := 0x500
  shape := .streamFrame
  correlationId := byte32 9
  stream := some (header .data 0 0)
  counter := 1
  timestampMs := 1000
  expiresAt := 0
  payload := bigChunk

def peersChunk : SealParams Bytes32 :=
  {peersFrame (byte32 11) 0x500 (header .data 0 0) 1000 0 with counter := 1, payload := bigChunk}

theorem Greeted.frameParams {e : StreamEndpoint Bytes32} (h : Greeted e) :
    e.frameParams (byte32 9) (header .data greetedSession.sendSeq 0) bigChunk 1000 0 = ourChunk := by
  simp only [StreamEndpoint.frameParams,h.identity,h.localDid,h.localEpoch,h.peerDid,h.peerPub,
    h.messageType,h.counter]
  rfl

theorem chunks_sealed : (sealMessage .squeezing (.ok (byte32 7)) ourChunk).isOk = true ∧
    (sealMessage .squeezing (.ok (byte32 7)) peersChunk).isOk = true := by
  have hsqueezed : compressPayload .squeezing bigChunk =
      .ok ⟨compressionZstd,0::bigEndian 4 1048577,1048577⟩ := zeros_compressed (by decide) (by decide)
  have hours : compressPayload .squeezing ourChunk.payload = _ := hsqueezed
  have hpeers : compressPayload .squeezing peersChunk.payload = _ := hsqueezed
  constructor
  · unfold sealMessage randomEphemeral sealWithEphemeral
    rw [hours]
    decide +kernel
  · unfold sealMessage randomEphemeral sealWithEphemeral
    rw [hpeers]
    decide +kernel

theorem Greeted.reports {e : StreamEndpoint Bytes32} (h : Greeted e) : ∃ env e',
    StreamEndpoint.accept .squeezing default (.ok (byte32 7)) env peersKey 1000 e =
      some (.ok (.event (.data bigChunk)),e') := by
  obtain ⟨env,hseal⟩ := exists_of_isOk chunks_sealed.2
  obtain ⟨esk,hsealed⟩ := sealMessage_ok hseal
  have hkeys : KeysMatch .squeezing peersChunk e.identitySk peersKey :=
    ⟨by rw [h.identity]; rfl,rfl⟩
  obtain ⟨⟨res,g'⟩,hg,hres⟩ := Option.map_eq_some_iff.mp h.admits
  cases hres
  have hopen := openMessage_sealed Primitives.squeezing_lawful hsealed hkeys hg
    (checkExpiry_ok.mpr (Or.inl rfl))
  have hmessage : peersChunk.payload.length ≤ maxDecompressedBytes := by
    have hlen : peersChunk.payload.length = maxChunkBytes+1 := List.length_replicate
    rw [hlen]
    decide
  rw [if_pos hmessage] at hopen
  obtain ⟨_,_,_,_,ct,-,-,-,-,-,henv⟩ := sealWithEphemeral_ok hsealed
  have hstream : env.stream = some (header .data 0 0) := by rw [henv]; rfl
  have hid : env.correlationId = byte32 9 := by rw [henv]; rfl
  have ha : Addressed e env peersChunk.opened (header .data 0 0) .data :=
    ⟨h.peerDid.symm,hstream,rfl,rfl⟩
  have hslot : e.sessions.lookup env.correlationId = some greetedSession := by
    rw [hid,h.session]
  have htaken : greetedSession.Recv (header .data 0 0) .data .data
      {greetedSession with recvWindowRemaining := 3,recvSeq := 1} :=
    .data 1 rfl rfl rfl (by decide) rfl
  obtain ⟨e',hacc⟩ := acceptFrame_data .squeezing (e:={e with guard := g'}) (.ok (byte32 7)) 1000
    bigChunk hslot rfl htaken
  exact ⟨env,e',(accept_of_addressed .squeezing (.ok (byte32 7)) hopen ha).trans hacc⟩

theorem Greeted.takes {e : StreamEndpoint Bytes32} (h : Greeted e) :
    OversizeSend .squeezing (.ok (byte32 7)) (byte32 9) bigChunk 1000 0 e greetedSession where
  oversize := bigChunk_over
  session := h.session
  taken := ⟨rfl,rfl,by decide⟩
  passes _ _ := by
    rw [h.frameParams,← exists_sealed_iff]
    exact exists_of_isOk chunks_sealed.1

/-- Every chunk an endpoint that has run reports is within the cap. -/
def InboundCapped {SK : Type} (P : Primitives SK) (e₀ : StreamEndpoint SK) : Prop :=
  ∀ (tr : List (Event SK)) (e e' : StreamEndpoint SK) (envelope : DigMessageEnvelope)
    (resolveSenderPub : Bytes32 → UInt32 → Option Bytes48) (nowMs : UInt64) (order : HashOrder)
    (entropy : Except String Bytes32) (p : List UInt8), Trace P e₀ tr e →
    StreamEndpoint.accept P order entropy envelope resolveSenderPub nowMs e =
      some (.ok (.event (.data p)),e') → p.length ≤ maxChunkDecompressedBytes

/-- Every chunk past the cap is an error to an endpoint that has run. -/
def OutboundCapped {SK : Type} (P : Primitives SK) (e₀ : StreamEndpoint SK) : Prop :=
  ∀ (tr : List (Event SK)) (e : StreamEndpoint SK) (c : Bytes32) (payload : List UInt8)
    (nowMs expiresAt : UInt64) (entropy : Except String Bytes32), Trace P e₀ tr e →
    maxChunkBytes < payload.length → ∃ err e',
      StreamEndpoint.sendData P entropy c payload nowMs expiresAt e = some (.error err,e')

theorem big_chunks_pass : ¬ InboundCapped .squeezing lone ∧ ¬ OutboundCapped .squeezing lone := by
  obtain ⟨tr,e,htrace,hgreeted,-,-,-⟩ := greeted_runs
  constructor
  · intro h
    obtain ⟨env,e',hacc⟩ := hgreeted.reports
    have hcapped := h tr e e' env peersKey 1000 default _ bigChunk htrace hacc
    exact absurd hcapped (Nat.not_le.mpr bigChunk_over)
  · intro h
    have hfailed := h tr e (byte32 9) bigChunk 1000 0 (.ok (byte32 7)) htrace bigChunk_over
    exact (sendData_error_iff .squeezing bigChunk_over).mp hfailed greetedSession hgreeted.takes

end DigMessage
