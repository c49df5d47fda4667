import DigMessage.Primitives
import DigMessage.ReplayGuard

/-! The seal: compress, sign the transcript, encapsulate and encrypt; and its inverse,
which verifies everything before it touches the anti-replay table. -/
namespace DigMessage
open FixedWidth

def ascii (label : List Char) : List UInt8 := label.map fun c => UInt8.ofNat c.toNat

def sigDomain : List UInt8 :=
  ascii ['D','I','G','N','E','T','-','M','S','G',':','d','i','g','-','m','e','s','s','a','g','e','/','v','1']

/-- Every field the sender's signature binds. -/
structure TranscriptFields where
  version : UInt8
  messageType : UInt32
  flags : UInt8
  correlationId : Bytes32
  sender : Bytes32
  recipient : Bytes32
  senderEpoch : UInt32
  counter : UInt64
  timestampMs : UInt64
  expiresAt : UInt64
  stream : Option StreamHeader
  kemEnc : Bytes48
  compression : UInt8
  uncompressedLen : UInt32
  compressedPayload : List UInt8

namespace TranscriptFields
variable {SK : Type} (P : Primitives SK)

/-- The domain-separated bytes to sign; a message without a stream header has frame and
sequence number zero. -/
def signingBytes (t : TranscriptFields) : List UInt8 :=
  let (frame,seq) := t.stream.elim ((0 : UInt8),(0 : UInt64)) fun s => (s.frame,s.seq)
  sigDomain++bigEndian 1 t.version.toNat++bigEndian 4 t.messageType.toNat++
    bigEndian 1 t.flags.toNat++t.correlationId.val++t.sender.val++t.recipient.val++
    bigEndian 4 t.senderEpoch.toNat++bigEndian 8 t.counter.toNat++bigEndian 8 t.timestampMs.toNat++
    bigEndian 8 t.expiresAt.toNat++bigEndian 1 frame.toNat++bigEndian 8 seq.toNat++t.kemEnc.val++
    bigEndian 1 t.compression.toNat++bigEndian 4 t.uncompressedLen.toNat++
    (P.sha256 t.compressedPayload).val

def sign (t : TranscriptFields) (senderSk : SK) : Bytes96 :=
  P.signMessage senderSk (t.signingBytes P)

def verify (t : TranscriptFields) (senderPub : Bytes48) (sig : Bytes96) : Bool :=
  P.verifySignature senderPub (t.signingBytes P) sig

end TranscriptFields

def kdfInfoLabel : List UInt8 :=
  ascii ['d','i','g','-','m','e','s','s','a','g','e','/','d','h','k','e','m','-','g','1','/','v','1']

def concatDh (a b : Bytes48) : Bytes 96 := ⟨a.val++b.val,by simp [a.2,b.2]⟩

structure SealParams (SK : Type) where
  senderSk : SK
  sender : Bytes32
  senderEpoch : UInt32
  recipient : Bytes32
  recipientPub : Bytes48
  messageType : UInt32
  shape : InteractionShape
  correlationId : Bytes32
  stream : Option StreamHeader
  counter : UInt64
  timestampMs : UInt64
  expiresAt : UInt64
  payload : List UInt8

structure OpenedMessage where
  messageType : UInt32
  correlationId : Bytes32
  shape : InteractionShape
  sender : Bytes32
  senderEpoch : UInt32
  counter : UInt64
  timestampMs : UInt64
  expiresAt : UInt64
  payload : List UInt8
  deriving DecidableEq, Repr

section
variable {SK : Type} (P : Primitives SK)

def kdf (z : Bytes 96) (kemEnc senderPub recipientPub : Bytes48) : Bytes 44 :=
  P.hkdfSha256 z (kdfInfoLabel++kemEnc.val++senderPub.val++recipientPub.val)

def okmKey (okm : Bytes 44) : Bytes 32 := ⟨okm.val.take 32,by simp [okm.2]⟩
def okmNonce (okm : Bytes 44) : Bytes 12 := ⟨okm.val.drop 32,by simp [okm.2]⟩

def aeadSeal (okm : Bytes 44) (aad plaintext : List UInt8) : Except MessageError (List UInt8) :=
  match P.aeadEncrypt (okmKey okm) (okmNonce okm) aad plaintext with
  | some ciphertext => .ok ciphertext
  | none => .error (.sealFailed (.text "AEAD encrypt failed"))

def aeadOpen (okm : Bytes 44) (aad ciphertext : List UInt8) : Except MessageError (List UInt8) :=
  match P.aeadDecrypt (okmKey okm) (okmNonce okm) aad ciphertext with
  | some plaintext => .ok plaintext
  | none => .error .openFailed

/-- The sender's `dh(esk, recipient_pub) || dh(sender_sk, recipient_pub)`. -/
def authEncapSecret (esk senderSk : SK) (recipientPub : Bytes48) : Except MessageError (Bytes 96) :=
  match P.g1Dh esk recipientPub with
  | none => .error .invalidPoint
  | some ephemeral =>
    match P.g1Dh senderSk recipientPub with
    | none => .error .invalidPoint
    | some staticTerm => .ok (concatDh ephemeral staticTerm)

def authDecapSecret (recipientSk : SK) (senderPub kemEnc : Bytes48) :
    Except MessageError (Bytes 96) :=
  match P.g1Dh recipientSk kemEnc with
  | none => .error .invalidPoint
  | some ephemeral =>
    match P.g1Dh recipientSk senderPub with
    | none => .error .invalidPoint
    | some staticTerm => .ok (concatDh ephemeral staticTerm)

def sealedTranscript (params : SealParams SK) (kemEnc : Bytes48) (compressed : CompressedPayload) :
    TranscriptFields where
  version := envelopeVersion
  messageType := params.messageType
  flags := params.shape.asBits ||| flagSealed
  correlationId := params.correlationId
  sender := params.sender
  recipient := params.recipient
  senderEpoch := params.senderEpoch
  counter := params.counter
  timestampMs := params.timestampMs
  expiresAt := params.expiresAt
  stream := params.stream
  kemEnc := kemEnc
  compression := compressed.compression
  uncompressedLen := compressed.uncompressedLen
  compressedPayload := compressed.bytes

def sealedInner (params : SealParams SK) (kemEnc : Bytes48) (compressed : CompressedPayload) :
    InnerMessage where
  messageType := params.messageType
  correlationId := params.correlationId
  compression := compressed.compression
  uncompressedLen := compressed.uncompressedLen
  counter := params.counter
  timestampMs := params.timestampMs
  expiresAt := params.expiresAt
  payload := compressed.bytes
  senderSig := (sealedTranscript params kemEnc compressed).sign P params.senderSk

def sealedEnvelope (params : SealParams SK) (kemEnc : Bytes48) (ciphertext : List UInt8) :
    DigMessageEnvelope where
  version := envelopeVersion
  messageType := params.messageType
  flags := params.shape.asBits ||| flagSealed
  correlationId := params.correlationId
  sender := params.sender
  recipient := params.recipient
  senderEpoch := params.senderEpoch
  stream := params.stream
  sealed := ⟨kemEnc,ciphertext⟩

/-- Seal with a given ephemeral secret. -/
def sealWithEphemeral (params : SealParams SK) (esk : SK) : Except MessageError DigMessageEnvelope := do
  let compressed ← compressPayload P params.payload
  let senderPub := P.publicKeyBytes params.senderSk
  let kemEnc := P.publicKeyBytes esk
  let z ← authEncapSecret P esk params.senderSk params.recipientPub
  let okm := kdf P z kemEnc senderPub params.recipientPub
  let inner := sealedInner P params kemEnc compressed
  let innerBytes ← mapStreamable .sealFailed (Streamable.toBytes inner)
  -- the header is bound as associated data, so it is taken before the ciphertext exists
  let aad ← (sealedEnvelope params kemEnc []).headerBytes
  let ciphertext ← aeadSeal P okm aad innerBytes
  pure (sealedEnvelope params kemEnc ciphertext)

def randomEphemeral (entropy : Except String Bytes32) : Except MessageError SK :=
  match entropy with
  | .error e => .error (.sealFailed (.entropy e))
  | .ok ikm => .ok (P.secretKeyFromSeed ikm)

def sealMessage (entropy : Except String Bytes32) (params : SealParams SK) :
    Except MessageError DigMessageEnvelope := do
  let esk ← randomEphemeral P entropy
  sealWithEphemeral P params esk

/-- An over-long TTL is refused, then a past expiry; zero is no expiry. -/
def checkExpiry (timestampMs expiresAt nowMs : UInt64) : Except MessageError Unit :=
  if expiresAt = 0 then .ok ()
  else if expiresAt > saturatingAdd timestampMs maxMessageTtlMs then .error .ttlTooLong
  else if nowMs > expiresAt then .error .expired
  else .ok ()

theorem checkExpiry_ok {timestampMs expiresAt nowMs : UInt64} :
    checkExpiry timestampMs expiresAt nowMs = .ok () ↔ expiresAt = 0 ∨
      (expiresAt ≤ saturatingAdd timestampMs maxMessageTtlMs ∧ nowMs ≤ expiresAt) := by
  unfold checkExpiry
  split_ifs with h₀ h₁ h₂
  · simp [h₀]
  · simp [h₀,UInt64.not_le.mpr h₁]
  · simp [h₀,UInt64.not_le.mpr h₂]
  · simp [h₀,UInt64.not_lt.mp h₁,UInt64.not_lt.mp h₂]

def openedTranscript (envelope : DigMessageEnvelope) (inner : InnerMessage) : TranscriptFields where
  version := envelope.version
  messageType := envelope.messageType
  flags := envelope.flags
  correlationId := envelope.correlationId
  sender := envelope.sender
  recipient := envelope.recipient
  senderEpoch := envelope.senderEpoch
  counter := inner.counter
  timestampMs := inner.timestampMs
  expiresAt := inner.expiresAt
  stream := envelope.stream
  kemEnc := envelope.sealed.kemEnc
  compression := inner.compression
  uncompressedLen := inner.uncompressedLen
  compressedPayload := inner.payload

/-- The first half of opening, through the signature check: what authenticates the
envelope, before any state is consulted. -/
def authenticate (recipientSk : SK) (envelope : DigMessageEnvelope)
    (resolveSenderPub : Bytes32 → UInt32 → Option Bytes48) :
    Except MessageError (InteractionShape × InnerMessage) := do
  match InteractionShape.fromFlags envelope.flags with
  | none => .error .headerMismatch
  | some shape =>
    match resolveSenderPub envelope.sender envelope.senderEpoch with
    | none => .error .unresolvableSender
    | some senderPub =>
      let kemEnc := envelope.sealed.kemEnc
      if !P.g1SubgroupCheck kemEnc || !P.g1SubgroupCheck senderPub then .error .invalidPoint
      else
        let z ← authDecapSecret P recipientSk senderPub kemEnc
        let recipientPub := P.publicKeyBytes recipientSk
        let okm := kdf P z kemEnc senderPub recipientPub
        let aad ← envelope.headerBytes
        let innerBytes ← aeadOpen P okm aad envelope.sealed.ciphertext
        let inner ← mapStreamable .codec (Streamable.fromBytes innerBytes)
        if !(openedTranscript envelope inner).verify P senderPub inner.senderSig then
          .error .badSignature
        else .ok (shape,inner)

def openedMessage (envelope : DigMessageEnvelope) (shape : InteractionShape) (inner : InnerMessage)
    (payload : List UInt8) : OpenedMessage where
  messageType := inner.messageType
  correlationId := inner.correlationId
  shape := shape
  sender := envelope.sender
  senderEpoch := envelope.senderEpoch
  counter := inner.counter
  timestampMs := inner.timestampMs
  expiresAt := inner.expiresAt
  payload := payload

/-- Open and fully verify an envelope, advancing the anti-replay table. -/
def openMessage (order : HashOrder) (recipientSk : SK) (envelope : DigMessageEnvelope)
    (resolveSenderPub : Bytes32 → UInt32 → Option Bytes48) (nowMs : UInt64) :
    Fallible MessageError ReplayGuard OpenedMessage := do
  let (shape,inner) ← Fallible.ofExcept (authenticate P recipientSk envelope resolveSenderPub)
  if inner.messageType ≠ envelope.messageType ∨ inner.correlationId ≠ envelope.correlationId then
    Fallible.fail .headerMismatch
  else
    Fallible.ofExcept (checkExpiry inner.timestampMs inner.expiresAt nowMs)
    let admitted ← ReplayGuard.checkAndAdmit order envelope.sender envelope.senderEpoch
      inner.counter inner.timestampMs nowMs
    if !admitted then Fallible.fail .replay
    else if inner.uncompressedLen.toNat > maxDecompressedBytes then
      Fallible.fail (.decompressionBomb inner.uncompressedLen.toNat maxDecompressedBytes)
    else
      let payload ← Fallible.ofExcept
        (decompressPayload P inner.compression inner.payload inner.uncompressedLen)
      pure (openedMessage envelope shape inner payload)

/-- The envelope passed every check up to and including the anti-replay check, which took
the table from `g` to `g'`. -/
structure Admitted (order : HashOrder) (recipientSk : SK) (envelope : DigMessageEnvelope)
    (resolveSenderPub : Bytes32 → UInt32 → Option Bytes48) (nowMs : UInt64) (g : ReplayGuard)
    (shape : InteractionShape) (inner : InnerMessage) (g' : ReplayGuard) : Prop where
  authentic : authenticate P recipientSk envelope resolveSenderPub = .ok (shape,inner)
  messageType : inner.messageType = envelope.messageType
  correlationId : inner.correlationId = envelope.correlationId
  unexpired : checkExpiry inner.timestampMs inner.expiresAt nowMs = .ok ()
  admits : ReplayGuard.checkAndAdmit (ε:=MessageError) order envelope.sender envelope.senderEpoch
    inner.counter inner.timestampMs nowMs g = some (.ok true,g')

/-- Opening is total. Either a check fails and the table is untouched, or the envelope is
admitted and only its decompression can still fail. -/
theorem openMessage_cases (order : HashOrder) (recipientSk : SK) (envelope : DigMessageEnvelope)
    (resolveSenderPub : Bytes32 → UInt32 → Option Bytes48) (nowMs : UInt64) (g : ReplayGuard) :
    (∃ e, openMessage P order recipientSk envelope resolveSenderPub nowMs g = some (.error e,g) ∧
      ∀ shape inner g',
        ¬ Admitted P order recipientSk envelope resolveSenderPub nowMs g shape inner g') ∨
    ∃ shape inner g',
      Admitted P order recipientSk envelope resolveSenderPub nowMs g shape inner g' ∧
      openMessage P order recipientSk envelope resolveSenderPub nowMs g =
        some ((decompressPayload P inner.compression inner.payload inner.uncompressedLen).map
          (openedMessage envelope shape inner),g') := by
  unfold openMessage
  cases ha : authenticate P recipientSk envelope resolveSenderPub with
  | error e =>
    refine Or.inl ⟨e,rfl,fun shape inner g' h => ?_⟩
    have := h.authentic
    rw [ha] at this
    cases this
  | ok p =>
    obtain ⟨shape,inner⟩ := p
    rw [Fallible.bind_of_ok (Fallible.ofExcept_apply _ _)]
    have hsame : ∀ {shape' inner' g'},
        Admitted P order recipientSk envelope resolveSenderPub nowMs g shape' inner' g' →
        inner' = inner := by
      intro shape' inner' g' h
      have h₁ := h.authentic
      rw [ha] at h₁
      cases h₁
      rfl
    by_cases hm : inner.messageType ≠ envelope.messageType ∨
        inner.correlationId ≠ envelope.correlationId
    · refine Or.inl ⟨.headerMismatch,by simp only [hm,if_true]; rfl,fun shape' inner' g' h => ?_⟩
      cases hsame h
      exact hm.elim (fun h₁ => h₁ h.messageType) fun h₁ => h₁ h.correlationId
    · simp only [hm,if_false]
      cases he : checkExpiry inner.timestampMs inner.expiresAt nowMs with
      | error e =>
        refine Or.inl ⟨e,rfl,fun shape' inner' g' h => ?_⟩
        cases hsame h
        have h₁ := h.unexpired
        rw [he] at h₁
        cases h₁
      | ok u =>
        rw [Fallible.bind_of_ok (Fallible.ofExcept_apply _ _)]
        obtain ⟨hr,hc⟩ | ⟨hf,hs,base,w,w',-,-,-,-,hc⟩ :=
          ReplayGuard.checkAndAdmit_cases (ε:=MessageError) order envelope.sender
            envelope.senderEpoch inner.counter inner.timestampMs nowMs g
        · rw [Fallible.bind_of_ok hc]
          refine Or.inl ⟨.replay,rfl,fun shape' inner' g' h => ?_⟩
          cases hsame h
          have h₁ := h.admits
          rw [hc] at h₁
          cases h₁
        · rw [Fallible.bind_of_ok hc]
          push Not at hm
          refine Or.inr ⟨shape,inner,_,⟨ha,hm.1,hm.2,he,hc⟩,?_⟩
          by_cases hb : inner.uncompressedLen.toNat > maxDecompressedBytes
          · simp [hb,decompress_bomb P hb,Except.map]
          · cases hd : decompressPayload P inner.compression inner.payload inner.uncompressedLen with
            | error e => simp [hb,bind,Fallible.andThen,Fallible.ofExcept,Except.map]
            | ok payload => simp [hb,bind,Fallible.andThen,Fallible.ofExcept,pure,Except.map]

variable {P}

/-- What authenticates has a known shape and a resolvable sender, decrypts under the derived
material, and carries that sender's signature over the transcript rebuilt from it. -/
theorem authenticate_ok {recipientSk : SK} {envelope : DigMessageEnvelope}
    {resolveSenderPub : Bytes32 → UInt32 → Option Bytes48} {shape : InteractionShape}
    {inner : InnerMessage}
    (h : authenticate P recipientSk envelope resolveSenderPub = .ok (shape,inner)) :
    InteractionShape.fromFlags envelope.flags = some shape ∧
    ∃ senderPub z aad innerBytes,
      resolveSenderPub envelope.sender envelope.senderEpoch = some senderPub ∧
      envelope.headerBytes = .ok aad ∧
      aeadOpen P (kdf P z envelope.sealed.kemEnc senderPub (P.publicKeyBytes recipientSk)) aad
        envelope.sealed.ciphertext = .ok innerBytes ∧
      (openedTranscript envelope inner).verify P senderPub inner.senderSig = true := by
  unfold authenticate at h
  split at h
  · cases h
  · rename_i shape' hshape
    split at h
    · cases h
    · rename_i senderPub hpub
      obtain ⟨aad,haad⟩ := envelope.headerBytes_ok
      simp only at h
      split at h
      · cases h
      · cases hz : authDecapSecret P recipientSk senderPub envelope.sealed.kemEnc with
        | error e => simp [hz,bind,Except.bind] at h
        | ok z =>
          cases ho : aeadOpen P (kdf P z envelope.sealed.kemEnc senderPub
              (P.publicKeyBytes recipientSk)) aad envelope.sealed.ciphertext with
          | error e => simp [hz,haad,ho,bind,Except.bind] at h
          | ok innerBytes =>
            simp only [hz,haad,ho,bind,Except.bind] at h
            split at h
            · cases h
            · split at h
              · cases h
              · rename_i hsig
                cases h
                refine ⟨hshape,senderPub,z,aad,innerBytes,hpub,haad,ho,?_⟩
                simpa using hsig

theorem authenticate_resolves {recipientSk : SK} {envelope : DigMessageEnvelope}
    {resolveSenderPub : Bytes32 → UInt32 → Option Bytes48} {shape : InteractionShape}
    {inner : InnerMessage}
    (h : authenticate P recipientSk envelope resolveSenderPub = .ok (shape,inner)) :
    ∃ pub, resolveSenderPub envelope.sender envelope.senderEpoch = some pub := by
  obtain ⟨-,pub,_,_,_,hpub,-⟩ := authenticate_ok h
  exact ⟨pub,hpub⟩

theorem sealWithEphemeral_ok {params : SealParams SK} {esk : SK} {env : DigMessageEnvelope}
    (h : sealWithEphemeral P params esk = .ok env) :
    ∃ compressed z innerBytes aad ct, compressPayload P params.payload = .ok compressed ∧
      authEncapSecret P esk params.senderSk params.recipientPub = .ok z ∧
      Streamable.toBytes (sealedInner P params (P.publicKeyBytes esk) compressed) = .ok innerBytes ∧
      env.headerBytes = .ok aad ∧
      aeadSeal P (kdf P z (P.publicKeyBytes esk) (P.publicKeyBytes params.senderSk)
        params.recipientPub) aad innerBytes = .ok ct ∧
      env = sealedEnvelope params (P.publicKeyBytes esk) ct := by
  unfold sealWithEphemeral at h
  cases hc : compressPayload P params.payload with
  | error e => rw [hc] at h; cases h
  | ok compressed =>
    rw [hc] at h
    cases hz : authEncapSecret P esk params.senderSk params.recipientPub with
    | error e => simp [hz,bind,Except.bind] at h
    | ok z =>
      cases hi : Streamable.toBytes (sealedInner P params (P.publicKeyBytes esk) compressed) with
      | error e => simp [hz,hi,bind,Except.bind,mapStreamable,Except.mapError] at h
      | ok innerBytes =>
        obtain ⟨aad,haad⟩ := (sealedEnvelope params (P.publicKeyBytes esk) []).headerBytes_ok
        cases hs : aeadSeal P (kdf P z (P.publicKeyBytes esk) (P.publicKeyBytes params.senderSk)
            params.recipientPub) aad innerBytes with
        | error e => simp [hz,hi,haad,hs,bind,Except.bind] at h
        | ok ct =>
          simp only [hz,hi,haad,hs,bind,Except.bind,mapStreamable_ok,pure,Except.pure,
            Except.ok.injEq] at h
          subst h
          exact ⟨compressed,z,innerBytes,aad,ct,rfl,rfl,hi,haad,hs,rfl⟩

theorem sealMessage_ok {entropy : Except String Bytes32} {params : SealParams SK}
    {envelope : DigMessageEnvelope} (h : sealMessage P entropy params = .ok envelope) :
    ∃ esk, sealWithEphemeral P params esk = .ok envelope := by
  cases entropy with
  | error e => cases h
  | ok ikm => exact ⟨_,h⟩

theorem authDecap_authEncap (hP : P.Lawful) {esk senderSk recipientSk : SK} {z : Bytes 96}
    (h : authEncapSecret P esk senderSk (P.publicKeyBytes recipientSk) = .ok z) :
    authDecapSecret P recipientSk (P.publicKeyBytes senderSk) (P.publicKeyBytes esk) = .ok z := by
  unfold authEncapSecret at h
  unfold authDecapSecret
  rw [hP.dh_comm recipientSk esk,hP.dh_comm recipientSk senderSk]
  exact h

theorem authenticate_seal (hP : P.Lawful) {params : SealParams SK} {esk recipientSk : SK}
    {env : DigMessageEnvelope} {resolveSenderPub : Bytes32 → UInt32 → Option Bytes48}
    (h : sealWithEphemeral P params esk = .ok env)
    (hto : params.recipientPub = P.publicKeyBytes recipientSk)
    (hfrom : resolveSenderPub params.sender params.senderEpoch =
      some (P.publicKeyBytes params.senderSk)) :
    ∃ compressed, compressPayload P params.payload = .ok compressed ∧
      authenticate P recipientSk env resolveSenderPub =
        .ok (params.shape,sealedInner P params (P.publicKeyBytes esk) compressed) := by
  obtain ⟨compressed,z,innerBytes,aad,ct,hc,hz,hi,haad,hs,henv⟩ := sealWithEphemeral_ok h
  refine ⟨compressed,hc,?_⟩
  rw [hto] at hz hs
  have hz' := authDecap_authEncap hP hz
  have hopen : aeadOpen P (kdf P z (P.publicKeyBytes esk) (P.publicKeyBytes params.senderSk)
      (P.publicKeyBytes recipientSk)) aad ct = .ok innerBytes := by
    unfold aeadSeal at hs
    split at hs
    · rename_i ct' he
      cases hs
      simp only [aeadOpen,hP.decrypt_encrypt he]
    · cases hs
  have hparse := Streamable.fromBytes_toBytes hi
  have hsig : (openedTranscript env (sealedInner P params (P.publicKeyBytes esk) compressed)).verify P
      (P.publicKeyBytes params.senderSk)
      (sealedInner P params (P.publicKeyBytes esk) compressed).senderSig = true := by
    rw [henv]
    exact hP.verify_sign _ _
  have hkem : env.sealed = ⟨P.publicKeyBytes esk,ct⟩ := by rw [henv]; rfl
  have hres : resolveSenderPub env.sender env.senderEpoch =
      some (P.publicKeyBytes params.senderSk) := by rw [henv]; exact hfrom
  have hshape : InteractionShape.fromFlags env.flags = some params.shape := by
    rw [henv]
    exact InteractionShape.fromFlags_asBits params.shape
  simp only [authenticate,hshape,hres,hkem,hP.subgroup,Bool.not_true,Bool.or_self,
    Bool.false_eq_true,if_false,hz',haad,hopen,hparse,hsig,bind,Except.bind,mapStreamable_ok]

end
end DigMessage
