import DigMessage.OpenGates
import DigMessage.Transcript

/-! What the holders of the AEAD key can do. The cipher binds the header against everyone else;
against the two of them it is bound by the signature alone. -/
namespace DigMessage
open FixedWidth Streamable

section
variable {SK : Type} (P : Primitives SK)

def enclose (okm : Bytes 44) (envelope : DigMessageEnvelope) (inner : InnerMessage) :
    Except MessageError DigMessageEnvelope := do
  let innerBytes ← mapStreamable .sealFailed (toBytes inner)
  let aad ← envelope.headerBytes
  let ciphertext ← aeadSeal P okm aad innerBytes
  pure {envelope with sealed := ⟨envelope.sealed.kemEnc,ciphertext⟩}

variable {P}

theorem enclose_ok {okm : Bytes 44} {envelope env : DigMessageEnvelope} {inner : InnerMessage}
    (h : enclose P okm envelope inner = .ok env) : ∃ innerBytes aad ciphertext,
    toBytes inner = .ok innerBytes ∧ envelope.headerBytes = .ok aad ∧
    aeadSeal P okm aad innerBytes = .ok ciphertext ∧
    env = {envelope with sealed := ⟨envelope.sealed.kemEnc,ciphertext⟩} := by
  unfold enclose at h
  cases hi : (toBytes inner : Except StreamableError (List UInt8)) with
  | error e => simp [hi,bind,Except.bind,mapStreamable,Except.mapError] at h
  | ok innerBytes =>
    obtain ⟨aad,haad⟩ := envelope.headerBytes_ok
    cases hs : aeadSeal P okm aad innerBytes with
    | error e => simp [hi,haad,hs,bind,Except.bind] at h
    | ok ct =>
      simp only [hi,haad,hs,bind,Except.bind,mapStreamable_ok,pure,Except.pure,Except.ok.injEq] at h
      exact ⟨innerBytes,aad,ct,rfl,haad,hs,h.symm⟩

theorem enclose_keeps {okm : Bytes 44} {envelope env : DigMessageEnvelope} {inner : InnerMessage}
    (h : enclose P okm envelope inner = .ok env) : env.version = envelope.version ∧
      env.flags = envelope.flags ∧ env.stream = envelope.stream := by
  obtain ⟨_,_,_,-,-,-,rfl⟩ := enclose_ok h
  exact ⟨rfl,rfl,rfl⟩

theorem exists_enclosed
    (hencrypt : ∀ key nonce aad msg, (P.aeadEncrypt key nonce aad msg).isSome = true)
    (okm : Bytes 44) (envelope : DigMessageEnvelope) {inner : InnerMessage}
    {innerBytes : List UInt8} (hparse : fromBytes innerBytes = .ok inner) :
    ∃ env, enclose P okm envelope inner = .ok env := by
  have hi := fromBytes_iff.mp hparse
  obtain ⟨aad,haad⟩ := envelope.headerBytes_ok
  obtain ⟨ct,hct⟩ := Option.isSome_iff_exists.mp
    (hencrypt (okmKey okm) (okmNonce okm) aad innerBytes)
  refine ⟨{envelope with sealed := ⟨envelope.sealed.kemEnc,ct⟩},?_⟩
  simp [enclose,hi,haad,aeadSeal,hct,bind,Except.bind,pure,Except.pure]

/-- What a holder of the key encloses passes every cryptographic gate under a signature that
verifies for the header it put. -/
theorem verifies_enclosed (hP : P.Lawful) {recipientSk : SK} {envelope env : DigMessageEnvelope}
    {resolveSenderPub : Bytes32 → UInt32 → Option Bytes48}
    {senderPub ephemeral staticTerm : Bytes48} {inner : InnerMessage}
    (henclose : enclose P (kdf P (concatDh ephemeral staticTerm) envelope.sealed.kemEnc senderPub
      (P.publicKeyBytes recipientSk)) envelope inner = .ok env)
    (hresolve : resolveSenderPub envelope.sender envelope.senderEpoch = some senderPub)
    (hkem : P.g1SubgroupCheck envelope.sealed.kemEnc = true)
    (hsender : P.g1SubgroupCheck senderPub = true)
    (hephemeral : P.g1Dh recipientSk envelope.sealed.kemEnc = some ephemeral)
    (hstatic : P.g1Dh recipientSk senderPub = some staticTerm)
    (hsig : (openedTranscript envelope inner).verify P senderPub inner.senderSig = true) :
    ∃ aad innerBytes, Verifies P recipientSk env resolveSenderPub senderPub ephemeral staticTerm aad
      innerBytes inner := by
  obtain ⟨innerBytes,aad,ct,hi,haad,hseal,rfl⟩ := enclose_ok henclose
  refine ⟨aad,innerBytes,hresolve,hkem,hsender,hephemeral,hstatic,haad,?_,fromBytes_toBytes hi,hsig⟩
  unfold aeadSeal at hseal
  split at hseal
  · rename_i ct' hencrypt
    cases hseal
    simp only [aeadOpen,hP.decrypt_encrypt hencrypt]
  · cases hseal

theorem Verifies.authenticate {recipientSk : SK} {env : DigMessageEnvelope}
    {resolveSenderPub : Bytes32 → UInt32 → Option Bytes48}
    {senderPub ephemeral staticTerm : Bytes48} {aad innerBytes : List UInt8} {inner : InnerMessage}
    (h : Verifies P recipientSk env resolveSenderPub senderPub ephemeral staticTerm aad innerBytes
      inner) {shape : InteractionShape}
    (hshape : InteractionShape.fromFlags env.flags = some shape) :
    DigMessage.authenticate P recipientSk env resolveSenderPub = .ok (shape,inner) :=
  (authenticate_iff P).mpr ⟨hshape,_,_,_,_,_,h⟩

theorem openMessage_congr {order : HashOrder} {recipientSk : SK} {env env' : DigMessageEnvelope}
    {resolveSenderPub : Bytes32 → UInt32 → Option Bytes48} {nowMs : UInt64}
    (ha : authenticate P recipientSk env' resolveSenderPub =
      authenticate P recipientSk env resolveSenderPub)
    (hm : env'.messageType = env.messageType) (hc : env'.correlationId = env.correlationId)
    (hs : env'.sender = env.sender) (he : env'.senderEpoch = env.senderEpoch) :
    openMessage P order recipientSk env' resolveSenderPub nowMs =
      openMessage P order recipientSk env resolveSenderPub nowMs := by
  simp only [openMessage,openedMessage,ha,hm,hc,hs,he]

variable (P)

/-- Of the signatures at hand, those that verify under this key were made for the messages of
`signed`. -/
def Unforgeable (pub : Bytes48) (signed : Set TranscriptFields) (sigs : Set Bytes96) : Prop :=
  ∀ (t : TranscriptFields), ∀ sig ∈ sigs, t.verify P pub sig = true →
    ∃ t' ∈ signed, t'.signingBytes P = t.signingBytes P

variable {P}

theorem frameSeq_committed {t : TranscriptFields} {o o' : Option StreamHeader} :
    TranscriptFields.signingBytes P {t with stream := o} =
      TranscriptFields.signingBytes P {t with stream := o'} ↔ frameSeq o = frameSeq o' := by
  rw [TranscriptFields.signingBytes_inj,← TranscriptFields.agrees_iff]
  exact ⟨fun h => h.frameSeq,
    fun h => ⟨rfl,rfl,rfl,rfl,rfl,rfl,rfl,rfl,rfl,rfl,h,rfl,rfl,rfl,rfl⟩⟩

/-- A header with the same frame kind and sequence number authenticates as the one signed. -/
theorem authenticate_reheaded (hP : P.Lawful) {recipientSk : SK} {env env' : DigMessageEnvelope}
    {resolveSenderPub : Bytes32 → UInt32 → Option Bytes48}
    {senderPub ephemeral staticTerm : Bytes48} {aad innerBytes : List UInt8} {inner : InnerMessage}
    {o : Option StreamHeader}
    (h : Verifies P recipientSk env resolveSenderPub senderPub ephemeral staticTerm aad innerBytes
      inner) (ho : frameSeq o = frameSeq env.stream)
    (henclose : enclose P (kdf P (concatDh ephemeral staticTerm) env.sealed.kemEnc senderPub
      (P.publicKeyBytes recipientSk)) {env with stream := o} inner = .ok env') :
    authenticate P recipientSk env' resolveSenderPub =
      authenticate P recipientSk env resolveSenderPub := by
  have hbytes : (openedTranscript {env with stream := o} inner).signingBytes P =
      (openedTranscript env inner).signingBytes P :=
    (frameSeq_committed (t:=openedTranscript env inner)).mpr ho
  have hsig : (openedTranscript {env with stream := o} inner).verify P senderPub inner.senderSig =
      true := by
    have hsigned := h.signed
    unfold TranscriptFields.verify at hsigned ⊢
    rwa [hbytes]
  obtain ⟨aad',innerBytes',hverifies⟩ := verifies_enclosed hP henclose h.resolves h.kemInSubgroup
    h.senderInSubgroup h.ephemeralDh h.staticDh hsig
  obtain ⟨shape,hshape⟩ := fromFlags_total env.flags
  obtain ⟨-,hflags,-⟩ := enclose_keeps henclose
  rw [h.authenticate hshape,hverifies.authenticate (by rw [hflags,hshape])]

theorem openMessage_reheaded (hP : P.Lawful) {order : HashOrder} {recipientSk : SK}
    {env env' : DigMessageEnvelope} {resolveSenderPub : Bytes32 → UInt32 → Option Bytes48}
    {nowMs : UInt64} {senderPub ephemeral staticTerm : Bytes48} {aad innerBytes : List UInt8}
    {inner : InnerMessage} {o : Option StreamHeader}
    (h : Verifies P recipientSk env resolveSenderPub senderPub ephemeral staticTerm aad innerBytes
      inner) (ho : frameSeq o = frameSeq env.stream)
    (henclose : enclose P (kdf P (concatDh ephemeral staticTerm) env.sealed.kemEnc senderPub
      (P.publicKeyBytes recipientSk)) {env with stream := o} inner = .ok env') :
    openMessage P order recipientSk env' resolveSenderPub nowMs =
      openMessage P order recipientSk env resolveSenderPub nowMs := by
  have hauth := authenticate_reheaded hP h ho henclose
  obtain ⟨_,_,ct,-,-,-,henv⟩ := enclose_ok henclose
  exact openMessage_congr hauth (by rw [henv]) (by rw [henv]) (by rw [henv]) (by rw [henv])

variable (P)

/-- The signature commits to the frame kind and the sequence number of the stream header and to
nothing else of it. Against a key whose signatures are not forged, what authenticates agrees with
a transcript its sender signed; and a holder of the AEAD key who puts any header of the signed
frame kind and sequence number is not noticed. -/
theorem signature_commits_to_frame_seq :
    (∀ (t : TranscriptFields) (o o' : Option StreamHeader),
      TranscriptFields.signingBytes P {t with stream := o} =
        TranscriptFields.signingBytes P {t with stream := o'} ↔ frameSeq o = frameSeq o') ∧
    (∀ (recipientSk : SK) (env : DigMessageEnvelope)
      (resolveSenderPub : Bytes32 → UInt32 → Option Bytes48) (shape : InteractionShape)
      (inner : InnerMessage) (pub : Bytes48) (signed : Set TranscriptFields) (sigs : Set Bytes96),
      resolveSenderPub env.sender env.senderEpoch = some pub → Unforgeable P pub signed sigs →
      inner.senderSig ∈ sigs → authenticate P recipientSk env resolveSenderPub = .ok (shape,inner) →
      ∃ t ∈ signed, t.Agrees P (openedTranscript env inner)) ∧
    (P.Lawful → ∀ (recipientSk : SK) (env env' : DigMessageEnvelope)
      (resolveSenderPub : Bytes32 → UInt32 → Option Bytes48)
      (senderPub ephemeral staticTerm : Bytes48) (aad innerBytes : List UInt8)
      (inner : InnerMessage) (o : Option StreamHeader),
      Verifies P recipientSk env resolveSenderPub senderPub ephemeral staticTerm aad innerBytes inner →
      frameSeq o = frameSeq env.stream →
      enclose P (kdf P (concatDh ephemeral staticTerm) env.sealed.kemEnc senderPub
        (P.publicKeyBytes recipientSk)) {env with stream := o} inner = .ok env' →
      ∀ (order : HashOrder) (nowMs : UInt64),
        openMessage P order recipientSk env' resolveSenderPub nowMs =
          openMessage P order recipientSk env resolveSenderPub nowMs) := by
  refine ⟨fun t o o' => frameSeq_committed,?_,?_⟩
  · intro recipientSk env resolveSenderPub shape inner pub signed sigs hpub hforge hsig hauth
    obtain ⟨-,senderPub,ephemeral,staticTerm,aad,innerBytes,h⟩ := (authenticate_iff P).mp hauth
    have hsame := h.resolves
    rw [hpub] at hsame
    cases hsame
    obtain ⟨t,ht,hbytes⟩ := hforge _ _ hsig h.signed
    exact ⟨t,ht,(TranscriptFields.agrees_iff P).mpr
      ((TranscriptFields.signingBytes_inj P).mp hbytes)⟩
  · intro hP recipientSk env env' resolveSenderPub senderPub ephemeral staticTerm aad innerBytes inner o
      h ho henclose order nowMs
    exact openMessage_reheaded hP h ho henclose

end

section
variable {SK : Type} (P : Primitives SK)

/-- Different headers are signed differently. -/
def HeadersCommitted : Prop :=
  ∀ (t : TranscriptFields) (o o' : Option StreamHeader), o ≠ o' →
    TranscriptFields.signingBytes P {t with stream := o} ≠
      TranscriptFields.signingBytes P {t with stream := o'}

/-- Against a key whose signatures are not forged, what authenticates has a header its sender
signed. -/
def HeadersKept : Prop :=
  ∀ (recipientSk : SK) (env : DigMessageEnvelope)
    (resolveSenderPub : Bytes32 → UInt32 → Option Bytes48) (shape : InteractionShape)
    (inner : InnerMessage) (pub : Bytes48) (signed : Set TranscriptFields) (sigs : Set Bytes96),
    resolveSenderPub env.sender env.senderEpoch = some pub → Unforgeable P pub signed sigs →
    inner.senderSig ∈ sigs → authenticate P recipientSk env resolveSenderPub = .ok (shape,inner) →
    ∃ t ∈ signed, t.stream = env.stream

end

def creditHeader (window : UInt32) : StreamHeader := ⟨StreamFrame.credit.asU8,0,window⟩

def creditFrame : SealParams Bytes32 :=
  {letter [] 0 with shape := .streamFrame, stream := some (creditHeader 1)}

def creditTranscript : TranscriptFields :=
  sealedTranscript creditFrame (Primitives.point (byte32 7)) (raw [] 0)

def zeroSig : Bytes96 := ⟨List.replicate 96 0,rfl⟩

/-- The stand-in where every other message has a signature of zeros. -/
def creditSigner : Primitives Bytes32 :=
  {Primitives.plain with
    signMessage := fun x msg => if msg = creditTranscript.signingBytes .plain then
      Primitives.plain.signMessage x msg else zeroSig
    verifySignature := fun pub msg sig => if msg = creditTranscript.signingBytes .plain then
      Primitives.plain.verifySignature pub msg sig else sig = zeroSig}

theorem creditSigner_lawful : creditSigner.Lawful where
  dh_comm := Primitives.plain_lawful.dh_comm
  subgroup := Primitives.plain_lawful.subgroup
  verify_sign x msg := by
    by_cases hmsg : msg = creditTranscript.signingBytes .plain
    · simp only [creditSigner,hmsg,if_true]
      exact Primitives.plain_lawful.verify_sign x _
    · simp [creditSigner,hmsg]
  decrypt_encrypt := Primitives.plain_lawful.decrypt_encrypt
  zstd {xs ys level} h := by
    cases h
    rfl

theorem creditSigner_verify (pub : Bytes48) (msg : List UInt8) (sig : Bytes96) :
    creditSigner.verifySignature pub msg sig = if msg = creditTranscript.signingBytes .plain then
      Primitives.plain.verifySignature pub msg sig else sig = zeroSig := rfl

theorem creditSigner_signingBytes (t : TranscriptFields) :
    t.signingBytes creditSigner = t.signingBytes .plain := rfl

def creditSig : Bytes96 := creditTranscript.sign creditSigner (byte32 11)

theorem credit_signed :
    (sealedInner creditSigner creditFrame (Primitives.point (byte32 7)) (raw [] 0)).senderSig ∈
      ({creditSig} : Set Bytes96) := by
  have hsk : creditFrame.senderSk = byte32 11 := rfl
  rw [Set.mem_singleton_iff,sealedInner,hsk,creditSig,creditTranscript]

theorem creditSigner_unforgeable :
    Unforgeable creditSigner (Primitives.point (byte32 11)) {creditTranscript} {creditSig} := by
  intro t sig hsig hverify
  rw [Set.mem_singleton_iff.mp hsig,TranscriptFields.verify,creditSigner_verify] at hverify
  refine ⟨creditTranscript,Set.mem_singleton _,?_⟩
  by_contra hne
  have hother : ¬ t.signingBytes creditSigner = creditTranscript.signingBytes .plain := by
    rw [creditSigner_signingBytes]
    rw [creditSigner_signingBytes,creditSigner_signingBytes] at hne
    exact fun h => hne h.symm
  rw [if_neg hother] at hverify
  have hreal : ¬ creditSig = zeroSig := by decide +kernel
  exact hreal (of_decide_eq_true hverify)

theorem credit_enclosed : ∃ env env' senderPub ephemeral staticTerm aad innerBytes,
    sealWithEphemeral creditSigner creditFrame (byte32 7) = .ok env ∧
    Verifies creditSigner (byte32 12) env lettersSender senderPub ephemeral staticTerm aad innerBytes
      (sealedInner creditSigner creditFrame (Primitives.point (byte32 7)) (raw [] 0)) ∧
    enclose creditSigner (kdf creditSigner (concatDh ephemeral staticTerm) env.sealed.kemEnc senderPub
      (creditSigner.publicKeyBytes (byte32 12))) {env with stream := some (creditHeader 1000)}
      (sealedInner creditSigner creditFrame (Primitives.point (byte32 7)) (raw [] 0)) = .ok env' := by
  have hok : (sealWithEphemeral creditSigner creditFrame (byte32 7)).isOk = true := by
    decide +kernel
  obtain ⟨env,hseal⟩ := exists_of_isOk hok
  have hkeys : KeysMatch creditSigner creditFrame (byte32 12) lettersSender := ⟨rfl,rfl⟩
  obtain ⟨compressed,hc,hauth,-⟩ := authentic_of_sealed creditSigner_lawful hseal hkeys
  have hraw : compressPayload creditSigner creditFrame.payload = .ok (raw [] 0) := by decide +kernel
  rw [hraw] at hc
  cases hc
  obtain ⟨-,senderPub,ephemeral,staticTerm,aad,innerBytes,h⟩ := (authenticate_iff _).mp hauth
  obtain ⟨env',henclose⟩ := exists_enclosed (P:=creditSigner) (fun _ _ _ _ => rfl)
    (kdf creditSigner (concatDh ephemeral staticTerm) env.sealed.kemEnc senderPub
      (creditSigner.publicKeyBytes (byte32 12)))
      {env with stream := some (creditHeader 1000)} h.parses
  exact ⟨env,env',senderPub,ephemeral,staticTerm,aad,innerBytes,hseal,h,henclose⟩

theorem credit_sealed {env : DigMessageEnvelope}
    (h : sealWithEphemeral creditSigner creditFrame (byte32 7) = .ok env) :
    env.stream = some (creditHeader 1) ∧
      frameSeq (some (creditHeader 1000)) = frameSeq env.stream := by
  obtain ⟨_,_,_,_,ct,-,-,-,-,-,rfl⟩ := sealWithEphemeral_ok h
  exact ⟨rfl,rfl⟩

/-- The recipient's own copy of the credit, at a thousand times its window, opens as signed, and
agrees with the transcript of the one credit that was ever signed. -/
theorem raised_credit_opens : ∃ env env' g',
    sealWithEphemeral creditSigner creditFrame (byte32 7) = .ok env ∧
    env.stream = some (creditHeader 1) ∧ env'.stream = some (creditHeader 1000) ∧
    openMessage creditSigner default (byte32 12) env' lettersSender 1000 .new =
      some (.ok creditFrame.opened,g') ∧
    creditTranscript.Agrees creditSigner (openedTranscript env'
      (sealedInner creditSigner creditFrame (Primitives.point (byte32 7)) (raw [] 0))) := by
  obtain ⟨env,env',senderPub,ephemeral,staticTerm,aad,innerBytes,hseal,h,henclose⟩ :=
    credit_enclosed
  obtain ⟨hone,hsame⟩ := credit_sealed hseal
  obtain ⟨-,hagrees,hreheaded⟩ := signature_commits_to_frame_seq creditSigner
  have hkeys : KeysMatch creditSigner creditFrame (byte32 12) lettersSender := ⟨rfl,rfl⟩
  obtain ⟨g',hg⟩ := letter_admitted [] 0
  have hopen : openMessage creditSigner default (byte32 12) env lettersSender 1000 .new =
      some (.ok creditFrame.opened,g') :=
    open_seal_round_trip creditSigner_lawful hseal hkeys hg (by decide +kernel) (by decide +kernel)
  rw [← hreheaded creditSigner_lawful _ _ env' _ _ _ _ _ _ _ _ h hsame henclose] at hopen
  obtain ⟨shape,hshape⟩ := fromFlags_total env.flags
  have hauth := authenticate_reheaded creditSigner_lawful h hsame henclose
  rw [h.authenticate hshape] at hauth
  obtain ⟨t,ht,hagree⟩ := hagrees (byte32 12) env' lettersSender shape _ _ {creditTranscript}
    {creditSig}
    rfl creditSigner_unforgeable credit_signed hauth
  rw [Set.mem_singleton_iff.mp ht] at hagree
  obtain ⟨-,-,hraised⟩ := enclose_keeps henclose
  exact ⟨env,env',g',hseal,hone,hraised,hopen,hagree⟩

/-- Two windows are signed alike, and a header nobody signed authenticates. -/
theorem window_not_committed : ¬ HeadersCommitted creditSigner ∧ ¬ HeadersKept creditSigner := by
  constructor
  · intro h
    have hne : some (creditHeader 1) ≠ some (creditHeader 1000) := by decide
    exact h creditTranscript _ _ hne (frameSeq_committed.mpr rfl)
  · intro h
    obtain ⟨env,env',senderPub,ephemeral,staticTerm,aad,innerBytes,hseal,hv,henclose⟩ :=
      credit_enclosed
    obtain ⟨-,hsame⟩ := credit_sealed hseal
    obtain ⟨shape,hshape⟩ := fromFlags_total env.flags
    have hauth := authenticate_reheaded creditSigner_lawful hv hsame henclose
    rw [hv.authenticate hshape] at hauth
    obtain ⟨t,ht,hstream⟩ := h (byte32 12) env' lettersSender shape _ _ {creditTranscript}
      {creditSig}
      rfl creditSigner_unforgeable credit_signed hauth
    have hraised : env'.stream = some (creditHeader 1000) := (enclose_keeps henclose).2.2
    have hsigned : creditTranscript.stream = some (creditHeader 1) := rfl
    rw [Set.mem_singleton_iff.mp ht,hsigned,hraised] at hstream
    exact absurd hstream (by decide)

end DigMessage
