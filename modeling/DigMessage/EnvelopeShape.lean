import DigMessage.KeyHolder

/-! The structural rules of a cleartext header. Neither sealing nor opening checks them: a sealer
copies the stream header it is given, and an opener takes whatever its sender signed. -/
namespace DigMessage
open FixedWidth Streamable

/-- The stream frames, and they alone, carry a stream header; the sealed bit is set and the reserved
bits are zero. -/
structure WellFormed (e : DigMessageEnvelope) : Prop where
  header : e.stream.isSome = true ↔ InteractionShape.fromFlags e.flags = some .streamFrame
  sealedBit : e.flags &&& flagSealed = flagSealed
  reserved : e.flags &&& ~~~(flagShapeMask ||| flagSealed) = 0

def headerTag (header : Option StreamHeader) : UInt8 := if header.isSome then 1 else 0

theorem headerBytes_split (e : DigMessageEnvelope) : ∃ front middle rest,
    e.headerBytes = .ok (front++e.flags::(middle++headerTag e.stream::rest)) ∧
      front.length = 5 ∧ middle.length = 100 := by
  have hflags : bigEndian 1 e.flags.toNat = [e.flags] := by simp [bigEndian]
  have hfront : (bigEndian 1 e.version.toNat++bigEndian 4 e.messageType.toNat).length = 5 := by simp
  have hmiddle : (e.correlationId.val++e.sender.val++e.recipient.val++
      bigEndian 4 e.senderEpoch.toNat).length = 100 := by
    simp [e.correlationId.2,e.sender.2,e.recipient.2]
  cases h : e.stream with
  | none =>
    refine ⟨_,_,[],?_,hfront,hmiddle⟩
    simp [DigMessageEnvelope.headerBytes,h,Streamable.stream,hflags,headerTag,bind,Except.bind,pure,
      Except.pure]
  | some hdr =>
    refine ⟨_,_,bigEndian 1 hdr.frame.toNat++bigEndian 8 hdr.seq.toNat++bigEndian 4 hdr.window.toNat,
      ?_,hfront,hmiddle⟩
    simp [DigMessageEnvelope.headerBytes,h,Streamable.stream,StreamHeader.fields,hflags,headerTag,bind,
      Except.bind,pure,Except.pure,Except.map]

theorem frame_offsets {e : DigMessageEnvelope} {bs : List UInt8} (h : toBytes e = .ok bs) :
    bs[5]? = some e.flags ∧ bs[106]? = some (headerTag e.stream) := by
  obtain ⟨front,middle,rest,hheader,hfront,hmiddle⟩ := headerBytes_split e
  rw [e.toBytes_followed,DigMessageEnvelope.headerBytes_eq_ok.mp hheader,followed_ok] at h
  obtain ⟨region,-,rfl⟩ := map_eq_ok.mp h
  constructor
  · simp [hfront]
  · simp [List.getElem?_append,hfront,hmiddle]

/-- The flags bytes and header tags that keep the rules: three shapes without a header, and the
stream frame with one. -/
def framings : List (UInt8 × UInt8) := [(4,0),(5,0),(6,0),(7,1)]

def Framed (bytes : List UInt8) : Prop :=
  ∃ p ∈ framings, bytes[5]? = some p.1 ∧ bytes[106]? = some p.2

theorem wellFormed_iff_mem {e : DigMessageEnvelope} :
    WellFormed e ↔ (e.flags,headerTag e.stream) ∈ framings := by
  have hall : ∀ (n : Fin 256) (b : Bool),
      ((b = true ↔ InteractionShape.fromFlags (UInt8.ofFin n) = some .streamFrame) ∧
        UInt8.ofFin n &&& flagSealed = flagSealed ∧
        UInt8.ofFin n &&& ~~~(flagShapeMask ||| flagSealed) = 0) ↔
      (UInt8.ofFin n,if b then 1 else 0) ∈ framings := by decide +kernel
  have h := hall e.flags.toFin e.stream.isSome
  exact ⟨fun hw => h.mp ⟨hw.header,hw.sealedBit,hw.reserved⟩,
    fun hm => ⟨(h.mpr hm).1,(h.mpr hm).2.1,(h.mpr hm).2.2⟩⟩

theorem wellFormed_iff_framed {e : DigMessageEnvelope} {bs : List UInt8} (h : toBytes e = .ok bs) :
    WellFormed e ↔ Framed bs := by
  obtain ⟨hflags,htag⟩ := frame_offsets h
  rw [wellFormed_iff_mem]
  constructor
  · exact fun hm => ⟨_,hm,hflags,htag⟩
  · rintro ⟨⟨flags,tag⟩,hm,hf,ht⟩
    rw [hflags] at hf
    rw [htag] at ht
    cases hf
    cases ht
    exact hm

theorem sealed_flags (shape : InteractionShape) :
    (shape.asBits ||| flagSealed) &&& flagSealed = flagSealed ∧
      (shape.asBits ||| flagSealed) &&& ~~~(flagShapeMask ||| flagSealed) = 0 := by
  cases shape <;> decide

section
variable {SK : Type} {P : Primitives SK}

theorem wellFormed_sealed {entropy : Except String Bytes32} {params : SealParams SK}
    {env : DigMessageEnvelope} (h : sealMessage P entropy params = .ok env) :
    WellFormed env ↔ (params.stream.isSome = true ↔ params.shape = .streamFrame) := by
  obtain ⟨esk,hseal⟩ := sealMessage_ok h
  obtain ⟨_,_,_,_,ct,-,-,-,-,-,rfl⟩ := sealWithEphemeral_ok hseal
  obtain ⟨hbit,hreserved⟩ := sealed_flags params.shape
  have hshape : InteractionShape.fromFlags (sealedEnvelope params (P.publicKeyBytes esk) ct).flags =
      some params.shape := InteractionShape.fromFlags_asBits params.shape
  constructor
  · intro hw
    have hheader := hw.header
    rw [hshape,Option.some.injEq] at hheader
    exact hheader
  · intro hc
    refine ⟨?_,hbit,hreserved⟩
    rw [hshape,Option.some.injEq]
    exact hc

def InnerMessage.signedFor (P : Primitives SK) (inner : InnerMessage) (envelope : DigMessageEnvelope)
    (senderSk : SK) : InnerMessage :=
  {inner with senderSig := (openedTranscript envelope inner).sign P senderSk}

theorem InnerMessage.signedFor_sig (P : Primitives SK) (envelope : DigMessageEnvelope)
    (inner : InnerMessage) (senderSk : SK) : (inner.signedFor P envelope senderSk).senderSig =
      (openedTranscript envelope (inner.signedFor P envelope senderSk)).sign P senderSk := rfl

/-- What an authentic sender put together by its own lights: it signed the header it chose, whatever
its flags and its stream header, and the inner message is one the recipient takes now. -/
structure Authored (P : Primitives SK) (senderSk recipientSk : SK) (envelope : DigMessageEnvelope)
    (resolveSenderPub : Bytes32 → UInt32 → Option Bytes48) (nowMs : UInt64) (g : ReplayGuard)
    (inner : InnerMessage) (payload : List UInt8) : Prop where
  resolves : resolveSenderPub envelope.sender envelope.senderEpoch = some (P.publicKeyBytes senderSk)
  kemInSubgroup : P.g1SubgroupCheck envelope.sealed.kemEnc = true
  signed : inner.senderSig = (openedTranscript envelope inner).sign P senderSk
  messageType : inner.messageType = envelope.messageType
  correlationId : inner.correlationId = envelope.correlationId
  unexpired : checkExpiry inner.timestampMs inner.expiresAt nowMs = .ok ()
  fresh : ReplayGuard.fresh inner.timestampMs nowMs = true
  unseen : ¬ g.Seen (envelope.sender,envelope.senderEpoch) inner.counter
  decodes : decompressPayload P inner.compression inner.payload inner.uncompressedLen = .ok payload

/-- No rule on the header stands between an authentic sender and its recipient. -/
theorem authored_opens (hP : P.Lawful) {senderSk recipientSk : SK}
    {envelope env : DigMessageEnvelope} {resolveSenderPub : Bytes32 → UInt32 → Option Bytes48}
    {nowMs : UInt64} {g : ReplayGuard} {inner : InnerMessage} {payload : List UInt8} {z : Bytes 96}
    (order : HashOrder)
    (h : Authored P senderSk recipientSk envelope resolveSenderPub nowMs g inner payload)
    (hz : authDecapSecret P recipientSk (P.publicKeyBytes senderSk) envelope.sealed.kemEnc = .ok z)
    (henclose : enclose P (kdf P z envelope.sealed.kemEnc (P.publicKeyBytes senderSk)
      (P.publicKeyBytes recipientSk)) envelope inner = .ok env) : ∃ shape g',
    InteractionShape.fromFlags envelope.flags = some shape ∧
    openMessage P order recipientSk env resolveSenderPub nowMs g =
      some (.ok (openedMessage env shape inner payload),g') := by
  obtain ⟨ephemeral,staticTerm,he,hs,rfl⟩ := (authDecapSecret_ok_iff P).mp hz
  have hsig : (openedTranscript envelope inner).verify P (P.publicKeyBytes senderSk)
      inner.senderSig = true := by
    rw [h.signed]
    exact hP.verify_sign _ _
  obtain ⟨aad,innerBytes,hverifies⟩ := verifies_enclosed hP henclose h.resolves h.kemInSubgroup
    (hP.subgroup senderSk) he hs hsig
  obtain ⟨shape,hshape⟩ := fromFlags_total envelope.flags
  obtain ⟨_,_,ct,-,-,-,rfl⟩ := enclose_ok henclose
  obtain ⟨g',hg⟩ := (ReplayGuard.admitted_iff ⟨envelope.sender,envelope.senderEpoch,inner.counter,
    inner.timestampMs,nowMs,order⟩ g).mpr ⟨h.fresh,h.unseen⟩
  have had : Admitted P order recipientSk
      {envelope with sealed := ⟨envelope.sealed.kemEnc,ct⟩} resolveSenderPub nowMs g shape inner g' :=
    ⟨hverifies.authenticate hshape,h.messageType,h.correlationId,h.unexpired,hg⟩
  refine ⟨shape,g',hshape,?_⟩
  rw [openMessage_of_admitted had,h.decodes]
  rfl

variable (P)

/-- What is sealed is well formed exactly where the caller gave a stream header to a stream frame
and to no other shape; what is decoded and opened, exactly where the frame is one of the four
framings. Any other framing is delivered as well, once its sender has signed it. -/
theorem wellFormed_exactly :
    (∀ (entropy : Except String Bytes32) (params : SealParams SK) (env : DigMessageEnvelope),
      sealMessage P entropy params = .ok env →
      (WellFormed env ↔ (params.stream.isSome = true ↔ params.shape = .streamFrame))) ∧
    (∀ (bytes : List UInt8) (env : DigMessageEnvelope) (recipientSk : SK)
      (resolveSenderPub : Bytes32 → UInt32 → Option Bytes48) (order : HashOrder) (nowMs : UInt64)
      (g g' : ReplayGuard) (m : OpenedMessage), decodeEnvelope bytes = .ok env →
      openMessage P order recipientSk env resolveSenderPub nowMs g = some (.ok m,g') →
      (WellFormed env ↔ Framed bytes)) ∧
    (P.Lawful → ∀ (senderSk recipientSk : SK) (envelope env : DigMessageEnvelope)
      (resolveSenderPub : Bytes32 → UInt32 → Option Bytes48) (order : HashOrder) (nowMs : UInt64)
      (g : ReplayGuard) (inner : InnerMessage) (payload : List UInt8) (z : Bytes 96)
      (bytes : List UInt8), envelope.version ≤ envelopeVersion →
      Authored P senderSk recipientSk envelope resolveSenderPub nowMs g inner payload →
      authDecapSecret P recipientSk (P.publicKeyBytes senderSk) envelope.sealed.kemEnc = .ok z →
      enclose P (kdf P z envelope.sealed.kemEnc (P.publicKeyBytes senderSk)
        (P.publicKeyBytes recipientSk)) envelope inner = .ok env →
      encodeEnvelope env = .ok bytes →
      env.flags = envelope.flags ∧ env.stream = envelope.stream ∧ decodeEnvelope bytes = .ok env ∧
      ∃ shape g', openMessage P order recipientSk env resolveSenderPub nowMs g =
        some (.ok (openedMessage env shape inner payload),g')) := by
  refine ⟨fun entropy params env h => wellFormed_sealed h,?_,?_⟩
  · intro bytes env recipientSk resolveSenderPub order nowMs g g' m hdec _
    exact wellFormed_iff_framed (encodeEnvelope_ok.mp (decodeEnvelope_iff.mp hdec).2).1
  · intro hP senderSk recipientSk envelope env resolveSenderPub order nowMs g inner payload z bytes
      hversion h hz henclose hencode
    obtain ⟨shape,g',-,hopen⟩ := authored_opens hP order h hz henclose
    obtain ⟨hsame,hflags,hstream⟩ := enclose_keeps henclose
    rw [← hsame] at hversion
    exact ⟨hflags,hstream,decodeEnvelope_iff.mpr ⟨hversion,hencode⟩,shape,g',hopen⟩

end

def headedLetter : SealParams Bytes32 := {letter [1,2,3] 0 with stream := some ⟨0,0,4⟩}

/-- A request with every reserved bit set, the sealed bit clear, and a stream header. -/
def foreignHeader : DigMessageEnvelope where
  version := 1
  messageType := 0x500
  flags := 0b11111001
  correlationId := byte32 9
  sender := byte32 1
  recipient := byte32 2
  senderEpoch := 0
  stream := some ⟨0,0,4⟩
  sealed := ⟨Primitives.point (byte32 7),[]⟩

def foreignUnsigned : InnerMessage where
  messageType := 0x500
  correlationId := byte32 9
  compression := compressionNone
  uncompressedLen := 3
  counter := 0
  timestampMs := 1000
  expiresAt := 0
  payload := [1,2,3]
  senderSig := zeroSig

def foreignInner : InnerMessage :=
  foreignUnsigned.signedFor .plain foreignHeader (byte32 11)

theorem foreign_authored : Authored .plain (byte32 11) (byte32 12) foreignHeader lettersSender 1000 .new
    foreignInner [1,2,3] where
  resolves := rfl
  kemInSubgroup := by decide +kernel
  signed := InnerMessage.signedFor_sig .plain foreignHeader foreignUnsigned (byte32 11)
  messageType := rfl
  correlationId := rfl
  unexpired := rfl
  fresh := by decide
  unseen := ReplayGuard.new_not_seen _ _
  decodes := by decide +kernel

theorem foreign_enclosed : ∃ z env bytes,
    authDecapSecret .plain (byte32 12) (Primitives.point (byte32 11)) foreignHeader.sealed.kemEnc =
      .ok z ∧
    enclose .plain (kdf .plain z foreignHeader.sealed.kemEnc (Primitives.point (byte32 11))
      (Primitives.point (byte32 12))) foreignHeader foreignInner = .ok env ∧
    encodeEnvelope env = .ok bytes := by
  have hok : ((authDecapSecret .plain (byte32 12) (Primitives.point (byte32 11))
      foreignHeader.sealed.kemEnc).bind fun z => (enclose .plain (kdf .plain z
        foreignHeader.sealed.kemEnc (Primitives.point (byte32 11)) (Primitives.point (byte32 12)))
        foreignHeader foreignInner).bind encodeEnvelope).isOk = true := by decide +kernel
  obtain ⟨z,bytes,hz,hframe⟩ := exists_of_bind_isOk hok
  have hok' := congrArg Except.isOk hframe
  obtain ⟨env,bytes,henclose,hencode⟩ := exists_of_bind_isOk hok'
  exact ⟨z,env,bytes,hz,henclose,hencode⟩

/-- A letter without a header seals well formed; the foreign frame is delivered, and is none of the
four framings. -/
theorem foreign_delivered :
    (∃ env, sealMessage .plain (.ok (byte32 7)) (letter [1,2,3] 0) = .ok env ∧ WellFormed env) ∧
    ∃ bytes env shape g', decodeEnvelope bytes = .ok env ∧
      openMessage .plain default (byte32 12) env lettersSender 1000 .new =
        some (.ok (openedMessage env shape foreignInner [1,2,3]),g') ∧
      env.flags = 0b11111001 ∧ ¬ WellFormed env ∧ ¬ Framed bytes := by
  obtain ⟨hsealed,hopened,hdelivered⟩ := wellFormed_exactly Primitives.plain
  have hok : (sealMessage .plain (.ok (byte32 7)) (letter [1,2,3] 0)).isOk = true := by decide +kernel
  obtain ⟨own,hown⟩ := exists_of_isOk hok
  refine ⟨⟨own,hown,(hsealed _ _ _ hown).mpr (by decide)⟩,?_⟩
  obtain ⟨z,env,bytes,hz,henclose,hencode⟩ := foreign_enclosed
  obtain ⟨hflags,hstream,hdec,shape,g',hopen⟩ := hdelivered Primitives.plain_lawful (byte32 11)
    (byte32 12) foreignHeader env lettersSender default 1000 .new foreignInner [1,2,3] z bytes
    (by decide) foreign_authored hz henclose hencode
  have hiff := hopened bytes env (byte32 12) lettersSender default 1000 .new g' _ hdec hopen
  have hill : ¬ WellFormed env := by
    rw [wellFormed_iff_mem,hflags,hstream]
    decide
  exact ⟨bytes,env,shape,g',hdec,hopen,hflags,hill,fun hf => hill (hiff.mpr hf)⟩

/-- What is sealed is well formed. -/
def SealsWellFormed {SK : Type} (P : Primitives SK) : Prop :=
  ∀ (entropy : Except String Bytes32) (params : SealParams SK) (env : DigMessageEnvelope),
    sealMessage P entropy params = .ok env → WellFormed env

/-- What is decoded and opened is well formed. -/
def OpensWellFormed {SK : Type} (P : Primitives SK) : Prop :=
  ∀ (bytes : List UInt8) (env : DigMessageEnvelope) (recipientSk : SK)
    (resolveSenderPub : Bytes32 → UInt32 → Option Bytes48) (order : HashOrder) (nowMs : UInt64)
    (g g' : ReplayGuard) (m : OpenedMessage), decodeEnvelope bytes = .ok env →
    openMessage P order recipientSk env resolveSenderPub nowMs g = some (.ok m,g') → WellFormed env

theorem ill_formed_pass : ¬ SealsWellFormed .plain ∧ ¬ OpensWellFormed .plain := by
  constructor
  · intro h
    have hok : (sealMessage .plain (.ok (byte32 7)) headedLetter).isOk = true := by decide +kernel
    obtain ⟨env,hseal⟩ := exists_of_isOk hok
    have hw := (wellFormed_sealed hseal).mp (h _ _ _ hseal)
    exact absurd (hw.mp rfl) (by decide)
  · intro h
    obtain ⟨z,env,bytes,hz,henclose,hencode⟩ := foreign_enclosed
    obtain ⟨shape,g',-,hopen⟩ := authored_opens Primitives.plain_lawful default foreign_authored hz
      henclose
    obtain ⟨hversion,hflags,hstream⟩ := enclose_keeps henclose
    have hdec : decodeEnvelope bytes = .ok env :=
      decodeEnvelope_iff.mpr ⟨by rw [hversion]; decide,hencode⟩
    have hw := wellFormed_iff_mem.mp (h bytes _ _ _ _ _ _ _ _ hdec hopen)
    rw [hflags,hstream] at hw
    exact absurd hw (by decide)

end DigMessage
