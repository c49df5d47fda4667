import DigMessage.GuardIsolation
import DigMessage.SealRoundTrip

/-! The gates of opening, one by one, and what each failure leaves of the anti-replay table.
The saturating clock arithmetic of the code is that of the integers: a saturated bound is past
every 64-bit time. -/
namespace DigMessage
open FixedWidth

section
variable {SK : Type} (P : Primitives SK)

/-- The cryptographic gates, with the values each hands to the next. -/
structure Verifies (recipientSk : SK) (envelope : DigMessageEnvelope)
    (resolveSenderPub : Bytes32 → UInt32 → Option Bytes48) (senderPub ephemeral staticTerm : Bytes48)
    (aad innerBytes : List UInt8) (inner : InnerMessage) : Prop where
  resolves : resolveSenderPub envelope.sender envelope.senderEpoch = some senderPub
  kemInSubgroup : P.g1SubgroupCheck envelope.sealed.kemEnc = true
  senderInSubgroup : P.g1SubgroupCheck senderPub = true
  ephemeralDh : P.g1Dh recipientSk envelope.sealed.kemEnc = some ephemeral
  staticDh : P.g1Dh recipientSk senderPub = some staticTerm
  header : envelope.headerBytes = .ok aad
  decrypts : aeadOpen P (kdf P (concatDh ephemeral staticTerm) envelope.sealed.kemEnc senderPub
    (P.publicKeyBytes recipientSk)) aad envelope.sealed.ciphertext = .ok innerBytes
  parses : Streamable.fromBytes innerBytes = .ok inner
  signed : (openedTranscript envelope inner).verify P senderPub inner.senderSig = true

/-- Every gate up to the anti-replay check, that check included. -/
structure Passes (recipientSk : SK) (envelope : DigMessageEnvelope)
    (resolveSenderPub : Bytes32 → UInt32 → Option Bytes48) (nowMs : UInt64) (g : ReplayGuard)
    (inner : InnerMessage) : Prop where
  verified : ∃ senderPub ephemeral staticTerm aad innerBytes, Verifies P recipientSk envelope
    resolveSenderPub senderPub ephemeral staticTerm aad innerBytes inner
  messageType : inner.messageType = envelope.messageType
  correlationId : inner.correlationId = envelope.correlationId
  unexpired : inner.expiresAt = 0 ∨ (nowMs.toNat ≤ inner.expiresAt.toNat ∧
    inner.expiresAt.toNat ≤ inner.timestampMs.toNat+maxMessageTtlMs.toNat)
  recent : |(inner.timestampMs.toNat : ℤ)-nowMs.toNat| ≤ freshnessWindowMs.toNat
  unseen : ¬ g.Seen (envelope.sender,envelope.senderEpoch) inner.counter

def Decodes (compression : UInt8) (data payload : List UInt8) : Prop :=
  (compression = compressionNone ∧ payload = data) ∨
  (compression = compressionZstd ∧ P.zstdDecompress data payload.length = .ok payload)

structure PassesAll (recipientSk : SK) (envelope : DigMessageEnvelope)
    (resolveSenderPub : Bytes32 → UInt32 → Option Bytes48) (nowMs : UInt64) (g : ReplayGuard)
    (inner : InnerMessage) (payload : List UInt8) : Prop where
  passes : Passes P recipientSk envelope resolveSenderPub nowMs g inner
  capped : inner.uncompressedLen.toNat ≤ maxDecompressedBytes
  decodes : Decodes P inner.compression inner.payload payload
  length : payload.length = inner.uncompressedLen.toNat

inductive Undecodable : MessageError → Prop
  | bomb (declared max : ℕ) : Undecodable (.decompressionBomb declared max)
  | codec (id : UInt8) : Undecodable (.unsupportedCompression id)
  | mismatch (expected actual : ℕ) : Undecodable (.decompressedLengthMismatch expected actual)
  | decoder (e : String) : Undecodable (.codec (.zstd e))

theorem fromFlags_total (flags : UInt8) : ∃ shape, InteractionShape.fromFlags flags = some shape := by
  have hle : (flags &&& flagShapeMask).toNat ≤ 3 := by
    rw [UInt8.toNat_and]
    exact Nat.and_le_right
  unfold InteractionShape.fromFlags
  generalize (flags &&& flagShapeMask).toNat = n at hle
  interval_cases n
  · exact ⟨_,rfl⟩
  · exact ⟨_,rfl⟩
  · exact ⟨_,rfl⟩
  · exact ⟨_,rfl⟩

theorem checkExpiry_ok_iff {timestampMs expiresAt nowMs : UInt64} :
    checkExpiry timestampMs expiresAt nowMs = .ok () ↔ expiresAt = 0 ∨
      (nowMs.toNat ≤ expiresAt.toNat ∧
        expiresAt.toNat ≤ timestampMs.toNat+maxMessageTtlMs.toNat) := by
  have hfit := expiresAt.toNat_lt
  rw [checkExpiry_ok,UInt64.le_iff_toNat_le,UInt64.le_iff_toNat_le,saturatingAdd_toNat]
  refine or_congr_right ⟨fun h => ⟨h.2,by omega⟩,fun h => ⟨by omega,h.1⟩⟩

theorem authDecapSecret_ok_iff {recipientSk : SK} {senderPub kemEnc : Bytes48} {z : Bytes 96} :
    authDecapSecret P recipientSk senderPub kemEnc = .ok z ↔
      ∃ ephemeral staticTerm, P.g1Dh recipientSk kemEnc = some ephemeral ∧
        P.g1Dh recipientSk senderPub = some staticTerm ∧ z = concatDh ephemeral staticTerm := by
  unfold authDecapSecret
  cases he : P.g1Dh recipientSk kemEnc with
  | none => simp
  | some ephemeral =>
    cases hs : P.g1Dh recipientSk senderPub with
    | none => simp
    | some staticTerm => simp [eq_comm]

theorem authenticate_iff {recipientSk : SK} {envelope : DigMessageEnvelope}
    {resolveSenderPub : Bytes32 → UInt32 → Option Bytes48} {shape : InteractionShape}
    {inner : InnerMessage} :
    authenticate P recipientSk envelope resolveSenderPub = .ok (shape,inner) ↔
      InteractionShape.fromFlags envelope.flags = some shape ∧
      ∃ senderPub ephemeral staticTerm aad innerBytes, Verifies P recipientSk envelope
        resolveSenderPub senderPub ephemeral staticTerm aad innerBytes inner := by
  constructor
  · intro h
    unfold authenticate at h
    split at h
    · cases h
    rename_i shape' hshape
    split at h
    · cases h
    rename_i senderPub hpub
    obtain ⟨aad,haad⟩ := envelope.headerBytes_ok
    simp only at h
    split at h
    · cases h
    rename_i hsub
    simp only [Bool.or_eq_true,Bool.not_eq_true',not_or,Bool.not_eq_false] at hsub
    cases hz : authDecapSecret P recipientSk senderPub envelope.sealed.kemEnc with
    | error e => simp [hz,bind,Except.bind] at h
    | ok z =>
      obtain ⟨ephemeral,staticTerm,he,hs,rfl⟩ := (authDecapSecret_ok_iff P).mp hz
      cases ho : aeadOpen P (kdf P (concatDh ephemeral staticTerm) envelope.sealed.kemEnc senderPub
          (P.publicKeyBytes recipientSk)) aad envelope.sealed.ciphertext with
      | error e => simp [hz,haad,ho,bind,Except.bind] at h
      | ok innerBytes =>
        cases hp : (Streamable.fromBytes innerBytes : Except StreamableError InnerMessage) with
        | error e => simp [hz,haad,ho,hp,bind,Except.bind,mapStreamable,Except.mapError] at h
        | ok inner' =>
          simp only [hz,haad,ho,hp,bind,Except.bind,mapStreamable_ok] at h
          split at h
          · cases h
          · rename_i hsig
            cases h
            refine ⟨hshape,senderPub,ephemeral,staticTerm,aad,innerBytes,hpub,hsub.1,hsub.2,he,hs,
              haad,ho,hp,?_⟩
            simpa using hsig
  · rintro ⟨hshape,senderPub,ephemeral,staticTerm,aad,innerBytes,h⟩
    have hz := (authDecapSecret_ok_iff P).mpr ⟨ephemeral,staticTerm,h.ephemeralDh,h.staticDh,rfl⟩
    unfold authenticate
    simp only [hshape,h.resolves,h.kemInSubgroup,h.senderInSubgroup,hz,h.header,h.decrypts,h.parses,
      h.signed,bind,Except.bind,mapStreamable_ok,Bool.not_true,Bool.or_self,Bool.false_eq_true,if_false]

theorem authDecapSecret_error {recipientSk : SK} {senderPub kemEnc : Bytes48} {e : MessageError}
    (h : authDecapSecret P recipientSk senderPub kemEnc = .error e) : e = .invalidPoint := by
  unfold authDecapSecret at h
  split at h
  · cases h
    rfl
  · split at h
    · cases h
      rfl
    · cases h

theorem aeadOpen_error {okm : Bytes 44} {aad ciphertext : List UInt8} {e : MessageError}
    (h : aeadOpen P okm aad ciphertext = .error e) : e = .openFailed := by
  unfold aeadOpen at h
  split at h
  · cases h
  · cases h
    rfl

theorem authenticate_error {recipientSk : SK} {envelope : DigMessageEnvelope}
    {resolveSenderPub : Bytes32 → UInt32 → Option Bytes48} {e : MessageError}
    (h : authenticate P recipientSk envelope resolveSenderPub = .error e) : ¬ Undecodable e := by
  unfold authenticate at h
  split at h
  · cases h
    rintro ⟨⟩
  rename_i shape hshape
  split at h
  · cases h
    rintro ⟨⟩
  rename_i senderPub hpub
  obtain ⟨aad,haad⟩ := envelope.headerBytes_ok
  simp only at h
  split at h
  · cases h
    rintro ⟨⟩
  cases hz : authDecapSecret P recipientSk senderPub envelope.sealed.kemEnc with
  | error e' =>
    simp only [hz,bind,Except.bind,Except.error.injEq] at h
    rw [← h,authDecapSecret_error P hz]
    rintro ⟨⟩
  | ok z =>
    cases ho : aeadOpen P (kdf P z envelope.sealed.kemEnc senderPub (P.publicKeyBytes recipientSk))
        aad envelope.sealed.ciphertext with
    | error e' =>
      simp only [hz,haad,ho,bind,Except.bind,Except.error.injEq] at h
      rw [← h,aeadOpen_error P ho]
      rintro ⟨⟩
    | ok innerBytes =>
      cases hp : (Streamable.fromBytes innerBytes : Except StreamableError InnerMessage) with
      | error e' =>
        simp only [hz,haad,ho,hp,bind,Except.bind,mapStreamable,Except.mapError,
          Except.error.injEq] at h
        rw [← h]
        rintro ⟨⟩
      | ok inner =>
        simp only [hz,haad,ho,hp,bind,Except.bind,mapStreamable_ok] at h
        split at h
        · cases h
          rintro ⟨⟩
        · cases h

theorem decompressPayload_iff {compression : UInt8} {data payload : List UInt8} {len : UInt32} :
    decompressPayload P compression data len = .ok payload ↔
      len.toNat ≤ maxDecompressedBytes ∧ Decodes P compression data payload ∧
        payload.length = len.toNat := by
  unfold decompressPayload Decodes
  simp only
  by_cases hcap : len.toNat > maxDecompressedBytes
  · rw [if_pos hcap]
    simp [Nat.not_le.mpr hcap]
  · rw [if_neg hcap]
    have hle := Nat.not_lt.mp hcap
    by_cases hnone : compression = compressionNone
    · subst hnone
      have hne : compressionNone ≠ compressionZstd := by decide
      rw [if_pos rfl]
      by_cases hlen : data.length = len.toNat
      · simp only [hlen,ne_eq,not_true_eq_false,if_false,Except.ok.injEq,hle,true_and,hne,false_and,
          or_false]
        exact ⟨fun he => ⟨he.symm,by rw [← he,hlen]⟩,fun he => he.1.symm⟩
      · simp only [hlen,ne_eq,not_false_eq_true,if_true,reduceCtorEq,false_iff,hne,false_and,or_false,
          true_and,hle]
        rintro ⟨rfl,he⟩
        exact hlen he
    · rw [if_neg hnone]
      by_cases hzstd : compression = compressionZstd
      · subst hzstd
        rw [if_pos rfl]
        simp only [hnone,false_and,false_or,true_and,hle]
        cases hd : P.zstdDecompress data len.toNat with
        | error e =>
          simp only [reduceCtorEq,false_iff]
          rintro ⟨hok,he⟩
          rw [he,hd] at hok
          cases hok
        | ok decoded =>
          by_cases hlen : decoded.length = len.toNat
          · simp only [hlen,ne_eq,not_true_eq_false,if_false,Except.ok.injEq]
            constructor
            · rintro rfl
              exact ⟨by rw [hlen]; exact hd,hlen⟩
            · rintro ⟨hok,he⟩
              rw [he,hd] at hok
              cases hok
              rfl
          · simp only [hlen,ne_eq,not_false_eq_true,if_true,reduceCtorEq,false_iff]
            rintro ⟨hok,he⟩
            rw [he,hd] at hok
            cases hok
            exact hlen he
      · rw [if_neg hzstd]
        simp [hnone,hzstd]

theorem decompressPayload_error {compression : UInt8} {data : List UInt8} {len : UInt32}
    {e : MessageError} (h : decompressPayload P compression data len = .error e) :
    Undecodable e := by
  unfold decompressPayload at h
  simp only at h
  split_ifs at h
  · cases h
    exact .bomb _ _
  · cases h
    exact .mismatch _ _
  · split at h
    · cases h
      exact .decoder _
    · split_ifs at h
      cases h
      exact .mismatch _ _
  · cases h
    exact .codec _

theorem admitted_iff_passes {order : HashOrder} {recipientSk : SK} {envelope : DigMessageEnvelope}
    {resolveSenderPub : Bytes32 → UInt32 → Option Bytes48} {nowMs : UInt64} {g : ReplayGuard}
    {inner : InnerMessage} :
    (∃ shape g', Admitted P order recipientSk envelope resolveSenderPub nowMs g shape inner g') ↔
      Passes P recipientSk envelope resolveSenderPub nowMs g inner := by
  constructor
  · rintro ⟨shape,g',ha,hm,hc,hx,hg⟩
    have hstep : Check.Step ⟨envelope.sender,envelope.senderEpoch,inner.counter,inner.timestampMs,
        nowMs,order⟩ g true g' := hg
    obtain ⟨hf,hs⟩ := (ReplayGuard.admitted_iff _ g).mp ⟨g',hstep⟩
    exact ⟨((authenticate_iff P).mp ha).2,hm,hc,checkExpiry_ok_iff.mp hx,
      (ReplayGuard.fresh_iff _ _).mp hf,hs⟩
  · rintro ⟨hv,hm,hc,hx,hf,hs⟩
    obtain ⟨shape,hshape⟩ := fromFlags_total envelope.flags
    obtain ⟨g',hg⟩ := (ReplayGuard.admitted_iff ⟨envelope.sender,envelope.senderEpoch,inner.counter,
      inner.timestampMs,nowMs,order⟩ g).mpr ⟨(ReplayGuard.fresh_iff _ _).mpr hf,hs⟩
    exact ⟨shape,g',(authenticate_iff P).mpr ⟨hshape,hv⟩,hm,hc,checkExpiry_ok_iff.mpr hx,hg⟩

theorem openMessage_early {order : HashOrder} {recipientSk : SK} {envelope : DigMessageEnvelope}
    {resolveSenderPub : Bytes32 → UInt32 → Option Bytes48} {nowMs : UInt64} {g g' : ReplayGuard}
    {e : MessageError}
    (h : openMessage P order recipientSk envelope resolveSenderPub nowMs g = some (.error e,g'))
    (hno : ∀ shape inner g',
      ¬ Admitted P order recipientSk envelope resolveSenderPub nowMs g shape inner g') :
    ¬ Undecodable e := by
  unfold openMessage at h
  cases ha : authenticate P recipientSk envelope resolveSenderPub with
  | error e' =>
    rw [ha] at h
    cases h
    exact authenticate_error P ha
  | ok p =>
    obtain ⟨shape,inner⟩ := p
    rw [ha,Fallible.bind_of_ok (Fallible.ofExcept_apply _ _)] at h
    by_cases hm : inner.messageType ≠ envelope.messageType ∨
        inner.correlationId ≠ envelope.correlationId
    · simp only [hm,if_true] at h
      cases h
      exact nofun
    · simp only [hm,if_false] at h
      cases hx : checkExpiry inner.timestampMs inner.expiresAt nowMs with
      | error e' =>
        rw [hx] at h
        cases h
        unfold checkExpiry at hx
        split_ifs at hx
        · cases hx
          exact nofun
        · cases hx
          exact nofun
      | ok u =>
        rw [hx,Fallible.bind_of_ok (Fallible.ofExcept_apply _ _)] at h
        obtain ⟨-,hc⟩ | ⟨-,-,base,w,w',-,-,-,-,hc⟩ :=
          ReplayGuard.checkAndAdmit_cases (ε:=MessageError) order envelope.sender
            envelope.senderEpoch inner.counter inner.timestampMs nowMs g
        · rw [Fallible.bind_of_ok hc] at h
          cases h
          exact nofun
        · push Not at hm
          exact absurd ⟨ha,hm.1,hm.2,hx,hc⟩ (hno shape inner _)

theorem Admitted.inner_eq {order : HashOrder} {recipientSk : SK} {envelope : DigMessageEnvelope}
    {resolveSenderPub : Bytes32 → UInt32 → Option Bytes48} {nowMs : UInt64} {g g' : ReplayGuard}
    {shape : InteractionShape} {inner inner' : InnerMessage}
    (h : Admitted P order recipientSk envelope resolveSenderPub nowMs g shape inner g')
    (hp : Passes P recipientSk envelope resolveSenderPub nowMs g inner') : inner' = inner := by
  obtain ⟨shape',g₁,had⟩ : ∃ shape g', Admitted P order recipientSk envelope resolveSenderPub
      nowMs g shape inner' g' := (admitted_iff_passes P).mpr hp
  have hauth := had.authentic
  rw [h.authentic] at hauth
  cases hauth
  rfl

/-- Opening delivers exactly the messages that pass every gate. -/
theorem openMessage_delivers_iff (order : HashOrder) {recipientSk : SK}
    {envelope : DigMessageEnvelope} {resolveSenderPub : Bytes32 → UInt32 → Option Bytes48}
    {nowMs : UInt64} {g : ReplayGuard} {m : OpenedMessage} :
    (∃ g', openMessage P order recipientSk envelope resolveSenderPub nowMs g = some (.ok m,g')) ↔
      ∃ shape inner payload, InteractionShape.fromFlags envelope.flags = some shape ∧
        PassesAll P recipientSk envelope resolveSenderPub nowMs g inner payload ∧
        m = openedMessage envelope shape inner payload := by
  constructor
  · rintro ⟨g',h⟩
    obtain ⟨shape,inner,payload,had,hd,rfl⟩ := openMessage_ok h
    obtain ⟨hcap,hdec,hlen⟩ := (decompressPayload_iff P).mp hd
    have hpass := (admitted_iff_passes P).mp ⟨shape,g',had⟩
    exact ⟨shape,inner,payload,((authenticate_iff P).mp had.authentic).1,⟨hpass,hcap,hdec,hlen⟩,rfl⟩
  · rintro ⟨shape,inner,payload,hshape,hall,rfl⟩
    obtain ⟨shape',g',had⟩ : ∃ shape g', Admitted P order recipientSk envelope resolveSenderPub
        nowMs g shape inner g' := (admitted_iff_passes P).mpr hall.passes
    have hshape' := ((authenticate_iff P).mp had.authentic).1
    rw [hshape] at hshape'
    cases hshape'
    refine ⟨g',?_⟩
    rw [openMessage_of_admitted had,
      (decompressPayload_iff P).mpr ⟨hall.capped,hall.decodes,hall.length⟩]
    rfl

theorem undecodable_of_map {inner : InnerMessage} {f : List UInt8 → OpenedMessage} {e : MessageError}
    (h : (decompressPayload P inner.compression inner.payload inner.uncompressedLen).map f = .error e) :
    Undecodable e := by
  cases hd : decompressPayload P inner.compression inner.payload inner.uncompressedLen with
  | error e' =>
    rw [hd] at h
    cases h
    exact decompressPayload_error P hd
  | ok payload =>
    rw [hd] at h
    cases h

/-- Opening delivers exactly the messages that pass every gate. An error up to and including the
anti-replay check leaves the table as it was; an error after it, like a delivery, leaves the
table as admitting the one counter does. -/
theorem open_message_gates (order : HashOrder) (recipientSk : SK) (envelope : DigMessageEnvelope)
    (resolveSenderPub : Bytes32 → UInt32 → Option Bytes48) (nowMs : UInt64) (g : ReplayGuard) :
    ∃ res g', openMessage P order recipientSk envelope resolveSenderPub nowMs g = some (res,g') ∧
      (∀ m, res = .ok m ↔ ∃ shape inner payload,
        InteractionShape.fromFlags envelope.flags = some shape ∧
        PassesAll P recipientSk envelope resolveSenderPub nowMs g inner payload ∧
        m = openedMessage envelope shape inner payload) ∧
      (∀ e, res = .error e → ¬ Undecodable e → g' = g) ∧
      (∀ e, res = .error e → Undecodable e →
        ∃ inner, Passes P recipientSk envelope resolveSenderPub nowMs g inner) ∧
      ∀ inner, Passes P recipientSk envelope resolveSenderPub nowMs g inner →
        (∀ e, res = .error e → Undecodable e) ∧
        ReplayGuard.checkAndAdmit (ε:=MessageError) order envelope.sender envelope.senderEpoch
          inner.counter inner.timestampMs nowMs g = some (.ok true,g') := by
  have hdelivers : ∀ {res g'}, openMessage P order recipientSk envelope resolveSenderPub nowMs g =
      some (res,g') → ∀ m, res = .ok m ↔ ∃ shape inner payload,
        InteractionShape.fromFlags envelope.flags = some shape ∧
        PassesAll P recipientSk envelope resolveSenderPub nowMs g inner payload ∧
        m = openedMessage envelope shape inner payload := by
    intro res g' h m
    rw [← openMessage_delivers_iff P order,h]
    constructor
    · rintro rfl
      exact ⟨g',rfl⟩
    · rintro ⟨g₁,h₁⟩
      cases h₁
      rfl
  obtain ⟨e,ho,hno⟩ | ⟨shape,inner,g',had,ho⟩ :=
    openMessage_cases P order recipientSk envelope resolveSenderPub nowMs g
  · have hstop : ∀ inner, ¬ Passes P recipientSk envelope resolveSenderPub nowMs g inner := by
      intro inner hp
      obtain ⟨shape,g',had⟩ : ∃ shape g', Admitted P order recipientSk envelope resolveSenderPub
          nowMs g shape inner g' := (admitted_iff_passes P).mpr hp
      exact hno shape inner g' had
    have hearly := openMessage_early P ho hno
    refine ⟨_,g,ho,hdelivers ho,fun _ _ _ => rfl,fun e' he hu => ?_,
      fun inner hp => absurd hp (hstop inner)⟩
    cases he
    exact absurd hu hearly
  · have hpass := (admitted_iff_passes P).mp ⟨shape,g',had⟩
    refine ⟨_,g',ho,hdelivers ho,fun e he hu => absurd (undecodable_of_map P he) hu,
      fun e _ _ => ⟨inner,hpass⟩,fun inner' hp => ?_⟩
    cases had.inner_eq P hp
    exact ⟨fun e he => undecodable_of_map P he,had.admits⟩

end
end DigMessage
