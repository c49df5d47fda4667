import DigMessage.EnvelopeCodec
import DigMessage.Seal

/-! Seal and open, end to end: what a matching recipient gets out of a sealed envelope, and
which limits only the opening side enforces. -/
namespace DigMessage
open FixedWidth Streamable

section
variable {SK : Type}

def SealParams.opened (params : SealParams SK) : OpenedMessage where
  messageType := params.messageType
  correlationId := params.correlationId
  shape := params.shape
  sender := params.sender
  senderEpoch := params.senderEpoch
  counter := params.counter
  timestampMs := params.timestampMs
  expiresAt := params.expiresAt
  payload := params.payload

/-- The recipient holds the key sealed to, and its resolver knows the sender's. -/
structure KeysMatch (P : Primitives SK) (params : SealParams SK) (recipientSk : SK)
    (resolveSenderPub : Bytes32 → UInt32 → Option Bytes48) : Prop where
  recipient : params.recipientPub = P.publicKeyBytes recipientSk
  sender : resolveSenderPub params.sender params.senderEpoch = some (P.publicKeyBytes params.senderSk)

/-- The table admits the message as sealed, and becomes `g'`. -/
def Admits (order : HashOrder) (params : SealParams SK) (nowMs : UInt64) (g g' : ReplayGuard) : Prop :=
  ReplayGuard.checkAndAdmit (ε:=MessageError) order params.sender params.senderEpoch params.counter
    params.timestampMs nowMs g = some (.ok true,g')

/-- The lifetime claimed is none or within the cap. -/
def SealParams.WithinTtl (params : SealParams SK) : Prop :=
  params.expiresAt = 0 ∨ params.expiresAt ≤ saturatingAdd params.timestampMs maxMessageTtlMs

instance (params : SealParams SK) : Decidable params.WithinTtl := inferInstanceAs (Decidable (_ ∨ _))

variable {P : Primitives SK} {order : HashOrder} {params : SealParams SK} {esk recipientSk : SK}
  {env : DigMessageEnvelope} {resolveSenderPub : Bytes32 → UInt32 → Option Bytes48}
  {nowMs : UInt64} {g g' : ReplayGuard}

theorem openMessage_of_admitted {shape : InteractionShape} {inner : InnerMessage}
    (h : Admitted P order recipientSk env resolveSenderPub nowMs g shape inner g') :
    openMessage P order recipientSk env resolveSenderPub nowMs g =
      some ((decompressPayload P inner.compression inner.payload inner.uncompressedLen).map
        (openedMessage env shape inner),g') := by
  obtain ⟨e,-,hno⟩ | ⟨shape₁,inner₁,g₁,had,hopen⟩ :=
    openMessage_cases P order recipientSk env resolveSenderPub nowMs g
  · exact absurd h (hno _ _ _)
  · have h₁ := had.authentic
    rw [h.authentic] at h₁
    cases h₁
    have h₂ := had.admits
    rw [h.admits] at h₂
    cases h₂
    exact hopen

theorem openMessage_ok {m : OpenedMessage}
    (h : openMessage P order recipientSk env resolveSenderPub nowMs g = some (.ok m,g')) :
    ∃ shape inner payload,
      Admitted P order recipientSk env resolveSenderPub nowMs g shape inner g' ∧
      decompressPayload P inner.compression inner.payload inner.uncompressedLen = .ok payload ∧
      m = openedMessage env shape inner payload := by
  obtain ⟨cause,ho,-⟩ | ⟨shape,inner,g₁,had,ho⟩ :=
    openMessage_cases P order recipientSk env resolveSenderPub nowMs g
  · rw [ho] at h
    cases h
  · rw [ho] at h
    cases hd : decompressPayload P inner.compression inner.payload inner.uncompressedLen with
    | error cause =>
      rw [hd] at h
      cases h
    | ok payload =>
      rw [hd] at h
      cases h
      exact ⟨shape,inner,payload,had,hd,rfl⟩

theorem openMessage_of_expiry {shape : InteractionShape} {inner : InnerMessage} {err : MessageError}
    (ha : authenticate P recipientSk env resolveSenderPub = .ok (shape,inner))
    (hm : inner.messageType = env.messageType) (hc : inner.correlationId = env.correlationId)
    (hx : checkExpiry inner.timestampMs inner.expiresAt nowMs = .error err) :
    openMessage P order recipientSk env resolveSenderPub nowMs g = some (.error err,g) := by
  unfold openMessage
  rw [ha,Fallible.bind_of_ok (Fallible.ofExcept_apply _ _)]
  simp only [hm,hc,ne_eq,not_true_eq_false,or_self,if_false,hx]
  rfl

theorem openMessage_of_replay {shape : InteractionShape} {inner : InnerMessage}
    (ha : authenticate P recipientSk env resolveSenderPub = .ok (shape,inner))
    (hm : inner.messageType = env.messageType) (hc : inner.correlationId = env.correlationId)
    (hx : checkExpiry inner.timestampMs inner.expiresAt nowMs = .ok ())
    (hg : ReplayGuard.checkAndAdmit (ε:=MessageError) order env.sender env.senderEpoch inner.counter
      inner.timestampMs nowMs g = some (.ok false,g')) :
    openMessage P order recipientSk env resolveSenderPub nowMs g = some (.error .replay,g') := by
  unfold openMessage
  rw [ha,Fallible.bind_of_ok (Fallible.ofExcept_apply _ _)]
  simp only [hm,hc,ne_eq,not_true_eq_false,or_self,if_false,hx]
  rw [Fallible.bind_of_ok (Fallible.ofExcept_apply _ _),Fallible.bind_of_ok hg]
  rfl

theorem authentic_of_sealed (hP : P.Lawful) (h : sealWithEphemeral P params esk = .ok env)
    (hk : KeysMatch P params recipientSk resolveSenderPub) : ∃ compressed,
    compressPayload P params.payload = .ok compressed ∧
    authenticate P recipientSk env resolveSenderPub =
      .ok (params.shape,sealedInner P params (P.publicKeyBytes esk) compressed) ∧
    ∃ ct, env = sealedEnvelope params (P.publicKeyBytes esk) ct := by
  obtain ⟨compressed,hc,ha⟩ := authenticate_seal hP h hk.recipient hk.sender
  obtain ⟨_,_,_,_,ct,-,-,-,-,-,he⟩ := sealWithEphemeral_ok h
  exact ⟨compressed,hc,ha,ct,he⟩

/-- Admitted within its lifetime, a sealed message opens to what was sealed, or is refused
for a payload past the cap. -/
theorem openMessage_sealed (hP : P.Lawful) (h : sealWithEphemeral P params esk = .ok env)
    (hk : KeysMatch P params recipientSk resolveSenderPub) (hg : Admits order params nowMs g g')
    (hx : checkExpiry params.timestampMs params.expiresAt nowMs = .ok ()) :
    openMessage P order recipientSk env resolveSenderPub nowMs g =
      some (if params.payload.length ≤ maxDecompressedBytes then .ok params.opened
        else .error (.decompressionBomb params.payload.length maxDecompressedBytes),g') := by
  obtain ⟨compressed,hc,ha,ct,rfl⟩ := authentic_of_sealed hP h hk
  have had : Admitted P order recipientSk (sealedEnvelope params (P.publicKeyBytes esk) ct)
      resolveSenderPub nowMs g params.shape (sealedInner P params (P.publicKeyBytes esk) compressed)
      g' := ⟨ha,rfl,rfl,hx,hg⟩
  have hopen := openMessage_of_admitted had
  obtain ⟨hlen,hd⟩ := decompress_compress hP.zstd hc
  rw [hopen]
  by_cases hcap : params.payload.length ≤ maxDecompressedBytes
  · have hpay := hd hcap
    rw [if_pos hcap]
    simp only [sealedInner] at hpay ⊢
    rw [hpay]
    rfl
  · have hbomb : decompressPayload P compressed.compression compressed.bytes
        compressed.uncompressedLen = .error (.decompressionBomb compressed.uncompressedLen.toNat
          maxDecompressedBytes) := decompress_bomb P (by omega)
    rw [if_neg hcap]
    simp only [sealedInner] at hbomb ⊢
    rw [hbomb,hlen]
    rfl

/-- Seal and open are inverse: under matching keys, a table that admits the message and a
lifetime valid now, opening returns every sealed field and the original payload. -/
theorem open_seal_round_trip (hP : P.Lawful) (h : sealWithEphemeral P params esk = .ok env)
    (hk : KeysMatch P params recipientSk resolveSenderPub) (hg : Admits order params nowMs g g')
    (hx : checkExpiry params.timestampMs params.expiresAt nowMs = .ok ())
    (hcap : params.payload.length ≤ maxDecompressedBytes) :
    openMessage P order recipientSk env resolveSenderPub nowMs g = some (.ok params.opened,g') := by
  have hopen := openMessage_sealed hP h hk hg hx
  rw [if_pos hcap] at hopen
  exact hopen

end

def letter (payload : List UInt8) (expiresAt : UInt64) : SealParams Bytes32 where
  senderSk := byte32 11
  sender := byte32 1
  senderEpoch := 0
  recipient := byte32 2
  recipientPub := Primitives.point (byte32 12)
  messageType := 0x500
  shape := .oneShot
  correlationId := byte32 9
  stream := none
  counter := 0
  timestampMs := 1000
  expiresAt := expiresAt
  payload := payload

def lettersSender (_ : Bytes32) (_ : UInt32) : Option Bytes48 := some (Primitives.point (byte32 11))

theorem letter_keys (payload : List UInt8) (expiresAt : UInt64) :
    KeysMatch .plain (letter payload expiresAt) (byte32 12) lettersSender := ⟨rfl,rfl⟩

theorem letter_admitted (payload : List UInt8) (expiresAt : UInt64) :
    ∃ g', Admits default (letter payload expiresAt) 1000 .new g' := by
  obtain ⟨hr,-⟩ | ⟨-,-,_,_,_,-,-,-,-,hc⟩ := ReplayGuard.checkAndAdmit_cases (ε:=MessageError)
    default (byte32 1) 0 0 1000 1000 .new
  · have hfresh : ReplayGuard.fresh 1000 1000 = true := by decide
    have hunseen := ReplayGuard.new_not_seen (byte32 1,0) 0
    rcases hr with hr | hr
    · rw [hfresh] at hr
      cases hr
    · exact absurd hr hunseen
  · exact ⟨_,hc⟩

theorem letter_opens : ∃ env g', sealWithEphemeral .plain (letter [1,2,3] 2000) (byte32 7) = .ok env ∧
    openMessage .plain default (byte32 12) env lettersSender 1000 .new =
      some (.ok (letter [1,2,3] 2000).opened,g') := by
  have hok : (sealWithEphemeral .plain (letter [1,2,3] 2000) (byte32 7)).isOk = true := by
    decide +kernel
  obtain ⟨env,henv⟩ := exists_of_isOk hok
  obtain ⟨g',hg⟩ := letter_admitted [1,2,3] 2000
  have hopen := open_seal_round_trip Primitives.plain_lawful henv (letter_keys _ _) hg
    (by decide +kernel) (by decide +kernel)
  exact ⟨env,g',henv,hopen⟩

section
variable {SK : Type} {P : Primitives SK} {order : HashOrder} {params : SealParams SK}
  {esk recipientSk : SK} {env : DigMessageEnvelope}
  {resolveSenderPub : Bytes32 → UInt32 → Option Bytes48} {nowMs : UInt64} {g g' : ReplayGuard}

theorem checkExpiry_ttl (h : ¬ params.WithinTtl) :
    checkExpiry params.timestampMs params.expiresAt nowMs = .error .ttlTooLong := by
  have hz : params.expiresAt ≠ 0 := fun he => h (Or.inl he)
  have hlt : saturatingAdd params.timestampMs maxMessageTtlMs < params.expiresAt :=
    UInt64.not_le.mp fun hle => h (Or.inr hle)
  simp only [checkExpiry,hz,if_false,hlt,gt_iff_lt,if_true]

theorem checkExpiry_within (h : params.WithinTtl) (hn : params.expiresAt ≠ 0 → nowMs ≤ params.expiresAt) :
    checkExpiry params.timestampMs params.expiresAt nowMs = .ok () := by
  by_cases hz : params.expiresAt = 0
  · exact checkExpiry_ok.mpr (Or.inl hz)
  · exact checkExpiry_ok.mpr (Or.inr ⟨h.resolve_left hz,hn hz⟩)

theorem openMessage_overlong (hP : P.Lawful) (h : sealWithEphemeral P params esk = .ok env)
    (hk : KeysMatch P params recipientSk resolveSenderPub) (httl : ¬ params.WithinTtl) :
    openMessage P order recipientSk env resolveSenderPub nowMs g = some (.error .ttlTooLong,g) := by
  obtain ⟨compressed,-,ha,ct,rfl⟩ := authentic_of_sealed hP h hk
  have hx : checkExpiry params.timestampMs params.expiresAt nowMs = .error .ttlTooLong :=
    checkExpiry_ttl httl
  exact openMessage_of_expiry ha rfl rfl hx

/-- What the sealer lets through and a matching opener would otherwise admit is refused for
two reasons only, both left to the receiver: a lifetime past the cap, and a payload past
the cap on what it decompresses to. -/
theorem sealed_limits (hP : P.Lawful) {entropy : Except String Bytes32} {bytes : List UInt8}
    (h : sealMessage P entropy params = .ok env) (henc : encodeEnvelope env = .ok bytes)
    (hk : KeysMatch P params recipientSk resolveSenderPub) (hg : Admits order params nowMs g g')
    (hnow : params.expiresAt ≠ 0 → nowMs ≤ params.expiresAt) :
    decodeEnvelope bytes = .ok env ∧
    (¬ params.WithinTtl → openMessage P order recipientSk env resolveSenderPub nowMs g =
      some (.error .ttlTooLong,g)) ∧
    (params.WithinTtl → maxDecompressedBytes < params.payload.length →
      openMessage P order recipientSk env resolveSenderPub nowMs g =
        some (.error (.decompressionBomb params.payload.length maxDecompressedBytes),g')) ∧
    (params.WithinTtl → params.payload.length ≤ maxDecompressedBytes →
      openMessage P order recipientSk env resolveSenderPub nowMs g = some (.ok params.opened,g')) := by
  obtain ⟨esk,hseal⟩ := sealMessage_ok h
  have hversion : env.version ≤ envelopeVersion := by
    obtain ⟨_,_,_,_,ct,-,-,-,-,-,rfl⟩ := sealWithEphemeral_ok hseal
    exact UInt8.le_refl _
  refine ⟨decodeEnvelope_iff.mpr ⟨hversion,henc⟩,fun httl => ?_,fun httl hbig => ?_,fun httl hcap => ?_⟩
  · exact openMessage_overlong hP hseal hk httl
  · have hopen := openMessage_sealed hP hseal hk hg (checkExpiry_within httl hnow)
    rw [if_neg (by omega)] at hopen
    exact hopen
  · have hopen := openMessage_sealed hP hseal hk hg (checkExpiry_within httl hnow)
    rw [if_pos hcap] at hopen
    exact hopen

end

theorem letter_within_limits : ∃ env bytes g', encodeEnvelope env = .ok bytes ∧
    decodeEnvelope bytes = .ok env ∧
    openMessage .plain default (byte32 12) env lettersSender 1000 .new =
      some (.ok (letter [1,2,3] 2000).opened,g') := by
  have hok : ((sealMessage .plain (.ok (byte32 7)) (letter [1,2,3] 2000)).bind encodeEnvelope).isOk =
    true := by decide +kernel
  obtain ⟨env,bytes,henv,henc⟩ := exists_of_bind_isOk hok
  obtain ⟨g',hg⟩ := letter_admitted [1,2,3] 2000
  have hnow : (letter [1,2,3] 2000).expiresAt ≠ 0 → 1000 ≤ (letter [1,2,3] 2000).expiresAt := by
    decide
  obtain ⟨hdec,-,-,hopen⟩ := sealed_limits Primitives.plain_lawful henv henc (letter_keys _ _) hg hnow
  exact ⟨env,bytes,g',henc,hdec,hopen (Or.inr (by decide)) (by decide)⟩

/-- What seals and fits a frame is refused by no matching opener, of whose table and clock it
passes, for a reason that is not one of time. -/
def RefusedForTimeOnly {SK : Type} (P : Primitives SK) : Prop :=
  ∀ (params : SealParams SK) (entropy : Except String Bytes32) (env : DigMessageEnvelope)
    (bytes : List UInt8) (recipientSk : SK) (resolveSenderPub : Bytes32 → UInt32 → Option Bytes48)
    (order : HashOrder) (nowMs : UInt64) (g g' : ReplayGuard),
    sealMessage P entropy params = .ok env → encodeEnvelope env = .ok bytes →
    KeysMatch P params recipientSk resolveSenderPub → Admits order params nowMs g g' →
    (params.expiresAt ≠ 0 → nowMs ≤ params.expiresAt) →
    ∃ env', decodeEnvelope bytes = .ok env' ∧ ∀ err g'',
      openMessage P order recipientSk env' resolveSenderPub nowMs g = some (.error err,g'') →
      err = .expired ∨ err = .replay

def longLived : SealParams Bytes32 := letter [1,2,3] 3153600000000

def manyZeros : SealParams Bytes32 := letter (List.replicate (maxDecompressedBytes+1) 0) 0

theorem zeros_compressed {n : ℕ} (hmin : minCompressBytes ≤ n) (hmax : n < 2^32) :
    compressPayload .squeezing (List.replicate n 0) =
      .ok ⟨compressionZstd,0::bigEndian 4 n,UInt32.ofNat n⟩ := by
  have hlen : (List.replicate n (0 : UInt8)).length = n := List.length_replicate
  have hsq : Primitives.squeeze (List.replicate n 0) = 0::bigEndian 4 n := by
    unfold Primitives.squeeze
    rw [hlen,if_pos ⟨rfl,hmax⟩]
  have hz : Primitives.squeezing.zstdCompress (List.replicate n 0) zstdLevel =
      .ok (0::bigEndian 4 n) := congrArg Except.ok hsq
  have hfive : ¬ (0::bigEndian 4 n).length ≥ n := by
    have hmin' : 64 ≤ n := hmin
    rw [List.length_cons,bigEndian_length]
    omega
  simp only [compressPayload,hlen,hmax,if_true,Nat.not_lt.mpr hmin,if_false,hz,hfive]

theorem manyZeros_compressed : compressPayload .squeezing manyZeros.payload =
    .ok ⟨compressionZstd,0::bigEndian 4 67108865,67108865⟩ :=
  zeros_compressed (by decide) (by decide)

theorem unenforced_limits : ¬ RefusedForTimeOnly .plain ∧ ¬ RefusedForTimeOnly .squeezing := by
  constructor
  · intro h
    have hok : ((sealMessage .plain (.ok (byte32 7)) longLived).bind encodeEnvelope).isOk = true := by
      decide +kernel
    obtain ⟨env,bytes,henv,henc⟩ := exists_of_bind_isOk hok
    obtain ⟨g',hg⟩ := letter_admitted [1,2,3] 3153600000000
    have hk : KeysMatch .plain longLived (byte32 12) lettersSender := ⟨rfl,rfl⟩
    obtain ⟨env',hdec,hno⟩ := h longLived (.ok (byte32 7)) env bytes (byte32 12) lettersSender default
      1000 .new g' henv henc hk hg (by decide)
    obtain ⟨esk,hseal⟩ := sealMessage_ok henv
    have he := (decodeEnvelope_iff.mp hdec).2
    have hsame : env' = env := encodeEnvelope_injective he henc
    subst hsame
    have hopen : openMessage .plain default (byte32 12) env' lettersSender 1000 .new =
        some (.error .ttlTooLong,.new) :=
      openMessage_overlong Primitives.plain_lawful hseal hk (by decide)
    rcases hno _ _ hopen with he | he <;> cases he
  · intro h
    have hok : ((sealMessage .squeezing (.ok (byte32 7)) manyZeros).bind encodeEnvelope).isOk =
        true := by
      unfold sealMessage randomEphemeral sealWithEphemeral
      rw [manyZeros_compressed]
      decide +kernel
    obtain ⟨env,bytes,henv,henc⟩ := exists_of_bind_isOk hok
    obtain ⟨g',hg⟩ := letter_admitted (List.replicate (maxDecompressedBytes+1) 0) 0
    have hk : KeysMatch .squeezing manyZeros (byte32 12) lettersSender := ⟨rfl,rfl⟩
    obtain ⟨env',hdec,hno⟩ := h manyZeros (.ok (byte32 7)) env bytes (byte32 12) lettersSender default
      1000 .new g' henv henc hk hg (fun hne => absurd rfl hne)
    obtain ⟨esk,hseal⟩ := sealMessage_ok henv
    have he := (decodeEnvelope_iff.mp hdec).2
    have hsame : env' = env := encodeEnvelope_injective he henc
    subst hsame
    have hopen := openMessage_sealed Primitives.squeezing_lawful hseal hk hg
      (checkExpiry_ok.mpr (Or.inl rfl))
    have hlen : manyZeros.payload.length = maxDecompressedBytes+1 := List.length_replicate
    rw [if_neg (by omega)] at hopen
    rcases hno _ _ hopen with he | he <;> cases he

end DigMessage
