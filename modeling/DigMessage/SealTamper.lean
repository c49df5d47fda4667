import DigMessage.SealRoundTrip

/-! Tamper evidence. Every byte of an envelope is bound: the header as associated data, the
encapsulation through the key schedule, the rest by the cipher. -/
namespace DigMessage
open FixedWidth

theorem okm_ext {a b : Bytes 44} (hk : okmKey a = okmKey b) (hn : okmNonce a = okmNonce b) : a = b := by
  have h₁ : a.val.take 32 = b.val.take 32 := congrArg Subtype.val hk
  have h₂ : a.val.drop 32 = b.val.drop 32 := congrArg Subtype.val hn
  apply Subtype.ext
  rw [← List.take_append_drop 32 a.val,← List.take_append_drop 32 b.val,h₁,h₂]

def kdfInfo (kemEnc senderPub recipientPub : Bytes48) : List UInt8 :=
  kdfInfoLabel++kemEnc.val++senderPub.val++recipientPub.val

theorem kdfInfo_kemEnc {kemEnc kemEnc' senderPub senderPub' recipientPub recipientPub' : Bytes48}
    (h : kdfInfo kemEnc senderPub recipientPub = kdfInfo kemEnc' senderPub' recipientPub') :
    kemEnc = kemEnc' := by
  simp only [kdfInfo,List.append_assoc,List.append_cancel_left_eq] at h
  have hlen : kemEnc.val.length = kemEnc'.val.length := by rw [kemEnc.2,kemEnc'.2]
  exact Subtype.ext (List.append_inj_left h hlen)

section
variable {SK : Type} {P : Primitives SK}

theorem authenticate_opens {recipientSk : SK} {env : DigMessageEnvelope}
    {resolveSenderPub : Bytes32 → UInt32 → Option Bytes48} {shape : InteractionShape}
    {inner : InnerMessage}
    (h : authenticate P recipientSk env resolveSenderPub = .ok (shape,inner)) :
    ∃ senderPub z aad innerBytes, env.headerBytes = .ok aad ∧
      aeadOpen P (kdf P z env.sealed.kemEnc senderPub (P.publicKeyBytes recipientSk)) aad
        env.sealed.ciphertext = .ok innerBytes := by
  obtain ⟨-,senderPub,z,aad,innerBytes,-,haad,ho,-⟩ := authenticate_ok h
  exact ⟨senderPub,z,aad,innerBytes,haad,ho⟩

variable (P)

structure SealCall (SK : Type) where
  params : SealParams SK
  esk : SK

namespace SealCall

def info (call : SealCall SK) : List UInt8 :=
  kdfInfo (P.publicKeyBytes call.esk) (P.publicKeyBytes call.params.senderSk) call.params.recipientPub

def output (call : SealCall SK) : Except MessageError DigMessageEnvelope :=
  sealWithEphemeral P call.params call.esk

def secret (call : SealCall SK) : Except MessageError (Bytes 96) :=
  authEncapSecret P call.esk call.params.senderSk call.params.recipientPub

/-- The call encrypted to `ct`, under this key, nonce and associated data. -/
def Encrypts (call : SealCall SK) (key : Bytes 32) (nonce : Bytes 12) (aad ct : List UInt8) : Prop :=
  ∃ env z, call.output P = .ok env ∧ call.secret P = .ok z ∧ env.headerBytes = .ok aad ∧
    key = okmKey (P.hkdfSha256 z (call.info P)) ∧ nonce = okmNonce (P.hkdfSha256 z (call.info P)) ∧
    ct = env.sealed.ciphertext

end SealCall

/-- The cipher opens only what one of the calls sealed, and no other derivation collides with
one of theirs. -/
structure IdealSeal (calls : Set (SealCall SK)) : Prop where
  aead : ∀ key nonce aad ct pt, P.aeadDecrypt key nonce aad ct = some pt →
    ∃ call ∈ calls, call.Encrypts P key nonce aad ct
  kdf : ∀ call ∈ calls, ∀ z ikm info, call.secret P = .ok z →
    P.hkdfSha256 ikm info = P.hkdfSha256 z (call.info P) → ikm = z ∧ info = call.info P

variable {P}

/-- What authenticates is, byte for byte, the output of one of the calls. -/
theorem output_of_authenticate {calls : Set (SealCall SK)} (hideal : IdealSeal P calls)
    {recipientSk : SK} {env : DigMessageEnvelope}
    {resolveSenderPub : Bytes32 → UInt32 → Option Bytes48} {shape : InteractionShape}
    {inner : InnerMessage}
    (h : authenticate P recipientSk env resolveSenderPub = .ok (shape,inner)) :
    ∃ call ∈ calls, call.output P = .ok env := by
  obtain ⟨senderPub,z,aad,innerBytes,haad,ho⟩ := authenticate_opens h
  have hdec : ∃ pt, P.aeadDecrypt (okmKey (kdf P z env.sealed.kemEnc senderPub
      (P.publicKeyBytes recipientSk))) (okmNonce (kdf P z env.sealed.kemEnc senderPub
      (P.publicKeyBytes recipientSk))) aad env.sealed.ciphertext = some pt := by
    unfold aeadOpen at ho
    split at ho
    · exact ⟨_,‹_›⟩
    · cases ho
  obtain ⟨pt,hpt⟩ := hdec
  obtain ⟨call,hc,env₀,z₀,hout,hz₀,haad₀,hkey,hnonce,hct⟩ := hideal.aead _ _ _ _ _ hpt
  -- key and nonce agree, so the derivations do, and with them the encapsulations
  have hokm := okm_ext hkey hnonce
  have hinfo := (hideal.kdf call hc z₀ z _ hz₀ hokm).2
  have hkem := kdfInfo_kemEnc hinfo
  obtain ⟨_,_,_,_,ct,-,-,-,-,-,henv₀⟩ := sealWithEphemeral_ok hout
  have hkem₀ : env₀.sealed.kemEnc = P.publicKeyBytes call.esk := by rw [henv₀]; rfl
  have hheader := DigMessageEnvelope.headerFields_of_bytes haad haad₀
  have hsealed : env.sealed = env₀.sealed := by
    cases hs : env.sealed
    cases hs₀ : env₀.sealed
    simp_all
  have hsame := DigMessageEnvelope.eq_of_fields hheader hsealed
  subst hsame
  exact ⟨call,hc,hout⟩

/-- An envelope that no call of the sealer returned is refused by every recipient, under every
resolver, table and clock, and the table is left as it was. -/
theorem tampered_refused {calls : Set (SealCall SK)} (hideal : IdealSeal P calls)
    {env : DigMessageEnvelope} (hnot : ∀ call ∈ calls, call.output P ≠ .ok env)
    (order : HashOrder) (recipientSk : SK) (resolveSenderPub : Bytes32 → UInt32 → Option Bytes48)
    (nowMs : UInt64) (g : ReplayGuard) :
    ∃ err, openMessage P order recipientSk env resolveSenderPub nowMs g = some (.error err,g) := by
  obtain ⟨err,hopen,-⟩ | ⟨shape,inner,g',had,-⟩ :=
    openMessage_cases P order recipientSk env resolveSenderPub nowMs g
  · exact ⟨err,hopen⟩
  · obtain ⟨call,hc,hout⟩ := output_of_authenticate hideal had.authentic
    exact absurd hout (hnot call hc)

end

def theLetter : SealCall Bytes32 := ⟨letter [1,2,3] 0,byte32 7⟩

def letterSecret : Bytes 96 := concatDh (Primitives.point ⟨List.replicate 32 84,rfl⟩)
  (Primitives.point ⟨List.replicate 32 132,rfl⟩)

def lettersKeys : Primitives Bytes32 :=
  {Primitives.plain with
    hkdfSha256 := fun ikm info =>
      if ikm = letterSecret ∧ info = theLetter.info .plain then ⟨List.replicate 44 1,rfl⟩
      else ⟨List.replicate 44 0,rfl⟩}

def letterEnvelope : DigMessageEnvelope := ((theLetter.output lettersKeys).toOption).getD smallOpening

/-- The stand-in with a key schedule that collides with the letter's nowhere, and a cipher that opens
nothing else. -/
def lettersOnly : Primitives Bytes32 :=
  {lettersKeys with
    aeadDecrypt := fun key nonce aad ct =>
      if key = byte32 1 ∧ nonce = ⟨List.replicate 12 1,rfl⟩ ∧
        letterEnvelope.headerBytes = .ok aad ∧ ct = letterEnvelope.sealed.ciphertext
      then lettersKeys.aeadDecrypt key nonce aad ct else none}

theorem letter_output : theLetter.output lettersOnly = .ok letterEnvelope := by
  have h : theLetter.output lettersOnly = theLetter.output lettersKeys := rfl
  have hok : (theLetter.output lettersKeys).isOk = true := by decide +kernel
  obtain ⟨env,henv⟩ := exists_of_isOk hok
  rw [h,henv,letterEnvelope,henv]
  rfl

theorem letter_secret : theLetter.secret lettersOnly = .ok letterSecret := by decide +kernel

theorem lettersOnly_ideal : IdealSeal lettersOnly {theLetter} where
  aead key nonce aad ct pt h := by
    have hokm : lettersOnly.hkdfSha256 letterSecret (theLetter.info lettersOnly) =
        ⟨List.replicate 44 1,rfl⟩ := by decide +kernel
    simp only [lettersOnly] at h
    split at h
    · rename_i hc
      obtain ⟨rfl,rfl,haad,rfl⟩ := hc
      refine ⟨theLetter,rfl,letterEnvelope,letterSecret,letter_output,letter_secret,haad,?_,?_,rfl⟩
      · rw [hokm]
        rfl
      · rw [hokm]
        rfl
    · cases h
  kdf call hc z ikm info hz h := by
    obtain rfl := Set.mem_singleton_iff.mp hc
    rw [letter_secret] at hz
    cases hz
    have hokm : lettersOnly.hkdfSha256 letterSecret (theLetter.info lettersOnly) =
        ⟨List.replicate 44 1,rfl⟩ := by decide +kernel
    rw [hokm] at h
    simp only [lettersOnly,lettersKeys] at h
    split at h
    · rename_i hsame
      exact hsame
    · exact absurd h (by decide)

/-- The letter opens, and with another message type it does not. -/
theorem relabelled_letter_refused :
    ((openMessage lettersOnly default (byte32 12) letterEnvelope lettersSender 1000 .new).any
      fun p => p.1.isOk) = true ∧
    ∃ err, openMessage lettersOnly default (byte32 12) {letterEnvelope with messageType := 0x501}
      lettersSender 1000 .new = some (.error err,.new) := by
  refine ⟨by decide +kernel,tampered_refused lettersOnly_ideal ?_ _ _ _ _ _⟩
  intro call hc
  obtain rfl := Set.mem_singleton_iff.mp hc
  rw [letter_output]
  intro h
  have htype : letterEnvelope.messageType = 0x501 := congrArg DigMessageEnvelope.messageType
    (Except.ok.inj h)
  exact absurd htype (by decide +kernel)

end DigMessage
