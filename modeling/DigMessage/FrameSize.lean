import DigMessage.StreamableSize
import DigMessage.ChunkLimits

/-! How long a frame is on the wire: the envelope costs a fixed number of bytes over the payload,
and compression never adds to it. -/
namespace DigMessage
open FixedWidth Streamable SizedStreamable

instance : SizedStreamable StreamHeader := sizedOfEquiv StreamHeader.fields
instance : SizedStreamable SealedPayload := sizedOfEquiv SealedPayload.fields
instance : SizedStreamable InnerMessage := sizedOfEquiv InnerMessage.fields
instance : SizedStreamable DigMessageEnvelope := sizedOfEquiv DigMessageEnvelope.fields

theorem InnerMessage.size_eq (m : InnerMessage) : size m = 165+m.payload.length := by
  change 4+(32+(1+(4+(8+(8+(8+((4+m.payload.length)+96))))))) = _
  omega

theorem InnerMessage.fits_iff (m : InnerMessage) : Fits m ↔ m.payload.length < 2^32 := by
  change True ∧ True ∧ True ∧ True ∧ True ∧ True ∧ True ∧ m.payload.length < 2^32 ∧ True ↔ _
  simp

def headerBytesOf (stream : Option StreamHeader) : ℕ := if stream.isSome then 14 else 1

theorem size_stream (stream : Option StreamHeader) : size stream = headerBytesOf stream := by
  cases stream <;> rfl

theorem DigMessageEnvelope.size_eq (e : DigMessageEnvelope) :
    size e = 158+headerBytesOf e.stream+e.sealed.ciphertext.length := by
  have hs := size_stream e.stream
  change 1+(4+(1+(32+(32+(32+(4+(size e.stream+(48+(4+e.sealed.ciphertext.length))))))))) = _
  omega

theorem DigMessageEnvelope.fits_iff (e : DigMessageEnvelope) :
    Fits e ↔ e.sealed.ciphertext.length < 2^32 := by
  have hs : Fits e.stream := fun h _ => ⟨trivial,trivial,trivial⟩
  change True ∧ True ∧ True ∧ True ∧ True ∧ True ∧ True ∧ Fits e.stream ∧ True ∧
    e.sealed.ciphertext.length < 2^32 ↔ _
  simp [hs]

section
variable {SK : Type} {P : Primitives SK}

theorem compressed_le {payload : List UInt8} {c : CompressedPayload}
    (h : compressPayload P payload = .ok c) : c.bytes.length ≤ payload.length := by
  unfold compressPayload at h
  split at h
  · simp only at h
    split at h
    · cases h
      exact le_rfl
    · split at h
      · cases h
      · rename_i ys hc
        split at h
        · cases h
          exact le_rfl
        · rename_i hlt
          cases h
          exact (Nat.not_le.mp hlt).le
  · cases h

/-- The AEAD adds its 16-byte tag and nothing else. -/
def Primitives.TagsSixteen (P : Primitives SK) : Prop :=
  ∀ {key nonce aad msg ct}, P.aeadEncrypt key nonce aad msg = some ct → ct.length = msg.length+16

/-- What a sealed message costs on the wire over its compressed payload. -/
def wireOverhead (stream : Option StreamHeader) : ℕ := 339+headerBytesOf stream

theorem sealed_size (ht : P.TagsSixteen) {params : SealParams SK} {esk : SK} {env : DigMessageEnvelope}
    (h : sealWithEphemeral P params esk = .ok env) : ∃ c, compressPayload P params.payload = .ok c ∧
      size env = wireOverhead params.stream+c.bytes.length ∧
      (Fits env ↔ c.bytes.length+181 < 2^32) := by
  obtain ⟨c,z,innerBytes,aad,ct,hc,-,hi,-,hs,rfl⟩ := sealWithEphemeral_ok h
  have hinner : innerBytes.length = 165+c.bytes.length := by
    rw [length_eq hi,InnerMessage.size_eq]
    rfl
  have htag : ct.length = innerBytes.length+16 := by
    unfold aeadSeal at hs
    split at hs
    · rename_i hct
      cases hs
      exact ht hct
    · cases hs
  refine ⟨c,hc,?_,?_⟩
  · rw [DigMessageEnvelope.size_eq]
    simp only [sealedEnvelope,wireOverhead]
    omega
  · rw [DigMessageEnvelope.fits_iff]
    simp only [sealedEnvelope]
    omega

theorem encodeEnvelope_size (env : DigMessageEnvelope) :
    (∀ bytes, encodeEnvelope env = .ok bytes → bytes.length = size env) ∧
    ((∃ bytes, encodeEnvelope env = .ok bytes) ↔ Fits env ∧ size env ≤ maxEnvelopeBytes) ∧
    (Fits env → maxEnvelopeBytes < size env →
      encodeEnvelope env = .error (.envelopeTooLarge (size env) maxEnvelopeBytes)) := by
  refine ⟨fun bytes hb => length_eq (encodeEnvelope_ok.mp hb).1,?_,fun hf hbig => ?_⟩
  · constructor
    · rintro ⟨bytes,hb⟩
      obtain ⟨henc,hle⟩ := encodeEnvelope_ok.mp hb
      exact ⟨(encodes_iff env).mp ⟨bytes,henc⟩,(length_eq henc).symm.trans_le hle⟩
    · rintro ⟨hf,hle⟩
      obtain ⟨bytes,henc,hlen⟩ := exists_encoding hf
      exact ⟨bytes,encodeEnvelope_ok.mpr ⟨henc,hlen.trans_le hle⟩⟩
  · obtain ⟨bytes,henc,hlen⟩ := exists_encoding hf
    unfold encodeEnvelope
    rw [henc,mapStreamable_ok,← hlen]
    exact if_pos (by omega)

/-- A sealed message has one size on the wire: its compressed payload, which is no longer than the
payload, and a constant. It is encoded exactly where that is within the frame cap. -/
theorem sealed_frame_size (ht : P.TagsSixteen) {entropy : Except String Bytes32}
    {params : SealParams SK} {env : DigMessageEnvelope} (h : sealMessage P entropy params = .ok env) :
    ∃ c, compressPayload P params.payload = .ok c ∧ c.bytes.length ≤ params.payload.length ∧
      (∀ bytes, encodeEnvelope env = .ok bytes →
        bytes.length = wireOverhead params.stream+c.bytes.length) ∧
      ((∃ bytes, encodeEnvelope env = .ok bytes) ↔
        wireOverhead params.stream+c.bytes.length ≤ maxEnvelopeBytes) ∧
      (maxEnvelopeBytes < wireOverhead params.stream+c.bytes.length → c.bytes.length+181 < 2^32 →
        encodeEnvelope env = .error
          (.envelopeTooLarge (wireOverhead params.stream+c.bytes.length) maxEnvelopeBytes)) := by
  obtain ⟨esk,hseal⟩ := sealMessage_ok h
  obtain ⟨c,hc,hsize,hfits⟩ := sealed_size ht hseal
  obtain ⟨hlen,hiff,herr⟩ := encodeEnvelope_size env
  rw [hsize] at hlen hiff herr
  refine ⟨c,hc,compressed_le hc,hlen,?_,fun hbig hsmall => herr (hfits.mpr hsmall) hbig⟩
  rw [hiff,hfits]
  have hcap : maxEnvelopeBytes = 16777216 := by decide
  constructor
  · exact fun h => h.2
  · intro hle
    exact ⟨by omega,hle⟩

end

theorem plain_tags : Primitives.plain.TagsSixteen := by
  intro key nonce aad msg ct h
  cases h
  rw [List.length_append,(Primitives.tag key nonce aad msg).2,Nat.add_comm]

theorem plain_compressed {payload : List UInt8} (h : payload.length < 2^32) :
    compressPayload .plain payload = .ok (raw payload (UInt32.ofNat payload.length)) := by
  unfold compressPayload
  rw [if_pos h]
  simp only
  split
  · rfl
  · exact if_pos (le_refl payload.length)

theorem plain_seals (ikm : Bytes32) {params : SealParams Bytes32} (h : params.payload.length < 2^32) :
    ∃ env, sealMessage .plain (.ok ikm) params = .ok env := by
  have hc := plain_compressed h
  obtain ⟨innerBytes,hi,-⟩ := exists_encoding (a:=sealedInner .plain params
    (Primitives.plain.publicKeyBytes (Primitives.plain.secretKeyFromSeed ikm))
    (raw params.payload (UInt32.ofNat params.payload.length))) (by
      rw [InnerMessage.fits_iff]
      exact h)
  obtain ⟨aad,ha⟩ := (sealedEnvelope params
    (Primitives.plain.publicKeyBytes (Primitives.plain.secretKeyFromSeed ikm)) []).headerBytes_ok
  exact (exists_sealed_iff .plain).mpr ⟨ikm,_,_,_,innerBytes,aad,_,rfl,hc,rfl,rfl,hi,ha,rfl⟩

/-- Three bytes of DATA make a frame of 356. -/
theorem short_frame_size : ∃ env bytes, sealMessage .plain (.ok (byte32 7))
    (lone.frameParams (byte32 8) (header .data 0 0) [1,2,3] 1000 0) = .ok env ∧
    encodeEnvelope env = .ok bytes ∧ bytes.length = 356 := by
  obtain ⟨env,henv⟩ := plain_seals (byte32 7)
    (show (lone.frameParams (byte32 8) (header .data 0 0) [1,2,3] 1000 0).payload.length < 2^32 by
      decide)
  obtain ⟨c,hc,-,hlen,hiff,-⟩ := sealed_frame_size plain_tags henv
  have hraw : compressPayload .plain [1,2,3] = .ok (raw [1,2,3] 3) := by decide
  obtain rfl : c = raw [1,2,3] 3 := Except.ok.inj (hc.symm.trans hraw)
  obtain ⟨bytes,hbytes⟩ := hiff.mpr (by decide)
  exact ⟨env,bytes,henv,hbytes,hlen bytes hbytes⟩

end DigMessage
