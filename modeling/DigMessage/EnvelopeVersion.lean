import DigMessage.EnvelopeCodec

/-! Frames of a newer version. The version is the first byte, but it is compared only once the
whole frame has been parsed in the layout of version 1. -/
namespace DigMessage
open FixedWidth Streamable

/-- Fixed fields, an optional stream header, the encapsulation and the ciphertext. -/
def versionOneLayout : Language UInt8 := words 106*({[0]}+{[1]}*words 13)*words 48*vectors

theorem encodings_header : encodings StreamHeader = words 13 := by
  have hfields : encodings StreamHeader = encodings (UInt8 × UInt64 × UInt32) :=
    encodings_ofEquiv StreamHeader.fields
  rw [hfields,encodings_pair,encodings_pair,encodings_uint8,encodings_uint64,encodings_uint32,
    words_mul,words_mul]

theorem encodings_sealed : encodings SealedPayload = words 48*vectors := by
  have hfields : encodings SealedPayload = encodings (Bytes48 × List UInt8) :=
    encodings_ofEquiv SealedPayload.fields
  rw [hfields,encodings_pair,encodings_bytes,encodings_vector]

/-- The byte strings that parse as an envelope, of whatever version, are those of the layout. -/
theorem encodings_envelope : encodings DigMessageEnvelope = versionOneLayout := by
  have hfields : encodings DigMessageEnvelope = encodings (UInt8 × UInt32 × UInt8 × Bytes32 ×
      Bytes32 × Bytes32 × UInt32 × Option StreamHeader × SealedPayload) :=
    encodings_ofEquiv DigMessageEnvelope.fields
  have hfixed : words 106 = words 1*words 4*words 1*words 32*words 32*words 32*words 4 := by
    simp only [words_mul]
  rw [hfields,versionOneLayout,hfixed]
  simp only [encodings_pair,encodings_uint8,encodings_uint32,encodings_bytes,encodings_option,
    encodings_header,encodings_sealed,mul_assoc]

theorem version_of_fromBytes {b : UInt8} {rest : List UInt8} {e : DigMessageEnvelope}
    (h : fromBytes (b::rest) = .ok e) : e.version = b := by
  have hbytes : toBytes e = .ok (b::rest) := fromBytes_iff.mp h
  have hfields : stream (DigMessageEnvelope.fields e) = .ok (b::rest) := hbytes
  obtain ⟨xs,ys,hversion,-,hsplit⟩ := stream_pair_eq_ok.mp hfields
  have hx : xs = bigEndian 1 e.version.toNat := (Except.ok.inj hversion).symm
  rw [hx] at hsplit
  have hb : b = UInt8.ofNat (e.version.toNat/256^0) := (List.cons.inj hsplit).1
  rw [hb,pow_zero,Nat.div_one,UInt8.ofNat_toNat]

/-- Within the cap a frame that does not parse is truncated, and one that parses with a newer
version is reported as such. -/
theorem decodeEnvelope_error {bs : List UInt8} (hlen : bs.length ≤ maxEnvelopeBytes) :
    (∀ err, fromBytes (α:=DigMessageEnvelope) bs = .error err →
      decodeEnvelope bs = .error (.truncated (.streamable err))) ∧
    ∀ e : DigMessageEnvelope, fromBytes bs = .ok e → envelopeVersion < e.version →
      decodeEnvelope bs = .error (.unsupportedVersion e.version) := by
  have hle : ¬ bs.length > maxEnvelopeBytes := by omega
  constructor
  · intro err h
    simp only [decodeEnvelope,hle,if_false,h,mapStreamable,Except.mapError,bind,Except.bind]
  · intro e h hnew
    simp only [decodeEnvelope,hle,if_false,h,mapStreamable_ok,bind,Except.bind,gt_iff_lt,hnew,if_true]
    rfl

/-- A frame whose first byte is a newer version is reported as such exactly where the rest has
the layout of version 1; otherwise it is reported as truncated. -/
theorem newer_version_reported_iff {b : UInt8} {rest : List UInt8}
    (hlen : (b::rest).length ≤ maxEnvelopeBytes) (hnew : envelopeVersion < b) :
    (decodeEnvelope (b::rest) = .error (.unsupportedVersion b) ↔ b::rest ∈ versionOneLayout) ∧
    (b::rest ∉ versionOneLayout → ∃ err, decodeEnvelope (b::rest) = .error (.truncated err)) := by
  obtain ⟨htruncated,hversion⟩ := decodeEnvelope_error hlen
  rw [← encodings_envelope,← exists_fromBytes_iff]
  cases h : (fromBytes (b::rest) : Except StreamableError DigMessageEnvelope) with
  | error err =>
    have hdec := htruncated err h
    refine ⟨iff_of_false ?_ ?_,fun _ => ⟨_,hdec⟩⟩
    · rw [hdec]
      nofun
    · rintro ⟨e,he⟩
      cases he
  | ok e =>
    have hv := version_of_fromBytes h
    have hdec := hversion e h (by rwa [hv])
    rw [hv] at hdec
    exact ⟨iff_of_true hdec ⟨e,rfl⟩,fun hno => absurd ⟨e,rfl⟩ hno⟩

/-- Every frame within the cap that starts with a newer version is reported as such. -/
def NewerVersionsReported : Prop :=
  ∀ (b : UInt8) (rest : List UInt8), (b::rest).length ≤ maxEnvelopeBytes → envelopeVersion < b →
    decodeEnvelope (b::rest) = .error (.unsupportedVersion b)

def openingTail : List UInt8 := ((toBytes smallOpening).toOption.getD []).tail

theorem bumped_opening_reported : decodeEnvelope (2::openingTail) = .error (.unsupportedVersion 2) := by
  have hparse : (fromBytes (α:=DigMessageEnvelope) (2::openingTail)).isOk = true := by decide +kernel
  obtain ⟨e,he⟩ := exists_of_isOk hparse
  have hlayout : 2::openingTail ∈ versionOneLayout := by
    rw [← encodings_envelope,← exists_fromBytes_iff]
    exact ⟨e,he⟩
  exact (newer_version_reported_iff (by decide +kernel) (by decide)).1.mpr hlayout

/-- A version 2 that appends one byte is not recognised. -/
theorem extended_opening_truncated : ¬ NewerVersionsReported := by
  intro h
  have hreported := h 2 (openingTail++[0]) (by decide +kernel) (by decide)
  have hdec : decodeEnvelope (2::(openingTail++[0])) =
    .error (.truncated (.streamable .inputTooLong)) := by decide +kernel
  rw [hdec] at hreported
  cases hreported

end DigMessage
