import DigMessage.Encodings
import DigMessage.Envelope

/-! The framing of an envelope: what encodes is what decodes, and no frame is part of
another. The header bytes alone already determine every field they cover. -/
namespace DigMessage
open FixedWidth Streamable

theorem encodeEnvelope_ok {e : DigMessageEnvelope} {b : List UInt8} :
    encodeEnvelope e = .ok b ↔ toBytes e = .ok b ∧ b.length ≤ maxEnvelopeBytes := by
  unfold encodeEnvelope
  cases h : (toBytes e : Except StreamableError (List UInt8)) with
  | error err => simp [mapStreamable,Except.mapError,bind,Except.bind]
  | ok bytes =>
    by_cases hl : bytes.length > maxEnvelopeBytes
    · have hn : ∀ x, ¬ (bytes = x ∧ x.length ≤ maxEnvelopeBytes) := by
        rintro x ⟨rfl,hx⟩
        omega
      simpa [bind,Except.bind,hl,throw,throwThe,MonadExceptOf.throw] using hn b
    · simp only [mapStreamable_ok,bind,Except.bind,hl,if_false,pure,Except.pure,Except.ok.injEq]
      constructor
      · rintro rfl
        exact ⟨rfl,by omega⟩
      · exact fun hx => hx.1

theorem decodeEnvelope_ok {b : List UInt8} {e : DigMessageEnvelope} :
    decodeEnvelope b = .ok e ↔
      b.length ≤ maxEnvelopeBytes ∧ fromBytes b = .ok e ∧ e.version ≤ envelopeVersion := by
  unfold decodeEnvelope
  by_cases hl : b.length > maxEnvelopeBytes
  · have hn : ¬ b.length ≤ maxEnvelopeBytes := by omega
    simp [hl,hn,bind,Except.bind,throw,throwThe,MonadExceptOf.throw]
  · have hle : b.length ≤ maxEnvelopeBytes := by omega
    simp only [hl,if_false,hle,true_and,bind,Except.bind,pure,Except.pure]
    cases h : (fromBytes b : Except StreamableError DigMessageEnvelope) with
    | error err => simp [mapStreamable,Except.mapError]
    | ok envelope =>
      simp only [mapStreamable_ok,Except.ok.injEq]
      by_cases hv : envelope.version > envelopeVersion
      · have hn : ∀ x, ¬ (envelope = x ∧ x.version ≤ envelopeVersion) := by
          rintro x ⟨rfl,hx⟩
          exact absurd hx (UInt8.not_le.mpr hv)
        simpa [hv,throw,throwThe,MonadExceptOf.throw] using hn e
      · simp only [hv,if_false,Except.ok.injEq]
        constructor
        · rintro rfl
          exact ⟨rfl,UInt8.not_lt.mp hv⟩
        · exact fun hx => hx.1

/-- The frames that decode are the encodings of envelopes of a known version. -/
theorem decodeEnvelope_iff {b : List UInt8} {e : DigMessageEnvelope} :
    decodeEnvelope b = .ok e ↔ e.version ≤ envelopeVersion ∧ encodeEnvelope e = .ok b := by
  have h₁ : fromBytes b = .ok e ↔ Streamable.toBytes e = .ok b := fromBytes_iff
  rw [decodeEnvelope_ok,encodeEnvelope_ok,h₁]
  tauto

theorem decodeEnvelope_append {b ext : List UInt8} {e e' : DigMessageEnvelope}
    (h : decodeEnvelope b = .ok e) (h' : decodeEnvelope (b++ext) = .ok e') : ext = [] := by
  have h₁ := (encodeEnvelope_ok.mp (decodeEnvelope_iff.mp h).2).1
  have h₂ := (encodeEnvelope_ok.mp (decodeEnvelope_iff.mp h').2).1
  have h₃ := eq_of_stream_append h₁ h₂ rfl
  exact h₃.2

theorem encodeEnvelope_injective {b : List UInt8} {e e' : DigMessageEnvelope}
    (h : encodeEnvelope e = .ok b) (h' : encodeEnvelope e' = .ok b) : e = e' := by
  have h₁ := (encodeEnvelope_ok.mp h).1
  have h₂ := (encodeEnvelope_ok.mp h').1
  exact (eq_of_stream_append h₁ h₂ (List.append_nil b)).1

theorem exists_of_isOk {ε α : Type} {x : Except ε α} (h : x.isOk = true) : ∃ a, x = .ok a := by
  cases x with
  | error e => cases h
  | ok a => exact ⟨a,rfl⟩

theorem exists_of_bind_isOk {ε α β : Type} {x : Except ε α} {f : α → Except ε β}
    (h : (x.bind f).isOk = true) : ∃ a b, x = .ok a ∧ f a = .ok b := by
  cases x with
  | error e => cases h
  | ok a =>
    obtain ⟨b,hb⟩ := exists_of_isOk h
    exact ⟨a,b,rfl,hb⟩

theorem error_of_not_ok {ε α : Type} {x : Except ε α} (h : ∀ a, x ≠ .ok a) : ∃ e, x = .error e := by
  cases x with
  | error e => exact ⟨e,rfl⟩
  | ok a => exact absurd rfl (h a)

/-- Encoding and decoding are inverse to each other between the envelopes of a known version
that fit a frame and the frames accepted; and no proper prefix or extension of an accepted
frame is accepted. -/
theorem envelope_codec_bijection :
    (∀ e b, e.version ≤ envelopeVersion → encodeEnvelope e = .ok b → decodeEnvelope b = .ok e) ∧
    (∀ b e, decodeEnvelope b = .ok e → encodeEnvelope e = .ok b) ∧
    (∀ b b' e, decodeEnvelope b = .ok e → decodeEnvelope b' = .ok e → b' = b) ∧
    (∀ front ext e, ext ≠ [] → decodeEnvelope (front++ext) = .ok e →
      ∃ err, decodeEnvelope front = .error err) ∧
    ∀ b ext e, ext ≠ [] → decodeEnvelope b = .ok e → ∃ err, decodeEnvelope (b++ext) = .error err := by
  refine ⟨?_,?_,?_,?_,?_⟩
  · intro e b hv h
    exact decodeEnvelope_iff.mpr ⟨hv,h⟩
  · intro b e h
    exact (decodeEnvelope_iff.mp h).2
  · intro b b' e h h'
    have h₁ := (decodeEnvelope_iff.mp h).2
    have h₂ := (decodeEnvelope_iff.mp h').2
    rw [h₁] at h₂
    cases h₂
    rfl
  · intro front ext e hne h
    exact error_of_not_ok fun e' h' => hne (decodeEnvelope_append h' h)
  · intro b ext e hne h
    exact error_of_not_ok fun e' h' => hne (decodeEnvelope_append h h')

def smallOpening : DigMessageEnvelope where
  version := 1
  messageType := 0x500
  flags := 7
  correlationId := ⟨List.replicate 32 9,rfl⟩
  sender := ⟨List.replicate 32 1,rfl⟩
  recipient := ⟨List.replicate 32 2,rfl⟩
  senderEpoch := 0
  stream := some ⟨0,0,4⟩
  sealed := ⟨⟨List.replicate 48 3,rfl⟩,[5,6]⟩

theorem smallOpening_codec : ∃ b, encodeEnvelope smallOpening = .ok b ∧
    decodeEnvelope b = .ok smallOpening ∧ ∃ err, decodeEnvelope (b++[0]) = .error err := by
  have henc : (encodeEnvelope smallOpening).isOk = true := by decide +kernel
  obtain ⟨b,hb⟩ := exists_of_isOk henc
  obtain ⟨hdec,-,-,-,hext⟩ := envelope_codec_bijection
  have hd := hdec smallOpening b (by decide) hb
  exact ⟨b,hb,hd,hext b [0] smallOpening (by decide) hd⟩

/-- The fields the header bytes cover, in wire order. -/
abbrev HeaderFields :=
  UInt8 × UInt32 × UInt8 × Bytes32 × Bytes32 × Bytes32 × UInt32 × Option StreamHeader

namespace DigMessageEnvelope

def headerFields (e : DigMessageEnvelope) : HeaderFields :=
  (e.version,e.messageType,e.flags,e.correlationId,e.sender,e.recipient,e.senderEpoch,e.stream)

theorem eq_of_fields {e e' : DigMessageEnvelope} (hh : e.headerFields = e'.headerFields)
    (hs : e.sealed = e'.sealed) : e = e' := by
  cases e
  cases e'
  simp_all [headerFields]

theorem headerBytes_eq_ok {e : DigMessageEnvelope} {bs : List UInt8} :
    e.headerBytes = .ok bs ↔ Streamable.stream e.headerFields = .ok bs := by
  cases h : e.stream <;> simp only [headerBytes,headerFields,h] <;>
    simp [Streamable.stream,mapStreamable,Except.mapError,bind,Except.bind,pure,Except.pure,
      Except.map]

theorem headerFields_of_bytes {e e' : DigMessageEnvelope} {bs : List UInt8}
    (h : e.headerBytes = .ok bs) (h' : e'.headerBytes = .ok bs) :
    e.headerFields = e'.headerFields := by
  have h₁ := headerBytes_eq_ok.mp h
  have h₂ := headerBytes_eq_ok.mp h'
  exact (eq_of_stream_append h₁ h₂ (List.append_nil bs)).1

theorem toBytes_followed (e : DigMessageEnvelope) :
    toBytes e = followed (Streamable.stream e.headerFields) (toBytes e.sealed) := by
  change Streamable.stream (e.version,e.messageType,e.flags,e.correlationId,e.sender,e.recipient,
    e.senderEpoch,e.stream,e.sealed) = _
  simp only [headerFields,stream_pair,followed_assoc,toBytes]

end DigMessageEnvelope

/-- The header bytes begin the derived encoding, which goes on with the sealed region; and no
header is a proper prefix of another, so the bytes determine every field they cover. -/
theorem header_self_delimiting :
    (∀ e : DigMessageEnvelope, ∃ header, e.headerBytes = .ok header ∧
      toBytes e = (toBytes e.sealed).map (header++·)) ∧
    ∀ (e e' : DigMessageEnvelope) (header header' : List UInt8), e.headerBytes = .ok header →
      e'.headerBytes = .ok header' → header <+: header' → e.headerFields = e'.headerFields := by
  constructor
  · intro e
    obtain ⟨header,h⟩ := e.headerBytes_ok
    refine ⟨header,h,?_⟩
    rw [e.toBytes_followed,DigMessageEnvelope.headerBytes_eq_ok.mp h,followed_ok]
  · rintro e e' header _ h h' ⟨rest,rfl⟩
    have h₁ := DigMessageEnvelope.headerBytes_eq_ok.mp h
    have h₂ := DigMessageEnvelope.headerBytes_eq_ok.mp h'
    exact (eq_of_stream_append h₁ h₂ rfl).1

def resealedOpening : DigMessageEnvelope :=
  {smallOpening with sealed := ⟨⟨List.replicate 48 4,rfl⟩,[7]⟩}

theorem smallOpening_header : ∃ header, smallOpening.headerBytes = .ok header ∧
    toBytes smallOpening = (toBytes smallOpening.sealed).map (header++·) ∧
    smallOpening.headerFields = resealedOpening.headerFields := by
  obtain ⟨hencode,hdelimit⟩ := header_self_delimiting
  obtain ⟨header,h,hbytes⟩ := hencode smallOpening
  have h' : resealedOpening.headerBytes = .ok header := h
  exact ⟨header,h,hbytes,hdelimit _ _ _ _ h h' (List.prefix_refl header)⟩

end DigMessage
