import DigMessage.Streamable

/-! The base envelope and the inner message it seals: their wire shapes, the protocol
constants, the error taxonomy, and the size-bounded framing of an envelope. -/
namespace DigMessage
open FixedWidth Streamable

def envelopeVersion : UInt8 := 1
def maxEnvelopeBytes : ℕ := 16*1024*1024
def maxDecompressedBytes : ℕ := 64*1024*1024
def minCompressBytes : ℕ := 64
def zstdLevel : ℤ := 3
def freshnessWindowMs : UInt64 := 300000
def replayWindow : ℕ := 1024
def maxTrackedSenders : ℕ := 100000
def maxMessageTtlMs : UInt64 := 2592000000
def maxConcurrentStreams : ℕ := 64

/-- The text an error carries: the rendering of a lower layer's error, kept as the error
itself, or a text of this crate. -/
inductive Detail
  | streamable (e : StreamableError) | zstd (e : String) | entropy (e : String) | text (s : String)
  deriving DecidableEq, Repr

inductive MessageError
  | envelopeTooLarge (size max : ℕ)
  | truncated (detail : Detail)
  | unsupportedVersion (version : UInt8)
  | unsupportedCompression (id : UInt8)
  | decompressionBomb (declared max : ℕ)
  | decompressedLengthMismatch (expected actual : ℕ)
  | payloadTooLarge (len : ℕ)
  | codec (detail : Detail)
  | unsupportedType (messageType : UInt32)
  | duplicateType (messageType : UInt32)
  | invalidPoint | unresolvableSender
  | sealFailed (detail : Detail)
  | openFailed | badSignature | headerMismatch | replay | expired | ttlTooLong
  | streamLimit (cap : ℕ)
  | streamProtocol (violation : String)
  deriving DecidableEq, Repr

abbrev Bytes32 := Bytes 32
abbrev Bytes48 := Bytes 48
abbrev Bytes96 := Bytes 96

inductive InteractionShape
  | oneShot | request | response | streamFrame
  deriving DecidableEq, Repr

def flagShapeMask : UInt8 := 0b00000011
def flagSealed : UInt8 := 0b00000100

namespace InteractionShape

def fromFlags (flags : UInt8) : Option InteractionShape :=
  match (flags &&& flagShapeMask).toNat with
  | 0 => some .oneShot
  | 1 => some .request
  | 2 => some .response
  | 3 => some .streamFrame
  | _ => none

def asBits : InteractionShape → UInt8
  | .oneShot => 0
  | .request => 1
  | .response => 2
  | .streamFrame => 3

theorem fromFlags_asBits (shape : InteractionShape) :
    fromFlags (shape.asBits ||| flagSealed) = some shape := by
  cases shape <;> decide

end InteractionShape

inductive StreamFrame
  | «open» | openAck | data | credit | close | closeAck | reset
  deriving DecidableEq, Repr

namespace StreamFrame

def fromU8 (v : UInt8) : Option StreamFrame :=
  match v.toNat with
  | 0 => some .open
  | 1 => some .openAck
  | 2 => some .data
  | 3 => some .credit
  | 4 => some .close
  | 5 => some .closeAck
  | 6 => some .reset
  | _ => none

def asU8 : StreamFrame → UInt8
  | .open => 0
  | .openAck => 1
  | .data => 2
  | .credit => 3
  | .close => 4
  | .closeAck => 5
  | .reset => 6

@[simp] theorem fromU8_asU8 (frame : StreamFrame) : fromU8 frame.asU8 = some frame := by
  cases frame <;> decide

end StreamFrame

structure StreamHeader where
  frame : UInt8
  seq : UInt64
  window : UInt32
  deriving DecidableEq, Repr

structure SealedPayload where
  kemEnc : Bytes48
  ciphertext : List UInt8
  deriving DecidableEq, Repr

structure InnerMessage where
  messageType : UInt32
  correlationId : Bytes32
  compression : UInt8
  uncompressedLen : UInt32
  counter : UInt64
  timestampMs : UInt64
  expiresAt : UInt64
  payload : List UInt8
  senderSig : Bytes96
  deriving DecidableEq, Repr

/-- The envelope: a cleartext routing header and the sealed region. -/
structure DigMessageEnvelope where
  version : UInt8
  messageType : UInt32
  flags : UInt8
  correlationId : Bytes32
  sender : Bytes32
  recipient : Bytes32
  senderEpoch : UInt32
  stream : Option StreamHeader
  sealed : SealedPayload
  deriving DecidableEq, Repr

def StreamHeader.fields : StreamHeader ≃ UInt8 × UInt64 × UInt32 where
  toFun h := (h.frame,h.seq,h.window)
  invFun p := ⟨p.1,p.2.1,p.2.2⟩
  left_inv _ := rfl
  right_inv _ := rfl

def SealedPayload.fields : SealedPayload ≃ Bytes48 × List UInt8 where
  toFun s := (s.kemEnc,s.ciphertext)
  invFun p := ⟨p.1,p.2⟩
  left_inv _ := rfl
  right_inv _ := rfl

def InnerMessage.fields : InnerMessage ≃
    UInt32 × Bytes32 × UInt8 × UInt32 × UInt64 × UInt64 × UInt64 × List UInt8 × Bytes96 where
  toFun m := (m.messageType,m.correlationId,m.compression,m.uncompressedLen,m.counter,
    m.timestampMs,m.expiresAt,m.payload,m.senderSig)
  invFun | (a,b,c,d,e,f,g,h,i) => ⟨a,b,c,d,e,f,g,h,i⟩
  left_inv _ := rfl
  right_inv _ := rfl

def DigMessageEnvelope.fields : DigMessageEnvelope ≃
    UInt8 × UInt32 × UInt8 × Bytes32 × Bytes32 × Bytes32 × UInt32 × Option StreamHeader ×
      SealedPayload where
  toFun m := (m.version,m.messageType,m.flags,m.correlationId,m.sender,m.recipient,
    m.senderEpoch,m.stream,m.sealed)
  invFun | (a,b,c,d,e,f,g,h,i) => ⟨a,b,c,d,e,f,g,h,i⟩
  left_inv _ := rfl
  right_inv _ := rfl

instance : Streamable StreamHeader := ofEquiv StreamHeader.fields
instance : LawfulStreamable StreamHeader := lawful_ofEquiv StreamHeader.fields
instance : Streamable SealedPayload := ofEquiv SealedPayload.fields
instance : LawfulStreamable SealedPayload := lawful_ofEquiv SealedPayload.fields
instance : Streamable InnerMessage := ofEquiv InnerMessage.fields
instance : LawfulStreamable InnerMessage := lawful_ofEquiv InnerMessage.fields
instance : Streamable DigMessageEnvelope := ofEquiv DigMessageEnvelope.fields
instance : LawfulStreamable DigMessageEnvelope := lawful_ofEquiv DigMessageEnvelope.fields

/-- A codec failure is reported as the error variant the caller chooses. -/
def mapStreamable {α : Type} (report : Detail → MessageError) :
    Except StreamableError α → Except MessageError α :=
  Except.mapError fun e => report (.streamable e)

@[simp] theorem mapStreamable_ok {α : Type} (report : Detail → MessageError) (a : α) :
    mapStreamable report (.ok a) = .ok a := rfl

namespace DigMessageEnvelope

/-- The bytes of fields 1-8, which the seal binds as associated data. -/
def headerBytes (e : DigMessageEnvelope) : Except MessageError (List UInt8) := do
  let version ← mapStreamable .codec (Streamable.stream e.version)
  let messageType ← mapStreamable .codec (Streamable.stream e.messageType)
  let flags ← mapStreamable .codec (Streamable.stream e.flags)
  let correlationId ← mapStreamable .codec (Streamable.stream e.correlationId)
  let sender ← mapStreamable .codec (Streamable.stream e.sender)
  let recipient ← mapStreamable .codec (Streamable.stream e.recipient)
  let senderEpoch ← mapStreamable .codec (Streamable.stream e.senderEpoch)
  let header ← mapStreamable .codec (Streamable.stream e.stream)
  pure (version++messageType++flags++correlationId++sender++recipient++senderEpoch++header)

theorem headerBytes_ok (e : DigMessageEnvelope) : ∃ bs, e.headerBytes = .ok bs := by
  cases h : e.stream <;> exact ⟨_,by simp only [headerBytes,h]; rfl⟩

end DigMessageEnvelope

def encodeEnvelope (e : DigMessageEnvelope) : Except MessageError (List UInt8) := do
  let bytes ← mapStreamable .codec (toBytes e)
  if bytes.length > maxEnvelopeBytes then throw (.envelopeTooLarge bytes.length maxEnvelopeBytes)
  pure bytes

/-- An over-cap frame is refused before decoding, an unknown version after it. -/
def decodeEnvelope (bytes : List UInt8) : Except MessageError DigMessageEnvelope := do
  if bytes.length > maxEnvelopeBytes then throw (.envelopeTooLarge bytes.length maxEnvelopeBytes)
  let envelope ← mapStreamable .truncated (fromBytes bytes)
  if envelope.version > envelopeVersion then throw (.unsupportedVersion envelope.version)
  pure envelope

end DigMessage
