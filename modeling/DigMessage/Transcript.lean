import DigMessage.EnvelopeCodec
import DigMessage.Seal

/-! What a signature commits to. The transcript is the encoding of a record of fixed-width
fields, so the bytes signed determine each of them. -/
namespace DigMessage
open FixedWidth Streamable

def transcriptLen : ℕ := 1+4+1+32+32+32+4+8+8+8+1+8+48+1+4+32

/-- The frame kind and the sequence number a transcript carries; zeros without a header. -/
def frameSeq (header : Option StreamHeader) : UInt8 × UInt64 :=
  header.elim (0,0) fun s => (s.frame,s.seq)

abbrev Committed := UInt8 × UInt32 × UInt8 × Bytes32 × Bytes32 × Bytes32 × UInt32 × UInt64 × UInt64 ×
  UInt64 × UInt8 × UInt64 × Bytes48 × UInt8 × UInt32 × Bytes32

theorem encodings_committed : encodings Committed = words transcriptLen := by
  simp only [encodings_pair,encodings_uint8,encodings_uint32,encodings_uint64,encodings_bytes,
    words_mul,transcriptLen]

namespace TranscriptFields
variable {SK : Type} (P : Primitives SK)

def committed (t : TranscriptFields) : Committed :=
  (t.version,t.messageType,t.flags,t.correlationId,t.sender,t.recipient,t.senderEpoch,t.counter,
    t.timestampMs,t.expiresAt,(frameSeq t.stream).1,(frameSeq t.stream).2,t.kemEnc,t.compression,
    t.uncompressedLen,P.sha256 t.compressedPayload)

theorem signingBytes_eq (t : TranscriptFields) : ∃ transcript,
    Streamable.stream (t.committed P) = .ok transcript ∧ t.signingBytes P = sigDomain++transcript := by
  refine ⟨_,rfl,?_⟩
  cases h : t.stream <;> simp only [signingBytes,committed,frameSeq,h,Option.elim,List.append_assoc]

theorem signingBytes_inj {a b : TranscriptFields} :
    a.signingBytes P = b.signingBytes P ↔ a.committed P = b.committed P := by
  obtain ⟨xs,hx,ha⟩ := a.signingBytes_eq P
  obtain ⟨ys,hy,hb⟩ := b.signingBytes_eq P
  rw [ha,hb,List.append_cancel_left_eq]
  constructor
  · rintro rfl
    exact (eq_of_stream_append hx hy (List.append_nil xs)).1
  · intro h
    rw [h,hy] at hx
    exact (Except.ok.inj hx).symm

structure Agrees (a b : TranscriptFields) : Prop where
  version : a.version = b.version
  messageType : a.messageType = b.messageType
  flags : a.flags = b.flags
  correlationId : a.correlationId = b.correlationId
  sender : a.sender = b.sender
  recipient : a.recipient = b.recipient
  senderEpoch : a.senderEpoch = b.senderEpoch
  counter : a.counter = b.counter
  timestampMs : a.timestampMs = b.timestampMs
  expiresAt : a.expiresAt = b.expiresAt
  frameSeq : DigMessage.frameSeq a.stream = DigMessage.frameSeq b.stream
  kemEnc : a.kemEnc = b.kemEnc
  compression : a.compression = b.compression
  uncompressedLen : a.uncompressedLen = b.uncompressedLen
  payloadHash : P.sha256 a.compressedPayload = P.sha256 b.compressedPayload

theorem agrees_iff {a b : TranscriptFields} : a.Agrees P b ↔ a.committed P = b.committed P := by
  simp only [committed,Prod.mk.injEq]
  constructor
  · intro h
    obtain ⟨hframe,hseq⟩ := Prod.mk.inj h.frameSeq
    exact ⟨h.version,h.messageType,h.flags,h.correlationId,h.sender,h.recipient,h.senderEpoch,
      h.counter,h.timestampMs,h.expiresAt,hframe,hseq,h.kemEnc,h.compression,h.uncompressedLen,
      h.payloadHash⟩
  · rintro ⟨h₁,h₂,h₃,h₄,h₅,h₆,h₇,h₈,h₉,h₁₀,hframe,hseq,h₁₁,h₁₂,h₁₃,h₁₄⟩
    exact ⟨h₁,h₂,h₃,h₄,h₅,h₆,h₇,h₈,h₉,h₁₀,Prod.ext hframe hseq,h₁₁,h₁₂,h₁₃,h₁₄⟩

/-- A signature of one message verifies for no other. -/
def BindsMessage (pub : Bytes48) (sig : Bytes96) : Prop :=
  ∀ m m', P.verifySignature pub m sig = true → P.verifySignature pub m' sig = true → m = m'

/-- The bytes to sign are the domain and a transcript of a fixed length, and determine every
field; a signature that binds its message verifies for two transcripts only where they agree. -/
theorem transcript_commits :
    transcriptLen = 224 ∧
    (∀ t : TranscriptFields, ∃ transcript, t.signingBytes P = sigDomain++transcript ∧
      transcript.length = transcriptLen) ∧
    (∀ a b : TranscriptFields, a.signingBytes P = b.signingBytes P → a.Agrees P b) ∧
    ∀ (a b : TranscriptFields) (pub : Bytes48) (sig : Bytes96), BindsMessage P pub sig →
      a.verify P pub sig = true → b.verify P pub sig = true → a.Agrees P b := by
  have hagrees : ∀ a b : TranscriptFields, a.signingBytes P = b.signingBytes P → a.Agrees P b :=
    fun a b h => (agrees_iff P).mpr ((signingBytes_inj P).mp h)
  refine ⟨rfl,fun t => ?_,hagrees,fun a b pub sig hbinds ha hb => hagrees a b (hbinds _ _ ha hb)⟩
  obtain ⟨transcript,hstream,hbytes⟩ := t.signingBytes_eq P
  have hmem : transcript ∈ encodings Committed := ⟨_,hstream⟩
  rw [encodings_committed] at hmem
  exact ⟨transcript,hbytes,hmem⟩

end TranscriptFields

def helloTranscript : TranscriptFields where
  version := 1
  messageType := 0x201
  flags := 0b00000100
  correlationId := byte32 1
  sender := byte32 2
  recipient := byte32 3
  senderEpoch := 7
  counter := 42
  timestampMs := 1700000000000
  expiresAt := 0
  stream := none
  kemEnc := Primitives.point (byte32 4)
  compression := compressionNone
  uncompressedLen := 5
  compressedPayload := ascii ['h','e','l','l','o']

/-- The stand-in where that message is all that was ever signed. -/
def helloOnly : Primitives Bytes32 :=
  {Primitives.plain with
    verifySignature := fun pub msg sig =>
      msg = helloTranscript.signingBytes .plain && Primitives.plain.verifySignature pub msg sig}

/-- Its signature verifies with an OPEN header of sequence number zero too. -/
theorem hello_transfers :
    helloTranscript.Agrees helloOnly {helloTranscript with stream := some ⟨0,0,9⟩} := by
  obtain ⟨-,-,-,htransfer⟩ := TranscriptFields.transcript_commits helloOnly
  refine htransfer _ _ (Primitives.point (byte32 5)) (helloTranscript.sign .plain (byte32 5)) ?_ ?_ ?_
  · intro m m' hm hm'
    obtain ⟨hm,-⟩ := Bool.and_eq_true_iff.mp hm
    obtain ⟨hm',-⟩ := Bool.and_eq_true_iff.mp hm'
    rw [of_decide_eq_true hm,of_decide_eq_true hm']
  · decide +kernel
  · decide +kernel

end DigMessage
