import DigMessage.Seal
import DigMessage.StreamSession

/-! The per-peer registry of streams: every outbound frame is sealed under the next
counter, every inbound envelope is opened and verified before it reaches a session. -/
namespace DigMessage
open FixedWidth

abbrev Sessions := Finmap fun _ : Bytes32 => StreamSession

inductive StreamEvent
  | opened | established | data (payload : List UInt8) | creditGranted (n : UInt64)
  | remoteClosed | closeAcked | peerReset
  deriving DecidableEq, Repr

inductive StreamAccept
  | event (event : StreamEvent)
  | dropped (cause : MessageError)
  | reset (frame : DigMessageEnvelope) (cause : MessageError)
  deriving DecidableEq, Repr

def toEvent (accepted : Accepted) (payload : List UInt8) : StreamEvent :=
  match accepted with
  | .established => .established
  | .data => .data payload
  | .credit n => .creditGranted n
  | .remoteClosed => .remoteClosed
  | .closeAcked => .closeAcked
  | .reset => .peerReset

/-- The streams to one peer, under one identity key. -/
structure StreamEndpoint (SK : Type) where
  identitySk : SK
  localDid : Bytes32
  localEpoch : UInt32
  peerDid : Bytes32
  peerPub : Bytes48
  messageType : UInt32
  sendCounter : UInt64
  sessions : Sessions
  maxConcurrent : ℕ
  guard : ReplayGuard

namespace StreamEndpoint
variable {SK : Type}

def new (identitySk : SK) (localDid : Bytes32) (localEpoch : UInt32) (peerDid : Bytes32)
    (peerPub : Bytes48) (messageType : UInt32) : StreamEndpoint SK where
  identitySk := identitySk
  localDid := localDid
  localEpoch := localEpoch
  peerDid := peerDid
  peerPub := peerPub
  messageType := messageType
  sendCounter := 0
  sessions := ∅
  maxConcurrent := maxConcurrentStreams
  guard := .new

def withMaxConcurrent (e : StreamEndpoint SK) (max : ℕ) : StreamEndpoint SK :=
  {e with maxConcurrent := max}

def streamCount (e : StreamEndpoint SK) : ℕ := e.sessions.keys.card

def session (e : StreamEndpoint SK) (correlationId : Bytes32) : Option StreamSession :=
  e.sessions.lookup correlationId

def frameParams (e : StreamEndpoint SK) (correlationId : Bytes32) (hdr : StreamHeader)
    (payload : List UInt8) (nowMs expiresAt : UInt64) : SealParams SK where
  senderSk := e.identitySk
  sender := e.localDid
  senderEpoch := e.localEpoch
  recipient := e.peerDid
  recipientPub := e.peerPub
  messageType := e.messageType
  shape := .streamFrame
  correlationId := correlationId
  stream := some hdr
  counter := e.sendCounter
  timestampMs := nowMs
  expiresAt := expiresAt
  payload := payload

section operations
variable (P : Primitives SK) (order : HashOrder) (entropy : Except String Bytes32)

/-- A call on the session of one stream. -/
def sessionMut {α : Type} (correlationId : Bytes32) (x : Fallible MessageError StreamSession α) :
    Fallible MessageError (StreamEndpoint SK) α := do
  let e ← Fallible.read
  match e.sessions.lookup correlationId with
  | none => Fallible.fail (.streamProtocol "unknown stream")
  | some s =>
    Fallible.onPart (fun _ => s)
      (fun e s => {e with sessions := e.sessions.insert correlationId s}) x

/-- The same where the session was found to be there; without it the call panics. -/
def expectSession {α : Type} (correlationId : Bytes32) (x : Fallible MessageError StreamSession α) :
    Fallible MessageError (StreamEndpoint SK) α := do
  let e ← Fallible.read
  let s ← Fallible.unwrap (e.sessions.lookup correlationId)
  Fallible.onPart (fun _ => s)
    (fun e s => {e with sessions := e.sessions.insert correlationId s}) x

/-- Seal one frame under the next counter, which is spent even where sealing fails. -/
def sealFrame (correlationId : Bytes32) (hdr : StreamHeader) (payload : List UInt8)
    (nowMs expiresAt : UInt64) : Fallible MessageError (StreamEndpoint SK) DigMessageEnvelope := do
  let e ← Fallible.read
  let next ← Fallible.unwrap (checkedAdd e.sendCounter 1)
  Fallible.write {e with sendCounter := next}
  Fallible.ofExcept (sealMessage P entropy (e.frameParams correlationId hdr payload nowMs expiresAt))

/-- Free the slot of a session that is closed. -/
def dropIfClosed (correlationId : Bytes32) : Fallible MessageError (StreamEndpoint SK) Unit := do
  let e ← Fallible.read
  match e.sessions.lookup correlationId with
  | some s =>
    if s.isClosed then Fallible.write {e with sessions := e.sessions.erase correlationId}
    else pure ()
  | none => pure ()

def removeSession (correlationId : Bytes32) : Fallible MessageError (StreamEndpoint SK) Unit := do
  let e ← Fallible.read
  Fallible.write {e with sessions := e.sessions.erase correlationId}

def «open» (correlationId : Bytes32) (recvWindow : UInt32) (nowMs expiresAt : UInt64) :
    Fallible MessageError (StreamEndpoint SK) DigMessageEnvelope := do
  let e ← Fallible.read
  if correlationId ∈ e.sessions then
    Fallible.fail (.streamProtocol "correlation_id already in use")
  else if e.sessions.keys.card ≥ e.maxConcurrent then
    Fallible.fail (.streamLimit e.maxConcurrent)
  else
    Fallible.write {e with
      sessions := e.sessions.insert correlationId (StreamSession.initiator recvWindow)}
    sealFrame P entropy correlationId (header .open 0 recvWindow) [] nowMs expiresAt

def openAck (correlationId : Bytes32) (recvWindow : UInt32) (nowMs expiresAt : UInt64) :
    Fallible MessageError (StreamEndpoint SK) DigMessageEnvelope := do
  let hdr ← sessionMut correlationId (StreamSession.buildOpenAck recvWindow)
  sealFrame P entropy correlationId hdr [] nowMs expiresAt

def sendData (correlationId : Bytes32) (payload : List UInt8) (nowMs expiresAt : UInt64) :
    Fallible MessageError (StreamEndpoint SK) DigMessageEnvelope := do
  let hdr ← sessionMut correlationId StreamSession.buildData
  sealFrame P entropy correlationId hdr payload nowMs expiresAt

def grantCredit (correlationId : Bytes32) (n : UInt32) (nowMs expiresAt : UInt64) :
    Fallible MessageError (StreamEndpoint SK) DigMessageEnvelope := do
  let hdr ← sessionMut correlationId (StreamSession.buildCredit n)
  sealFrame P entropy correlationId hdr [] nowMs expiresAt

def close (correlationId : Bytes32) (nowMs expiresAt : UInt64) :
    Fallible MessageError (StreamEndpoint SK) DigMessageEnvelope := do
  let hdr ← sessionMut correlationId StreamSession.buildClose
  let env ← sealFrame P entropy correlationId hdr [] nowMs expiresAt
  dropIfClosed correlationId
  pure env

def reset (correlationId : Bytes32) (nowMs expiresAt : UInt64) :
    Fallible MessageError (StreamEndpoint SK) DigMessageEnvelope := do
  let hdr ← sessionMut correlationId StreamSession.buildReset
  let env ← sealFrame P entropy correlationId hdr [] nowMs expiresAt
  removeSession correlationId
  pure env

def call (correlationId : Bytes32) (nowMs expiresAt : UInt64) :
    Request → Fallible MessageError (StreamEndpoint SK) DigMessageEnvelope
  | .open w => «open» P entropy correlationId w nowMs expiresAt
  | .openAck w => openAck P entropy correlationId w nowMs expiresAt
  | .sendData payload => sendData P entropy correlationId payload nowMs expiresAt
  | .grantCredit n => grantCredit P entropy correlationId n nowMs expiresAt
  | .close => close P entropy correlationId nowMs expiresAt
  | .reset => reset P entropy correlationId nowMs expiresAt

def resetResponse (correlationId : Bytes32) (nowMs : UInt64) (cause : MessageError) :
    Fallible MessageError (StreamEndpoint SK) StreamAccept := do
  let frame ← sealFrame P entropy correlationId (header .reset 0 0) [] nowMs 0
  pure (.reset frame cause)

/-- A verified OPEN: refused where the id is live or the cap is reached. -/
def acceptOpen (correlationId : Bytes32) (hdr : StreamHeader) (nowMs : UInt64) :
    Fallible MessageError (StreamEndpoint SK) StreamAccept := do
  let e ← Fallible.read
  if correlationId ∈ e.sessions then
    removeSession correlationId
    resetResponse P entropy correlationId nowMs (.streamProtocol "duplicate OPEN for a live stream")
  else if e.sessions.keys.card ≥ e.maxConcurrent then
    resetResponse P entropy correlationId nowMs (.streamLimit e.maxConcurrent)
  else
    Fallible.write {e with
      sessions := e.sessions.insert correlationId (StreamSession.responder hdr.window)}
    pure (.event .opened)

def acceptFrame (correlationId : Bytes32) (frame : StreamFrame) (hdr : StreamHeader)
    (payload : List UInt8) (nowMs : UInt64) :
    Fallible MessageError (StreamEndpoint SK) StreamAccept := do
  let e ← Fallible.read
  if frame = .reset then
    if correlationId ∈ e.sessions then
      removeSession correlationId
      pure (.event .peerReset)
    else pure (.dropped (.streamProtocol "RESET for an unknown stream"))
  else if frame = .open then acceptOpen P entropy correlationId hdr nowMs
  else if correlationId ∈ e.sessions then
    let transition ← Fallible.attempt (expectSession correlationId (StreamSession.onRecv frame hdr))
    match transition with
    | .ok accepted =>
      dropIfClosed correlationId
      pure (.event (toEvent accepted payload))
    | .error cause =>
      removeSession correlationId
      resetResponse P entropy correlationId nowMs cause
  else pure (.dropped (.streamProtocol "frame for an unknown stream"))

/-- Open and fully verify an inbound envelope, then drive the state machine. -/
def accept (envelope : DigMessageEnvelope) (resolveSenderPub : Bytes32 → UInt32 → Option Bytes48)
    (nowMs : UInt64) : Fallible MessageError (StreamEndpoint SK) StreamAccept := do
  let e ← Fallible.read
  let outcome ← Fallible.attempt (Fallible.onPart StreamEndpoint.guard
    (fun e guard => {e with guard})
    (openMessage P order e.identitySk envelope resolveSenderPub nowMs))
  match outcome with
  | .error cause => pure (.dropped cause)
  | .ok opened =>
    if opened.sender ≠ e.peerDid then
      pure (.dropped (.streamProtocol "authenticated sender is not this stream's peer"))
    else match envelope.stream with
      | none => pure (.dropped (.streamProtocol "stream event on a non-stream envelope"))
      | some hdr =>
        match StreamFrame.fromU8 hdr.frame with
        | none => pure (.dropped (.streamProtocol "unknown stream frame kind"))
        | some frame =>
          if opened.shape ≠ .streamFrame then
            pure (.dropped (.streamProtocol "stream frame with a non-stream shape"))
          else acceptFrame P entropy envelope.correlationId frame hdr opened.payload nowMs

end operations
end StreamEndpoint
end DigMessage
