import DigMessage.Envelope
import DigMessage.Fallible

/-! The per-stream state machine, free of cryptography: the handshake, the sequence
number of each direction, credit in both directions, half-close and reset. -/
namespace DigMessage
open FixedWidth

inductive Role
  | initiator | responder
  deriving DecidableEq, Repr

inductive Handshake
  | opening | established
  deriving DecidableEq, Repr

inductive StreamState
  | opening | «open» | halfClosedLocal | halfClosedRemote | closed
  deriving DecidableEq, Repr

/-- What an accepted inbound frame was. -/
inductive Accepted
  | established | data | credit (n : UInt64) | remoteClosed | closeAcked | reset
  deriving DecidableEq, Repr

/-- One stream: our sending half and the peer's half we receive. -/
structure StreamSession where
  role : Role
  handshake : Handshake
  sendSeq : UInt64
  recvSeq : UInt64
  sendCredit : UInt64
  recvWindowRemaining : UInt64
  localClosed : Bool
  remoteClosed : Bool
  reset : Bool
  deriving DecidableEq, Repr

def header (frame : StreamFrame) (seq : UInt64) (window : UInt32) : StreamHeader :=
  ⟨frame.asU8,seq,window⟩

namespace StreamSession

/-- We sent OPEN and advertised `recvWindow`. -/
def initiator (recvWindow : UInt32) : StreamSession :=
  ⟨.initiator,.opening,0,0,0,recvWindow.toUInt64,false,false,false⟩

/-- We received an OPEN that granted `grantedCredit`. -/
def responder (grantedCredit : UInt32) : StreamSession :=
  ⟨.responder,.opening,0,0,grantedCredit.toUInt64,0,false,false,false⟩

def state (s : StreamSession) : StreamState :=
  if s.reset || (s.localClosed && s.remoteClosed) then .closed
  else if s.handshake = .opening then .opening
  else match s.localClosed,s.remoteClosed with
    | true,false => .halfClosedLocal
    | false,true => .halfClosedRemote
    | _,_ => .open

def isClosed (s : StreamSession) : Bool := s.state = .closed

def buildOpenAck (recvWindow : UInt32) : Fallible MessageError StreamSession StreamHeader := do
  let s ← Fallible.read
  if s.role ≠ .responder ∨ s.handshake ≠ .opening then
    Fallible.fail (.streamProtocol "OPEN_ACK only from a responder mid-handshake")
  else
    Fallible.write {s with handshake := .established,recvWindowRemaining := recvWindow.toUInt64}
    pure (header .openAck 0 recvWindow)

/-- Stamp the next sequence number and spend one credit. -/
def buildData : Fallible MessageError StreamSession StreamHeader := do
  let s ← Fallible.read
  if s.handshake ≠ .established then
    Fallible.fail (.streamProtocol "DATA before the stream is established")
  else if s.localClosed then Fallible.fail (.streamProtocol "DATA after our own CLOSE")
  else if s.sendCredit = 0 then
    Fallible.fail (.streamProtocol "DATA exceeds the granted credit window")
  else
    let next ← Fallible.unwrap (checkedAdd s.sendSeq 1)
    Fallible.write {s with sendCredit := s.sendCredit-1,sendSeq := next}
    pure (header .data s.sendSeq 0)

def buildCredit (n : UInt32) : Fallible MessageError StreamSession StreamHeader := do
  let s ← Fallible.read
  if s.handshake ≠ .established then
    Fallible.fail (.streamProtocol "CREDIT before the stream is established")
  else
    Fallible.write {s with
      recvWindowRemaining := saturatingAdd s.recvWindowRemaining n.toUInt64}
    pure (header .credit 0 n)

/-- Half-close; the handshake position is not consulted. -/
def buildClose : Fallible MessageError StreamSession StreamHeader := do
  let s ← Fallible.read
  if s.localClosed then Fallible.fail (.streamProtocol "CLOSE after our own CLOSE")
  else
    Fallible.write {s with localClosed := true}
    pure (header .close 0 0)

def buildReset : Fallible MessageError StreamSession StreamHeader := do
  let s ← Fallible.read
  Fallible.write {s with reset := true}
  pure (header .reset 0 0)

/-- Validate and apply an inbound frame. -/
def onRecv (frame : StreamFrame) (hdr : StreamHeader) :
    Fallible MessageError StreamSession Accepted := do
  let s ← Fallible.read
  if s.reset then Fallible.fail (.streamProtocol "frame after RESET")
  else match frame with
    | .open => Fallible.fail (.streamProtocol "duplicate OPEN for a live stream")
    | .openAck =>
      if s.role ≠ .initiator ∨ s.handshake ≠ .opening then
        Fallible.fail (.streamProtocol "unexpected OPEN_ACK")
      else
        Fallible.write {s with handshake := .established,sendCredit := hdr.window.toUInt64}
        pure .established
    | .data =>
      if s.handshake ≠ .established then
        Fallible.fail (.streamProtocol "DATA before the stream is established")
      else if s.remoteClosed then Fallible.fail (.streamProtocol "DATA after the peer's CLOSE")
      else if hdr.seq ≠ s.recvSeq then
        Fallible.fail (.streamProtocol "out-of-order / gap / replayed DATA seq")
      else if s.recvWindowRemaining = 0 then
        Fallible.fail (.streamProtocol "DATA exceeds the credit window we granted")
      else
        let next ← Fallible.unwrap (checkedAdd s.recvSeq 1)
        Fallible.write {s with recvWindowRemaining := s.recvWindowRemaining-1,recvSeq := next}
        pure .data
    | .credit =>
      if s.handshake ≠ .established then
        Fallible.fail (.streamProtocol "CREDIT before the stream is established")
      else
        Fallible.write {s with sendCredit := saturatingAdd s.sendCredit hdr.window.toUInt64}
        pure (.credit hdr.window.toUInt64)
    | .close =>
      if s.handshake ≠ .established then
        Fallible.fail (.streamProtocol "CLOSE before the stream is established")
      else if s.remoteClosed then Fallible.fail (.streamProtocol "duplicate CLOSE from the peer")
      else
        Fallible.write {s with remoteClosed := true}
        pure .remoteClosed
    | .closeAck =>
      if !s.localClosed then Fallible.fail (.streamProtocol "CLOSE_ACK without our CLOSE")
      else pure .closeAcked
    | .reset =>
      Fallible.write {s with reset := true}
      pure .reset

/-- The successors of an accepted inbound frame, kind by kind. -/
inductive Recv (s : StreamSession) (hdr : StreamHeader) :
    StreamFrame → Accepted → StreamSession → Prop
  | openAck : s.role = .initiator → s.handshake = .opening →
      Recv s hdr .openAck .established
        {s with handshake := .established,sendCredit := hdr.window.toUInt64}
  | data (next : UInt64) : s.handshake = .established → s.remoteClosed = false →
      hdr.seq = s.recvSeq → s.recvWindowRemaining ≠ 0 → next.toNat = s.recvSeq.toNat+1 →
      Recv s hdr .data .data
        {s with recvWindowRemaining := s.recvWindowRemaining-1,recvSeq := next}
  | credit : s.handshake = .established →
      Recv s hdr .credit (.credit hdr.window.toUInt64)
        {s with sendCredit := saturatingAdd s.sendCredit hdr.window.toUInt64}
  | close : s.handshake = .established → s.remoteClosed = false →
      Recv s hdr .close .remoteClosed {s with remoteClosed := true}
  | closeAck : s.localClosed = true → Recv s hdr .closeAck .closeAcked s
  | reset : Recv s hdr .reset .reset {s with reset := true}

theorem onRecv_ok {s s' : StreamSession} {frame : StreamFrame} {hdr : StreamHeader} {a : Accepted}
    (h : onRecv frame hdr s = some (.ok a,s')) : s.reset = false ∧ Recv s hdr frame a s' := by
  unfold onRecv at h
  rw [Fallible.bind_of_ok (Fallible.read_apply s)] at h
  by_cases hr : s.reset = true
  · simp [hr] at h
  · refine ⟨by simpa using hr,?_⟩
    rw [if_neg hr] at h
    cases frame with
    | «open» => simp at h
    | openAck =>
      simp only at h
      split at h
      · simp at h
      · rename_i hn
        push Not at hn
        cases h
        exact .openAck hn.1 hn.2
    | data =>
      simp only at h
      split_ifs at h with h₁ h₂ h₃ h₄
      · simp at h
      · simp at h
      · simp at h
      · simp at h
      · rcases Fallible.bind_eq_some.mp h with ⟨e,-,he⟩ | ⟨next,u,hn,hw⟩
        · cases he
        · obtain ⟨n,hadd,hok,-⟩ := Fallible.unwrap_eq_some.mp hn
          cases hok
          have hnext : next.toNat = s.recvSeq.toNat+1 := checkedAdd_eq_some.mp hadd
          cases hw
          exact .data next (by simpa using h₁) (by simpa using h₂) (by simpa using h₃) h₄ hnext
    | credit =>
      simp only at h
      split at h
      · simp at h
      · rename_i hn
        cases h
        exact .credit (by simpa using hn)
    | close =>
      simp only at h
      split_ifs at h with h₁ h₂
      · simp at h
      · simp at h
      · cases h
        exact .close (by simpa using h₁) (by simpa using h₂)
    | closeAck =>
      simp only at h
      split at h
      · simp at h
      · rename_i hn
        cases h
        exact .closeAck (by simpa using hn)
    | reset =>
      cases h
      exact .reset

theorem onRecv_of_recv {s s' : StreamSession} {frame : StreamFrame} {hdr : StreamHeader}
    {a : Accepted} (live : s.reset = false) (h : Recv s hdr frame a s') :
    onRecv frame hdr s = some (.ok a,s') := by
  cases h with
  | openAck role opening => simp [onRecv,bind,Fallible.andThen,live,role,opening]
  | data next established «open» hseq hw hn =>
    have hadd : checkedAdd s.recvSeq 1 = some next := checkedAdd_eq_some.mpr hn
    simp [onRecv,bind,Fallible.andThen,Fallible.unwrap,live,established,«open»,hseq,hw,hadd]
  | credit established => simp [onRecv,bind,Fallible.andThen,live,established]
  | close established «open» => simp [onRecv,bind,Fallible.andThen,live,established,«open»]
  | closeAck closed => simp [onRecv,bind,Fallible.andThen,live,closed]
  | reset => simp [onRecv,bind,Fallible.andThen,live]

theorem onRecv_error {s s' : StreamSession} {frame : StreamFrame} {hdr : StreamHeader}
    {e : MessageError} (h : onRecv frame hdr s = some (.error e,s')) :
    s' = s ∧ ∀ a t, s.reset = false → ¬ Recv s hdr frame a t := by
  unfold onRecv at h
  rw [Fallible.bind_of_ok (Fallible.read_apply s)] at h
  by_cases hr : s.reset = true
  · simp_all
  · rw [if_neg hr] at h
    suffices hs : s' = s ∧ ∀ a t, ¬ Recv s hdr frame a t from ⟨hs.1,fun a t _ => hs.2 a t⟩
    cases frame with
    | «open» =>
      cases h
      exact ⟨rfl,fun a t ht => by cases ht⟩
    | openAck =>
      simp only at h
      split at h
      · rename_i hn
        cases h
        refine ⟨rfl,fun a t ht => ?_⟩
        cases ht
        simp_all
      · cases h
    | data =>
      simp only at h
      split_ifs at h with h₁ h₂ h₃ h₄
      · cases h
        exact ⟨rfl,fun a t ht => by cases ht; simp_all⟩
      · cases h
        exact ⟨rfl,fun a t ht => by cases ht; simp_all⟩
      · cases h
        exact ⟨rfl,fun a t ht => by cases ht; simp_all⟩
      · cases h
        exact ⟨rfl,fun a t ht => by cases ht; simp_all⟩
      · rcases Fallible.bind_eq_some.mp h with ⟨e',he,-⟩ | ⟨next,u,-,hw⟩
        · obtain ⟨n,-,hok,-⟩ := Fallible.unwrap_eq_some.mp he
          cases hok
        · cases hw
    | credit =>
      simp only at h
      split at h
      · rename_i hn
        cases h
        exact ⟨rfl,fun a t ht => by cases ht; simp_all⟩
      · cases h
    | close =>
      simp only at h
      split_ifs at h with h₁ h₂
      · cases h
        exact ⟨rfl,fun a t ht => by cases ht; simp_all⟩
      · cases h
        exact ⟨rfl,fun a t ht => by cases ht; simp_all⟩
      · cases h
    | closeAck =>
      simp only at h
      split at h
      · rename_i hn
        cases h
        exact ⟨rfl,fun a t ht => by cases ht; simp_all⟩
      · cases h
    | reset => cases h

end StreamSession

inductive Request
  | «open» (recvWindow : UInt32)
  | openAck (recvWindow : UInt32)
  | sendData (payload : List UInt8)
  | grantCredit (n : UInt32)
  | close
  | reset
  deriving DecidableEq, Repr

namespace Request

def header (seq : UInt64) : Request → StreamHeader
  | .open w => DigMessage.header .open 0 w
  | .openAck w => DigMessage.header .openAck 0 w
  | .sendData _ => DigMessage.header .data seq 0
  | .grantCredit n => DigMessage.header .credit 0 n
  | .close => DigMessage.header .close 0 0
  | .reset => DigMessage.header .reset 0 0

def kind : Request → StreamFrame
  | .open _ => .open
  | .openAck _ => .openAck
  | .sendData _ => .data
  | .grantCredit _ => .credit
  | .close => .close
  | .reset => .reset

def payload : Request → List UInt8
  | .sendData payload => payload
  | _ => []

@[simp] theorem fromU8_header (r : Request) (seq : UInt64) :
    StreamFrame.fromU8 (r.header seq).frame = some r.kind := by
  cases r <;> rfl

end Request

namespace StreamSession

/-- What a request on a live session does to it, before its frame is sealed. -/
inductive Send (s : StreamSession) : Request → StreamSession → Prop
  | openAck (w : UInt32) : s.role = .responder → s.handshake = .opening →
      Send s (.openAck w) {s with handshake := .established,recvWindowRemaining := w.toUInt64}
  | sendData (payload : List UInt8) (next : UInt64) : s.handshake = .established →
      s.localClosed = false → s.sendCredit ≠ 0 → next.toNat = s.sendSeq.toNat+1 →
      Send s (.sendData payload) {s with sendCredit := s.sendCredit-1,sendSeq := next}
  | grantCredit (n : UInt32) : s.handshake = .established →
      Send s (.grantCredit n)
        {s with recvWindowRemaining := saturatingAdd s.recvWindowRemaining n.toUInt64}
  | close : s.localClosed = false → Send s .close {s with localClosed := true}
  | reset : Send s .reset {s with reset := true}

/-- `build` computes the request `r`: it succeeds with `r`'s header and successor, or
leaves the session as it was. -/
structure Builds (build : Fallible MessageError StreamSession StreamHeader) (r : Request) : Prop where
  ok : ∀ {s s' hdr}, build s = some (.ok hdr,s') → Send s r s' ∧ hdr = r.header s.sendSeq
  error : ∀ {s s' e}, build s = some (.error e,s') → s' = s

theorem buildOpenAck_builds (w : UInt32) : Builds (buildOpenAck w) (.openAck w) where
  ok {s s' hdr} h := by
    unfold buildOpenAck at h
    rw [Fallible.bind_of_ok (Fallible.read_apply s)] at h
    split at h
    · simp at h
    · rename_i hn
      push Not at hn
      cases h
      exact ⟨.openAck w hn.1 hn.2,rfl⟩
  error {s s' e} h := by
    unfold buildOpenAck at h
    rw [Fallible.bind_of_ok (Fallible.read_apply s)] at h
    split at h <;> cases h
    rfl

theorem buildData_builds (payload : List UInt8) : Builds buildData (.sendData payload) where
  ok {s s' hdr} h := by
    unfold buildData at h
    rw [Fallible.bind_of_ok (Fallible.read_apply s)] at h
    split_ifs at h with h₁ h₂ h₃
    · simp at h
    · simp at h
    · simp at h
    · rcases Fallible.bind_eq_some.mp h with ⟨e,-,he⟩ | ⟨next,u,hn,hw⟩
      · cases he
      · obtain ⟨n,hadd,hok,-⟩ := Fallible.unwrap_eq_some.mp hn
        cases hok
        have hnext : next.toNat = s.sendSeq.toNat+1 := checkedAdd_eq_some.mp hadd
        cases hw
        exact ⟨.sendData payload next (by simpa using h₁) (by simpa using h₂) h₃ hnext,rfl⟩
  error {s s' e} h := by
    unfold buildData at h
    rw [Fallible.bind_of_ok (Fallible.read_apply s)] at h
    split_ifs at h
    · cases h; rfl
    · cases h; rfl
    · cases h; rfl
    · rcases Fallible.bind_eq_some.mp h with ⟨e',he,-⟩ | ⟨next,u,-,hw⟩
      · obtain ⟨n,-,hok,-⟩ := Fallible.unwrap_eq_some.mp he
        cases hok
      · cases hw

theorem buildCredit_builds (n : UInt32) : Builds (buildCredit n) (.grantCredit n) where
  ok {s s' hdr} h := by
    unfold buildCredit at h
    rw [Fallible.bind_of_ok (Fallible.read_apply s)] at h
    split at h
    · simp at h
    · rename_i hn
      cases h
      exact ⟨.grantCredit n (by simpa using hn),rfl⟩
  error {s s' e} h := by
    unfold buildCredit at h
    rw [Fallible.bind_of_ok (Fallible.read_apply s)] at h
    split at h <;> cases h
    rfl

theorem buildClose_builds : Builds buildClose .close where
  ok {s s' hdr} h := by
    unfold buildClose at h
    rw [Fallible.bind_of_ok (Fallible.read_apply s)] at h
    split at h
    · simp at h
    · rename_i hn
      cases h
      exact ⟨.close (by simpa using hn),rfl⟩
  error {s s' e} h := by
    unfold buildClose at h
    rw [Fallible.bind_of_ok (Fallible.read_apply s)] at h
    split at h <;> cases h
    rfl

theorem buildReset_builds : Builds buildReset .reset where
  ok {s s' hdr} h := by
    cases h
    exact ⟨.reset,rfl⟩
  error h := by cases h

end StreamSession
end DigMessage
