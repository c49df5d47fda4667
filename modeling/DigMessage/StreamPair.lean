import DigMessage.EndpointSteps
import DigMessage.Lists

/-! One stream between two sides, without cryptography and without the other streams. What
a side has sealed and its peer may still take is its flight; a frame is taken at most once
and may be lost. The networks below are simulated by this machine, stream by stream. -/
namespace DigMessage

inductive Side
  | a | b
  deriving DecidableEq, Repr

instance : Fintype Side where
  elems := {.a,.b}
  complete x := by cases x <;> decide

namespace Side

def other : Side → Side
  | a => b
  | b => a

@[simp] theorem other_other (x : Side) : x.other.other = x := by cases x <;> rfl
@[simp] theorem other_ne (x : Side) : x.other ≠ x := by cases x <;> decide
@[simp] theorem ne_other (x : Side) : x ≠ x.other := by cases x <;> decide

theorem eq_or_other (x y : Side) : x = y ∨ x = y.other := by cases x <;> cases y <;> decide

theorem other_inj {x y : Side} : x.other = y.other ↔ x = y := by cases x <;> cases y <;> decide

end Side

/-- A frame on its way, with the counter it was sealed under. -/
structure Frame where
  counter : UInt64
  kind : StreamFrame
  header : StreamHeader
  payload : List UInt8
  deriving DecidableEq

/-- The two slots of one stream and the frames in flight from either side. -/
structure StreamPair where
  slot : Side → Option StreamSession
  flight : Side → List Frame

/-- What happened to the stream: a frame was sealed, or failed to be after the session
moved; a frame was taken by a slot, with the answer; or frames were lost. -/
inductive Label
  | sent (x : Side) (r : Request) (f : Frame)
  | failed (x : Side) (r : Request)
  | received (y : Side) (slot : Option StreamSession) (f : Frame) (reaction : Reaction)
  | lost
  deriving DecidableEq

namespace StreamPair

inductive Step : StreamPair → Label → StreamPair → Prop
  | sent {σ : StreamPair} {x : Side} {r : Request} {f : Frame} {after failed : Option StreamSession} :
      Sends (σ.slot x) r f.header after failed → f.kind = r.kind → f.payload = r.payload →
      Step σ (.sent x r f)
        ⟨Function.update σ.slot x after,Function.update σ.flight x (σ.flight x++[f])⟩
  | failed {σ : StreamPair} {x : Side} {r : Request} {hdr : StreamHeader}
      {after failed : Option StreamSession} : Sends (σ.slot x) r hdr after failed →
      Step σ (.failed x r) ⟨Function.update σ.slot x failed,σ.flight⟩
  | received {σ : StreamPair} {y : Side} {f : Frame} {full : Bool} {reaction : Reaction}
      {slot : Option StreamSession} {rest reply : List Frame} : f ∈ σ.flight y.other →
      rest.Sublist ((σ.flight y.other).erase f) →
      Receives (σ.slot y) full f.header f.payload f.kind reaction slot →
      (∀ g ∈ reply, g.kind = .reset) →
      Step σ (.received y (σ.slot y) f reaction) ⟨Function.update σ.slot y slot,
        Function.update (Function.update σ.flight y.other rest) y (σ.flight y++reply)⟩
  | lost {σ : StreamPair} {x : Side} {rest : List Frame} : rest.Sublist (σ.flight x) →
      Step σ .lost ⟨σ.slot,Function.update σ.flight x rest⟩

inductive Run (σ₀ : StreamPair) : List Label → StreamPair → Prop
  | nil : Run σ₀ [] σ₀
  | snoc {ls : List Label} {σ σ' : StreamPair} {l : Label} : Run σ₀ ls σ → Step σ l σ' →
      Run σ₀ (ls++[l]) σ'

/-- No session on either side, and nothing in flight that could start one or carry data. -/
structure Fresh (σ : StreamPair) : Prop where
  slots : ∀ x, σ.slot x = none
  flights : ∀ x, ∀ f ∈ σ.flight x, f.kind ≠ .open ∧ f.kind ≠ .openAck ∧ f.kind ≠ .data

end StreamPair

namespace Label

def opens (x : Side) : Label → Bool
  | .sent y r _ => y = x ∧ r.kind = .open
  | _ => false

def acks (x : Side) : Label → Bool
  | .sent y r _ => y = x ∧ r.kind = .openAck
  | .failed y r => y = x ∧ r.kind = .openAck
  | _ => false

def acked (x : Side) : Label → Bool
  | .received y _ _ reaction => y = x ∧ reaction = .event .established
  | _ => false

def dataSent (x : Side) : Label → Option (ℕ × List UInt8)
  | .sent y (.sendData payload) f => if y = x then some (f.header.seq.toNat,payload) else none
  | _ => none

def dataReported (y : Side) : Label → Option (List UInt8)
  | .received x _ _ (.event (.data payload)) => if x = y then some payload else none
  | _ => none

/-- The DATA frames `y` took on an established session, whatever became of them. -/
def dataOpened (y : Side) : Label → Option (List UInt8)
  | .received x (some s) f _ =>
    if x = y ∧ s.handshake = .established ∧ f.kind = .data then some f.payload else none
  | _ => none

end Label

def opens (x : Side) (ls : List Label) : ℕ := ls.countP (Label.opens x)
def acks (x : Side) (ls : List Label) : ℕ := ls.countP (Label.acks x)
def acked (x : Side) (ls : List Label) : ℕ := ls.countP (Label.acked x)

def establishments (x : Side) (ls : List Label) : ℕ := acks x ls+acked x ls

def opened (ls : List Label) : ℕ := opens .a ls+opens .b ls

def dataSent (x : Side) (ls : List Label) : List (ℕ × List UInt8) := ls.filterMap (Label.dataSent x)
def dataReported (y : Side) (ls : List Label) : List (List UInt8) :=
  ls.filterMap (Label.dataReported y)
def dataOpened (y : Side) (ls : List Label) : List (List UInt8) := ls.filterMap (Label.dataOpened y)

theorem opened_eq (x : Side) (ls : List Label) : opened ls = opens x ls+opens x.other ls := by
  cases x
  · rfl
  · exact Nat.add_comm _ _

/-- The slot holds a responder that can still answer. -/
def offered : Option StreamSession → ℕ
  | some s => if s.role = .responder ∧ s.handshake = .opening then 1 else 0
  | none => 0

def isOpen (f : Frame) : Bool := f.kind = .open
def isOpenAck (f : Frame) : Bool := f.kind = .openAck

theorem offered_settle_le (s : StreamSession) : offered s.settle ≤ offered (some s) := by
  unfold StreamSession.settle
  split
  · exact Nat.zero_le _
  · exact le_rfl

theorem Sends.offered_le {slot after failed : Option StreamSession} {r : Request}
    {hdr : StreamHeader} (h : Sends slot r hdr after failed) :
    offered after+(if r.kind = .openAck then 1 else 0) ≤ offered slot ∧
    offered failed+(if r.kind = .openAck then 1 else 0) ≤ offered slot := by
  cases h with
  | «open» w => exact ⟨Nat.le_refl 0,Nat.le_refl 0⟩
  | live hs =>
    cases hs with
    | openAck w hr hh => simp [offered,hr,hh,Request.settle,Request.kind]
    | sendData payload next => simp [offered,Request.settle,Request.kind]
    | grantCredit n => simp [offered,Request.settle,Request.kind]
    | close hl =>
      have hle := offered_settle_le {(‹StreamSession› : StreamSession) with localClosed := true}
      refine ⟨?_,?_⟩
      · simpa [offered,Request.settle,Request.kind] using hle
      · simp [offered,Request.kind]
    | reset => simp [offered,Request.settle,Request.kind]

theorem Receives.offered_le {slot slot' : Option StreamSession} {full : Bool} {hdr : StreamHeader}
    {payload : List UInt8} {frame : StreamFrame} {reaction : Reaction}
    (h : Receives slot full hdr payload frame reaction slot') :
    offered slot' ≤ offered slot+(if frame = .open then 1 else 0) := by
  cases h with
  | opened hs hf => simp [offered,StreamSession.responder]
  | @accepted s s' _ a hs hf hr hrecv =>
    have hle := offered_settle_le s'
    have hslot : offered (some s') ≤ offered (some s) := by
      cases hrecv <;> simp [offered]
    rw [hs]
    omega
  | peerReset hs => exact Nat.zero_le _
  | strayReset cause hs => exact Nat.zero_le _
  | reopened cause hs => exact Nat.zero_le _
  | refused cause hs hf => exact Nat.zero_le _
  | stray cause hs hf ho => exact Nat.zero_le _
  | violated cause hs hf ho hn => exact Nat.zero_le _

theorem Receives.established {slot slot' : Option StreamSession} {full : Bool} {hdr : StreamHeader}
    {payload : List UInt8} {frame : StreamFrame}
    (h : Receives slot full hdr payload frame (.event .established) slot') : frame = .openAck := by
  generalize hr : Reaction.event .established = reaction at h
  cases h with
  | accepted hs hf hreset hrecv => cases hrecv <;> simp_all [toEvent]
  | peerReset hs => cases hr
  | strayReset cause hs => cases hr
  | reopened cause hs => cases hr
  | refused cause hs hf => cases hr
  | opened hs hf => cases hr
  | stray cause hs hf ho => cases hr
  | violated cause hs hf ho hn => cases hr

theorem Receives.data_taken {slot slot' : Option StreamSession} {full : Bool} {hdr : StreamHeader}
    {payload p : List UInt8} {frame : StreamFrame}
    (h : Receives slot full hdr payload frame (.event (.data p)) slot') :
    ∃ s s', slot = some s ∧ s.reset = false ∧ s.Recv hdr .data .data s' ∧ frame = .data ∧
      p = payload := by
  generalize hr : Reaction.event (.data p) = reaction at h
  cases h with
  | accepted hs hf hreset hrecv =>
    cases hrecv with
    | data next hh hc hseq hw hn =>
      cases hr
      exact ⟨_,_,hs,hreset,.data next hh hc hseq hw hn,rfl,rfl⟩
    | openAck hrole hh => cases hr
    | credit hh => cases hr
    | close hh hc => cases hr
    | closeAck hl => cases hr
    | reset => cases hr
  | peerReset hs => cases hr
  | strayReset cause hs => cases hr
  | reopened cause hs => cases hr
  | refused cause hs hf => cases hr
  | opened hs hf => cases hr
  | stray cause hs hf ho => cases hr
  | violated cause hs hf ho hn => cases hr

theorem Receives.data {slot slot' : Option StreamSession} {full : Bool} {hdr : StreamHeader}
    {payload p : List UInt8} {frame : StreamFrame}
    (h : Receives slot full hdr payload frame (.event (.data p)) slot') :
    ∃ s, slot = some s ∧ s.handshake = .established ∧ frame = .data ∧ hdr.seq = s.recvSeq ∧
      p = payload := by
  obtain ⟨s,s',hs,-,hrecv,hf,hp⟩ := h.data_taken
  cases hrecv with
  | data next hh hc hseq hw hn => exact ⟨s,hs,hh,hf,hseq,hp⟩

theorem Receives.remoteClosed {slot slot' : Option StreamSession} {full : Bool} {hdr : StreamHeader}
    {payload : List UInt8} {frame : StreamFrame}
    (h : Receives slot full hdr payload frame (.event .remoteClosed) slot') :
    ∃ s, slot = some s ∧ s.handshake = .established := by
  generalize hr : Reaction.event .remoteClosed = reaction at h
  cases h with
  | accepted hs hf hreset hrecv =>
    cases hrecv with
    | close hh hc => exact ⟨_,hs,hh⟩
    | data next hh hc hseq hw hn => cases hr
    | openAck hrole hh => cases hr
    | credit hh => cases hr
    | closeAck hl => cases hr
    | reset => cases hr
  | peerReset hs => cases hr
  | strayReset cause hs => cases hr
  | reopened cause hs => cases hr
  | refused cause hs hf => cases hr
  | opened hs hf => cases hr
  | stray cause hs hf ho => cases hr
  | violated cause hs hf ho hn => cases hr

namespace StreamPair

/-- The tokens of both directions. -/
structure Tokens (ls : List Label) (σ : StreamPair) : Prop where
  responder : ∀ x, (σ.flight x.other).countP isOpen+offered (σ.slot x)+acks x ls ≤ opens x.other ls
  initiator : ∀ x, (σ.flight x.other).countP isOpenAck+acked x ls ≤ acks x.other ls

theorem Fresh.tokens {σ : StreamPair} (h : Fresh σ) : Tokens [] σ where
  responder x := by
    have hc : (σ.flight x.other).countP isOpen = 0 := by
      rw [List.countP_eq_zero]
      intro f hf
      simpa [isOpen] using (h.flights _ f hf).1
    simp [hc,h.slots,offered,acks,opens]
  initiator x := by
    have hc : (σ.flight x.other).countP isOpenAck = 0 := by
      rw [List.countP_eq_zero]
      intro f hf
      simpa [isOpenAck] using (h.flights _ f hf).2.1
    simp [hc,acks,acked]

theorem countP_of_resets {reply : List Frame} (h : ∀ g ∈ reply, g.kind = .reset) :
    reply.countP isOpen = 0 ∧ reply.countP isOpenAck = 0 := by
  constructor
  · rw [List.countP_eq_zero]
    intro g hg
    simp [isOpen,h g hg]
  · rw [List.countP_eq_zero]
    intro g hg
    simp [isOpenAck,h g hg]

theorem Tokens.step_responder {ls : List Label} {σ σ' : StreamPair} {l : Label} (h : Tokens ls σ)
    (hs : Step σ l σ') (x : Side) : (σ'.flight x.other).countP isOpen+offered (σ'.slot x)+
      acks x (ls++[l]) ≤ opens x.other (ls++[l]) := by
  have hx := h.responder x
  cases hs with
  | @sent z r f after failed hsend hkind hpayload =>
    have hslot := hsend.offered_le.1
    rcases Side.eq_or_other x z with rfl | rfl
    · simp [acks,opens,Label.acks,Label.opens,Function.update_of_ne] at hx ⊢
      omega
    · simp [acks,opens,Label.acks,Label.opens,isOpen,hkind,List.countP_cons] at hx ⊢
      omega
  | @failed z r hdr after failed hsend =>
    have hslot := hsend.offered_le.2
    rcases Side.eq_or_other x z with rfl | rfl
    · simp [acks,opens,Label.acks,Label.opens] at hx ⊢
      omega
    · simp [acks,opens,Label.acks,Label.opens] at hx ⊢
      omega
  | @received z f full reaction slot rest reply hmem hrest hrecv hreply =>
    have hslot := hrecv.offered_le
    have hopen := Lists.countP_of_erase isOpen hmem hrest
    have hnone := (countP_of_resets hreply).1
    rcases Side.eq_or_other x z with rfl | rfl
    · simp [acks,opens,Label.acks,Label.opens,isOpen] at hx hopen ⊢
      omega
    · simp [acks,opens,Label.acks,Label.opens,hnone] at hx ⊢
      omega
  | @lost z rest hrest =>
    have hopen := hrest.countP_le (p:=isOpen)
    rcases Side.eq_or_other x z with rfl | rfl
    · simp [acks,opens,Label.acks,Label.opens] at hx ⊢
      omega
    · simp [acks,opens,Label.acks,Label.opens] at hx ⊢
      omega

theorem Tokens.step_initiator {ls : List Label} {σ σ' : StreamPair} {l : Label} (h : Tokens ls σ)
    (hs : Step σ l σ') (x : Side) :
    (σ'.flight x.other).countP isOpenAck+acked x (ls++[l]) ≤ acks x.other (ls++[l]) := by
  have hx := h.initiator x
  cases hs with
  | @sent z r f after failed hsend hkind hpayload =>
    rcases Side.eq_or_other x z with rfl | rfl
    · simp [acks,acked,Label.acks,Label.acked] at hx ⊢
      omega
    · simp [acks,acked,Label.acks,Label.acked,isOpenAck,hkind,List.countP_cons] at hx ⊢
      omega
  | failed =>
    simp [acks,acked,Label.acks,Label.acked] at hx ⊢
    omega
  | @received z f full reaction slot rest reply hmem hrest hrecv hreply =>
    have hack := Lists.countP_of_erase isOpenAck hmem hrest
    have hnone := (countP_of_resets hreply).2
    have hest : reaction = .event .established → f.kind = .openAck := by
      rintro rfl
      exact hrecv.established
    rcases Side.eq_or_other x z with rfl | rfl
    · by_cases he : reaction = .event .established
      · simp [acks,acked,Label.acks,Label.acked,isOpenAck,he,hest he] at hx hack ⊢
        omega
      · simp [acks,acked,Label.acks,Label.acked,he] at hx hack ⊢
        omega
    · simp [acks,acked,Label.acks,Label.acked,hnone] at hx ⊢
      omega
  | @lost z rest hrest =>
    have hack := hrest.countP_le (p:=isOpenAck)
    rcases Side.eq_or_other x z with rfl | rfl
    · simp [acks,acked,Label.acks,Label.acked] at hx ⊢
      omega
    · simp [acks,acked,Label.acks,Label.acked] at hx ⊢
      omega

theorem Tokens.step {ls : List Label} {σ σ' : StreamPair} {l : Label} (h : Tokens ls σ)
    (hs : Step σ l σ') : Tokens (ls++[l]) σ' :=
  ⟨h.step_responder hs,h.step_initiator hs⟩

theorem Run.tokens {σ₀ σ : StreamPair} {ls : List Label} (h₀ : Fresh σ₀) (h : Run σ₀ ls σ) :
    Tokens ls σ := by
  induction h with
  | nil => exact h₀.tokens
  | snoc _ hs ih => exact ih.step hs

/-- A side is established at most once for each OPEN sealed. -/
theorem Tokens.establishments_le {ls : List Label} {σ : StreamPair} (h : Tokens ls σ) (x : Side) :
    establishments x ls ≤ opened ls := by
  have h₁ := h.responder x
  have h₂ := h.responder x.other
  have h₃ := h.initiator x
  rw [opened_eq x,establishments]
  rw [Side.other_other] at h₂
  omega

end StreamPair
end DigMessage
