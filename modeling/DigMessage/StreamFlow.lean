import DigMessage.LinkProjection

/-! Flow control over ordered channels. A receiver followed along the frames on their way to it
ends where the sender already is: the same sequence number, the same half-close, and a window
of the sender's credit and what is on its way back. -/
namespace DigMessage
open FixedWidth

/-- What the receiving half of a session checks frames against. -/
structure Receiver where
  established : Bool
  closed : Bool
  seq : ℕ
  window : ℕ

def StreamSession.receiver (s : StreamSession) : Receiver where
  established := s.handshake = .established
  closed := s.remoteClosed
  seq := s.recvSeq.toNat
  window := s.recvWindowRemaining.toNat

def Receiver.new : Receiver := ⟨false,false,0,0⟩

/-- A receiver in role `role` is ready for a frame. A CLOSE or RESET may still end its session. -/
inductive Takes (role : Role) : Receiver → Frame → Receiver → Prop
  | data {r : Receiver} {f : Frame} : f.kind = .data → r.established = true → r.closed = false →
      f.header.seq.toNat = r.seq → r.seq+1 < 2^64 → 0 < r.window →
      Takes role r f {r with seq := r.seq+1,window := r.window-1}
  | credit {r : Receiver} {f : Frame} : f.kind = .credit → r.established = true → Takes role r f r
  | openAck {r : Receiver} {f : Frame} : f.kind = .openAck → role = .initiator →
      r.established = false → Takes role r f {r with established := true}
  | close {r : Receiver} {f : Frame} : f.kind = .close → Takes role r f {r with closed := true}
  | reset {r : Receiver} {f : Frame} : f.kind = .reset → Takes role r f r

def Receiver.after (r : Receiver) : StreamFrame → Receiver
  | .data => {r with seq := r.seq+1,window := r.window-1}
  | .openAck => {r with established := true}
  | .close => {r with closed := true}
  | _ => r

theorem StreamSession.Recv.receiver {s s' : StreamSession} {hdr : StreamHeader} {kind : StreamFrame}
    {a : Accepted} (h : s.Recv hdr kind a s') :
    s'.role = s.role ∧ s'.receiver = s.receiver.after kind := by
  cases h with
  | data next hh hc hseq hw hn =>
    have hsub : (s.recvWindowRemaining-1).toNat = s.recvWindowRemaining.toNat-1 := by
      have hone := toNat_sub_one hw
      omega
    exact ⟨rfl,by simp [StreamSession.receiver,Receiver.after,hn,hsub]⟩
  | openAck hrole hh => exact ⟨rfl,rfl⟩
  | credit hh => exact ⟨rfl,rfl⟩
  | close hh hc => exact ⟨rfl,rfl⟩
  | closeAck hl => exact ⟨rfl,rfl⟩
  | reset => exact ⟨rfl,rfl⟩

theorem Takes.eq_after {role : Role} {r r' : Receiver} {f : Frame} (h : Takes role r f r') :
    r' = r.after f.kind := by
  cases h with
  | data hk he hc hs hn hw => rw [hk]; rfl
  | credit hk he => rw [hk]; rfl
  | openAck hk hr he => rw [hk]; rfl
  | close hk => rw [hk]; rfl
  | reset hk => rw [hk]; rfl

def windows (fs : List Frame) : ℕ := (fs.map Frame.granted).sum

@[simp] theorem windows_nil : windows [] = 0 := rfl

@[simp] theorem windows_cons (f : Frame) (fs : List Frame) :
    windows (f::fs) = f.granted+windows fs := by simp [windows]

@[simp] theorem windows_append (fs gs : List Frame) : windows (fs++gs) = windows fs+windows gs := by
  simp [windows]

def credits (fs : List Frame) : ℕ :=
  ((fs.filter fun f => f.kind = .credit).map fun f => f.header.window.toNat).sum

section
variable {role : Role} {r r' : Receiver} {fs : List Frame}

theorem Takes.counts {f : Frame} (h : Takes role r f r') :
    r'.seq = r.seq+tally .data [f] ∧ r.window = r'.window+tally .data [f] := by
  cases h with
  | data hk he hc hs hn hw => simp [hk]; omega
  | credit hk he => simp [hk]
  | openAck hk hr he => simp [hk]
  | close hk => simp [hk]
  | reset hk => simp [hk]

theorem Takes.established {f : Frame} (h : Takes role r f r') (he : r.established = true) :
    r'.established = true := by
  cases h with
  | openAck hk hr hn => rfl
  | data hk he' hc hs hn hw => exact he
  | credit hk he' => exact he
  | close hk => exact he
  | reset hk => exact he

theorem along_counts (h : Lists.Along (Takes role) r fs r') :
    r'.seq = r.seq+tally .data fs ∧ r.window = r'.window+tally .data fs := by
  induction h with
  | nil => simp
  | cons ht _ ih =>
    have hc := ht.counts
    simp only [tally_cons,tally_nil] at hc ⊢
    omega

theorem along_established (h : Lists.Along (Takes role) r fs r') (he : r.established = true) :
    r'.established = true := by
  induction h with
  | nil => exact he
  | cons ht _ ih => exact ih (ht.established he)

theorem along_credits (h : Lists.Along (Takes role) r fs r')
    (hr : role = .responder ∨ r.established = true) : windows fs = credits fs := by
  induction h with
  | nil => rfl
  | @cons r r₁ r₂ f fs ht _ ih =>
    have hnext := ih (hr.imp_right ht.established)
    have hhead : f.granted = credits [f] := by
      cases ht with
      | openAck hk hrole he => rcases hr with hr | hr <;> simp_all
      | data hk he hc hs hn hw => simp [Frame.granted,credits,hk,StreamFrame.grants]
      | credit hk he => simp [Frame.granted,credits,hk,StreamFrame.grants]
      | close hk => simp [Frame.granted,credits,hk,StreamFrame.grants]
      | reset hk => simp [Frame.granted,credits,hk,StreamFrame.grants]
    have hsplit : credits (f::fs) = credits [f]+credits fs := by
      rw [credits,credits,credits,← List.sum_append,← List.map_append,← List.filter_append]
      rfl
    rw [windows_cons,hhead,hnext,hsplit]

theorem along_grant (h : Lists.Along (Takes role) r fs r') (n : ℕ) :
    Lists.Along (Takes role) {r with window := r.window+n} fs {r' with window := r'.window+n} := by
  refine (h.map (Q:=Takes role) (fun r => {r with window := r.window+n}) (I:=fun _ => True)
    (fun r f r' _ ht => ⟨trivial,?_⟩) trivial).1
  cases ht with
  | data hk he hc hs hn hw =>
    have hsub : r.window-1+n = r.window+n-1 := by omega
    rw [hsub]
    exact .data hk he hc hs hn (by simp only; omega)
  | credit hk he => exact .credit hk he
  | openAck hk hr he => exact .openAck hk hr he
  | close hk => exact .close hk
  | reset hk => exact .reset hk

theorem along_answer (h : Lists.Along (Takes .responder) r fs r') (he : r.established = false) (n : ℕ) :
    Lists.Along (Takes .responder) {r with established := true,window := r.window+n} fs
      {r' with established := true,window := r'.window+n} := by
  refine (h.map (Q:=Takes .responder) (fun r => {r with established := true,window := r.window+n})
    (I:=fun r => r.established = false) (fun r f r' hi ht => ?_) he).1
  cases ht with
  | data hk he hc hs hn hw => simp [hi] at he
  | credit hk he => simp [hi] at he
  | openAck hk hr he => cases hr
  | close hk => exact ⟨hi,.close hk⟩
  | reset hk => exact ⟨hi,.reset hk⟩

end

/-- The sender is where its receiver will be, with `back` of its windows still to come. -/
structure Matched (s : StreamSession) (r : Receiver) (back : ℕ) : Prop where
  seq : r.seq = s.sendSeq.toNat
  closed : r.closed = s.localClosed
  window : r.window = s.sendCredit.toNat+back
  answered : s.role = .responder → (r.established = true ↔ s.handshake = .established)

/-- The flow from one side to the other, where its own windows come to `total` at most. -/
structure Flow (mine theirs : Option StreamSession) (out back : List Frame) (total : ℕ) : Prop where
  ready : ∀ t, theirs = some t → ∃ r, Lists.Along (Takes t.role) t.receiver out r ∧
    ∀ s, mine = some s → Matched s r (windows back)
  offered : ∀ f rest, out = f::rest → f.kind = .open → windows rest = 0 ∧
    ∃ r, Lists.Along (Takes .responder) .new rest r ∧ ∀ s, mine = some s →
      Matched s r 0 ∧ s.recvSeq = 0 ∧ s.recvWindowRemaining = f.header.window.toUInt64
  initiator : ∀ s, mine = some s → s.role = .initiator → s.handshake = .opening → s.sendCredit = 0
  responder : ∀ s, mine = some s → s.role = .responder → s.handshake = .opening →
    s.recvWindowRemaining = 0
  bound : ∀ s, mine = some s → s.recvWindowRemaining.toNat ≤ total

namespace Flow
variable {s s' : StreamSession} {mine theirs after : Option StreamSession} {out back rest : List Frame}
  {f : Frame} {n m : ℕ}

theorem empty (n : ℕ) : Flow none none [] [] n := by
  constructor
  · rintro _ ⟨⟩
  · rintro _ _ ⟨⟩
  · rintro _ ⟨⟩
  · rintro _ ⟨⟩
  · rintro _ ⟨⟩

theorem absent (ready : ∀ t, theirs = some t → ∃ r, Lists.Along (Takes t.role) t.receiver out r)
    (offered : ∀ f rest, out = f::rest → f.kind = .open → windows rest = 0 ∧
      ∃ r, Lists.Along (Takes .responder) .new rest r) : Flow none theirs out back n := by
  constructor
  · intro t ht
    obtain ⟨r,hr⟩ := ready t ht
    refine ⟨r,hr,?_⟩
    rintro _ ⟨⟩
  · intro f rest hout hf
    obtain ⟨hw,r,hr⟩ := offered f rest hout hf
    refine ⟨hw,r,hr,?_⟩
    rintro _ ⟨⟩
  · rintro _ ⟨⟩
  · rintro _ ⟨⟩
  · rintro _ ⟨⟩

theorem push (h : Flow (some s) theirs out back n) (hf : f.kind ≠ .open)
    (hp : Paired (some s) theirs out back)
    (hready : ∀ t r, theirs = some t → Lists.Along (Takes t.role) t.receiver out r →
      Matched s r (windows back) → ∃ r', Takes t.role r f r' ∧ Matched s' r' (windows back))
    (hoffered : s.role = .initiator → s.handshake = .opening → f.granted = 0 ∧
      s'.recvSeq = s.recvSeq ∧ s'.recvWindowRemaining = s.recvWindowRemaining ∧
      ∀ r, Matched s r 0 → ∃ r', Takes .responder r f r' ∧ Matched s' r' 0)
    (hinit : s'.role = .initiator → s'.handshake = .opening → s'.sendCredit = 0)
    (hresp : s'.role = .responder → s'.handshake = .opening → s'.recvWindowRemaining = 0)
    (hbound : s'.recvWindowRemaining.toNat ≤ m) : Flow (some s') theirs (out++[f]) back m := by
  constructor
  · intro t ht
    obtain ⟨r,hr,hm⟩ := h.ready t ht
    obtain ⟨r',htake,hm'⟩ := hready t r ht hr (hm s rfl)
    refine ⟨r',hr.snoc htake,?_⟩
    rintro _ ⟨⟩
    exact hm'
  · intro g rest hout hg
    cases out with
    | nil =>
      cases hout
      exact absurd hg hf
    | cons g' rest' =>
      cases hout
      obtain ⟨hrole,hh,-⟩ := (hp.left.offered g rest' rfl hg).2.2.2.2 s rfl
      obtain ⟨hw,r,hr,hm⟩ := h.offered g rest' rfl hg
      obtain ⟨hm₀,hseq,hwin⟩ := hm s rfl
      obtain ⟨hgrant,hseq',hwin',hstep⟩ := hoffered hrole hh
      obtain ⟨r',htake,hm'⟩ := hstep r hm₀
      refine ⟨by simp [hw,hgrant],r',hr.snoc htake,?_⟩
      rintro _ ⟨⟩
      exact ⟨hm',hseq'.trans hseq,hwin'.trans hwin⟩
  · rintro _ ⟨⟩
    exact hinit
  · rintro _ ⟨⟩
    exact hresp
  · rintro _ ⟨⟩
    exact hbound

theorem pushLast (h : Flow mine theirs out back n) (hf : f.kind = .close ∨ f.kind = .reset) :
    Flow none theirs (out++[f]) back m := by
  have htakes : ∀ role r, ∃ r', Takes role r f r' := by
    intro role r
    rcases hf with hf | hf
    · exact ⟨_,.close hf⟩
    · exact ⟨_,.reset hf⟩
  apply absent
  · intro t ht
    obtain ⟨r,hr,-⟩ := h.ready t ht
    obtain ⟨r',htake⟩ := htakes t.role r
    exact ⟨r',hr.snoc htake⟩
  · intro g rest hout hg
    cases out with
    | nil =>
      cases hout
      rcases hf with hf | hf <;> simp [hf] at hg
    | cons g' rest' =>
      cases hout
      obtain ⟨hw,r,hr,-⟩ := h.offered g rest' rfl hg
      obtain ⟨r',htake⟩ := htakes .responder r
      refine ⟨?_,r',hr.snoc htake⟩
      rcases hf with hf | hf <;> simp [hw,Frame.granted,hf,StreamFrame.grants]

theorem heard (h : Flow theirs (some s) back out m) (hp : Paired (some s) theirs out back)
    (hready : ∀ s', after = some s' → s'.role = s.role ∧
      ∀ r, Lists.Along (Takes s.role) s.receiver back r →
        ∃ r', Lists.Along (Takes s.role) s'.receiver back r' ∧ ∀ t, theirs = some t →
          Matched t r (windows out) → Matched t r' (windows (out++[f]))) :
    Flow theirs after back (out++[f]) m := by
  constructor
  · intro s' hs'
    obtain ⟨hrole,hmove⟩ := hready s' hs'
    obtain ⟨r,hr,hm⟩ := h.ready s rfl
    obtain ⟨r',hr',hm'⟩ := hmove r hr
    rw [hrole]
    exact ⟨r',hr',fun t ht => hm' t ht (hm t ht)⟩
  · intro g rest hback hg
    have hnone := (hp.right.offered g rest hback hg).1
    cases hnone
  · exact h.initiator
  · exact h.responder
  · exact h.bound

theorem pull (h : Flow theirs mine (f::rest) out m) (hp : Paired mine theirs out (f::rest))
    (hafter : ∀ s', after = some s' → ∃ s, mine = some s ∧ s'.role = s.role ∧
      s'.receiver = s.receiver.after f.kind) : Flow theirs after rest out m := by
  constructor
  · intro s' hs'
    obtain ⟨s,hs,hrole,hstep⟩ := hafter s' hs'
    obtain ⟨r,hr,hm⟩ := h.ready s hs
    cases hr with
    | cons htake hrest =>
      rw [hrole,hstep,← htake.eq_after]
      exact ⟨r,hrest,hm⟩
  · intro g rest' hrest hg
    have hfirst := hp.right.first
    rw [hrest] at hfirst
    simp [hg] at hfirst
  · exact h.initiator
  · exact h.responder
  · exact h.bound

theorem moved (h : Flow (some s) theirs out (f::rest) n) (hp : Paired (some s) theirs out (f::rest))
    (hready : ∀ t r, theirs = some t → Lists.Along (Takes t.role) t.receiver out r →
      Matched s r (windows (f::rest)) → Matched s' r (windows rest))
    (hinit : s'.role = .initiator → s'.handshake = .opening → s'.sendCredit = 0)
    (hresp : s'.role = .responder → s'.handshake = .opening → s'.recvWindowRemaining = 0)
    (hbound : s'.recvWindowRemaining.toNat ≤ n) : Flow (some s') theirs out rest n := by
  constructor
  · intro t ht
    obtain ⟨r,hr,hm⟩ := h.ready t ht
    refine ⟨r,hr,?_⟩
    rintro _ ⟨⟩
    exact hready t r ht hr (hm s rfl)
  · intro g rest' hout hg
    have hback := (hp.left.offered g rest' hout hg).2.1
    cases hback
  · rintro _ ⟨⟩
    exact hinit
  · rintro _ ⟨⟩
    exact hresp
  · rintro _ ⟨⟩
    exact hbound

theorem forget (h : Flow mine theirs out back n) (back' : List Frame) :
    Flow none theirs out back' n := by
  apply absent
  · intro t ht
    obtain ⟨r,hr,-⟩ := h.ready t ht
    exact ⟨r,hr⟩
  · intro g rest hout hg
    obtain ⟨hw,r,hr,-⟩ := h.offered g rest hout hg
    exact ⟨hw,r,hr⟩

theorem unheard (h : Flow mine theirs out back n) (back' : List Frame) :
    Flow mine none out back' n := by
  constructor
  · rintro _ ⟨⟩
  · exact h.offered
  · exact h.initiator
  · exact h.responder
  · exact h.bound

end Flow

structure Flows (mine theirs : Option StreamSession) (out back : List Frame) (n m : ℕ) : Prop where
  paired : Paired mine theirs out back
  outward : Flow mine theirs out back n
  inward : Flow theirs mine back out m

namespace Flows
variable {s : StreamSession} {mine theirs after : Option StreamSession} {out back rest : List Frame}
  {f : Frame} {n m : ℕ}

theorem symm (h : Flows mine theirs out back n m) : Flows theirs mine back out m n :=
  ⟨h.paired.symm,h.inward,h.outward⟩

theorem established {t : StreamSession} {r : Receiver} {b : ℕ}
    (h : Flows (some s) (some t) out back n m) (hh : s.handshake = .established)
    (hr : Lists.Along (Takes t.role) t.receiver out r) (hm : Matched s r b) :
    r.established = true := by
  cases hrole : s.role with
  | responder => exact (hm.answered hrole).mpr hh
  | initiator =>
    have hack := h.paired.left.acks s t rfl rfl hrole
    have ht : t.handshake = .established := by
      cases ht : t.handshake with
      | established => rfl
      | opening =>
        simp only [hh,ht,Handshake.toNat] at hack
        omega
    refine along_established hr ?_
    simp [StreamSession.receiver,ht]

theorem sendData {next : UInt64} (h : Flows (some s) theirs out back n m)
    (hf : f.kind = .data) (hseq : f.header.seq = s.sendSeq) (hh : s.handshake = .established)
    (hl : s.localClosed = false) (hc : s.sendCredit ≠ 0) (hn : next.toNat = s.sendSeq.toNat+1) :
    Flow (some {s with sendCredit := s.sendCredit-1,sendSeq := next}) theirs (out++[f]) back n ∧
    Flow theirs (some {s with sendCredit := s.sendCredit-1,sendSeq := next}) back (out++[f]) m := by
  have hsub := toNat_sub_one hc
  have hlt := next.toNat_lt
  constructor
  · refine h.outward.push (by simp [hf]) h.paired ?_ ?_ ?_ ?_ (h.outward.bound s rfl)
    · rintro t r rfl hr hm
      have he := h.established hh hr hm
      refine ⟨_,.data hf he (hm.closed.trans hl) (by rw [hseq,hm.seq]) (by rw [hm.seq]; omega)
        (by rw [hm.window]; omega),?_,?_,?_,?_⟩
      · simp only [hm.seq,hn]
      · exact hm.closed
      · simp only [hm.window]
        omega
      · exact fun hrole => hm.answered hrole
    · intro hrole hopening
      rw [hh] at hopening
      cases hopening
    · intro hrole hopening
      simp only [hh] at hopening
      cases hopening
    · intro hrole hopening
      simp only [hh] at hopening
      cases hopening
  · refine h.inward.heard h.paired ?_
    rintro _ ⟨⟩
    refine ⟨rfl,fun r hr => ⟨r,hr,fun t _ hm => ⟨hm.seq,hm.closed,?_,hm.answered⟩⟩⟩
    simpa [Frame.granted,hf,StreamFrame.grants] using hm.window

theorem grantCredit {k : UInt32} (h : Flows (some s) theirs out back n m)
    (hf : f.kind = .credit) (hw : f.header.window = k) (hh : s.handshake = .established)
    (hn : n+k.toNat < 2^64) :
    Flow (some {s with recvWindowRemaining := saturatingAdd s.recvWindowRemaining k.toUInt64}) theirs
      (out++[f]) back (n+k.toNat) ∧
    Flow theirs (some {s with recvWindowRemaining := saturatingAdd s.recvWindowRemaining k.toUInt64})
      back (out++[f]) m := by
  have hbound := h.outward.bound s rfl
  have hadd : (saturatingAdd s.recvWindowRemaining k.toUInt64).toNat =
      s.recvWindowRemaining.toNat+k.toNat := by
    rw [saturatingAdd_toNat,UInt32.toNat_toUInt64]
    omega
  constructor
  · refine h.outward.push (by simp [hf]) h.paired ?_ ?_ ?_ ?_ (by simp only [hadd]; omega)
    · rintro t r rfl hr hm
      exact ⟨r,.credit hf (h.established hh hr hm),hm.seq,hm.closed,hm.window,hm.answered⟩
    · intro hrole hopening
      rw [hh] at hopening
      cases hopening
    · intro hrole hopening
      simp only [hh] at hopening
      cases hopening
    · intro hrole hopening
      simp only [hh] at hopening
      cases hopening
  · refine h.inward.heard h.paired ?_
    rintro _ ⟨⟩
    refine ⟨rfl,fun r hr => ?_⟩
    have hgrown : StreamSession.receiver {s with
        recvWindowRemaining := saturatingAdd s.recvWindowRemaining k.toUInt64} =
        {s.receiver with window := s.receiver.window+k.toNat} := by
      simp [StreamSession.receiver,hadd]
    rw [hgrown]
    refine ⟨_,along_grant hr k.toNat,fun t _ hm => ⟨hm.seq,hm.closed,?_,hm.answered⟩⟩
    simp only [hm.window,windows_append,windows_cons,windows_nil,Frame.granted,hf,StreamFrame.grants,
      if_true,hw]
    omega

theorem sendOpenAck {k : UInt32} (h : Flows (some s) theirs out back n m)
    (hf : f.kind = .openAck) (hw : f.header.window = k) (hrole : s.role = .responder)
    (hh : s.handshake = .opening) :
    Flow (some {s with handshake := .established,recvWindowRemaining := k.toUInt64}) theirs
      (out++[f]) back (n+k.toNat) ∧
    Flow theirs (some {s with handshake := .established,recvWindowRemaining := k.toUInt64})
      back (out++[f]) m := by
  have hzero := h.outward.responder s rfl hrole hh
  constructor
  · refine h.outward.push (by simp [hf]) h.paired ?_ ?_ ?_ ?_ ?_
    · rintro t r rfl hr hm
      have ht : t.role = .initiator := by
        have hne := h.paired.left.roles s t rfl rfl
        cases ht : t.role <;> simp_all
      have he : r.established = false := by
        cases he : r.established with
        | false => rfl
        | true =>
          have hest := (hm.answered hrole).mp he
          rw [hh] at hest
          cases hest
      exact ⟨_,.openAck hf ht he,hm.seq,hm.closed,hm.window,fun _ => ⟨fun _ => rfl,fun _ => rfl⟩⟩
    · intro hrole'
      rw [hrole] at hrole'
      cases hrole'
    · intro hrole'
      simp only [hrole] at hrole'
      cases hrole'
    · intro _ hopening
      cases hopening
    · simp
  · refine h.inward.heard h.paired ?_
    rintro _ ⟨⟩
    refine ⟨rfl,fun r hr => ?_⟩
    have hgrown : StreamSession.receiver {s with
        handshake := .established,recvWindowRemaining := k.toUInt64} =
        {s.receiver with established := true,window := s.receiver.window+k.toNat} := by
      simp [StreamSession.receiver,hzero]
    rw [hgrown]
    rw [hrole] at hr ⊢
    refine ⟨_,along_answer hr (by simp [StreamSession.receiver,hh]) k.toNat,?_⟩
    rintro t rfl hm
    have ht : t.role ≠ .responder := by
      have hne := h.paired.left.roles s t rfl rfl
      rw [hrole] at hne
      exact hne.symm
    refine ⟨hm.seq,hm.closed,?_,fun hr => absurd hr ht⟩
    simp only [hm.window,windows_append,windows_cons,windows_nil,Frame.granted,hf,StreamFrame.grants,
      if_true,hw]
    omega

theorem sendClose (h : Flows (some s) theirs out back n m) (hf : f.kind = .close) :
    Flow ({s with localClosed := true} : StreamSession).settle theirs (out++[f]) back n ∧
    Flow theirs ({s with localClosed := true} : StreamSession).settle back (out++[f]) m := by
  have hsame : windows (out++[f]) = windows out := by
    simp [Frame.granted,hf,StreamFrame.grants]
  constructor
  · rcases Bool.eq_false_or_eq_true s.remoteClosed with hr | hr
    · rw [StreamSession.settle_of_both (s:={s with localClosed := true}) rfl hr]
      exact h.outward.pushLast (Or.inl hf)
    · have halive := h.paired.left.alive s rfl
      rw [StreamSession.settle_of_half (s:={s with localClosed := true}) halive.1 fun _ => hr]
      refine h.outward.push (by simp [hf]) h.paired ?_ ?_ (h.outward.initiator s rfl)
        (h.outward.responder s rfl) (h.outward.bound s rfl)
      · intro t r _ _ hm
        exact ⟨_,.close hf,hm.seq,rfl,hm.window,hm.answered⟩
      · intro _ _
        refine ⟨by simp [Frame.granted,hf,StreamFrame.grants],rfl,rfl,fun r hm => ?_⟩
        exact ⟨_,.close hf,hm.seq,rfl,hm.window,hm.answered⟩
  · refine h.inward.heard h.paired fun s' hs' => ?_
    rw [StreamSession.settle_eq] at hs'
    split at hs'
    · cases hs'
    · cases hs'
      refine ⟨rfl,fun r hr => ⟨r,hr,fun t _ hm => ?_⟩⟩
      rw [hsame]
      exact hm

theorem sendOpen {w : UInt32} (hw : f.header.window = w) (n m : ℕ) :
    Flow (some (.initiator w)) none [f] [] (n+w.toNat) ∧
    Flow none (some (.initiator w)) [] [f] m := by
  constructor
  · constructor
    · rintro _ ⟨⟩
    · intro g rest hout hg
      cases hout
      refine ⟨rfl,_,.nil,?_⟩
      rintro _ ⟨⟩
      refine ⟨⟨rfl,rfl,rfl,?_⟩,rfl,?_⟩
      · intro hrole
        cases hrole
      · rw [hw]
        rfl
    · rintro _ ⟨⟩ _ _
      rfl
    · rintro _ ⟨⟩ hrole
      cases hrole
    · rintro _ ⟨⟩
      simp [StreamSession.initiator]
  · apply Flow.absent
    · rintro _ ⟨⟩
      exact ⟨_,.nil⟩
    · rintro _ _ ⟨⟩

theorem sends {r : Request} {after failed : Option StreamSession}
    (h : Flows mine theirs out back n m) (hs : Sends mine r f.header after failed)
    (hf : f.kind = r.kind) (hopen : r.kind = .open → theirs = none ∧ out = [] ∧ back = [])
    (hn : n+f.granted < 2^64) : Flows after theirs (out++[f]) back (n+f.granted) m := by
  have hpaired := h.paired.sends hs hf hopen
  generalize hhdr : f.header = hdr at hs
  have hzero (hk : f.kind.grants = false) : f.granted = 0 := by simp [Frame.granted,hk]
  have hgrant (hk : f.kind.grants = true) : f.granted = f.header.window.toNat := by
    simp [Frame.granted,hk]
  cases hs with
  | «open» w =>
    obtain ⟨rfl,rfl,rfl⟩ := hopen rfl
    have hw : f.header.window = w := by rw [hhdr]; rfl
    rw [hgrant (by rw [hf]; rfl),hw]
    obtain ⟨h₁,h₂⟩ := sendOpen hw n m
    exact ⟨hpaired,h₁,h₂⟩
  | live hsend =>
    cases hsend with
    | openAck w hrole hh =>
      have hw : f.header.window = w := by rw [hhdr]; rfl
      rw [hgrant (by rw [hf]; rfl),hw]
      obtain ⟨h₁,h₂⟩ := h.sendOpenAck hf hw hrole hh
      exact ⟨hpaired,h₁,h₂⟩
    | sendData payload next hh hl hc hnext =>
      rw [hzero (by rw [hf]; rfl)]
      obtain ⟨h₁,h₂⟩ := h.sendData hf (by rw [hhdr]; rfl) hh hl hc hnext
      exact ⟨hpaired,h₁,h₂⟩
    | grantCredit k hh =>
      have hw : f.header.window = k := by rw [hhdr]; rfl
      rw [hgrant (by rw [hf]; rfl),hw] at hn ⊢
      obtain ⟨h₁,h₂⟩ := h.grantCredit hf hw hh hn
      exact ⟨hpaired,h₁,h₂⟩
    | close hl =>
      rw [hzero (by rw [hf]; rfl)]
      obtain ⟨h₁,h₂⟩ := h.sendClose hf
      exact ⟨hpaired,h₁,h₂⟩
    | reset =>
      refine ⟨hpaired,h.outward.pushLast (Or.inr hf),h.inward.heard h.paired ?_⟩
      rintro _ ⟨⟩

theorem takes (h : Flows (some s) theirs out (f::rest) n m) : ∃ r, Takes s.role s.receiver f r := by
  obtain ⟨r,hr,-⟩ := h.inward.ready s rfl
  cases hr with
  | cons htake _ => exact ⟨_,htake⟩

end Flows

theorem Takes.recv {s : StreamSession} {f : Frame} {r : Receiver} (h : Takes s.role s.receiver f r)
    (hk : f.kind = .data ∨ f.kind = .credit ∨ f.kind = .openAck) :
    ∃ a s', s.Recv f.header f.kind a s' := by
  cases h with
  | data hk he hc hs hn hw =>
    simp only [StreamSession.receiver,decide_eq_true_eq] at he hc hs hn hw
    have hnext : (UInt64.ofNat (s.recvSeq.toNat+1)).toNat = s.recvSeq.toNat+1 := by
      rw [UInt64.toNat_ofNat']
      exact Nat.mod_eq_of_lt hn
    rw [hk]
    refine ⟨_,_,.data _ he hc (UInt64.toNat_inj.mp hs) ?_ hnext⟩
    rintro hz
    rw [hz] at hw
    cases hw
  | credit hk he =>
    rw [hk]
    exact ⟨_,_,.credit (by simpa [StreamSession.receiver] using he)⟩
  | openAck hk hr he =>
    rw [hk]
    refine ⟨_,_,.openAck hr ?_⟩
    cases hh : s.handshake with
    | opening => rfl
    | established => simp [StreamSession.receiver,hh] at he
  | close hk' => simp [hk'] at hk
  | reset hk' => simp [hk'] at hk

namespace Flows
variable {s : StreamSession} {mine theirs : Option StreamSession} {out back rest : List Frame}
  {f : Frame} {n m : ℕ}

theorem receiveOffer {w : UInt32} (h : Flows none theirs out (f::rest) n m) (hf : f.kind = .open)
    (hw : f.header.window = w) :
    Flow (some (.responder w)) theirs out rest n ∧ Flow theirs (some (.responder w)) rest out m := by
  obtain ⟨-,rfl,-,-,hopening⟩ := h.paired.right.offered f rest rfl hf
  obtain ⟨hzero,r,hr,hm⟩ := h.inward.offered f rest rfl hf
  constructor
  · constructor
    · intro t ht
      obtain ⟨hrole,hh,hclosed,-⟩ := hopening t ht
      obtain ⟨-,hseq,hwin⟩ := hm t ht
      refine ⟨_,.nil,?_⟩
      rintro _ ⟨⟩
      constructor
      · simp [StreamSession.receiver,StreamSession.responder,hseq]
      · simp [StreamSession.receiver,StreamSession.responder,hclosed]
      · simp [StreamSession.receiver,StreamSession.responder,hwin,hzero,hw]
      · simp [StreamSession.receiver,StreamSession.responder,hh]
    · rintro _ _ ⟨⟩
    · rintro _ ⟨⟩ hrole
      cases hrole
    · rintro _ ⟨⟩ _ _
      rfl
    · rintro _ ⟨⟩
      exact Nat.zero_le n
  · constructor
    · rintro _ ⟨⟩
      exact ⟨r,hr,fun t ht => (hm t ht).1⟩
    · intro g rest' hrest hg
      have hfirst := h.paired.right.first
      rw [hrest] at hfirst
      simp [hg] at hfirst
    · exact h.inward.initiator
    · exact h.inward.responder
    · exact h.inward.bound

theorem accepts_outward {s' : StreamSession} {a : Accepted}
    (h : Flows (some s) theirs out (f::rest) n m) (hreset : f.kind ≠ .reset)
    (hr : s.Recv f.header f.kind a s') : Flow (some s') theirs out rest n := by
  obtain ⟨r₁,htake⟩ := h.takes
  have hown := h.outward.initiator s rfl
  have hown' := h.outward.responder s rfl
  have hbound := h.outward.bound s rfl
  generalize hk : f.kind = kind at hr
  cases hr with
  | openAck hrole hh =>
    have hzero := hown hrole hh
    refine h.outward.moved h.paired (fun t r _ _ hm => ⟨hm.seq,hm.closed,?_,?_⟩) ?_ ?_ hbound
    · have hw := hm.window
      simp only [windows_cons,Frame.granted,hk,StreamFrame.grants,if_true,hzero] at hw
      simp only [hw,UInt32.toNat_toUInt64,UInt64.toNat_zero]
      omega
    · intro hrole'
      simp only [hrole] at hrole'
      cases hrole'
    · intro _ hopening
      cases hopening
    · intro _ hopening
      cases hopening
  | data next hh hc hseq hw hn =>
    refine h.outward.moved h.paired (fun t r _ _ hm => ⟨hm.seq,hm.closed,?_,hm.answered⟩) hown ?_ ?_
    · simpa [Frame.granted,hk,StreamFrame.grants] using hm.window
    · intro _ hopening
      simp only [hh] at hopening
      cases hopening
    · refine le_trans ?_ hbound
      have hsub := toNat_sub_one hw
      simp only
      omega
  | credit hh =>
    refine h.outward.moved h.paired (fun t r ht hr hm => ⟨hm.seq,hm.closed,?_,hm.answered⟩) ?_ hown'
      hbound
    · -- the peer's own window bounds what it can have granted
      have hw := hm.window
      have hle := (along_counts hr).2
      have hlt := t.recvWindowRemaining.toNat_lt
      simp only [windows_cons,Frame.granted,hk,StreamFrame.grants,if_true] at hw
      simp only [StreamSession.receiver] at hle
      rw [saturatingAdd_toNat,UInt32.toNat_toUInt64,hw]
      omega
    · intro _ hopening
      simp only [hh] at hopening
      cases hopening
  | close hh hc =>
    refine h.outward.moved h.paired (fun t r _ _ hm => ⟨hm.seq,hm.closed,?_,hm.answered⟩) hown hown'
      hbound
    simpa [Frame.granted,hk,StreamFrame.grants] using hm.window
  | closeAck hl => cases htake <;> simp_all
  | reset => exact absurd hk hreset

theorem accepts {s' : StreamSession} {a : Accepted} (h : Flows (some s) theirs out (f::rest) n m)
    (hreset : f.kind ≠ .reset) (hr : s.Recv f.header f.kind a s') :
    Flow (some s') theirs out rest n ∧ Flow theirs (some s') rest out m := by
  refine ⟨h.accepts_outward hreset hr,h.inward.pull h.paired ?_⟩
  rintro _ ⟨⟩
  exact ⟨s,rfl,hr.receiver⟩

/-- A frame taken keeps the flow both ways. -/
theorem receives {full : Bool} {payload : List UInt8} {reaction : Reaction}
    {slot : Option StreamSession} {reply : List Frame} (h : Flows mine theirs out (f::rest) n m)
    (hr : Receives mine full f.header payload f.kind reaction slot)
    (hreply : reaction.Replies reply) : Flows slot theirs (out++reply) rest n m := by
  have hpaired := h.paired.receives hr hreply
  have hgone : Flow none theirs out rest n ∧ Flow theirs none rest out m := by
    refine ⟨h.outward.forget rest,h.inward.pull h.paired ?_⟩
    rintro _ ⟨⟩
  have hsilent (hslot : slot = none) (he : reply = []) :
      Flow slot theirs (out++reply) rest n ∧ Flow theirs slot rest (out++reply) m := by
    subst hslot he
    simpa using hgone
  have hanswer {g : Frame} (hslot : slot = none) (he : reply = [g]) (hg : g.kind = .reset) :
      Flow slot theirs (out++reply) rest n ∧ Flow theirs slot rest (out++reply) m := by
    subst hslot he
    exact ⟨hgone.1.pushLast (Or.inr hg),hgone.2.unheard _⟩
  suffices hboth : Flow slot theirs (out++reply) rest n ∧ Flow theirs slot rest (out++reply) m from
    ⟨hpaired,hboth.1,hboth.2⟩
  generalize hk : f.kind = kind at hr
  cases hr with
  | peerReset hs => exact hsilent rfl hreply
  | strayReset cause hs => exact hsilent rfl hreply
  | stray cause hs hreset ho => exact hsilent rfl hreply
  | reopened cause hs =>
    obtain ⟨g,hg,hkind⟩ := hreply
    exact hanswer rfl hg hkind
  | refused cause hs hfull =>
    obtain ⟨g,hg,hkind⟩ := hreply
    exact hanswer rfl hg hkind
  | violated cause hs hreset ho hnot =>
    obtain ⟨g,hg,hkind⟩ := hreply
    exact hanswer rfl hg hkind
  | opened hs hfull =>
    subst hs
    cases hreply
    simpa using h.receiveOffer hk rfl
  | @accepted s s' _ a hs hreset halive hrecv =>
    subst hs
    cases hreply
    rw [← hk] at hrecv hreset
    obtain ⟨h₁,h₂⟩ := h.accepts hreset hrecv
    rw [List.append_nil,StreamSession.settle_eq]
    split
    · exact ⟨h₁.forget rest,h₂.unheard out⟩
    · exact ⟨h₁,h₂⟩

/-- DATA, CREDIT and OPEN_ACK are never answered with a RESET. -/
theorem unpunished {full : Bool} {payload : List UInt8} {cause : MessageError}
    {slot : Option StreamSession} (h : Flows mine theirs out (f::rest) n m)
    (hr : Receives mine full f.header payload f.kind (.reset cause) slot)
    (hk : f.kind = .data ∨ f.kind = .credit ∨ f.kind = .openAck) : False := by
  have hrecv : ∀ s, mine = some s → ∃ a s', s.Recv f.header f.kind a s' := by
    rintro s rfl
    obtain ⟨r,htake⟩ := h.takes
    exact htake.recv hk
  have hlive : ∀ s, mine = some s → s.reset = false := fun s hs => (h.paired.left.alive s hs).1
  generalize hkind : f.kind = kind at hr
  cases hr with
  | reopened cause hs => simp [hkind] at hk
  | refused cause hs hfull => simp [hkind] at hk
  | @violated s _ _ hs hreset ho hnot =>
    obtain ⟨a,s',hok⟩ := hrecv s hs
    rw [hkind] at hok
    exact hnot a s' (hlive s hs) hok

end Flows

namespace StreamPair
variable {σ σ' : StreamPair} {ls : List Label} {l : Label}

/-- The flow between both sides after the labels `ls`. -/
def Flowing (ls : List Label) (σ : StreamPair) : Prop :=
  ∀ x, Flows (σ.slot x) (σ.slot x.other) (σ.flight x) (σ.flight x.other) (granted x ls)
    (granted x.other ls)

theorem flowing_of (x : Side) (h : Flows (σ.slot x) (σ.slot x.other) (σ.flight x)
    (σ.flight x.other) (granted x ls) (granted x.other ls)) : Flowing ls σ := by
  intro y
  rcases Side.eq_or_other y x with rfl | rfl
  · exact h
  · simpa using h.symm

theorem Flowing.step (h : Flowing ls σ) (hs : Ordered σ l σ') (hopen : opened [l] ≠ 0 → σ = empty)
    (hlost : l ≠ .lost) (hn : ∀ y, granted y (ls++[l]) < 2^64) : Flowing (ls++[l]) σ' := by
  cases hs with
  | @sent x r f after failed hsend hkind hpayload =>
    refine flowing_of x ?_
    have hx : granted x (ls++[Label.sent x r f]) = granted x ls+f.granted := by
      simp [granted_snoc,Label.granted]
    have hother : granted x.other (ls++[Label.sent x r f]) = granted x.other ls := by
      simp [granted_snoc,Label.granted]
    have hbound := hn x
    rw [hx] at hbound ⊢
    rw [hother]
    have hsent := (h x).sends hsend hkind (fun hk => by
      obtain rfl := hopen (by cases x <;> simp [opened,opens,Label.opens,hk])
      exact ⟨rfl,rfl,rfl⟩) hbound
    simpa using hsent
  | @received y f full reaction slot rest reply hflight hrecv hreply =>
    refine flowing_of y ?_
    have hsame : ∀ z, granted z (ls++[Label.received y (σ.slot y) f reaction]) = granted z ls := by
      intro z
      simp [granted_snoc,Label.granted]
    rw [hsame,hsame]
    have hy := h y
    rw [hflight] at hy
    simpa using hy.receives hrecv hreply
  | skipped hflight hk hbig => exact absurd rfl hlost

theorem OrderedRun.flowing (h : OrderedRun empty ls σ) (honce : opened ls ≤ 1) (hlost : .lost ∉ ls)
    (hn : ∀ y, granted y ls < 2^64) : Flowing ls σ := by
  induction h with
  | nil => exact fun _ => ⟨Paired.empty,Flow.empty 0,Flow.empty 0⟩
  | @snoc ls σ σ' l hr hs ih =>
    rw [opened_append] at honce
    have hbefore : ∀ y, granted y ls < 2^64 := by
      intro y
      have hy := hn y
      rw [granted_snoc] at hy
      omega
    have hflow := ih (by omega) (fun hmem => hlost (by simp [hmem])) hbefore
    exact hflow.step hs (fun hl => hr.unopened (by omega)) (fun hl => hlost (by simp [hl])) hn

end StreamPair
end DigMessage
