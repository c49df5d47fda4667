import DigMessage.LinkDrain

/-! One request between joined endpoints at rest: an allowed call is sealed, its frame is taken by
the peer, and nothing else is touched. -/
namespace DigMessage
open FixedWidth

section
variable {SK : Type} {P : Primitives SK}

theorem StreamSession.Recv.unique {s s₁ s₂ : StreamSession} {hdr : StreamHeader}
    {frame : StreamFrame} {a₁ a₂ : Accepted} (hr : s.reset = false) (h₁ : s.Recv hdr frame a₁ s₁)
    (h₂ : s.Recv hdr frame a₂ s₂) : a₁ = a₂ ∧ s₁ = s₂ := by
  have h := onRecv_of_recv hr h₁
  rw [onRecv_of_recv hr h₂,Option.some.injEq,Prod.mk.injEq,Except.ok.injEq] at h
  exact ⟨h.1.symm,h.2.symm⟩

theorem StreamSession.Send.unique {s s₁ s₂ : StreamSession} {r : Request} (h₁ : s.Send r s₁)
    (h₂ : s.Send r s₂) : s₁ = s₂ := by
  cases h₁ with
  | sendData payload next hh hl hc hn =>
    cases h₂ with
    | sendData _ next' _ _ _ hn' => rw [UInt64.toNat_inj.mp (hn.trans hn'.symm)]
  | openAck w hr hh => cases h₂; rfl
  | grantCredit n hh => cases h₂; rfl
  | close hl => cases h₂; rfl
  | reset => cases h₂; rfl

theorem StreamSession.Send.allowed {s s' : StreamSession} {r : Request} {e : StreamEndpoint SK}
    {c : Bytes32} (h : s.Send r s') (hs : e.session c = some s) : r.Allowed e c := by
  cases h with
  | openAck w hr hh => exact ⟨s,hs,hr,hh⟩
  | sendData payload next hh hl hc hn => exact ⟨s,hs,hh,hl,hc⟩
  | grantCredit n hh => exact ⟨s,hs,hh⟩
  | close hl => exact ⟨s,hs,hl⟩
  | reset => exact ⟨s,hs,trivial⟩

theorem Sends.live_cases {s : StreamSession} {r : Request} {hdr : StreamHeader}
    {after failed : Option StreamSession} (h : Sends (some s) r hdr after failed) :
    ∃ s', s.Send r s' ∧ after = r.settle s' := by
  cases h with
  | live hs => exact ⟨_,hs,rfl⟩

namespace Receives
variable {slot slot' : Option StreamSession} {full : Bool} {hdr : StreamHeader}
    {payload : List UInt8}
  {frame : StreamFrame} {reaction : Reaction}

theorem of_recv {s s' : StreamSession} {a : Accepted}
    (h : Receives slot full hdr payload frame reaction slot')
    (hs : slot = some s) (hf : frame ≠ .reset) (hr : s.reset = false)
    (hrecv : s.Recv hdr frame a s') :
    reaction = .event (toEvent a payload) ∧ slot' = s'.settle := by
  subst hs
  cases h with
  | peerReset hs => exact absurd rfl hf
  | strayReset cause hs => exact absurd rfl hf
  | reopened cause hs => cases hrecv
  | refused cause hs hfull => cases hs
  | opened hs hfull => cases hs
  | stray cause hs _ ho => cases hs
  | accepted hs _ _ hrecv' =>
    cases hs
    obtain ⟨rfl,rfl⟩ := hrecv.unique hr hrecv'
    exact ⟨rfl,rfl⟩
  | violated cause hs _ ho hno =>
    cases hs
    exact absurd hrecv (hno a s' hr)

theorem of_open (h : Receives slot full hdr payload .open reaction slot') (hs : slot = none)
    (hfull : full = false) : reaction = .event .opened ∧ slot' = some (.responder hdr.window) := by
  subst hs
  subst hfull
  cases h with
  | opened hs hfull => exact ⟨rfl,rfl⟩
  | reopened cause hs => cases hs
  | refused cause hs hfull => cases hfull
  | accepted hs _ _ hrecv => cases hs
  | stray cause hs _ ho => exact absurd rfl ho
  | violated cause hs _ ho hno => exact absurd rfl ho

end Receives

def Request.granted : Request → ℕ
  | .open w | .openAck w | .grantCredit w => w.toNat
  | _ => 0

theorem Request.granted_frame (r : Request) (counter seq : UInt64) (payload : List UInt8) :
    Frame.granted ⟨counter,r.kind,r.header seq,payload⟩ = r.granted := by cases r <;> rfl

def StreamEvent.payload? : StreamEvent → Option (List UInt8)
  | .data payload => some payload
  | _ => none

variable (P)

inductive Onward (party : Side → Party SK) (st : LinkState SK) : LinkState SK → Prop
  | call {x : Side} {ev : Event SK} {e' : StreamEndpoint SK} {c : Bytes32} {r : Request}
      {nowMs expiresAt : UInt64} {entropy : Except String Bytes32} : ev.before = st.world x →
      ev.input = .call c r nowMs expiresAt entropy →
      ev.input.perform P ev.before = some (ev.outcome,e') → ev.Seals e' →
      Onward party st (st.record x ev e' st.channels)
  | deliver {y : Side} {st' : LinkState SK} : Delivery P party st y st' → Onward party st st'

/-- Calls and deliveries, any number of them. -/
abbrev Leads (party : Side → Party SK) : LinkState SK → LinkState SK → Prop :=
  Relation.ReflTransGen (Onward P party)

/-- Each side can seal any frame to its peer: its keys are good and the system has entropy. -/
def SealsFrames (party : Side → Party SK) : Prop :=
  ∀ (y : Side) (e : StreamEndpoint SK) (c : Bytes32) (hdr : StreamHeader) (payload : List UInt8)
    (nowMs : UInt64), (party y).Owns P (party y.other) e → payload.length ≤ maxDecompressedBytes →
    ∃ ikm env, sealMessage P (.ok ikm) (e.frameParams c hdr payload nowMs 0) = .ok env

/-- A state that was reached and in which nothing is under way. -/
structure Resting (party : Side → Party SK) (st : LinkState SK) : Prop where
  linked : Linked P party st.history st.world st.channels
  bounded : Bounded st.history
  idle : ∀ x, st.channels x = []

/-- Side `x` made the request `r` on stream `c`, and its peer reported `event`: all that became of
the two endpoints. -/
structure Exchanged (party : Side → Party SK) (c : Bytes32) (x : Side) (r : Request)
    (mine theirs : Option StreamSession) (event : StreamEvent) (st st' : LinkState SK) : Prop where
  leads : Leads P party st st'
  idle : ∀ z, st'.channels z = []
  length : st'.history.length = st.history.length+2
  caller : (st'.world x).sessions = putSession (st.world x).sessions c mine
  called : (st'.world x.other).sessions = putSession (st.world x.other).sessions c theirs
  opened : ∀ d, timesOpened d st'.history =
    timesOpened d st.history+if c = d ∧ r.kind = .open then 1 else 0
  windows : ∀ d z, windowsSealed z d st'.history =
    windowsSealed z d st.history+if x = z ∧ c = d then r.granted else 0
  small : Oversize st'.history → Oversize st.history
  reported : ∀ d z, payloadsReported z d st'.history =
    payloadsReported z d st.history++(if x.other = z ∧ c = d then event.payload? else none).toList

variable {P} {party : Side → Party SK} {st st' : LinkState SK}

theorem SealsFrames.resets (h : SealsFrames P party) : SealsResets P party :=
  fun y e c nowMs he => h y e c (header .reset 0 0) [] nowMs he (Nat.zero_le _)

theorem Onward.linked (hs : Onward P party st st')
    (h : Linked P party st.history st.world st.channels) :
    Linked P party st'.history st'.world st'.channels := by
  cases hs with
  | call hb hi hp hseals => exact h.call hb hi hp hseals
  | deliver hd => exact hd.linked h

theorem Leads.linked (hs : Leads P party st st')
    (h : Linked P party st.history st.world st.channels) :
    Linked P party st'.history st'.world st'.channels := by
  induction hs with
  | refl => exact h
  | tail _ hs ih => exact hs.linked ih

def requested (e : StreamEndpoint SK) (c : Bytes32) (r : Request) (ikm : Bytes32)
    (env : DigMessageEnvelope) : Event SK := ⟨e,.call c r 0 0 (.ok ikm),.called (.ok env)⟩

section
variable (e : StreamEndpoint SK) (c d : Bytes32) (r : Request) (ikm : Bytes32)
    (env : DigMessageEnvelope)

@[simp] theorem requested_sealed : (requested e c r ikm env).sealed? =
    some (sealedFrame e c r.kind (r.header (nextSeq e c)) r.payload 0 0 env) := rfl

@[simp] theorem requested_opens : (requested e c r ikm env).opens d =
    decide (c = d ∧ r.kind = .open) := by
  cases r <;> simp [requested,Event.opens,Request.kind]

@[simp] theorem requested_dataReported : (requested e c r ikm env).dataReported? d = none := by
  cases r <;> rfl

end

theorem Resting.calls (h : Resting P party st) (hseal : SealsFrames P party) {c : Bytes32}
    {x : Side} {r : Request} (ha : r.Allowed (st.world x) c)
    (hsmall : r.payload.length ≤ maxDecompressedBytes) (hroom : st.history.length+1 < 2^64) :
    ∃ ikm env e' after failed,
      Onward P party st (st.record x (requested (st.world x) c r ikm env) e' st.channels) ∧
      Sends ((st.world x).session c) r (r.header (nextSeq (st.world x) c)) after failed ∧
      e'.sessions = putSession (st.world x).sessions c after := by
  obtain ⟨ikm,env,henv⟩ := hseal x (st.world x) c (r.header (nextSeq (st.world x) c)) r.payload 0
    (h.linked.owns x) hsmall
  obtain ⟨out,e',hp⟩ := (h.linked.within x).runs (P:=P) hroom (.call c r 0 0 (.ok ikm))
  obtain ⟨rfl,after,failed,hsend,hafter⟩ := StreamEndpoint.call_made ha henv hp
  have hseals : (requested (st.world x) c r ikm env).Seals e' := by
    refine ⟨fun err hout => ?_,fun err hout => ?_⟩
    · cases hout
    · cases hout
  exact ⟨ikm,env,e',after,failed,.call rfl rfl hp hseals,hsend,hafter⟩

theorem Resting.settling (h : Resting P party st) {c : Bytes32} {x : Side} {r : Request}
    {ikm : Bytes32} {env : DigMessageEnvelope} {e' : StreamEndpoint SK}
    (hcall : Onward P party st (st.record x (requested (st.world x) c r ikm env) e' st.channels))
    (hroom : st.history.length+3 < 2^64) :
    Settling P party (st.record x (requested (st.world x) c r ikm env) e' st.channels) := by
  have hother : x.other ≠ x := Side.other_ne x
  have hload : (st.record x (requested (st.world x) c r ikm env) e' st.channels).channels.load ≤ 2 := by
    rw [Channels.load_eq _ x]
    simp only [LinkState.record,Function.update_self,ne_eq,hother,not_false_eq_true,
      Function.update_of_ne,h.idle,List.nil_append,requested_sealed,Option.toList_some,loadOf_cons,
      loadOf_nil,Frame.load]
    split <;> omega
  refine ⟨hcall.linked h.linked,fun z s hs => Or.inl ?_,?_⟩
  · rcases Side.eq_or_other z x with rfl | rfl
    · simp only [LinkState.record,Function.update_self,h.idle,List.nil_append,requested_sealed,
        Option.toList_some,List.mem_singleton] at hs
      subst hs
      rfl
    · simp [LinkState.record,hother,h.idle] at hs
  · simp only [LinkState.record] at hload ⊢
    rw [List.length_append,List.length_singleton]
    omega

/-- An allowed request is sealed and delivered, and where its frame can only be reported, nothing is
left under way. -/
theorem Resting.exchange (hP : P.Lawful) (h : Resting P party st) (hseal : SealsFrames P party)
    {c : Bytes32} {x : Side} {r : Request} {mine theirs : Option StreamSession}
    {event : StreamEvent} (ha : r.Allowed (st.world x) c)
    (hsmall : r.payload.length ≤ maxDecompressedBytes) (hroom : st.history.length+3 < 2^64)
    (hsend : ∀ after failed, Sends ((st.world x).session c) r (r.header (nextSeq (st.world x) c)) after
      failed → after = mine)
    (hrecv : ∀ reaction slot, Receives ((st.world x.other).session c)
      (decide ((st.world x.other).sessions.keys.card ≥ (st.world x.other).maxConcurrent))
      (r.header (nextSeq (st.world x) c)) r.payload r.kind reaction slot →
      reaction = .event event ∧ slot = theirs) :
    ∃ st', Exchanged P party c x r mine theirs event st st' := by
  obtain ⟨ikm,env,e₁,after,failed,hcall,hs,hafter⟩ := h.calls hseal ha hsmall (by omega)
  obtain rfl := hsend after failed hs
  have hlinked := hcall.linked h.linked
  have hother : x.other ≠ x := Side.other_ne x
  obtain ⟨st',hd⟩ := (h.settling hcall hroom).progress (y:=x.other) hseal.resets
    (by simp [LinkState.record])
  refine ⟨st',?_⟩
  have honward : Leads P party st st' := .tail (.single hcall) (.deliver hd)
  cases hd with
  | @mk s rest ev e₂ hd hp hseals =>
    have hch := hd.oldest
    simp only [LinkState.record,Side.other_other,Function.update_self,h.idle,List.nil_append,
      requested_sealed,Option.toList_some,List.cons.injEq] at hch
    obtain ⟨rfl,rfl⟩ := hch
    have hbefore : ev.before = st.world x.other := by
      rw [hd.before]
      simp [LinkState.record,hother]
    obtain ⟨resolveSenderPub,nowMs,order,entropy,-,-,-,hi⟩ := hd.presented
    obtain ⟨_,-,-,-,hbig⟩ | ⟨reaction,slot,res,hout,ht⟩ := hlinked.arrives hP hd hp
    · exact absurd hsmall (Nat.not_le.mpr hbig)
    · have hreceives := ht.receives
      rw [hbefore] at hreceives
      obtain ⟨rfl,rfl⟩ := hrecv reaction slot hreceives
      have hres : res = .ok (.event event) := ht.reported
      rw [hres] at hout
      have hquiet : ev.sealed? = none := by simp [Event.sealed?,hi,hout]
      have hcid : env.correlationId = c := by
        have hsound := hlinked.sound x (sealedFrame (st.world x) c r.kind
          (r.header (nextSeq (st.world x) c)) r.payload 0 0 env) (by simp [LinkState.record])
        exact hsound.correlationId
      have hopens : ∀ d, ev.opens d = false := fun d => by simp [Event.opens,hi]
      have hread : ∀ d, ev.dataReported? d = if c = d then event.payload? else none := by
        intro d
        cases event <;> simp [Event.dataReported?,hi,hout,StreamEvent.payload?,sealedFrame,hcid]
      constructor
      · exact honward
      · intro z
        rcases Side.eq_or_other z x with rfl | rfl <;> simp [LinkState.record,hother,h.idle,hquiet]
      · simp [LinkState.record]
      · simp [LinkState.record,hother.symm,hafter]
      · simp [LinkState.record,ht.sessions,hbefore,sealedFrame,StreamEndpoint.frameParams]
      · intro d
        simp only [LinkState.record,timesOpened_snoc,requested_opens,hopens,decide_eq_true_eq,
          Bool.false_eq_true,if_false,Nat.add_zero]
      · intro d z
        simp only [LinkState.record,windowsSealed_snoc,hquiet,requested_sealed,Option.map_none,
          Option.map_some,Option.getD_none,Option.getD_some,ite_self,Nat.add_zero,SealedFrame.grantedOn,
          sealedFrame,StreamEndpoint.frameParams,Request.granted_frame,ite_and]
      · rintro ⟨z,t,hmem,hbig⟩
        simp only [LinkState.record,sealedBy_snoc,hquiet,requested_sealed,ite_self,Option.toList_none,
          List.append_nil,List.mem_append,Option.mem_toList] at hmem
        rcases hmem with hmem | hmem
        · exact ⟨z,t,hmem,hbig⟩
        · split at hmem
          · cases hmem
            exact absurd hsmall (Nat.not_le.mpr hbig)
          · cases hmem
      · intro d z
        simp only [LinkState.record,payloadsReported,observe_snoc,requested_dataReported,hread,ite_self,
          Option.toList_none,List.append_nil,ite_and]

/-- What `s` and the peer's `t` are to each other with nothing under way. -/
structure StreamSession.Facing (s t : StreamSession) : Prop where
  ends : s.Ends t
  alive : s.reset = false ∧ (s.localClosed = true → s.remoteClosed = false)
  seq : s.sendSeq = t.recvSeq
  credit : s.handshake = .established → s.sendCredit = t.recvWindowRemaining

namespace Resting
variable {c : Bytes32} {x : Side} {s t : StreamSession}

theorem paired (hP : P.Lawful) (h : Resting P party st) (c : Bytes32) (x : Side) :
    Paired ((st.world x).session c) ((st.world x.other).session c) [] [] := by
  have hpair := h.linked.agreed hP (h.bounded.once c) x
  change Paired _ _ (framesOn c (st.channels x)) (framesOn c (st.channels x.other)) at hpair
  rw [h.idle,h.idle] at hpair
  exact hpair

theorem facing (hP : P.Lawful) (h : Resting P party st) (hs : (st.world x).session c = some s)
    (ht : (st.world x.other).session c = some t) : s.Facing t := by
  have hpair := h.paired hP c x
  have hbalanced := h.linked.balanced hP h.bounded c x
  have hseq := hbalanced.seq s t hs ht
  rw [h.idle,framesOn_nil,tally_nil] at hseq
  refine ⟨hpair.at_rest.2 s t hs ht,hpair.left.alive s hs,UInt64.toNat_inj.mp hseq,fun hh => ?_⟩
  have hcredit := hbalanced.credit s t hs ht (Or.inr hh)
  rw [h.idle,h.idle,framesOn_nil,tally_nil] at hcredit
  exact UInt64.toNat_inj.mp hcredit

theorem peer (hP : P.Lawful) (h : Resting P party st) (hs : (st.world x).session c = some s) :
    ∃ t, (st.world x.other).session c = some t ∧ s.Facing t ∧ t.Facing s := by
  cases ht : (st.world x.other).session c with
  | none =>
    rw [(h.paired hP c x).at_rest.1.mpr ht] at hs
    cases hs
  | some t =>
    refine ⟨t,rfl,h.facing hP hs ht,h.facing (x:=x.other) hP ht ?_⟩
    rwa [Side.other_other]

variable (hP : P.Lawful) (hseal : SealsFrames P party) (h : Resting P party st)
include hP hseal h

/-- A request that moves the session of its caller, and whose frame moves that of the peer. -/
theorem moves {r : Request} {s' t' : StreamSession} {theirs : Option StreamSession} {a : Accepted}
    (hs : (st.world x).session c = some s) (ht : (st.world x.other).session c = some t)
    (hsend : s.Send r s') (hrecv : t.Recv (r.header s.sendSeq) r.kind a t') (hr : r.kind ≠ .reset)
    (hsettle : t'.settle = theirs) (hsmall : r.payload.length ≤ maxDecompressedBytes)
    (hroom : st.history.length+3 < 2^64) :
    ∃ st', Exchanged P party c x r (r.settle s') theirs (toEvent a r.payload) st st' := by
  have hseq : nextSeq (st.world x) c = s.sendSeq := by
    change (((st.world x).session c).map StreamSession.sendSeq).getD 0 = _
    rw [hs]
    rfl
  have halive := (h.facing (x:=x.other) hP ht (by rwa [Side.other_other])).alive
  refine h.exchange hP hseal (hsend.allowed hs) hsmall hroom (fun after failed hsends => ?_)
    fun reaction slot hr' => ?_
  · rw [hs] at hsends
    obtain ⟨s'',hsend',rfl⟩ := hsends.live_cases
    rw [hsend.unique hsend']
  · rw [hseq] at hr'
    obtain ⟨rfl,rfl⟩ := hr'.of_recv ht hr halive.1 hrecv
    exact ⟨rfl,hsettle⟩

theorem grants (hs : (st.world x).session c = some s) (hh : s.handshake = .established) (n : UInt32)
    (hroom : st.history.length+3 < 2^64) : ∃ t st', (st.world x.other).session c = some t ∧
      Exchanged P party c x (.grantCredit n)
        (some {s with recvWindowRemaining := saturatingAdd s.recvWindowRemaining n.toUInt64})
        (some {t with sendCredit := saturatingAdd t.sendCredit n.toUInt64})
        (.creditGranted n.toUInt64) st st' := by
  obtain ⟨t,ht,hst,hts⟩ := h.peer hP hs
  obtain ⟨st',he⟩ := h.moves hP hseal hs ht (.grantCredit n hh) (.credit (hst.ends.handshake ▸ hh))
    (by simp [Request.kind]) (StreamSession.settle_of_half hts.alive.1 hts.alive.2)
    (Nat.zero_le _) hroom
  exact ⟨t,st',ht,he⟩

theorem sends (hs : (st.world x).session c = some s) (hh : s.handshake = .established)
    (hopen : s.localClosed = false) (hcredit : s.sendCredit ≠ 0) {payload : List UInt8}
    (hsmall : payload.length ≤ maxDecompressedBytes) (hroom : st.history.length+3 < 2^64) :
    ∃ t next st', (st.world x.other).session c = some t ∧
      Exchanged P party c x (.sendData payload)
        (some {s with sendCredit := s.sendCredit-1,sendSeq := next})
        (some {t with recvWindowRemaining := t.recvWindowRemaining-1,recvSeq := next})
        (.data payload)
        st st' := by
  obtain ⟨t,ht,hst,hts⟩ := h.peer hP hs
  have hwithin := ((h.linked.within x).sessions c s hs).sendSeq
  obtain ⟨next,hnext⟩ : ∃ next, checkedAdd s.sendSeq 1 = some next := ⟨_,if_pos (by
    change s.sendSeq.toNat+1 < 2^64
    omega)⟩
  have hn : next.toNat = s.sendSeq.toNat+1 := checkedAdd_eq_some.mp hnext
  obtain ⟨st',he⟩ := h.moves hP hseal hs ht (.sendData payload next hh hopen hcredit hn)
    (.data next (hst.ends.handshake ▸ hh) (hst.ends.outgoing ▸ hopen) hst.seq
      (hst.credit hh ▸ hcredit) (hst.seq ▸ hn)) (by simp [Request.kind])
    (StreamSession.settle_of_half hts.alive.1 hts.alive.2) hsmall hroom
  exact ⟨t,next,st',ht,he⟩

theorem closes (hs : (st.world x).session c = some s) (hh : s.handshake = .established)
    (hopen : s.localClosed = false) (hroom : st.history.length+3 < 2^64) :
    ∃ t st', (st.world x.other).session c = some t ∧
      Exchanged P party c x .close ({s with localClosed := true} : StreamSession).settle
        ({t with remoteClosed := true} : StreamSession).settle .remoteClosed st st' := by
  obtain ⟨t,ht,hst,hts⟩ := h.peer hP hs
  obtain ⟨st',he⟩ := h.moves hP hseal hs ht (.close hopen)
    (.close (hst.ends.handshake ▸ hh) (hst.ends.outgoing ▸ hopen)) (by simp [Request.kind]) rfl
    (Nat.zero_le _) hroom
  exact ⟨t,st',ht,he⟩

theorem opens (hs : (st.world x).session c = none)
    (hfree : ∀ z, (st.world z).sessions.keys.card < (st.world z).maxConcurrent) (w : UInt32)
    (hroom : st.history.length+3 < 2^64) :
    ∃ st', Exchanged P party c x (.open w) (some (.initiator w)) (some (.responder w)) .opened
      st st' := by
  have ht := (h.paired hP c x).at_rest.1.mp hs
  refine h.exchange hP hseal (r:=.open w) ⟨Finmap.lookup_eq_none.mp hs,hfree x⟩
    (Nat.zero_le _) hroom
    (fun after failed hsends => ?_) fun reaction slot hr => ?_
  · rw [hs] at hsends
    cases hsends
    rfl
  · exact hr.of_open ht (by simpa using hfree x.other)

end Resting

end
end DigMessage
