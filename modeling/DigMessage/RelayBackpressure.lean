import DigMessage.EndpointBinding
import DigMessage.RelayDelivery

/-! Credit under the relay: every DATA frame a side seals is covered by a window its peer sealed
for that stream, and each window counts once, when its frame is admitted. -/
namespace DigMessage
open FixedWidth

/-- The kinds that carry a window for the receiver to spend. -/
def StreamFrame.grants : StreamFrame → Bool
  | .open | .openAck | .credit => true
  | _ => false

def Frame.granted (f : Frame) : ℕ := if f.kind.grants then f.header.window.toNat else 0

def slotCredit (slot : Option StreamSession) : ℕ := (slot.map fun s => s.sendCredit.toNat).getD 0

@[simp] theorem slotCredit_none : slotCredit none = 0 := rfl
@[simp] theorem slotCredit_some (s : StreamSession) : slotCredit (some s) = s.sendCredit.toNat := rfl

theorem slotCredit_settle_le (s : StreamSession) : slotCredit s.settle ≤ s.sendCredit.toNat := by
  unfold StreamSession.settle
  split
  · exact Nat.zero_le _
  · exact le_rfl

theorem Sends.credit_le {slot after failed : Option StreamSession} {r : Request} {hdr : StreamHeader}
    (h : Sends slot r hdr after failed) :
    slotCredit after+(if r.kind = .data then 1 else 0) ≤ slotCredit slot ∧
    slotCredit failed ≤ slotCredit slot := by
  cases h with
  | «open» w => exact ⟨le_rfl,le_rfl⟩
  | @live s s' r hs =>
    cases hs with
    | openAck w hr hh => exact ⟨le_rfl,le_rfl⟩
    | sendData payload next hh hl hc hn =>
      have hsub := toNat_sub_one hc
      simp only [Request.settle,slotCredit_some,Request.kind,if_true]
      omega
    | grantCredit n hh => exact ⟨le_rfl,le_rfl⟩
    | close hl => exact ⟨slotCredit_settle_le _,le_rfl⟩
    | reset => exact ⟨Nat.zero_le _,le_rfl⟩

theorem Receives.credit_le {slot slot' : Option StreamSession} {full : Bool} {f : Frame}
    {reaction : Reaction} (h : Receives slot full f.header f.payload f.kind reaction slot') :
    slotCredit slot' ≤ slotCredit slot+f.granted := by
  unfold Frame.granted
  generalize f.kind = kind at h
  cases h with
  | peerReset hs => exact Nat.zero_le _
  | strayReset cause hs => exact Nat.zero_le _
  | reopened cause hs => exact Nat.zero_le _
  | refused cause hs hf => exact Nat.zero_le _
  | stray cause hs hf ho => exact Nat.zero_le _
  | violated cause hs hf ho hno => exact Nat.zero_le _
  | opened hs hf =>
    have hwide := UInt32.toNat_toUInt64 f.header.window
    simp only [slotCredit_some,StreamSession.responder,hwide,StreamFrame.grants,if_true]
    omega
  | @accepted s s' _ a hs hf hreset hrecv =>
    have hwide := UInt32.toNat_toUInt64 f.header.window
    refine (slotCredit_settle_le s').trans ?_
    rw [hs,slotCredit_some]
    cases hrecv with
    | openAck hr hh =>
      simp only [hwide,StreamFrame.grants,if_true]
      omega
    | data next hh hrc hseq hw hn => exact Nat.le_add_right _ _
    | credit hh =>
      have hadd := saturatingAdd_toNat s.sendCredit f.header.window.toUInt64
      simp only [hadd,hwide,StreamFrame.grants,if_true]
      omega
    | close hh hrc => exact Nat.le_add_right _ _
    | closeAck hl => exact Nat.le_add_right _ _
    | reset => exact Nat.le_add_right _ _

section
variable {SK : Type}

def SealedFrame.isData (c : Bytes32) (s : SealedFrame SK) : Bool :=
  decide (s.params.correlationId = c ∧ s.frame.kind = .data)

def SealedFrame.grantedOn (c : Bytes32) (s : SealedFrame SK) : ℕ :=
  if s.params.correlationId = c then s.frame.granted else 0

def dataSealed (x : Side) (c : Bytes32) (tr : History SK) : ℕ :=
  (sealedBy x tr).countP (SealedFrame.isData c)

/-- The windows a side has sealed for a stream: of its OPEN or OPEN_ACK, and of its CREDITs. -/
def windowsSealed (y : Side) (c : Bytes32) (tr : History SK) : ℕ :=
  ((sealedBy y tr).map (SealedFrame.grantedOn c)).sum

/-- The windows sealed for side `x` whose frames its table has seen. -/
def windowsSeen (party : Side → Party SK) (x : Side) (c : Bytes32) (tr : History SK) (w : World SK) :
    ℕ :=
  (((sealedBy x.other tr).filter fun s =>
    decide ((w x).guard.Seen (party x.other).key s.frame.counter)).map (SealedFrame.grantedOn c)).sum

theorem windowsSeen_le (party : Side → Party SK) (x : Side) (c : Bytes32) (tr : History SK)
    (w : World SK) : windowsSeen party x c tr w ≤ windowsSealed x.other c tr := by
  have hsub := Lists.sum_filter_le (l:=sealedBy x.other tr) (SealedFrame.grantedOn c)
    (q:=fun _ => true)
    fun s _ (_ : decide ((w x).guard.Seen (party x.other).key s.frame.counter) = true) => rfl
  simpa [windowsSeen,windowsSealed] using hsub

theorem dataSealed_snoc (x y : Side) (c : Bytes32) (tr : History SK) (ev : Event SK) :
    dataSealed x c (tr++[(y,ev)]) = dataSealed x c tr+
      (if y = x then ev.sealed? else none).toList.countP (SealedFrame.isData c) := by
  rw [dataSealed,sealedBy_snoc,List.countP_append]
  rfl

variable {P : Primitives SK} {party : Side → Party SK} {tr : History SK} {w : World SK}

theorem openAck_of_sealed {ev : Event SK} {s : SealedFrame SK} (hs : ev.sealed? = some s)
    (hk : s.frame.kind = .openAck) : ∃ nowMs expiresAt entropy,
    ev.input = .call s.params.correlationId (.openAck s.frame.header.window) nowMs expiresAt entropy ∧
    ev.outcome = .called (.ok s.envelope) := by
  unfold Event.sealed? at hs
  split at hs
  · rename_i c r nowMs expiresAt entropy envelope hi hout
    cases hs
    cases r with
    | openAck window => exact ⟨_,_,_,hi,hout⟩
    | «open» window => cases hk
    | sendData payload => cases hk
    | grantCredit n => cases hk
    | close => cases hk
    | reset => cases hk
  · cases hs
    cases hk
  · cases hs

/-- What a call seals and what it leaves of the credit come out of the credit before it. -/
theorem Called.credit_le {entropy : Except String Bytes32} {d : Bytes32} {nowMs expiresAt : UInt64}
    {r : Request} {ev : Event SK} {res : Except MessageError DigMessageEnvelope}
    {e' : StreamEndpoint SK} (hi : ev.input = .call d r nowMs expiresAt entropy)
    (hout : ev.outcome = .called res) (h : Called P entropy d nowMs expiresAt r ev.before res e')
    (c : Bytes32) : ev.sealed?.toList.countP (SealedFrame.isData c)+slotCredit (e'.sessions.lookup c) ≤
      slotCredit (ev.before.sessions.lookup c) := by
  have hnone : ∀ err, res = .error err → ev.sealed? = none := by
    rintro err rfl
    simp [Event.sealed?,hi,hout]
  cases h with
  | rejected err => simp [hnone err rfl]
  | @unsealed hdr after failed next err hs hn hseal =>
    rw [hnone err rfl]
    by_cases hc : c = d
    · subst hc
      simpa using hs.credit_le.2
    · simp [lookup_putSession_ne _ _ hc]
  | @sealed hdr after failed next env hs hn hseal =>
    have hsealed : ev.sealed? = some (sealedFrame ev.before d r.kind
        (r.header (nextSeq ev.before d)) r.payload nowMs expiresAt env) := by
      simp [Event.sealed?,hi,hout]
    rw [hsealed]
    by_cases hc : c = d
    · subst hc
      have hle := hs.credit_le.1
      simp only [Option.toList_some,List.countP_cons,List.countP_nil,lookup_putSession_self,
        SealedFrame.isData,sealedFrame,StreamEndpoint.frameParams,true_and,decide_eq_true_eq]
      omega
    · have hother : SealedFrame.isData c (sealedFrame ev.before d r.kind
          (r.header (nextSeq ev.before d)) r.payload nowMs expiresAt env) = false := by
        simp [SealedFrame.isData,sealedFrame,StreamEndpoint.frameParams,Ne.symm hc]
      simp [hother,lookup_putSession_ne _ _ hc]

theorem Relayed.seen_kept (hr : Relayed P (startWorld P party) tr w) {y : Side} {ev : Event SK}
    {e' : StreamEndpoint SK} (hb : ev.before = w y)
    (hp : ev.input.perform P ev.before = some (ev.outcome,e')) : ∀ s ∈ sealedBy y.other tr,
    decide ((w y).guard.Seen (party y.other).key s.frame.counter) = true →
    decide (e'.guard.Seen (party y.other).key s.frame.counter) = true := by
  intro s _ hs
  simp only [decide_eq_true_eq] at hs ⊢
  exact hr.seen_mono hb hp hs

theorem windowsSeen_own (y : Side) (c : Bytes32) (ev : Event SK) (e' : StreamEndpoint SK) :
    windowsSeen party y c (tr++[(y,ev)]) (Function.update w y e') =
      (((sealedBy y.other tr).filter fun s =>
        decide (e'.guard.Seen (party y.other).key s.frame.counter)).map
          (SealedFrame.grantedOn c)).sum := by
  have hother : sealedBy y.other (tr++[(y,ev)]) = sealedBy y.other tr := by
    rw [sealedBy_snoc,if_neg (Side.ne_other y)]
    simp
  simp only [windowsSeen,hother,Function.update_self]

theorem Relayed.windowsSeen_mono (hr : Relayed P (startWorld P party) tr w) {y : Side} {ev : Event SK}
    {e' : StreamEndpoint SK} (hb : ev.before = w y)
    (hp : ev.input.perform P ev.before = some (ev.outcome,e')) (x : Side) (c : Bytes32) :
    windowsSeen party x c tr w ≤ windowsSeen party x c (tr++[(y,ev)]) (Function.update w y e') := by
  by_cases hy : x = y
  · subst hy
    rw [windowsSeen_own]
    exact Lists.sum_filter_le _ (hr.seen_kept hb hp)
  · simp only [windowsSeen,sealedBy_snoc,Function.update_of_ne hy,List.filter_append,List.map_append,
      List.sum_append]
    exact Nat.le_add_right _ _

theorem Relayed.windowsSeen_taken (hr : Relayed P (startWorld P party) tr w) {y : Side} {ev : Event SK}
    {e' : StreamEndpoint SK} (hb : ev.before = w y)
    (hp : ev.input.perform P ev.before = some (ev.outcome,e')) {s : SealedFrame SK}
    {reaction : Reaction} {slot : Option StreamSession} {res : Except MessageError StreamAccept}
    (hs : s ∈ sealedBy y.other tr) (ht : Taken (party y.other) s ev.before reaction slot res e') :
    windowsSeen party y s.params.correlationId tr w+s.frame.granted ≤
      windowsSeen party y s.params.correlationId (tr++[(y,ev)]) (Function.update w y e') := by
  have hunseen := ht.unseen
  rw [hb] at hunseen
  have hadd := Lists.sum_filter_add_le (SealedFrame.grantedOn s.params.correlationId)
    (hr.seen_kept hb hp) hs (by simpa using hunseen) (by simpa using ht.seen)
  rw [windowsSeen_own]
  simpa [windowsSeen,SealedFrame.grantedOn] using hadd

/-- What a side has sent on a stream, and may still send, is covered by the windows its table has
seen. -/
theorem Relayed.account (hz : P.ZstdLossless) (hd : (party .a).did ≠ (party .b).did)
    (hr : Relayed P (startWorld P party) tr w) (x : Side) (c : Bytes32) :
    dataSealed x c tr+slotCredit ((w x).sessions.lookup c) ≤ windowsSeen party x c tr w := by
  induction hr with
  | nil => simp [dataSealed,sealedBy,observe,startWorld,Party.endpoint,StreamEndpoint.new,
      StreamEndpoint.withMaxConcurrent]
  | @snoc tr w y ev e' hr hb hp hg ih =>
    have hgrow := hr.windowsSeen_mono hb hp x c
    rw [dataSealed_snoc]
    by_cases hy : y = x
    · subst hy
      rw [if_pos rfl]
      cases hi : ev.input with
      | call d r nowMs expiresAt entropy =>
        have hp' := hp
        rw [hi] at hp'
        obtain ⟨res,hout,hcall⟩ := Input.perform_call P hp'
        have hle := hcall.credit_le hi hout c
        rw [hb] at hle
        rw [Function.update_self]
        omega
      | accept envelope resolveSenderPub nowMs order entropy =>
        rcases hr.accept_cases hz hd hb hp hi (hg _ _ _ _ _ hi) with
          ⟨hsame,hno,-⟩ | ⟨s,hs,reaction,slot,res,rfl,hout,ht⟩
        · rw [hno,Function.update_self,hsame,hb]
          simpa using ih.trans hgrow
        · -- a RESET in answer is no DATA
          have hreply : ev.sealed?.toList.countP (SealedFrame.isData c) = 0 := by
            cases hs' : ev.sealed? with
            | none => rfl
            | some s' =>
              have hkind := (sealed_of_accept hi hs').2
              simp [SealedFrame.isData,hkind]
          have hslot := ht.receives.credit_le
          rw [hreply,Function.update_self,ht.sessions]
          by_cases hc : c = s.params.correlationId
          · subst hc
            rw [lookup_putSession_self]
            rw [hb] at hslot
            have hgain := hr.windowsSeen_taken hb hp hs ht
            omega
          · rw [lookup_putSession_ne _ _ hc,hb]
            omega
    · rw [if_neg hy,Function.update_of_ne (Ne.symm hy)]
      simpa using ih.trans hgrow

/-- A session mid-handshake has not seen the peer's CLOSE. -/
def Unended (slot : Option StreamSession) : Prop :=
  ∀ s, slot = some s → s.handshake = .opening → s.remoteClosed = false

@[simp] theorem unended_none : Unended none := fun _ hs => by cases hs

@[simp] theorem unended_some (s : StreamSession) :
    Unended (some s) ↔ (s.handshake = .opening → s.remoteClosed = false) := by
  simp [Unended]

theorem Unended.settle {s : StreamSession} (h : Unended (some s)) : Unended s.settle := by
  unfold StreamSession.settle
  split
  · exact unended_none
  · exact h

theorem Sends.unended {slot after failed : Option StreamSession} {r : Request} {hdr : StreamHeader}
    (h : Sends slot r hdr after failed) (hs : Unended slot) : Unended after ∧ Unended failed := by
  cases h with
  | «open» w => simp [StreamSession.initiator]
  | @live s s' r hsend =>
    cases hsend with
    | openAck w hr hh => simp [Request.settle]
    | sendData payload next hh hl hc hn => simpa [Request.settle] using hs
    | grantCredit n hh => simpa [Request.settle] using hs
    | close hl =>
      have hclosed : Unended (some {s with localClosed := true}) := by simpa using hs
      exact ⟨hclosed.settle,hclosed⟩
    | reset => exact ⟨unended_none,by simpa using hs⟩

theorem Receives.unended {slot slot' : Option StreamSession} {full : Bool} {hdr : StreamHeader}
    {payload : List UInt8} {frame : StreamFrame} {reaction : Reaction}
    (h : Receives slot full hdr payload frame reaction slot') (hs : Unended slot) : Unended slot' := by
  cases h with
  | peerReset hl => exact unended_none
  | strayReset cause hl => exact unended_none
  | reopened cause hl => exact unended_none
  | refused cause hl hf => exact unended_none
  | stray cause hl hf ho => exact unended_none
  | violated cause hl hf ho hno => exact unended_none
  | opened hl hf => simp [StreamSession.responder]
  | accepted hl hf hreset hrecv =>
    rw [hl] at hs
    refine Unended.settle ?_
    cases hrecv with
    | openAck hr hh => simp
    | data next hh hrc hseq hw hn => simpa using hs
    | credit hh => simpa using hs
    | close hh hrc => simp [hh]
    | closeAck hlc => exact hs
    | reset => simpa using hs

theorem Relayed.unended (hr : Relayed P (startWorld P party) tr w) (x : Side) (c : Bytes32) :
    Unended ((w x).sessions.lookup c) := by
  induction hr with
  | nil => exact fun s hs => by cases hs
  | @snoc tr w y ev e' hr hb hp hg ih =>
    by_cases hy : x = y
    · subst hy
      rw [Function.update_self]
      rw [← hb] at ih
      rcases perform_slot hp c with hsame | ⟨r,hdr,after,failed,hs,hafter⟩ | ⟨_,_,_,_,_,hrecv⟩
      · rwa [hsame]
      · have hboth := hs.unended ih
        rcases hafter with hafter | hafter
        · rw [hafter]
          exact hboth.1
        · rw [hafter]
          exact hboth.2
      · exact hrecv.unended ih
    · rw [Function.update_of_ne hy]
      exact ih

theorem Receives.adopts {slot slot' : Option StreamSession} {full : Bool} {hdr : StreamHeader}
    {payload : List UInt8} {frame : StreamFrame} (hu : Unended slot)
    (h : Receives slot full hdr payload frame (.event .established) slot') :
    frame = .openAck ∧ ∃ s, slot' = some s ∧ s.handshake = .established ∧
      s.sendCredit = hdr.window.toUInt64 := by
  have hframe := h.established
  subst hframe
  generalize hr : Reaction.event .established = reaction at h
  refine ⟨rfl,?_⟩
  cases h with
  | stray cause hs hf ho => cases hr
  | violated cause hs hf ho hno => cases hr
  | @accepted s s' _ a hs hf hreset hrecv =>
    cases hrecv with
    | openAck hrole hh =>
      have hrc := hu s hs hh
      refine ⟨{s with handshake := .established,sendCredit := hdr.window.toUInt64},?_,rfl,rfl⟩
      simp [StreamSession.settle_eq,hreset,hrc]

theorem Relayed.taken_of_event {x : Side} {ev : Event SK} {e' : StreamEndpoint SK}
    {envelope : DigMessageEnvelope} {resolveSenderPub : Bytes32 → UInt32 → Option Bytes48}
    {nowMs : UInt64} {order : HashOrder} {entropy : Except String Bytes32} {event : StreamEvent}
    (hz : P.ZstdLossless) (hd : (party .a).did ≠ (party .b).did)
    (hr : Relayed P (startWorld P party) tr w) (hb : ev.before = w x)
    (hp : ev.input.perform P ev.before = some (ev.outcome,e'))
    (hi : ev.input = .accept envelope resolveSenderPub nowMs order entropy)
    (hout : ev.outcome = .accepted (.ok (.event event)))
    (hg : Genuine P tr ev.before envelope resolveSenderPub) :
    ∃ s ∈ sealedBy x.other tr, ∃ slot, s.envelope = envelope ∧
      Taken (party x.other) s ev.before (.event event) slot (.ok (.event event)) e' := by
  have hp' := hp
  rw [hi] at hp'
  obtain ⟨res,hres,hacc⟩ := Input.perform_accept P hp'
  rw [hout] at hres
  cases hres
  obtain ⟨m,hdr,frame,hopen,-⟩ := hacc.effective (Or.inl ⟨event,rfl⟩)
  obtain ⟨shape,inner,payload,had,-⟩ := openMessage_ok hopen
  obtain ⟨s,hs,_,_,_,_,hi',hyields⟩ := hr.genuine_crosses hd hb hi hg had.authentic
  rw [hi] at hi'
  cases hi'
  have hsound := hr.sound x.other s hs
  rw [Side.other_other] at hsound
  obtain ⟨cause,g,hfail,-⟩ | ⟨-,-,reaction,slot,ht⟩ :=
    accepts_genuine hz (hb ▸ (hr.owns x).peerDid) hsound hyields hacc
  · rw [hfail] at hopen
    cases hopen
  · have hreported := ht.reported
    cases reaction with
    | event event' =>
      cases hreported
      exact ⟨s,hs,slot,rfl,ht⟩
    | dropped cause => cases hreported
    | reset cause =>
      rcases hreported with ⟨reply,he⟩ | ⟨err,he⟩
      · cases he
      · cases he

/-- The relay cannot inflate a side's credit. The DATA frames a side seals on a stream are at most
the windows its peer sealed for it, and Established is reported only for an `open_ack` of the
peer, whose window the session adopts. -/
theorem relayed_backpressure (hz : P.ZstdLossless) (hd : (party .a).did ≠ (party .b).did)
    (hr : Relayed P (startWorld P party) tr w) :
    (∀ x c, dataSealed x c tr ≤ windowsSealed x.other c tr) ∧
    ∀ (i : ℕ) (x : Side) (ev : Event SK) (envelope : DigMessageEnvelope)
      (resolveSenderPub : Bytes32 → UInt32 → Option Bytes48) (nowMs : UInt64) (order : HashOrder)
      (entropy : Except String Bytes32), tr[i]? = some (x,ev) →
      ev.input = .accept envelope resolveSenderPub nowMs order entropy →
      ev.outcome = .accepted (.ok (.event .established)) →
      ∃ j < i, ∃ (ack : Event SK) (window : UInt32) (nowMs' expiresAt : UInt64)
        (entropy' : Except String Bytes32), tr[j]? = some (x.other,ack) ∧
        ack.input = .call envelope.correlationId (.openAck window) nowMs' expiresAt entropy' ∧
        ack.outcome = .called (.ok envelope) ∧
        ∀ e', ev.input.perform P ev.before = some (ev.outcome,e') →
          ∃ s, e'.sessions.lookup envelope.correlationId = some s ∧ s.handshake = .established ∧
            s.sendCredit = window.toUInt64 := by
  refine ⟨fun x c => ?_,?_⟩
  · have haccount := hr.account hz hd x c
    have hseen := windowsSeen_le party x c tr w
    omega
  · intro i x ev envelope resolveSenderPub nowMs order entropy hev hi hout
    obtain ⟨w₁,e₁,hr₁,hb,hp,hg,-⟩ := hr.at_index hev
    obtain ⟨s,hs,slot,rfl,ht⟩ := hr₁.taken_of_event hz hd hb hp hi hout (hg _ _ _ _ _ hi)
    have hunended := hr₁.unended x s.params.correlationId
    rw [← hb] at hunended
    obtain ⟨hkind,s₁,hslot,hest,hcredit⟩ := ht.receives.adopts hunended
    obtain ⟨j,ack,hj,hsealed⟩ := mem_sealedBy.mp hs
    obtain ⟨hlt,hj'⟩ := Lists.getElem?_take_eq_some.mp hj
    obtain ⟨nowMs',expiresAt,entropy',hcall,hok⟩ := openAck_of_sealed hsealed hkind
    have hid := (hr₁.sound x.other s hs).correlationId
    refine ⟨j,hlt,ack,s.frame.header.window,nowMs',expiresAt,entropy',hj',?_,hok,fun e' hp' => ?_⟩
    · rw [hid]
      exact hcall
    · rw [hp] at hp'
      cases hp'
      refine ⟨s₁,?_,hest,hcredit⟩
      rw [hid,ht.sessions,lookup_putSession_self]
      exact hslot

end

def spendAll (c : Bytes32) : List Action :=
  establish c 2 1000++([.call .a c (.sendData [1]) 1001 0,.call .a c (.sendData [2]) 1001 0,
    .call .b c (.grantCredit 1) 1002 0,.present .a .b 1 1002,.present .a .b 1 1002,
    .call .a c (.sendData [3]) 1003 0,.call .a c (.sendData [4]) 1003 0] : List Action)

theorem spent_within_windows : ∃ tr w, Relayed .plain (startWorld .plain aliceAndBob) tr w ∧
    dataSealed .a (byte32 9) tr = 3 ∧ dataSealed .a (byte32 9) tr ≤ windowsSealed .b (byte32 9) tr := by
  obtain ⟨tr,w,hr,hcheck⟩ := aliceAndBob_run default (spendAll (byte32 9))
    (fun tr => decide (dataSealed .a (byte32 9) tr = 3)) (by decide +kernel)
  have hbound := relayed_backpressure Primitives.plain_lawful.zstd alice_ne_bob hr
  exact ⟨tr,w,hr,of_decide_eq_true hcheck,hbound.1 .a (byte32 9)⟩

end DigMessage
