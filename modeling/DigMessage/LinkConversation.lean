import DigMessage.LinkExchange

/-! Joined endpoints are never stuck: from rest a new stream can be opened, any data carried over it
either way, and the stream closed. -/
namespace DigMessage
open FixedWidth

/-- What side `z` hears of a script that says who sends which payload. -/
def heard (z : Side) (script : List (Side × List UInt8)) : List (List UInt8) :=
  script.filterMap fun p => if p.1.other = z then some p.2 else none

theorem heard_cons (z : Side) (p : Side × List UInt8) (script : List (Side × List UInt8)) :
    heard z (p::script) = heard z [p]++heard z script := by
  unfold heard
  rw [← List.filterMap_append]
  rfl

section
variable {SK : Type} (P : Primitives SK)

/-- Going on from `st`, each side has reported `read` on stream `c` in `n` calls and deliveries.
Nothing is left under way, and no other stream has moved. -/
structure Talked (party : Side → Party SK) (c : Bytes32) (n : ℕ) (read : Side → List (List UInt8))
    (st st' : LinkState SK) : Prop where
  leads : Leads P party st st'
  resting : Resting P party st'
  length : st'.history.length = st.history.length+n
  windows : ∀ z, windowsSealed z c st'.history ≤ windowsSealed z c st.history+n
  reported : ∀ z, payloadsReported z c st'.history = payloadsReported z c st.history++read z
  elsewhere : ∀ z d, d ≠ c → (st'.world z).session d = (st.world z).session d ∧
    payloadsReported z d st'.history = payloadsReported z d st.history

/-- Side `x` may send data on stream `c`, as far as the stream's life goes. -/
def CanSend (c : Bytes32) (x : Side) (st : LinkState SK) : Prop :=
  ∃ s, (st.world x).session c = some s ∧ s.handshake = .established ∧ s.localClosed = false

variable {P} {party : Side → Party SK} {st st' st'' : LinkState SK} {c : Bytes32} {x : Side}

namespace Talked
variable {n m : ℕ} {read more : Side → List (List UInt8)}

theorem none (h : Resting P party st) (c : Bytes32) : Talked P party c 0 (fun _ => []) st st where
  leads := .refl
  resting := h
  length := rfl
  windows _ := le_rfl
  reported _ := (List.append_nil _).symm
  elsewhere _ _ _ := ⟨rfl,rfl⟩

theorem trans (h : Talked P party c n read st st') (h' : Talked P party c m more st' st'') :
    Talked P party c (n+m) (fun z => read z++more z) st st'' where
  leads := h.leads.trans h'.leads
  resting := h'.resting
  length := by rw [h'.length,h.length,Nat.add_assoc]
  windows z := by
    have h₁ := h.windows z
    have h₂ := h'.windows z
    omega
  reported z := by rw [h'.reported,h.reported,List.append_assoc]
  elsewhere z d hd := by
    rw [(h'.elsewhere z d hd).1,(h'.elsewhere z d hd).2]
    exact h.elsewhere z d hd

end Talked

namespace Exchanged
variable {r : Request} {mine theirs : Option StreamSession} {event : StreamEvent}

theorem session_caller (h : Exchanged P party c x r mine theirs event st st') :
    (st'.world x).session c = mine := by
  change (st'.world x).sessions.lookup c = mine
  rw [h.caller,lookup_putSession_self]

theorem session_called (h : Exchanged P party c x r mine theirs event st st') :
    (st'.world x.other).session c = theirs := by
  change (st'.world x.other).sessions.lookup c = theirs
  rw [h.called,lookup_putSession_self]

theorem talked (h : Exchanged P party c x r mine theirs event st st') (hr : Resting P party st)
    (honce : r.kind = .open → timesOpened c st.history = 0) (hg : r.granted ≤ 2)
    (hroom : windowsSealed x c st.history+2 < 2^64) :
    Talked P party c 2 (fun z => (if x.other = z then event.payload? else none).toList) st st' := by
  have hbounded : Bounded st'.history := by
    constructor
    · intro d
      have hd := hr.bounded.once d
      rw [h.opened]
      split
      · rename_i hopen
        obtain ⟨rfl,hk⟩ := hopen
        rw [honce hk]
      · exact hd
    · exact fun hbig => hr.bounded.small (h.small hbig)
    · intro d z
      have hd := hr.bounded.credit d z
      rw [h.windows]
      split
      · rename_i hown
        obtain ⟨rfl,rfl⟩ := hown
        omega
      · exact hd
  constructor
  · exact h.leads
  · exact ⟨h.leads.linked hr.linked,hbounded,h.idle⟩
  · exact h.length
  · intro z
    rw [h.windows]
    split <;> omega
  · intro z
    rw [h.reported]
    simp
  · intro z d hd
    constructor
    · change (st'.world z).sessions.lookup d = (st.world z).sessions.lookup d
      rcases Side.eq_or_other z x with rfl | rfl
      · rw [h.caller,lookup_putSession_ne _ _ hd]
      · rw [h.called,lookup_putSession_ne _ _ hd]
    · rw [h.reported]
      simp [Ne.symm hd]

end Exchanged

namespace Resting
variable (hP : P.Lawful) (hseal : SealsFrames P party) (h : Resting P party st)
include hP hseal h

/-- A payload is carried: its receiver grants a credit, its sender spends it. -/
theorem carry (hx : CanSend c x st) {payload : List UInt8}
    (hsmall : payload.length ≤ maxDecompressedBytes) (hroom : st.history.length+5 < 2^64)
    (hcredit : ∀ z, windowsSealed z c st.history+4 < 2^64) :
    ∃ st', Talked P party c 4 (fun z => heard z [(x,payload)]) st st' ∧
      ∀ z, CanSend c z st → CanSend c z st' := by
  obtain ⟨s,hs,hh,hopen⟩ := hx
  obtain ⟨t,ht,hst,hts⟩ := h.peer hP hs
  obtain ⟨s',st₁,hs',he₁⟩ := h.grants hP hseal (x:=x.other) ht (hst.ends.handshake ▸ hh) 1
    (by omega)
  rw [Side.other_other,hs] at hs'
  cases hs'
  have htalk₁ := he₁.talked h (by simp [Request.kind]) (by decide)
      (by have := hcredit x.other; omega)
  have hs₁ := he₁.session_called
  rw [Side.other_other] at hs₁
  have hpos : saturatingAdd s.sendCredit (1 : UInt32).toUInt64 ≠ 0 := by
    intro hzero
    have hadd := saturatingAdd_toNat s.sendCredit (1 : UInt32).toUInt64
    rw [hzero] at hadd
    have hone : ((1 : UInt32).toUInt64).toNat = 1 := rfl
    rw [hone,UInt64.toNat_zero] at hadd
    omega
  obtain ⟨t₁,next,st₂,ht₁,he₂⟩ := htalk₁.resting.sends hP hseal hs₁ hh hopen hpos hsmall
    (by rw [htalk₁.length]; omega)
  have htalk₂ := he₂.talked htalk₁.resting (by simp [Request.kind]) (Nat.zero_le _) (by
    have h₁ := htalk₁.windows x
    have h₂ := hcredit x
    omega)
  refine ⟨st₂,?_,fun z hz => ?_⟩
  · have hread : (fun z => heard z [(x,payload)]) = fun z =>
        (if x.other.other = z then (StreamEvent.creditGranted (1 : UInt32).toUInt64).payload?
          else none).toList++
            (if x.other = z then (StreamEvent.data payload).payload? else none).toList := by
      funext z
      by_cases hz : x.other = z <;> simp [heard,StreamEvent.payload?,hz]
    rw [hread]
    exact htalk₁.trans htalk₂
  · rcases Side.eq_or_other z x with rfl | rfl
    · exact ⟨_,he₂.session_caller,hh,hopen⟩
    · obtain ⟨u,hu,huh,huo⟩ := hz
      have htu := he₁.session_caller
      rw [ht] at hu
      cases hu
      rw [ht₁] at htu
      cases htu
      exact ⟨_,he₂.session_called,huh,huo⟩

theorem carries (script : List (Side × List UInt8)) (hcan : ∀ p ∈ script, CanSend c p.1 st)
    (hsmall : ∀ p ∈ script, p.2.length ≤ maxDecompressedBytes)
    (hroom : st.history.length+4*script.length+1 < 2^64)
    (hcredit : ∀ z, windowsSealed z c st.history+4*script.length < 2^64) :
    ∃ st', Talked P party c (4*script.length) (fun z => heard z script) st st' ∧
      ∀ z, CanSend c z st → CanSend c z st' := by
  induction script generalizing st with
  | nil => exact ⟨st,.none h c,fun _ => id⟩
  | cons p script ih =>
    rw [List.length_cons] at hroom hcredit
    obtain ⟨st₁,htalk,hkeeps⟩ := h.carry hP hseal (hcan p List.mem_cons_self)
      (hsmall p List.mem_cons_self) (by omega) (fun z => by have := hcredit z; omega)
    obtain ⟨st₂,hrest,hkeeps'⟩ := ih htalk.resting
      (fun q hq => hkeeps q.1 (hcan q (List.mem_cons_of_mem _ hq)))
      (fun q hq => hsmall q (List.mem_cons_of_mem _ hq)) (by rw [htalk.length]; omega) (fun z => by
        have h₁ := htalk.windows z
        have h₂ := hcredit z
        omega)
    refine ⟨st₂,?_,fun z hz => hkeeps' z (hkeeps z hz)⟩
    have hread : (fun z => heard z (p::script)) = fun z => heard z [p]++heard z script := by
      funext z
      exact heard_cons z p script
    rw [hread,List.length_cons,Nat.mul_succ,Nat.add_comm]
    exact htalk.trans hrest

end Resting

namespace Resting
variable (hP : P.Lawful) (hseal : SealsFrames P party) (h : Resting P party st)
include hP hseal h

end Resting

theorem deliveries_windows {ys : List Side} (h : Deliveries P party st ys st') (z : Side)
    (c : Bytes32) :
    windowsSealed z c st'.history = windowsSealed z c st.history := by
  induction h with
  | nil => rfl
  | cons hd _ ih =>
    rw [ih]
    cases hd with
    | @mk s rest ev e' hd hp hseals =>
      obtain ⟨_,_,_,_,-,-,-,hi⟩ := hd.presented
      simp only [LinkState.record,windowsSealed_snoc]
      cases hs : ev.sealed? with
      | none => simp
      | some s' => simp [SealedFrame.grantedOn,Frame.granted,(sealed_of_accept hi hs).2,
        StreamFrame.grants]

theorem deliveries_lead {ys : List Side} (h : Deliveries P party st ys st') :
    Leads P party st st' := by
  induction h with
  | nil => exact .refl
  | cons hd _ ih => exact .head (.deliver hd) ih

theorem deliveries_length {ys : List Side} (h : Deliveries P party st ys st') :
    st'.history.length = st.history.length+ys.length := by
  induction h with
  | nil => rfl
  | cons hd _ ih =>
    cases hd
    rw [ih]
    simp only [LinkState.record,List.length_append,List.length_cons,List.length_nil]
    omega

/-- An open stream never jams. However what is under way is delivered, on the streams that are then
open each side that has not closed can have any payloads reported at the other, which reports them
after all it reported before; no other stream is touched. -/
theorem open_streams_carry (hP : P.Lawful) (hseal : SealsFrames P party) (h : Settling P party st)
    (hb : Bounded st.history) {ys : List Side} (hd : Deliveries P party st ys st')
    (hrest : ∀ z, st'.channels z = []) (script : List (Side × List UInt8))
    (hcan : ∀ p ∈ script, CanSend c p.1 st')
    (hsmall : ∀ p ∈ script, p.2.length ≤ maxDecompressedBytes)
    (hroom : st.history.length+st.channels.load+4*script.length+1 < 2^64)
    (hcredit : ∀ z, windowsSealed z c st.history+4*script.length < 2^64) :
    ∃ st'', Talked P party c (4*script.length) (fun z => heard z script) st' st'' := by
  have hunsent := deliveries_unsent hd
  have hbounded : Bounded st'.history := by
    refine ⟨fun d => (hunsent.opened d).trans_le (hb.once d),
      fun hbig => hb.small (hunsent.small hbig),
      fun d z => ?_⟩
    rw [deliveries_windows hd]
    exact hb.credit d z
  have hresting : Resting P party st' := ⟨(deliveries_lead hd).linked h.linked,hbounded,hrest⟩
  have hlen := deliveries_length hd
  obtain ⟨hload,-⟩ := Lists.Along.length_le (fun u : LinkState SK => u.channels.load)
    (fun hu hstep => Settling.step hP hu hstep) h hd
  obtain ⟨st'',htalked,-⟩ := hresting.carries hP hseal script hcan hsmall (by omega) (fun z => by
    rw [deliveries_windows hd]
    exact hcredit z)
  exact ⟨st'',htalked⟩

end

theorem aliceAndBob_seal_frames : SealsFrames .plain aliceAndBob := by
  intro y e c hdr payload nowMs _ hsmall
  obtain ⟨env,henv⟩ := plain_seals (byte32 7)
    (show (e.frameParams c hdr payload nowMs 0).payload.length < 2^32 from
      hsmall.trans_lt (by decide))
  exact ⟨byte32 7,env,henv⟩

def smallTalk : List (Side × List UInt8) := [(.a,[1]),(.b,[2]),(.a,[3])]

theorem Move.delivery {SK : Type} {P : Primitives SK} {party : Side → Party SK} {order : HashOrder}
    {st st' : LinkState SK} {y : Side} {nowMs : UInt64}
    (h : (Move.deliver y nowMs).enact P party order st = some st') : Delivery P party st y st' := by
  obtain ⟨⟨⟨s,rest⟩,ev,e'⟩,hp,rfl⟩ := Option.map_eq_some_iff.mp h
  obtain ⟨hd,hperform,hseals⟩ := LinkState.arrival_eq_some hp
  exact .mk hd hperform hseals

def canSend (c : Bytes32) (x : Side) (st : LinkState Bytes32) : Bool :=
  ((st.world x).session c).any fun s => decide (s.handshake = .established ∧ s.localClosed = false)

theorem canSend_sound {c : Bytes32} {x : Side} {st : LinkState Bytes32} (h : canSend c x st = true) :
    CanSend c x st := by
  obtain ⟨s,hs,hok⟩ := (Option.any_eq_true _ _).mp h
  exact ⟨s,hs,of_decide_eq_true hok⟩

/-- A DATA is taken, and the talk goes on after it. -/
theorem small_talk_carried : ∃ st st' st'' : LinkState Bytes32,
    Linked .plain aliceAndBob st.history st.world st.channels ∧ st.channels .a ≠ [] ∧
    Deliveries .plain aliceAndBob st [.b] st' ∧
    Talked .plain aliceAndBob (byte32 8) 12 (fun z => heard z smallTalk) st' st'' ∧
    payloadsReported .b (byte32 8) st''.history = [[9],[1],[3]] := by
  obtain ⟨st,hr,hcheck⟩ := linked_of_check .plain aliceAndBob default
    (joining (byte32 8) 4 1000++[.call .a (byte32 8) (.sendData [9]) 1000 0])
    (fun st => withinBounds st.history &&
      ([Side.a,Side.b].all fun x => (st.channels x).all fun s => decide (s.params.expiresAt = 0)) &&
      ([Side.a,Side.b].all fun x => decide (windowsSealed x (byte32 8) st.history ≤ 8)) &&
      decide (st.history.length = 5 ∧ st.channels.load = 2) && !(st.channels .a).isEmpty &&
      ((Move.deliver .b 1000).enact .plain aliceAndBob default st).any fun st' =>
        (st'.channels .a).isEmpty && (st'.channels .b).isEmpty && canSend (byte32 8) .a st' &&
        canSend (byte32 8) .b st' && decide (payloadsReported .b (byte32 8) st'.history = [[9]]))
    (by decide +kernel)
  simp only [Bool.and_eq_true,decide_eq_true_eq,Bool.not_eq_true',List.isEmpty_eq_false_iff,
    Option.any_eq_true,List.isEmpty_iff] at hcheck
  obtain ⟨⟨⟨⟨⟨hbounds,hexp⟩,hwindows⟩,hlen,hload⟩,hbusy⟩,st',hdeliver,⟨⟨⟨ha,hb⟩,hcana⟩,hcanb⟩,
    hread⟩ :=
    hcheck
  have hd : Deliveries .plain aliceAndBob st [.b] st' := .cons (Move.delivery hdeliver) .nil
  have hcan : ∀ z, CanSend (byte32 8) z st' := by
    intro z
    cases z
    · exact canSend_sound hcana
    · exact canSend_sound hcanb
  obtain ⟨st'',htalked⟩ := open_streams_carry Primitives.plain_lawful aliceAndBob_seal_frames
    (settling_of_check hr hexp (by rw [hlen,hload]; decide)) (bounded_of_check hbounds) hd
    (by intro z; cases z <;> assumption) smallTalk (fun p _ => hcan p.1) (by decide)
    (by rw [hlen,hload]; decide) (fun z => by
      simp only [List.all_eq_true,decide_eq_true_eq] at hwindows
      have hz := hwindows z (by cases z <;> simp)
      have hthree : smallTalk.length = 3 := rfl
      omega)
  refine ⟨st,st',st'',hr,hbusy,hd,htalked,?_⟩
  rw [htalked.reported,hread]
  rfl

end DigMessage
