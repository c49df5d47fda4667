import DigMessage.EndpointSteps
import DigMessage.ReplayRuns

/-! Runs of one endpoint over its calls and inbound envelopes, and what an untrusted relay
can do to it: an envelope that is refused up to the anti-replay check leaves no trace. -/
namespace DigMessage
open FixedWidth

/-- One call of an endpoint's interface, with its clock, the entropy it draws and the
table order at that moment. -/
inductive Input
  | call (correlationId : Bytes32) (r : Request) (nowMs expiresAt : UInt64)
      (entropy : Except String Bytes32)
  | accept (envelope : DigMessageEnvelope) (resolveSenderPub : Bytes32 → UInt32 → Option Bytes48)
      (nowMs : UInt64) (order : HashOrder) (entropy : Except String Bytes32)

inductive Outcome
  | called (result : Except MessageError DigMessageEnvelope)
  | accepted (result : Except MessageError StreamAccept)

section
variable {SK : Type} (P : Primitives SK)

namespace Input

def perform (i : Input) (e : StreamEndpoint SK) : Option (Outcome × StreamEndpoint SK) :=
  match i with
  | .call c r nowMs expiresAt entropy =>
    (StreamEndpoint.call P entropy c nowMs expiresAt r e).map fun p => (.called p.1,p.2)
  | .accept envelope resolveSenderPub nowMs order entropy =>
    (StreamEndpoint.accept P order entropy envelope resolveSenderPub nowMs e).map
      fun p => (.accepted p.1,p.2)

theorem perform_call {c : Bytes32} {r : Request} {nowMs expiresAt : UInt64}
    {entropy : Except String Bytes32} {e e' : StreamEndpoint SK} {out : Outcome}
    (h : (Input.call c r nowMs expiresAt entropy).perform P e = some (out,e')) :
    ∃ res, out = .called res ∧ Called P entropy c nowMs expiresAt r e res e' := by
  obtain ⟨⟨res,u⟩,hc,hp⟩ := Option.map_eq_some_iff.mp h
  cases hp
  exact ⟨res,rfl,StreamEndpoint.call_cases P hc⟩

theorem perform_accept {envelope : DigMessageEnvelope}
    {resolveSenderPub : Bytes32 → UInt32 → Option Bytes48} {nowMs : UInt64} {order : HashOrder}
    {entropy : Except String Bytes32} {e e' : StreamEndpoint SK} {out : Outcome}
    (h : (Input.accept envelope resolveSenderPub nowMs order entropy).perform P e = some (out,e')) :
    ∃ res, out = .accepted res ∧
      Accepts P order entropy envelope resolveSenderPub nowMs e res e' := by
  obtain ⟨⟨res,u⟩,hc,hp⟩ := Option.map_eq_some_iff.mp h
  cases hp
  exact ⟨res,rfl,StreamEndpoint.accept_cases P hc⟩

end Input

/-- A call made on an endpoint in a given state, and what it returned. -/
structure Event (SK : Type) where
  before : StreamEndpoint SK
  input : Input
  outcome : Outcome

/-- The calls of a run, in order: each starts in the state the one before it left. -/
inductive Trace : StreamEndpoint SK → List (Event SK) → StreamEndpoint SK → Prop
  | nil (e : StreamEndpoint SK) : Trace e [] e
  | cons {ev : Event SK} {e₁ e₂ : StreamEndpoint SK} {tr : List (Event SK)} :
      ev.input.perform P ev.before = some (ev.outcome,e₁) → Trace e₁ tr e₂ →
      Trace ev.before (ev::tr) e₂

theorem trace_append {e e' : StreamEndpoint SK} {xs ys : List (Event SK)} :
    Trace P e (xs++ys) e' ↔ ∃ mid, Trace P e xs mid ∧ Trace P mid ys e' := by
  induction xs generalizing e with
  | nil =>
    constructor
    · exact fun h => ⟨e,.nil e,h⟩
    · rintro ⟨mid,h₁,h₂⟩
      cases h₁
      exact h₂
  | cons x xs ih =>
    constructor
    · intro h
      cases h with
      | cons hp hr =>
        obtain ⟨mid,h₁,h₂⟩ := ih.mp hr
        exact ⟨mid,.cons hp h₁,h₂⟩
    · rintro ⟨mid,h₁,h₂⟩
      cases h₁ with
      | cons hp hr => exact .cons hp (ih.mpr ⟨mid,hr,h₂⟩)

/-- `open_message` would pass its anti-replay check, and so reach the decompression. -/
def admits (order : HashOrder) (recipientSk : SK) (envelope : DigMessageEnvelope)
    (resolveSenderPub : Bytes32 → UInt32 → Option Bytes48) (nowMs : UInt64) (g : ReplayGuard) :
    Bool :=
  match authenticate P recipientSk envelope resolveSenderPub with
  | .error _ => false
  | .ok (_,inner) =>
    if inner.messageType = envelope.messageType ∧ inner.correlationId = envelope.correlationId then
      match checkExpiry inner.timestampMs inner.expiresAt nowMs with
      | .error _ => false
      | .ok () =>
        match ReplayGuard.checkAndAdmit (ε:=MessageError) order envelope.sender envelope.senderEpoch
            inner.counter inner.timestampMs nowMs g with
        | some (.ok true,_) => true
        | _ => false
    else false

theorem admits_iff {order : HashOrder} {recipientSk : SK} {envelope : DigMessageEnvelope}
    {resolveSenderPub : Bytes32 → UInt32 → Option Bytes48} {nowMs : UInt64} {g : ReplayGuard} :
    admits P order recipientSk envelope resolveSenderPub nowMs g = true ↔
      ∃ shape inner g', Admitted P order recipientSk envelope resolveSenderPub nowMs g shape inner g' := by
  constructor
  · intro h
    unfold admits at h
    split at h
    · cases h
    · rename_i shape inner ha
      split at h
      · rename_i hm
        split at h
        · cases h
        · rename_i hx
          split at h
          · rename_i g' hg
            exact ⟨shape,inner,g',ha,hm.1,hm.2,hx,hg⟩
          · cases h
      · cases h
  · rintro ⟨shape,inner,g',ha,hm,hc,hx,hg⟩
    simp [admits,ha,hm,hc,hx,hg]

theorem admits_of_open {order : HashOrder} {recipientSk : SK} {envelope : DigMessageEnvelope}
    {resolveSenderPub : Bytes32 → UInt32 → Option Bytes48} {nowMs : UInt64} {g g' : ReplayGuard}
    {m : OpenedMessage}
    (h : openMessage P order recipientSk envelope resolveSenderPub nowMs g = some (.ok m,g')) :
    admits P order recipientSk envelope resolveSenderPub nowMs g = true := by
  obtain ⟨cause,ho,-⟩ | ⟨shape,inner,g₁,had,-⟩ :=
    openMessage_cases P order recipientSk envelope resolveSenderPub nowMs g
  · rw [ho] at h
    cases h
  · exact (admits_iff P).mpr ⟨shape,inner,g₁,had⟩

namespace Event

/-- An accept of an envelope that fails before or at the anti-replay check. -/
def refused (ev : Event SK) : Bool :=
  match ev.input with
  | .call .. => false
  | .accept envelope resolveSenderPub nowMs order _ =>
    !admits P order ev.before.identitySk envelope resolveSenderPub nowMs ev.before.guard

/-- The event presents an envelope that authenticates under `key` with counter `counter`. -/
def Presents (ev : Event SK) (key : SenderKey) (counter : UInt64) : Prop :=
  ∃ envelope resolveSenderPub nowMs order entropy shape inner,
    ev.input = .accept envelope resolveSenderPub nowMs order entropy ∧
    authenticate P ev.before.identitySk envelope resolveSenderPub = .ok (shape,inner) ∧
    key = (envelope.sender,envelope.senderEpoch) ∧ counter = inner.counter

def key? (ev : Event SK) : Option SenderKey :=
  match ev.input with
  | .call .. => none
  | .accept envelope .. => some (envelope.sender,envelope.senderEpoch)

end Event

variable {P}

theorem Accepts.guard {order : HashOrder} {entropy : Except String Bytes32}
    {envelope : DigMessageEnvelope} {resolveSenderPub : Bytes32 → UInt32 → Option Bytes48}
    {nowMs : UInt64} {e e' : StreamEndpoint SK} {res : Except MessageError StreamAccept}
    (h : Accepts P order entropy envelope resolveSenderPub nowMs e res e') :
    ∃ r, openMessage P order e.identitySk envelope resolveSenderPub nowMs e.guard =
      some (r,e'.guard) := by
  cases h with
  | refused ho => exact ⟨_,ho⟩
  | idle cause ho hn => exact ⟨_,ho⟩
  | event ho ha hr => exact ⟨_,ho⟩
  | ignored ho ha hr => exact ⟨_,ho⟩
  | answered ho ha hr hn hs => exact ⟨_,ho⟩
  | unanswered ho ha hr hn hs => exact ⟨_,ho⟩

/-- A call leaves the slot of a stream as it was, or moves it as one of the two machines does. -/
theorem perform_slot {ev : Event SK} {e' : StreamEndpoint SK}
    (h : ev.input.perform P ev.before = some (ev.outcome,e')) (c : Bytes32) :
    e'.sessions.lookup c = ev.before.sessions.lookup c ∨
    (∃ r hdr after failed, Sends (ev.before.sessions.lookup c) r hdr after failed ∧
      (e'.sessions.lookup c = after ∨ e'.sessions.lookup c = failed)) ∨
    ∃ full hdr payload frame reaction,
      Receives (ev.before.sessions.lookup c) full hdr payload frame reaction
        (e'.sessions.lookup c) := by
  obtain ⟨e,input,out⟩ := ev
  cases input with
  | call d r nowMs expiresAt entropy =>
    obtain ⟨res,-,hcall⟩ := Input.perform_call P h
    cases hcall with
    | rejected err => exact Or.inl rfl
    | sealed hs hn hseal =>
      simp only [lookup_putSession]
      split
      · rename_i hc
        subst hc
        exact Or.inr (Or.inl ⟨r,_,_,_,hs,Or.inl rfl⟩)
      · exact Or.inl rfl
    | unsealed hs hn hseal =>
      simp only [lookup_putSession]
      split
      · rename_i hc
        subst hc
        exact Or.inr (Or.inl ⟨r,_,_,_,hs,Or.inr rfl⟩)
      · exact Or.inl rfl
  | accept envelope resolveSenderPub nowMs order entropy =>
    obtain ⟨res,-,hacc⟩ := Input.perform_accept P h
    have hput {full : Bool} {hdr : StreamHeader} {payload : List UInt8} {frame : StreamFrame}
        {reaction : Reaction} {slot : Option StreamSession}
        (hr : Receives (e.sessions.lookup envelope.correlationId) full hdr payload frame reaction
          slot) :
        (putSession e.sessions envelope.correlationId slot).lookup c = e.sessions.lookup c ∨
        ∃ full hdr payload frame reaction, Receives (e.sessions.lookup c) full hdr payload frame
          reaction ((putSession e.sessions envelope.correlationId slot).lookup c) := by
      rw [lookup_putSession]
      split
      · rename_i hc
        rw [hc]
        exact Or.inr ⟨full,hdr,payload,frame,reaction,hr⟩
      · exact Or.inl rfl
    cases hacc with
    | refused hopen => exact Or.inl rfl
    | idle cause hopen hn => exact Or.inl rfl
    | ignored hopen ha hr => exact Or.inl rfl
    | event hopen ha hr => exact (hput hr).imp_right Or.inr
    | answered hopen ha hr hn hs => exact (hput hr).imp_right Or.inr
    | unanswered hopen ha hr hn hs => exact (hput hr).imp_right Or.inr

/-- A refused envelope is dropped and changes nothing at all. -/
theorem refused_inert {ev : Event SK} {e' : StreamEndpoint SK} (hr : ev.refused P = true)
    (h : ev.input.perform P ev.before = some (ev.outcome,e')) :
    e' = ev.before ∧ ∃ cause, ev.outcome = .accepted (.ok (.dropped cause)) := by
  obtain ⟨e,input,out⟩ := ev
  cases input with
  | call c r nowMs expiresAt entropy => simp [Event.refused] at hr
  | accept envelope resolveSenderPub nowMs order entropy =>
    simp only [Event.refused,Bool.not_eq_true'] at hr
    obtain ⟨cause,ho,-⟩ | ⟨shape,inner,g',ha,-⟩ :=
      openMessage_cases P order e.identitySk envelope resolveSenderPub nowMs e.guard
    · obtain ⟨res,hout,hacc⟩ := Input.perform_accept P h
      obtain ⟨rfl,rfl⟩ := hacc.of_error ho
      exact ⟨rfl,cause,hout⟩
    · have := (admits_iff P).mpr ⟨shape,inner,g',ha⟩
      rw [hr] at this
      cases this

/-- Deleting refused accepts from a run changes neither its end nor what is left of it. -/
theorem trace_without_refused {e e' : StreamEndpoint SK} {tr : List (Event SK)}
    (h : Trace P e tr e') : Trace P e (tr.filter fun ev => !ev.refused P) e' := by
  induction h with
  | nil e => exact .nil e
  | @cons ev e₁ e₂ tr hp _ ih =>
    cases hr : ev.refused P with
    | true =>
      obtain ⟨rfl,-⟩ := refused_inert hr hp
      simpa [hr] using ih
    | false => simpa [hr] using Trace.cons hp ih

/-- A call moves the table only by admitting the message it was presented with. -/
theorem perform_guard {ev : Event SK} {e' : StreamEndpoint SK}
    (h : ev.input.perform P ev.before = some (ev.outcome,e')) :
    e'.guard = ev.before.guard ∨ ∃ c : Check, ev.refused P = false ∧ ev.key? = some c.key ∧
      ev.Presents P c.key c.counter ∧ c.Step ev.before.guard true e'.guard := by
  obtain ⟨e,input,out⟩ := ev
  cases input with
  | call c r nowMs expiresAt entropy =>
    obtain ⟨res,-,hcall⟩ := Input.perform_call P h
    cases hcall <;> exact Or.inl rfl
  | accept envelope resolveSenderPub nowMs order entropy =>
    obtain ⟨res,-,hacc⟩ := Input.perform_accept P h
    obtain ⟨r,hopen⟩ := hacc.guard
    obtain ⟨cause,ho,-⟩ | ⟨shape,inner,g',ha,ho⟩ :=
      openMessage_cases P order e.identitySk envelope resolveSenderPub nowMs e.guard
    · rw [ho] at hopen
      simp only [Option.some.injEq,Prod.mk.injEq] at hopen
      exact Or.inl hopen.2.symm
    · rw [ho] at hopen
      simp only [Option.some.injEq,Prod.mk.injEq] at hopen
      obtain ⟨-,rfl⟩ := hopen
      refine Or.inr ⟨⟨envelope.sender,envelope.senderEpoch,inner.counter,inner.timestampMs,nowMs,
        order⟩,?_,rfl,?_,ha.admits⟩
      · simpa [Event.refused] using (admits_iff P).mpr ⟨shape,inner,_,ha⟩
      · exact ⟨envelope,resolveSenderPub,nowMs,order,entropy,shape,inner,rfl,ha.authentic,rfl,rfl⟩

theorem refused_of_seen {ev : Event SK} {key : SenderKey} {counter : UInt64}
    (hp : ev.Presents P key counter) (hs : ev.before.guard.Seen key counter) :
    ev.refused P = true := by
  obtain ⟨envelope,resolveSenderPub,nowMs,order,entropy,shape,inner,hi,ha,rfl,rfl⟩ := hp
  simp only [Event.refused,hi,Bool.not_eq_true']
  rw [Bool.eq_false_iff]
  intro hadmits
  obtain ⟨shape',inner',g',had⟩ := (admits_iff P).mp hadmits
  have hsame := had.authentic
  rw [ha] at hsame
  cases hsame
  have := (ReplayGuard.admitted_iff ⟨envelope.sender,envelope.senderEpoch,inner.counter,
    inner.timestampMs,nowMs,order⟩ ev.before.guard).mp ⟨g',had.admits⟩
  exact this.2 hs

theorem seen_of_not_refused {ev : Event SK} {e' : StreamEndpoint SK} {key : SenderKey}
    {counter : UInt64} (h : ev.input.perform P ev.before = some (ev.outcome,e'))
    (hr : ev.refused P = false) (hp : ev.Presents P key counter) : e'.guard.Seen key counter := by
  obtain ⟨e,input,out⟩ := ev
  obtain ⟨envelope,resolveSenderPub,nowMs,order,entropy,shape,inner,rfl,ha,rfl,rfl⟩ := hp
  simp only [Event.refused,Bool.not_eq_false'] at hr
  obtain ⟨shape',inner',g',had⟩ := (admits_iff P).mp hr
  obtain ⟨res,-,hacc⟩ := Input.perform_accept P h
  obtain ⟨r,hopen⟩ := hacc.guard
  obtain ⟨cause,-,hno⟩ | ⟨shape₂,inner₂,g₂,had₂,ho⟩ :=
    openMessage_cases P order e.identitySk envelope resolveSenderPub nowMs e.guard
  · exact absurd had (hno _ _ _)
  · rw [ho] at hopen
    cases hopen
    have hsame := had₂.authentic
    rw [ha] at hsame
    cases hsame
    exact ReplayGuard.seen_of_admitted (c:=⟨envelope.sender,envelope.senderEpoch,inner.counter,
      inner.timestampMs,nowMs,order⟩) had₂.admits

def admittedKeys (P : Primitives SK) (tr : List (Event SK)) : Finset SenderKey :=
  ((tr.filter fun ev => !ev.refused P).filterMap Event.key?).toFinset

theorem admittedKeys_append (xs ys : List (Event SK)) :
    admittedKeys P (xs++ys) = admittedKeys P xs ∪ admittedKeys P ys := by
  simp [admittedKeys,List.filter_append,List.filterMap_append,List.toFinset_append]

theorem admittedKeys_cons (ev : Event SK) (tr : List (Event SK)) :
    admittedKeys P (ev::tr) = admittedKeys P [ev] ∪ admittedKeys P tr :=
  admittedKeys_append [ev] tr

theorem perform_keys {ev : Event SK} {e' : StreamEndpoint SK}
    (h : ev.input.perform P ev.before = some (ev.outcome,e')) :
    e'.guard.senders.keys ⊆ ev.before.guard.senders.keys ∪ admittedKeys P [ev] := by
  rcases perform_guard h with hsame | ⟨c,hr,hk,-,hstep⟩
  · rw [hsame]
    exact Finset.subset_union_left
  · have hown : admittedKeys P [ev] = {c.key} := by simp [admittedKeys,hr,hk]
    rw [hown,Finset.union_comm]
    exact ReplayGuard.keys_step hstep

theorem keys_trace {e e' : StreamEndpoint SK} {tr : List (Event SK)} (h : Trace P e tr e') :
    e'.guard.senders.keys ⊆ e.guard.senders.keys ∪ admittedKeys P tr := by
  induction h with
  | nil e => exact Finset.subset_union_left
  | @cons ev e₁ e₂ tr hp _ ih =>
    rw [admittedKeys_cons,← Finset.union_assoc]
    exact ih.trans (Finset.union_subset_union_left (perform_keys hp))

/-- Over a run that admits fewer keys than the cap, what is seen stays seen. -/
theorem seen_trace {e e' : StreamEndpoint SK} {tr : List (Event SK)} {key : SenderKey}
    {counter : UInt64} (h : Trace P e tr e')
    (hcap : (e.guard.senders.keys ∪ admittedKeys P tr).card < maxTrackedSenders)
    (hs : e.guard.Seen key counter) : e'.guard.Seen key counter := by
  induction h with
  | nil e => exact hs
  | @cons ev e₁ e₂ tr hp _ ih =>
    rw [admittedKeys_cons,← Finset.union_assoc] at hcap
    refine ih ((Finset.card_le_card ?_).trans_lt hcap) ?_
    · exact Finset.union_subset_union_left (perform_keys hp)
    · rcases perform_guard hp with hsame | ⟨c,-,-,-,hstep⟩
      · rwa [hsame]
      · refine ReplayGuard.seen_step hstep ((Finset.card_le_card ?_).trans_lt hcap) hs
        exact Finset.subset_union_left.trans Finset.subset_union_left

theorem Trace.performs {e e' : StreamEndpoint SK} {tr : List (Event SK)} (h : Trace P e tr e')
    {ev : Event SK} (hev : ev ∈ tr) : ∃ e₁, ev.input.perform P ev.before = some (ev.outcome,e₁) := by
  obtain ⟨as,bs,rfl⟩ := List.append_of_mem hev
  obtain ⟨mid,-,hrest⟩ := (trace_append P).mp h
  cases hrest with
  | cons hp _ => exact ⟨_,hp⟩

theorem refused_again {e e' : StreamEndpoint SK} {front : List (Event SK)} {ev : Event SK}
    {key : SenderKey} {counter : UInt64} (h : Trace P e (front++[ev]) e')
    (hcap : (e.guard.senders.keys ∪ admittedKeys P front).card < maxTrackedSenders)
    (hp : ev.Presents P key counter)
    (hseen : e.guard.Seen key counter ∨
      ∃ first ∈ front, first.refused P = false ∧ first.Presents P key counter) :
    ev.refused P = true := by
  obtain ⟨mid,hfront,hrest⟩ := (trace_append P).mp h
  cases hrest with
  | cons hev _ =>
    refine refused_of_seen hp ?_
    rcases hseen with hseen | ⟨first,hfirst,hr,hpf⟩
    · exact seen_trace hfront hcap hseen
    · obtain ⟨as,bs,rfl⟩ := List.append_of_mem hfirst
      obtain ⟨e₁,has,hbs⟩ := (trace_append P).mp hfront
      cases hbs with
      | @cons _ e₂ _ _ hfirst' hbs =>
        refine seen_trace hbs ((Finset.card_le_card ?_).trans_lt hcap)
          (seen_of_not_refused hfirst' hr hpf)
        have h₁ := keys_trace has
        have h₂ := perform_keys hfirst'
        rw [admittedKeys_append,admittedKeys_cons,← Finset.union_assoc,← Finset.union_assoc]
        exact Finset.union_subset_union_left (h₂.trans (Finset.union_subset_union_left h₁))

end
end DigMessage
