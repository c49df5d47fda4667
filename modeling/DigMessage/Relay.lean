import DigMessage.EndpointTrace
import DigMessage.StreamDelivery

/-! Two endpoints and the untrusted relay between them. The relay presents any envelope it
likes, at any clock reading; the ideal seal lets one authenticate only where it was sealed
by the named sender for this recipient. -/
namespace DigMessage
open FixedWidth

/-- One party of a stream: its identity, its envelopes' type and its stream cap. -/
structure Party (SK : Type) where
  identitySk : SK
  did : Bytes32
  epoch : UInt32
  messageType : UInt32
  maxConcurrent : ℕ

abbrev World (SK : Type) := Side → StreamEndpoint SK

/-- A frame an endpoint sealed: what it handed to the sealer and the envelope it got. -/
structure SealedFrame (SK : Type) where
  params : SealParams SK
  frame : Frame
  envelope : DigMessageEnvelope

abbrev History (SK : Type) := List (Side × Event SK)

section
variable {SK : Type}

namespace Party

def key (party : Party SK) : SenderKey := (party.did,party.epoch)

def endpoint (P : Primitives SK) (me peer : Party SK) : StreamEndpoint SK :=
  (StreamEndpoint.new me.identitySk me.did me.epoch peer.did (P.publicKeyBytes peer.identitySk)
    me.messageType).withMaxConcurrent me.maxConcurrent

/-- The parts of an endpoint that no call changes. -/
structure Owns (P : Primitives SK) (me peer : Party SK) (e : StreamEndpoint SK) : Prop where
  identitySk : e.identitySk = me.identitySk
  localDid : e.localDid = me.did
  localEpoch : e.localEpoch = me.epoch
  peerDid : e.peerDid = peer.did
  peerPub : e.peerPub = P.publicKeyBytes peer.identitySk
  messageType : e.messageType = me.messageType
  maxConcurrent : e.maxConcurrent = me.maxConcurrent

def params (P : Primitives SK) (me peer : Party SK) (c : Bytes32) (frame : Frame)
    (timestampMs expiresAt : UInt64) : SealParams SK where
  senderSk := me.identitySk
  sender := me.did
  senderEpoch := me.epoch
  recipient := peer.did
  recipientPub := P.publicKeyBytes peer.identitySk
  messageType := me.messageType
  shape := .streamFrame
  correlationId := c
  stream := some frame.header
  counter := frame.counter
  timestampMs := timestampMs
  expiresAt := expiresAt
  payload := frame.payload

theorem Owns.frameParams {P : Primitives SK} {me peer : Party SK} {e : StreamEndpoint SK}
    (h : me.Owns P peer e) (c : Bytes32) (kind : StreamFrame) (hdr : StreamHeader)
    (payload : List UInt8) (nowMs expiresAt : UInt64) :
    e.frameParams c hdr payload nowMs expiresAt =
      me.params P peer c ⟨e.sendCounter,kind,hdr,payload⟩ nowMs expiresAt := by
  simp only [StreamEndpoint.frameParams,Party.params,h.identitySk,h.localDid,h.localEpoch,h.peerDid,
    h.peerPub,h.messageType]

end Party

/-- The two endpoints as constructed, each for the other's identity. -/
def startWorld (P : Primitives SK) (party : Side → Party SK) : World SK := fun x =>
  (party x).endpoint P (party x.other)

def nextSeq (e : StreamEndpoint SK) (c : Bytes32) : UInt64 :=
  ((e.sessions.lookup c).map StreamSession.sendSeq).getD 0

def sealedFrame (e : StreamEndpoint SK) (c : Bytes32) (kind : StreamFrame) (hdr : StreamHeader)
    (payload : List UInt8) (nowMs expiresAt : UInt64) (envelope : DigMessageEnvelope) :
    SealedFrame SK :=
  ⟨e.frameParams c hdr payload nowMs expiresAt,⟨e.sendCounter,kind,hdr,payload⟩,envelope⟩

namespace Event

/-- The frame an event sealed: that of a successful call, or the RESET of an accept. -/
def sealed? (ev : Event SK) : Option (SealedFrame SK) :=
  match ev.input,ev.outcome with
  | .call c r nowMs expiresAt _,.called (.ok envelope) =>
    some (sealedFrame ev.before c r.kind (r.header (nextSeq ev.before c)) r.payload nowMs expiresAt
      envelope)
  | .accept envelope _ nowMs _ _,.accepted (.ok (.reset reply _)) =>
    some (sealedFrame ev.before envelope.correlationId .reset (header .reset 0 0) [] nowMs 0 reply)
  | _,_ => none

def presented? (ev : Event SK) : Option DigMessageEnvelope :=
  match ev.input with
  | .call .. => none
  | .accept envelope _ _ _ _ => some envelope

def returned? (ev : Event SK) : Option DigMessageEnvelope :=
  match ev.outcome with
  | .called (.ok envelope) => some envelope
  | _ => none

end Event

def observe {α : Type} (x : Side) (f : Event SK → Option α) (tr : History SK) : List α :=
  tr.filterMap fun p => if p.1 = x then f p.2 else none

theorem observe_snoc {α : Type} (x y : Side) (f : Event SK → Option α) (tr : History SK)
    (ev : Event SK) :
    observe x f (tr++[(y,ev)]) = observe x f tr++(if y = x then f ev else none).toList :=
  Lists.filterMap_snoc _ tr (y,ev)

/-- The frames side `x` has sealed, in order. -/
def sealedBy (x : Side) (tr : History SK) : List (SealedFrame SK) := observe x Event.sealed? tr

theorem sealedBy_snoc (x y : Side) (tr : History SK) (ev : Event SK) :
    sealedBy x (tr++[(y,ev)]) = sealedBy x tr++(if y = x then ev.sealed? else none).toList :=
  observe_snoc x y _ tr ev

theorem mem_sealedBy {x : Side} {tr : History SK} {s : SealedFrame SK} :
    s ∈ sealedBy x tr ↔ ∃ (j : ℕ) (ev : Event SK), tr[j]? = some (x,ev) ∧ ev.sealed? = some s := by
  simp only [sealedBy,observe,List.mem_filterMap]
  constructor
  · rintro ⟨⟨y,ev⟩,hmem,hs⟩
    simp only at hs
    split at hs
    · rename_i hy
      subst hy
      obtain ⟨j,hj⟩ := List.getElem?_of_mem hmem
      exact ⟨j,ev,hj,hs⟩
    · cases hs
  · rintro ⟨j,ev,hj,hs⟩
    exact ⟨(x,ev),List.mem_of_getElem? hj,by simp [hs]⟩

variable (P : Primitives SK)

/-- Opening this frame's envelope yields the fields that were sealed. -/
def SealedFrame.Yields (s : SealedFrame SK) (shape : InteractionShape) (inner : InnerMessage) : Prop :=
  shape = s.params.shape ∧ ∃ compressed, compressPayload P s.params.payload = .ok compressed ∧
    inner = sealedInner P s.params s.envelope.sealed.kemEnc compressed

/-- The ideal seal, with a resolver that knows only the endpoint's peer. -/
structure Genuine (tr : History SK) (e : StreamEndpoint SK) (envelope : DigMessageEnvelope)
    (resolveSenderPub : Bytes32 → UInt32 → Option Bytes48) : Prop where
  peerScoped : ∀ did epoch pub, resolveSenderPub did epoch = some pub → did = e.peerDid
  ideal : ∀ shape inner, authenticate P e.identitySk envelope resolveSenderPub = .ok (shape,inner) →
    ∃ y, ∃ s ∈ sealedBy y tr, s.envelope = envelope ∧ s.params.recipient = e.localDid ∧
      s.Yields P shape inner

/-- A run under the relay, and what happened in it. -/
inductive Relayed (w₀ : World SK) : History SK → World SK → Prop
  | nil : Relayed w₀ [] w₀
  | snoc {tr : History SK} {w : World SK} {x : Side} {ev : Event SK} {e' : StreamEndpoint SK} :
      Relayed w₀ tr w → ev.before = w x → ev.input.perform P ev.before = some (ev.outcome,e') →
      (∀ envelope resolveSenderPub nowMs order entropy,
        ev.input = .accept envelope resolveSenderPub nowMs order entropy →
        Genuine P tr ev.before envelope resolveSenderPub) →
      Relayed w₀ (tr++[(x,ev)]) (Function.update w x e')

/-- A recorded frame carries exactly what its sender handed to the sealer. -/
structure SealedFrame.Sound (me peer : Party SK) (s : SealedFrame SK) : Prop where
  params : s.params =
    me.params P peer s.params.correlationId s.frame s.params.timestampMs s.params.expiresAt
  kind : StreamFrame.fromU8 s.frame.header.frame = some s.frame.kind
  sealing : ∃ esk, sealWithEphemeral P s.params esk = .ok s.envelope

variable {P}

theorem perform_frame {ev : Event SK} {e' : StreamEndpoint SK}
    (h : ev.input.perform P ev.before = some (ev.outcome,e')) :
    ∃ g n t, e' = {ev.before with guard := g,sendCounter := n,sessions := t} := by
  obtain ⟨e,input,out⟩ := ev
  cases input with
  | call c r nowMs expiresAt entropy =>
    obtain ⟨res,-,hcall⟩ := Input.perform_call P h
    cases hcall <;> exact ⟨_,_,_,rfl⟩
  | accept envelope resolveSenderPub nowMs order entropy =>
    obtain ⟨res,-,hacc⟩ := Input.perform_accept P h
    cases hacc <;> exact ⟨_,_,_,rfl⟩

theorem Party.Owns.step {me peer : Party SK} {ev : Event SK} {e' : StreamEndpoint SK}
    (ho : me.Owns P peer ev.before) (h : ev.input.perform P ev.before = some (ev.outcome,e')) :
    me.Owns P peer e' := by
  obtain ⟨g,n,t,rfl⟩ := perform_frame h
  exact ⟨ho.1,ho.2,ho.3,ho.4,ho.5,ho.6,ho.7⟩

theorem Party.owns_endpoint (me peer : Party SK) : me.Owns P peer (me.endpoint P peer) :=
  ⟨rfl,rfl,rfl,rfl,rfl,rfl,rfl⟩

theorem Sends.header_eq {e : StreamEndpoint SK} {c : Bytes32} {r : Request} {hdr : StreamHeader}
    {after failed : Option StreamSession} (h : Sends (e.sessions.lookup c) r hdr after failed) :
    hdr = r.header (nextSeq e c) := by
  generalize hl : e.sessions.lookup c = slot at h
  cases h with
  | «open» w => rfl
  | live hs => simp [nextSeq,hl]

theorem sealed_sound {me peer : Party SK} {ev : Event SK} {e' : StreamEndpoint SK}
    {s : SealedFrame SK} (ho : me.Owns P peer ev.before)
    (h : ev.input.perform P ev.before = some (ev.outcome,e')) (hs : ev.sealed? = some s) :
    s.Sound P me peer := by
  obtain ⟨e,input,out⟩ := ev
  cases input with
  | call c r nowMs expiresAt entropy =>
    obtain ⟨res,hout,hcall⟩ := Input.perform_call P h
    simp only at hout
    subst hout
    cases hcall with
    | rejected err => cases hs
    | unsealed hsend hn hseal => cases hs
    | sealed hsend hn hseal =>
      cases hs
      rw [hsend.header_eq] at hseal
      exact ⟨ho.frameParams ..,r.fromU8_header _,sealMessage_ok hseal⟩
  | accept envelope resolveSenderPub nowMs order entropy =>
    obtain ⟨res,hout,hacc⟩ := Input.perform_accept P h
    simp only at hout
    subst hout
    cases hacc with
    | refused hopen => cases hs
    | idle cause hopen hn => cases hs
    | event hopen ha hr => cases hs
    | ignored hopen ha hr => cases hs
    | answered hopen ha hr hn hseal =>
      cases hs
      exact ⟨ho.frameParams ..,rfl,sealMessage_ok hseal⟩
    | unanswered hopen ha hr hn hseal => cases hs

namespace SealedFrame
variable {me peer : Party SK} {s : SealedFrame SK}

theorem Sound.envelope_eq (h : s.Sound P me peer) : ∃ kemEnc ct,
    s.envelope = sealedEnvelope s.params kemEnc ct := by
  obtain ⟨esk,hseal⟩ := h.sealing
  obtain ⟨_,_,_,_,ct,-,-,-,-,-,he⟩ := sealWithEphemeral_ok hseal
  exact ⟨_,ct,he⟩

theorem Sound.sender (h : s.Sound P me peer) :
    (s.envelope.sender,s.envelope.senderEpoch) = me.key := by
  obtain ⟨kemEnc,ct,he⟩ := h.envelope_eq
  rw [he,h.params]
  rfl

theorem Sound.recipient (h : s.Sound P me peer) : s.params.recipient = peer.did := by
  rw [h.params]
  rfl

theorem Sound.correlationId (h : s.Sound P me peer) :
    s.envelope.correlationId = s.params.correlationId := by
  obtain ⟨kemEnc,ct,he⟩ := h.envelope_eq
  rw [he]
  rfl

theorem Sound.stream (h : s.Sound P me peer) : s.envelope.stream = some s.frame.header := by
  obtain ⟨kemEnc,ct,he⟩ := h.envelope_eq
  rw [he,h.params]
  rfl

theorem Sound.counter (h : s.Sound P me peer) : s.params.counter = s.frame.counter := by
  rw [h.params]
  rfl

theorem Sound.payload (h : s.Sound P me peer) : s.params.payload = s.frame.payload := by
  rw [h.params]
  rfl

theorem Sound.shape (h : s.Sound P me peer) : s.params.shape = .streamFrame := by
  rw [h.params]
  rfl

/-- At the recipient, under a resolver that knows the sender, a sealed frame authenticates. -/
theorem Sound.authenticates (hP : P.Lawful) (h : s.Sound P me peer)
    {resolveSenderPub : Bytes32 → UInt32 → Option Bytes48}
    (hres : resolveSenderPub me.did me.epoch = some (P.publicKeyBytes me.identitySk)) :
    ∃ inner, authenticate P peer.identitySk s.envelope resolveSenderPub = .ok (.streamFrame,inner) ∧
      s.Yields P .streamFrame inner := by
  obtain ⟨esk,hseal⟩ := h.sealing
  have hto : s.params.recipientPub = P.publicKeyBytes peer.identitySk := by
    rw [h.params]
    rfl
  have hfrom : resolveSenderPub s.params.sender s.params.senderEpoch =
      some (P.publicKeyBytes s.params.senderSk) := by
    rw [h.params]
    exact hres
  obtain ⟨compressed,hc,ha⟩ := authenticate_seal hP hseal hto hfrom
  rw [h.shape] at ha
  obtain ⟨_,_,_,_,ct,-,-,-,-,-,he⟩ := sealWithEphemeral_ok hseal
  have hkem : s.envelope.sealed.kemEnc = P.publicKeyBytes esk := by rw [he]; rfl
  exact ⟨_,ha,h.shape.symm,compressed,hc,by rw [hkem]⟩

theorem Sound.resolves (h : s.Sound P me peer) {recipientSk : SK} {shape : InteractionShape}
    {inner : InnerMessage} {resolveSenderPub : Bytes32 → UInt32 → Option Bytes48}
    (ha : authenticate P recipientSk s.envelope resolveSenderPub = .ok (shape,inner)) :
    ∃ pub, resolveSenderPub me.did me.epoch = some pub := by
  obtain ⟨pub,hpub⟩ := authenticate_resolves ha
  have hkey := h.sender
  simp only [Party.key,Prod.mk.injEq] at hkey
  rw [hkey.1,hkey.2] at hpub
  exact ⟨pub,hpub⟩

theorem Sound.admits_iff (hP : P.Lawful) (h : s.Sound P me peer)
    {resolveSenderPub : Bytes32 → UInt32 → Option Bytes48} {order : HashOrder} {nowMs : UInt64}
    {g : ReplayGuard}
    (hres : resolveSenderPub me.did me.epoch = some (P.publicKeyBytes me.identitySk)) :
    admits P order peer.identitySk s.envelope resolveSenderPub nowMs g = true ↔
      checkExpiry s.params.timestampMs s.params.expiresAt nowMs = .ok () ∧
      ReplayGuard.fresh s.params.timestampMs nowMs = true ∧ ¬ g.Seen me.key s.frame.counter := by
  obtain ⟨inner,ha,-,compressed,-,rfl⟩ := h.authenticates hP hres
  obtain ⟨kemEnc,ct,he⟩ := h.envelope_eq
  have hkey := h.sender
  let check : Check := ⟨s.envelope.sender,s.envelope.senderEpoch,s.params.counter,
    s.params.timestampMs,nowMs,order⟩
  have hiff := ReplayGuard.admitted_iff check g
  have hck : check.key = me.key ∧ check.counter = s.frame.counter := ⟨hkey,h.counter⟩
  rw [hck.1,hck.2] at hiff
  rw [DigMessage.admits_iff,← hiff]
  constructor
  · rintro ⟨shape,inner,g',had⟩
    have hsame := had.authentic
    rw [ha] at hsame
    cases hsame
    exact ⟨had.unexpired,g',had.admits⟩
  · rintro ⟨hx,g',hg⟩
    exact ⟨_,_,g',ha,by rw [he]; rfl,by rw [he]; rfl,hx,hg⟩

end SealedFrame

namespace Relayed
variable {party : Side → Party SK} {tr : History SK} {w : World SK}

theorem owns (h : Relayed P (startWorld P party) tr w) (x : Side) :
    (party x).Owns P (party x.other) (w x) := by
  induction h with
  | nil => exact Party.owns_endpoint _ _
  | @snoc tr w y ev e' _ hb hp _ ih =>
    by_cases hx : x = y
    · subst hx
      rw [Function.update_self]
      exact Party.Owns.step (hb ▸ ih) hp
    · rw [Function.update_of_ne hx]
      exact ih

theorem sound (h : Relayed P (startWorld P party) tr w) (x : Side) :
    ∀ s ∈ sealedBy x tr, s.Sound P (party x) (party x.other) := by
  induction h with
  | nil => exact fun s hs => absurd hs List.not_mem_nil
  | @snoc tr w y ev e' hr hb hp _ ih =>
    intro s hs
    rw [sealedBy_snoc,List.mem_append] at hs
    rcases hs with hs | hs
    · exact ih s hs
    · rw [Option.mem_toList] at hs
      split at hs
      · rename_i hyx
        subst hyx
        exact sealed_sound (hb ▸ hr.owns y) hp hs
      · cases hs

theorem keys (h : Relayed P (startWorld P party) tr w) (x : Side) :
    (w x).guard.senders.keys ⊆ {(party .a).key,(party .b).key} := by
  induction h with
  | nil => exact Finset.empty_subset _
  | @snoc tr w y ev e' hr hb hp hg ih =>
    by_cases hx : x = y
    · subst hx
      rw [Function.update_self]
      rcases perform_guard hp with hsame | ⟨c,-,-,hpres,hstep⟩
      · rw [hsame,hb]
        exact ih
      · obtain ⟨envelope,resolveSenderPub,nowMs,order,entropy,shape,inner,hi,ha,hkey,-⟩ := hpres
        obtain ⟨z,s,hs,rfl,-,-⟩ := (hg _ _ _ _ _ hi).ideal _ _ ha
        have hmem : c.key ∈ ({(party .a).key,(party .b).key} : Finset SenderKey) := by
          rw [hkey,(hr.sound z s hs).sender]
          cases z <;> simp
        refine (ReplayGuard.keys_step hstep).trans (Finset.insert_subset hmem ?_)
        rw [hb]
        exact ih
    · rw [Function.update_of_ne hx]
      exact ih

theorem tracked (h : Relayed P (startWorld P party) tr w) (x : Side) :
    (w x).guard.trackedSenders < maxTrackedSenders :=
  calc (w x).guard.trackedSenders
      ≤ ({(party .a).key,(party .b).key} : Finset SenderKey).card := Finset.card_le_card (h.keys x)
    _ ≤ 2 := Finset.card_le_two
    _ < maxTrackedSenders := by decide

theorem seen_mono (h : Relayed P (startWorld P party) tr w) {x : Side} {ev : Event SK}
    {e' : StreamEndpoint SK} (hb : ev.before = w x)
    (hp : ev.input.perform P ev.before = some (ev.outcome,e')) {key : SenderKey} {counter : UInt64}
    (hs : (w x).guard.Seen key counter) : e'.guard.Seen key counter := by
  rw [← hb] at hs
  rcases perform_guard hp with hsame | ⟨c,-,-,-,hstep⟩
  · rwa [hsame]
  · exact ReplayGuard.seen_step hstep (hb ▸ h.tracked x) hs

theorem unseen_before (h : Relayed P (startWorld P party) tr w) {x : Side} {ev : Event SK}
    {e' : StreamEndpoint SK} (hb : ev.before = w x)
    (hp : ev.input.perform P ev.before = some (ev.outcome,e')) {z : Side} {key : SenderKey}
    {counter : UInt64} (hn : ¬ (Function.update w x e' z).guard.Seen key counter) :
    ¬ (w z).guard.Seen key counter := by
  intro hs
  by_cases hz : z = x
  · subst hz
    rw [Function.update_self] at hn
    exact hn (h.seen_mono hb hp hs)
  · rw [Function.update_of_ne hz] at hn
    exact hn hs

theorem at_index {w₀ : World SK} (h : Relayed P w₀ tr w) {i : ℕ} {x : Side} {ev : Event SK}
    (hi : tr[i]? = some (x,ev)) : ∃ w₁ e', Relayed P w₀ (tr.take i) w₁ ∧ ev.before = w₁ x ∧
      ev.input.perform P ev.before = some (ev.outcome,e') ∧
      (∀ envelope resolveSenderPub nowMs order entropy,
        ev.input = .accept envelope resolveSenderPub nowMs order entropy →
        Genuine P (tr.take i) ev.before envelope resolveSenderPub) ∧
      Relayed P w₀ (tr.take (i+1)) (Function.update w₁ x e') := by
  induction h with
  | nil => simp at hi
  | @snoc tr w y ev' e' hr hb hp hg ih =>
    obtain ⟨hlt,hi⟩ | ⟨rfl,he⟩ := Lists.getElem?_snoc_cases hi
    · rw [List.take_append_of_le_length (by omega),List.take_append_of_le_length (by omega)]
      exact ih hi
    · cases he
      have htake : (tr++[(x,ev)]).take tr.length = tr := by simp
      have hall : (tr++[(x,ev)]).take (tr.length+1) = tr++[(x,ev)] :=
        List.take_of_length_le (by simp)
      rw [htake,hall]
      exact ⟨w,e',hr,hb,hp,hg,hr.snoc hb hp hg⟩

theorem admitted_seen (h : Relayed P (startWorld P party) tr w) {i : ℕ} {x : Side} {ev : Event SK}
    (hi : tr[i]? = some (x,ev)) {key : SenderKey} {counter : UInt64} (hn : ev.refused P = false)
    (hpres : ev.Presents P key counter) : (w x).guard.Seen key counter := by
  induction h with
  | nil => simp at hi
  | @snoc tr w y ev' e' hr hb hp _ ih =>
    obtain ⟨-,hi⟩ | ⟨-,he⟩ := Lists.getElem?_snoc_cases hi
    · by_contra hn'
      exact hr.unseen_before hb hp hn' (ih hi)
    · cases he
      rw [Function.update_self]
      exact seen_of_not_refused hp hn hpres

/-- No side admits a counter twice. -/
theorem admitted_once (h : Relayed P (startWorld P party) tr w) {i j : ℕ} {x : Side}
    {ev₁ ev₂ : Event SK} (hi : tr[i]? = some (x,ev₁)) (hj : tr[j]? = some (x,ev₂))
    {key : SenderKey} {counter : UInt64} (hn₁ : ev₁.refused P = false)
    (hn₂ : ev₂.refused P = false) (hp₁ : ev₁.Presents P key counter)
    (hp₂ : ev₂.Presents P key counter) : i = j := by
  by_contra hne
  wlog hlt : i < j generalizing i j ev₁ ev₂
  · exact this hj hi hn₂ hn₁ hp₂ hp₁ (Ne.symm hne) (by omega)
  · obtain ⟨w₁,e',hr,hb,-⟩ := h.at_index hj
    have hi' : (tr.take j)[i]? = some (x,ev₁) := by rw [List.getElem?_take_of_lt hlt,hi]
    have hseen := hr.admitted_seen hi' hn₁ hp₁
    rw [← hb] at hseen
    rw [refused_of_seen hp₂ hseen] at hn₂
    cases hn₂

end Relayed
end
end DigMessage
