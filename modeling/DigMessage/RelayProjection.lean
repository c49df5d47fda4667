import DigMessage.Relay

/-! Each stream of a relayed run is a run of the two-slot machine. What a side has sealed
on the stream and its peer's table has not seen is in flight. -/
namespace DigMessage
open FixedWidth

/-- The result of an accept that had this reaction; an answer may fail to be sealed. -/
def Reaction.Reported : Reaction → Except MessageError StreamAccept → Prop
  | .event ev,res => res = .ok (.event ev)
  | .dropped cause,res => res = .ok (.dropped cause)
  | .reset cause,res => (∃ reply, res = .ok (.reset reply cause)) ∨ ∃ err, res = .error err

section
variable {SK : Type} {P : Primitives SK}

/-- The frame passed the anti-replay check and reached the slot of its stream. -/
structure Taken (peer : Party SK) (s : SealedFrame SK) (e : StreamEndpoint SK) (reaction : Reaction)
    (slot : Option StreamSession) (res : Except MessageError StreamAccept) (e' : StreamEndpoint SK) :
    Prop where
  unseen : ¬ e.guard.Seen peer.key s.frame.counter
  seen : e'.guard.Seen peer.key s.frame.counter
  receives : Receives (e.sessions.lookup s.params.correlationId)
    (decide (e.sessions.keys.card ≥ e.maxConcurrent)) s.frame.header s.frame.payload s.frame.kind
    reaction slot
  sessions : e'.sessions = putSession e.sessions s.params.correlationId slot
  reported : reaction.Reported res

theorem SealedFrame.Yields.counter {me peer : Party SK} {s : SealedFrame SK} {shape : InteractionShape}
    {inner : InnerMessage} (h : s.Yields P shape inner) (hs : s.Sound P me peer) :
    inner.counter = s.frame.counter := by
  obtain ⟨-,compressed,-,rfl⟩ := h
  exact hs.counter

theorem SealedFrame.Yields.payload {me peer : Party SK} {s : SealedFrame SK}
    {shape : InteractionShape} {inner : InnerMessage} (h : s.Yields P shape inner)
    (hs : s.Sound P me peer) (hz : P.ZstdLossless) :
    (s.frame.payload.length ≤ maxDecompressedBytes ∧
      decompressPayload P inner.compression inner.payload inner.uncompressedLen =
        .ok s.frame.payload) ∨
    (maxDecompressedBytes < s.frame.payload.length ∧
      ∃ err, decompressPayload P inner.compression inner.payload inner.uncompressedLen =
        .error err) := by
  obtain ⟨-,compressed,hc,rfl⟩ := h
  obtain ⟨hlen,hok⟩ := decompress_compress hz hc
  rw [hs.payload] at hlen hok
  rcases Nat.lt_or_ge maxDecompressedBytes s.frame.payload.length with hbig | hsmall
  · exact Or.inr ⟨hbig,_,decompress_bomb P (by rw [← hlen] at hbig; exact hbig)⟩
  · exact Or.inl ⟨hsmall,hok hsmall⟩

theorem Accepts.taken {me peer : Party SK} {s : SealedFrame SK} {order : HashOrder}
    {entropy : Except String Bytes32} {resolveSenderPub : Bytes32 → UInt32 → Option Bytes48}
    {nowMs : UInt64} {e e' : StreamEndpoint SK} {res : Except MessageError StreamAccept}
    {shape : InteractionShape} {inner : InnerMessage} {g' : ReplayGuard} (hpeer : e.peerDid = peer.did)
    (hs : s.Sound P peer me) (hy : s.Yields P shape inner)
    (hopen : openMessage P order e.identitySk s.envelope resolveSenderPub nowMs e.guard =
      some (.ok (openedMessage s.envelope shape inner s.frame.payload),g'))
    (hunseen : ¬ e.guard.Seen peer.key s.frame.counter)
    (hseen : g'.Seen peer.key s.frame.counter)
    (h : Accepts P order entropy s.envelope resolveSenderPub nowMs e res e') :
    ∃ reaction slot, Taken peer s e reaction slot res e' := by
  have haddr : ∀ {hdr kind}, Addressed e s.envelope
      (openedMessage s.envelope shape inner s.frame.payload) hdr kind →
      hdr = s.frame.header ∧ kind = s.frame.kind := by
    intro hdr kind ha
    have h₁ := ha.stream
    rw [hs.stream] at h₁
    cases h₁
    have h₂ := ha.kind
    rw [hs.kind] at h₂
    cases h₂
    exact ⟨rfl,rfl⟩
  have hcid := hs.correlationId
  cases h with
  | refused ho => rw [hopen] at ho; cases ho
  | idle cause ho hn =>
    rw [hopen] at ho
    cases ho
    refine absurd ⟨?_,hs.stream,hs.kind,?_⟩ (hn s.frame.header s.frame.kind)
    · rw [hpeer]
      exact congrArg Prod.fst hs.sender
    · rw [← hs.shape]
      exact hy.1
  | event ho ha hr =>
    rw [hopen] at ho
    cases ho
    obtain ⟨rfl,rfl⟩ := haddr ha
    rw [hcid] at hr ⊢
    exact ⟨_,_,hunseen,hseen,hr,rfl,rfl⟩
  | ignored ho ha hr =>
    rw [hopen] at ho
    cases ho
    obtain ⟨rfl,rfl⟩ := haddr ha
    rw [hcid] at hr
    refine ⟨_,_,hunseen,hseen,hr,?_,rfl⟩
    rw [← hr.dropped.1]
    exact (putSession_lookup _ _).symm
  | answered ho ha hr hn hseal =>
    rw [hopen] at ho
    cases ho
    obtain ⟨rfl,rfl⟩ := haddr ha
    rw [hcid] at hr ⊢
    exact ⟨_,_,hunseen,hseen,hr,rfl,Or.inl ⟨_,rfl⟩⟩
  | unanswered ho ha hr hn hseal =>
    rw [hopen] at ho
    cases ho
    obtain ⟨rfl,rfl⟩ := haddr ha
    rw [hcid] at hr ⊢
    exact ⟨_,_,hunseen,hseen,hr,rfl,Or.inr ⟨_,rfl⟩⟩

/-- A genuine frame is taken by its slot, or leaves the sessions as they are: it was not
admitted, or its payload is past the cap. -/
theorem accepts_genuine {me peer : Party SK} {s : SealedFrame SK} {order : HashOrder}
    {entropy : Except String Bytes32} {resolveSenderPub : Bytes32 → UInt32 → Option Bytes48}
    {nowMs : UInt64} {e e' : StreamEndpoint SK} {res : Except MessageError StreamAccept}
    (hz : P.ZstdLossless) (hpeer : e.peerDid = peer.did) (hs : s.Sound P peer me)
    (hyields : ∀ shape inner, authenticate P e.identitySk s.envelope resolveSenderPub =
      .ok (shape,inner) → s.Yields P shape inner)
    (h : Accepts P order entropy s.envelope resolveSenderPub nowMs e res e') :
    (∃ cause g, openMessage P order e.identitySk s.envelope resolveSenderPub nowMs e.guard =
        some (.error cause,g) ∧ res = .ok (.dropped cause) ∧ e' = {e with guard := g} ∧
      (admits P order e.identitySk s.envelope resolveSenderPub nowMs e.guard = true →
        maxDecompressedBytes < s.frame.payload.length)) ∨
    (s.frame.payload.length ≤ maxDecompressedBytes ∧
      (∃ m g, openMessage P order e.identitySk s.envelope resolveSenderPub nowMs e.guard =
        some (.ok m,g) ∧ m.payload = s.frame.payload) ∧
      ∃ reaction slot, Taken peer s e reaction slot res e') := by
  obtain ⟨cause,hopen,hno⟩ | ⟨shape,inner,g',had,hopen⟩ :=
    openMessage_cases P order e.identitySk s.envelope resolveSenderPub nowMs e.guard
  · -- refused up to the anti-replay check
    obtain ⟨hres,he⟩ := h.of_error hopen
    refine Or.inl ⟨cause,_,hopen,hres,he,fun had => ?_⟩
    obtain ⟨shape,inner,g',had⟩ := (admits_iff P).mp had
    exact absurd had (hno _ _ _)
  · have hy := hyields _ _ had.authentic
    obtain ⟨hsmall,hd⟩ | ⟨hbig,err,hd⟩ := hy.payload hs hz
    · rw [hd] at hopen
      simp only [Except.map] at hopen
      have hc := hy.counter hs
      have hkey : (s.envelope.sender,s.envelope.senderEpoch) = peer.key := hs.sender
      let c : Check := ⟨s.envelope.sender,s.envelope.senderEpoch,inner.counter,inner.timestampMs,
        nowMs,order⟩
      have hstep : c.Step e.guard true g' := had.admits
      have hunseen : ¬ e.guard.Seen peer.key s.frame.counter := by
        rw [← hkey,← hc]
        exact ((ReplayGuard.admitted_iff c e.guard).mp ⟨g',hstep⟩).2
      have hseen : g'.Seen peer.key s.frame.counter := by
        rw [← hkey,← hc]
        exact ReplayGuard.seen_of_admitted hstep
      exact Or.inr ⟨hsmall,⟨_,_,hopen,rfl⟩,h.taken hpeer hs hy hopen hunseen hseen⟩
    · rw [hd] at hopen
      obtain ⟨hres,he⟩ := h.of_error hopen
      exact Or.inl ⟨_,_,hopen,hres,he,fun _ => hbig⟩

namespace Event

def dataSent? (c : Bytes32) (ev : Event SK) : Option (List UInt8) :=
  match ev.input,ev.outcome with
  | .call d (.sendData payload) _ _ _,.called (.ok _) => if d = c then some payload else none
  | _,_ => none

def dataReported? (c : Bytes32) (ev : Event SK) : Option (List UInt8) :=
  match ev.input,ev.outcome with
  | .accept envelope _ _ _ _,.accepted (.ok (.event (.data payload))) =>
    if envelope.correlationId = c then some payload else none
  | _,_ => none

/-- The payload of a DATA frame that opened while the session of `c` was established,
whatever became of it. -/
def dataOpened? (P : Primitives SK) (c : Bytes32) (ev : Event SK) : Option (List UInt8) :=
  match ev.input with
  | .call .. => none
  | .accept envelope resolveSenderPub nowMs order _ =>
    match openMessage P order ev.before.identitySk envelope resolveSenderPub nowMs ev.before.guard,
        ev.before.sessions.lookup c,envelope.stream with
    | some (.ok m,_),some s,some hdr =>
      if envelope.correlationId = c ∧ s.handshake = .established ∧
        StreamFrame.fromU8 hdr.frame = some .data then some m.payload else none
    | _,_,_ => none

def opens (c : Bytes32) (ev : Event SK) : Bool :=
  match ev.input,ev.outcome with
  | .call d (.open _) _ _ _,.called (.ok _) => d = c
  | _,_ => false

end Event

def payloadsSent (x : Side) (c : Bytes32) (tr : History SK) : List (List UInt8) :=
  observe x (Event.dataSent? c) tr

def payloadsReported (y : Side) (c : Bytes32) (tr : History SK) : List (List UInt8) :=
  observe y (Event.dataReported? c) tr

def payloadsOpened (P : Primitives SK) (y : Side) (c : Bytes32) (tr : History SK) :
    List (List UInt8) := observe y (Event.dataOpened? P c) tr

/-- How often either side opened stream `c`. -/
def timesOpened (c : Bytes32) (tr : History SK) : ℕ := tr.countP fun p => p.2.opens c

theorem timesOpened_snoc (c : Bytes32) (tr : History SK) (x : Side) (ev : Event SK) :
    timesOpened c (tr++[(x,ev)]) = timesOpened c tr+if ev.opens c then 1 else 0 := by
  simp [timesOpened,List.countP_append,List.countP_singleton]

def Event.opensAny (ev : Event SK) : Bool :=
  match ev.input,ev.outcome with
  | .call _ (.open _) _ _ _,.called (.ok _) => true
  | _,_ => false

theorem timesOpened_le (c : Bytes32) (tr : History SK) :
    timesOpened c tr ≤ tr.countP fun p => p.2.opensAny := by
  apply List.countP_mono_left
  intro p _ h
  unfold Event.opens at h
  split at h
  · rename_i hi hout
    simp [Event.opensAny,hi,hout]
  · cases h

/-- The labels of the machine tell the same story as the history. -/
structure Observed (P : Primitives SK) (c : Bytes32) (tr : History SK) (ls : List Label) : Prop where
  sent : ∀ x, (dataSent x ls).map Prod.snd = payloadsSent x c tr
  reported : ∀ y, dataReported y ls = payloadsReported y c tr
  dataOpened : ∀ y, dataOpened y ls = payloadsOpened P y c tr
  opened : opened ls = timesOpened c tr

structure Matches (P : Primitives SK) (c : Bytes32) (x : Side) (ev : Event SK) (l : Label) : Prop where
  sent : ∀ z, (Label.dataSent z l).map Prod.snd = if x = z then ev.dataSent? c else none
  reported : ∀ z, Label.dataReported z l = if x = z then ev.dataReported? c else none
  dataOpened : ∀ z, Label.dataOpened z l = if x = z then ev.dataOpened? P c else none
  opens : ∀ z, Label.opens z l = (decide (x = z) && ev.opens c)

structure Quiet (P : Primitives SK) (c : Bytes32) (ev : Event SK) : Prop where
  sent : ev.dataSent? c = none
  reported : ev.dataReported? c = none
  dataOpened : ev.dataOpened? P c = none
  opens : ev.opens c = false

theorem Observed.nil (c : Bytes32) : Observed P c [] [] := ⟨fun _ => rfl,fun _ => rfl,fun _ => rfl,rfl⟩

theorem Observed.snoc {c : Bytes32} {tr : History SK} {ls : List Label} {x : Side} {ev : Event SK}
    {l : Label} (h : Observed P c tr ls) (hm : Matches P c x ev l) :
    Observed P c (tr++[(x,ev)]) (ls++[l]) where
  sent z := by
    have hz := h.sent z
    simp only [payloadsSent,observe_snoc,dataSent_snoc,List.map_append,← hm.sent z] at hz ⊢
    rw [hz]
    cases Label.dataSent z l <;> rfl
  reported z := by
    have hz := h.reported z
    simp only [payloadsReported,observe_snoc,dataReported_snoc,hm.reported z] at hz ⊢
    rw [hz]
  dataOpened z := by
    have hz := h.dataOpened z
    simp only [payloadsOpened,observe_snoc,dataOpened_snoc,hm.dataOpened z] at hz ⊢
    rw [hz]
  opened := by
    have ho := h.opened
    simp only [DigMessage.opened,DigMessage.opens,timesOpened,List.countP_append] at ho ⊢
    simp only [List.countP_singleton,hm.opens]
    cases x <;> simp <;> omega

theorem Observed.quiet {c : Bytes32} {tr : History SK} {ls : List Label} {x : Side} {ev : Event SK}
    (h : Observed P c tr ls) (hq : Quiet P c ev) : Observed P c (tr++[(x,ev)]) ls where
  sent z := by simpa [payloadsSent,observe_snoc,hq.sent] using h.sent z
  reported z := by simpa [payloadsReported,observe_snoc,hq.reported] using h.reported z
  dataOpened z := by simpa [payloadsOpened,observe_snoc,hq.dataOpened] using h.dataOpened z
  opened := by simpa [timesOpened,List.countP_append,hq.opens] using h.opened

theorem quiet_of_error {envelope : DigMessageEnvelope}
    {resolveSenderPub : Bytes32 → UInt32 → Option Bytes48} {nowMs : UInt64} {order : HashOrder}
    {entropy : Except String Bytes32} {ev : Event SK} {e' : StreamEndpoint SK} {cause : MessageError}
    {g : ReplayGuard} (hi : ev.input = .accept envelope resolveSenderPub nowMs order entropy)
    (hp : ev.input.perform P ev.before = some (ev.outcome,e'))
    (ho : openMessage P order ev.before.identitySk envelope resolveSenderPub nowMs ev.before.guard =
      some (.error cause,g)) :
    e'.sessions = ev.before.sessions ∧ ev.sealed? = none ∧ ∀ c, Quiet P c ev := by
  rw [hi] at hp
  obtain ⟨res,hout,hacc⟩ := Input.perform_accept P hp
  obtain ⟨rfl,rfl⟩ := hacc.of_error ho
  refine ⟨rfl,by simp [Event.sealed?,hi,hout],fun c => ?_⟩
  constructor <;> simp [Event.dataSent?,Event.dataReported?,Event.dataOpened?,Event.opens,hi,hout,ho]

theorem sealed_of_accept {ev : Event SK} {envelope : DigMessageEnvelope}
    {resolveSenderPub : Bytes32 → UInt32 → Option Bytes48} {nowMs : UInt64} {order : HashOrder}
    {entropy : Except String Bytes32} {s : SealedFrame SK}
    (hi : ev.input = .accept envelope resolveSenderPub nowMs order entropy)
    (hs : ev.sealed? = some s) :
    s.params.correlationId = envelope.correlationId ∧ s.frame.kind = .reset := by
  unfold Event.sealed? at hs
  split at hs
  · rename_i h₁ _
    rw [hi] at h₁
    cases h₁
  · rename_i h₁ _
    rw [hi] at h₁
    cases h₁
    cases hs
    exact ⟨rfl,rfl⟩
  · cases hs

theorem quiet_of_other {c : Bytes32} {ev : Event SK} {envelope : DigMessageEnvelope}
    {resolveSenderPub : Bytes32 → UInt32 → Option Bytes48} {nowMs : UInt64} {order : HashOrder}
    {entropy : Except String Bytes32}
    (hi : ev.input = .accept envelope resolveSenderPub nowMs order entropy)
    (hc : envelope.correlationId ≠ c) : Quiet P c ev where
  sent := by simp [Event.dataSent?,hi]
  reported := by
    unfold Event.dataReported?
    split
    · rename_i h₁ _
      rw [hi] at h₁
      cases h₁
      exact if_neg hc
    · rfl
  dataOpened := by
    unfold Event.dataOpened?
    rw [hi]
    simp only [hc,false_and,if_false]
    split <;> rfl
  opens := by simp [Event.opens,hi]

theorem Taken.matches {me peer : Party SK} {s : SealedFrame SK} {x : Side} {ev : Event SK}
    {e' : StreamEndpoint SK} {resolveSenderPub : Bytes32 → UInt32 → Option Bytes48} {nowMs : UInt64}
    {order : HashOrder} {entropy : Except String Bytes32} {res : Except MessageError StreamAccept}
    {m : OpenedMessage} {g : ReplayGuard} {reaction : Reaction} {slot : Option StreamSession}
    (hs : s.Sound P peer me)
    (hi : ev.input = .accept s.envelope resolveSenderPub nowMs order entropy)
    (hout : ev.outcome = .accepted res)
    (hopen : openMessage P order ev.before.identitySk s.envelope resolveSenderPub nowMs
      ev.before.guard = some (.ok m,g)) (hm : m.payload = s.frame.payload)
    (ht : Taken peer s ev.before reaction slot res e') :
    Matches P s.params.correlationId x ev
      (.received x (ev.before.sessions.lookup s.params.correlationId) s.frame reaction) where
  sent z := by simp [Label.dataSent,Event.dataSent?,hi]
  reported z := by
    have hcid := hs.correlationId
    have hrep := ht.reported
    cases reaction with
    | event e =>
      rw [show res = _ from hrep] at hout
      cases e <;> simp [Label.dataReported,Event.dataReported?,hi,hout,hcid]
    | dropped cause =>
      rw [show res = _ from hrep] at hout
      simp [Label.dataReported,Event.dataReported?,hi,hout]
    | reset cause =>
      obtain ⟨reply,hres⟩ | ⟨err,hres⟩ := hrep <;>
        simp [Label.dataReported,Event.dataReported?,hi,hout,hres]
  dataOpened z := by
    cases hl : ev.before.sessions.lookup s.params.correlationId with
    | none => simp [Label.dataOpened,Event.dataOpened?,hi,hopen,hl]
    | some t =>
      simp only [Label.dataOpened,Event.dataOpened?,hi,hopen,hl,hs.stream,hs.kind,hs.correlationId,
        Option.some.injEq,true_and,hm]
      by_cases hz : x = z <;> simp [hz]
  opens z := by simp [Label.opens,Event.opens,hi]

/-- The machine's slots are those of stream `c`, and every frame sealed on it that its
receiver's table has not seen is in flight. -/
structure Projects (party : Side → Party SK) (c : Bytes32) (tr : History SK) (w : World SK)
    (σ : StreamPair) : Prop where
  slot : ∀ x, σ.slot x = (w x).sessions.lookup c
  flight : ∀ x, ∀ s ∈ sealedBy x tr, s.params.correlationId = c →
    ¬ (w x.other).guard.Seen (party x).key s.frame.counter → s.frame ∈ σ.flight x

/-- The event presents a frame of the peer, and what it opens to is what was sealed. -/
def Crosses (P : Primitives SK) (tr : History SK) (x : Side) (ev : Event SK) : Prop :=
  ∃ s ∈ sealedBy x.other tr, ∃ resolveSenderPub nowMs order entropy,
    ev.input = .accept s.envelope resolveSenderPub nowMs order entropy ∧
    ∀ shape inner, authenticate P ev.before.identitySk s.envelope resolveSenderPub =
      .ok (shape,inner) → s.Yields P shape inner

/-- The event is a call, presents a frame of the peer, or does nothing to stream `c`. -/
def Clean (P : Primitives SK) (c : Bytes32) (tr : History SK) (x : Side) (ev : Event SK)
    (e' : StreamEndpoint SK) : Prop :=
  (∃ d r nowMs expiresAt entropy, ev.input = .call d r nowMs expiresAt entropy) ∨
  Crosses P tr x ev ∨
  (e'.sessions = ev.before.sessions ∧ ev.sealed? = none ∧ Quiet P c ev)

namespace Relayed
variable {party : Side → Party SK} {tr : History SK} {w : World SK} {x : Side} {ev : Event SK}
  {e' : StreamEndpoint SK}

theorem unseen_cases (hr : Relayed P (startWorld P party) tr w) (hb : ev.before = w x)
    (hp : ev.input.perform P ev.before = some (ev.outcome,e')) {z : Side} {s : SealedFrame SK}
    (hs : s ∈ sealedBy z (tr++[(x,ev)])) {key : SenderKey} {counter : UInt64}
    (hn : ¬ (Function.update w x e' z.other).guard.Seen key counter) :
    (s ∈ sealedBy z tr ∧ ¬ (w z.other).guard.Seen key counter) ∨ (x = z ∧ ev.sealed? = some s) := by
  rw [sealedBy_snoc,List.mem_append] at hs
  rcases hs with hs | hs
  · exact Or.inl ⟨hs,hr.unseen_before hb hp hn⟩
  · rw [Option.mem_toList] at hs
    split at hs
    · exact Or.inr ⟨‹_›,hs⟩
    · cases hs

end Relayed

namespace Projects
variable {party : Side → Party SK} {c : Bytes32} {tr : History SK} {w : World SK} {x : Side}
  {ev : Event SK} {e' : StreamEndpoint SK} {σ : StreamPair}

theorem nil (c : Bytes32) : Projects party c [] (startWorld P party) ⟨fun _ => none,fun _ => []⟩ :=
  ⟨fun _ => rfl,fun _ _ hs => absurd hs List.not_mem_nil⟩

theorem still (h : Projects party c tr w σ) (hr : Relayed P (startWorld P party) tr w)
    (hb : ev.before = w x) (hp : ev.input.perform P ev.before = some (ev.outcome,e'))
    (hl : e'.sessions.lookup c = ev.before.sessions.lookup c)
    (hs : ∀ s, ev.sealed? = some s → s.params.correlationId ≠ c) :
    Projects party c (tr++[(x,ev)]) (Function.update w x e') σ where
  slot z := by
    by_cases hz : z = x
    · subst hz
      rw [Function.update_self,hl,hb]
      exact h.slot z
    · rw [Function.update_of_ne hz]
      exact h.slot z
  flight z s hmem hc hn := by
    rcases hr.unseen_cases hb hp hmem hn with ⟨hold,hn'⟩ | ⟨-,hnew⟩
    · exact h.flight z s hold hc hn'
    · exact absurd hc (hs s hnew)

theorem call (h : Projects party c tr w σ) (hr : Relayed P (startWorld P party) tr w)
    (hb : ev.before = w x) (hp : ev.input.perform P ev.before = some (ev.outcome,e'))
    {d : Bytes32} {r : Request} {nowMs expiresAt : UInt64} {entropy : Except String Bytes32}
    (hi : ev.input = .call d r nowMs expiresAt entropy) :
    (Projects party c (tr++[(x,ev)]) (Function.update w x e') σ ∧ Quiet P c ev) ∨
    ∃ l σ', StreamPair.Step σ l σ' ∧ Projects party c (tr++[(x,ev)]) (Function.update w x e') σ' ∧
      Matches P c x ev l := by
  have hp' := hp
  rw [hi] at hp'
  obtain ⟨res,hout,hcall⟩ := Input.perform_call P hp'
  by_cases hd : d = c
  · subst hd
    have hslot : σ.slot x = ev.before.sessions.lookup d := by rw [h.slot x,hb]
    cases hcall with
    | rejected err =>
      refine Or.inl ⟨h.still hr hb hp rfl ?_,?_⟩
      · simp [Event.sealed?,hi,hout]
      · cases r <;> constructor <;> simp [Event.dataSent?,Event.dataReported?,Event.dataOpened?,
          Event.opens,hi,hout]
    | unsealed hsend hn hseal =>
      rw [← hslot] at hsend
      refine Or.inr ⟨_,_,.failed hsend,⟨?_,?_⟩,?_⟩
      · intro z
        by_cases hz : z = x
        · subst hz
          simp
        · simp [Function.update_of_ne hz,h.slot z]
      · intro z s hmem hc hn'
        rcases hr.unseen_cases hb hp hmem hn' with ⟨hold,hn''⟩ | ⟨-,hnew⟩
        · exact h.flight z s hold hc hn''
        · simp [Event.sealed?,hi,hout] at hnew
      · cases r <;> constructor <;> simp [Event.dataSent?,Event.dataReported?,Event.dataOpened?,
          Event.opens,hi,hout,Label.dataSent,Label.dataReported,Label.dataOpened,Label.opens]
    | @«sealed» hdr after failed next env hsend hn hseal =>
      have hhdr := hsend.header_eq
      rw [← hslot] at hsend
      refine Or.inr ⟨_,_,.sent (f:=⟨ev.before.sendCounter,r.kind,hdr,r.payload⟩) hsend rfl rfl,
        ⟨?_,?_⟩,?_⟩
      · intro z
        by_cases hz : z = x
        · subst hz
          simp
        · simp [Function.update_of_ne hz,h.slot z]
      · intro z s hmem hc hn'
        rcases hr.unseen_cases hb hp hmem hn' with ⟨hold,hn''⟩ | ⟨rfl,hnew⟩
        · have hf := h.flight z s hold hc hn''
          by_cases hz : z = x
          · subst hz
            simp [hf]
          · simp [Function.update_of_ne hz,hf]
        · simp only [Event.sealed?,hi,hout,Option.some.injEq] at hnew
          subst hnew
          simp [sealedFrame,hhdr]
      · cases r <;> constructor <;> intro z <;> simp [Event.dataSent?,Event.dataReported?,
          Event.dataOpened?,Event.opens,hi,hout,Label.dataSent,Label.dataReported,Label.dataOpened,
          Label.opens,Request.kind]
  · refine Or.inl ⟨h.still hr hb hp ?_ ?_,?_⟩
    · cases hcall with
      | rejected err => rfl
      | «sealed» hsend hn hseal => exact lookup_putSession_ne _ _ (Ne.symm hd)
      | unsealed hsend hn hseal => exact lookup_putSession_ne _ _ (Ne.symm hd)
    · intro s hs
      cases res with
      | error err => simp [Event.sealed?,hi,hout] at hs
      | ok env =>
        simp only [Event.sealed?,hi,hout,Option.some.injEq] at hs
        subst hs
        exact hd
    · cases res <;> cases r <;> constructor <;> simp [Event.dataSent?,Event.dataReported?,
        Event.dataOpened?,Event.opens,hi,hout,hd]

theorem taken (h : Projects party c tr w σ) (hr : Relayed P (startWorld P party) tr w)
    (hb : ev.before = w x) (hp : ev.input.perform P ev.before = some (ev.outcome,e'))
    {s : SealedFrame SK} {resolveSenderPub : Bytes32 → UInt32 → Option Bytes48} {nowMs : UInt64}
    {order : HashOrder} {entropy : Except String Bytes32} {res : Except MessageError StreamAccept}
    {reaction : Reaction} {slot : Option StreamSession} (hs : s ∈ sealedBy x.other tr)
    (hi : ev.input = .accept s.envelope resolveSenderPub nowMs order entropy)
    (hc : s.params.correlationId = c)
    (ht : Taken (party x.other) s ev.before reaction slot res e') :
    ∃ σ', StreamPair.Step σ (.received x (ev.before.sessions.lookup c) s.frame reaction) σ' ∧
      Projects party c (tr++[(x,ev)]) (Function.update w x e') σ' := by
  subst hc
  have hmem : s.frame ∈ σ.flight x.other := by
    refine h.flight x.other s hs rfl ?_
    rw [Side.other_other,← hb]
    exact ht.unseen
  have hslot : ev.before.sessions.lookup s.params.correlationId = σ.slot x := by rw [h.slot x,hb]
  have hrecv := ht.receives
  rw [hslot] at hrecv
  have hreset : ∀ f ∈ (ev.sealed?.map SealedFrame.frame).toList, f.kind = .reset := by
    intro f hf
    obtain ⟨s',hs',rfl⟩ := Option.map_eq_some_iff.mp (Option.mem_toList.mp hf)
    exact (sealed_of_accept hi hs').2
  rw [hslot]
  refine ⟨_,.received hmem (List.Sublist.refl _) hrecv hreset,?_,?_⟩
  · intro z
    by_cases hz : z = x
    · subst hz
      simp [ht.sessions]
    · simp [Function.update_of_ne hz,h.slot z]
  · intro z s' hmem hc' hn
    rcases hr.unseen_cases hb hp hmem hn with ⟨hold,hn'⟩ | ⟨rfl,hnew⟩
    · have hf := h.flight z s' hold hc' hn'
      rcases Side.eq_or_other z x with rfl | rfl
      · simp [hf]
      · -- another counter than the one just seen, so another frame
        rw [Side.other_other,Function.update_self] at hn
        have hne : s'.frame ≠ s.frame := by
          intro he
          rw [he] at hn
          exact hn ht.seen
        simp [List.mem_erase_of_ne hne,hf]
    · simp [hnew]

theorem accept (hz : P.ZstdLossless) (h : Projects party c tr w σ)
    (hr : Relayed P (startWorld P party) tr w) (hb : ev.before = w x)
    (hp : ev.input.perform P ev.before = some (ev.outcome,e')) (hx : Crosses P tr x ev) :
    (Projects party c (tr++[(x,ev)]) (Function.update w x e') σ ∧ Quiet P c ev) ∨
    ∃ l σ', StreamPair.Step σ l σ' ∧ Projects party c (tr++[(x,ev)]) (Function.update w x e') σ' ∧
      Matches P c x ev l := by
  obtain ⟨s,hs,resolveSenderPub,nowMs,order,entropy,hi,hyields⟩ := hx
  have hsound := hr.sound x.other s hs
  rw [Side.other_other] at hsound
  have hp' := hp
  rw [hi] at hp'
  obtain ⟨res,hout,hacc⟩ := Input.perform_accept P hp'
  obtain ⟨cause,g,hopen,-,-,-⟩ | ⟨-,⟨m,g,hopen,hm⟩,reaction,slot,ht⟩ :=
    accepts_genuine hz (hb ▸ (hr.owns x).peerDid) hsound hyields hacc
  · obtain ⟨hsame,hno,hq⟩ := quiet_of_error hi hp hopen
    exact Or.inl ⟨h.still hr hb hp (by rw [hsame]) (by simp [hno]),hq c⟩
  · have hcid := hsound.correlationId
    by_cases hc : s.params.correlationId = c
    · obtain ⟨σ',hstep,hproj⟩ := h.taken hr hb hp hs hi hc ht
      have hmatch := ht.matches (x:=x) hsound hi hout hopen hm
      rw [hc] at hmatch
      exact Or.inr ⟨_,σ',hstep,hproj,hmatch⟩
    · refine Or.inl ⟨h.still hr hb hp ?_ ?_,quiet_of_other hi (by rwa [hcid])⟩
      · rw [ht.sessions]
        exact lookup_putSession_ne _ _ (Ne.symm hc)
      · intro s' hs'
        rw [(sealed_of_accept hi hs').1,hcid]
        exact hc

theorem step (hz : P.ZstdLossless) (h : Projects party c tr w σ)
    (hr : Relayed P (startWorld P party) tr w) (hb : ev.before = w x)
    (hp : ev.input.perform P ev.before = some (ev.outcome,e')) (hc : Clean P c tr x ev e') :
    (Projects party c (tr++[(x,ev)]) (Function.update w x e') σ ∧ Quiet P c ev) ∨
    ∃ l σ', StreamPair.Step σ l σ' ∧ Projects party c (tr++[(x,ev)]) (Function.update w x e') σ' ∧
      Matches P c x ev l := by
  obtain ⟨d,r,nowMs,expiresAt,entropy,hi⟩ | hx | ⟨hsame,hno,hq⟩ := hc
  · exact h.call hr hb hp hi
  · exact h.accept hz hr hb hp hx
  · exact Or.inl ⟨h.still hr hb hp (by rw [hsame]) (by simp [hno]),hq⟩

end Projects

inductive CleanRun (P : Primitives SK) (c : Bytes32) : History SK → Prop
  | nil : CleanRun P c []
  | snoc {tr : History SK} {x : Side} {ev : Event SK} : CleanRun P c tr →
      (∀ e', ev.input.perform P ev.before = some (ev.outcome,e') → Clean P c tr x ev e') →
      CleanRun P c (tr++[(x,ev)])

/-- Each stream of a relayed run is a run of the two-slot machine from nothing. -/
theorem Relayed.projects {party : Side → Party SK} {tr : History SK} {w : World SK} {c : Bytes32}
    (hz : P.ZstdLossless) (hr : Relayed P (startWorld P party) tr w) (hc : CleanRun P c tr) :
    ∃ ls σ, StreamPair.Run ⟨fun _ => none,fun _ => []⟩ ls σ ∧ Projects party c tr w σ ∧
      Observed P c tr ls := by
  induction hr with
  | nil => exact ⟨[],_,.nil,.nil c,.nil c⟩
  | @snoc tr w x ev e' hr hb hp _ ih =>
    generalize htr : tr++[(x,ev)] = tr' at hc
    cases hc with
    | nil => simp at htr
    | snoc hc hlast =>
      obtain ⟨rfl,hlast'⟩ := List.append_inj' htr rfl
      cases hlast'
      obtain ⟨ls,σ,hrun,hproj,hobs⟩ := ih hc
      obtain ⟨hproj',hq⟩ | ⟨l,σ',hstep,hproj',hm⟩ := hproj.step hz hr hb hp (hlast e' hp)
      · exact ⟨ls,σ,hrun,hproj',hobs.quiet hq⟩
      · exact ⟨ls++[l],σ',hrun.snoc hstep,hproj',hobs.snoc hm⟩

theorem StreamPair.fresh_empty : StreamPair.Fresh ⟨fun _ => none,fun _ => []⟩ :=
  ⟨fun _ => rfl,fun _ _ hf => absurd hf List.not_mem_nil⟩

/-- On a stream opened at most once, what a side reports is what its peer sent. -/
theorem Relayed.prefix_of_sent {party : Side → Party SK} {tr : History SK} {w : World SK}
    {c : Bytes32} (hz : P.ZstdLossless) (hr : Relayed P (startWorld P party) tr w)
    (hc : CleanRun P c tr) (honce : timesOpened c tr ≤ 1) (y : Side) :
    payloadsReported y c tr <+: payloadsSent y.other c tr := by
  obtain ⟨ls,σ,hrun,-,hobs⟩ := hr.projects hz hc
  rw [← hobs.opened] at honce
  rw [← hobs.reported y,← hobs.sent y.other]
  exact (hrun.delivery StreamPair.fresh_empty honce).prefix_of_sent y

end
end DigMessage
