import DigMessage.RelayProjection
import DigMessage.RelaySchedule

/-! Two endpoints on one identity. Nothing in a frame says which of them sealed it, so a
frame presented to its own sealer authenticates there, and acts unless the anti-replay
table, its lifetime or an empty slot stops it. -/
namespace DigMessage
open FixedWidth

/-- The sides share one identity: name, key epoch and key. -/
structure SharedIdentity {SK : Type} (party : Side → Party SK) : Prop where
  did : (party .a).did = (party .b).did
  epoch : (party .a).epoch = (party .b).epoch
  identitySk : (party .a).identitySk = (party .b).identitySk

section
variable {SK : Type} {P : Primitives SK} {party : Side → Party SK} {tr : History SK} {w : World SK}

namespace SharedIdentity

theorem key_other (h : SharedIdentity party) (x : Side) : (party x.other).key = (party x).key := by
  cases x
  · exact Prod.ext h.did.symm h.epoch.symm
  · exact Prod.ext h.did h.epoch

theorem identitySk_other (h : SharedIdentity party) (x : Side) :
    (party x.other).identitySk = (party x).identitySk := by
  cases x
  · exact h.identitySk.symm
  · exact h.identitySk

end SharedIdentity

namespace Event

/-- The resolver of an accept knows no other key for this identity than its own. -/
def ResolvesTruly (P : Primitives SK) (me : Party SK) (ev : Event SK) : Prop :=
  match ev.input with
  | .call .. => True
  | .accept _ resolveSenderPub _ _ _ => ∀ pub, resolveSenderPub me.did me.epoch = some pub →
    pub = P.publicKeyBytes me.identitySk

instance (me : Party SK) (ev : Event SK) : Decidable (ev.ResolvesTruly P me) := by
  unfold ResolvesTruly
  split
  · exact .isTrue trivial
  · rename_i resolveSenderPub _ _ _ _
    exact decidable_of_iff (((resolveSenderPub me.did me.epoch).all fun pub =>
      pub = P.publicKeyBytes me.identitySk) = true) (by simp [Option.all_eq_true])

/-- The accept returned `Dropped` and left every session as it was. -/
def Ignored (P : Primitives SK) (ev : Event SK) : Prop :=
  (∃ cause, ev.outcome = .accepted (.ok (.dropped cause))) ∧
  ∃ e', ev.input.perform P ev.before = some (ev.outcome,e') ∧ e'.sessions = ev.before.sessions

/-- What stops a frame presented to its own sealer: an unknown identity, a lifetime too long
or past, a stale timestamp, a counter already seen, a payload past the cap, or, unless it
is an OPEN, a stream without a session. -/
def Stopped (me : Party SK) (s : SealedFrame SK) (ev : Event SK) : Prop :=
  match ev.input with
  | .call .. => True
  | .accept _ resolveSenderPub nowMs _ _ =>
    resolveSenderPub me.did me.epoch = none ∨
    (s.params.expiresAt ≠ 0 ∧ (¬ s.params.expiresAt ≤ saturatingAdd s.params.timestampMs maxMessageTtlMs ∨
      ¬ nowMs ≤ s.params.expiresAt)) ∨
    ReplayGuard.fresh s.params.timestampMs nowMs = false ∨
    ev.before.guard.Seen me.key s.frame.counter ∨
    maxDecompressedBytes < s.frame.payload.length ∨
    (s.frame.kind ≠ .open ∧ s.params.correlationId ∉ ev.before.sessions)

instance (me : Party SK) (s : SealedFrame SK) (ev : Event SK) : Decidable (ev.Stopped me s) := by
  unfold Stopped
  split <;> infer_instance

end Event

theorem yields_of_resolves {me peer : Party SK} {s : SealedFrame SK} {recipientSk : SK}
    {resolveSenderPub : Bytes32 → UInt32 → Option Bytes48} {shape : InteractionShape}
    {inner : InnerMessage} (hP : P.Lawful) (hs : s.Sound P me peer) (hsk : recipientSk = peer.identitySk)
    (ht : ∀ pub, resolveSenderPub me.did me.epoch = some pub → pub = P.publicKeyBytes me.identitySk)
    (ha : authenticate P recipientSk s.envelope resolveSenderPub = .ok (shape,inner)) :
    s.Yields P shape inner := by
  obtain ⟨pub,hpub⟩ := hs.resolves ha
  obtain rfl := ht pub hpub
  obtain ⟨inner',ha',hy⟩ := hs.authenticates hP hpub
  rw [hsk,ha'] at ha
  cases ha
  exact hy

/-- What stops a truly resolved frame: the resolver, the gates up to the anti-replay check, the
cap or the empty slot. -/
theorem stopped_iff {me peer : Party SK} {s : SealedFrame SK} {ev : Event SK}
    {resolveSenderPub : Bytes32 → UInt32 → Option Bytes48} {nowMs : UInt64} {order : HashOrder}
    {entropy : Except String Bytes32} (hP : P.Lawful) (hs : s.Sound P me peer)
    (hsk : ev.before.identitySk = peer.identitySk)
    (hi : ev.input = .accept s.envelope resolveSenderPub nowMs order entropy)
    (ht : ∀ pub, resolveSenderPub me.did me.epoch = some pub → pub = P.publicKeyBytes me.identitySk) :
    ev.Stopped me s ↔ (resolveSenderPub me.did me.epoch = none ∨
      ¬ admits P order ev.before.identitySk s.envelope resolveSenderPub nowMs ev.before.guard ∨
      maxDecompressedBytes < s.frame.payload.length ∨
      (s.frame.kind ≠ .open ∧ s.params.correlationId ∉ ev.before.sessions)) := by
  cases hres : resolveSenderPub me.did me.epoch with
  | none => simp [Event.Stopped,hi,hres]
  | some pub =>
    obtain rfl := ht pub hres
    rw [hsk,hs.admits_iff hP hres,checkExpiry_ok]
    simp only [Event.Stopped,hi,hres,reduceCtorEq,false_or,not_and_or,not_or,not_not,ne_eq,
      Bool.not_eq_true,or_assoc]

theorem Taken.dropped_iff {peer : Party SK} {s : SealedFrame SK} {e e' : StreamEndpoint SK}
    {reaction : Reaction} {slot : Option StreamSession} {res : Except MessageError StreamAccept}
    (h : Taken peer s e reaction slot res e') :
    (∃ cause, res = .ok (.dropped cause)) ↔
      s.frame.kind ≠ .open ∧ s.params.correlationId ∉ e.sessions := by
  have hrecv := h.receives
  have hrep := h.reported
  constructor
  · rintro ⟨cause,rfl⟩
    cases reaction with
    | event e => cases hrep
    | dropped cause' =>
      obtain ⟨hnone,hk⟩ := hrecv.dropped
      exact ⟨hk,Finmap.lookup_eq_none.mp hnone⟩
    | reset cause' =>
      obtain ⟨reply,hres⟩ | ⟨err,hres⟩ := hrep <;> cases hres
  · rintro ⟨hkind,hstray⟩
    rw [Finmap.lookup_eq_none.mpr hstray] at hrecv
    obtain hk | ⟨rfl,cause,rfl⟩ := hrecv.none_cases
    · exact absurd hk hkind
    · exact ⟨cause,hrep⟩

theorem quiet_of_stray {me peer : Party SK} {s : SealedFrame SK} {ev : Event SK}
    {e' : StreamEndpoint SK} {resolveSenderPub : Bytes32 → UInt32 → Option Bytes48} {nowMs : UInt64}
    {order : HashOrder} {entropy : Except String Bytes32} {reaction : Reaction}
    {slot : Option StreamSession} {cause : MessageError} (hs : s.Sound P me peer)
    (hi : ev.input = .accept s.envelope resolveSenderPub nowMs order entropy)
    (hout : ev.outcome = .accepted (.ok (.dropped cause)))
    (hstray : s.frame.kind ≠ .open ∧ s.params.correlationId ∉ ev.before.sessions)
    (ht : Taken me s ev.before reaction slot (.ok (.dropped cause)) e') :
    e'.sessions = ev.before.sessions ∧ ev.sealed? = none ∧ ∀ c, Quiet P c ev := by
  have hnone := Finmap.lookup_eq_none.mpr hstray.2
  have hrecv := ht.receives
  rw [hnone] at hrecv
  obtain hk | ⟨rfl,-⟩ := hrecv.none_cases
  · exact absurd hk hstray.1
  refine ⟨?_,by simp [Event.sealed?,hi,hout],fun c => ?_⟩
  · rw [ht.sessions,← hnone]
    exact putSession_lookup _ _
  · by_cases hc : s.params.correlationId = c
    · rw [hc] at hnone
      exact ⟨by simp [Event.dataSent?,hi],by simp [Event.dataReported?,hi,hout],
        by simp [Event.dataOpened?,hi,hnone],by simp [Event.opens,hi]⟩
    · exact quiet_of_other hi (by rwa [hs.correlationId])

/-- The frame presented to its own sealer is stopped and does nothing at all, or it acts. -/
theorem reflected_cases {x : Side} {ev : Event SK} {e' : StreamEndpoint SK} {s : SealedFrame SK}
    {resolveSenderPub : Bytes32 → UInt32 → Option Bytes48} {nowMs : UInt64} {order : HashOrder}
    {entropy : Except String Bytes32} (hP : P.Lawful) (hsh : SharedIdentity party)
    (hr : Relayed P (startWorld P party) tr w) (hb : ev.before = w x)
    (hp : ev.input.perform P ev.before = some (ev.outcome,e')) (hs : s ∈ sealedBy x tr)
    (hi : ev.input = .accept s.envelope resolveSenderPub nowMs order entropy)
    (ht : ev.ResolvesTruly P (party x)) :
    (ev.Stopped (party x) s ∧ (∃ cause, ev.outcome = .accepted (.ok (.dropped cause))) ∧
      e'.sessions = ev.before.sessions ∧ ev.sealed? = none ∧ ∀ c, Quiet P c ev) ∨
    (¬ ev.Stopped (party x) s ∧ ∀ cause, ev.outcome ≠ .accepted (.ok (.dropped cause))) := by
  have hsound := hr.sound x s hs
  have hpeer : ev.before.peerDid = (party x).did := by
    rw [hb,(hr.owns x).peerDid]
    exact congrArg Prod.fst (hsh.key_other x)
  have hsk : ev.before.identitySk = (party x.other).identitySk := by
    rw [hb,(hr.owns x).identitySk,hsh.identitySk_other x]
  simp only [Event.ResolvesTruly,hi] at ht
  have hstop := stopped_iff hP hsound hsk hi ht
  have hp' := hp
  rw [hi] at hp'
  obtain ⟨res,hout,hacc⟩ := Input.perform_accept P hp'
  obtain ⟨cause,g,hopen,hres,-,hbig⟩ | ⟨hsmall,⟨m,g,hopen,hm⟩,reaction,slot,htaken⟩ :=
    accepts_genuine hP.zstd hpeer hsound (fun _ _ => yields_of_resolves hP hsound hsk ht) hacc
  · obtain ⟨hsame,hno,hq⟩ := quiet_of_error hi hp hopen
    refine Or.inl ⟨hstop.mpr ?_,⟨cause,by rw [hout,hres]⟩,hsame,hno,hq⟩
    by_cases had : admits P order ev.before.identitySk s.envelope resolveSenderPub nowMs
        ev.before.guard = true
    · exact Or.inr (Or.inr (Or.inl (hbig had)))
    · exact Or.inr (Or.inl had)
  · by_cases hstray : s.frame.kind ≠ .open ∧ s.params.correlationId ∉ ev.before.sessions
    · obtain ⟨cause,rfl⟩ := htaken.dropped_iff.mpr hstray
      exact Or.inl ⟨hstop.mpr (Or.inr (Or.inr (Or.inr hstray))),⟨cause,hout⟩,
        quiet_of_stray hsound hi hout hstray htaken⟩
    · refine Or.inr ⟨fun hst => ?_,fun cause hdrop => ?_⟩
      · have had := admits_of_open P hopen
        obtain ⟨shape,inner,g',hadm⟩ := (admits_iff P).mp had
        obtain ⟨pub,hpub⟩ := hsound.resolves hadm.authentic
        rcases hstop.mp hst with hn | hn | hn | hn
        · rw [hpub] at hn
          cases hn
        · exact hn had
        · exact absurd hsmall (Nat.not_le.mpr hn)
        · exact hstray hn
      · rw [hout] at hdrop
        cases hdrop
        exact hstray (htaken.dropped_iff.mp ⟨cause,rfl⟩)

/-- An envelope `x` sealed is presented to `x` itself at `i`. -/
def Reflected (tr : History SK) (i : ℕ) (x : Side) (ev : Event SK) (s : SealedFrame SK) : Prop :=
  tr[i]? = some (x,ev) ∧ s ∈ sealedBy x (tr.take i) ∧ ev.presented? = some s.envelope

theorem presented_iff {ev : Event SK} {envelope : DigMessageEnvelope} :
    ev.presented? = some envelope ↔ ∃ resolveSenderPub nowMs order entropy,
      ev.input = .accept envelope resolveSenderPub nowMs order entropy := by
  unfold Event.presented?
  cases ev.input <;> simp [eq_comm]

theorem Reflected.snoc {i : ℕ} {x y : Side} {ev ev' : Event SK} {s : SealedFrame SK}
    (h : Reflected tr i x ev s) : Reflected (tr++[(y,ev')]) i x ev s := by
  obtain ⟨hi,hs,hp⟩ := h
  have hlt := (List.getElem?_eq_some_iff.mp hi).1
  exact ⟨by rw [List.getElem?_append_left hlt,hi],by rwa [List.take_append_of_le_length hlt.le],hp⟩

theorem Relayed.clean_of_stopped (hP : P.Lawful) (hsh : SharedIdentity party)
    (hr : Relayed P (startWorld P party) tr w)
    (htrue : ∀ (i : ℕ) (x : Side) (ev : Event SK), tr[i]? = some (x,ev) →
      ev.ResolvesTruly P (party x))
    (hstop : ∀ (i : ℕ) (x : Side) (ev : Event SK) (s : SealedFrame SK), Reflected tr i x ev s →
      ev.Stopped (party x) s) (c : Bytes32) : CleanRun P c tr := by
  induction hr with
  | nil => exact .nil
  | @snoc tr w x ev e₁ hr hb hp hg ih =>
    have hlast : (tr++[(x,ev)])[tr.length]? = some (x,ev) := List.getElem?_concat_length
    refine .snoc (ih (fun i z ev' hi => htrue i z ev' ?_) fun i z ev' s hrefl =>
      hstop i z ev' s hrefl.snoc) fun e' hp' => ?_
    · rw [List.getElem?_append_left (List.getElem?_eq_some_iff.mp hi).1,hi]
    · cases hi : ev.input with
      | call d r nowMs expiresAt entropy => exact Or.inl ⟨_,_,_,_,_,hi⟩
      | accept envelope resolveSenderPub nowMs order entropy =>
        by_cases hown : ∃ s ∈ sealedBy x tr, s.envelope = envelope
        · obtain ⟨s,hs,rfl⟩ := hown
          have hst := hstop tr.length x ev s
            ⟨hlast,by rwa [List.take_left],presented_iff.mpr ⟨_,_,_,_,hi⟩⟩
          obtain ⟨-,-,hsame,hno,hq⟩ | ⟨hn,-⟩ :=
            reflected_cases hP hsh hr hb hp' hs hi (htrue _ _ _ hlast)
          · exact Or.inr (Or.inr ⟨hsame,hno,hq c⟩)
          · exact absurd hst hn
        · obtain ⟨cause,ho,-⟩ | ⟨shape,inner,g',had,-⟩ := openMessage_cases P order
            ev.before.identitySk envelope resolveSenderPub nowMs ev.before.guard
          · obtain ⟨hsame,hno,hq⟩ := quiet_of_error hi hp' ho
            exact Or.inr (Or.inr ⟨hsame,hno,hq c⟩)
          · obtain ⟨y,s,hs,rfl,-,hy⟩ := (hg _ _ _ _ _ hi).ideal _ _ had.authentic
            obtain rfl | rfl := Side.eq_or_other y x
            · exact absurd ⟨s,hs,rfl⟩ hown
            · refine Or.inr (Or.inl ⟨s,hs,_,_,_,_,hi,fun shape' inner' ha => ?_⟩)
              have hau := had.authentic
              rw [ha] at hau
              cases hau
              exact hy

/-- On a shared identity, a reflected frame is answered with `Dropped` and leaves every session
alone exactly where it is stopped. Where all are, what a side reports on a stream opened
once is the first the other side sent. -/
theorem reflection_ignored_iff (hP : P.Lawful) (hsh : SharedIdentity party)
    (hr : Relayed P (startWorld P party) tr w)
    (htrue : ∀ (i : ℕ) (x : Side) (ev : Event SK), tr[i]? = some (x,ev) →
      ev.ResolvesTruly P (party x)) :
    (∀ (i : ℕ) (x : Side) (ev : Event SK) (s : SealedFrame SK), Reflected tr i x ev s →
      (ev.Ignored P ↔ ev.Stopped (party x) s)) ∧
    ((∀ (i : ℕ) (x : Side) (ev : Event SK) (s : SealedFrame SK), Reflected tr i x ev s →
        ev.Stopped (party x) s) →
      ∀ c, timesOpened c tr ≤ 1 → ∀ y, payloadsReported y c tr <+: payloadsSent y.other c tr) := by
  refine ⟨?_,fun hstop c honce y =>
    hr.prefix_of_sent hP.zstd (hr.clean_of_stopped hP hsh htrue hstop c) honce y⟩
  rintro i x ev s ⟨hi,hs,hpres⟩
  obtain ⟨resolveSenderPub,nowMs,order,entropy,hin⟩ := presented_iff.mp hpres
  obtain ⟨w₁,e',hr₁,hb,hp,-,-⟩ := hr.at_index hi
  obtain ⟨hst,hdrop,hsame,-,-⟩ | ⟨hn,hno⟩ :=
    reflected_cases hP hsh hr₁ hb hp hs hin (htrue i x ev hi)
  · exact ⟨fun _ => hst,fun _ => ⟨hdrop,e',hp,hsame⟩⟩
  · exact ⟨fun ⟨⟨cause,hdrop⟩,_⟩ => absurd hdrop (hno cause),fun hst => absurd hst hn⟩

end

def twoAlices : Side → Party Bytes32 := fun _ => alice

/-- Every reflected frame is ignored. -/
def ResistsReflection {SK : Type} (P : Primitives SK) (party : Side → Party SK) : Prop :=
  ∀ (tr : History SK) (w : World SK) (i : ℕ) (x : Side) (ev : Event SK) (s : SealedFrame SK),
    Relayed P (startWorld P party) tr w → forgesNothing tr = true → Reflected tr i x ev s →
    ev.Ignored P

theorem twoAlices_shared : SharedIdentity twoAlices := ⟨rfl,rfl,rfl⟩

theorem twoAlices_run (order : HashOrder) (script : List Action) (check : History Bytes32 → Bool)
    (h : (execute .plain twoAlices order [] (startWorld .plain twoAlices) script).any
      (fun p => check p.1) = true) :
    ∃ tr w, Relayed .plain (startWorld .plain twoAlices) tr w ∧ check tr = true :=
  relayed_of_check Primitives.plain_lawful (fun _ => rfl) script check h

/-- One byte of data crosses, and then the OPEN comes back to its sealer, which has seen that
counter by then. -/
def lateReflection (c : Bytes32) : List Action :=
  establish c 4 1000++
    [.call .a c (.sendData [1]) 1000 0,.present .b .a 1 1000,.present .a .a 0 1000]

def reflectionsStopped {SK : Type} (party : Side → Party SK) (tr : History SK) : Bool :=
  (List.range tr.length).all fun i => tr[i]?.all fun (p : Side × Event SK) =>
    (sealedBy p.1 (tr.take i)).all fun (s : SealedFrame SK) =>
      decide (p.2.presented? = some s.envelope → p.2.Stopped (party p.1) s)

theorem stopped_of_reflected {SK : Type} {party : Side → Party SK} {tr : History SK}
    (h : reflectionsStopped party tr = true) {i : ℕ} {x : Side} {ev : Event SK} {s : SealedFrame SK}
    (hr : Reflected tr i x ev s) : ev.Stopped (party x) s := by
  simp only [reflectionsStopped,List.all_eq_true,Option.all_eq_true,List.mem_range,
    decide_eq_true_eq] at h
  obtain ⟨hi,hs,hpres⟩ := hr
  exact h i (List.getElem?_eq_some_iff.mp hi).1 (x,ev) hi s hs hpres

theorem late_reflection_ignored : ∃ tr w, Relayed .plain (startWorld .plain twoAlices) tr w ∧
    (∃ i x ev s, Reflected tr i x ev s ∧ ev.Ignored .plain) ∧
    payloadsSent .a (byte32 9) tr = [[1]] ∧
    payloadsReported .b (byte32 9) tr <+: payloadsSent .a (byte32 9) tr := by
  obtain ⟨tr,w,hr,hc⟩ := twoAlices_run default (lateReflection (byte32 9)) (fun tr =>
      (tr.all fun p => decide (p.2.ResolvesTruly .plain (twoAlices p.1))) &&
      reflectionsStopped twoAlices tr &&
      (tr[6]?.any fun (p : Side × Event Bytes32) => p.1 = .a &&
        (sealedBy .a (tr.take 6)).any fun (s : SealedFrame Bytes32) =>
          p.2.presented? = some s.envelope) &&
      timesOpened (byte32 9) tr ≤ 1 && payloadsSent .a (byte32 9) tr = [[1]]) (by decide +kernel)
  simp only [Bool.and_eq_true,decide_eq_true_eq,List.all_eq_true,Option.any_eq_true,
    List.any_eq_true] at hc
  obtain ⟨⟨⟨⟨htrue,hstop⟩,⟨x,ev⟩,hi,rfl,s,hs,hpres⟩,honce⟩,hsent⟩ := hc
  have hrefl : Reflected tr 6 .a ev s := ⟨hi,hs,hpres⟩
  obtain ⟨hiff,hsafe⟩ := reflection_ignored_iff Primitives.plain_lawful twoAlices_shared hr
    fun i y ev hi => htrue (y,ev) (List.mem_of_getElem? hi)
  exact ⟨tr,w,hr,⟨6,.a,ev,s,hrefl,(hiff 6 .a ev s hrefl).mpr (stopped_of_reflected hstop hrefl)⟩,hsent,
    hsafe (fun i y ev s h => stopped_of_reflected hstop h) _ honce .b⟩

def Outcome.isDropped : Outcome → Bool
  | .accepted (.ok (.dropped _)) => true
  | _ => false

/-- An OPEN is presented to the side that sealed it, whose session it tears down. -/
def reflectedOpen (c : Bytes32) : List Action :=
  [.call .a c (.open 4) 1000 0,.present .a .a 0 1000]

theorem reflected_open_resets : ¬ ResistsReflection .plain twoAlices := by
  intro h
  obtain ⟨tr,w,hr,hc⟩ := twoAlices_run default (reflectedOpen (byte32 9)) (fun tr =>
      forgesNothing tr && tr[1]?.any fun p => p.1 = .a && !p.2.outcome.isDropped &&
        (sealedBy .a (tr.take 1)).any fun s => p.2.presented? = some s.envelope)
    (by decide +kernel)
  simp only [Bool.and_eq_true,decide_eq_true_eq,Option.any_eq_true,List.any_eq_true] at hc
  obtain ⟨hf,⟨y,ev⟩,hi,⟨rfl,hout⟩,s,hs,hpres⟩ := hc
  obtain ⟨⟨cause,hdrop⟩,-⟩ := h tr w 1 .a ev s hr hf ⟨hi,hs,hpres⟩
  rw [hdrop] at hout
  cases hout

end DigMessage
