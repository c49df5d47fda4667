import DigMessage.RelayProjection
import DigMessage.RelaySchedule

/-! What a relay can and cannot do to the data of a stream between distinct parties. -/
namespace DigMessage
open FixedWidth

section
variable {SK : Type} {P : Primitives SK} {party : Side → Party SK} {tr : History SK} {w : World SK}

theorem Relayed.genuine_crosses {x : Side} {ev : Event SK} {envelope : DigMessageEnvelope}
    {resolveSenderPub : Bytes32 → UInt32 → Option Bytes48} {nowMs : UInt64} {order : HashOrder}
    {entropy : Except String Bytes32} {shape : InteractionShape} {inner : InnerMessage}
    (hd : (party .a).did ≠ (party .b).did) (hr : Relayed P (startWorld P party) tr w)
    (hb : ev.before = w x) (hi : ev.input = .accept envelope resolveSenderPub nowMs order entropy)
    (hg : Genuine P tr ev.before envelope resolveSenderPub)
    (ha : authenticate P ev.before.identitySk envelope resolveSenderPub = .ok (shape,inner)) :
    Crosses P tr x ev := by
  obtain ⟨y,s,hs,rfl,-,hy⟩ := hg.ideal _ _ ha
  obtain ⟨pub,hpub⟩ := authenticate_resolves ha
  have hpeer : (party y).did = (party x.other).did := by
    have hkey := congrArg Prod.fst (hr.sound y s hs).sender
    rw [← (hr.owns x).peerDid,← hb,← hg.peerScoped _ _ _ hpub]
    exact hkey.symm
  have hyx : y = x.other := by
    cases x <;> cases y <;> simp_all [Side.other]
  subst hyx
  refine ⟨s,hs,_,_,_,_,hi,fun shape' inner' ha' => ?_⟩
  rw [ha] at ha'
  cases ha'
  exact hy

/-- Between distinct parties an accept does nothing to any stream, or its slot takes a frame
the peer sealed. -/
theorem Relayed.accept_cases {x : Side} {ev : Event SK} {e' : StreamEndpoint SK}
    {envelope : DigMessageEnvelope} {resolveSenderPub : Bytes32 → UInt32 → Option Bytes48}
    {nowMs : UInt64} {order : HashOrder} {entropy : Except String Bytes32} (hz : P.ZstdLossless)
    (hd : (party .a).did ≠ (party .b).did) (hr : Relayed P (startWorld P party) tr w)
    (hb : ev.before = w x) (hp : ev.input.perform P ev.before = some (ev.outcome,e'))
    (hi : ev.input = .accept envelope resolveSenderPub nowMs order entropy)
    (hg : Genuine P tr ev.before envelope resolveSenderPub) :
    (e'.sessions = ev.before.sessions ∧ ev.sealed? = none ∧ ∀ c, Quiet P c ev) ∨
    ∃ s ∈ sealedBy x.other tr, ∃ reaction slot res, s.envelope = envelope ∧
      ev.outcome = .accepted res ∧ Taken (party x.other) s ev.before reaction slot res e' := by
  obtain ⟨cause,ho,-⟩ | ⟨shape,inner,g',had,-⟩ := openMessage_cases P order
    ev.before.identitySk envelope resolveSenderPub nowMs ev.before.guard
  · exact Or.inl (quiet_of_error hi hp ho)
  · obtain ⟨s,hs,_,_,_,_,hi',hy⟩ := hr.genuine_crosses hd hb hi hg had.authentic
    rw [hi] at hi'
    cases hi'
    have hsound := hr.sound x.other s hs
    rw [Side.other_other] at hsound
    have hp' := hp
    rw [hi] at hp'
    obtain ⟨res,hout,hacc⟩ := Input.perform_accept P hp'
    obtain ⟨cause,g,hopen,-⟩ | ⟨-,-,reaction,slot,ht⟩ :=
      accepts_genuine hz (hb ▸ (hr.owns x).peerDid) hsound hy hacc
    · exact Or.inl (quiet_of_error hi hp hopen)
    · exact Or.inr ⟨s,hs,reaction,slot,res,rfl,hout,ht⟩

theorem Relayed.clean (hd : (party .a).did ≠ (party .b).did)
    (hr : Relayed P (startWorld P party) tr w) (c : Bytes32) : CleanRun P c tr := by
  induction hr with
  | nil => exact .nil
  | @snoc tr w x ev e₁ hr hb hp hg ih =>
    refine .snoc ih fun e' hp' => ?_
    cases hi : ev.input with
    | call d r nowMs expiresAt entropy => exact Or.inl ⟨_,_,_,_,_,hi⟩
    | accept envelope resolveSenderPub nowMs order entropy =>
      obtain ⟨cause,ho,-⟩ | ⟨shape,inner,g',had,-⟩ := openMessage_cases P order
        ev.before.identitySk envelope resolveSenderPub nowMs ev.before.guard
      · obtain ⟨hsame,hno,hq⟩ := quiet_of_error hi hp' ho
        exact Or.inr (Or.inr ⟨hsame,hno,hq c⟩)
      · exact Or.inr (Or.inl (hr.genuine_crosses hd hb hi (hg _ _ _ _ _ hi) had.authentic))

/-- In-order authentic delivery. Whatever the relay does, the payloads a side reports on a
stream are the first of those its peer sent on it, in that order. -/
theorem relayed_delivery (hz : P.ZstdLossless) (hd : (party .a).did ≠ (party .b).did)
    (hr : Relayed P (startWorld P party) tr w) {c : Bytes32} (honce : timesOpened c tr ≤ 1)
    (y : Side) : payloadsReported y c tr <+: payloadsSent y.other c tr :=
  hr.prefix_of_sent hz (hr.clean hd c) honce y

namespace Event

def reportsClose (c : Bytes32) (ev : Event SK) : Bool :=
  match ev.input,ev.outcome with
  | .accept envelope _ _ _ _,.accepted (.ok (.event .remoteClosed)) => envelope.correlationId = c
  | _,_ => false

def closes (c : Bytes32) (ev : Event SK) : Bool :=
  match ev.input,ev.outcome with
  | .call d .close _ _ _,.called (.ok _) => d = c
  | _,_ => false

end Event

theorem established_of_close {ev : Event SK} {e' : StreamEndpoint SK} {c : Bytes32}
    (hp : ev.input.perform P ev.before = some (ev.outcome,e')) (hc : ev.reportsClose c = true) :
    ∃ s, ev.before.sessions.lookup c = some s ∧ s.handshake = .established := by
  unfold Event.reportsClose at hc
  split at hc
  · rename_i envelope resolveSenderPub nowMs order entropy hi hout
    rw [hi] at hp
    obtain ⟨res,hres,hacc⟩ := Input.perform_accept P hp
    rw [hout] at hres
    cases hres
    cases hacc with
    | event hopen ha hr =>
      rw [← of_decide_eq_true hc]
      exact hr.remoteClosed
  · cases hc

/-- When a side reports the peer's CLOSE, the payloads it has reported are the first its peer
sent, and are all it opened while its session was established: what may be missing is a
tail it did not open, because it was withheld or because a check stopped it. -/
theorem relayed_close (hz : P.ZstdLossless) (hd : (party .a).did ≠ (party .b).did)
    (hr : Relayed P (startWorld P party) tr w) {c : Bytes32} (honce : timesOpened c tr ≤ 1) {i : ℕ}
    {y : Side} {ev : Event SK} (hi : tr[i]? = some (y,ev)) (hc : ev.reportsClose c = true) :
    payloadsReported y c (tr.take i) <+: payloadsSent y.other c (tr.take i) ∧
    payloadsOpened P y c (tr.take i) = payloadsReported y c (tr.take i) := by
  obtain ⟨w₁,e',hr₁,hb,hp,hg,-⟩ := hr.at_index hi
  have honce₁ : timesOpened c (tr.take i) ≤ 1 :=
    ((List.take_sublist i tr).countP_le).trans honce
  refine ⟨hr₁.prefix_of_sent hz (hr₁.clean hd c) honce₁ y,?_⟩
  obtain ⟨ls,σ,hrun,hproj,hobs⟩ := hr₁.projects hz (hr₁.clean hd c)
  rw [← hobs.opened] at honce₁
  rw [← hobs.dataOpened,← hobs.reported]
  -- the CLOSE was taken by an established session, whose account is settled
  obtain ⟨s,hl,hh⟩ := established_of_close hp hc
  rw [hb,← hproj.slot y] at hl
  exact (((hrun.delivery StreamPair.fresh_empty honce₁).sound y).established s hl hh).2.2.2

end

/-- Stream `c` opened, acknowledged and used in both directions, with frames presented twice
and out of order. -/
def exchange (c : Bytes32) : List Action :=
  establish c 4 1000++([.call .a c (.sendData [1,2]) 1001 0,.call .a c (.sendData [3]) 1002 0,
    .call .b c (.sendData [4]) 1002 0,.present .b .a 1 1003,.present .b .a 1 1004,
    .present .b .a 2 1005,.present .a .b 1 1005] : List Action)

/-- What both sides reported on the stream, and that it was opened once. -/
def exchanged (c : Bytes32) (tr : History Bytes32) : Bool :=
  timesOpened c tr = 1 && payloadsReported .b c tr = [[1,2],[3]] &&
    payloadsReported .a c tr = [[4]]

theorem exchange_delivers : ∃ tr w,
    Relayed .plain (startWorld .plain aliceAndBob) tr w ∧
      payloadsReported .b (byte32 9) tr = [[1,2],[3]] ∧
      [[1,2],[3]] <+: payloadsSent .a (byte32 9) tr := by
  obtain ⟨tr,w,hr,hc⟩ := aliceAndBob_run default (exchange (byte32 9)) (exchanged (byte32 9))
    (by decide +kernel)
  simp only [exchanged,Bool.and_eq_true,decide_eq_true_eq] at hc
  have hp := relayed_delivery Primitives.plain_lawful.zstd alice_ne_bob hr hc.1.1.le .b
  rw [hc.1.2] at hp
  exact ⟨tr,w,hr,hc.1.2,hp⟩

/-- Whenever a side reports the peer's CLOSE it has reported all the peer sent before it. -/
def NoSilentTruncation {SK : Type} (P : Primitives SK) (party : Side → Party SK) : Prop :=
  ∀ (tr : History SK) (w : World SK) (c : Bytes32) (y : Side) (i j : ℕ) (ev closing : Event SK),
    Relayed P (startWorld P party) tr w → forgesNothing tr = true → (∀ d, timesOpened d tr ≤ 1) →
    tr[i]? = some (y,ev) → ev.reportsClose c = true → j < i → tr[j]? = some (y.other,closing) →
    closing.closes c = true →
    ∀ p ∈ payloadsSent y.other c (tr.take j), p ∈ payloadsReported y c (tr.take i)

/-- One DATA frame is sent and withheld, and the CLOSE after it presented. -/
def withheld (c : Bytes32) : List Action :=
  establish c 4 1000++([.call .a c (.sendData [7]) 1001 0,.call .a c .close 1002 0,
    .present .b .a 2 1003] : List Action)

/-- The CLOSE was reported, with nothing reported before it. -/
def truncated (c : Bytes32) (tr : History Bytes32) : Bool :=
  forgesNothing tr && tr.countP (fun p => p.2.opensAny) = 1 &&
    tr[6]?.any (fun p => p.1 = .b && p.2.reportsClose c) &&
    tr[5]?.any (fun p => p.1 = .a && p.2.closes c) &&
    payloadsSent .a c (tr.take 5) = [[7]] && payloadsReported .b c (tr.take 6) = []

theorem withheld_truncates : (execute .plain aliceAndBob default []
    (startWorld .plain aliceAndBob) (withheld (byte32 9))).any
      (fun p => truncated (byte32 9) p.1) = true := by decide +kernel

theorem withheld_data_unnoticed : ¬ NoSilentTruncation .plain aliceAndBob := by
  intro h
  obtain ⟨tr,w,hr,hc⟩ := aliceAndBob_run default _ _ withheld_truncates
  simp only [truncated,Bool.and_eq_true,decide_eq_true_eq,Option.any_eq_true] at hc
  obtain ⟨⟨⟨⟨⟨hf,ho⟩,⟨y,ev⟩,hi,rfl,hclose⟩,⟨x,closing⟩,hj,rfl,hcloses⟩,hsent⟩,hrep⟩ := hc
  have := h tr w (byte32 9) .b 6 5 ev closing hr hf (fun d => (timesOpened_le d tr).trans ho.le) hi
    hclose (by decide) hj hcloses [7] (by rw [show Side.other .b = .a from rfl,hsent]; simp)
  rw [hrep] at this
  cases this

/-- There the peer's tail is missing, and nothing that was opened is. -/
theorem withheld_tail : ∃ tr w, Relayed .plain (startWorld .plain aliceAndBob) tr w ∧
    payloadsReported .b (byte32 9) (tr.take 6) = [] ∧
    payloadsReported .b (byte32 9) (tr.take 6) <+: payloadsSent .a (byte32 9) (tr.take 6) ∧
    payloadsOpened .plain .b (byte32 9) (tr.take 6) = payloadsReported .b (byte32 9) (tr.take 6) := by
  obtain ⟨tr,w,hr,hc⟩ := aliceAndBob_run default _ _ withheld_truncates
  simp only [truncated,Bool.and_eq_true,decide_eq_true_eq,Option.any_eq_true] at hc
  obtain ⟨⟨⟨⟨⟨-,ho⟩,⟨y,ev⟩,hi,rfl,hclose⟩,-⟩,-⟩,hrep⟩ := hc
  exact ⟨tr,w,hr,hrep,relayed_close Primitives.plain_lawful.zstd alice_ne_bob hr
    ((timesOpened_le _ tr).trans ho.le) hi hclose⟩

end DigMessage
