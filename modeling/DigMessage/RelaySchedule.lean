import DigMessage.EndpointCounters
import DigMessage.FailedCalls
import DigMessage.Relay

/-! Relay schedules, executed: what each side calls and which sealed envelope is presented
where. A schedule that runs through is a relayed run, so runs can be computed. -/
namespace DigMessage
open FixedWidth

/-- A call at side `x`, or the `k`-th envelope that `source` sealed presented to side `y`. -/
inductive Action
  | call (x : Side) (c : Bytes32) (r : Request) (nowMs expiresAt : UInt64)
  | present (y source : Side) (k : ℕ) (nowMs : UInt64)

section
variable {SK : Type} (P : Primitives SK) (party : Side → Party SK) (order : HashOrder)

/-- The resolver that knows one peer's key. -/
def knows (peer : Party SK) (did : Bytes32) (epoch : UInt32) : Option Bytes48 :=
  if did = peer.did ∧ epoch = peer.epoch then some (P.publicKeyBytes peer.identitySk) else none

def Action.input (tr : History SK) : Action → Option (Side × Input)
  | .call x c r nowMs expiresAt => some (x,.call c r nowMs expiresAt (.ok c))
  | .present y source k nowMs => (sealedBy source tr)[k]?.map fun s =>
    (y,.accept s.envelope (knows P (party y.other)) nowMs order (.ok s.params.correlationId))

def execute (tr : History SK) (w : World SK) : List Action → Option (History SK × World SK)
  | [] => some (tr,w)
  | a::as =>
    match a.input P party order tr with
    | none => none
    | some (x,i) =>
      match i.perform P (w x) with
      | none => none
      | some (out,e') => execute (tr++[(x,⟨w x,i,out⟩)]) (Function.update w x e') as

variable {P} {party} {order}

/-- An envelope a side sealed is genuine wherever it is presented, where one identity has
one key. -/
theorem genuine_of_sealed (hP : P.Lawful)
    (hid : (party .a).did = (party .b).did → (party .a).identitySk = (party .b).identitySk)
    {tr : History SK} {w : World SK} (hr : Relayed P (startWorld P party) tr w) {y source : Side}
    {s : SealedFrame SK} (hs : s ∈ sealedBy source tr) :
    Genuine P tr (w y) s.envelope (knows P (party y.other)) where
  peerScoped did epoch pub h := by
    unfold knows at h
    split at h
    · rw [(hr.owns y).peerDid]
      exact ‹_ ∧ _›.1
    · cases h
  ideal shape inner ha := by
    have hsound := hr.sound source s hs
    -- the resolver knows the sender, so the envelope is for this endpoint's key
    obtain ⟨pub,hpub⟩ := authenticate_resolves ha
    have hkey := hsound.sender
    have hsender : s.envelope.sender = (party y.other).did ∧
        s.envelope.senderEpoch = (party y.other).epoch := by
      unfold knows at hpub
      split at hpub
      · assumption
      · cases hpub
    have hdid : (party source).did = (party y.other).did := by
      rw [← hsender.1]
      exact (congrArg Prod.fst hkey).symm
    have hepoch : (party source).epoch = (party y.other).epoch := by
      rw [← hsender.2]
      exact (congrArg Prod.snd hkey).symm
    have hsk : (party source).identitySk = (party y.other).identitySk ∧
        (party source.other).identitySk = (party y).identitySk ∧
        (party source.other).did = (party y).did := by
      cases y <;> cases source <;> simp_all [Side.other]
    have hres : knows P (party y.other) (party source).did (party source).epoch =
        some (P.publicKeyBytes (party source).identitySk) := by
      rw [knows,if_pos ⟨hdid,hepoch⟩,hsk.1]
    obtain ⟨inner',ha',hy⟩ := hsound.authenticates hP hres
    rw [hsk.2.1,← (hr.owns y).identitySk,ha] at ha'
    cases ha'
    refine ⟨source,s,hs,rfl,?_,hy⟩
    rw [hsound.recipient,hsk.2.2,(hr.owns y).localDid]

def forgesNothing (tr : History SK) : Bool :=
  tr.all fun p => match p.2.input with
    | .call .. => true
    | .accept envelope _ _ _ _ =>
      (sealedBy .a tr++sealedBy .b tr).any fun s => s.envelope = envelope

/-- What a schedule executes is a relayed run. -/
theorem execute_relayed (hP : P.Lawful)
    (hid : (party .a).did = (party .b).did → (party .a).identitySk = (party .b).identitySk)
    {script : List Action} {tr tr' : History SK} {w w' : World SK}
    (hr : Relayed P (startWorld P party) tr w)
    (h : execute P party order tr w script = some (tr',w')) :
    Relayed P (startWorld P party) tr' w' := by
  induction script generalizing tr w with
  | nil =>
    cases h
    exact hr
  | cons a as ih =>
    simp only [execute] at h
    split at h
    · cases h
    · rename_i x i hi
      split at h
      · cases h
      · rename_i out e' hp
        refine ih (hr.snoc rfl hp ?_) h
        rintro envelope resolveSenderPub nowMs order' entropy rfl
        cases a with
        | call y c r nowMs' expiresAt => cases hi
        | present y source k nowMs' =>
          obtain ⟨s,hs,he⟩ := Option.map_eq_some_iff.mp hi
          cases he
          exact genuine_of_sealed hP hid hr (List.mem_of_getElem? hs)

theorem relayed_of_check (hP : P.Lawful)
    (hid : (party .a).did = (party .b).did → (party .a).identitySk = (party .b).identitySk)
    (script : List Action) (check : History SK → Bool)
    (h : (execute P party order [] (startWorld P party) script).any (fun p => check p.1) = true) :
    ∃ tr w, Relayed P (startWorld P party) tr w ∧ check tr = true := by
  cases hx : execute P party order [] (startWorld P party) script with
  | none => simp [hx] at h
  | some p => exact ⟨p.1,p.2,execute_relayed hP hid .nil hx,by simpa [hx] using h⟩

namespace StreamEndpoint
variable {e e' : StreamEndpoint SK} {c : Bytes32} {entropy : Except String Bytes32}
  {nowMs expiresAt : UInt64} {r : Request}

theorem moveAndSeal_unsealed {build : Fallible MessageError StreamSession StreamHeader}
    {err : MessageError} (hb : StreamSession.Builds build r) (hk : StreamSession.Checks build r)
    (ha : ∃ s, e.sessions.lookup c = some s ∧ s.Takes r)
    (h : (sessionMut c build >>= fun hdr =>
      sealFrame P entropy c hdr r.payload nowMs expiresAt) e = some (.error err,e')) :
    sealMessage P entropy (e.frameParams c (r.header (nextSeq e c)) r.payload nowMs expiresAt) =
      .error err := by
  obtain ⟨s,hl,ht⟩ := ha
  have hseq : nextSeq e c = s.sendSeq := by simp [nextSeq,hl]
  rcases Fallible.bind_eq_some.mp h with ⟨err',hm,-⟩ | ⟨hdr,u,hm,hs⟩
  · obtain ⟨hnone,-⟩ | ⟨s₁,s',hl₁,hx,-⟩ := sessionMut_cases hm
    · rw [hl] at hnone
      cases hnone
    · rw [hl] at hl₁
      cases hl₁
      exact absurd ht (hk hx)
  · obtain ⟨-,-,err',he⟩ | ⟨s₁,s',hl₁,hx,rfl⟩ := sessionMut_cases hm
    · cases he
    · rw [hl] at hl₁
      cases hl₁
      obtain ⟨-,rfl⟩ := hb.ok hx
      obtain ⟨next,-,-,hres⟩ := sealFrame_cases P hs
      rw [hseq]
      exact hres.symm

theorem call_unsealed {err : MessageError} (ha : r.Allowed e c)
    (h : call P entropy c nowMs expiresAt r e = some (.error err,e')) :
    sealMessage P entropy (e.frameParams c (r.header (nextSeq e c)) r.payload nowMs expiresAt) =
      .error err := by
  cases r with
  | «open» w =>
    obtain ⟨hnew,hroom⟩ := ha
    have hfull : ¬ e.sessions.keys.card ≥ e.maxConcurrent := by omega
    change «open» P entropy c w nowMs expiresAt e = _ at h
    unfold «open» at h
    rw [Fallible.bind_of_ok (Fallible.read_apply e),if_neg hnew,if_neg hfull,
      Fallible.bind_of_ok (Fallible.write_apply _ _)] at h
    obtain ⟨next,-,-,hres⟩ := sealFrame_cases P h
    exact hres.symm
  | openAck w =>
    exact moveAndSeal_unsealed (StreamSession.buildOpenAck_builds w)
      (StreamSession.buildOpenAck_checks w) ha h
  | sendData payload =>
    exact moveAndSeal_unsealed (StreamSession.buildData_builds payload)
      (StreamSession.buildData_checks payload) ha h
  | grantCredit n =>
    exact moveAndSeal_unsealed (StreamSession.buildCredit_builds n)
      (StreamSession.buildCredit_checks n) ha h
  | close =>
    change close P entropy c nowMs expiresAt e = _ at h
    unfold close at h
    rw [← Fallible.bind_assoc] at h
    rcases Fallible.bind_eq_some.mp h with ⟨err',hm,he⟩ | ⟨env,u,hm,hd⟩
    · cases he
      exact moveAndSeal_unsealed StreamSession.buildClose_builds StreamSession.buildClose_checks ha hm
    · rw [Fallible.bind_of_ok (dropIfClosed_apply c u)] at hd
      cases hd
  | reset =>
    change reset P entropy c nowMs expiresAt e = _ at h
    unfold reset at h
    rw [← Fallible.bind_assoc] at h
    rcases Fallible.bind_eq_some.mp h with ⟨err',hm,he⟩ | ⟨env,u,hm,hd⟩
    · cases he
      exact moveAndSeal_unsealed StreamSession.buildReset_builds StreamSession.buildReset_checks ha hm
    · cases hd

theorem call_made {env : DigMessageEnvelope} {out : Outcome} (ha : r.Allowed e c)
    (hseal : sealMessage P entropy
      (e.frameParams c (r.header (nextSeq e c)) r.payload nowMs expiresAt) = .ok env)
    (h : (Input.call c r nowMs expiresAt entropy).perform P e = some (out,e')) :
    out = .called (.ok env) ∧ ∃ after failed,
      Sends (e.sessions.lookup c) r (r.header (nextSeq e c)) after failed ∧
      e'.sessions = putSession e.sessions c after := by
  obtain ⟨⟨res,u⟩,hcall,hp⟩ := Option.map_eq_some_iff.mp h
  cases hp
  have hmade : ∃ env', res = .ok env' := by
    cases res with
    | ok env' => exact ⟨env',rfl⟩
    | error err =>
      rw [call_unsealed ha hcall] at hseal
      cases hseal
  obtain ⟨env',rfl⟩ := hmade
  cases call_cases P hcall with
  | «sealed» hs hn hseal' =>
    rw [hs.header_eq] at hseal'
    rw [hseal] at hseal'
    cases hseal'
    exact ⟨rfl,_,_,hs.header_eq ▸ hs,rfl⟩

end StreamEndpoint

theorem Relayed.within {tr : History SK} {w : World SK} (hr : Relayed P (startWorld P party) tr w) :
    ∀ x, (w x).Within tr.length := by
  induction hr with
  | nil =>
    intro x
    refine ⟨le_rfl,fun c s hs => ?_⟩
    cases hs
  | @snoc tr w x ev e' hr hb hp hg ih =>
    rw [List.length_append,List.length_singleton]
    exact StreamEndpoint.Within.update ih (hb ▸ hp)

/-- A side makes a call that its checks allow and whose frame can be sealed. -/
theorem Relayed.calls {tr : History SK} {w : World SK} (hr : Relayed P (startWorld P party) tr w)
    (hroom : tr.length+1 < 2^64) {x : Side} {c : Bytes32} {r : Request} {nowMs expiresAt : UInt64}
    {entropy : Except String Bytes32} {env : DigMessageEnvelope} (ha : r.Allowed (w x) c)
    (hseal : sealMessage P entropy
      ((w x).frameParams c (r.header (nextSeq (w x) c)) r.payload nowMs expiresAt) = .ok env) :
    ∃ e', Relayed P (startWorld P party)
        (tr++[(x,⟨w x,.call c r nowMs expiresAt entropy,.called (.ok env)⟩)])
        (Function.update w x e') ∧
      ∃ after failed, Sends ((w x).session c) r (r.header (nextSeq (w x) c)) after failed ∧
        e'.session c = after := by
  obtain ⟨out,e',hp⟩ := (hr.within x).runs (P:=P) hroom (.call c r nowMs expiresAt entropy)
  obtain ⟨rfl,after,failed,hsend,hafter⟩ := StreamEndpoint.call_made ha hseal hp
  refine ⟨e',hr.snoc rfl hp ?_,after,failed,hsend,?_⟩
  · rintro _ _ _ _ _ ⟨⟩
  · rw [StreamEndpoint.session,hafter,lookup_putSession_self]

theorem Relayed.presents (hP : P.Lawful)
    (hid : (party .a).did = (party .b).did → (party .a).identitySk = (party .b).identitySk)
    {tr : History SK} {w : World SK} (hr : Relayed P (startWorld P party) tr w)
    (hroom : tr.length+1 < 2^64) {source : Side} {s : SealedFrame SK} (hs : s ∈ sealedBy source tr)
    (y : Side) (nowMs : UInt64) (order : HashOrder) (entropy : Except String Bytes32) :
    ∃ ev e', ev.presented? = some s.envelope ∧
      Relayed P (startWorld P party) (tr++[(y,ev)]) (Function.update w y e') := by
  obtain ⟨out,e',hp⟩ := (hr.within y).runs (P:=P) hroom
    (.accept s.envelope (knows P (party y.other)) nowMs order entropy)
  let ev : Event SK := ⟨w y,.accept s.envelope (knows P (party y.other)) nowMs order entropy,out⟩
  refine ⟨ev,e',rfl,hr.snoc rfl hp ?_⟩
  rintro _ _ _ _ _ ⟨⟩
  exact genuine_of_sealed hP hid hr hs

end

def alice : Party Bytes32 := ⟨byte32 1,byte32 11,0,0x500,maxConcurrentStreams⟩
def bob : Party Bytes32 := ⟨byte32 2,byte32 12,0,0x500,maxConcurrentStreams⟩

def aliceAndBob : Side → Party Bytes32
  | .a => alice
  | .b => bob

theorem alice_ne_bob : (aliceAndBob .a).did ≠ (aliceAndBob .b).did := by decide

theorem aliceAndBob_run (order : HashOrder) (script : List Action) (check : History Bytes32 → Bool)
    (h : (execute .plain aliceAndBob order [] (startWorld .plain aliceAndBob) script).any
      (fun p => check p.1) = true) :
    ∃ tr w, Relayed .plain (startWorld .plain aliceAndBob) tr w ∧ check tr = true :=
  relayed_of_check Primitives.plain_lawful (fun h => absurd h alice_ne_bob) script check h

/-- The calls and presentations that establish stream `c`, opened by `a`, each side granting
`window` frames. -/
def establish (c : Bytes32) (window : UInt32) (nowMs : UInt64) : List Action :=
  [.call .a c (.open window) nowMs 0,.present .b .a 0 nowMs,.call .b c (.openAck window) nowMs 0,
    .present .a .b 0 nowMs]

end DigMessage
