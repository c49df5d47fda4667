import DigMessage.EndpointTrace

/-! What a failed send-side call leaves behind. Every operation moves its session before it
seals, so a failure of the seal leaves the session moved. -/
namespace DigMessage
open FixedWidth

namespace StreamSession

def Takes (s : StreamSession) : Request → Prop
  | .open _ => False
  | .openAck _ => s.role = .responder ∧ s.handshake = .opening
  | .sendData _ => s.handshake = .established ∧ s.localClosed = false ∧ s.sendCredit ≠ 0
  | .grantCredit _ => s.handshake = .established
  | .close => s.localClosed = false
  | .reset => True

/-- Taking the request moves nothing: a grant of nothing or past the counter's end, or a reset
of a session that is reset. -/
def Stays (s : StreamSession) (r : Request) : Prop :=
  (∃ n, r = .grantCredit n ∧ (n = 0 ∨ 2^64 ≤ s.recvWindowRemaining.toNat+1)) ∨
  r = .reset ∧ s.reset = true

theorem stays_grantCredit (s : StreamSession) (n : UInt32) :
    s.Stays (.grantCredit n) ↔ n = 0 ∨ 2^64 ≤ s.recvWindowRemaining.toNat+1 := by
  simp [Stays]

theorem stays_reset (s : StreamSession) : s.Stays .reset ↔ s.reset = true := by
  simp [Stays]

theorem not_stays {s : StreamSession} {r : Request} (hg : ∀ n, r ≠ .grantCredit n)
    (hr : r ≠ .reset) : ¬ s.Stays r := by
  rintro (⟨n,hn,-⟩ | ⟨h,-⟩)
  · exact hg n hn
  · exact hr h

theorem send_eq_iff {s s' : StreamSession} {r : Request} (h : s.Send r s') : s' = s ↔ s.Stays r := by
  cases h with
  | openAck w hr hh =>
    refine iff_of_false (fun hs => ?_) (not_stays (by simp) (by simp))
    have hfield : Handshake.established = s.handshake := congrArg handshake hs
    rw [hh] at hfield
    cases hfield
  | sendData payload next hh hl hc hn =>
    refine iff_of_false (fun hs => ?_) (not_stays (by simp) (by simp))
    have hfield : next = s.sendSeq := congrArg sendSeq hs
    rw [hfield] at hn
    omega
  | grantCredit n hh =>
    have hadd := saturatingAdd_toNat s.recvWindowRemaining n.toUInt64
    have hlt := s.recvWindowRemaining.toNat_lt
    have hwide : n.toUInt64.toNat = n.toNat := UInt32.toNat_toUInt64 n
    rw [hwide] at hadd
    have hzero : n = 0 ↔ n.toNat = 0 := UInt32.toNat_inj.symm
    have hstill : saturatingAdd s.recvWindowRemaining n.toUInt64 = s.recvWindowRemaining ↔
        n.toNat = 0 ∨ 2^64 ≤ s.recvWindowRemaining.toNat+1 := by
      rw [← UInt64.toNat_inj,hadd]
      omega
    rw [stays_grantCredit,hzero,← hstill]
    constructor
    · exact fun hs => congrArg recvWindowRemaining hs
    · exact fun hs => by rw [hs]
  | close hl =>
    refine iff_of_false (fun hs => ?_) (not_stays (by simp) (by simp))
    have hfield : true = s.localClosed := congrArg localClosed hs
    rw [hl] at hfield
    cases hfield
  | reset =>
    rw [stays_reset]
    constructor
    · intro hs
      have hfield : true = s.reset := congrArg StreamSession.reset hs
      exact hfield.symm
    · intro hs
      rw [← hs]

/-- `build` fails only where the session does not take the request. -/
def Checks (build : Fallible MessageError StreamSession StreamHeader) (r : Request) : Prop :=
  ∀ {s s' : StreamSession} {e : MessageError}, build s = some (.error e,s') → ¬ s.Takes r

theorem buildOpenAck_checks (w : UInt32) : Checks (buildOpenAck w) (.openAck w) := by
  intro s s' e h ht
  have hn : ¬ (s.role ≠ .responder ∨ s.handshake ≠ .opening) := by
    simp [ht.1,ht.2]
  simp [buildOpenAck,bind,Fallible.andThen,hn] at h

theorem buildData_checks (payload : List UInt8) : Checks buildData (.sendData payload) := by
  intro s s' e h ht
  obtain ⟨hh,hl,hc⟩ := ht
  unfold buildData at h
  rw [Fallible.bind_of_ok (Fallible.read_apply s)] at h
  simp only [hh,ne_eq,not_true_eq_false,if_false,hl,Bool.false_eq_true,hc] at h
  rcases Fallible.bind_eq_some.mp h with ⟨err,he,-⟩ | ⟨next,u,-,hw⟩
  · obtain ⟨n,-,hok,-⟩ := Fallible.unwrap_eq_some.mp he
    cases hok
  · cases hw

theorem buildCredit_checks (n : UInt32) : Checks (buildCredit n) (.grantCredit n) := by
  intro s s' e h ht
  have hh : s.handshake = .established := ht
  simp [buildCredit,bind,Fallible.andThen,hh] at h

theorem buildClose_checks : Checks buildClose .close := by
  intro s s' e h ht
  have hl : s.localClosed = false := ht
  simp [buildClose,bind,Fallible.andThen,hl] at h

theorem buildReset_checks : Checks buildReset .reset := by
  intro s s' e h
  simp [buildReset,bind,Fallible.andThen] at h

end StreamSession

section
variable {SK : Type}

def Request.Allowed (r : Request) (e : StreamEndpoint SK) (c : Bytes32) : Prop :=
  match r with
  | .open _ => c ∉ e.sessions ∧ e.sessions.keys.card < e.maxConcurrent
  | r => ∃ s, e.sessions.lookup c = some s ∧ s.Takes r

/-- The call is refused by its own checks, or would move nothing. -/
def Request.MovesNothing (r : Request) (e : StreamEndpoint SK) (c : Bytes32) : Prop :=
  ¬ r.Allowed e c ∨ ∃ s, e.sessions.lookup c = some s ∧ s.Stays r

variable {P : Primitives SK}

namespace StreamEndpoint

/-- A failed call was refused and changed nothing, or it moved the session and spent a
counter. -/
inductive Failed (r : Request) (c : Bytes32) (e : StreamEndpoint SK) : StreamEndpoint SK → Prop
  | refused : ¬ r.Allowed e c → Failed r c e e
  | started {w : UInt32} {next : UInt64} : r = .open w → r.Allowed e c →
      Failed r c e {e with
        sendCounter := next
        sessions := e.sessions.insert c (StreamSession.initiator w)}
  | moved {s s' : StreamSession} {next : UInt64} : r.Allowed e c → e.sessions.lookup c = some s →
      s.Send r s' →
      Failed r c e {e with sendCounter := next,sessions := e.sessions.insert c s'}

theorem moveAndSeal_failed {entropy : Except String Bytes32} {c : Bytes32}
    {nowMs expiresAt : UInt64} {build : Fallible MessageError StreamSession StreamHeader}
    {r : Request} (hb : StreamSession.Builds build r) (hk : StreamSession.Checks build r)
    (hr : ∀ e : StreamEndpoint SK, r.Allowed e c ↔ ∃ s, e.sessions.lookup c = some s ∧ s.Takes r)
    (ht : ∀ s s' : StreamSession, s.Send r s' → s.Takes r) {e e' : StreamEndpoint SK} {err : MessageError}
    (h : (sessionMut c build >>= fun hdr =>
      sealFrame P entropy c hdr r.payload nowMs expiresAt) e = some (.error err,e')) :
    Failed r c e e' := by
  rcases Fallible.bind_eq_some.mp h with ⟨err',hm,-⟩ | ⟨hdr,u,hm,hs⟩
  · obtain ⟨hl,rfl,-⟩ | ⟨s,s',hl,hx,rfl⟩ := sessionMut_cases hm
    · refine .refused fun ha => ?_
      obtain ⟨s,hs,-⟩ := (hr _).mp ha
      rw [hl] at hs
      cases hs
    · have hno := hk hx
      cases hb.error hx
      have hp := putSession_lookup e.sessions c
      rw [hl] at hp
      have hsame : e.sessions.insert c s = e.sessions := hp
      rw [hsame]
      refine .refused fun ha => ?_
      obtain ⟨t,hs,htake⟩ := (hr _).mp ha
      rw [hl] at hs
      cases hs
      exact hno htake
  · obtain ⟨-,-,err',he⟩ | ⟨s,s',hl,hx,rfl⟩ := sessionMut_cases hm
    · cases he
    · obtain ⟨hsend,-⟩ := hb.ok hx
      obtain ⟨next,-,rfl,-⟩ := sealFrame_cases P hs
      exact .moved ((hr e).mpr ⟨s,hl,ht s s' hsend⟩) hl hsend

theorem call_failed {entropy : Except String Bytes32} {c : Bytes32} {nowMs expiresAt : UInt64}
    {r : Request} {e e' : StreamEndpoint SK} {err : MessageError}
    (h : call P entropy c nowMs expiresAt r e = some (.error err,e')) : Failed r c e e' := by
  cases r with
  | «open» w =>
    change «open» P entropy c w nowMs expiresAt e = _ at h
    unfold «open» at h
    rw [Fallible.bind_of_ok (Fallible.read_apply e)] at h
    split_ifs at h with hm hf
    · cases h
      exact .refused fun ha => ha.1 hm
    · cases h
      exact .refused fun ha => absurd ha.2 (by omega)
    · rw [Fallible.bind_of_ok (Fallible.write_apply _ _)] at h
      obtain ⟨next,-,rfl,-⟩ := sealFrame_cases P h
      exact .started rfl ⟨hm,by omega⟩
  | openAck w =>
    refine moveAndSeal_failed (StreamSession.buildOpenAck_builds w)
      (StreamSession.buildOpenAck_checks w) (fun e => Iff.rfl) (fun s s' hs => ?_) h
    cases hs with
    | openAck w hr hh => exact ⟨hr,hh⟩
  | sendData payload =>
    refine moveAndSeal_failed (StreamSession.buildData_builds payload)
      (StreamSession.buildData_checks payload) (fun e => Iff.rfl) (fun s s' hs => ?_) h
    cases hs with
    | sendData payload next hh hl hc hn => exact ⟨hh,hl,hc⟩
  | grantCredit n =>
    refine moveAndSeal_failed (StreamSession.buildCredit_builds n)
      (StreamSession.buildCredit_checks n) (fun e => Iff.rfl) (fun s s' hs => ?_) h
    cases hs with
    | grantCredit n hh => exact hh
  | close =>
    change close P entropy c nowMs expiresAt e = _ at h
    unfold close at h
    rw [← Fallible.bind_assoc] at h
    rcases Fallible.bind_eq_some.mp h with ⟨err',hm,-⟩ | ⟨env,u,hm,hd⟩
    · refine moveAndSeal_failed StreamSession.buildClose_builds StreamSession.buildClose_checks
        (fun e => Iff.rfl) (fun s s' hs => ?_) hm
      cases hs with
      | close hl => exact hl
    · rw [Fallible.bind_of_ok (dropIfClosed_apply c u)] at hd
      cases hd
  | reset =>
    change reset P entropy c nowMs expiresAt e = _ at h
    unfold reset at h
    rw [← Fallible.bind_assoc] at h
    rcases Fallible.bind_eq_some.mp h with ⟨err',hm,-⟩ | ⟨env,u,hm,hd⟩
    · exact moveAndSeal_failed StreamSession.buildReset_builds StreamSession.buildReset_checks
        (fun e => Iff.rfl) (fun s s' hs => trivial) hm
    · cases hd

end StreamEndpoint

theorem insert_eq_self_iff {t : Sessions} {c : Bytes32} {s s' : StreamSession}
    (hl : t.lookup c = some s) : t.insert c s' = t ↔ s' = s := by
  constructor
  · intro h
    have hlook := congrArg (Finmap.lookup c) h
    rw [Finmap.lookup_insert,hl] at hlook
    exact Option.some.inj hlook
  · rintro rfl
    have hp := putSession_lookup t c
    rw [hl] at hp
    exact hp

/-- A call that fails leaves the session table as it was exactly where its own checks refuse it
or its move changes nothing; besides the table it touches the send counter alone. -/
theorem failed_call_intact_iff {entropy : Except String Bytes32} {c : Bytes32}
    {nowMs expiresAt : UInt64} {r : Request} {e e' : StreamEndpoint SK} {err : MessageError}
    (h : StreamEndpoint.call P entropy c nowMs expiresAt r e = some (.error err,e')) :
    (e'.sessions = e.sessions ↔ r.MovesNothing e c) ∧
    e' = {e with sendCounter := e'.sendCounter,sessions := e'.sessions} := by
  cases StreamEndpoint.call_failed h with
  | refused hno => exact ⟨⟨fun _ => Or.inl hno,fun _ => rfl⟩,rfl⟩
  | started hr ha =>
    subst hr
    have hnone : e.sessions.lookup c = none := Finmap.lookup_eq_none.mpr ha.1
    refine ⟨⟨fun hs => ?_,fun hm => ?_⟩,rfl⟩
    · have hlook := congrArg (Finmap.lookup c) hs
      simp only [Finmap.lookup_insert,hnone] at hlook
      cases hlook
    · rcases hm with hno | ⟨s,hs,-⟩
      · exact absurd ha hno
      · rw [hnone] at hs
        cases hs
  | moved ha hl hsend =>
    have hsame := StreamSession.send_eq_iff hsend
    refine ⟨⟨fun hs => ?_,fun hm => ?_⟩,rfl⟩
    · exact Or.inr ⟨_,hl,hsame.mp ((insert_eq_self_iff hl).mp hs)⟩
    · rcases hm with hno | ⟨s,hs,hstay⟩
      · exact absurd ha hno
      · rw [hl] at hs
        cases hs
        exact (insert_eq_self_iff hl).mpr (hsame.mpr hstay)

end

def lone : StreamEndpoint Bytes32 :=
  .new (byte32 1) (byte32 11) 0 (byte32 12) (Primitives.point (byte32 2)) 0x500

/-- Every failed call of an endpoint that has run leaves its table as it was. -/
def FailedCallsIntact {SK : Type} (P : Primitives SK) (e₀ : StreamEndpoint SK) : Prop :=
  ∀ (tr : List (Event SK)) (e e' : StreamEndpoint SK) (entropy : Except String Bytes32)
    (c : Bytes32) (nowMs expiresAt : UInt64) (r : Request) (err : MessageError),
    Trace P e₀ tr e → StreamEndpoint.call P entropy c nowMs expiresAt r e = some (.error err,e') →
    e'.sessions = e.sessions

def spent : StreamSession := ⟨.initiator,.established,4,0,0,4,false,false,false⟩

/-- `lone` with stream 8 awaiting its answer and stream 10 out of credit. -/
def busy : StreamEndpoint Bytes32 :=
  {lone with
    sendCounter := 6
    sessions := (lone.sessions.insert (byte32 8) (.initiator 4)).insert (byte32 10) spent}

theorem busy_pending : busy.sessions.lookup (byte32 8) = some (.initiator 4) :=
  (Finmap.lookup_insert_of_ne _ (by decide)).trans (Finmap.lookup_insert _)

theorem busy_spent : busy.sessions.lookup (byte32 10) = some spent := Finmap.lookup_insert _

theorem uncredited_call_intact : ∃ err e',
    StreamEndpoint.call .plain (.ok (byte32 7)) (byte32 10) 1000 0 (.sendData [1]) busy =
      some (.error err,e') ∧ e'.sessions = busy.sessions ∧
    e'.sessions.lookup (byte32 8) = some (.initiator 4) ∧
    e'.sessions.lookup (byte32 10) = some spent := by
  obtain ⟨err,e',h⟩ : ∃ err e', StreamEndpoint.call .plain (.ok (byte32 7)) (byte32 10) 1000 0
      (.sendData [1]) busy = some (.error err,e') := ⟨_,_,rfl⟩
  have hno : ¬ Request.Allowed (.sendData [1]) busy (byte32 10) := by
    rintro ⟨s,hs,-,-,hcredit⟩
    rw [busy_spent] at hs
    cases hs
    exact hcredit rfl
  have hsame := (failed_call_intact_iff h).1.mpr (Or.inl hno)
  exact ⟨err,e',h,hsame,hsame ▸ busy_pending,hsame ▸ busy_spent⟩

/-- An OPEN that could not be sealed holds its slot. -/
theorem failed_open_holds_slot : ¬ FailedCallsIntact .plain lone := by
  intro h
  have hopen : ∃ err e', StreamEndpoint.call .plain (.error "no entropy") (byte32 9) 1000 0 (.open 4)
      lone = some (.error err,e') ∧ e'.sessions.lookup (byte32 9) = some (.initiator 4) :=
    ⟨_,_,rfl,Finmap.lookup_insert _⟩
  obtain ⟨err,e',hcall,hslot⟩ := hopen
  have hsame := h [] lone e' (.error "no entropy") (byte32 9) 1000 0 (.open 4) err (.nil lone) hcall
  rw [hsame] at hslot
  cases hslot

end DigMessage
