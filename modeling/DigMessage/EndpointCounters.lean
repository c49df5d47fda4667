import DigMessage.EndpointTrace

/-! The counters of an endpoint: the send counter and the sequence numbers of its streams move by
one a call at most, and a call panics only where one of them is exhausted. -/
namespace DigMessage
open FixedWidth

structure StreamSession.Within (s : StreamSession) (n : ℕ) : Prop where
  sendSeq : s.sendSeq.toNat ≤ n
  recvSeq : s.recvSeq.toNat ≤ n

/-- No counter of the endpoint is past `n`. -/
structure StreamEndpoint.Within {SK : Type} (e : StreamEndpoint SK) (n : ℕ) : Prop where
  sendCounter : e.sendCounter.toNat ≤ n
  sessions : ∀ c s, e.sessions.lookup c = some s → s.Within n

namespace StreamSession
variable {s s' : StreamSession} {n : ℕ}

theorem Within.mono (h : s.Within n) : s.Within (n+1) := ⟨h.sendSeq.trans n.le_succ,h.recvSeq.trans n.le_succ⟩

theorem Within.settle {t : StreamSession} (h : s.Within n) (ht : s.settle = some t) : t.Within n := by
  unfold StreamSession.settle at ht
  split at ht
  · cases ht
  · cases ht
    exact h

theorem Send.within {r : Request} (h : s.Send r s') (hs : s.Within n) : s'.Within (n+1) := by
  cases h with
  | sendData payload next hh hl hc hn =>
    have hle := hs.sendSeq
    exact ⟨by simp only [hn]; omega,hs.mono.recvSeq⟩
  | openAck w hr hh => exact ⟨hs.mono.sendSeq,hs.mono.recvSeq⟩
  | grantCredit k hh => exact ⟨hs.mono.sendSeq,hs.mono.recvSeq⟩
  | close hl => exact ⟨hs.mono.sendSeq,hs.mono.recvSeq⟩
  | reset => exact ⟨hs.mono.sendSeq,hs.mono.recvSeq⟩

theorem Recv.within {hdr : StreamHeader} {frame : StreamFrame} {a : Accepted}
    (h : s.Recv hdr frame a s') (hs : s.Within n) : s'.Within (n+1) := by
  cases h with
  | data next hh hc hseq hw hn =>
    have hle := hs.recvSeq
    exact ⟨hs.mono.sendSeq,by simp only [hn]; omega⟩
  | openAck hr hh => exact ⟨hs.mono.sendSeq,hs.mono.recvSeq⟩
  | credit hh => exact ⟨hs.mono.sendSeq,hs.mono.recvSeq⟩
  | close hh hc => exact ⟨hs.mono.sendSeq,hs.mono.recvSeq⟩
  | closeAck hl => exact hs.mono
  | reset => exact ⟨hs.mono.sendSeq,hs.mono.recvSeq⟩

theorem buildOpenAck_runs (w : UInt32) (s : StreamSession) : (buildOpenAck w).Runs s := by
  unfold buildOpenAck
  refine .bind (.read s) fun a t _ => ?_
  split
  · exact .fail _ _
  · exact .bind (.write _ _) fun _ _ _ => .pure _ _

theorem buildData_runs (h : s.sendSeq.toNat+1 < 2^64) : buildData.Runs s := by
  have hadd : ∃ next, checkedAdd s.sendSeq 1 = some next := ⟨_,if_pos h⟩
  obtain ⟨next,hnext⟩ := hadd
  unfold buildData
  refine .bind (.read s) fun a t ht => ?_
  cases ht
  split
  · exact .fail _ _
  · split
    · exact .fail _ _
    · split
      · exact .fail _ _
      · exact .bind (.unwrap hnext _) fun _ _ _ => .bind (.write _ _) fun _ _ _ => .pure _ _

theorem buildCredit_runs (k : UInt32) (s : StreamSession) : (buildCredit k).Runs s := by
  unfold buildCredit
  refine .bind (.read s) fun a t _ => ?_
  split
  · exact .fail _ _
  · exact .bind (.write _ _) fun _ _ _ => .pure _ _

theorem buildClose_runs (s : StreamSession) : buildClose.Runs s := by
  unfold buildClose
  refine .bind (.read s) fun a t _ => ?_
  split
  · exact .fail _ _
  · exact .bind (.write _ _) fun _ _ _ => .pure _ _

theorem buildReset_runs (s : StreamSession) : buildReset.Runs s := ⟨_,_,rfl⟩

theorem onRecv_runs (h : s.recvSeq.toNat+1 < 2^64) (frame : StreamFrame) (hdr : StreamHeader) :
    (onRecv frame hdr).Runs s := by
  have hadd : ∃ next, checkedAdd s.recvSeq 1 = some next := ⟨_,if_pos h⟩
  obtain ⟨next,hnext⟩ := hadd
  unfold onRecv
  refine .bind (.read s) fun a t ht => ?_
  cases ht
  split
  · exact .fail _ _
  · cases frame with
    | «open» => exact .fail _ _
    | openAck =>
      simp only
      split
      · exact .fail _ _
      · exact .bind (.write _ _) fun _ _ _ => .pure _ _
    | data =>
      simp only
      split
      · exact .fail _ _
      · split
        · exact .fail _ _
        · split
          · exact .fail _ _
          · split
            · exact .fail _ _
            · exact .bind (.unwrap hnext _) fun _ _ _ => .bind (.write _ _) fun _ _ _ => .pure _ _
    | credit =>
      simp only
      split
      · exact .fail _ _
      · exact .bind (.write _ _) fun _ _ _ => .pure _ _
    | close =>
      simp only
      split
      · exact .fail _ _
      · split
        · exact .fail _ _
        · exact .bind (.write _ _) fun _ _ _ => .pure _ _
    | closeAck =>
      simp only
      split
      · exact .fail _ _
      · exact .pure _ _
    | reset => exact .bind (.write _ _) fun _ _ _ => .pure _ _

end StreamSession

section
variable {SK : Type} (P : Primitives SK)

namespace StreamEndpoint
variable {e e' : StreamEndpoint SK} {n : ℕ} {entropy : Except String Bytes32} {c : Bytes32}

theorem sessionMut_runs {α : Type} {x : Fallible MessageError StreamSession α}
    (h : ∀ s, e.sessions.lookup c = some s → x.Runs s) : (sessionMut c x).Runs e := by
  unfold sessionMut
  refine .bind (.read e) fun a t ht => ?_
  cases ht
  cases hl : e.sessions.lookup c with
  | none => exact .fail _ _
  | some s => exact .onPart (h s hl)

theorem expectSession_runs {α : Type} {x : Fallible MessageError StreamSession α}
    (hm : c ∈ e.sessions) (h : ∀ s, e.sessions.lookup c = some s → x.Runs s) :
    (expectSession c x).Runs e := by
  obtain ⟨r,t,ht⟩ := sessionMut_runs h
  exact ⟨r,t,by rw [expectSession_eq hm, ht]⟩

theorem sealFrame_runs (h : e.sendCounter.toNat+1 < 2^64) (hdr : StreamHeader) (payload : List UInt8)
    (nowMs expiresAt : UInt64) : (sealFrame P entropy c hdr payload nowMs expiresAt).Runs e := by
  have hadd : ∃ next, checkedAdd e.sendCounter 1 = some next := ⟨_,if_pos h⟩
  obtain ⟨next,hnext⟩ := hadd
  unfold sealFrame
  refine .bind (.read e) fun a t ht => ?_
  cases ht
  exact .bind (.unwrap hnext _) fun _ _ _ => .bind (.write _ _) fun _ _ _ => .ofExcept _ _

theorem sessionMut_sendCounter {α : Type} {x : Fallible MessageError StreamSession α}
    {r : Except MessageError α} (h : sessionMut c x e = some (r,e')) : e'.sendCounter = e.sendCounter := by
  obtain ⟨-,rfl,-⟩ | ⟨s,s',-,-,rfl⟩ := sessionMut_cases h <;> rfl

theorem dropIfClosed_runs (c : Bytes32) (e : StreamEndpoint SK) : (dropIfClosed c).Runs e :=
  ⟨_,_,dropIfClosed_apply c e⟩

theorem moveAndSeal_runs {build : Fallible MessageError StreamSession StreamHeader}
    (hb : ∀ s, e.sessions.lookup c = some s → build.Runs s) (h : e.sendCounter.toNat+1 < 2^64)
    (payload : List UInt8) (nowMs expiresAt : UInt64) : (sessionMut c build >>= fun hdr =>
      sealFrame P entropy c hdr payload nowMs expiresAt).Runs e := by
  refine .bind (sessionMut_runs hb) fun hdr t ht => sealFrame_runs P ?_ _ _ _ _
  rwa [sessionMut_sendCounter ht]

/-- A send-side operation panics only at its last counter. -/
theorem call_runs (h : e.Within n) (hn : n+1 < 2^64) (nowMs expiresAt : UInt64) (r : Request) :
    (call P entropy c nowMs expiresAt r).Runs e := by
  have hcount : e.sendCounter.toNat+1 < 2^64 := by have := h.sendCounter; omega
  cases r with
  | «open» w =>
    change («open» P entropy c w nowMs expiresAt).Runs e
    unfold «open»
    refine .bind (.read e) fun a t ht => ?_
    cases ht
    split
    · exact .fail _ _
    · split
      · exact .fail _ _
      · refine .bind (.write _ _) fun _ t ht => ?_
        cases ht
        refine sealFrame_runs P ?_ _ _ _ _
        exact hcount
  | openAck w =>
    exact moveAndSeal_runs P (fun s _ => StreamSession.buildOpenAck_runs w s) hcount _ _ _
  | sendData payload =>
    refine moveAndSeal_runs P (fun s hs => StreamSession.buildData_runs ?_) hcount _ _ _
    have := (h.sessions c s hs).sendSeq
    omega
  | grantCredit k =>
    exact moveAndSeal_runs P (fun s _ => StreamSession.buildCredit_runs k s) hcount _ _ _
  | close =>
    change (close P entropy c nowMs expiresAt).Runs e
    unfold close
    rw [← Fallible.bind_assoc]
    refine .bind (moveAndSeal_runs P (fun s _ => StreamSession.buildClose_runs s) hcount _ _ _) ?_
    exact fun env t _ => .bind (dropIfClosed_runs c t) fun _ _ _ => .pure _ _
  | reset =>
    change (reset P entropy c nowMs expiresAt).Runs e
    unfold reset
    rw [← Fallible.bind_assoc]
    refine .bind (moveAndSeal_runs P (fun s _ => StreamSession.buildReset_runs s) hcount _ _ _) ?_
    exact fun env t _ => .bind ⟨_,_,removeSession_apply c t⟩ fun _ _ _ => .pure _ _

theorem resetResponse_runs (h : e.sendCounter.toNat+1 < 2^64) (nowMs : UInt64) (cause : MessageError) :
    (resetResponse P entropy c nowMs cause).Runs e := by
  unfold resetResponse
  exact .bind (sealFrame_runs P h _ _ _ _) fun _ _ _ => .pure _ _

theorem acceptOpen_runs (h : e.sendCounter.toNat+1 < 2^64) (hdr : StreamHeader) (nowMs : UInt64) :
    (acceptOpen P entropy c hdr nowMs).Runs e := by
  unfold acceptOpen
  refine .bind (.read e) fun a t ht => ?_
  cases ht
  split
  · refine .bind ⟨_,_,removeSession_apply c e⟩ fun _ t ht => ?_
    rw [removeSession_apply] at ht
    cases ht
    refine resetResponse_runs P ?_ _ _
    exact h
  · split
    · exact resetResponse_runs P h _ _
    · exact .bind (.write _ _) fun _ _ _ => .pure _ _

theorem acceptFrame_runs (h : e.Within n) (hn : n+1 < 2^64) (frame : StreamFrame) (hdr : StreamHeader)
    (payload : List UInt8) (nowMs : UInt64) : (acceptFrame P entropy c frame hdr payload nowMs).Runs e := by
  have hcount : e.sendCounter.toNat+1 < 2^64 := by have := h.sendCounter; omega
  unfold acceptFrame
  refine .bind (.read e) fun a t ht => ?_
  cases ht
  split
  · split
    · exact .bind ⟨_,_,removeSession_apply c e⟩ fun _ _ _ => .pure _ _
    · exact .pure _ _
  · split
    · exact acceptOpen_runs P hcount _ _
    · split
      · rename_i hm
        refine .bind (.attempt (expectSession_runs hm fun s hs => StreamSession.onRecv_runs ?_ _ _))
          fun transition t ht => ?_
        · have := (h.sessions c s hs).recvSeq
          omega
        · obtain ⟨r,hmut,hr⟩ := Fallible.attempt_eq_some.mp ht
          cases hr
          rw [expectSession_eq hm] at hmut
          cases transition with
          | ok accepted => exact .bind (dropIfClosed_runs c t) fun _ _ _ => .pure _ _
          | error cause =>
            refine .bind ⟨_,_,removeSession_apply c t⟩ fun _ u hu => ?_
            rw [removeSession_apply] at hu
            cases hu
            refine resetResponse_runs P ?_ _ _
            simp only [sessionMut_sendCounter hmut]
            exact hcount
      · exact .pure _ _

theorem accept_runs (h : e.Within n) (hn : n+1 < 2^64) (order : HashOrder)
    (envelope : DigMessageEnvelope) (resolveSenderPub : Bytes32 → UInt32 → Option Bytes48)
    (nowMs : UInt64) : (accept P order entropy envelope resolveSenderPub nowMs).Runs e := by
  have hopen : (openMessage P order e.identitySk envelope resolveSenderPub nowMs).Runs e.guard := by
    obtain ⟨cause,ho,-⟩ | ⟨shape,inner,g,-,ho⟩ :=
      openMessage_cases P order e.identitySk envelope resolveSenderPub nowMs e.guard
    · exact ⟨_,_,ho⟩
    · exact ⟨_,_,ho⟩
  unfold accept
  refine .bind (.read e) fun a t ht => ?_
  cases ht
  refine .bind (.attempt (.onPart hopen)) fun outcome t ht => ?_
  obtain ⟨r,hpart,hr⟩ := Fallible.attempt_eq_some.mp ht
  cases hr
  obtain ⟨g,-,rfl⟩ := Fallible.onPart_eq_some.mp hpart
  have hw : StreamEndpoint.Within {e with guard := g} n := ⟨h.sendCounter,h.sessions⟩
  cases outcome with
  | error cause => exact .pure _ _
  | ok opened =>
    simp only
    split
    · exact .pure _ _
    · split
      · exact .pure _ _
      · split
        · exact .pure _ _
        · split
          · exact .pure _ _
          · exact acceptFrame_runs P hw hn _ _ _ _

end StreamEndpoint

variable {P}

theorem within_putSession {sessions : Sessions} {c : Bytes32} {slot : Option StreamSession} {n : ℕ}
    (h : ∀ d s, sessions.lookup d = some s → s.Within n) (hs : ∀ s, slot = some s → s.Within (n+1)) :
    ∀ d s, (putSession sessions c slot).lookup d = some s → s.Within (n+1) := by
  intro d s hd
  rw [lookup_putSession] at hd
  split at hd
  · exact hs s hd
  · exact (h d s hd).mono

theorem Sends.within {slot after failed : Option StreamSession} {r : Request} {hdr : StreamHeader}
    {n : ℕ} (h : Sends slot r hdr after failed) (hs : ∀ s, slot = some s → s.Within n) :
    (∀ s, after = some s → s.Within (n+1)) ∧ ∀ s, failed = some s → s.Within (n+1) := by
  cases h with
  | «open» w =>
    constructor <;>
    · rintro _ ⟨⟩
      exact ⟨Nat.zero_le _,Nat.zero_le _⟩
  | @live s s' _ hsend =>
    have hw := hsend.within (hs s rfl)
    constructor
    · intro t ht
      cases r with
      | close => exact hw.settle ht
      | reset => cases ht
      | «open» w => cases ht; exact hw
      | openAck w => cases ht; exact hw
      | sendData payload => cases ht; exact hw
      | grantCredit k => cases ht; exact hw
    · rintro _ ⟨⟩
      exact hw

theorem Receives.within {slot slot' : Option StreamSession} {full : Bool} {hdr : StreamHeader}
    {payload : List UInt8} {frame : StreamFrame} {reaction : Reaction} {n : ℕ}
    (h : Receives slot full hdr payload frame reaction slot') (hs : ∀ s, slot = some s → s.Within n) :
    ∀ s, slot' = some s → s.Within (n+1) := by
  intro t ht
  cases h with
  | accepted hslot hf hreset hrecv => exact (hrecv.within (hs _ hslot)).settle ht
  | opened hslot hf =>
    cases ht
    exact ⟨Nat.zero_le _,Nat.zero_le _⟩
  | peerReset hslot => cases ht
  | strayReset cause hslot => cases ht
  | reopened cause hslot => cases ht
  | refused cause hslot hf => cases ht
  | stray cause hslot hf ho => cases ht
  | violated cause hslot hf ho hn => cases ht

namespace StreamEndpoint.Within
variable {e e' : StreamEndpoint SK} {n : ℕ} {i : Input} {out : Outcome}

theorem runs (h : e.Within n) (hn : n+1 < 2^64) (i : Input) :
    ∃ out e', i.perform P e = some (out,e') := by
  cases i with
  | call c r nowMs expiresAt entropy =>
    obtain ⟨res,e',hr⟩ : (call P entropy c nowMs expiresAt r).Runs e := call_runs P h hn _ _ r
    exact ⟨_,e',by rw [Input.perform,hr]; rfl⟩
  | accept envelope resolveSenderPub nowMs order entropy =>
    obtain ⟨res,e',hr⟩ : (accept P order entropy envelope resolveSenderPub nowMs).Runs e :=
      accept_runs P h hn _ _ _ _
    exact ⟨_,e',by rw [Input.perform,hr]; rfl⟩

theorem step (h : e.Within n) (hp : i.perform P e = some (out,e')) : e'.Within (n+1) := by
  have hcount : ∀ next : UInt64, next.toNat = e.sendCounter.toNat+1 → next.toNat ≤ n+1 := by
    intro next hnext
    have := h.sendCounter
    omega
  cases i with
  | call c r nowMs expiresAt entropy =>
    obtain ⟨res,-,hcall⟩ := Input.perform_call P hp
    cases hcall with
    | rejected err => exact ⟨h.sendCounter.trans n.le_succ,fun d s hd => (h.sessions d s hd).mono⟩
    | «sealed» hs hn hseal =>
      exact ⟨hcount _ hn,within_putSession h.sessions (hs.within (h.sessions c)).1⟩
    | unsealed hs hn hseal =>
      exact ⟨hcount _ hn,within_putSession h.sessions (hs.within (h.sessions c)).2⟩
  | accept envelope resolveSenderPub nowMs order entropy =>
    obtain ⟨res,-,hacc⟩ := Input.perform_accept P hp
    have hsame : ∀ g, StreamEndpoint.Within {e with guard := g} (n+1) := fun g =>
      ⟨h.sendCounter.trans n.le_succ,fun d s hd => (h.sessions d s hd).mono⟩
    cases hacc with
    | refused ho => exact hsame _
    | idle cause ho hno => exact hsame _
    | ignored ho ha hr => exact hsame _
    | event ho ha hr =>
      exact ⟨h.sendCounter.trans n.le_succ,within_putSession h.sessions (hr.within (h.sessions _))⟩
    | answered ho ha hr hn hseal =>
      exact ⟨hcount _ hn,within_putSession h.sessions (hr.within (h.sessions _))⟩
    | unanswered ho ha hr hn hseal =>
      exact ⟨hcount _ hn,within_putSession h.sessions (hr.within (h.sessions _))⟩

theorem mono (h : e.Within n) : e.Within (n+1) :=
  ⟨h.sendCounter.trans n.le_succ,fun d s hd => (h.sessions d s hd).mono⟩

theorem update {ι : Type} [DecidableEq ι] {w : ι → StreamEndpoint SK} {x : ι}
    (h : ∀ z, (w z).Within n) (hp : i.perform P (w x) = some (out,e')) (z : ι) :
    (Function.update w x e' z).Within (n+1) := by
  by_cases hz : z = x
  · subst hz
    rw [Function.update_self]
    exact (h z).step hp
  · rw [Function.update_of_ne hz]
    exact (h z).mono

end StreamEndpoint.Within

/-- From an endpoint within `n` any calls run through, as long as a counter can move once more. -/
theorem StreamEndpoint.Within.trace {e : StreamEndpoint SK} {n : ℕ} (h : e.Within n) (is : List Input)
    (hn : n+is.length < 2^64) :
    ∃ tr e', Trace P e tr e' ∧ tr.map Event.input = is ∧ e'.Within (n+is.length) := by
  induction is generalizing e n with
  | nil => exact ⟨[],e,.nil e,rfl,h⟩
  | cons i is ih =>
    rw [List.length_cons] at hn
    obtain ⟨out,e₁,hp⟩ := h.runs (P:=P) (by omega) i
    obtain ⟨tr,e',htr,hin,hw⟩ := ih (h.step hp) (by omega)
    have hfirst : Trace P (Event.mk e i out).before (⟨e,i,out⟩::tr) e' := .cons hp htr
    refine ⟨⟨e,i,out⟩::tr,e',hfirst,by simp [hin],?_⟩
    have hlen : n+1+is.length = n+(is.length+1) := by omega
    rwa [List.length_cons,← hlen]

/-- A new endpoint does not panic in its first `2^64-1` calls, whatever they are and whatever
envelopes are presented to it; its counters stay within their number. -/
theorem endpoint_never_panics (identitySk : SK) (localDid : Bytes32) (localEpoch : UInt32)
    (peerDid : Bytes32) (peerPub : Bytes48) (messageType : UInt32) (max : ℕ) (is : List Input)
    (hlen : is.length < 2^64) : ∃ tr e', Trace P ((StreamEndpoint.new identitySk localDid localEpoch
      peerDid peerPub messageType).withMaxConcurrent max) tr e' ∧ tr.map Event.input = is ∧
      e'.Within is.length := by
  have hnew : StreamEndpoint.Within ((StreamEndpoint.new identitySk localDid localEpoch peerDid
      peerPub messageType).withMaxConcurrent max) 0 := by
    refine ⟨le_rfl,fun c s hs => ?_⟩
    cases hs
  simpa using hnew.trace (P:=P) is (by omega)

end

/-- An OPEN and a DATA it has no credit for, made without entropy. -/
theorem two_calls_run : ∃ tr e', Trace .plain ((StreamEndpoint.new (byte32 1) (byte32 11) 1 (byte32 12)
      (Primitives.plain.publicKeyBytes (byte32 2)) 7).withMaxConcurrent 1) tr e' ∧
    tr.map Event.input = [.call (byte32 8) (.open 4) 1000 0 (.ok (byte32 9)),
      .call (byte32 8) (.sendData [1]) 1000 0 (.error "no entropy")] ∧ e'.Within 2 :=
  endpoint_never_panics _ _ _ _ _ _ _ _ (by decide)

end DigMessage
