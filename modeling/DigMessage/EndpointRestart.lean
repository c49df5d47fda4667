import DigMessage.RelaySchedule

/-! Side `a` discarded and made anew while the endpoint of `b` runs on. A new endpoint counts
its frames from zero, and the table of `b` remembers the counters of the one before. -/
namespace DigMessage
open FixedWidth

theorem decompressPayload_ne_replay {SK : Type} (P : Primitives SK) (compression : UInt8)
    (data : List UInt8) (len : UInt32) : decompressPayload P compression data len ≠ .error .replay := by
  intro h
  unfold decompressPayload at h
  simp only at h
  split_ifs at h
  · cases h
  · cases h
  · split at h
    · cases h
    · split_ifs at h
      cases h
  · cases h

section
variable {SK : Type} {P : Primitives SK}

namespace StreamEndpoint

theorem resetResponse_ne_dropped {entropy : Except String Bytes32} {c : Bytes32} {nowMs : UInt64}
    {cause cause' : MessageError} {e e' : StreamEndpoint SK}
    (h : resetResponse P entropy c nowMs cause e = some (.ok (.dropped cause'),e')) : False := by
  obtain ⟨next,-,-,hres⟩ := resetResponse_cases P h
  cases hs : sealMessage P entropy (e.frameParams c (header .reset 0 0) [] nowMs 0) with
  | error err =>
    rw [hs] at hres
    cases hres
  | ok env =>
    rw [hs] at hres
    cases hres

theorem acceptFrame_dropped {entropy : Except String Bytes32} {c : Bytes32} {frame : StreamFrame}
    {hdr : StreamHeader} {payload : List UInt8} {nowMs : UInt64} {cause : MessageError}
    {e e' : StreamEndpoint SK}
    (h : acceptFrame P entropy c frame hdr payload nowMs e = some (.ok (.dropped cause),e')) :
    ∃ text, cause = .streamProtocol text := by
  unfold acceptFrame at h
  rw [Fallible.bind_of_ok (Fallible.read_apply e)] at h
  split_ifs at h with hreset hm hopen hm
  · rw [Fallible.bind_of_ok (removeSession_apply c e)] at h
    cases h
  · cases h
    exact ⟨_,rfl⟩
  · unfold acceptOpen at h
    rw [Fallible.bind_of_ok (Fallible.read_apply e)] at h
    split_ifs at h
    · rw [Fallible.bind_of_ok (removeSession_apply c e)] at h
      exact (resetResponse_ne_dropped h).elim
    · exact (resetResponse_ne_dropped h).elim
    · rw [Fallible.bind_of_ok (Fallible.write_apply _ _)] at h
      cases h
  · rcases Fallible.bind_eq_some.mp h with ⟨err,-,he⟩ | ⟨transition,u,-,ht⟩
    · cases he
    · cases transition with
      | ok accepted =>
        simp only at ht
        rw [Fallible.bind_of_ok (dropIfClosed_apply c u)] at ht
        cases ht
      | error cause' =>
        simp only at ht
        rw [Fallible.bind_of_ok (removeSession_apply c u)] at ht
        exact (resetResponse_ne_dropped ht).elim
  · cases h
    exact ⟨_,rfl⟩

theorem accept_replay {order : HashOrder} {entropy : Except String Bytes32}
    {envelope : DigMessageEnvelope} {resolveSenderPub : Bytes32 → UInt32 → Option Bytes48}
    {nowMs : UInt64} {e e' : StreamEndpoint SK}
    (h : accept P order entropy envelope resolveSenderPub nowMs e = some (.ok (.dropped .replay),e')) :
    ∃ g, openMessage P order e.identitySk envelope resolveSenderPub nowMs e.guard =
      some (.error .replay,g) := by
  unfold accept at h
  rw [Fallible.bind_of_ok (Fallible.read_apply e)] at h
  rcases Fallible.bind_eq_some.mp h with ⟨err,-,he⟩ | ⟨outcome,u,ha,ht⟩
  · cases he
  · obtain ⟨r,hg,hr⟩ := Fallible.attempt_eq_some.mp ha
    cases hr
    obtain ⟨g,hopen,rfl⟩ := Fallible.onPart_eq_some.mp hg
    cases outcome with
    | error cause =>
      cases ht
      exact ⟨g,hopen⟩
    | ok m =>
      simp only at ht
      by_cases hs : m.sender ≠ e.peerDid
      · rw [if_pos hs] at ht
        cases ht
      · rw [if_neg hs] at ht
        cases hh : envelope.stream with
        | none =>
          rw [hh] at ht
          cases ht
        | some hdr =>
          rw [hh] at ht
          simp only at ht
          cases hk : StreamFrame.fromU8 hdr.frame with
          | none =>
            rw [hk] at ht
            cases ht
          | some frame =>
            rw [hk] at ht
            simp only at ht
            by_cases hshape : m.shape ≠ .streamFrame
            · rw [if_pos hshape] at ht
              cases ht
            · rw [if_neg hshape] at ht
              obtain ⟨text,hc⟩ := acceptFrame_dropped ht
              cases hc

def renewed (e : StreamEndpoint SK) (messageType : UInt32) : StreamEndpoint SK :=
  .new e.identitySk e.localDid e.localEpoch e.peerDid e.peerPub messageType

end StreamEndpoint

theorem perform_counter {ev : Event SK} {e' : StreamEndpoint SK}
    (h : ev.input.perform P ev.before = some (ev.outcome,e')) :
    ev.before.sendCounter.toNat ≤ e'.sendCounter.toNat ∧
    ∀ s, ev.sealed? = some s → s.frame.counter = ev.before.sendCounter ∧
      ev.before.sendCounter.toNat < e'.sendCounter.toNat := by
  obtain ⟨e,input,out⟩ := ev
  cases input with
  | call c r nowMs expiresAt entropy =>
    obtain ⟨res,hout,hcall⟩ := Input.perform_call P h
    simp only at hout
    subst hout
    cases hcall with
    | rejected err => exact ⟨le_rfl,fun s hs => by cases hs⟩
    | unsealed hsend hn hseal => exact ⟨(Nat.le_succ _).trans_eq hn.symm,fun s hs => by cases hs⟩
    | sealed hsend hn hseal =>
      refine ⟨(Nat.le_succ _).trans_eq hn.symm,fun s hs => ?_⟩
      cases hs
      exact ⟨rfl,(Nat.lt_succ_self _).trans_eq hn.symm⟩
  | accept envelope resolveSenderPub nowMs order entropy =>
    obtain ⟨res,hout,hacc⟩ := Input.perform_accept P h
    simp only at hout
    subst hout
    cases hacc with
    | refused hopen => exact ⟨le_rfl,fun s hs => by cases hs⟩
    | idle cause hopen hn => exact ⟨le_rfl,fun s hs => by cases hs⟩
    | event hopen ha hr => exact ⟨le_rfl,fun s hs => by cases hs⟩
    | ignored hopen ha hr => exact ⟨le_rfl,fun s hs => by cases hs⟩
    | unanswered hopen ha hr hn hseal => exact ⟨(Nat.le_succ _).trans_eq hn.symm,fun s hs => by cases hs⟩
    | answered hopen ha hr hn hseal =>
      refine ⟨(Nat.le_succ _).trans_eq hn.symm,fun s hs => ?_⟩
      cases hs
      exact ⟨rfl,(Nat.lt_succ_self _).trans_eq hn.symm⟩

variable (P)

def Resolves (party : Party SK) (resolveSenderPub : Bytes32 → UInt32 → Option Bytes48) : Prop :=
  resolveSenderPub party.did party.epoch = some (P.publicKeyBytes party.identitySk)

/-- A run of both sides. `a` calls and accepts what it likes, and may be made anew: `cuts` are
the lengths of the history where it was. `b` calls what it likes, accepts envelopes of other
senders, and is delivered frames of `a` in the order they were sealed, from number `next` on. -/
inductive Restarted (party : Side → Party SK) : List ℕ → ℕ → History SK → World SK → Prop
  | nil : Restarted party [] 0 [] (startWorld P party)
  | renew {cuts : List ℕ} {next : ℕ} {tr : History SK} {w : World SK} (messageType : UInt32) :
      Restarted party cuts next tr w →
      Restarted party (tr.length::cuts) next tr
        (Function.update w .a ((w .a).renewed messageType))
  | own {cuts : List ℕ} {next : ℕ} {tr : History SK} {w : World SK} {ev : Event SK}
      {e' : StreamEndpoint SK} : Restarted party cuts next tr w → ev.before = w .a →
      ev.input.perform P ev.before = some (ev.outcome,e') →
      Restarted party cuts next (tr++[(.a,ev)]) (Function.update w .a e')
  | other {cuts : List ℕ} {next : ℕ} {tr : History SK} {w : World SK} {ev : Event SK}
      {e' : StreamEndpoint SK} : Restarted party cuts next tr w → ev.before = w .b →
      ev.key? ≠ some (party .a).key → ev.input.perform P ev.before = some (ev.outcome,e') →
      Restarted party cuts next (tr++[(.b,ev)]) (Function.update w .b e')
  | deliver {cuts : List ℕ} {next k : ℕ} {tr : History SK} {w : World SK} {ev : Event SK}
      {e' : StreamEndpoint SK} {s : SealedFrame SK}
      {resolveSenderPub : Bytes32 → UInt32 → Option Bytes48} {nowMs : UInt64} {order : HashOrder}
      {entropy : Except String Bytes32} : Restarted party cuts next tr w → ev.before = w .b →
      (sealedBy .a tr)[k]? = some s → next ≤ k → Resolves P (party .a) resolveSenderPub →
      ev.input = .accept s.envelope resolveSenderPub nowMs order entropy →
      ev.input.perform P ev.before = some (ev.outcome,e') →
      Restarted party cuts (k+1) (tr++[(.b,ev)]) (Function.update w .b e')

/-- Every frame of `a` is sealed at a counter above all that its discarded instances sealed at. -/
def CountersKept (cuts : List ℕ) (tr : History SK) : Prop :=
  ∀ (j : ℕ) (ev : Event SK) (s : SealedFrame SK), tr[j]? = some (.a,ev) → ev.sealed? = some s →
    ∀ cut ∈ cuts, cut ≤ j → ∀ s' ∈ sealedBy .a (tr.take cut),
      s'.frame.counter < ev.before.sendCounter

instance (cuts : List ℕ) (tr : History SK) : Decidable (CountersKept cuts tr) :=
  decidable_of_iff (∀ p ∈ tr.zipIdx, p.1.1 = .a → ∀ s ∈ p.1.2.sealed?, ∀ cut ∈ cuts, cut ≤ p.2 →
      ∀ s' ∈ sealedBy .a (tr.take cut), s'.frame.counter < p.1.2.before.sendCounter) <| by
    constructor
    · intro h j ev s hj hs
      exact h ((.a,ev),j) (List.mem_zipIdx_iff_getElem?.mpr hj) rfl s hs
    · rintro h ⟨⟨x,ev⟩,j⟩ hp rfl s hs
      exact h j ev s (List.mem_zipIdx_iff_getElem?.mp hp) hs

variable {P} {party : Side → Party SK} {cuts : List ℕ} {next : ℕ} {tr : History SK} {w : World SK}

theorem CountersKept.of_snoc {p : Side × Event SK} (hcuts : ∀ cut ∈ cuts, cut ≤ tr.length)
    (h : CountersKept cuts (tr++[p])) : CountersKept cuts tr := by
  intro j ev s hj hs cut hcut hle s' hs'
  have hj' : (tr++[p])[j]? = some (.a,ev) := by
    rw [List.getElem?_append_left (List.getElem?_eq_some_iff.mp hj).1,hj]
  refine h j ev s hj' hs cut hcut hle s' ?_
  rw [List.take_append_of_le_length (hcuts cut hcut)]
  exact hs'

structure Party.Same (me me' : Party SK) : Prop where
  identitySk : me.identitySk = me'.identitySk
  did : me.did = me'.did
  epoch : me.epoch = me'.epoch

theorem Party.Same.refl (me : Party SK) : me.Same me := ⟨rfl,rfl,rfl⟩

theorem Party.Same.key {me me' : Party SK} (h : me.Same me') : me.key = me'.key := by
  simp [Party.key,h.did,h.epoch]

theorem Party.Owns.renewed {me peer : Party SK} {e : StreamEndpoint SK} (h : me.Owns P peer e)
    (messageType : UInt32) :
    ∃ me' : Party SK, me'.Same me ∧ me'.Owns P peer (e.renewed messageType) :=
  ⟨{me with messageType := messageType,maxConcurrent := maxConcurrentStreams},⟨rfl,rfl,rfl⟩,
    h.identitySk,h.localDid,h.localEpoch,h.peerDid,h.peerPub,rfl,rfl⟩

namespace Restarted

theorem cuts_le (h : Restarted P party cuts next tr w) : ∀ cut ∈ cuts, cut ≤ tr.length := by
  induction h with
  | nil => exact fun cut hc => absurd hc List.not_mem_nil
  | renew messageType _ ih =>
    intro cut hc
    rcases List.mem_cons.mp hc with rfl | hc
    · exact le_rfl
    · exact ih cut hc
  | own _ _ _ ih => exact fun cut hc => (ih cut hc).trans (by simp)
  | other _ _ _ _ ih => exact fun cut hc => (ih cut hc).trans (by simp)
  | deliver _ _ _ _ _ _ _ ih => exact fun cut hc => (ih cut hc).trans (by simp)

theorem owns (h : Restarted P party cuts next tr w) (x : Side) :
    ∃ me : Party SK, me.Same (party x) ∧ me.Owns P (party x.other) (w x) := by
  have hstep {w : World SK} {ev : Event SK} {e' : StreamEndpoint SK} (y : Side)
      (hw : ∃ me : Party SK, me.Same (party x) ∧ me.Owns P (party x.other) (w x))
      (hb : ev.before = w y) (hp : ev.input.perform P ev.before = some (ev.outcome,e')) :
      ∃ me : Party SK, me.Same (party x) ∧ me.Owns P (party x.other) (Function.update w y e' x) := by
    obtain ⟨me,hsame,howns⟩ := hw
    by_cases hx : x = y
    · subst hx
      rw [Function.update_self]
      exact ⟨me,hsame,Party.Owns.step (hb ▸ howns) hp⟩
    · rw [Function.update_of_ne hx]
      exact ⟨me,hsame,howns⟩
  induction h with
  | nil => exact ⟨party x,.refl _,Party.owns_endpoint _ _⟩
  | renew messageType _ ih =>
    obtain ⟨me,hsame,howns⟩ := ih
    by_cases hx : x = .a
    · subst hx
      rw [Function.update_self]
      obtain ⟨me',hsame',howns'⟩ := howns.renewed messageType
      exact ⟨me',⟨hsame'.1.trans hsame.1,hsame'.2.trans hsame.2,hsame'.3.trans hsame.3⟩,howns'⟩
    · rw [Function.update_of_ne hx]
      exact ⟨me,hsame,howns⟩
  | own _ hb hp ih => exact hstep .a ih hb hp
  | other _ hb _ hp ih => exact hstep .b ih hb hp
  | deliver _ hb _ _ _ _ hp ih => exact hstep .b ih hb hp

theorem sound (h : Restarted P party cuts next tr w) : ∀ s ∈ sealedBy .a tr,
    ∃ me : Party SK, me.Same (party .a) ∧ s.Sound P me (party .b) := by
  induction h with
  | nil => exact fun s hs => absurd hs List.not_mem_nil
  | renew messageType _ ih => exact ih
  | own hr hb hp ih =>
    intro s hs
    rw [sealedBy_snoc,List.mem_append,Option.mem_toList] at hs
    rcases hs with hs | hs
    · exact ih s hs
    · obtain ⟨me,hsame,howns⟩ := hr.owns .a
      exact ⟨me,hsame,sealed_sound (hb ▸ howns) hp hs⟩
  | other _ _ _ _ ih =>
    intro s hs
    rw [sealedBy_snoc] at hs
    exact ih s (by simpa using hs)
  | deliver _ _ _ _ _ _ _ ih =>
    intro s hs
    rw [sealedBy_snoc] at hs
    exact ih s (by simpa using hs)

/-- A frame of `a` was sealed below the counter of the running instance, or before a restart. -/
theorem sealed_below (h : Restarted P party cuts next tr w) : ∀ s ∈ sealedBy .a tr,
    s.frame.counter.toNat < (w .a).sendCounter.toNat ∨
    ∃ cut ∈ cuts, s ∈ sealedBy .a (tr.take cut) := by
  have hgrow {tr : History SK} {cuts : List ℕ} {p : Side × Event SK} {s : SealedFrame SK}
      (hle : ∀ cut ∈ cuts, cut ≤ tr.length) (hs : ∃ cut ∈ cuts, s ∈ sealedBy .a (tr.take cut)) :
      ∃ cut ∈ cuts, s ∈ sealedBy .a ((tr++[p]).take cut) := by
    obtain ⟨cut,hcut,hs⟩ := hs
    refine ⟨cut,hcut,?_⟩
    rw [List.take_append_of_le_length (hle cut hcut)]
    exact hs
  induction h with
  | nil => exact fun s hs => absurd hs List.not_mem_nil
  | @renew cuts next tr w messageType hr ih =>
    intro s hs
    refine Or.inr ⟨tr.length,List.mem_cons_self,?_⟩
    rw [List.take_length]
    exact hs
  | @own cuts next tr w ev e' hr hb hp ih =>
    intro s hs
    have hcount := perform_counter hp
    rw [sealedBy_snoc,List.mem_append,Option.mem_toList] at hs
    rw [Function.update_self]
    rcases hs with hs | hs
    · rcases ih s hs with hlt | hcut
      · refine Or.inl (hlt.trans_le ?_)
        rw [← hb]
        exact hcount.1
      · exact Or.inr (hgrow hr.cuts_le hcut)
    · obtain ⟨hsame,hlt⟩ := hcount.2 s hs
      rw [hsame]
      exact Or.inl hlt
  | @other cuts next tr w ev e' hr hb hk hp ih =>
    intro s hs
    rw [sealedBy_snoc] at hs
    rw [Function.update_of_ne (by decide)]
    exact (ih s (by simpa using hs)).imp_right (hgrow hr.cuts_le)
  | @deliver cuts next k tr w ev e' s' _ _ _ _ hr hb hk hle hres hi hp ih =>
    intro s hs
    rw [sealedBy_snoc] at hs
    rw [Function.update_of_ne (by decide)]
    exact (ih s (by simpa using hs)).imp_right (hgrow hr.cuts_le)

/-- Where the counters are kept, the frames of `a` carry increasing counters. -/
theorem increasing (h : Restarted P party cuts next tr w) (hk : CountersKept cuts tr) :
    (sealedBy .a tr).Pairwise fun s t => s.frame.counter.toNat < t.frame.counter.toNat := by
  induction h with
  | nil => exact .nil
  | @renew cuts next tr w messageType hr ih =>
    refine ih fun j ev s hj hs cut hcut => ?_
    exact hk j ev s hj hs cut (List.mem_cons_of_mem _ hcut)
  | @own cuts next tr w ev e' hr hb hp ih =>
    have hfront := ih (hk.of_snoc hr.cuts_le)
    rw [sealedBy_snoc,List.pairwise_append]
    rw [if_pos rfl]
    refine ⟨hfront,?_,fun s hs t ht => ?_⟩
    · cases ev.sealed? with
      | none => exact .nil
      | some t => exact List.pairwise_singleton _ t
    · rw [Option.mem_toList] at ht
      obtain ⟨hsame,-⟩ := (perform_counter hp).2 t ht
      rw [hsame]
      rcases hr.sealed_below s hs with hlt | ⟨cut,hcut,hs⟩
      · rwa [hb]
      · have hle := hr.cuts_le cut hcut
        refine UInt64.lt_iff_toNat_lt.mp (hk tr.length ev t (by simp) ht cut hcut hle s ?_)
        rw [List.take_append_of_le_length hle]
        exact hs
  | @other cuts next tr w ev e' hr hb hkey hp ih =>
    rw [sealedBy_snoc]
    simpa using ih (hk.of_snoc hr.cuts_le)
  | @deliver cuts next k tr w ev e' s' _ _ _ _ hr hb _ hle hres hi hp ih =>
    rw [sealedBy_snoc]
    simpa using ih (hk.of_snoc hr.cuts_le)

theorem delivered (hP : P.Lawful) (h : Restarted P party cuts next tr w) {s : SealedFrame SK}
    (hs : s ∈ sealedBy .a tr) {resolveSenderPub : Bytes32 → UInt32 → Option Bytes48}
    (hres : Resolves P (party .a) resolveSenderPub) : ∃ inner,
    authenticate P (w .b).identitySk s.envelope resolveSenderPub = .ok (.streamFrame,inner) ∧
    inner.counter = s.frame.counter := by
  obtain ⟨me,hsame,hsound⟩ := h.sound s hs
  obtain ⟨you,hyou,howns⟩ := h.owns .b
  have hknown : resolveSenderPub me.did me.epoch = some (P.publicKeyBytes me.identitySk) := by
    rw [hsame.did,hsame.epoch,hsame.identitySk]
    exact hres
  obtain ⟨inner,ha,-,compressed,-,rfl⟩ := hsound.authenticates hP hknown
  refine ⟨sealedInner P s.params s.envelope.sealed.kemEnc compressed,?_,hsound.counter⟩
  rw [howns.identitySk,hyou.identitySk]
  exact ha

/-- The window `b` keeps for `a` reaches no further than the frames it was delivered. -/
theorem window_below (hP : P.Lawful) (h : Restarted P party cuts next tr w)
    {window : SenderWindow} (hl : (w .b).guard.senders.lookup (party .a).key = some window) :
    ∃ k s, k < next ∧ (sealedBy .a tr)[k]? = some s ∧
      window.highest.toNat ≤ s.frame.counter.toNat := by
  have hgrow {tr : History SK} {p : Side × Event SK} {k : ℕ} {s : SealedFrame SK}
      (hs : (sealedBy .a tr)[k]? = some s) : (sealedBy .a (tr++[p]))[k]? = some s := by
    rw [sealedBy_snoc,List.getElem?_append_left (List.getElem?_eq_some_iff.mp hs).1,hs]
  induction h generalizing window with
  | nil => simp [startWorld,Party.endpoint,StreamEndpoint.new,StreamEndpoint.withMaxConcurrent,
      ReplayGuard.new] at hl
  | renew messageType _ ih =>
    rw [Function.update_of_ne (by decide)] at hl
    exact ih hl
  | @own cuts next tr w ev e' hr hb hp ih =>
    rw [Function.update_of_ne (by decide)] at hl
    obtain ⟨k,s,hk,hs,hle⟩ := ih hl
    exact ⟨k,s,hk,hgrow hs,hle⟩
  | @other cuts next tr w ev e' hr hb hkey hp ih =>
    rw [Function.update_self] at hl
    rcases perform_guard hp with hsame | ⟨c,-,hk,-,hstep⟩
    · rw [hsame,hb] at hl
      obtain ⟨k,s,hk,hs,hle⟩ := ih hl
      exact ⟨k,s,hk,hgrow hs,hle⟩
    · rw [hb] at hstep
      rcases ReplayGuard.highest_step hstep hl with ⟨window',hl',-,hle'⟩ | ⟨hown,-⟩
      · obtain ⟨k,s,hk,hs,hle⟩ := ih hl'
        exact ⟨k,s,hk,hgrow hs,hle'.trans hle⟩
      · rw [hk,← hown] at hkey
        exact absurd rfl hkey
  | @deliver cuts next k tr w ev e' s resolveSenderPub _ _ _ hr hb hs hle hres hi hp ih =>
    rw [Function.update_self] at hl
    rcases perform_guard hp with hsame | ⟨c,-,-,hpres,hstep⟩
    · rw [hsame,hb] at hl
      obtain ⟨k',s',hk',hs',hle'⟩ := ih hl
      exact ⟨k',s',by omega,hgrow hs',hle'⟩
    · rw [hb] at hstep
      rcases ReplayGuard.highest_step hstep hl with ⟨window',hl',-,hle'⟩ | ⟨-,hle'⟩
      · obtain ⟨k',s',hk',hs',hle⟩ := ih hl'
        exact ⟨k',s',by omega,hgrow hs',hle'.trans hle⟩
      · -- the window starts or ends at the frame just delivered
        obtain ⟨inner,ha,hcounter⟩ := hr.delivered hP (List.mem_of_getElem? hs) hres
        obtain ⟨envelope,resolver,_,_,_,shape,inner',hi',ha',-,hc⟩ := hpres
        rw [hi] at hi'
        cases hi'
        rw [hb,ha] at ha'
        cases ha'
        rw [hc,hcounter] at hle'
        exact ⟨k,s,Nat.lt_succ_self k,hgrow hs,hle'⟩

end Restarted

variable (P)

/-- `b` is neither silenced nor confused: no counter of `a` is used twice, and whatever frame is
delivered next in order, fresh and unexpired, passes the anti-replay table of `b`. -/
structure Undisturbed (party : Side → Party SK) (next : ℕ) (tr : History SK) (w : World SK) : Prop where
  distinct : ((sealedBy .a tr).map fun s => s.frame.counter).Nodup
  passes : ∀ (k : ℕ) (s : SealedFrame SK) (resolveSenderPub : Bytes32 → UInt32 → Option Bytes48)
    (nowMs : UInt64) (order : HashOrder) (entropy : Except String Bytes32) (out : Outcome)
    (e' : StreamEndpoint SK), (sealedBy .a tr)[k]? = some s → next ≤ k →
    Resolves P (party .a) resolveSenderPub →
    ReplayGuard.fresh s.params.timestampMs nowMs = true →
    checkExpiry s.params.timestampMs s.params.expiresAt nowMs = .ok () →
    (Input.accept s.envelope resolveSenderPub nowMs order entropy).perform P (w .b) =
      some (out,e') →
    admits P order (w .b).identitySk s.envelope resolveSenderPub nowMs (w .b).guard = true ∧
    out ≠ .accepted (.ok (.dropped .replay))

variable {P}

/-- A restart is harmless on the runs in which every frame of `a` is sealed at a counter above
those of its discarded instances. -/
theorem restart_harmless (hP : P.Lawful) (h : Restarted P party cuts next tr w)
    (hk : CountersKept cuts tr) : Undisturbed P party next tr w := by
  have hinc := h.increasing hk
  refine ⟨?_,?_⟩
  · rw [List.nodup_iff_pairwise_ne,List.pairwise_map]
    refine hinc.imp fun {s t} hlt heq => ?_
    rw [heq] at hlt
    omega
  · intro k s resolveSenderPub nowMs order entropy out e' hs hnext hres hfresh hexp hp
    obtain ⟨me,hsame,hsound⟩ := h.sound s (List.mem_of_getElem? hs)
    obtain ⟨you,hyou,howns⟩ := h.owns .b
    have hknown : resolveSenderPub me.did me.epoch = some (P.publicKeyBytes me.identitySk) := by
      rw [hsame.did,hsame.epoch,hsame.identitySk]
      exact hres
    have hunseen : ¬ (w .b).guard.Seen me.key s.frame.counter := by
      rw [hsame.key]
      rintro ⟨window,hl,hseen⟩
      obtain ⟨k',s',hk',hs',hle⟩ := h.window_below hP hl
      have hlt : s'.frame.counter.toNat < s.frame.counter.toNat := by
        obtain ⟨hk₁,rfl⟩ := List.getElem?_eq_some_iff.mp hs'
        obtain ⟨hk₂,rfl⟩ := List.getElem?_eq_some_iff.mp hs
        exact List.pairwise_iff_getElem.mp hinc k' k hk₁ hk₂ (by omega)
      have hseen' := hseen.le
      omega
    have hadmits : admits P order (w .b).identitySk s.envelope resolveSenderPub nowMs
        (w .b).guard = true := by
      rw [howns.identitySk,hyou.identitySk]
      exact (hsound.admits_iff hP hknown).mpr ⟨hexp,hfresh,hunseen⟩
    refine ⟨hadmits,?_⟩
    rintro rfl
    obtain ⟨⟨res,u⟩,hacc,hout⟩ := Option.map_eq_some_iff.mp hp
    cases hout
    obtain ⟨g,hreplay⟩ := StreamEndpoint.accept_replay hacc
    obtain ⟨shape,inner,g',had⟩ := (admits_iff P).mp hadmits
    obtain ⟨cause,-,hno⟩ | ⟨shape',inner',g₁,-,hopen⟩ := openMessage_cases P order
      (w .b).identitySk s.envelope resolveSenderPub nowMs (w .b).guard
    · exact hno _ _ _ had
    · rw [hopen] at hreplay
      cases hd : decompressPayload P inner'.compression inner'.payload inner'.uncompressedLen with
      | error err =>
        rw [hd] at hreplay
        cases hreplay
        exact decompressPayload_ne_replay P _ _ _ hd
      | ok payload =>
        rw [hd] at hreplay
        cases hreplay

end

inductive Deed
  | renew (messageType : UInt32)
  | call (x : Side) (c : Bytes32) (r : Request) (nowMs expiresAt : UInt64)
    (entropy : Except String Bytes32)
  | deliver (k : ℕ) (nowMs : UInt64)

structure RestartState (SK : Type) where
  cuts : List ℕ
  next : ℕ
  history : History SK
  world : World SK

section
variable {SK : Type} (P : Primitives SK) (party : Side → Party SK) (order : HashOrder)

def RestartState.start : RestartState SK := ⟨[],0,[],startWorld P party⟩

def arrival (st : RestartState SK) (k : ℕ) (nowMs : UInt64) : Option Input :=
  (sealedBy .a st.history)[k]?.map fun s =>
    .accept s.envelope (knows P (party .a)) nowMs order (.ok s.params.correlationId)

def RestartState.record (st : RestartState SK) (x : Side) (i : Input) (next : ℕ) :
    Option (RestartState SK) :=
  (i.perform P (st.world x)).map fun p =>
    ⟨st.cuts,next,st.history++[(x,⟨st.world x,i,p.1⟩)],Function.update st.world x p.2⟩

def Deed.enact (st : RestartState SK) : Deed → Option (RestartState SK)
  | .renew messageType =>
    some ⟨st.history.length::st.cuts,st.next,st.history,
      Function.update st.world .a ((st.world .a).renewed messageType)⟩
  | .call x c r nowMs expiresAt entropy =>
    st.record P x (.call c r nowMs expiresAt entropy) st.next
  | .deliver k nowMs =>
    if st.next ≤ k then (arrival P party order st k nowMs).bind fun i => st.record P .b i (k+1)
    else none

def enactAll (st : RestartState SK) : List Deed → Option (RestartState SK)
  | [] => some st
  | d::ds => (d.enact P party order st).bind fun st' => enactAll st' ds

variable {P} {party} {order}

theorem resolves_knows (party : Party SK) : Resolves P party (knows P party) := if_pos ⟨rfl,rfl⟩

theorem Deed.enact_restarted {st st' : RestartState SK} {d : Deed}
    (hr : Restarted P party st.cuts st.next st.history st.world)
    (h : d.enact P party order st = some st') :
    Restarted P party st'.cuts st'.next st'.history st'.world := by
  cases d with
  | renew messageType =>
    cases h
    exact .renew messageType hr
  | call x c r nowMs expiresAt entropy =>
    obtain ⟨p,hp,he⟩ := Option.map_eq_some_iff.mp h
    cases he
    cases x with
    | a => exact hr.own rfl hp
    | b => exact hr.other rfl nofun hp
  | deliver k nowMs =>
    simp only [enact] at h
    split at h
    · rename_i hle
      obtain ⟨i,hi,hrec⟩ := Option.bind_eq_some_iff.mp h
      obtain ⟨s,hs,hs'⟩ := Option.map_eq_some_iff.mp hi
      obtain ⟨p,hp,he⟩ := Option.map_eq_some_iff.mp hrec
      cases hs'
      cases he
      exact hr.deliver rfl hs hle (resolves_knows _) rfl hp
    · cases h

theorem enactAll_restarted {ds : List Deed} {st st' : RestartState SK}
    (hr : Restarted P party st.cuts st.next st.history st.world)
    (h : enactAll P party order st ds = some st') :
    Restarted P party st'.cuts st'.next st'.history st'.world := by
  induction ds generalizing st with
  | nil =>
    cases h
    exact hr
  | cons d ds ih =>
    obtain ⟨st₁,h₁,h₂⟩ := Option.bind_eq_some_iff.mp h
    exact ih (Deed.enact_restarted hr h₁) h₂

variable (P) (party) (order)

theorem restarted_of_check (ds : List Deed) (check : RestartState SK → Bool)
    (h : (enactAll P party order (.start P party) ds).any check = true) :
    ∃ st, Restarted P party st.cuts st.next st.history st.world ∧ check st = true := by
  cases hx : enactAll P party order (.start P party) ds with
  | none =>
    rw [hx] at h
    cases h
  | some st =>
    rw [hx] at h
    exact ⟨st,enactAll_restarted .nil hx,h⟩

end

/-- Every run with restarts leaves `b` undisturbed. -/
def RestartsHarmless {SK : Type} (P : Primitives SK) (party : Side → Party SK) : Prop :=
  ∀ cuts next tr w, Restarted P party cuts next tr w → Undisturbed P party next tr w

/-- `a` opens stream 8 and `b` takes the OPEN; a restart later `a` opens stream 9. -/
def reopened : List Deed :=
  [.call .a (byte32 8) (.open 4) 1000 0 (.ok (byte32 8)),.deliver 0 1000,.renew 0x500,
    .call .a (byte32 9) (.open 4) 2000 0 (.ok (byte32 9))]

def Outcome.isReplay : Outcome → Bool
  | .accepted (.ok (.dropped cause)) => decide (cause = .replay)
  | _ => false

/-- The second frame of `a`, fresh and unexpired at 2000 ms, is dropped as a replay on arrival. -/
def silenced (order : HashOrder) (st : RestartState Bytes32) : Bool :=
  decide (st.next ≤ 1) && (sealedBy .a st.history)[1]?.any (fun s =>
    ReplayGuard.fresh s.params.timestampMs 2000 &&
    decide (checkExpiry s.params.timestampMs s.params.expiresAt 2000 = .ok ()) &&
    ((Input.accept s.envelope (knows .plain alice) 2000 order (.ok (byte32 9))).perform .plain
      (st.world .b)).any fun p => p.1.isReplay)

theorem renewed_counter_replayed : ¬ RestartsHarmless .plain aliceAndBob := by
  intro h
  obtain ⟨st,hr,hcheck⟩ := restarted_of_check .plain aliceAndBob default reopened
    (silenced default) (by decide +kernel)
  simp only [silenced,Bool.and_eq_true,decide_eq_true_eq,Option.any_eq_true] at hcheck
  obtain ⟨hnext,s,hs,⟨hfresh,hexp⟩,⟨out,e'⟩,hp,hout⟩ := hcheck
  have hpass := (h _ _ _ _ hr).passes 1 s _ 2000 _ _ out e' hs hnext (resolves_knows alice) hfresh
    hexp hp
  refine hpass.2 ?_
  match out,hout with
  | .accepted (.ok (.dropped cause)),hout =>
    have hcause : cause = .replay := of_decide_eq_true hout
    rw [hcause]

/-- The new endpoint spends a counter on a call that finds no entropy, and then opens stream 10. -/
def reopenedLater : List Deed :=
  [.call .a (byte32 8) (.open 4) 1000 0 (.ok (byte32 8)),.deliver 0 1000,.renew 0x500,
    .call .a (byte32 9) (.open 4) 2000 0 (.error "getrandom"),
    .call .a (byte32 10) (.open 4) 2000 0 (.ok (byte32 10))]

theorem raised_counter_undisturbed : ∃ tr w, Restarted .plain aliceAndBob [2] 1 tr w ∧
    (sealedBy .a (tr.take 2)).length = 1 ∧ (sealedBy .a tr).length = 2 ∧
    Undisturbed .plain aliceAndBob 1 tr w := by
  obtain ⟨st,hr,hcheck⟩ := restarted_of_check .plain aliceAndBob default reopenedLater
    (fun st => decide (st.cuts = [2] ∧ st.next = 1 ∧
      (sealedBy .a (st.history.take 2)).length = 1 ∧ (sealedBy .a st.history).length = 2 ∧
      CountersKept st.cuts st.history)) (by decide +kernel)
  obtain ⟨hcuts,hnext,hold,hall,hkept⟩ := of_decide_eq_true hcheck
  have hharmless := restart_harmless Primitives.plain_lawful hr hkept
  rw [hcuts,hnext] at hr
  rw [hnext] at hharmless
  exact ⟨st.history,st.world,hr,hold,hall,hharmless⟩

end DigMessage
