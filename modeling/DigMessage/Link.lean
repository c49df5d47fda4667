import DigMessage.EndpointRestart
import DigMessage.RelayBackpressure
import DigMessage.StreamOrder

/-! Two endpoints joined by a channel in each direction that loses nothing and keeps the order
of frames. A frame arrives fresh and unexpired, so only its stream decides what becomes of it. -/
namespace DigMessage
open FixedWidth

/-- The frames on their way from either side, oldest first. -/
abbrev Channels (SK : Type) := Side → List (SealedFrame SK)

section
variable {SK : Type} {P : Primitives SK}

/-- Every seal of a call succeeds: an error came before a counter was spent. -/
structure Event.Seals (ev : Event SK) (e' : StreamEndpoint SK) : Prop where
  called : ∀ err, ev.outcome = .called (.error err) → e'.sendCounter = ev.before.sendCounter
  accepted : ∀ err, ev.outcome ≠ .accepted (.error err)

variable (P)

/-- The event presents to `y` the oldest frame on the channel to it, under a resolver that knows
the peer, fresh and unexpired. -/
structure Delivers (party : Side → Party SK) (w : World SK) (ch : Channels SK) (y : Side)
    (s : SealedFrame SK) (rest : List (SealedFrame SK)) (ev : Event SK) : Prop where
  before : ev.before = w y
  oldest : ch y.other = s::rest
  presented : ∃ resolveSenderPub nowMs order entropy, Resolves P (party y.other) resolveSenderPub ∧
    ReplayGuard.fresh s.params.timestampMs nowMs = true ∧
    checkExpiry s.params.timestampMs s.params.expiresAt nowMs = .ok () ∧
    ev.input = .accept s.envelope resolveSenderPub nowMs order entropy

/-- A run of both sides: calls on either, in any order with deliveries to either. What a call
or an answer seals goes on the channel. -/
inductive Linked (party : Side → Party SK) : History SK → World SK → Channels SK → Prop
  | nil : Linked party [] (startWorld P party) fun _ => []
  | call {tr : History SK} {w : World SK} {ch : Channels SK} {x : Side} {ev : Event SK}
      {e' : StreamEndpoint SK} {c : Bytes32} {r : Request} {nowMs expiresAt : UInt64}
      {entropy : Except String Bytes32} : Linked party tr w ch → ev.before = w x →
      ev.input = .call c r nowMs expiresAt entropy →
      ev.input.perform P ev.before = some (ev.outcome,e') → ev.Seals e' →
      Linked party (tr++[(x,ev)]) (Function.update w x e')
        (Function.update ch x (ch x++ev.sealed?.toList))
  | deliver {tr : History SK} {w : World SK} {ch : Channels SK} {y : Side} {ev : Event SK}
      {e' : StreamEndpoint SK} {s : SealedFrame SK} {rest : List (SealedFrame SK)} :
      Linked party tr w ch → Delivers P party w ch y s rest ev →
      ev.input.perform P ev.before = some (ev.outcome,e') → ev.Seals e' →
      Linked party (tr++[(y,ev)]) (Function.update w y e')
        (Function.update (Function.update ch y.other rest) y (ch y++ev.sealed?.toList))

variable {P}

theorem Event.sealed_payload {ev : Event SK} {s : SealedFrame SK} (hs : ev.sealed? = some s)
    (hk : s.frame.kind ≠ .data) : s.frame.payload = [] := by
  unfold Event.sealed? at hs
  split at hs
  · rename_i r _ _ _ _ _ _
    cases hs
    cases r with
    | sendData payload => exact absurd rfl hk
    | «open» w => rfl
    | openAck w => rfl
    | grantCredit n => rfl
    | close => rfl
    | reset => rfl
  · cases hs
    rfl
  · cases hs

theorem Party.owns_update {party : Side → Party SK} {w : World SK} {y : Side} {ev : Event SK}
    {e' : StreamEndpoint SK} (h : ∀ x, (party x).Owns P (party x.other) (w x)) (hb : ev.before = w y)
    (hp : ev.input.perform P ev.before = some (ev.outcome,e')) (x : Side) :
    (party x).Owns P (party x.other) (Function.update w y e' x) := by
  by_cases hx : x = y
  · subst hx
    rw [Function.update_self]
    exact Party.Owns.step (hb ▸ h x) hp
  · rw [Function.update_of_ne hx]
    exact h x

def counters (e : StreamEndpoint SK) (frames : List (SealedFrame SK)) : List ℕ :=
  frames.map (fun s => s.frame.counter.toNat)++[e.sendCounter.toNat]

/-- The receiver has seen nothing of what the sender has yet to deliver. -/
structure InOrder (key : SenderKey) (sender receiver : StreamEndpoint SK)
    (frames : List (SealedFrame SK)) : Prop where
  increasing : (counters sender frames).Pairwise (· < ·)
  above : ∀ window, receiver.guard.senders.lookup key = some window →
    ∀ n ∈ counters sender frames, window.highest.toNat < n

namespace InOrder
variable {key : SenderKey} {sender receiver receiver' : StreamEndpoint SK} {s : SealedFrame SK}
  {frames rest : List (SealedFrame SK)} {ev : Event SK} {e' : StreamEndpoint SK}

theorem guard_congr (h : InOrder key sender receiver frames)
    (hg : receiver'.guard = receiver.guard) : InOrder key sender receiver' frames :=
  ⟨h.increasing,by rw [hg]; exact h.above⟩

theorem advance (h : InOrder key ev.before receiver frames)
    (hp : ev.input.perform P ev.before = some (ev.outcome,e')) :
    InOrder key e' receiver (frames++ev.sealed?.toList) := by
  obtain ⟨hle,hsealed⟩ := perform_counter hp
  have hinc := h.increasing
  have habove := h.above
  simp only [counters,List.pairwise_append,List.mem_append,List.mem_singleton] at hinc habove
  obtain ⟨hfront,-,hlast⟩ := hinc
  cases hs : ev.sealed? with
  | none =>
    constructor
    · simp only [counters,Option.toList_none,List.append_nil,List.pairwise_append,List.mem_singleton]
      refine ⟨hfront,List.pairwise_singleton _ _,?_⟩
      rintro n hn _ rfl
      exact (hlast n hn _ rfl).trans_le hle
    · intro window hl n hn
      simp only [counters,Option.toList_none,List.append_nil,List.mem_append,List.mem_singleton] at hn
      rcases hn with hn | rfl
      · exact habove window hl n (Or.inl hn)
      · exact (habove window hl _ (Or.inr rfl)).trans_le hle
  | some s =>
    obtain ⟨hc,hlt⟩ := hsealed s hs
    have hmap : counters e' (frames++[s]) = counters ev.before frames++[e'.sendCounter.toNat] := by
      simp [counters,hc]
    constructor
    · rw [Option.toList_some,hmap,List.pairwise_append]
      refine ⟨h.increasing,List.pairwise_singleton _ _,?_⟩
      intro n hn m hm
      rw [List.mem_singleton.mp hm]
      rw [counters,List.mem_append,List.mem_singleton] at hn
      rcases hn with hn | rfl
      · exact (hlast n hn _ rfl).trans hlt
      · exact hlt
    · intro window hl n hn
      rw [Option.toList_some,hmap,List.mem_append,List.mem_singleton] at hn
      rcases hn with hn | rfl
      · exact h.above window hl n hn
      · exact (habove window hl _ (Or.inr rfl)).trans hlt

theorem take (h : InOrder key sender ev.before (s::rest)) {c : Check}
    (hstep : c.Step ev.before.guard true e'.guard) (hc : c.counter = s.frame.counter) :
    InOrder key sender e' rest := by
  have hinc := List.pairwise_cons.mp h.increasing
  refine ⟨hinc.2,fun window hl n hn => ?_⟩
  rcases ReplayGuard.highest_step hstep hl with ⟨window',hl',-,hle⟩ | ⟨-,hle⟩
  · exact hle.trans_lt (h.above window' hl' n (List.mem_cons_of_mem _ hn))
  · rw [hc] at hle
    exact hle.trans_lt (hinc.1 n hn)

theorem unseen (h : InOrder key sender receiver (s::rest)) :
    ¬ receiver.guard.Seen key s.frame.counter := by
  rintro ⟨window,hl,hseen⟩
  exact absurd hseen.le (h.above window hl _ List.mem_cons_self).not_ge

end InOrder

namespace Linked
variable {party : Side → Party SK} {tr : History SK} {w : World SK} {ch : Channels SK}

theorem owns (h : Linked P party tr w ch) : ∀ x, (party x).Owns P (party x.other) (w x) := by
  induction h with
  | nil => exact fun x => Party.owns_endpoint _ _
  | call _ hb _ hp _ ih => exact Party.owns_update ih hb hp
  | deliver _ hd hp _ ih => exact Party.owns_update ih hd.before hp

theorem forall_channel {Q : Side → SealedFrame SK → Prop}
    (hQ : ∀ (x : Side) (e' : StreamEndpoint SK) (ev : Event SK) (s : SealedFrame SK),
      (party x).Owns P (party x.other) ev.before →
      ev.input.perform P ev.before = some (ev.outcome,e') → ev.sealed? = some s → Q x s)
    (h : Linked P party tr w ch) : ∀ x, ∀ s ∈ ch x, Q x s := by
  induction h with
  | nil => exact fun x s hs => absurd hs List.not_mem_nil
  | @call tr w ch x ev e' c r nowMs expiresAt entropy hr hb hi hp hseals ih =>
    intro z s hs
    by_cases hz : z = x
    · subst hz
      rw [Function.update_self,List.mem_append,Option.mem_toList] at hs
      exact hs.elim (ih z s) (hQ z e' ev s (hb ▸ hr.owns z) hp)
    · rw [Function.update_of_ne hz] at hs
      exact ih z s hs
  | @deliver tr w ch y ev e' s' rest hr hd hp hseals ih =>
    intro z s hs
    rcases Side.eq_or_other z y with rfl | rfl
    · rw [Function.update_self,List.mem_append,Option.mem_toList] at hs
      exact hs.elim (ih z s) (hQ z e' ev s (hd.before ▸ hr.owns z) hp)
    · rw [Function.update_of_ne (Side.other_ne y),Function.update_self] at hs
      refine ih _ s ?_
      rw [hd.oldest]
      exact List.mem_cons_of_mem _ hs

theorem sound (h : Linked P party tr w ch) :
    ∀ x, ∀ s ∈ ch x, s.Sound P (party x) (party x.other) :=
  h.forall_channel fun _ _ _ _ ho hp hs => sealed_sound ho hp hs

theorem plain (h : Linked P party tr w ch) :
    ∀ x, ∀ s ∈ ch x, s.frame.kind ≠ .data → s.frame.payload = [] :=
  h.forall_channel fun _ _ _ _ _ _ hs => Event.sealed_payload hs

theorem channel_sealed (h : Linked P party tr w ch) : ∀ x, ∀ s ∈ ch x, s ∈ sealedBy x tr := by
  induction h with
  | nil => exact fun x s hs => absurd hs List.not_mem_nil
  | @call tr w ch x ev e' c r nowMs expiresAt entropy hr hb hi hp hseals ih =>
    intro z s hs
    rw [sealedBy_snoc,List.mem_append]
    by_cases hz : z = x
    · subst hz
      rw [Function.update_self,List.mem_append] at hs
      exact hs.imp (ih z s) (by simp)
    · rw [Function.update_of_ne hz] at hs
      exact Or.inl (ih z s hs)
  | @deliver tr w ch y ev e' s' rest hr hd hp hseals ih =>
    intro z s hs
    rw [sealedBy_snoc,List.mem_append]
    rcases Side.eq_or_other z y with rfl | rfl
    · rw [Function.update_self,List.mem_append] at hs
      exact hs.imp (ih z s) (by simp)
    · rw [Function.update_of_ne (Side.other_ne y),Function.update_self] at hs
      refine Or.inl (ih _ s ?_)
      rw [hd.oldest]
      exact List.mem_cons_of_mem _ hs

/-- At its receiver a delivered frame opens to what was sealed. -/
theorem authentic (hP : P.Lawful) (h : Linked P party tr w ch) {y : Side} {s : SealedFrame SK}
    {resolveSenderPub : Bytes32 → UInt32 → Option Bytes48} (hs : s ∈ ch y.other)
    (hres : Resolves P (party y.other) resolveSenderPub) :
    ∃ inner, authenticate P (w y).identitySk s.envelope resolveSenderPub = .ok (.streamFrame,inner) ∧
      s.Yields P .streamFrame inner := by
  have hsound := h.sound _ s hs
  rw [Side.other_other] at hsound
  rw [(h.owns y).identitySk]
  exact hsound.authenticates hP hres

theorem inOrder (hP : P.Lawful) (h : Linked P party tr w ch) :
    ∀ x, InOrder (party x).key (w x) (w x.other) (ch x) := by
  induction h with
  | nil =>
    intro x
    constructor
    · exact List.pairwise_singleton _ _
    · intro window hl
      simp [startWorld,Party.endpoint,StreamEndpoint.new,StreamEndpoint.withMaxConcurrent,
        ReplayGuard.new] at hl
  | @call tr w ch x ev e' c r nowMs expiresAt entropy hr hb hi hp hseals ih =>
    intro z
    rcases Side.eq_or_other z x with rfl | rfl
    · rw [Function.update_self,Function.update_self,Function.update_of_ne (Side.other_ne z)]
      exact (hb ▸ ih z).advance hp
    · have hguard : e'.guard = (w x).guard := by
        rcases perform_guard hp with hsame | ⟨_,-,hkey,-,-⟩
        · rw [hsame,hb]
        · simp [Event.key?,hi] at hkey
      rw [Side.other_other,Function.update_self,Function.update_of_ne (Side.other_ne x),
        Function.update_of_ne (Side.other_ne x)]
      have hx := ih x.other
      rw [Side.other_other] at hx
      exact hx.guard_congr hguard
  | @deliver tr w ch y ev e' s rest hr hd hp hseals ih =>
    intro z
    obtain ⟨hb,hch,_,_,_,_,hres,-,-,hi⟩ := hd
    rcases Side.eq_or_other z y with rfl | rfl
    · rw [Function.update_self,Function.update_self,Function.update_of_ne (Side.other_ne z)]
      exact (hb ▸ ih z).advance hp
    · rw [Side.other_other,Function.update_self,Function.update_of_ne (Side.other_ne y),
        Function.update_of_ne (Side.other_ne y),Function.update_self]
      have hy := ih y.other
      rw [Side.other_other,hch,← hb] at hy
      rcases perform_guard hp with hsame | ⟨c,-,-,hpres,hstep⟩
      · exact ⟨(List.pairwise_cons.mp hy.increasing).2,fun window hl n hn =>
          hy.above window (hsame ▸ hl) n (List.mem_cons_of_mem _ hn)⟩
      · refine hy.take hstep ?_
        obtain ⟨envelope,resolver,_,_,_,shape,inner,hi',ha,-,hc⟩ := hpres
        rw [hi] at hi'
        cases hi'
        have hmem : s ∈ ch y.other := by rw [hch]; exact List.mem_cons_self
        obtain ⟨inner',ha',hyields⟩ := hr.authentic hP hmem hres
        rw [← hb,ha] at ha'
        cases ha'
        rw [hc]
        exact hyields.counter (hr.sound _ s hmem)

/-- A delivered frame reaches the slot of its stream, or is DATA past the decompression cap
and dropped. -/
theorem arrives (hP : P.Lawful) (h : Linked P party tr w ch) {y : Side}
    {ev : Event SK} {e' : StreamEndpoint SK} {s : SealedFrame SK} {rest : List (SealedFrame SK)}
    (hd : Delivers P party w ch y s rest ev)
    (hp : ev.input.perform P ev.before = some (ev.outcome,e')) :
    (∃ cause, ev.outcome = .accepted (.ok (.dropped cause)) ∧ e'.sessions = ev.before.sessions ∧
      s.frame.kind = .data ∧ maxDecompressedBytes < s.frame.payload.length) ∨
    ∃ reaction slot res, ev.outcome = .accepted res ∧
      Taken (party y.other) s ev.before reaction slot res e' := by
  obtain ⟨hb,hch,resolveSenderPub,nowMs,order,entropy,hres,hfresh,hexp,hi⟩ := hd
  have hmem : s ∈ ch y.other := by rw [hch]; exact List.mem_cons_self
  have hsound := h.sound _ s hmem
  rw [Side.other_other] at hsound
  have hplain := h.plain _ s hmem
  have howns := hb ▸ h.owns y
  rw [hi] at hp
  obtain ⟨res,hout,hacc⟩ := Input.perform_accept P hp
  have hyields : ∀ shape inner, authenticate P ev.before.identitySk s.envelope resolveSenderPub =
      .ok (shape,inner) → s.Yields P shape inner := by
    intro shape inner ha
    obtain ⟨inner',ha',hy⟩ := h.authentic hP hmem hres
    rw [← hb,ha] at ha'
    cases ha'
    exact hy
  have hadmits : admits P order ev.before.identitySk s.envelope resolveSenderPub nowMs
      ev.before.guard = true := by
    have horder := h.inOrder hP y.other
    rw [Side.other_other,hch,← hb] at horder
    rw [howns.identitySk]
    exact (hsound.admits_iff hP hres).mpr ⟨hexp,hfresh,horder.unseen⟩
  obtain ⟨cause,g,-,rfl,rfl,hbig⟩ | ⟨-,-,reaction,slot,ht⟩ :=
    accepts_genuine hP.zstd howns.peerDid hsound hyields hacc
  · have hlong := hbig hadmits
    refine Or.inl ⟨cause,hout,rfl,?_,hlong⟩
    by_contra hk
    rw [hplain hk] at hlong
    exact absurd hlong (Nat.not_lt_zero _)
  · exact Or.inr ⟨reaction,slot,res,hout,ht⟩

end Linked
end
end DigMessage
