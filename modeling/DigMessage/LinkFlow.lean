import DigMessage.LinkSchedule
import DigMessage.StreamFlow

/-! Flow control between joined endpoints: sequence numbers and credit are conserved, counting
what is on its way, and nothing that a side had to say on its stream is punished. -/
namespace DigMessage
open FixedWidth

def Event.presentedKind? {SK : Type} (ev : Event SK) : Option StreamFrame :=
  ev.presented?.bind fun envelope => envelope.stream.bind fun hdr => StreamFrame.fromU8 hdr.frame

section
variable {SK : Type} {P : Primitives SK} {party : Side → Party SK} {tr : History SK} {w : World SK}
  {ch : Channels SK}

/-- Each stream is opened once at most, no payload is past the decompression cap, and no side
grants more windows than a counter of credit holds. -/
structure Bounded (tr : History SK) : Prop where
  once : ∀ c, timesOpened c tr ≤ 1
  small : ¬ Oversize tr
  credit : ∀ c y, windowsSealed y c tr < 2^64

theorem Bounded.of_snoc {p : Side × Event SK} (h : Bounded (tr++[p])) : Bounded tr where
  once c := by
    have hc := h.once c
    rw [show p = (p.1,p.2) from rfl,timesOpened_snoc] at hc
    omega
  small hbig := h.small (hbig.snoc p)
  credit c y := by
    have hc := h.credit c y
    rw [show p = (p.1,p.2) from rfl,windowsSealed_snoc] at hc
    omega

theorem Linked.flowing (hP : P.Lawful) (h : Linked P party tr w ch) (hb : Bounded tr) (c : Bytes32) :
    ∃ ls, (streamOf c w ch).Flowing ls := by
  obtain ⟨ls,hrun,htold⟩ := h.projects hP c
  refine ⟨ls,hrun.flowing ?_ (fun hl => hb.small (htold.lost hl)) fun y => ?_⟩
  · rw [htold.opened]
    exact hb.once c
  · rw [htold.granted]
    exact hb.credit c y

/-- The sequence numbers and the credit from `x` to its peer on stream `c`, in balance with the
frames under way. The initial window of an initiator comes with the OPEN_ACK. -/
structure Balanced (c : Bytes32) (w : World SK) (ch : Channels SK) (x : Side) : Prop where
  seq : ∀ s t, (w x).session c = some s → (w x.other).session c = some t →
    s.sendSeq.toNat = t.recvSeq.toNat+tally .data (framesOn c (ch x))
  credit : ∀ s t, (w x).session c = some s → (w x.other).session c = some t →
    s.role = .responder ∨ s.handshake = .established →
    s.sendCredit.toNat+tally .data (framesOn c (ch x))+credits (framesOn c (ch x.other)) =
      t.recvWindowRemaining.toNat

theorem Linked.balanced (hP : P.Lawful) (h : Linked P party tr w ch) (hb : Bounded tr) (c : Bytes32)
    (x : Side) : Balanced c w ch x := by
  obtain ⟨ls,hflow⟩ := h.flowing hP hb c
  have hx := hflow x
  constructor
  · intro s t hs ht
    obtain ⟨r,hr,hm⟩ := hx.outward.ready t ht
    have hseq := (hm s hs).seq
    have hcount := (along_counts hr).1
    rw [← hseq,hcount]
    rfl
  · intro s t hs ht hreached
    obtain ⟨r,hr,hm⟩ := hx.outward.ready t ht
    obtain ⟨r',hr',-⟩ := hx.inward.ready s hs
    have hwindow := (hm s hs).window
    have hcount := (along_counts hr).2
    have hback : windows (framesOn c (ch x.other)) = credits (framesOn c (ch x.other)) := by
      refine along_credits hr' (hreached.imp_right fun hh => ?_)
      simp [StreamSession.receiver,hh]
    have hsum : t.recvWindowRemaining.toNat = r.window+tally .data (framesOn c (ch x)) := hcount
    have hw : r.window = s.sendCredit.toNat+windows (framesOn c (ch x.other)) := hwindow
    rw [hback] at hw
    omega

theorem Linked.unpunished (hP : P.Lawful) (h : Linked P party tr w ch) (hb : Bounded tr) :
    ∀ p ∈ tr, ∀ reply cause, p.2.outcome = .accepted (.ok (.reset reply cause)) →
      ∀ k, p.2.presentedKind? = some k → k ≠ .data ∧ k ≠ .credit ∧ k ≠ .openAck := by
  induction h with
  | nil => exact fun p hp => absurd hp List.not_mem_nil
  | @call tr w ch x ev e' c r nowMs expiresAt entropy hr hbefore hi hp hseals ih =>
    intro p hmem reply cause hout
    rw [List.mem_append,List.mem_singleton] at hmem
    rcases hmem with hmem | rfl
    · exact ih hb.of_snoc p hmem reply cause hout
    · rw [hi] at hp
      obtain ⟨res,hcalled,-⟩ := Input.perform_call P hp
      simp only at hout
      rw [hcalled] at hout
      cases hout
  | @deliver tr w ch y ev e' s rest hr hd hp hseals ih =>
    intro p hmem reply cause hout k hk
    rw [List.mem_append,List.mem_singleton] at hmem
    rcases hmem with hmem | rfl
    · exact ih hb.of_snoc p hmem reply cause hout k hk
    · have hfront := hb.of_snoc
      have hin : s ∈ ch y.other := by rw [hd.oldest]; exact List.mem_cons_self
      have hsound := hr.sound _ s hin
      obtain ⟨_,_,_,_,-,-,-,hi⟩ := hd.presented
      have hkind : k = s.frame.kind := by
        simp only [Event.presentedKind?,Event.presented?,hi,Option.bind_some,hsound.stream,hsound.kind,
          Option.some.injEq] at hk
        exact hk.symm
      obtain ⟨cause',hdropped,-,-,-⟩ | ⟨reaction,slot,res,hres,ht⟩ := hr.arrives hP hd hp
      · simp only at hout
        rw [hdropped] at hout
        cases hout
      · simp only at hout
        rw [hout] at hres
        cases hres
        obtain ⟨ls,hflow⟩ := hr.flowing hP hfront s.params.correlationId
        have hy := hflow y
        have hflight : (streamOf s.params.correlationId w ch).flight y.other =
            s.frame::framesOn s.params.correlationId rest := by
          change framesOn _ (ch y.other) = _
          rw [hd.oldest,framesOn_cons,if_pos rfl]
        rw [hflight] at hy
        have hrecv := ht.receives
        rw [hd.before] at hrecv
        have hreset : ∃ cause', reaction = .reset cause' := by
          have hrep := ht.reported
          cases reaction with
          | event e => cases hrep
          | dropped cause' => cases hrep
          | reset cause' => exact ⟨cause',rfl⟩
        obtain ⟨cause',rfl⟩ := hreset
        have hnot := fun hk => hy.unpunished hrecv hk
        rw [hkind]
        exact ⟨fun h => hnot (Or.inl h),fun h => hnot (Or.inr (Or.inl h)),
          fun h => hnot (Or.inr (Or.inr h))⟩

/-- Between joined endpoints every stream is in balance both ways, and its DATA, CREDIT and
OPEN_ACK are never punished. -/
theorem flow_conserved (hP : P.Lawful) (h : Linked P party tr w ch) (hb : Bounded tr) :
    (∀ c x, Balanced c w ch x) ∧
    ∀ p ∈ tr, ∀ reply cause, p.2.outcome = .accepted (.ok (.reset reply cause)) →
      ∀ k, p.2.presentedKind? = some k → k ≠ .data ∧ k ≠ .credit ∧ k ≠ .openAck :=
  ⟨fun c x => h.balanced hP hb c x,h.unpunished hP hb⟩

def withinBounds (tr : History SK) : Bool :=
  decide ((tr.countP fun p => p.2.opensAny) ≤ 1) && [Side.a,Side.b].all fun x =>
    (sealedBy x tr).all (fun s => decide (s.frame.payload.length ≤ maxDecompressedBytes)) &&
    decide (((sealedBy x tr).map fun s => s.frame.granted).sum < 2^64)

theorem bounded_of_check (h : withinBounds tr = true) : Bounded tr := by
  simp only [withinBounds,Bool.and_eq_true,decide_eq_true_eq,List.all_eq_true] at h
  obtain ⟨hopen,hsides⟩ := h
  have hside : ∀ x : Side, x ∈ [Side.a,Side.b] := by
    intro x
    cases x <;> simp
  constructor
  · exact fun c => (timesOpened_le c tr).trans hopen
  · rintro ⟨x,s,hs,hbig⟩
    exact absurd ((hsides x (hside x)).1 s hs) (by omega)
  · intro c y
    refine lt_of_le_of_lt (List.sum_le_sum fun s _ => ?_) (hsides y (hside y)).2
    unfold SealedFrame.grantedOn
    split
    · exact le_rfl
    · exact Nat.zero_le _

end

/-- Two frames of `a` and a grant of `b` are under way, and the account holds. -/
theorem crossing_frames_balanced : ∃ (st : LinkState Bytes32) (s t : StreamSession),
    Linked .plain aliceAndBob st.history st.world st.channels ∧
    (st.world .a).session (byte32 8) = some s ∧ (st.world .b).session (byte32 8) = some t ∧
    s.sendSeq.toNat = t.recvSeq.toNat+2 ∧ s.sendCredit.toNat+2+3 = t.recvWindowRemaining.toNat := by
  obtain ⟨st,hr,hcheck⟩ := linked_of_check .plain aliceAndBob default
    (joining (byte32 8) 4 1000++([.call .a (byte32 8) (.sendData [1]) 1000 0,
      .call .a (byte32 8) (.sendData [2]) 1000 0,.call .b (byte32 8) (.grantCredit 3) 1000 0] : List Move))
    (fun st => withinBounds st.history &&
      decide (tally .data (framesOn (byte32 8) (st.channels .a)) = 2 ∧
        credits (framesOn (byte32 8) (st.channels .b)) = 3) &&
      ((st.world .a).session (byte32 8)).any (fun s : StreamSession =>
        decide (s.handshake = .established)) &&
      ((st.world .b).session (byte32 8)).isSome) (by decide +kernel)
  simp only [Bool.and_eq_true,decide_eq_true_eq,Option.any_eq_true,Option.isSome_iff_exists] at hcheck
  obtain ⟨⟨⟨hbounds,htally,hcredits⟩,s,hs,hh⟩,t,ht⟩ := hcheck
  have hbalanced := (flow_conserved Primitives.plain_lawful hr (bounded_of_check hbounds)).1
    (byte32 8) .a
  have hseq := hbalanced.seq s t hs ht
  have hcredit := hbalanced.credit s t hs ht (Or.inr hh)
  rw [htally] at hseq hcredit
  change _+2+credits (framesOn (byte32 8) (st.channels .b)) = _ at hcredit
  rw [hcredits] at hcredit
  exact ⟨st,s,t,hr,hs,ht,hseq,hcredit⟩

end DigMessage
