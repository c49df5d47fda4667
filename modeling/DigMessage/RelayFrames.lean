import DigMessage.RelayBackpressure

/-! The frames behind the reports. What a side has reported of a stream came in the first DATA
frames that its peer sealed on it, each presented to it; a frame never presented holds up all after
it. -/
namespace DigMessage
open FixedWidth

section
variable {SK : Type}

/-- The DATA frames a side has sealed on a stream, in order. -/
def dataFrames (x : Side) (c : Bytes32) (tr : History SK) : List (SealedFrame SK) :=
  (sealedBy x tr).filter (SealedFrame.isData c)

theorem mem_sealedBy_of_dataFrames {x : Side} {c : Bytes32} {tr : History SK} {s : SealedFrame SK}
    (h : s ∈ dataFrames x c tr) : s ∈ sealedBy x tr := List.mem_of_mem_filter h

def Event.dataFrame? (c : Bytes32) (ev : Event SK) : Option (SealedFrame SK) :=
  ev.sealed?.filter (SealedFrame.isData c)

/-- The envelope of a frame was presented to a side. -/
def Presented (y : Side) (s : SealedFrame SK) (tr : History SK) : Prop :=
  ∃ ev, (y,ev) ∈ tr ∧ ev.presented? = some s.envelope

theorem Presented.snoc {y x : Side} {s : SealedFrame SK} {tr : History SK} {ev : Event SK}
    (h : Presented y s tr) : Presented y s (tr++[(x,ev)]) := by
  obtain ⟨ev',hmem,hev⟩ := h
  exact ⟨ev',List.mem_append_left _ hmem,hev⟩

theorem dataFrames_snoc (x y : Side) (c : Bytes32) (tr : History SK) (ev : Event SK) :
    dataFrames x c (tr++[(y,ev)]) =
      dataFrames x c tr++(if y = x then ev.dataFrame? c else none).toList := by
  rw [dataFrames,sealedBy_snoc,List.filter_append]
  congr 1
  by_cases hy : y = x
  · simp only [hy,if_true,Event.dataFrame?]
    cases ev.sealed? with
    | none => rfl
    | some s => cases hs : s.isData c <;> simp [Option.filter,hs]
  · simp [hy]

theorem Event.dataFrame?_eq_some {c : Bytes32} {ev : Event SK} {s : SealedFrame SK}
    (h : ev.dataFrame? c = some s) : ev.dataSent? c = some s.frame.payload ∧
      s.frame.header.seq = nextSeq ev.before c := by
  obtain ⟨hs,hdata⟩ := Option.filter_eq_some_iff.mp h
  simp only [SealedFrame.isData,decide_eq_true_eq] at hdata
  unfold Event.sealed? at hs
  split at hs
  · rename_i d r nowMs expiresAt entropy env hi hout
    cases hs
    obtain ⟨hd,hk⟩ := hdata
    have hdc : d = c := hd
    subst hdc
    cases r with
    | sendData payload => simp [Event.dataSent?,hi,hout,sealedFrame,Request.payload,Request.header,header]
    | «open» w => cases hk
    | openAck w => cases hk
    | grantCredit n => cases hk
    | close => cases hk
    | reset => cases hk
  · cases hs
    cases hdata.2
  · cases hs

theorem Event.dataFrame?_eq_none {c : Bytes32} {ev : Event SK} (h : ev.dataFrame? c = none) :
    ev.dataSent? c = none := by
  unfold Event.dataSent?
  split
  · rename_i d payload nowMs expiresAt entropy env hi hout
    refine if_neg fun hd => ?_
    have hs : ev.sealed? = some (sealedFrame ev.before d .data (header .data (nextSeq ev.before d) 0)
        payload nowMs expiresAt env) := by
      simp [Event.sealed?,hi,hout,Request.kind,Request.header,Request.payload]
    have hdata := Option.filter_eq_none_iff.mp h _ hs
    simp [SealedFrame.isData,sealedFrame,StreamEndpoint.frameParams,hd] at hdata
  · rfl

theorem Event.dataReported?_eq_some {c : Bytes32} {ev : Event SK} {p : List UInt8}
    (h : ev.dataReported? c = some p) : ∃ envelope resolveSenderPub nowMs order entropy,
      ev.input = .accept envelope resolveSenderPub nowMs order entropy ∧
      ev.outcome = .accepted (.ok (.event (.data p))) ∧ envelope.correlationId = c := by
  unfold Event.dataReported? at h
  split at h
  · rename_i hi hout
    split at h
    · cases h
      exact ⟨_,_,_,_,_,hi,hout,‹_›⟩
    · cases h
  · cases h

theorem StreamPair.Step.data_seq {σ σ' : StreamPair} {l : Label} {x : Side} {d : ℕ × List UInt8}
    (h : StreamPair.Step σ l σ') (hl : Label.dataSent x l = some d) :
    d.1 = (((σ.slot x).map StreamSession.sendSeq).getD 0).toNat := by
  cases h with
  | @sent y r f after failed hsend hkind hpayload =>
    cases r with
    | sendData payload =>
      simp only [Label.dataSent] at hl
      split at hl
      · rename_i hy
        subst hy
        cases hl
        generalize σ.slot y = slot,f.header = hdr at hsend ⊢
        cases hsend with
        | live hs => rfl
      · cases hl
    | «open» w => cases hl
    | openAck w => cases hl
    | grantCredit n => cases hl
    | close => cases hl
    | reset => cases hl
  | failed hsend => cases hl
  | received hf hrest hrecv hreply => cases hl
  | lost hrest => cases hl

variable {P : Primitives SK} {party : Side → Party SK} {tr : History SK} {w : World SK} {c : Bytes32}

theorem CleanRun.last {x : Side} {ev : Event SK} {e' : StreamEndpoint SK}
    (h : CleanRun P c (tr++[(x,ev)])) (hp : ev.input.perform P ev.before = some (ev.outcome,e')) :
    Clean P c tr x ev e' := by
  generalize htr : tr++[(x,ev)] = tr' at h
  cases h with
  | nil => simp at htr
  | snoc hc hlast =>
    obtain ⟨rfl,hlast'⟩ := List.append_inj' htr rfl
    cases hlast'
    exact hlast e' hp

theorem Relayed.projects_frames (hz : P.ZstdLossless) (hd : (party .a).did ≠ (party .b).did)
    (hr : Relayed P (startWorld P party) tr w) : ∃ ls σ,
      StreamPair.Run ⟨fun _ => none,fun _ => []⟩ ls σ ∧ Projects party c tr w σ ∧ Observed P c tr ls ∧
      ∀ x, dataSent x ls =
        (dataFrames x c tr).map fun s => (s.frame.header.seq.toNat,s.frame.payload) := by
  induction hr with
  | nil => exact ⟨[],_,.nil,.nil c,.nil c,fun x => rfl⟩
  | @snoc tr w x ev e' hr hb hp hg ih =>
    obtain ⟨ls,σ,hrun,hproj,hobs,hsent⟩ := ih
    have hclean := ((hr.snoc hb hp hg).clean hd c).last hp
    obtain ⟨hproj',hq⟩ | ⟨l,σ',hstep,hproj',hm⟩ := hproj.step hz hr hb hp hclean
    · refine ⟨ls,σ,hrun,hproj',hobs.quiet hq,fun z => ?_⟩
      have hno : ev.dataFrame? c = none := by
        cases hf : ev.dataFrame? c with
        | none => rfl
        | some s =>
          have hsome := (Event.dataFrame?_eq_some hf).1
          rw [hq.sent] at hsome
          cases hsome
      rw [dataFrames_snoc,hno,hsent z]
      simp
    · refine ⟨ls++[l],σ',hrun.snoc hstep,hproj',hobs.snoc hm,fun z => ?_⟩
      rw [dataSent_snoc,dataFrames_snoc,hsent z,List.map_append]
      congr 1
      have hl := hm.sent z
      by_cases hx : x = z
      · subst hx
        rw [if_pos rfl] at hl ⊢
        cases hf : ev.dataFrame? c with
        | none =>
          rw [Event.dataFrame?_eq_none hf,Option.map_eq_none_iff] at hl
          rw [hl]
          rfl
        | some s =>
          obtain ⟨hpayload,hseq⟩ := Event.dataFrame?_eq_some hf
          rw [hpayload] at hl
          obtain ⟨d,hlabel,hd₂⟩ := Option.map_eq_some_iff.mp hl
          have hd₁ := hstep.data_seq hlabel
          rw [hproj.slot x,← hb] at hd₁
          have hdata : d = (s.frame.header.seq.toNat,s.frame.payload) := by
            rw [hseq]
            exact Prod.ext hd₁ hd₂
          rw [hlabel,hdata]
          rfl
      · rw [if_neg hx,Option.map_eq_none_iff] at hl
        rw [if_neg hx,hl]
        rfl

/-- DATA frames `r` behind the reports of a side: presented to it, numbered from zero. -/
structure Behind (y : Side) (c : Bytes32) (tr : History SK) (r : List (SealedFrame SK)) : Prop where
  payloads : r.map (fun s => s.frame.payload) = payloadsReported y c tr
  numbered : ∀ (i : ℕ) (s : SealedFrame SK), r[i]? = some s →
    s ∈ dataFrames y.other c tr ∧ s.frame.header.seq.toNat = i ∧ Presented y s tr

theorem Behind.quiet {y x : Side} {r : List (SealedFrame SK)} {ev : Event SK}
    (h : Behind y c tr r) (hq : x = y → ev.dataReported? c = none) :
    Behind y c (tr++[(x,ev)]) r where
  payloads := by
    rw [h.payloads,payloadsReported,payloadsReported,observe_snoc]
    by_cases hx : x = y
    · simp [hx,hq hx]
    · simp [hx]
  numbered i s hi := by
    obtain ⟨hmem,hseq,hpres⟩ := h.numbered i s hi
    rw [dataFrames_snoc]
    exact ⟨List.mem_append_left _ hmem,hseq,hpres.snoc⟩

/-- A payload is reported from the DATA frame that bears the next number. -/
theorem Relayed.behind (hz : P.ZstdLossless) (hd : (party .a).did ≠ (party .b).did)
    (hr : Relayed P (startWorld P party) tr w) (honce : timesOpened c tr ≤ 1) (y : Side) :
    ∃ r, Behind y c tr r := by
  induction hr with
  | nil => exact ⟨[],rfl,fun i s hi => by cases hi⟩
  | @snoc tr w x ev e' hr hb hp hg ih =>
    have hle : timesOpened c tr ≤ timesOpened c (tr++[(x,ev)]) := by
      simp only [timesOpened,List.countP_append]
      omega
    obtain ⟨r,hr'⟩ := ih (hle.trans honce)
    by_cases hx : x = y
    swap
    · exact ⟨r,hr'.quiet fun h => absurd h hx⟩
    subst hx
    cases hrep : ev.dataReported? c with
    | none => exact ⟨r,hr'.quiet fun _ => hrep⟩
    | some p =>
      obtain ⟨envelope,resolveSenderPub,nowMs,order,entropy,hi,hout,hid⟩ := Event.dataReported?_eq_some hrep
      obtain ⟨s,hs,slot,rfl,ht⟩ := hr.taken_of_event hz hd hb hp hi hout (hg _ _ _ _ _ hi)
      have hc : s.params.correlationId = c := by
        rw [← hid]
        exact (hr.sound x.other s hs).correlationId.symm
      obtain ⟨t,hslot,hest,hkind,hseq,rfl⟩ := ht.receives.data
      -- the session counts what was reported on it, and takes the frame of that number only
      have hcount : r.length = s.frame.header.seq.toNat := by
        obtain ⟨ls,σ,hrun,hproj,hobs⟩ := hr.projects hz (hr.clean hd c)
        have hdel := hrun.delivery StreamPair.fresh_empty (by rw [hobs.opened]; exact hle.trans honce)
        have hslot' : σ.slot x = some t := by rw [hproj.slot x,← hb,← hc,hslot]
        rw [hseq,← ((hdel.sound x).established t hslot' hest).2.2.1,hobs.reported x,← hr'.payloads,
          List.length_map]
      refine ⟨r++[s],?_,fun i s' hs' => ?_⟩
      · rw [List.map_append,hr'.payloads,payloadsReported,payloadsReported,observe_snoc,if_pos rfl,hrep]
        rfl
      rcases Lists.getElem?_snoc_cases hs' with ⟨-,hold⟩ | ⟨rfl,rfl⟩
      · obtain ⟨hmem,hnum,hpres⟩ := hr'.numbered i s' hold
        rw [dataFrames_snoc]
        exact ⟨List.mem_append_left _ hmem,hnum,hpres.snoc⟩
      · refine ⟨?_,hcount.symm,ev,by simp,by simp [Event.presented?,hi]⟩
        rw [dataFrames_snoc]
        exact List.mem_append_left _ (List.mem_filter.mpr ⟨hs,decide_eq_true ⟨hc,hkind⟩⟩)

theorem Relayed.reported_frames (hz : P.ZstdLossless) (hd : (party .a).did ≠ (party .b).did)
    (hr : Relayed P (startWorld P party) tr w) (honce : timesOpened c tr ≤ 1) (y : Side) :
    ∃ r, r <+: dataFrames y.other c tr ∧ r.map (fun s => s.frame.payload) = payloadsReported y c tr ∧
      ∀ s ∈ r, Presented y s tr := by
  obtain ⟨r,hr'⟩ := hr.behind hz hd honce y
  obtain ⟨ls,σ,hrun,-,hobs,hsent⟩ := hr.projects_frames (c:=c) hz hd
  have hdel := hrun.delivery StreamPair.fresh_empty (by rw [hobs.opened]; exact honce)
  -- each frame under its number: increasing, and the reported ones stand where their number says
  have hinc : ((dataFrames y.other c tr).map fun s => (s.frame.header.seq.toNat,s)).Pairwise
      fun a b => a.1 < b.1 := by
    have h := (hdel.sound y.other).increasing
    rw [hsent y.other,List.pairwise_map] at h
    rw [List.pairwise_map]
    exact h
  have hpre := Lists.prefix_of_increasing hinc (r:=r) fun i s hi => by
    obtain ⟨hmem,hnum,-⟩ := hr'.numbered i s hi
    exact List.mem_map.mpr ⟨s,hmem,by rw [hnum]⟩
  have hsnd : (Prod.snd ∘ fun s : SealedFrame SK => (s.frame.header.seq.toNat,s)) = id := rfl
  rw [List.map_map,hsnd,List.map_id] at hpre
  refine ⟨r,hpre,hr'.payloads,fun s hs => ?_⟩
  obtain ⟨i,hi⟩ := List.getElem?_of_mem hs
  exact (hr'.numbered i s hi).2.2

/-- Nothing sealed after a DATA frame is reported until that frame is presented. -/
theorem Relayed.held_up (hz : P.ZstdLossless) (hd : (party .a).did ≠ (party .b).did)
    (hr : Relayed P (startWorld P party) tr w) (honce : timesOpened c tr ≤ 1) {y : Side}
    {front rest : List (SealedFrame SK)} {s : SealedFrame SK}
    (hsplit : dataFrames y.other c tr = front++s::rest) (hno : ¬ Presented y s tr) :
    payloadsReported y c tr <+: front.map fun s => s.frame.payload := by
  obtain ⟨r,hpre,hpayloads,hpres⟩ := hr.reported_frames hz hd honce y
  rw [hsplit] at hpre
  rw [← hpayloads]
  refine List.IsPrefix.map _ ?_
  rcases List.prefix_or_prefix_of_prefix hpre (List.prefix_append front (s::rest)) with h | ⟨t,rfl⟩
  · exact h
  · cases t with
    | nil => simp
    | cons s' t =>
      obtain ⟨rfl,-⟩ := List.cons_prefix_cons.mp ((List.prefix_append_right_inj front).mp hpre)
      exact absurd (hpres s' (by simp)) hno

end
end DigMessage
