import DigMessage.Link

/-! Each stream of two joined endpoints is a run of the two-slot machine over ordered channels. -/
namespace DigMessage
open FixedWidth

def Label.granted (y : Side) : Label → ℕ
  | .sent x _ f => if x = y then f.granted else 0
  | _ => 0

def granted (y : Side) (ls : List Label) : ℕ := (ls.map (Label.granted y)).sum

theorem granted_snoc (y : Side) (ls : List Label) (l : Label) :
    granted y (ls++[l]) = granted y ls+l.granted y := by simp [granted]

section
variable {SK : Type} {P : Primitives SK}

def framesOn (c : Bytes32) (frames : List (SealedFrame SK)) : List Frame :=
  (frames.filter fun s => s.params.correlationId = c).map SealedFrame.frame

@[simp] theorem framesOn_nil (c : Bytes32) : framesOn c ([] : List (SealedFrame SK)) = [] := rfl

theorem framesOn_append (c : Bytes32) (xs ys : List (SealedFrame SK)) :
    framesOn c (xs++ys) = framesOn c xs++framesOn c ys := by simp [framesOn]

theorem framesOn_cons (c : Bytes32) (s : SealedFrame SK) (rest : List (SealedFrame SK)) :
    framesOn c (s::rest) =
      if s.params.correlationId = c then s.frame::framesOn c rest else framesOn c rest := by
  by_cases h : s.params.correlationId = c <;> simp [framesOn,h]

/-- Stream `c` of two joined endpoints. -/
def streamOf (c : Bytes32) (w : World SK) (ch : Channels SK) : StreamPair where
  slot x := (w x).sessions.lookup c
  flight x := framesOn c (ch x)

theorem streamOf_call (c : Bytes32) (w : World SK) (ch : Channels SK) (x : Side)
    (e' : StreamEndpoint SK) (new : List (SealedFrame SK)) :
    streamOf c (Function.update w x e') (Function.update ch x (ch x++new)) =
      ⟨Function.update (streamOf c w ch).slot x (e'.sessions.lookup c),
        Function.update (streamOf c w ch).flight x
          ((streamOf c w ch).flight x++framesOn c new)⟩ := by
  simp only [streamOf,StreamPair.mk.injEq]
  constructor
  · funext z
    by_cases hz : z = x
    · subst hz
      simp
    · simp [Function.update_of_ne hz]
  · funext z
    by_cases hz : z = x
    · subst hz
      simp [framesOn_append]
    · simp [Function.update_of_ne hz]

theorem streamOf_deliver (c : Bytes32) (w : World SK) (ch : Channels SK) (y : Side)
    (e' : StreamEndpoint SK) (rest new : List (SealedFrame SK)) :
    streamOf c (Function.update w y e')
        (Function.update (Function.update ch y.other rest) y (ch y++new)) =
      ⟨Function.update (streamOf c w ch).slot y (e'.sessions.lookup c),
        Function.update (Function.update (streamOf c w ch).flight y.other (framesOn c rest)) y
          ((streamOf c w ch).flight y++framesOn c new)⟩ := by
  simp only [streamOf,StreamPair.mk.injEq]
  constructor
  · funext z
    by_cases hz : z = y
    · subst hz
      simp
    · simp [Function.update_of_ne hz]
  · funext z
    rcases Side.eq_or_other z y with rfl | rfl
    · simp [framesOn_append]
    · simp

theorem streamOf_still (c : Bytes32) (w : World SK) (ch : Channels SK) {y : Side}
    {slot : Option StreamSession} {flight : List Frame}
    (hslot : slot = (streamOf c w ch).slot y) (hflight : flight = (streamOf c w ch).flight y) :
    (⟨Function.update (streamOf c w ch).slot y slot,
      Function.update (streamOf c w ch).flight y flight⟩ : StreamPair) = streamOf c w ch := by
  rw [hslot,hflight,Function.update_eq_self,Function.update_eq_self]

/-- A frame whose payload its receiver will not decompress. -/
def Oversize (tr : History SK) : Prop :=
  ∃ x, ∃ s ∈ sealedBy x tr, maxDecompressedBytes < s.frame.payload.length

theorem Oversize.snoc {tr : History SK} (h : Oversize tr) (p : Side × Event SK) :
    Oversize (tr++[p]) := by
  obtain ⟨x,s,hs,hbig⟩ := h
  refine ⟨x,s,?_,hbig⟩
  rw [show p = (p.1,p.2) from rfl,sealedBy_snoc]
  exact List.mem_append_left _ hs

/-- The labels of a stream tell of its OPENs, its windows and its losses what the history tells. -/
structure Told (c : Bytes32) (tr : History SK) (ls : List Label) : Prop where
  opened : opened ls = timesOpened c tr
  granted : ∀ y, granted y ls = windowsSealed y c tr
  lost : .lost ∈ ls → Oversize tr

theorem windowsSealed_snoc (x y : Side) (c : Bytes32) (tr : History SK) (ev : Event SK) :
    windowsSealed y c (tr++[(x,ev)]) = windowsSealed y c tr+
      if x = y then ((ev.sealed?.map (SealedFrame.grantedOn c)).getD 0) else 0 := by
  rw [windowsSealed,sealedBy_snoc,List.map_append,List.sum_append]
  by_cases h : x = y
  · cases hs : ev.sealed? <;> simp [h,windowsSealed]
  · simp [h,windowsSealed]

theorem Told.quiet {c : Bytes32} {tr : History SK} {ls : List Label} {x : Side} {ev : Event SK}
    (h : Told c tr ls) (ho : ev.opens c = false)
    (hs : ∀ s, ev.sealed? = some s → SealedFrame.grantedOn c s = 0) :
    Told c (tr++[(x,ev)]) ls where
  opened := by simp [timesOpened_snoc,ho,h.opened]
  granted y := by
    rw [windowsSealed_snoc,h.granted]
    cases hsealed : ev.sealed? with
    | none => simp
    | some s => simp [hs s hsealed]
  lost hl := (h.lost hl).snoc _

theorem Told.snoc {c : Bytes32} {tr : History SK} {ls : List Label} {x : Side} {ev : Event SK}
    {l : Label} (h : Told c tr ls) (ho : DigMessage.opened [l] = if ev.opens c then 1 else 0)
    (hs : ∀ y, l.granted y =
      if x = y then ((ev.sealed?.map (SealedFrame.grantedOn c)).getD 0) else 0)
    (hlost : l = .lost → Oversize tr) : Told c (tr++[(x,ev)]) (ls++[l]) where
  opened := by rw [timesOpened_snoc,opened_append,h.opened,ho]
  granted y := by rw [windowsSealed_snoc,granted_snoc,h.granted,hs]
  lost hl := by
    rw [List.mem_append,List.mem_singleton] at hl
    exact (hl.elim h.lost fun hl => hlost hl.symm).snoc _

namespace Linked
variable {party : Side → Party SK} {tr : History SK} {w : World SK} {ch : Channels SK}

variable (ch) in
theorem streamOf_of_call (c : Bytes32) {d : Bytes32} {x : Side} {ev : Event SK} {e' : StreamEndpoint SK}
    {r : Request} {nowMs expiresAt : UInt64} {entropy : Except String Bytes32} (hb : ev.before = w x)
    (hi : ev.input = .call d r nowMs expiresAt entropy)
    (hp : ev.input.perform P ev.before = some (ev.outcome,e')) (hseals : ev.Seals e') :
    (streamOf c (Function.update w x e') (Function.update ch x (ch x++ev.sealed?.toList)) =
        streamOf c w ch ∧ ev.opens c = false ∧
      ∀ s, ev.sealed? = some s → SealedFrame.grantedOn c s = 0) ∨
    ∃ l, StreamPair.Ordered (streamOf c w ch) l
        (streamOf c (Function.update w x e') (Function.update ch x (ch x++ev.sealed?.toList))) ∧
      opened [l] = (if ev.opens c then 1 else 0) ∧ l ≠ .lost ∧ ∀ y, l.granted y =
        if x = y then ((ev.sealed?.map (SealedFrame.grantedOn c)).getD 0) else 0 := by
  rw [hi] at hp
  obtain ⟨res,hout,hcall⟩ := Input.perform_call P hp
  rw [streamOf_call]
  have hstill : (streamOf c w ch).slot x = ev.before.sessions.lookup c := by rw [hb]; rfl
  cases hcall with
  | rejected err =>
    have hsealed : ev.sealed? = none := by simp [Event.sealed?,hi,hout]
    have hopens : ev.opens c = false := by simp [Event.opens,hi,hout]
    refine Or.inl ⟨?_,hopens,by simp [hsealed]⟩
    simpa [hsealed] using streamOf_still c w ch hstill.symm rfl
  | unsealed hsend hn hseal =>
    have hsame := hseals.called _ hout
    simp only at hsame
    rw [hsame] at hn
    omega
  | @«sealed» hdr after failed next env hsend hn hseal =>
    have hhdr := hsend.header_eq
    have hsealed : ev.sealed? = some (sealedFrame ev.before d r.kind (r.header (nextSeq ev.before d))
        r.payload nowMs expiresAt env) := by simp [Event.sealed?,hi,hout]
    have hopens : ev.opens c = (decide (d = c) && decide (r.kind = .open)) := by
      cases r <;> simp [Event.opens,hi,hout,Request.kind]
    by_cases hd : d = c
    · subst hd
      have hframes : framesOn d ev.sealed?.toList = [⟨ev.before.sendCounter,r.kind,hdr,r.payload⟩] := by
        simp [hsealed,framesOn,sealedFrame,StreamEndpoint.frameParams,hhdr]
      rw [lookup_putSession_self,hframes]
      rw [← hstill] at hsend
      refine Or.inr ⟨.sent x r ⟨ev.before.sendCounter,r.kind,hdr,r.payload⟩,
        .sent hsend rfl rfl,?_,by rintro ⟨⟩,fun y => ?_⟩
      · cases x <;> simp [opened,opens,Label.opens,hopens]
      · simp [hsealed,Label.granted,SealedFrame.grantedOn,sealedFrame,StreamEndpoint.frameParams,hhdr]
    · have hother : ∀ s, ev.sealed? = some s → s.params.correlationId ≠ c := by
        intro s hs
        rw [hsealed] at hs
        cases hs
        exact hd
      refine Or.inl ⟨?_,by simp [hopens,hd],fun s hs => ?_⟩
      · rw [lookup_putSession_ne _ _ (Ne.symm hd)]
        refine streamOf_still c w ch hstill.symm ?_
        rw [hsealed,Option.toList_some,framesOn_cons,if_neg (hother _ hsealed)]
        simp
      · simp [SealedFrame.grantedOn,hother s hs]

theorem streamOf_of_deliver (hP : P.Lawful) (h : Linked P party tr w ch)
    {c : Bytes32} {y : Side} {ev : Event SK} {e' : StreamEndpoint SK} {s : SealedFrame SK}
    {rest : List (SealedFrame SK)} (hd : Delivers P party w ch y s rest ev)
    (hp : ev.input.perform P ev.before = some (ev.outcome,e')) (hseals : ev.Seals e') :
    streamOf c (Function.update w y e')
        (Function.update (Function.update ch y.other rest) y (ch y++ev.sealed?.toList)) =
      streamOf c w ch ∨
    ∃ l, StreamPair.Ordered (streamOf c w ch) l (streamOf c (Function.update w y e')
        (Function.update (Function.update ch y.other rest) y (ch y++ev.sealed?.toList))) ∧
      opened [l] = 0 ∧ (∀ z, l.granted z = 0) ∧
      (l = .lost → maxDecompressedBytes < s.frame.payload.length) := by
  have harrives := h.arrives hP hd hp
  obtain ⟨hb,hch,_,_,_,_,-,-,-,hi⟩ := hd
  have hmem : s ∈ ch y.other := by rw [hch]; exact List.mem_cons_self
  have hcid := (h.sound _ s hmem).correlationId
  have hslot : (streamOf c w ch).slot y = ev.before.sessions.lookup c := by rw [hb]; rfl
  have hhead : (streamOf c w ch).flight y.other =
      if s.params.correlationId = c then s.frame::framesOn c rest else framesOn c rest := by
    change framesOn c (ch y.other) = _
    rw [hch,framesOn_cons]
  rw [streamOf_deliver]
  obtain ⟨cause,hout,hsame,hdata,hbig⟩ | ⟨reaction,slot,res,hout,ht⟩ := harrives
  · have hsealed : ev.sealed? = none := by simp [Event.sealed?,hi,hout]
    rw [hsame,hsealed,← hslot,Function.update_eq_self,Option.toList_none,framesOn_nil,List.append_nil]
    have hstay : Function.update (Function.update (streamOf c w ch).flight y.other (framesOn c rest)) y
        ((streamOf c w ch).flight y) = Function.update (streamOf c w ch).flight y.other
          (framesOn c rest) := by
      rw [Function.update_comm (Side.other_ne y),Function.update_eq_self]
    rw [hstay]
    by_cases hc : s.params.correlationId = c
    · rw [if_pos hc] at hhead
      refine Or.inr ⟨.lost,.skipped hhead hdata hbig,?_,fun _ => rfl,fun _ => hbig⟩
      simp [opened,opens,Label.opens]
    · rw [if_neg hc] at hhead
      rw [← hhead,Function.update_eq_self]
      exact Or.inl rfl
  · have hreply : ∀ s', ev.sealed? = some s' → s'.params.correlationId = s.params.correlationId :=
      fun s' hs' => (sealed_of_accept hi hs').1.trans hcid
    by_cases hc : s.params.correlationId = c
    · rw [if_pos hc] at hhead
      have hanswer : reaction.Replies (framesOn c ev.sealed?.toList) := by
        have hrep := ht.reported
        cases reaction with
        | event e =>
          rw [show res = _ from hrep] at hout
          simp [Reaction.Replies,Event.sealed?,hi,hout]
        | dropped cause =>
          rw [show res = _ from hrep] at hout
          simp [Reaction.Replies,Event.sealed?,hi,hout]
        | reset cause =>
          obtain ⟨reply,hres⟩ | ⟨err,hres⟩ := hrep
          · rw [hres] at hout
            have hframe : framesOn c ev.sealed?.toList =
                [⟨ev.before.sendCounter,.reset,header .reset 0 0,[]⟩] := by
              simp [Event.sealed?,hi,hout,framesOn,sealedFrame,StreamEndpoint.frameParams,hcid,hc]
            exact ⟨_,hframe,rfl⟩
          · rw [hres] at hout
            exact absurd hout (hseals.accepted err)
      have hrecv := ht.receives
      have hafter : e'.sessions.lookup c = slot := by
        rw [ht.sessions,hc,lookup_putSession_self]
      rw [hc,← hslot] at hrecv
      rw [hafter]
      refine Or.inr ⟨_,.received hhead hrecv hanswer,?_,fun _ => rfl,by rintro ⟨⟩⟩
      simp [opened,opens,Label.opens]
    · rw [if_neg hc] at hhead
      have hnone : framesOn c ev.sealed?.toList = [] := by
        cases hs : ev.sealed? with
        | none => rfl
        | some s' =>
          rw [Option.toList_some,framesOn_cons,if_neg]
          · rfl
          · rw [hreply s' hs]
            exact hc
      rw [hnone,← hhead,Function.update_eq_self,ht.sessions,lookup_putSession_ne _ _ (Ne.symm hc),
        ← hslot]
      simp

/-- A stream of joined endpoints is a run of the machine, from nothing. -/
theorem projects (hP : P.Lawful) (h : Linked P party tr w ch) (c : Bytes32) :
    ∃ ls, StreamPair.OrderedRun .empty ls (streamOf c w ch) ∧ Told c tr ls := by
  induction h with
  | nil =>
    have hstart : streamOf c (startWorld P party) (fun _ => []) = .empty := rfl
    rw [hstart]
    exact ⟨[],.nil,rfl,fun y => rfl,fun hl => absurd hl List.not_mem_nil⟩
  | @call tr w ch x ev e' d r nowMs expiresAt entropy hr hb hi hp hseals ih =>
    obtain ⟨ls,hrun,htold⟩ := ih
    obtain ⟨hsame,ho,hs⟩ | ⟨l,hstep,ho,hl,hs⟩ := streamOf_of_call ch c hb hi hp hseals
    · rw [hsame]
      exact ⟨ls,hrun,htold.quiet ho hs⟩
    · exact ⟨ls++[l],hrun.snoc hstep,htold.snoc ho hs fun he => absurd he hl⟩
  | @deliver tr w ch y ev e' s rest hr hd hp hseals ih =>
    obtain ⟨ls,hrun,htold⟩ := ih
    obtain ⟨_,_,_,_,-,-,-,hi⟩ := hd.presented
    have hopens : ev.opens c = false := by simp [Event.opens,hi]
    have hgrants : ∀ s', ev.sealed? = some s' → SealedFrame.grantedOn c s' = 0 := by
      intro s' hs'
      simp [SealedFrame.grantedOn,Frame.granted,(sealed_of_accept hi hs').2,StreamFrame.grants]
    obtain hsame | ⟨l,hstep,ho,hs,hl⟩ :=
      hr.streamOf_of_deliver hP (c:=c) hd hp hseals
    · rw [hsame]
      exact ⟨ls,hrun,htold.quiet hopens hgrants⟩
    · refine ⟨ls++[l],hrun.snoc hstep,htold.snoc ?_ (fun z => ?_) fun he => ?_⟩
      · simp [ho,hopens]
      · rw [hs]
        cases hsealed : ev.sealed? with
        | none => simp
        | some s' => simp [hgrants s' hsealed]
      · have hmem : s ∈ ch y.other := by rw [hd.oldest]; exact List.mem_cons_self
        exact ⟨y.other,s,hr.channel_sealed _ s hmem,hl he⟩

end Linked
end
end DigMessage
