import DigMessage.LinkFlow
import DigMessage.StreamPipe

/-! A stream of two joined endpoints refines a pipe each way: what its writer sends and its reader
reports is a run of the pipe. -/
namespace DigMessage
open FixedWidth

def StreamAccept.read? : StreamAccept → Option (Pipe.Action (List UInt8))
  | .event (.data payload) => some (.read payload)
  | .event .remoteClosed => some .eof
  | .reset _ _ => some .hangUp
  | _ => none

def Outcome.isEnd : Outcome → Bool
  | .accepted (.ok (.event .remoteClosed)) => true
  | _ => false

theorem Outcome.isEnd_iff {out : Outcome} :
    out.isEnd = true ↔ out = .accepted (.ok (.event .remoteClosed)) := by
  unfold Outcome.isEnd
  split
  · simp
  · rename_i hne
    simp only [Bool.false_eq_true,false_iff]
    exact hne

section
variable {SK : Type}

namespace Event

def written? (c : Bytes32) (ev : Event SK) : Option (Pipe.Action (List UInt8)) :=
  match ev.input,ev.outcome with
  | .call d r _ _ _,.called (.ok _) => if d = c then r.written? else none
  | _,_ => none

def read? (c : Bytes32) (ev : Event SK) : Option (Pipe.Action (List UInt8)) :=
  match ev.input,ev.outcome with
  | .call d r _ _ _,.called (.ok _) => if d = c then r.hungUp? else none
  | .accept envelope _ _ _ _,.accepted (.ok res) =>
    if envelope.correlationId = c then res.read? else none
  | _,_ => none

end Event

/-- What happened to the pipe of stream `c` from `x` to its peer. -/
def piped (x : Side) (c : Bytes32) (tr : History SK) : List (Pipe.Action (List UInt8)) :=
  tr.filterMap fun p => if p.1 = x then p.2.written? c else p.2.read? c

theorem piped_snoc (x y : Side) (c : Bytes32) (tr : History SK) (ev : Event SK) :
    piped x c (tr++[(y,ev)]) = piped x c tr++(if y = x then ev.written? c else ev.read? c).toList :=
  Lists.filterMap_snoc _ tr (y,ev)

variable {P : Primitives SK}

/-- The label is what the event of side `x` did to stream `c`. -/
inductive Tells (c : Bytes32) (x : Side) (ev : Event SK) : Label → Prop
  | sent {r : Request} {f : Frame} {nowMs expiresAt : UInt64} {entropy : Except String Bytes32}
      {envelope : DigMessageEnvelope} : ev.input = .call c r nowMs expiresAt entropy →
      ev.outcome = .called (.ok envelope) → Tells c x ev (.sent x r f)
  | received {envelope : DigMessageEnvelope} {slot : Option StreamSession} {f : Frame}
      {resolveSenderPub : Bytes32 → UInt32 → Option Bytes48} {nowMs : UInt64} {order : HashOrder}
      {entropy : Except String Bytes32} {reaction : Reaction} {res : StreamAccept} :
      ev.input = .accept envelope resolveSenderPub nowMs order entropy →
      envelope.correlationId = c → ev.outcome = .accepted (.ok res) → reaction.Reported (.ok res) →
      Tells c x ev (.received x slot f reaction)
  | passed {envelope : DigMessageEnvelope}
      {resolveSenderPub : Bytes32 → UInt32 → Option Bytes48} {nowMs : UInt64} {order : HashOrder}
      {entropy : Except String Bytes32} {cause : MessageError} :
      ev.input = .accept envelope resolveSenderPub nowMs order entropy →
      ev.outcome = .accepted (.ok (.dropped cause)) → Tells c x ev .lost

structure Apart (c : Bytes32) (ev : Event SK) : Prop where
  opens : ev.opens c = false
  written : ev.written? c = none
  read : ev.read? c = none

theorem Tells.opens {c : Bytes32} {x : Side} {ev : Event SK} {l : Label} (h : Tells c x ev l) :
    opened [l] = if ev.opens c then 1 else 0 := by
  cases h with
  | @sent r f _ _ _ _ hi hout =>
    have hev : ev.opens c = decide (r.kind = .open) := by
      cases r <;> simp [Event.opens,hi,hout,Request.kind]
    cases x <;> simp [opened,DigMessage.opens,Label.opens,hev]
  | received hi hc hout hrep => simp [opened,DigMessage.opens,Label.opens,Event.opens,hi]
  | passed hi hout => simp [opened,DigMessage.opens,Label.opens,Event.opens,hi]

theorem Tells.piped {c : Bytes32} {x : Side} {ev : Event SK} {l : Label} (h : Tells c x ev l)
    (z : Side) : l.piped? z = if x = z then ev.written? c else ev.read? c := by
  cases h with
  | sent hi hout => simp [Label.piped?,Event.written?,Event.read?,hi,hout]
  | @received envelope _ _ _ _ _ _ reaction res hi hc hout hrep =>
    have hread : ev.read? c = reaction.read? := by
      cases reaction with
      | event e =>
        cases hrep
        cases e <;> simp [Event.read?,hi,hout,hc,StreamAccept.read?,Reaction.read?]
      | dropped cause =>
        cases hrep
        simp [Event.read?,hi,hout,StreamAccept.read?,Reaction.read?]
      | reset cause =>
        obtain ⟨reply,hres⟩ | ⟨err,hres⟩ := hrep
        · cases hres
          simp [Event.read?,hi,hout,hc,StreamAccept.read?,Reaction.read?]
        · cases hres
    simp [Label.piped?,hread,Event.written?,hi]
  | passed hi hout =>
    simp [Label.piped?,Event.written?,Event.read?,hi,hout,StreamAccept.read?]

/-- The labels are what a history did to stream `c`. -/
inductive Story (c : Bytes32) : History SK → List Label → Prop
  | nil : Story c [] []
  | apart {tr : History SK} {ls : List Label} {x : Side} {ev : Event SK} : Story c tr ls →
      Apart c ev → Story c (tr++[(x,ev)]) ls
  | tells {tr : History SK} {ls : List Label} {x : Side} {ev : Event SK} {l : Label} :
      Story c tr ls → Tells c x ev l → Story c (tr++[(x,ev)]) (ls++[l])

namespace Story
variable {c : Bytes32} {tr : History SK} {ls : List Label}

theorem opened (h : Story c tr ls) : opened ls = timesOpened c tr := by
  induction h with
  | nil => rfl
  | apart _ ha ih => simp [timesOpened_snoc,ha.opens,ih]
  | tells _ ht ih => rw [opened_append,timesOpened_snoc,ih,ht.opens]

theorem piped (h : Story c tr ls) (z : Side) : ls.filterMap (Label.piped? z) = piped z c tr := by
  induction h with
  | nil => rfl
  | apart _ ha ih => simp [piped_snoc,ha.written,ha.read,ih]
  | tells _ ht ih => rw [Lists.filterMap_snoc,piped_snoc,ih,ht.piped]

end Story

namespace Linked
variable {party : Side → Party SK} {tr : History SK} {w : World SK} {ch : Channels SK}

theorem tells_of_call (c : Bytes32) (ch : Channels SK) {d : Bytes32} {x : Side} {ev : Event SK}
    {e' : StreamEndpoint SK} {r : Request} {nowMs expiresAt : UInt64}
    {entropy : Except String Bytes32} (hb : ev.before = w x)
    (hi : ev.input = .call d r nowMs expiresAt entropy)
    (hp : ev.input.perform P ev.before = some (ev.outcome,e')) (hseals : ev.Seals e') :
    (streamOf c (Function.update w x e') (Function.update ch x (ch x++ev.sealed?.toList)) =
        streamOf c w ch ∧ Apart c ev) ∨
    ∃ l, StreamPair.Ordered (streamOf c w ch) l
        (streamOf c (Function.update w x e') (Function.update ch x (ch x++ev.sealed?.toList))) ∧
      Tells c x ev l ∧ l ≠ .lost := by
  rw [hi] at hp
  obtain ⟨res,hout,hcall⟩ := Input.perform_call P hp
  rw [streamOf_call]
  have hslot : (streamOf c w ch).slot x = ev.before.sessions.lookup c := by rw [hb]; rfl
  cases hcall with
  | rejected err =>
    have hsealed : ev.sealed? = none := by simp [Event.sealed?,hi,hout]
    refine Or.inl ⟨?_,?_⟩
    · simpa [hsealed] using streamOf_still c w ch hslot.symm rfl
    · constructor <;> simp [Event.opens,Event.written?,Event.read?,hi,hout]
  | unsealed hsend hn hseal =>
    have hsame := hseals.called _ hout
    simp only at hsame
    rw [hsame] at hn
    omega
  | @«sealed» hdr after failed next env hsend hn hseal =>
    have hsealed : ev.sealed? = some (sealedFrame ev.before d r.kind (r.header (nextSeq ev.before d))
        r.payload nowMs expiresAt env) := by simp [Event.sealed?,hi,hout]
    by_cases hd : d = c
    · subst hd
      have hframes : framesOn d ev.sealed?.toList = [⟨ev.before.sendCounter,r.kind,hdr,r.payload⟩] := by
        simp [hsealed,framesOn,sealedFrame,StreamEndpoint.frameParams,hsend.header_eq]
      rw [lookup_putSession_self,hframes]
      rw [← hslot] at hsend
      refine Or.inr ⟨.sent x r ⟨ev.before.sendCounter,r.kind,hdr,r.payload⟩,.sent hsend rfl rfl,
        .sent hi hout,?_⟩
      rintro ⟨⟩
    · refine Or.inl ⟨?_,?_⟩
      · rw [lookup_putSession_ne _ _ (Ne.symm hd)]
        refine streamOf_still c w ch hslot.symm ?_
        have hother : (sealedFrame ev.before d r.kind (r.header (nextSeq ev.before d)) r.payload nowMs
            expiresAt env).params.correlationId ≠ c := hd
        rw [hsealed,Option.toList_some,framesOn_cons,if_neg hother]
        simp
      · constructor
        · cases r <;> simp [Event.opens,hi,hout,hd]
        · simp [Event.written?,hi,hout,hd]
        · simp [Event.read?,hi,hout,hd]

theorem tells_of_deliver (hP : P.Lawful) (h : Linked P party tr w ch) (c : Bytes32) {y : Side}
    {ev : Event SK} {e' : StreamEndpoint SK} {s : SealedFrame SK} {rest : List (SealedFrame SK)}
    (hd : Delivers P party w ch y s rest ev)
    (hp : ev.input.perform P ev.before = some (ev.outcome,e')) (hseals : ev.Seals e') :
    (streamOf c (Function.update w y e')
        (Function.update (Function.update ch y.other rest) y (ch y++ev.sealed?.toList)) =
      streamOf c w ch ∧ Apart c ev) ∨
    ∃ l, StreamPair.Ordered (streamOf c w ch) l (streamOf c (Function.update w y e')
        (Function.update (Function.update ch y.other rest) y (ch y++ev.sealed?.toList))) ∧
      Tells c y ev l ∧ (l = .lost → maxDecompressedBytes < s.frame.payload.length) := by
  have harrives := h.arrives hP hd hp
  obtain ⟨hb,hch,_,_,_,_,-,-,-,hi⟩ := hd
  have hmem : s ∈ ch y.other := by rw [hch]; exact List.mem_cons_self
  have hcid := (h.sound _ s hmem).correlationId
  have hslot : (streamOf c w ch).slot y = ev.before.sessions.lookup c := by rw [hb]; rfl
  have hhead : (streamOf c w ch).flight y.other =
      if s.params.correlationId = c then s.frame::framesOn c rest else framesOn c rest := by
    change framesOn c (ch y.other) = _
    rw [hch,framesOn_cons]
  rw [streamOf_deliver]
  by_cases hc : s.params.correlationId = c
  · rw [if_pos hc] at hhead
    right
    obtain ⟨cause,hout,hsame,hdata,hbig⟩ | ⟨reaction,slot,res,hout,ht⟩ := harrives
    · have hsealed : ev.sealed? = none := by simp [Event.sealed?,hi,hout]
      refine ⟨.lost,?_,.passed hi hout,fun _ => hbig⟩
      rw [hsame,hsealed,← hslot,Function.update_eq_self,Option.toList_none,framesOn_nil,
        List.append_nil,Function.update_comm (Side.other_ne y),Function.update_eq_self]
      exact .skipped hhead hdata hbig
    · -- what it answers is sealed
      obtain ⟨ok,rfl⟩ : ∃ ok, res = .ok ok := by
        cases res with
        | ok ok => exact ⟨ok,rfl⟩
        | error err => exact absurd hout (hseals.accepted err)
      have hanswer : reaction.Replies (framesOn c ev.sealed?.toList) := by
        have hrep := ht.reported
        cases reaction with
        | event e =>
          cases hrep
          simp [Reaction.Replies,Event.sealed?,hi,hout]
        | dropped cause =>
          cases hrep
          simp [Reaction.Replies,Event.sealed?,hi,hout]
        | reset cause =>
          obtain ⟨reply,hres⟩ | ⟨err,hres⟩ := hrep
          · cases hres
            refine ⟨⟨ev.before.sendCounter,.reset,header .reset 0 0,[]⟩,?_,rfl⟩
            simp [Event.sealed?,hi,hout,framesOn,sealedFrame,StreamEndpoint.frameParams,hcid,hc]
          · cases hres
      have hrecv := ht.receives
      rw [hc,← hslot] at hrecv
      have hafter : e'.sessions.lookup c = slot := by rw [ht.sessions,hc,lookup_putSession_self]
      rw [hafter]
      refine ⟨_,.received hhead hrecv hanswer,.received hi (hcid.trans hc) hout ht.reported,?_⟩
      rintro ⟨⟩
  · rw [if_neg hc] at hhead
    left
    have hecid : s.envelope.correlationId ≠ c := by rwa [hcid]
    have hapart : Apart c ev := by
      constructor
      · simp [Event.opens,hi]
      · simp [Event.written?,hi]
      · cases hout : ev.outcome with
        | called res => simp [Event.read?,hi,hout]
        | accepted res => cases res <;> simp [Event.read?,hi,hout,hecid]
    have hsessions : e'.sessions.lookup c = ev.before.sessions.lookup c := by
      obtain ⟨-,-,hsame,-,-⟩ | ⟨reaction,slot,res,-,ht⟩ := harrives
      · rw [hsame]
      · rw [ht.sessions,lookup_putSession_ne _ _ (Ne.symm hc)]
    have hnone : framesOn c ev.sealed?.toList = [] := by
      cases hs : ev.sealed? with
      | none => rfl
      | some s' =>
        rw [Option.toList_some,framesOn_cons,if_neg]
        · rfl
        · rw [(sealed_of_accept hi hs).1]
          exact hecid
    refine ⟨?_,hapart⟩
    rw [hsessions,hnone,← hslot,← hhead]
    simp

/-- A stream of joined endpoints is a run of the machine that its history tells of. -/
theorem story (hP : P.Lawful) (h : Linked P party tr w ch) (c : Bytes32) :
    ∃ ls, StreamPair.OrderedRun .empty ls (streamOf c w ch) ∧ Story c tr ls ∧
      (.lost ∈ ls → Oversize tr) := by
  induction h with
  | nil => exact ⟨[],.nil,.nil,fun hl => absurd hl List.not_mem_nil⟩
  | @call tr w ch x ev e' d r nowMs expiresAt entropy hr hb hi hp hseals ih =>
    obtain ⟨ls,hrun,hstory,hlost⟩ := ih
    obtain ⟨hsame,hapart⟩ | ⟨l,hstep,htells,hl⟩ := tells_of_call c ch hb hi hp hseals
    · rw [hsame]
      exact ⟨ls,hrun,hstory.apart hapart,fun hl => (hlost hl).snoc _⟩
    · refine ⟨ls++[l],hrun.snoc hstep,hstory.tells htells,fun hmem => ?_⟩
      rw [List.mem_append,List.mem_singleton] at hmem
      exact (hlost (hmem.resolve_right (Ne.symm hl))).snoc _
  | @deliver tr w ch y ev e' s rest hr hd hp hseals ih =>
    obtain ⟨ls,hrun,hstory,hlost⟩ := ih
    obtain ⟨hsame,hapart⟩ | ⟨l,hstep,htells,hl⟩ := hr.tells_of_deliver hP c hd hp hseals
    · rw [hsame]
      exact ⟨ls,hrun,hstory.apart hapart,fun hl => (hlost hl).snoc _⟩
    · refine ⟨ls++[l],hrun.snoc hstep,hstory.tells htells,fun hmem => ?_⟩
      rw [List.mem_append,List.mem_singleton] at hmem
      rcases hmem with hmem | rfl
      · exact (hlost hmem).snoc _
      · have hin : s ∈ ch y.other := by rw [hd.oldest]; exact List.mem_cons_self
        exact Oversize.snoc ⟨y.other,s,hr.channel_sealed _ s hin,hl rfl⟩ _

end Linked

/-- Side `y` has sealed a RESET of stream `c`. -/
def HungUp (y : Side) (c : Bytes32) (tr : History SK) : Prop :=
  ∃ s ∈ sealedBy y tr, s.params.correlationId = c ∧ s.frame.kind = .reset

theorem Event.read?_hangUp {c : Bytes32} {ev : Event SK} : ev.read? c = some .hangUp ↔
    ∃ s, ev.sealed? = some s ∧ s.params.correlationId = c ∧ s.frame.kind = .reset := by
  obtain ⟨e,input,out⟩ := ev
  cases input with
  | call d r nowMs expiresAt entropy =>
    cases out with
    | accepted res => simp [Event.read?,Event.sealed?]
    | called res =>
      cases res with
      | error err => simp [Event.read?,Event.sealed?]
      | ok envelope =>
        cases r <;> simp [Event.read?,Event.sealed?,Request.hungUp?,Request.kind,sealedFrame,
          StreamEndpoint.frameParams]
  | accept envelope resolveSenderPub nowMs order entropy =>
    cases out with
    | called res => simp [Event.read?,Event.sealed?]
    | accepted res =>
      cases res with
      | error err => simp [Event.read?,Event.sealed?]
      | ok res =>
        cases res with
        | event e =>
          cases e <;> simp [Event.read?,Event.sealed?,StreamAccept.read?]
        | dropped cause => simp [Event.read?,Event.sealed?,StreamAccept.read?]
        | reset reply cause =>
          simp [Event.read?,Event.sealed?,StreamAccept.read?,sealedFrame,StreamEndpoint.frameParams]

theorem Event.written?_ne_hangUp {c : Bytes32} {ev : Event SK} : ev.written? c ≠ some .hangUp := by
  obtain ⟨e,input,out⟩ := ev
  cases input with
  | accept envelope resolveSenderPub nowMs order entropy => simp [Event.written?]
  | call d r nowMs expiresAt entropy =>
    cases out with
    | accepted res => simp [Event.written?]
    | called res =>
      cases res with
      | error err => simp [Event.written?]
      | ok envelope => cases r <;> simp [Event.written?,Request.written?]

theorem hangUp_mem_piped {x : Side} {c : Bytes32} {tr : History SK} :
    .hangUp ∈ piped x c tr ↔ HungUp x.other c tr := by
  simp only [piped,List.mem_filterMap,HungUp,sealedBy,observe]
  constructor
  · rintro ⟨⟨y,ev⟩,hmem,hact⟩
    by_cases hy : y = x
    · simp only [hy,if_true] at hact
      exact absurd hact Event.written?_ne_hangUp
    · simp only [hy,if_false] at hact
      obtain ⟨s,hs,hsc⟩ := Event.read?_hangUp.mp hact
      have hy' : y = x.other := (Side.eq_or_other y x).resolve_left hy
      exact ⟨s,⟨(y,ev),hmem,by simp [hy',hs]⟩,hsc⟩
  · rintro ⟨s,⟨⟨y,ev⟩,hmem,hs⟩,hsc⟩
    split at hs
    · rename_i hy
      simp only at hy
      refine ⟨(y,ev),hmem,?_⟩
      simp only [hy,Side.other_ne,if_false]
      exact Event.read?_hangUp.mpr ⟨s,hs,hsc⟩
    · cases hs

theorem written_piped (x : Side) (c : Bytes32) (tr : History SK) :
    Pipe.written (piped x c tr) = payloadsSent x c tr := by
  rw [Pipe.written,piped,List.filterMap_filterMap,payloadsSent,observe]
  congr 1
  funext p
  obtain ⟨y,e,input,out⟩ := p
  by_cases hy : y = x
  · cases input with
    | accept envelope resolveSenderPub nowMs order entropy =>
      simp [hy,Event.written?,Event.dataSent?]
    | call d r nowMs expiresAt entropy =>
      cases out with
      | accepted res => cases r <;> simp [hy,Event.written?,Event.dataSent?]
      | called res =>
        cases res with
        | error err => cases r <;> simp [hy,Event.written?,Event.dataSent?]
        | ok envelope =>
          by_cases hd : d = c <;> cases r <;>
            simp [hy,hd,Event.written?,Event.dataSent?,Request.written?,Pipe.Action.written?]
  · cases input with
    | accept envelope resolveSenderPub nowMs order entropy =>
      cases out with
      | called res => simp [hy,Event.read?]
      | accepted res =>
        cases res with
        | error err => simp [hy,Event.read?]
        | ok res =>
          cases res with
          | event e => cases e <;> simp [hy,Event.read?,StreamAccept.read?,Pipe.Action.written?]
          | dropped cause => simp [hy,Event.read?,StreamAccept.read?]
          | reset reply cause => simp [hy,Event.read?,StreamAccept.read?,Pipe.Action.written?]
    | call d r nowMs expiresAt entropy =>
      cases out with
      | accepted res => simp [hy,Event.read?]
      | called res =>
        cases res with
        | error err => simp [hy,Event.read?]
        | ok envelope => cases r <;> simp [hy,Event.read?,Request.hungUp?,Pipe.Action.written?]

theorem reads_piped (x : Side) (c : Bytes32) (tr : History SK) :
    Pipe.reads (piped x c tr) = payloadsReported x.other c tr := by
  rw [Pipe.reads,piped,List.filterMap_filterMap,payloadsReported,observe]
  congr 1
  funext p
  obtain ⟨y,e,input,out⟩ := p
  rcases Side.eq_or_other y x with rfl | rfl
  · cases input with
    | accept envelope resolveSenderPub nowMs order entropy => simp [Event.written?]
    | call d r nowMs expiresAt entropy =>
      cases out with
      | accepted res => simp [Event.written?]
      | called res =>
        cases res with
        | error err => simp [Event.written?]
        | ok envelope => cases r <;> simp [Event.written?,Request.written?,Pipe.Action.read?]
  · cases input with
    | call d r nowMs expiresAt entropy =>
      cases out with
      | accepted res => simp [Event.read?,Event.dataReported?]
      | called res =>
        cases res with
        | error err => simp [Event.read?,Event.dataReported?]
        | ok envelope =>
          cases r <;> simp [Event.read?,Event.dataReported?,Request.hungUp?,Pipe.Action.read?]
    | accept envelope resolveSenderPub nowMs order entropy =>
      cases out with
      | called res => simp [Event.read?,Event.dataReported?]
      | accepted res =>
        cases res with
        | error err => simp [Event.read?,Event.dataReported?]
        | ok res =>
          by_cases hc : envelope.correlationId = c <;> cases res with
          | event e =>
            cases e <;> simp [hc,Event.read?,Event.dataReported?,StreamAccept.read?,Pipe.Action.read?]
          | dropped cause => simp [hc,Event.read?,Event.dataReported?,StreamAccept.read?]
          | reset reply cause =>
            simp [hc,Event.read?,Event.dataReported?,StreamAccept.read?,Pipe.Action.read?]

variable {party : Side → Party SK} {tr : History SK} {w : World SK} {ch : Channels SK}

/-- The history of a stream is a run of a pipe, and the sessions and what is under way carry it. -/
theorem Linked.carried (hP : P.Lawful) (h : Linked P party tr w ch) (hsmall : ¬ Oversize tr)
    {c : Bytes32} (honce : timesOpened c tr ≤ 1) (x : Side) :
    ∃ p, Pipe.Run (piped x c tr) p ∧ Carries ((w x).session c) ((w x.other).session c)
      (framesOn c (ch x)) (framesOn c (ch x.other)) p := by
  obtain ⟨ls,hrun,hstory,hlost⟩ := h.story hP c
  rw [← hstory.opened] at honce
  rw [← hstory.piped]
  exact hrun.carries x honce fun hl => hsmall (hlost hl)

theorem HungUp.iff_broken {x : Side} {c : Bytes32} {p : Pipe (List UInt8)}
    (hrun : Pipe.Run (piped x c tr) p) : p.broken = true ↔ HungUp x.other c tr :=
  hrun.broken_iff.trans hangUp_mem_piped

theorem HungUp.whole_of_not {x : Side} {c : Bytes32} {p : Pipe (List UInt8)}
    (hrun : Pipe.Run (piped x c tr) p) (hno : ¬ HungUp x.other c tr) : p.broken = false := by
  rw [Bool.eq_false_iff]
  exact fun hb => hno ((HungUp.iff_broken hrun).mp hb)

/-- Each direction of a stream between joined endpoints refines a pipe: what its writer sends and
its reader reports is a run of one. It breaks only where the reader sends a RESET, and until then
it holds the DATA under way. -/
theorem stream_refines_pipe (hP : P.Lawful) (h : Linked P party tr w ch) (hsmall : ¬ Oversize tr)
    {c : Bytes32} (honce : timesOpened c tr ≤ 1) (x : Side) :
    ∃ p, Pipe.Run (piped x c tr) p ∧ (p.broken = true ↔ HungUp x.other c tr) ∧
      (p.broken = false → p.queue = payloads (framesOn c (ch x))) := by
  obtain ⟨p,hrun,hcar⟩ := h.carried hP hsmall honce x
  exact ⟨p,hrun,HungUp.iff_broken hrun,hcar.queue⟩

/-- Nothing that was sent is lost: without a RESET from the reader it is reported or under way, and
once the reader is told of the end, all of it is reported. -/
theorem sent_is_reported (hP : P.Lawful) (h : Linked P party tr w ch) (hsmall : ¬ Oversize tr)
    {c : Bytes32} (honce : timesOpened c tr ≤ 1) (x : Side) :
    (¬ HungUp x.other c tr →
      payloadsSent x c tr = payloadsReported x.other c tr++payloads (framesOn c (ch x))) ∧
    ∀ ev envelope, (x.other,ev) ∈ tr → ev.presented? = some envelope → envelope.correlationId = c →
      ev.outcome = .accepted (.ok (.event .remoteClosed)) →
      payloadsSent x c tr = payloadsReported x.other c tr := by
  obtain ⟨p,hrun,hcar⟩ := h.carried hP hsmall honce x
  have hacc := hrun.accounts
  rw [← written_piped,← reads_piped]
  constructor
  · intro hno
    have hwhole := HungUp.whole_of_not hrun hno
    rw [← hcar.queue hwhole]
    exact hacc.kept hwhole
  · intro ev envelope hmem hpres hc hout
    have heof : .eof ∈ piped x c tr := by
      refine List.mem_filterMap.mpr ⟨(x.other,ev),hmem,?_⟩
      obtain ⟨e,input,out⟩ := ev
      cases input with
      | call d r nowMs expiresAt entropy => cases hpres
      | accept envelope' resolveSenderPub nowMs order entropy =>
        cases hpres
        simp only at hout
        simp [Event.read?,hout,hc,StreamAccept.read?]
    exact (hacc.ended (hrun.ended_iff.mpr heof)).2

end

def talking : List Move :=
  joining (byte32 8) 4 1000++([.call .a (byte32 8) (.sendData [1]) 1000 0,
    .call .a (byte32 8) (.sendData [2]) 1000 0,.deliver .b 1000] : List Move)

/-- The pipe of such a stream holds the second payload. -/
theorem talking_refines_pipe : ∃ (st : LinkState Bytes32) (p : Pipe (List UInt8)),
    Linked .plain aliceAndBob st.history st.world st.channels ∧
    Pipe.Run (piped .a (byte32 8) st.history) p ∧ p.queue = [[2]] := by
  obtain ⟨st,hr,hcheck⟩ := linked_of_check .plain aliceAndBob default talking
    (fun st => withinBounds st.history &&
      decide (payloads (framesOn (byte32 8) (st.channels .a)) = [[2]]) &&
      (sealedBy .b st.history).all fun s => decide (s.frame.kind ≠ .reset)) (by decide +kernel)
  simp only [Bool.and_eq_true,decide_eq_true_eq,List.all_eq_true] at hcheck
  obtain ⟨⟨hbounds,hway⟩,hno⟩ := hcheck
  have hb := bounded_of_check hbounds
  obtain ⟨p,hrun,hbroken,hqueue⟩ := stream_refines_pipe Primitives.plain_lawful hr hb.small
    (hb.once (byte32 8)) .a
  refine ⟨st,p,hr,hrun,(hqueue ?_).trans hway⟩
  rw [Bool.eq_false_iff]
  intro h
  obtain ⟨s,hs,-,hk⟩ := hbroken.mp h
  exact hno s hs hk

/-- Closed after that, the stream has both payloads reported. -/
theorem talked_is_reported : ∃ st : LinkState Bytes32,
    Linked .plain aliceAndBob st.history st.world st.channels ∧
    payloadsSent .a (byte32 8) st.history = [[1],[2]] ∧
    payloadsReported .b (byte32 8) st.history = [[1],[2]] := by
  obtain ⟨st,hr,hcheck⟩ := linked_of_check .plain aliceAndBob default
    (talking++([.call .a (byte32 8) .close 1000 0,.deliver .b 1000,.deliver .b 1000] : List Move))
    (fun st => withinBounds st.history && decide (payloadsSent .a (byte32 8) st.history = [[1],[2]]) &&
      st.history.any fun p => decide (p.1 = .b) && p.2.outcome.isEnd &&
        p.2.presented?.any fun envelope => decide (envelope.correlationId = byte32 8))
    (by decide +kernel)
  simp only [Bool.and_eq_true,decide_eq_true_eq,List.any_eq_true,Option.any_eq_true] at hcheck
  obtain ⟨⟨hbounds,hsent⟩,⟨y,ev⟩,hmem,⟨rfl,hend⟩,envelope,hpres,hc⟩ := hcheck
  have hb := bounded_of_check hbounds
  have hall := (sent_is_reported Primitives.plain_lawful hr hb.small (hb.once (byte32 8)) .a).2
    ev envelope hmem hpres hc (Outcome.isEnd_iff.mp hend)
  exact ⟨st,hr,hsent,hall ▸ hsent⟩

end DigMessage
