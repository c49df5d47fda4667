import DigMessage.Pipe
import DigMessage.StreamOrder

/-! A stream over ordered channels is a pipe each way. The queue of the pipe is the DATA under
way; the pipe is broken once its reader has sent a RESET. -/
namespace DigMessage

/-- The payloads of the DATA among `fs`. -/
def payloads (fs : List Frame) : List (List UInt8) :=
  (fs.filter fun f => f.kind = .data).map Frame.payload

@[simp] theorem payloads_nil : payloads [] = [] := rfl

theorem payloads_cons (f : Frame) (fs : List Frame) :
    payloads (f::fs) = if f.kind = .data then f.payload::payloads fs else payloads fs := by
  by_cases h : f.kind = .data <;> simp [payloads,h]

@[simp] theorem payloads_append (fs gs : List Frame) : payloads (fs++gs) = payloads fs++payloads gs := by
  simp [payloads]

theorem payloads_of_cons {f : Frame} {fs : List Frame} (h : payloads (f::fs) = []) :
    payloads fs = [] := by
  rw [payloads_cons] at h
  split at h
  · cases h
  · exact h

def Request.written? : Request → Option (Pipe.Action (List UInt8))
  | .sendData payload => some (.write payload)
  | .close => some .finish
  | _ => none

def Request.hungUp? : Request → Option (Pipe.Action (List UInt8))
  | .reset => some .hangUp
  | _ => none

def Reaction.read? : Reaction → Option (Pipe.Action (List UInt8))
  | .event (.data payload) => some (.read payload)
  | .event .remoteClosed => some .eof
  | .reset _ => some .hangUp
  | _ => none

/-- What a label is to the pipe that `x` writes. -/
def Label.piped? (x : Side) : Label → Option (Pipe.Action (List UInt8))
  | .sent y r _ => if y = x then r.written? else r.hungUp?
  | .received y _ _ reaction => if y = x then none else reaction.read?
  | _ => none

/-- The writer's slot, the reader's, and the frames either way, beside their pipe. -/
structure Carries (mine theirs : Option StreamSession) (out back : List Frame)
    (p : Pipe (List UInt8)) : Prop where
  queue : p.broken = false → p.queue = payloads out
  unread : theirs = none → p.queue = []
  writer : ∀ s, mine = some s → s.localClosed = p.finished
  reader : ∀ t, theirs = some t → t.remoteClosed = p.ended ∧ p.broken = false
  closing : 0 < tally .close out → p.finished = true
  /-- No DATA follows a CLOSE or a RESET. -/
  last : ∀ front f rest, out = front++f::rest → f.kind = .close ∨ f.kind = .reset → payloads rest = []
  reset : 0 < tally .reset back → p.broken = true
  offered : 0 < tally .open out → p.ended = false ∧ p.broken = false
  asked : 0 < tally .open back → p.finished = false

theorem Carries.new : Carries none none [] [] .new := by
  constructor <;> simp [Pipe.new]

abbrev Pipe.Moves (p : Pipe (List UInt8)) (a : Option (Pipe.Action (List UInt8)))
    (p' : Pipe (List UInt8)) : Prop := Lists.Along Pipe.Step p a.toList p'

namespace Carries
variable {s s' : StreamSession} {mine theirs after : Option StreamSession} {out back rest : List Frame}
  {f : Frame} {p : Pipe (List UInt8)}

theorem last_snoc (h : Carries mine theirs out back p)
    (hf : f.kind = .data → tally .close out = 0 ∧ tally .reset out = 0) (front : List Frame) (g : Frame)
    (rest : List Frame) (hout : out++[f] = front++g::rest) (hg : g.kind = .close ∨ g.kind = .reset) :
    payloads rest = [] := by
  rcases List.eq_nil_or_concat rest with rfl | ⟨rest',f',rfl⟩
  · rfl
  · have hsplit : out++[f] = (front++g::rest')++[f'] := by simpa using hout
    obtain ⟨hfront,hlast⟩ := List.append_inj' hsplit rfl
    cases hlast
    have hrest := h.last front g rest' hfront hg
    by_cases hk : f.kind = .data
    · obtain ⟨hc,hr⟩ := hf hk
      rw [hfront,tally_append,tally_cons] at hc hr
      rcases hg with hg | hg <;> simp [hg] at hc hr
    · simp [hrest,payloads_cons,hk]

theorem last_tail (h : Carries mine theirs (f::rest) back p) (front : List Frame) (g : Frame)
    (post : List Frame) (hrest : rest = front++g::post) (hg : g.kind = .close ∨ g.kind = .reset) :
    payloads post = [] := h.last (f::front) g post (by rw [hrest]; rfl) hg

theorem sendQuiet (h : Carries mine theirs out back p) (hd : f.kind ≠ .data) (hc : f.kind ≠ .close)
    (ho : f.kind ≠ .open) (hs : ∀ s', after = some s' → ∃ s, mine = some s ∧ s'.localClosed = s.localClosed) :
    Carries after theirs (out++[f]) back p where
  queue hb := by simp [h.queue hb,payloads_cons,hd]
  unread := h.unread
  writer s' hs' := by
    obtain ⟨s,hmine,hl⟩ := hs s' hs'
    rw [hl]
    exact h.writer s hmine
  reader := h.reader
  closing ht := h.closing (by simpa [hc] using ht)
  last := h.last_snoc fun hk => absurd hk hd
  reset := h.reset
  offered ht := h.offered (by simpa [ho] using ht)
  asked := h.asked

theorem sendData (h : Carries (some s) theirs out back p) (hp : Paired (some s) theirs out back)
    (hf : f.kind = .data) (hh : s.handshake = .established)
    (hl : s.localClosed = false) (hs : s'.localClosed = s.localClosed) :
    ∃ p', Pipe.Step p (.write f.payload) p' ∧ Carries (some s') theirs (out++[f]) back p' := by
  have hfin : p.finished = false := (h.writer s rfl).symm.trans hl
  have hclose : tally .close out = 0 := by
    by_contra hne
    have := h.closing (Nat.pos_of_ne_zero hne)
    simp [hfin] at this
  have hgone := hp.left.gone s rfl
  refine ⟨_,.write f.payload hfin,?_⟩
  constructor
  · intro hb
    have hb' : p.broken = false := hb
    simp [hb',h.queue hb',payloads_cons,hf]
  · intro ht
    -- a reader without a session has sent a RESET
    have hended := hp.left.ended s rfl ht
    have hopen : tally .open out = 0 := by
      by_contra hne
      cases out with
      | nil => simp at hne
      | cons g gs =>
        have hfirst := hp.left.first
        rw [List.tail_cons] at hfirst
        rw [tally_cons,hfirst] at hne
        have hg : g.kind = .open := by
          by_contra hg
          simp [hg] at hne
        have hopening := ((hp.left.offered g gs rfl hg).2.2.2.2 s rfl).2.1
        rw [hh] at hopening
        cases hopening
    rw [hopen,hl,Bool.toNat_false] at hended
    have hb := h.reset (by omega)
    simp [hb]
  · rintro _ ⟨⟩
    rw [hs]
    exact h.writer s rfl
  · exact h.reader
  · intro ht
    exact h.closing (by simpa [hf] using ht)
  · exact h.last_snoc fun _ => ⟨hclose,hgone⟩
  · exact h.reset
  · intro ht
    exact h.offered (by simpa [hf] using ht)
  · exact h.asked

theorem sendClose (h : Carries (some s) theirs out back p) (hl : s.localClosed = false)
    (hback : tally .open back = 0) (hf : f.kind = .close)
    (hafter : ∀ s', after = some s' → s'.localClosed = true) :
    ∃ p', Pipe.Step p .finish p' ∧ Carries after theirs (out++[f]) back p' := by
  have hfin : p.finished = false := (h.writer s rfl).symm.trans hl
  refine ⟨_,.finish hfin,?_⟩
  constructor
  · intro hb
    have hb' : p.broken = false := hb
    simp [h.queue hb',payloads_cons,hf]
  · exact h.unread
  · exact hafter
  · exact h.reader
  · exact fun _ => rfl
  · exact h.last_snoc fun hk => absurd hk (by simp [hf])
  · exact h.reset
  · intro ht
    exact h.offered (by simpa [hf] using ht)
  · intro ht
    omega

theorem unopened_back (hp : Paired (some s) theirs out back) : tally .open back = 0 := by
  by_contra hne
  cases back with
  | nil => simp at hne
  | cons g gs =>
    have hfirst := hp.right.first
    rw [List.tail_cons] at hfirst
    rw [tally_cons,hfirst] at hne
    have hg : g.kind = .open := by
      by_contra hg
      simp [hg] at hne
    cases (hp.right.offered g gs rfl hg).1

theorem sends {r : Request} {hdr : StreamHeader} {failed : Option StreamSession}
    (h : Carries mine theirs out back p) (hp : Paired mine theirs out back)
    (hs : Sends mine r hdr after failed) (hf : f.kind = r.kind) (hpay : f.payload = r.payload)
    (hopen : r.kind = .open → p = .new ∧ theirs = none ∧ out = [] ∧ back = []) :
    ∃ p', p.Moves r.written? p' ∧ Carries after theirs (out++[f]) back p' := by
  cases hs with
  | «open» w =>
    obtain ⟨rfl,rfl,rfl,rfl⟩ := hopen rfl
    refine ⟨_,.nil,?_⟩
    constructor
    · intro _
      simp [payloads_cons,hf,Request.kind,Pipe.new]
    · exact fun _ => rfl
    · rintro _ ⟨⟩
      rfl
    · rintro _ ⟨⟩
    · simp [hf,Request.kind]
    · exact h.last_snoc fun hk => by simp [hf,Request.kind] at hk
    · simp
    · exact fun _ => ⟨rfl,rfl⟩
    · simp
  | @live s s' _ hsend =>
    cases hsend with
    | openAck w hrole hh =>
      refine ⟨p,.nil,h.sendQuiet (by simp [hf,Request.kind]) (by simp [hf,Request.kind])
        (by simp [hf,Request.kind]) ?_⟩
      rintro _ ⟨⟩
      exact ⟨s,rfl,rfl⟩
    | sendData payload next hh hl hc hn =>
      have hpay' : f.payload = payload := hpay
      obtain ⟨p',hstep,hcar⟩ : ∃ p', Pipe.Step p (.write f.payload) p' ∧
          Carries (some {s with sendCredit := s.sendCredit-1,sendSeq := next}) theirs (out++[f]) back p' :=
        h.sendData hp hf hh hl rfl
      rw [hpay'] at hstep
      exact ⟨p',.cons hstep .nil,hcar⟩
    | grantCredit n hh =>
      refine ⟨p,.nil,h.sendQuiet (by simp [hf,Request.kind]) (by simp [hf,Request.kind])
        (by simp [hf,Request.kind]) ?_⟩
      rintro _ ⟨⟩
      exact ⟨s,rfl,rfl⟩
    | close hl =>
      have hclosed : ∀ s', ({s with localClosed := true} : StreamSession).settle = some s' →
          s'.localClosed = true := by
        intro s' hs'
        unfold StreamSession.settle at hs'
        split at hs' <;> cases hs'
        rfl
      obtain ⟨p',hstep,hcar⟩ := h.sendClose hl (unopened_back hp) hf hclosed
      exact ⟨p',.cons hstep .nil,hcar⟩
    | reset =>
      refine ⟨p,.nil,h.sendQuiet (by simp [hf,Request.kind]) (by simp [hf,Request.kind])
        (by simp [hf,Request.kind]) ?_⟩
      rintro _ ⟨⟩

theorem hangUp (h : Carries mine theirs out back p) (hout : tally .open rest = 0)
    (hclose : tally .close rest ≤ tally .close out) (hback : f.kind ≠ .open)
    (hlast : ∀ front g post, rest = front++g::post → g.kind = .close ∨ g.kind = .reset →
      payloads post = []) :
    ∃ p', Pipe.Step p .hangUp p' ∧ Carries mine none rest (back++[f]) p' := by
  refine ⟨_,.hangUp,?_⟩
  constructor
  · rintro ⟨⟩
  · exact fun _ => rfl
  · exact h.writer
  · rintro _ ⟨⟩
  · exact fun ht => h.closing (ht.trans_le hclose)
  · exact hlast
  · exact fun _ => rfl
  · intro ht
    omega
  · intro ht
    exact h.asked (by simpa [hback] using ht)

theorem answers {r : Request} {hdr : StreamHeader} {failed : Option StreamSession}
    (h : Carries mine theirs out back p) (hp : Paired mine theirs out back)
    (hq : p.ended = true ∨ p.broken = true → p.queue = [])
    (hs : Sends theirs r hdr after failed) (hf : f.kind = r.kind)
    (hopen : r.kind = .open → p = .new ∧ mine = none ∧ out = [] ∧ back = []) :
    ∃ p', p.Moves r.hungUp? p' ∧ Carries mine after out (back++[f]) p' := by
  have hquiet (hk : f.kind ≠ .reset ∧ f.kind ≠ .open)
      (hnone : after = none → p.queue = [])
      (hsome : ∀ t', after = some t' → ∃ t, theirs = some t ∧ t'.remoteClosed = t.remoteClosed) :
      Carries mine after out (back++[f]) p := by
    constructor
    · exact h.queue
    · exact hnone
    · exact h.writer
    · intro t' ht'
      obtain ⟨t,ht,hr⟩ := hsome t' ht'
      rw [hr]
      exact h.reader t ht
    · exact h.closing
    · exact h.last
    · intro ht
      exact h.reset (by simpa [hk.1] using ht)
    · exact h.offered
    · intro ht
      exact h.asked (by simpa [hk.2] using ht)
  cases hs with
  | «open» w =>
    obtain ⟨rfl,rfl,rfl,rfl⟩ := hopen rfl
    refine ⟨_,.nil,?_⟩
    constructor
    · exact fun _ => rfl
    · rintro ⟨⟩
    · rintro _ ⟨⟩
    · rintro _ ⟨⟩
      exact ⟨rfl,rfl⟩
    · simp
    · exact h.last
    · simp [hf,Request.kind]
    · simp
    · exact fun _ => rfl
  | @live t t' _ hsend =>
    cases hsend with
    | openAck w hrole hh =>
      refine ⟨p,.nil,hquiet (by simp [hf,Request.kind]) (by rintro ⟨⟩) ?_⟩
      rintro _ ⟨⟩
      exact ⟨t,rfl,rfl⟩
    | sendData payload next hh hl hc hn =>
      refine ⟨p,.nil,hquiet (by simp [hf,Request.kind]) (by rintro ⟨⟩) ?_⟩
      rintro _ ⟨⟩
      exact ⟨t,rfl,rfl⟩
    | grantCredit n hh =>
      refine ⟨p,.nil,hquiet (by simp [hf,Request.kind]) (by rintro ⟨⟩) ?_⟩
      rintro _ ⟨⟩
      exact ⟨t,rfl,rfl⟩
    | close hl =>
      refine ⟨p,.nil,hquiet (by simp [hf,Request.kind]) (fun hnone => ?_) (fun t' ht' => ?_)⟩
      · -- it was told of the end before
        have halive := (hp.right.alive t rfl).1
        rw [Request.settle,StreamSession.settle_eq] at hnone
        split at hnone
        · rename_i hclosed
          simp only [halive,Bool.false_or,Bool.true_and] at hclosed
          exact hq (Or.inl ((h.reader t rfl).1 ▸ hclosed))
        · cases hnone
      · rw [Request.settle,StreamSession.settle_eq] at ht'
        split at ht'
        · cases ht'
        · cases ht'
          exact ⟨t,rfl,rfl⟩
    | reset =>
      have hopen' : tally .open out = 0 := unopened_back hp.symm
      have hkind : f.kind ≠ .open := by simp [hf,Request.kind]
      obtain ⟨p',hstep,hcar⟩ := h.hangUp hopen' le_rfl hkind h.last
      exact ⟨p',.cons hstep .nil,hcar⟩

theorem hears {full : Bool} {hdr : StreamHeader} {payload : List UInt8} {reaction : Reaction}
    {reply : List Frame} (h : Carries mine theirs out (f::rest) p)
    (hr : Receives mine full hdr payload f.kind reaction after) (hreply : reaction.Replies reply) :
    Carries after theirs (out++reply) rest p := by
  have hkinds : ∀ g ∈ reply, g.kind = .reset := by
    intro g hg
    cases reaction with
    | reset cause =>
      obtain ⟨g',rfl,hk⟩ := hreply
      rw [List.mem_singleton.mp hg]
      exact hk
    | event e => cases hreply; cases hg
    | dropped cause => cases hreply; cases hg
  have hwriter : ∀ s', after = some s' → s'.localClosed = p.finished := by
    generalize hk : f.kind = kind at hr
    cases hr with
    | peerReset hs => rintro _ ⟨⟩
    | strayReset cause hs => rintro _ ⟨⟩
    | reopened cause hs => rintro _ ⟨⟩
    | refused cause hs hfull => rintro _ ⟨⟩
    | stray cause hs hreset ho => rintro _ ⟨⟩
    | violated cause hs hreset ho hnot => rintro _ ⟨⟩
    | opened hs hfull =>
      rintro _ ⟨⟩
      exact (h.asked (by simp [hk])).symm
    | @accepted s s' _ a hs hreset halive hrecv =>
      intro s'' hs''
      rw [StreamSession.settle_eq] at hs''
      split at hs''
      · cases hs''
      · cases hs''
        rw [← h.writer s hs]
        cases hrecv <;> rfl
  have hnone : payloads reply = [] := by
    rw [payloads,List.filter_eq_nil_iff.mpr]
    · rfl
    · intro g hg
      simp [hkinds g hg]
  have hzero : tally .close reply = 0 ∧ tally .open reply = 0 := by
    constructor <;>
    · rw [tally,List.countP_eq_zero]
      intro g hg
      simp [hkinds g hg]
  constructor
  · intro hb
    simp [hnone,h.queue hb]
  · exact h.unread
  · exact hwriter
  · exact h.reader
  · intro ht
    exact h.closing (by simpa [hzero] using ht)
  · intro front g post hout hg
    rcases List.append_eq_append_iff.mp hout with ⟨mid,hfront,hmid⟩ | ⟨mid,hout',hmid⟩
    · -- what follows it was sent with the reply
      have hsub : payloads reply = payloads mid++payloads (g::post) := by rw [hmid,payloads_append]
      rw [hnone,eq_comm,List.append_eq_nil_iff] at hsub
      exact payloads_of_cons hsub.2
    · cases mid with
      | nil =>
        rw [List.nil_append] at hmid
        rw [← hmid] at hnone
        exact payloads_of_cons hnone
      | cons g' mid' =>
        rw [List.cons_append,List.cons.injEq] at hmid
        obtain ⟨rfl,rfl⟩ := hmid
        rw [payloads_append,hnone,h.last front g mid' hout' hg]
        rfl
  · intro ht
    exact h.reset (by rw [tally_cons]; omega)
  · intro ht
    exact h.offered (by simpa [hzero] using ht)
  · intro ht
    exact h.asked (by rw [tally_cons]; omega)

theorem takeQuiet (h : Carries mine theirs (f::rest) back p) (hd : f.kind ≠ .data ∨ p.broken = true)
    (hunread : after = none → p.queue = [])
    (hreader : ∀ t', after = some t' → t'.remoteClosed = p.ended ∧ p.broken = false) :
    Carries mine after rest back p where
  queue hb := by
    have hqueue := h.queue hb
    have hk : f.kind ≠ .data := hd.resolve_right (by simp [hb])
    rwa [payloads_cons,if_neg hk] at hqueue
  unread := hunread
  writer := h.writer
  reader := hreader
  closing ht := h.closing (by rw [tally_cons]; omega)
  last := h.last_tail
  reset := h.reset
  offered ht := h.offered (by rw [tally_cons]; omega)
  asked := h.asked

theorem accepts {t t' : StreamSession} {a : Accepted} (h : Carries mine (some t) (f::rest) back p)
    (hfirst : tally .open rest = 0) (halive : t.localClosed = true → t.remoteClosed = false)
    (hreset : f.kind ≠ .reset) (hlive : t.reset = false) (hr : t.Recv f.header f.kind a t') :
    ∃ p', p.Moves (Reaction.event (toEvent a f.payload)).read? p' ∧
      Carries mine t'.settle rest back p' := by
  obtain ⟨hended,hbroken⟩ := h.reader t rfl
  have hqueue := h.queue hbroken
  have hkeep {u : StreamSession} (hrs : u.reset = t.reset) (hlc : u.localClosed = t.localClosed)
      (hrc : u.remoteClosed = t.remoteClosed) : u.settle = some u :=
    StreamSession.settle_of_half (hrs.trans hlive) (by rwa [hlc,hrc])
  have hquiet {u : StreamSession} (hd : f.kind ≠ .data) (hrs : u.reset = t.reset)
      (hlc : u.localClosed = t.localClosed) (hrc : u.remoteClosed = t.remoteClosed) :
      Carries mine u.settle rest back p := by
    rw [hkeep hrs hlc hrc]
    refine h.takeQuiet (Or.inl hd) (by rintro ⟨⟩) ?_
    rintro _ ⟨⟩
    exact ⟨hrc.trans hended,hbroken⟩
  generalize hk : f.kind = kind at hr
  cases hr with
  | openAck hrole hh => exact ⟨p,.nil,hquiet (by simp [hk]) rfl rfl rfl⟩
  | credit hh => exact ⟨p,.nil,hquiet (by simp [hk]) rfl rfl rfl⟩
  | closeAck hl => exact ⟨p,.nil,hquiet (by simp [hk]) rfl rfl rfl⟩
  | data next hh hc hseq hw hn =>
    rw [payloads_cons,if_pos hk] at hqueue
    refine ⟨_,.cons (.read hqueue) .nil,?_⟩
    rw [hkeep (u:={t with recvWindowRemaining := t.recvWindowRemaining-1,recvSeq := next}) rfl rfl rfl]
    constructor
    · exact fun _ => rfl
    · rintro ⟨⟩
    · exact h.writer
    · rintro _ ⟨⟩
      exact ⟨hended,hbroken⟩
    · exact fun ht => h.closing (by rw [tally_cons]; omega)
    · exact h.last_tail
    · exact h.reset
    · exact fun ht => h.offered (by rw [tally_cons]; omega)
    · exact h.asked
  | close hh hc =>
    -- everything written came before the CLOSE
    have hlast : payloads rest = [] := h.last [] f rest rfl (Or.inl hk)
    have hempty : p.queue = [] := by rw [hqueue,payloads_cons,if_neg (by simp [hk]),hlast]
    have hfin : p.finished = true := h.closing (by simp [hk])
    refine ⟨_,.cons (.eof hfin (hended ▸ hc) hbroken hempty) .nil,?_⟩
    constructor
    · exact fun _ => hempty.trans hlast.symm
    · exact fun _ => hempty
    · exact h.writer
    · intro u hu
      rw [StreamSession.settle_eq] at hu
      split at hu
      · cases hu
      · cases hu
        exact ⟨rfl,hbroken⟩
    · exact fun ht => h.closing (by rw [tally_cons]; omega)
    · exact h.last_tail
    · exact h.reset
    · intro ht
      omega
    · exact h.asked
  | reset => exact absurd hk hreset

/-- The reader takes a frame. -/
theorem takes {full : Bool} {reaction : Reaction} {reply : List Frame}
    (h : Carries mine theirs (f::rest) back p) (hp : Paired mine theirs (f::rest) back)
    (hr : Receives theirs full f.header f.payload f.kind reaction after)
    (hreply : reaction.Replies reply) :
    ∃ p', p.Moves reaction.read? p' ∧ Carries mine after rest (back++reply) p' := by
  have hfirst : tally .open rest = 0 := hp.left.first
  have hleaves (g : Frame) (hg : g.kind = .reset) :
      ∃ p', Pipe.Step p .hangUp p' ∧ Carries mine none rest (back++[g]) p' := by
    refine h.hangUp hfirst ?_ (by simp [hg]) h.last_tail
    rw [tally_cons]
    omega
  have hno : ∀ t, theirs = some t → f.kind ≠ .open := by
    rintro t rfl ho
    cases (hp.left.offered f rest rfl ho).1
  generalize hk : f.kind = kind at hr
  cases hr with
  | peerReset hs =>
    cases hreply
    rw [List.append_nil]
    refine ⟨p,.nil,h.takeQuiet (Or.inl (by simp [hk])) (fun _ => ?_) (by rintro _ ⟨⟩)⟩
    rw [h.queue (h.reader _ hs).2,payloads_cons,if_neg (by simp [hk])]
    exact h.last [] f rest rfl (Or.inr hk)
  | strayReset cause hs =>
    cases hreply
    rw [List.append_nil]
    exact ⟨p,.nil,h.takeQuiet (Or.inl (by simp [hk])) (fun _ => h.unread hs) (by rintro _ ⟨⟩)⟩
  | reopened cause hs => exact absurd hk (hno _ hs)
  | refused cause hs hfull =>
    obtain ⟨g,rfl,hg⟩ := hreply
    obtain ⟨p',hstep,hcar⟩ := hleaves g hg
    exact ⟨p',.cons hstep .nil,hcar⟩
  | opened hs hfull =>
    cases hreply
    rw [List.append_nil]
    have hoffer := h.offered (by simp [hk])
    refine ⟨p,.nil,h.takeQuiet (Or.inl (by simp [hk])) (by rintro ⟨⟩) ?_⟩
    rintro _ ⟨⟩
    exact ⟨hoffer.1.symm,hoffer.2⟩
  | stray cause hs hreset ho =>
    cases hreply
    rw [List.append_nil]
    have hunread := h.unread hs
    refine ⟨p,.nil,h.takeQuiet ?_ (fun _ => hunread) (by rintro _ ⟨⟩)⟩
    -- DATA finds no session only where the reader has hung up
    by_cases hd : f.kind = .data
    · right
      by_contra hb
      have hqueue := h.queue (by simpa using hb)
      rw [hunread,payloads_cons,if_pos hd] at hqueue
      cases hqueue
    · exact Or.inl hd
  | violated cause hs hreset ho hnot =>
    obtain ⟨g,rfl,hg⟩ := hreply
    obtain ⟨p',hstep,hcar⟩ := hleaves g hg
    exact ⟨p',.cons hstep .nil,hcar⟩
  | @accepted t t' _ a hs hreset hlive hrecv =>
    subst hs
    cases hreply
    rw [List.append_nil]
    rw [← hk] at hreset hrecv
    exact h.accepts hfirst (hp.right.alive t rfl).2 hreset hlive hrecv

end Carries

namespace StreamPair
variable {σ : StreamPair} {ls : List Label}

theorem OrderedRun.idle (h : OrderedRun empty ls σ) (hn : opened ls = 0) : ls = [] := by
  cases h with
  | nil => rfl
  | @snoc front σ₁ σ l hr hs =>
    rw [opened_append] at hn
    obtain rfl := hr.unopened (by omega)
    cases hs with
    | @sent x r f after failed hsend hkind hpayload =>
      generalize hslot : empty.slot x = slot at hsend
      generalize f.header = hdr at hsend
      cases hsend with
      | «open» w => cases x <;> simp [opened,opens,Label.opens,Request.kind] at hn
      | live hs => cases hslot
    | received hflight hrecv hreply => cases hflight
    | skipped hflight hk hbig => cases hflight

/-- Opened once at most, and no DATA passed over: what the labels tell of the writer `x` and its
reader is a run of a pipe, and the DATA under way is its queue. -/
theorem OrderedRun.carries (h : OrderedRun empty ls σ) (x : Side) (honce : opened ls ≤ 1)
    (hlost : .lost ∉ ls) : ∃ p, Pipe.Run (ls.filterMap (Label.piped? x)) p ∧
      Carries (σ.slot x) (σ.slot x.other) (σ.flight x) (σ.flight x.other) p := by
  induction h with
  | nil => exact ⟨.new,.nil,.new⟩
  | @snoc ls σ σ' l hr hs ih =>
    rw [opened_append] at honce
    have hagreed := hr.agreed (by omega)
    obtain ⟨p,hrun,hcar⟩ := ih (by omega) (fun hmem => hlost (by simp [hmem]))
    have hq : p.ended = true ∨ p.broken = true → p.queue = [] := hrun.accounts.queue_eq_nil
    -- the first OPEN finds nothing
    have hfresh : opened [l] ≠ 0 → p = .new ∧ σ = empty := by
      intro hl
      have hnil := hr.idle (by omega)
      rw [hnil] at hrun
      cases hrun
      exact ⟨rfl,hr.unopened (by omega)⟩
    suffices hstep : ∃ p', p.Moves (l.piped? x) p' ∧
        Carries (σ'.slot x) (σ'.slot x.other) (σ'.flight x) (σ'.flight x.other) p' by
      obtain ⟨p',hmoves,hcar'⟩ := hstep
      refine ⟨p',?_,hcar'⟩
      rw [Lists.filterMap_snoc]
      exact hrun.append hmoves
    cases hs with
    | @sent y r f after failed hsend hkind hpayload =>
      have hopen : r.kind = .open → p = .new ∧ σ = empty := by
        intro hk
        exact hfresh (by cases y <;> simp [opened,opens,Label.opens,hk])
      rcases Side.eq_or_other x y with rfl | rfl
      · obtain ⟨p',hmoves,hcar'⟩ := hcar.sends (hagreed x) hsend hkind hpayload (fun hk => by
          obtain ⟨hp,rfl⟩ := hopen hk
          exact ⟨hp,rfl,rfl,rfl⟩)
        exact ⟨p',by simpa [Label.piped?] using hmoves,by simpa using hcar'⟩
      · have hagree := hagreed y.other
        rw [Side.other_other] at hcar hagree ⊢
        obtain ⟨p',hmoves,hcar'⟩ := hcar.answers (f:=f) hagree hq hsend hkind (fun hk => by
          obtain ⟨hp,rfl⟩ := hopen hk
          exact ⟨hp,rfl,rfl,rfl⟩)
        exact ⟨p',by simpa [Label.piped?] using hmoves,by simpa using hcar'⟩
    | @received y f full reaction slot rest reply hflight hrecv hreply =>
      rcases Side.eq_or_other x y with rfl | rfl
      · rw [hflight] at hcar
        refine ⟨p,?_,by simpa using hcar.hears hrecv hreply⟩
        rw [show (Label.received x (σ.slot x) f reaction).piped? x = none from if_pos rfl]
        exact .nil
      · have hagree := hagreed y.other
        rw [Side.other_other] at hcar hagree ⊢
        rw [hflight] at hcar hagree
        obtain ⟨p',hmoves,hcar'⟩ := hcar.takes hagree hrecv hreply
        exact ⟨p',by simpa [Label.piped?] using hmoves,by simpa using hcar'⟩
    | skipped hflight hk hbig => exact absurd (by simp) hlost

end StreamPair
end DigMessage
