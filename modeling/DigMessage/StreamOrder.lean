import DigMessage.StreamPair

/-! One stream over channels that lose nothing and keep the order of frames: only the head of
a flight can be taken, and what a side answers is always sent. -/
namespace DigMessage

/-- The frames an answer puts on its way: the RESET, and nothing otherwise. -/
def Reaction.Replies (reaction : Reaction) (reply : List Frame) : Prop :=
  match reaction with
  | .reset _ => ∃ g : Frame, reply = [g] ∧ g.kind = .reset
  | _ => reply = []

namespace StreamPair

/-- A step over ordered channels. A DATA frame past the decompression cap is passed over by
its receiver. -/
inductive Ordered : StreamPair → Label → StreamPair → Prop
  | sent {σ : StreamPair} {x : Side} {r : Request} {f : Frame} {after failed : Option StreamSession} :
      Sends (σ.slot x) r f.header after failed → f.kind = r.kind → f.payload = r.payload →
      Ordered σ (.sent x r f)
        ⟨Function.update σ.slot x after,Function.update σ.flight x (σ.flight x++[f])⟩
  | received {σ : StreamPair} {y : Side} {f : Frame} {full : Bool} {reaction : Reaction}
      {slot : Option StreamSession} {rest reply : List Frame} : σ.flight y.other = f::rest →
      Receives (σ.slot y) full f.header f.payload f.kind reaction slot → reaction.Replies reply →
      Ordered σ (.received y (σ.slot y) f reaction) ⟨Function.update σ.slot y slot,
        Function.update (Function.update σ.flight y.other rest) y (σ.flight y++reply)⟩
  | skipped {σ : StreamPair} {y : Side} {f : Frame} {rest : List Frame} :
      σ.flight y.other = f::rest → f.kind = .data → maxDecompressedBytes < f.payload.length →
      Ordered σ .lost ⟨σ.slot,Function.update σ.flight y.other rest⟩

inductive OrderedRun (σ₀ : StreamPair) : List Label → StreamPair → Prop
  | nil : OrderedRun σ₀ [] σ₀
  | snoc {ls : List Label} {σ σ' : StreamPair} {l : Label} : OrderedRun σ₀ ls σ → Ordered σ l σ' →
      OrderedRun σ₀ (ls++[l]) σ'

def empty : StreamPair := ⟨fun _ => none,fun _ => []⟩

end StreamPair

def tally (k : StreamFrame) (fs : List Frame) : ℕ := fs.countP fun f => f.kind = k

@[simp] theorem tally_nil (k : StreamFrame) : tally k [] = 0 := rfl

@[simp] theorem tally_cons (k : StreamFrame) (f : Frame) (fs : List Frame) :
    tally k (f::fs) = tally k fs+if f.kind = k then 1 else 0 := by simp [tally,List.countP_cons]

@[simp] theorem tally_append (k : StreamFrame) (fs gs : List Frame) :
    tally k (fs++gs) = tally k fs+tally k gs := List.countP_append

theorem tally_of_cons {k : StreamFrame} {f : Frame} {fs : List Frame} (h : tally k (f::fs) = 0) :
    tally k fs = 0 := by
  rw [tally_cons] at h
  exact (Nat.add_eq_zero_iff.mp h).1

def Handshake.toNat : Handshake → ℕ
  | .opening => 0
  | .established => 1

/-- How the slot and the flight of one side stand to those of the other. -/
structure Agree (mine theirs : Option StreamSession) (out back : List Frame) : Prop where
  alive : ∀ s, mine = some s → s.reset = false ∧ (s.localClosed = true → s.remoteClosed = false)
  /-- Who sent a RESET holds nothing. -/
  gone : ∀ s, mine = some s → tally .reset out = 0
  roles : ∀ s t, mine = some s → theirs = some t → s.role ≠ t.role
  acks : ∀ s t, mine = some s → theirs = some t → s.role = .initiator →
    t.handshake.toNat = s.handshake.toNat+tally .openAck back
  closes : ∀ s t, mine = some s → theirs = some t →
    s.localClosed.toNat = t.remoteClosed.toNat+tally .close out
  once : ∀ t, theirs = some t → t.remoteClosed.toNat+tally .close out ≤ 1
  /-- A session without a counterpart has its end, or its OPEN, on the way. -/
  ended : ∀ s, mine = some s → theirs = none →
    0 < tally .open out+tally .reset back+tally .close back*s.localClosed.toNat
  /-- An OPEN is the first frame of its stream. -/
  first : tally .open out.tail = 0
  /-- While it is on its way, its receiver has sent nothing. -/
  offered : ∀ f rest, out = f::rest → f.kind = .open → theirs = none ∧ back = [] ∧
    tally .close rest ≤ 1 ∧ (mine = none → 0 < tally .reset rest) ∧ ∀ s, mine = some s →
      s.role = .initiator ∧ s.handshake = .opening ∧ s.remoteClosed = false ∧
      s.localClosed.toNat = tally .close rest

structure Paired (mine theirs : Option StreamSession) (out back : List Frame) : Prop where
  left : Agree mine theirs out back
  right : Agree theirs mine back out

theorem Paired.symm {mine theirs : Option StreamSession} {out back : List Frame}
    (h : Paired mine theirs out back) : Paired theirs mine back out := ⟨h.right,h.left⟩

theorem Paired.empty : Paired none none [] [] := by
  constructor <;> constructor <;> simp

/-- The parts of a session that its end and its agreement depend on. -/
structure StreamSession.Alike (s s' : StreamSession) : Prop where
  role : s'.role = s.role
  handshake : s'.handshake = s.handshake
  localClosed : s'.localClosed = s.localClosed
  remoteClosed : s'.remoteClosed = s.remoteClosed
  reset : s'.reset = s.reset

namespace StreamSession

theorem settle_of_both {s : StreamSession} (hl : s.localClosed = true) (hr : s.remoteClosed = true) :
    s.settle = none := by simp [settle_eq,hl,hr]

theorem settle_of_half {s : StreamSession} (h : s.reset = false)
    (hh : s.localClosed = true → s.remoteClosed = false) : s.settle = some s := by
  rw [settle_eq,if_neg]
  simpa [h] using hh

end StreamSession

theorem Agree.absent {theirs : Option StreamSession} {out back : List Frame}
    (once : ∀ t, theirs = some t → t.remoteClosed.toNat+tally .close out ≤ 1)
    (first : tally .open out.tail = 0)
    (offered : ∀ f rest, out = f::rest → f.kind = .open → theirs = none ∧ back = [] ∧
      tally .close rest ≤ 1 ∧ 0 < tally .reset rest) : Agree none theirs out back := by
  constructor
  · rintro _ ⟨⟩
  · rintro _ ⟨⟩
  · rintro _ _ ⟨⟩
  · rintro _ _ ⟨⟩
  · rintro _ _ ⟨⟩
  · exact once
  · rintro _ ⟨⟩
  · exact first
  · intro f rest hout hf
    obtain ⟨h₁,h₂,h₃,h₄⟩ := offered f rest hout hf
    refine ⟨h₁,h₂,h₃,fun _ => h₄,?_⟩
    rintro _ ⟨⟩

theorem Agree.alone {s : StreamSession} {out back : List Frame}
    (alive : s.reset = false ∧ (s.localClosed = true → s.remoteClosed = false))
    (gone : tally .reset out = 0)
    (ended : 0 < tally .open out+tally .reset back+tally .close back*s.localClosed.toNat)
    (first : tally .open out.tail = 0)
    (offered : ∀ f rest, out = f::rest → f.kind = .open → back = [] ∧ tally .close rest ≤ 1 ∧
      s.role = .initiator ∧ s.handshake = .opening ∧ s.remoteClosed = false ∧
      s.localClosed.toNat = tally .close rest) : Agree (some s) none out back := by
  constructor
  · rintro _ ⟨⟩
    exact alive
  · rintro _ ⟨⟩
    exact gone
  · rintro _ _ - ⟨⟩
  · rintro _ _ - ⟨⟩
  · rintro _ _ - ⟨⟩
  · rintro _ ⟨⟩
  · rintro _ ⟨⟩ -
    exact ended
  · exact first
  · intro f rest hout hf
    obtain ⟨h₁,h₂,h₃⟩ := offered f rest hout hf
    refine ⟨rfl,h₁,h₂,?_,?_⟩
    · rintro ⟨⟩
    · rintro _ ⟨⟩
      exact h₃

theorem tally_open_tail {fs : List Frame} (h : tally .open fs = 0) : tally .open fs.tail = 0 := by
  cases fs with
  | nil => rfl
  | cons g gs => exact tally_of_cons h

theorem tally_open_head {fs gs : List Frame} {g : Frame} (h : tally .open fs = 0) (hfs : fs = g::gs) :
    g.kind ≠ .open := by
  rw [hfs,tally_cons] at h
  intro hg
  simp [hg] at h

theorem tally_open_snoc {fs : List Frame} {f : Frame} (h : tally .open fs.tail = 0)
    (hf : f.kind ≠ .open) : tally .open (fs++[f]).tail = 0 := by
  cases fs with
  | nil => rfl
  | cons g gs => simpa [hf] using h

theorem snoc_eq_cons {fs gs : List Frame} {f g : Frame} (h : fs++[f] = g::gs) (hf : f.kind ≠ .open)
    (hg : g.kind = .open) : ∃ rest, fs = g::rest ∧ gs = rest++[f] := by
  rcases List.append_eq_cons_iff.mp h with ⟨rfl,hsingle⟩ | hrest
  · obtain ⟨rfl,-⟩ := List.cons.inj hsingle
    exact absurd hg hf
  · exact hrest

structure StreamSession.Sending (s s' : StreamSession) (k : StreamFrame) : Prop where
  role : s'.role = s.role
  reset : s'.reset = s.reset
  alive : s'.localClosed = true → s'.remoteClosed = false
  asked : s.role = .initiator → s'.handshake = s.handshake
  answered : s.role ≠ .initiator →
    s'.handshake.toNat = s.handshake.toNat+if k = .openAck then 1 else 0
  localClosed : s'.localClosed.toNat = s.localClosed.toNat+if k = .close then 1 else 0
  remoteClosed : s'.remoteClosed = s.remoteClosed
  kind : k ≠ .open ∧ k ≠ .reset

structure StreamSession.Taking (s s' : StreamSession) (k : StreamFrame) : Prop where
  role : s'.role = s.role
  reset : s'.reset = s.reset
  alive : s'.localClosed = true → s'.remoteClosed = false
  asked : s.role = .initiator →
    s'.handshake.toNat = s.handshake.toNat+if k = .openAck then 1 else 0
  answered : s.role ≠ .initiator → s'.handshake = s.handshake
  localClosed : s'.localClosed = s.localClosed
  remoteClosed : s'.remoteClosed.toNat = s.remoteClosed.toNat+if k = .close then 1 else 0
  kind : k ≠ .reset

namespace Agree
variable {s s' : StreamSession} {mine theirs : Option StreamSession} {out back rest : List Frame}
  {f : Frame}

theorem sending (h : Agree (some s) theirs out back) (hs : s.Sending s' f.kind) :
    Agree (some s') theirs (out++[f]) back := by
  obtain ⟨hopen,hreset⟩ := hs.kind
  have hclose : tally .close (out++[f]) = tally .close out+if f.kind = .close then 1 else 0 := by
    simp
  constructor
  · rintro _ ⟨⟩
    exact ⟨hs.reset.trans (h.alive s rfl).1,hs.alive⟩
  · rintro _ ⟨⟩
    simp [h.gone s rfl,hreset]
  · rintro _ t ⟨⟩ ht
    rw [hs.role]
    exact h.roles s t rfl ht
  · rintro _ t ⟨⟩ ht hr
    rw [hs.role] at hr
    rw [hs.asked hr]
    exact h.acks s t rfl ht hr
  · rintro _ t ⟨⟩ ht
    rw [hs.localClosed,hclose,h.closes s t rfl ht,Nat.add_assoc]
  · intro t ht
    have hcloses := h.closes s t rfl ht
    have hlocal := hs.localClosed
    have hle := s'.localClosed.toNat_le
    omega
  · rintro _ ⟨⟩ ht
    have hended := h.ended s rfl ht
    have hle : tally .close back*s.localClosed.toNat ≤ tally .close back*s'.localClosed.toNat :=
      Nat.mul_le_mul_left _ (by have := hs.localClosed; omega)
    simp only [tally_append]
    omega
  · exact tally_open_snoc h.first hopen
  · intro g gs hout hg
    obtain ⟨rest,hrest,rfl⟩ := snoc_eq_cons hout hopen hg
    obtain ⟨hnone,hback,-,-,hoffer⟩ := h.offered g rest hrest hg
    obtain ⟨hrole,hopening,hremote,hlocal⟩ := hoffer s rfl
    have hclose' : s'.localClosed.toNat = tally .close (rest++[f]) := by
      rw [hs.localClosed,hlocal]
      simp
    refine ⟨hnone,hback,hclose' ▸ s'.localClosed.toNat_le,nofun,?_⟩
    rintro _ ⟨⟩
    exact ⟨hs.role.trans hrole,(hs.asked hrole).trans hopening,hs.remoteClosed.trans hremote,hclose'⟩

theorem addressed (h : Agree mine (some s) out back) (hs : s.Sending s' f.kind) :
    Agree mine (some s') out (back++[f]) := by
  constructor
  · exact h.alive
  · exact h.gone
  · rintro t _ ht ⟨⟩
    rw [hs.role]
    exact h.roles t s ht rfl
  · rintro t _ ht ⟨⟩ hr
    have hrole : s.role ≠ .initiator := fun hs => h.roles t s ht rfl (hr.trans hs.symm)
    rw [hs.answered hrole,h.acks t s ht rfl hr]
    simp [Nat.add_assoc]
  · rintro t _ ht ⟨⟩
    rw [hs.remoteClosed]
    exact h.closes t s ht rfl
  · rintro _ ⟨⟩
    rw [hs.remoteClosed]
    exact h.once s rfl
  · rintro _ _ ⟨⟩
  · exact h.first
  · intro g gs hout hg
    cases (h.offered g gs hout hg).1

theorem taking (h : Agree (some s) theirs out (f::rest)) (hs : s.Taking s' f.kind) :
    Agree (some s') theirs out rest := by
  constructor
  · rintro _ ⟨⟩
    exact ⟨hs.reset.trans (h.alive s rfl).1,hs.alive⟩
  · rintro _ ⟨⟩
    exact h.gone s rfl
  · rintro _ t ⟨⟩ ht
    rw [hs.role]
    exact h.roles s t rfl ht
  · rintro _ t ⟨⟩ ht hr
    rw [hs.role] at hr
    rw [hs.asked hr,h.acks s t rfl ht hr,tally_cons]
    omega
  · rintro _ t ⟨⟩ ht
    rw [hs.localClosed]
    exact h.closes s t rfl ht
  · exact h.once
  · rintro _ ⟨⟩ ht
    have hended := h.ended s rfl ht
    -- a session that has taken the CLOSE has not closed its own direction
    have hclose : f.kind = .close → s.localClosed = false := by
      intro hk
      have hremote := hs.remoteClosed
      rw [if_pos hk] at hremote
      have hne : s'.remoteClosed ≠ false := by
        intro hr
        simp [hr] at hremote
      rw [← hs.localClosed]
      exact Bool.eq_false_iff.mpr fun hl => hne (hs.alive hl)
    rw [hs.localClosed]
    by_cases hk : f.kind = .close
    · simpa [tally_cons,hclose hk,hs.kind] using hended
    · simpa [tally_cons,hk,hs.kind] using hended
  · exact h.first
  · intro g gs hout hg
    cases (h.offered g gs hout hg).2.1

theorem taken (h : Agree mine (some s) (f::rest) back) (hs : s.Taking s' f.kind) :
    Agree mine (some s') rest back := by
  constructor
  · exact h.alive
  · exact fun t ht => tally_of_cons (h.gone t ht)
  · rintro t _ ht ⟨⟩
    rw [hs.role]
    exact h.roles t s ht rfl
  · rintro t _ ht ⟨⟩ hr
    have hrole : s.role ≠ .initiator := fun hs => h.roles t s ht rfl (hr.trans hs.symm)
    rw [hs.answered hrole]
    exact h.acks t s ht rfl hr
  · rintro t _ ht ⟨⟩
    rw [hs.remoteClosed,h.closes t s ht rfl,tally_cons]
    omega
  · rintro _ ⟨⟩
    have honce := h.once s rfl
    rw [tally_cons] at honce
    rw [hs.remoteClosed]
    omega
  · rintro _ _ ⟨⟩
  · exact tally_open_tail h.first
  · intro g gs hrest hg
    exact absurd hg (tally_open_head h.first hrest)

theorem leaving (h : Agree (some s) theirs out back) (hf : f.kind = .reset) :
    Agree none theirs (out++[f]) back := by
  apply absent
  · simpa [hf] using h.once
  · exact tally_open_snoc h.first (by simp [hf])
  · intro g gs hout hg
    obtain ⟨rest,hrest,rfl⟩ := snoc_eq_cons hout (by simp [hf]) hg
    obtain ⟨hnone,hback,hclose,-,-⟩ := h.offered g rest hrest hg
    exact ⟨hnone,hback,by simpa [hf] using hclose,by simp [hf]⟩

theorem left_alone (h : Agree mine (some s) out back)
    (hended : ∀ t, mine = some t → 0 < tally .reset (back++[f])+
      tally .close (back++[f])*t.localClosed.toNat) : Agree mine none out (back++[f]) := by
  have hoffered : ∀ g gs, out = g::gs → g.kind ≠ .open := by
    intro g gs hout hg
    cases (h.offered g gs hout hg).1
  cases mine with
  | none =>
    apply absent
    · rintro _ ⟨⟩
    · exact h.first
    · exact fun g gs hout hg => absurd hg (hoffered g gs hout)
  | some t =>
    apply alone
    · exact h.alive t rfl
    · exact h.gone t rfl
    · have := hended t rfl
      omega
    · exact h.first
    · exact fun g gs hout hg => absurd hg (hoffered g gs hout)

theorem freed (h : Agree mine theirs out (f::rest)) : Agree none theirs out rest := by
  apply absent
  · exact h.once
  · exact h.first
  · intro g gs hout hg
    cases (h.offered g gs hout hg).2.1

theorem outlives (h : Agree mine theirs (f::rest) out)
    (hended : ∀ t, mine = some t → 0 < tally .reset back+tally .close back*t.localClosed.toNat) :
    Agree mine none rest back := by
  have hoffered : ∀ g gs, rest = g::gs → g.kind ≠ .open :=
    fun g gs hrest => tally_open_head h.first hrest
  cases mine with
  | none =>
    apply absent
    · rintro _ ⟨⟩
    · exact tally_open_tail h.first
    · exact fun g gs hrest hg => absurd hg (hoffered g gs hrest)
  | some t =>
    apply alone
    · exact h.alive t rfl
    · exact tally_of_cons (h.gone t rfl)
    · have := hended t rfl
      omega
    · exact tally_open_tail h.first
    · exact fun g gs hrest hg => absurd hg (hoffered g gs hrest)

end Agree

namespace StreamSession.Alike
variable {s s' : StreamSession} {k : StreamFrame}

theorem sending (h : s.Alike s') (hs : s.localClosed = true → s.remoteClosed = false)
    (hk : k = .data ∨ k = .credit) : s.Sending s' k := by
  obtain ⟨hrole,hshake,hlocal,hremote,hreset⟩ := h
  rcases hk with rfl | rfl <;>
    exact ⟨hrole,hreset,by rwa [hlocal,hremote],fun _ => hshake,fun _ => by simp [hshake],
      by simp [hlocal],hremote,by decide⟩

theorem taking (h : s.Alike s') (hs : s.localClosed = true → s.remoteClosed = false)
    (hk : k = .data ∨ k = .credit ∨ k = .closeAck) : s.Taking s' k := by
  obtain ⟨hrole,hshake,hlocal,hremote,hreset⟩ := h
  rcases hk with rfl | rfl | rfl <;>
    exact ⟨hrole,hreset,by rwa [hlocal,hremote],fun _ => by simp [hshake],fun _ => hshake,hlocal,
      by simp [hremote],by decide⟩

end StreamSession.Alike

namespace Paired
variable {s s' : StreamSession} {mine theirs : Option StreamSession} {out back rest : List Frame}
  {f : Frame}

theorem sent (h : Paired (some s) theirs out back) (hs : s.Sending s' f.kind) :
    Paired (some s') theirs (out++[f]) back := ⟨h.left.sending hs,h.right.addressed hs⟩

theorem took (h : Paired (some s) theirs out (f::rest)) (hs : s.Taking s' f.kind) :
    Paired (some s') theirs out rest := ⟨h.left.taking hs,h.right.taken hs⟩

theorem sendQuiet (h : Paired (some s) theirs out back) (hs : s.Alike s')
    (hf : f.kind = .data ∨ f.kind = .credit) : Paired (some s') theirs (out++[f]) back :=
  h.sent (hs.sending (h.left.alive s rfl).2 hf)

theorem sendOpenAck (h : Paired (some s) theirs out back) (hrole : s.role = .responder)
    (hh : s.handshake = .opening) (w : UInt64) (hf : f.kind = .openAck) :
    Paired (some {s with handshake := .established,recvWindowRemaining := w}) theirs (out++[f])
      back := by
  apply h.sent
  rw [hf]
  constructor
  · rfl
  · rfl
  · exact (h.left.alive s rfl).2
  · simp [hrole]
  · simp [hh,Handshake.toNat]
  · rfl
  · rfl
  · decide

theorem sendReset (h : Paired (some s) theirs out back) (hf : f.kind = .reset) :
    Paired none theirs (out++[f]) back :=
  ⟨h.left.leaving hf,h.right.left_alone fun t ht => by simp [hf]⟩

theorem sendClose (h : Paired (some s) theirs out back) (hl : s.localClosed = false)
    (hf : f.kind = .close) :
    Paired ({s with localClosed := true} : StreamSession).settle theirs (out++[f]) back := by
  have halive := h.left.alive s rfl
  rcases Bool.eq_false_or_eq_true s.remoteClosed with hr | hr
  · rw [StreamSession.settle_of_both (s:={s with localClosed := true}) rfl hr]
    constructor
    · apply Agree.absent
      · intro t ht
        have hcloses := h.left.closes s t rfl ht
        have hle := t.remoteClosed.toNat_le
        rw [hl,Bool.toNat_false] at hcloses
        rw [tally_append,tally_cons,tally_nil,if_pos hf]
        omega
      · exact tally_open_snoc h.left.first (by simp [hf])
      · intro g gs hout hg
        obtain ⟨rest,hrest,-⟩ := snoc_eq_cons hout (by simp [hf]) hg
        have hremote := ((h.left.offered g rest hrest hg).2.2.2.2 s rfl).2.2.1
        simp [hr] at hremote
    · refine h.right.left_alone fun t ht => ?_
      have hcloses := h.right.closes t s ht rfl
      have hlocal : t.localClosed = true := by
        rw [hr,Bool.toNat_true] at hcloses
        cases hlocal : t.localClosed with
        | true => rfl
        | false =>
          rw [hlocal,Bool.toNat_false] at hcloses
          omega
      simp [hf,hlocal]
  · rw [StreamSession.settle_of_half (s:={s with localClosed := true}) halive.1 fun _ => hr]
    apply h.sent
    rw [hf]
    constructor
    · rfl
    · rfl
    · exact fun _ => hr
    · exact fun _ => rfl
    · simp
    · simp [hl]
    · rfl
    · decide

theorem sendOpen (w : UInt32) (hf : f.kind = .open) :
    Paired (some (.initiator w)) none [f] [] := by
  constructor
  · apply Agree.alone <;> simp [StreamSession.initiator,hf]
  · apply Agree.absent <;> simp [StreamSession.initiator]

theorem receiveQuiet (h : Paired (some s) theirs out (f::rest)) (hs : s.Alike s')
    (hf : f.kind = .data ∨ f.kind = .credit ∨ f.kind = .closeAck) :
    Paired (some s') theirs out rest := h.took (hs.taking (h.left.alive s rfl).2 hf)

theorem receiveOpenAck (h : Paired (some s) theirs out (f::rest)) (hrole : s.role = .initiator)
    (hh : s.handshake = .opening) (n : UInt64) (hf : f.kind = .openAck) :
    Paired (some {s with handshake := .established,sendCredit := n}) theirs out rest := by
  apply h.took
  rw [hf]
  constructor
  · rfl
  · rfl
  · exact (h.left.alive s rfl).2
  · simp [hh,Handshake.toNat]
  · simp [hrole]
  · rfl
  · rfl
  · decide

theorem receiveClose (h : Paired (some s) theirs out (f::rest)) (hr : s.remoteClosed = false)
    (hf : f.kind = .close) :
    Paired ({s with remoteClosed := true} : StreamSession).settle theirs out rest := by
  have halive := h.left.alive s rfl
  rcases Bool.eq_false_or_eq_true s.localClosed with hl | hl
  · rw [StreamSession.settle_of_both (s:={s with remoteClosed := true}) hl rfl]
    refine ⟨h.left.freed,h.right.outlives fun t ht => ?_⟩
    -- the CLOSE came from a session that is closed too, and our own is on its way to it
    have hc := h.right.closes t s ht rfl
    have hlive := h.right.alive t ht
    have htl : t.localClosed = true := by
      cases htl : t.localClosed <;> simp_all
    have hout : tally .close out = 1 := by
      have hc' := h.left.closes s t rfl ht
      simp only [hl,hlive.2 htl,Bool.toNat_true,Bool.toNat_false] at hc'
      omega
    simp [hout,htl]
  · rw [StreamSession.settle_of_half (s:={s with remoteClosed := true}) halive.1
      fun hl' => by rw [hl] at hl'; cases hl']
    apply h.took
    rw [hf]
    constructor
    · rfl
    · rfl
    · simp [hl]
    · simp
    · exact fun _ => rfl
    · rfl
    · simp [hr]
    · decide

theorem receiveReset (h : Paired (some s) theirs out (f::rest)) (hf : f.kind = .reset) :
    Paired none theirs out rest := by
  refine ⟨h.left.freed,h.right.outlives fun t ht => ?_⟩
  have hgone := h.right.gone t ht
  simp [hf] at hgone

theorem receiveStray (h : Paired none theirs out (f::rest)) (hf : f.kind ≠ .open) :
    Paired none theirs out rest := by
  refine ⟨h.left.freed,h.right.outlives fun t ht => ?_⟩
  have hended := h.right.ended t ht rfl
  have hfirst := h.right.first
  rw [List.tail_cons] at hfirst
  rw [tally_cons,hfirst,if_neg hf] at hended
  omega

theorem receiveRefused {g : Frame} (h : Paired none theirs out (f::rest)) (hf : f.kind = .open)
    (hg : g.kind = .reset) : Paired none theirs (out++[g]) rest := by
  obtain ⟨-,rfl,hclose,hreset,hs⟩ := h.right.offered f rest rfl hf
  constructor
  · apply Agree.absent
    · intro t ht
      have := (hs t ht).2.2.1
      simp [this,hg]
    · simp
    · intro g' gs hout hg'
      simp only [List.nil_append,List.cons.injEq] at hout
      rw [← hout.1,hg] at hg'
      cases hg'
  · exact h.right.outlives fun t ht => by simp [hg]

theorem receiveOffer (h : Paired none theirs out (f::rest)) (hf : f.kind = .open) (w : UInt32) :
    Paired (some (.responder w)) theirs out rest := by
  obtain ⟨-,rfl,hclose,hreset,hs⟩ := h.right.offered f rest rfl hf
  constructor
  · constructor
    · simp [StreamSession.responder]
    · simp
    · rintro _ t ⟨⟩ ht
      simp [StreamSession.responder,(hs t ht).1]
    · rintro _ t ⟨⟩ - hr
      simp [StreamSession.responder] at hr
    · rintro _ t ⟨⟩ ht
      simp [StreamSession.responder,(hs t ht).2.2.1]
    · intro t ht
      simp [(hs t ht).2.2.1]
    · rintro _ - ht
      have := hreset ht
      omega
    · simp
    · simp
  · constructor
    · exact h.right.alive
    · exact fun t ht => tally_of_cons (h.right.gone t ht)
    · rintro t _ ht ⟨⟩
      simp [StreamSession.responder,(hs t ht).1]
    · rintro t _ ht ⟨⟩ -
      simp [StreamSession.responder,(hs t ht).2.1]
    · rintro t _ ht ⟨⟩
      simp [StreamSession.responder,(hs t ht).2.2.2]
    · rintro _ ⟨⟩
      simpa [StreamSession.responder] using hclose
    · rintro _ _ ⟨⟩
    · exact tally_open_tail h.right.first
    · exact fun g gs hrest hg => absurd hg (tally_open_head h.right.first hrest)

theorem receiveSkipped (h : Paired mine theirs out (f::rest)) (hf : f.kind = .data) :
    Paired mine theirs out rest := by
  cases mine with
  | none => exact h.receiveStray (by simp [hf])
  | some s => exact h.receiveQuiet ⟨rfl,rfl,rfl,rfl,rfl⟩ (Or.inl hf)

theorem sends {r : Request} {hdr : StreamHeader} {after failed : Option StreamSession}
    (h : Paired mine theirs out back) (hs : Sends mine r hdr after failed) (hf : f.kind = r.kind)
    (hopen : r.kind = .open → theirs = none ∧ out = [] ∧ back = []) :
    Paired after theirs (out++[f]) back := by
  cases hs with
  | «open» w =>
    obtain ⟨rfl,rfl,rfl⟩ := hopen rfl
    exact sendOpen w hf
  | live hsend =>
    cases hsend with
    | openAck w hrole hh => exact h.sendOpenAck hrole hh w.toUInt64 hf
    | sendData payload next hh hl hc hn => exact h.sendQuiet ⟨rfl,rfl,rfl,rfl,rfl⟩ (Or.inl hf)
    | grantCredit n hh => exact h.sendQuiet ⟨rfl,rfl,rfl,rfl,rfl⟩ (Or.inr hf)
    | close hl => exact h.sendClose hl hf
    | reset => exact h.sendReset hf

theorem receives {full : Bool} {hdr : StreamHeader} {payload : List UInt8} {reaction : Reaction}
    {slot : Option StreamSession} {reply : List Frame} (h : Paired mine theirs out (f::rest))
    (hr : Receives mine full hdr payload f.kind reaction slot) (hreply : reaction.Replies reply) :
    Paired slot theirs (out++reply) rest := by
  -- an OPEN meets no session
  have hno : ∀ s, mine = some s → f.kind ≠ .open := by
    intro s hs ho
    have hnone := (h.right.offered f rest rfl ho).1
    rw [hs] at hnone
    cases hnone
  generalize hk : f.kind = kind at hr
  cases hr with
  | peerReset hs =>
    subst hs
    cases hreply
    simpa using h.receiveReset hk
  | strayReset cause hs =>
    subst hs
    cases hreply
    simpa using h.receiveStray (by simp [hk])
  | stray cause hs hreset ho =>
    subst hs
    cases hreply
    simpa using h.receiveStray (by rwa [hk])
  | reopened cause hs => exact absurd hk (hno _ hs)
  | refused cause hs hfull =>
    subst hs
    obtain ⟨g,rfl,hg⟩ := hreply
    exact h.receiveRefused hk hg
  | opened hs hfull =>
    subst hs
    cases hreply
    simpa using h.receiveOffer hk hdr.window
  | violated cause hs hreset ho hnot =>
    subst hs
    obtain ⟨g,rfl,hg⟩ := hreply
    exact (h.sendReset hg).receiveStray (by rwa [hk])
  | accepted hs hreset halive hrecv =>
    subst hs
    cases hreply
    have hsettle {s' : StreamSession} (h' : Paired (some s') theirs out rest) :
        Paired s'.settle theirs (out++[]) rest := by
      rw [StreamSession.settle_of_half (h'.left.alive s' rfl).1 (h'.left.alive s' rfl).2]
      simpa using h'
    cases hrecv with
    | openAck hrole hh => exact hsettle (h.receiveOpenAck hrole hh hdr.window.toUInt64 hk)
    | data next hh hc hseq hw hn =>
      exact hsettle (h.receiveQuiet ⟨rfl,rfl,rfl,rfl,rfl⟩ (Or.inl hk))
    | credit hh => exact hsettle (h.receiveQuiet ⟨rfl,rfl,rfl,rfl,rfl⟩ (Or.inr (Or.inl hk)))
    | close hh hc => simpa using h.receiveClose hc hk
    | closeAck hl => exact hsettle (h.receiveQuiet ⟨rfl,rfl,rfl,rfl,rfl⟩ (Or.inr (Or.inr hk)))
    | reset => exact absurd rfl hreset

/-- A CLOSE is welcome where the session is established, and nowhere else. -/
theorem close_taken_iff {full : Bool} {hdr : StreamHeader} {payload : List UInt8}
    {reaction : Reaction} {slot : Option StreamSession} (h : Paired (some s) theirs out (f::rest))
    (hf : f.kind = .close) (hr : Receives (some s) full hdr payload .close reaction slot) :
    reaction = .event .remoteClosed ↔ s.handshake = .established := by
  have halive := (h.left.alive s rfl).1
  have honce := h.right.once s rfl
  have hopen : s.remoteClosed = false := by
    cases hc : s.remoteClosed <;> simp_all
  generalize hmine : some s = mine at hr
  cases hr with
  | stray cause hs hreset ho =>
    rw [hs] at hmine
    cases hmine
  | accepted hs hreset hlive hrecv =>
    rw [hs] at hmine
    cases hmine
    cases hrecv with
    | close hh hc => exact iff_of_true rfl hh
  | violated cause hs hreset ho hnot =>
    rw [hs] at hmine
    cases hmine
    refine iff_of_false nofun fun hh => ?_
    exact hnot _ _ halive (.close hh hopen)

end Paired

/-- The two ends of one stream at rest. -/
structure StreamSession.Ends (s t : StreamSession) : Prop where
  roles : s.role ≠ t.role
  handshake : s.handshake = t.handshake
  outgoing : s.localClosed = t.remoteClosed
  incoming : t.localClosed = s.remoteClosed
  live : s.state ≠ .closed ∧ t.state ≠ .closed

theorem StreamSession.state_ne_closed {s : StreamSession} (hr : s.reset = false)
    (hc : s.localClosed = true → s.remoteClosed = false) : s.state ≠ .closed := by
  have hsettle := settle_of_half hr hc
  intro h
  simp [settle,isClosed,h] at hsettle

/-- With nothing under way the slots are both free, or hold the two ends of the stream. -/
theorem Paired.at_rest {mine theirs : Option StreamSession} (h : Paired mine theirs [] []) :
    (mine = none ↔ theirs = none) ∧ ∀ s t, mine = some s → theirs = some t → s.Ends t := by
  obtain ⟨h₁,h₂⟩ := h
  have hlone {mine theirs : Option StreamSession} (h : Agree mine theirs [] []) (hn : theirs = none) :
      mine = none := by
    cases mine with
    | none => rfl
    | some s => have := h.ended s rfl hn; simp at this
  refine ⟨⟨hlone h₂,hlone h₁⟩,fun s t hs ht => ?_⟩
  have hroles := h₁.roles s t hs ht
  have hout := h₁.closes s t hs ht
  have hin := h₂.closes t s ht hs
  have hack := h₁.acks s t hs ht
  have hack' := h₂.acks t s ht hs
  simp only [tally_nil,Nat.add_zero] at hout hin hack hack'
  constructor
  · exact hroles
  · -- the initiator's OPEN_ACK has arrived, whichever side that is
    cases hr : s.role <;> cases ht : t.role <;> cases hh : s.handshake <;> cases hh' : t.handshake <;>
      simp_all [Handshake.toNat]
  · cases hl : s.localClosed <;> cases hc : t.remoteClosed <;> simp_all
  · cases hl : t.localClosed <;> cases hc : s.remoteClosed <;> simp_all
  · have hs := h₁.alive s hs
    have ht := h₂.alive t ht
    exact ⟨StreamSession.state_ne_closed hs.1 hs.2,StreamSession.state_ne_closed ht.1 ht.2⟩

theorem opened_append (xs ys : List Label) : opened (xs++ys) = opened xs+opened ys := by
  simp only [opened,opens,List.countP_append]
  omega

namespace StreamPair
variable {σ σ' : StreamPair} {ls : List Label} {l : Label}

def Agreed (σ : StreamPair) : Prop :=
  ∀ x, Paired (σ.slot x) (σ.slot x.other) (σ.flight x) (σ.flight x.other)

theorem agreed_of (x : Side) (h : Paired (σ.slot x) (σ.slot x.other) (σ.flight x) (σ.flight x.other)) :
    Agreed σ := by
  intro y
  rcases Side.eq_or_other y x with rfl | rfl
  · exact h
  · simpa using h.symm

theorem OrderedRun.unopened (h : OrderedRun empty ls σ) (hn : opened ls = 0) : σ = empty := by
  induction h with
  | nil => rfl
  | @snoc ls σ σ' l _ hs ih =>
    rw [opened_append] at hn
    obtain rfl := ih (by omega)
    cases hs with
    | @sent x r f after failed hsend hkind hpayload =>
      generalize hslot : empty.slot x = slot at hsend
      generalize f.header = hdr at hsend
      cases hsend with
      | «open» w => cases x <;> simp [opened,opens,Label.opens,Request.kind] at hn
      | live hs => cases hslot
    | received hflight hrecv hreply => cases hflight
    | skipped hflight hk hbig => cases hflight

theorem Agreed.step (h : Agreed σ) (hs : Ordered σ l σ') (hopen : opened [l] ≠ 0 → σ = empty) :
    Agreed σ' := by
  cases hs with
  | @sent x r f after failed hsend hkind hpayload =>
    refine agreed_of x ?_
    have hsent := (h x).sends hsend hkind fun hk => by
      obtain rfl := hopen (by cases x <;> simp [opened,opens,Label.opens,hk])
      exact ⟨rfl,rfl,rfl⟩
    simpa using hsent
  | @received y f full reaction slot rest reply hflight hrecv hreply =>
    refine agreed_of y ?_
    have hy := h y
    rw [hflight] at hy
    simpa using hy.receives hrecv hreply
  | @skipped y f rest hflight hk hbig =>
    refine agreed_of y ?_
    have hy := h y
    rw [hflight] at hy
    simpa using hy.receiveSkipped hk

theorem OrderedRun.agreed (h : OrderedRun empty ls σ) (honce : opened ls ≤ 1) : Agreed σ := by
  induction h with
  | nil => exact fun _ => Paired.empty
  | @snoc ls σ σ' l hr hs ih =>
    rw [opened_append] at honce
    exact (ih (by omega)).step hs fun hl => hr.unopened (by omega)

end StreamPair
end DigMessage
