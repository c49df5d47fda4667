import DigMessage.Lists

/-! A pipe that keeps the order of what is written to it. Its writer may finish, its reader may
hang up before the end; what is written after that is gone. -/
namespace DigMessage

structure Pipe (α : Type) where
  queue : List α
  finished : Bool
  /-- The reader was told that the writer finished. -/
  ended : Bool
  broken : Bool

namespace Pipe
variable {α : Type}

def new : Pipe α := ⟨[],false,false,false⟩

inductive Action (α : Type)
  | write (a : α) | finish | read (a : α) | eof | hangUp

inductive Step (p : Pipe α) : Action α → Pipe α → Prop
  | write (a : α) : p.finished = false →
      Step p (.write a) {p with queue := if p.broken then [] else p.queue++[a]}
  | finish : p.finished = false → Step p .finish {p with finished := true}
  | read {a : α} {rest : List α} : p.queue = a::rest → Step p (.read a) {p with queue := rest}
  | eof : p.finished = true → p.ended = false → p.broken = false → p.queue = [] →
      Step p .eof {p with ended := true}
  | hangUp : Step p .hangUp {p with queue := [],broken := true}

def Action.written? : Action α → Option α
  | .write a => some a
  | _ => none

def Action.read? : Action α → Option α
  | .read a => some a
  | _ => none

def written (acts : List (Action α)) : List α := acts.filterMap Action.written?
def reads (acts : List (Action α)) : List α := acts.filterMap Action.read?

/-- What is written is what was read and what is queued; a broken pipe lost the rest. -/
structure Accounts (acts : List (Action α)) (p : Pipe α) : Prop where
  kept : p.broken = false → written acts = reads acts++p.queue
  lost : p.broken = true → p.queue = [] ∧ reads acts <+: written acts
  ended : p.ended = true → p.finished = true ∧ written acts = reads acts

theorem Accounts.new : Accounts [] (new : Pipe α) where
  kept _ := rfl
  lost h := by cases h
  ended h := by cases h

theorem Accounts.prefix {acts : List (Action α)} {p : Pipe α} (h : Accounts acts p) :
    reads acts <+: written acts := by
  cases hb : p.broken with
  | true => exact (h.lost hb).2
  | false =>
    rw [h.kept hb]
    exact List.prefix_append _ _

theorem Accounts.queue_eq_nil {acts : List (Action α)} {p : Pipe α} (h : Accounts acts p)
    (hp : p.ended = true ∨ p.broken = true) : p.queue = [] := by
  cases hb : p.broken with
  | true => exact (h.lost hb).1
  | false =>
    have he : p.ended = true := hp.resolve_right (by simp [hb])
    have hkept := h.kept hb
    rw [(h.ended he).2] at hkept
    exact List.self_eq_append_right.mp hkept

theorem Accounts.step {acts : List (Action α)} {p p' : Pipe α} {a : Action α}
    (h : Accounts acts p) (hs : Step p a p') : Accounts (acts++[a]) p' := by
  have hw : written (acts++[a]) = written acts++a.written?.toList := Lists.filterMap_snoc _ _ _
  have hr : reads (acts++[a]) = reads acts++a.read?.toList := Lists.filterMap_snoc _ _ _
  have hpre := h.prefix
  cases hs with
  | write a hf =>
    constructor
    · intro hb
      have hb' : p.broken = false := hb
      simp [hw,hr,Action.written?,Action.read?,h.kept hb',hb']
    · intro hb
      have hb' : p.broken = true := hb
      have hlong : reads acts <+: written acts++[a] := hpre.trans (List.prefix_append _ _)
      simpa [hw,hr,Action.written?,Action.read?,hb'] using hlong
    · intro he
      have hfin := (h.ended he).1
      rw [hf] at hfin
      cases hfin
  | finish hf =>
    constructor
    · intro hb
      simpa [hw,hr,Action.written?,Action.read?] using h.kept hb
    · intro hb
      simpa [hw,hr,Action.written?,Action.read?] using h.lost hb
    · intro he
      simpa [hw,hr,Action.written?,Action.read?] using (h.ended he).2
  | @read b rest hq =>
    have hb : p.broken = false := by
      cases hb : p.broken with
      | false => rfl
      | true =>
        rw [(h.lost hb).1] at hq
        cases hq
    have hkept := h.kept hb
    constructor
    · intro _
      simp [hw,hr,Action.written?,Action.read?,hkept,hq]
    · intro hb'
      have hb'' : p.broken = true := hb'
      rw [hb] at hb''
      cases hb''
    · intro he
      have hall := (h.ended he).2
      rw [hkept,hq] at hall
      simp at hall
  | eof hf he hb hq =>
    constructor
    · intro _
      simpa [hw,hr,Action.written?,Action.read?] using h.kept hb
    · intro hb'
      have hb'' : p.broken = true := hb'
      rw [hb] at hb''
      cases hb''
    · intro _
      have hkept := h.kept hb
      rw [hq,List.append_nil] at hkept
      exact ⟨hf,by simp [hw,hr,Action.written?,Action.read?,hkept]⟩
  | hangUp =>
    constructor
    · rintro ⟨⟩
    · intro _
      simpa [hw,hr,Action.written?,Action.read?] using hpre
    · intro he
      simpa [hw,hr,Action.written?,Action.read?] using h.ended he

abbrev Run (acts : List (Action α)) (p : Pipe α) : Prop := Lists.Along Step new acts p

namespace Run
variable {acts : List (Action α)} {p p' : Pipe α} {a : Action α}

theorem accounts (h : Run acts p) : Accounts acts p := by
  have hall := Lists.Along.records (J:=Accounts) h (fun hj hs => hj.step hs) (k:=[]) Accounts.new
  simpa using hall

theorem broken_iff (h : Run acts p) : p.broken = true ↔ .hangUp ∈ acts := by
  have hall := Lists.Along.records
    (J:=fun acts (p : Pipe α) => p.broken = true ↔ .hangUp ∈ acts) h ?_ (k:=[]) ?_
  · simpa using hall
  · intro front p₁ b p₂ hj hs
    simp only [List.mem_append,List.mem_singleton]
    cases hs with
    | write a hf => simpa using hj
    | finish hf => simpa using hj
    | read hq => simpa using hj
    | eof hf he hb hq => simpa using hj
    | hangUp => simp
  · simp [new]

theorem ended_iff (h : Run acts p) : p.ended = true ↔ .eof ∈ acts := by
  have hall := Lists.Along.records
    (J:=fun acts (p : Pipe α) => p.ended = true ↔ .eof ∈ acts) h ?_ (k:=[]) ?_
  · simpa using hall
  · intro front p₁ b p₂ hj hs
    simp only [List.mem_append,List.mem_singleton]
    cases hs with
    | write a hf => simpa using hj
    | finish hf => simpa using hj
    | read hq => simpa using hj
    | eof hf he hb hq => simp
    | hangUp => simpa using hj
  · simp [new]

end Run

end Pipe
end DigMessage
