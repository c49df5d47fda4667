import DigMessage.LinkProjection

/-! Schedules of joined endpoints, executed: what each side calls and when a channel delivers.
A schedule that runs through is a run. -/
namespace DigMessage
open FixedWidth

inductive Move
  | call (x : Side) (c : Bytes32) (r : Request) (nowMs expiresAt : UInt64)
  | deliver (y : Side) (nowMs : UInt64)

structure LinkState (SK : Type) where
  history : History SK
  world : World SK
  channels : Channels SK

def Event.seals {SK : Type} (ev : Event SK) (e' : StreamEndpoint SK) : Bool :=
  match ev.outcome with
  | .called (.error _) => e'.sendCounter = ev.before.sendCounter
  | .accepted (.error _) => false
  | _ => true

theorem Event.seals_sound {SK : Type} {ev : Event SK} {e' : StreamEndpoint SK}
    (h : ev.seals e' = true) : ev.Seals e' where
  called err hout := by simpa [Event.seals,hout] using h
  accepted err hout := by simp [Event.seals,hout] at h

section
variable {SK : Type} (P : Primitives SK) (party : Side → Party SK) (order : HashOrder)

def LinkState.start : LinkState SK := ⟨[],startWorld P party,fun _ => []⟩

def LinkState.attempt (st : LinkState SK) (x : Side) (i : Input) :
    Option (Event SK × StreamEndpoint SK) :=
  match i.perform P (st.world x) with
  | none => none
  | some (out,e') =>
    if Event.seals ⟨st.world x,i,out⟩ e' then some (⟨st.world x,i,out⟩,e') else none

def LinkState.arrival (st : LinkState SK) (y : Side) (nowMs : UInt64) :
    Option ((SealedFrame SK × List (SealedFrame SK)) × Event SK × StreamEndpoint SK) :=
  match st.channels y.other with
  | [] => none
  | s::rest =>
    if ReplayGuard.fresh s.params.timestampMs nowMs = true ∧
      checkExpiry s.params.timestampMs s.params.expiresAt nowMs = .ok () then
      (st.attempt P y (.accept s.envelope (knows P (party y.other)) nowMs order
        (.ok s.params.correlationId))).map fun p => ((s,rest),p)
    else none

def LinkState.record (st : LinkState SK) (x : Side) (ev : Event SK) (e' : StreamEndpoint SK)
    (ch : Channels SK) : LinkState SK :=
  ⟨st.history++[(x,ev)],Function.update st.world x e',
    Function.update ch x (st.channels x++ev.sealed?.toList)⟩

def Move.enact (st : LinkState SK) : Move → Option (LinkState SK)
  | .call x c r nowMs expiresAt =>
    (st.attempt P x (.call c r nowMs expiresAt (.ok c))).map fun p => st.record x p.1 p.2 st.channels
  | .deliver y nowMs => (st.arrival P party order y nowMs).map fun p =>
      st.record y p.2.1 p.2.2 (Function.update st.channels y.other p.1.2)

def enactMoves (st : LinkState SK) : List Move → Option (LinkState SK)
  | [] => some st
  | m::ms => (m.enact P party order st).bind fun st' => enactMoves st' ms

variable {P} {party} {order}

theorem LinkState.attempt_eq_some {st : LinkState SK} {x : Side} {i : Input} {ev : Event SK}
    {e' : StreamEndpoint SK} (h : st.attempt P x i = some (ev,e')) :
    ev.before = st.world x ∧ ev.input = i ∧ ev.input.perform P ev.before = some (ev.outcome,e') ∧
      ev.Seals e' := by
  unfold LinkState.attempt at h
  split at h
  · cases h
  · rename_i out e₁ hp
    split at h
    · rename_i hseals
      cases h
      exact ⟨rfl,rfl,hp,Event.seals_sound hseals⟩
    · cases h

theorem LinkState.arrival_eq_some {st : LinkState SK} {y : Side} {nowMs : UInt64}
    {s : SealedFrame SK} {rest : List (SealedFrame SK)} {ev : Event SK} {e' : StreamEndpoint SK}
    (h : st.arrival P party order y nowMs = some ((s,rest),ev,e')) :
    Delivers P party st.world st.channels y s rest ev ∧
      ev.input.perform P ev.before = some (ev.outcome,e') ∧ ev.Seals e' := by
  unfold LinkState.arrival at h
  split at h
  · cases h
  · rename_i s₁ rest₁ hch
    split at h
    · rename_i htime
      obtain ⟨p,hp,he⟩ := Option.map_eq_some_iff.mp h
      cases he
      obtain ⟨hb,hi,hperform,hseals⟩ := attempt_eq_some hp
      exact ⟨⟨hb,hch,_,_,_,_,resolves_knows _,htime.1,htime.2,hi⟩,hperform,hseals⟩
    · cases h

theorem Move.enact_linked {st st' : LinkState SK} {m : Move}
    (hr : Linked P party st.history st.world st.channels) (h : m.enact P party order st = some st') :
    Linked P party st'.history st'.world st'.channels := by
  cases m with
  | call x c r nowMs expiresAt =>
    obtain ⟨⟨ev,e'⟩,hp,rfl⟩ := Option.map_eq_some_iff.mp h
    obtain ⟨hb,hi,hperform,hseals⟩ := LinkState.attempt_eq_some hp
    exact hr.call hb hi hperform hseals
  | deliver y nowMs =>
    obtain ⟨⟨⟨s,rest⟩,ev,e'⟩,hp,rfl⟩ := Option.map_eq_some_iff.mp h
    obtain ⟨hd,hperform,hseals⟩ := LinkState.arrival_eq_some hp
    exact hr.deliver hd hperform hseals

theorem enactMoves_linked {ms : List Move} {st st' : LinkState SK}
    (hr : Linked P party st.history st.world st.channels)
    (h : enactMoves P party order st ms = some st') :
    Linked P party st'.history st'.world st'.channels := by
  induction ms generalizing st with
  | nil =>
    cases h
    exact hr
  | cons m ms ih =>
    obtain ⟨st₁,h₁,h₂⟩ := Option.bind_eq_some_iff.mp h
    exact ih (Move.enact_linked hr h₁) h₂

variable (P) (party) (order)

theorem linked_of_check (ms : List Move) (check : LinkState SK → Bool)
    (h : (enactMoves P party order (.start P party) ms).any check = true) :
    ∃ st : LinkState SK, Linked P party st.history st.world st.channels ∧ check st = true := by
  cases hx : enactMoves P party order (.start P party) ms with
  | none =>
    rw [hx] at h
    cases h
  | some st =>
    rw [hx] at h
    exact ⟨st,enactMoves_linked .nil hx,h⟩

end

def joining (c : Bytes32) (window : UInt32) (nowMs : UInt64) : List Move :=
  [.call .a c (.open window) nowMs 0,.deliver .b nowMs,.call .b c (.openAck window) nowMs 0,
    .deliver .a nowMs]

end DigMessage
