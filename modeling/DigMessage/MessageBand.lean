import DigMessage.Registry

/-! The bands of message types, and the subsystems that own them. Subsystems that keep to disjoint
sets of types share a registry without noticing each other. -/
namespace DigMessage

inductive MessageBand
  | core | peerRpc | digChat | digEmail | digVideo | presence | ipc | socialGraph | relayControl
  | relayMesh | experimental | reserved
  deriving DecidableEq, Repr

namespace MessageType

def band (messageType : UInt32) : MessageBand :=
  let within (first last : UInt32) : Bool := first ≤ messageType ∧ messageType ≤ last
  if within 0x00000000 0x000000FF then .core
  else if within 0x00000100 0x000001FF then .peerRpc
  else if within 0x00000200 0x000002FF then .digChat
  else if within 0x00000300 0x000003FF then .digEmail
  else if within 0x00000400 0x000004FF then .digVideo
  else if within 0x00000500 0x000005FF then .presence
  else if within 0x00000600 0x000006FF then .ipc
  else if within 0x00000700 0x000007FF then .socialGraph
  else if within 0x00000800 0x000008FF then .relayControl
  else if within 0x00000900 0x000009FF then .relayMesh
  else if within 0x10000000 0xFFFFFFFF then .experimental
  else .reserved

end MessageType

namespace MessageRegistry
variable {σ : Type} {tr : List (Usage σ)} {u : Usage σ} {r r' : MessageRegistry σ}

def Usage.messageType : Usage σ → UInt32
  | .register reg _ => reg.kind.typeId
  | .dispatch messageType .. => messageType

def Usage.band (u : Usage σ) : MessageBand := MessageType.band u.messageType

def Usage.Step : Usage σ → MessageRegistry σ → MessageRegistry σ → Prop
  | .register reg res, r, r' => MessageRegistry.register reg.kind reg.handler r = some (res,r')
  | .dispatch messageType shape payload world res, r, r' =>
    res = r.dispatch messageType shape payload world ∧ r' = r

theorem history_snoc : History (tr++[u]) r' ↔ ∃ r, History tr r ∧ u.Step r r' := by
  constructor
  · intro h
    generalize hall : tr++[u] = all at h
    cases h with
    | new => simp at hall
    | registers reg hr hcall =>
      obtain ⟨rfl,rfl⟩ := List.append_singleton_inj.mp hall
      exact ⟨_,hr,hcall⟩
    | dispatches messageType shape payload world hr =>
      obtain ⟨rfl,rfl⟩ := List.append_singleton_inj.mp hall
      exact ⟨_,hr,rfl,rfl⟩
  · rintro ⟨r,hr,hstep⟩
    cases u with
    | register reg res => exact .registers reg hr hstep
    | dispatch messageType shape payload world res =>
      obtain ⟨rfl,rfl⟩ := hstep
      exact .dispatches messageType shape payload world hr

theorem Usage.Step.transfer (h : u.Step r r') {s : MessageRegistry σ}
    (hsame : s.handlers.lookup u.messageType = r.handlers.lookup u.messageType) : ∃ s', u.Step s s' := by
  cases u with
  | register reg res =>
    change s.handlers.lookup reg.kind.typeId = r.handlers.lookup reg.kind.typeId at hsame
    by_cases hmem : reg.kind.typeId ∈ r.handlers
    · have hmem' : reg.kind.typeId ∈ s.handlers := by
        rw [Finmap.mem_iff,hsame]
        exact Finmap.mem_iff.mp hmem
      rw [Usage.Step,register_of_mem hmem,Option.some.injEq,Prod.mk.injEq] at h
      exact ⟨s,by rw [Usage.Step,register_of_mem hmem',h.1]⟩
    · have hmem' : reg.kind.typeId ∉ s.handlers := by
        rw [← Finmap.lookup_eq_none,hsame,Finmap.lookup_eq_none]
        exact hmem
      rw [Usage.Step,register_of_not_mem hmem,Option.some.injEq,Prod.mk.injEq] at h
      exact ⟨_,by rw [Usage.Step,register_of_not_mem hmem',h.1]⟩
  | dispatch messageType shape payload world res =>
    change s.handlers.lookup messageType = r.handlers.lookup messageType at hsame
    refine ⟨s,?_,rfl⟩
    rw [h.1]
    simp only [MessageRegistry.dispatch,hsame]

theorem registrant_filter (messageType : UInt32) (tr : List (Usage σ)) :
    registrant messageType (tr.filter fun u => u.band = MessageType.band messageType) =
      registrant messageType tr := by
  induction tr with
  | nil => rfl
  | cons u tr ih =>
    cases hreg : u.registers messageType with
    | some reg =>
      obtain ⟨rfl,rfl⟩ := registers_eq_some.mp hreg
      rw [List.filter_cons_of_pos (by simp [Usage.band,Usage.messageType])]
      simp only [registrant,List.findSome?_cons,hreg]
    | none =>
      rw [registrant,registrant] at ih
      by_cases hb : u.band = MessageType.band messageType
      · rw [List.filter_cons_of_pos (by simpa using hb)]
        simp only [registrant,List.findSome?_cons,hreg,ih]
      · rw [List.filter_cons_of_neg (by simpa using hb)]
        simp only [registrant,List.findSome?_cons,hreg,ih]

/-- Two registries of which one has served the calls of a band alone, and the other those of all
bands, hold the same of the band's types. -/
theorem History.lookup_band {s : MessageRegistry σ} (h : History tr r) {messageType : UInt32}
    (hs : History (tr.filter fun u => u.band = MessageType.band messageType) s) :
    s.handlers.lookup messageType = r.handlers.lookup messageType := by
  rw [h.lookup,hs.lookup,registrant_filter]

/-- Calls on one registry are answered as recorded exactly where, band by band, the calls of each band
are answered so by a registry that the band has for itself. -/
theorem shared_registry_iff (tr : List (Usage σ)) : (∃ r, History tr r) ↔
    ∀ b : MessageBand, ∃ r, History (tr.filter fun u => u.band = b) r := by
  induction tr using List.reverseRecOn with
  | nil => exact iff_of_true ⟨.new,.new⟩ fun _ => ⟨.new,.new⟩
  | append_singleton tr u ih =>
    have hown : (tr++[u]).filter (fun v => v.band = u.band) =
        tr.filter (fun v => v.band = u.band)++[u] := by simp
    have hother {b : MessageBand} (hb : u.band ≠ b) :
        (tr++[u]).filter (fun v => v.band = b) = tr.filter (fun v => v.band = b) := by simp [hb]
    constructor
    · rintro ⟨r',h⟩ b
      obtain ⟨r,hr,hstep⟩ := history_snoc.mp h
      obtain ⟨s,hs⟩ := ih.mp ⟨r,hr⟩ b
      by_cases hb : u.band = b
      · subst hb
        obtain ⟨s',hstep'⟩ := hstep.transfer (hr.lookup_band hs)
        rw [hown]
        exact ⟨s',history_snoc.mpr ⟨s,hs,hstep'⟩⟩
      · rw [hother hb]
        exact ⟨s,hs⟩
    · intro h
      have hfront : ∀ b, ∃ r, History (tr.filter fun v => v.band = b) r := by
        intro b
        by_cases hb : u.band = b
        · subst hb
          obtain ⟨r',hr'⟩ := h u.band
          rw [hown] at hr'
          obtain ⟨r,hr,-⟩ := history_snoc.mp hr'
          exact ⟨r,hr⟩
        · obtain ⟨r,hr⟩ := h b
          rw [hother hb] at hr
          exact ⟨r,hr⟩
      obtain ⟨r,hr⟩ := ih.mpr hfront
      obtain ⟨s',hs'⟩ := h u.band
      rw [hown] at hs'
      obtain ⟨s,hs,hstep⟩ := history_snoc.mp hs'
      obtain ⟨r',hstep'⟩ := hstep.transfer (hr.lookup_band hs).symm
      exact ⟨r',history_snoc.mpr ⟨r,hr,hstep'⟩⟩

end MessageRegistry
end DigMessage
