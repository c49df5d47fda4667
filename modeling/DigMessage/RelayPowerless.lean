import DigMessage.RelaySchedule

/-! What an untrusted relay can do to one endpoint: presenting what the endpoint refuses
leaves no trace, and what it once admitted it refuses ever after. -/
namespace DigMessage
open FixedWidth

section
variable {SK : Type} {P : Primitives SK}

/-- The relay is powerless. A refused accept returns `Dropped` and changes nothing, a message
already admitted is refused, and deleting every refused accept gives a run with the same end
and the same results. -/
theorem relay_powerless {e e' : StreamEndpoint SK} {tr : List (Event SK)} (h : Trace P e tr e')
    (hcap : (e.guard.senders.keys ∪ admittedKeys P tr).card < maxTrackedSenders) :
    (∀ ev ∈ tr, ev.refused P = true →
      ev.input.perform P ev.before = some (ev.outcome,ev.before) ∧
      ∃ cause, ev.outcome = .accepted (.ok (.dropped cause))) ∧
    (∀ front ev back key counter, tr = front++ev::back → ev.Presents P key counter →
      (e.guard.Seen key counter ∨
        ∃ first ∈ front, first.refused P = false ∧ first.Presents P key counter) →
      ev.refused P = true) ∧
    Trace P e (tr.filter fun ev => !ev.refused P) e' := by
  refine ⟨?_,?_,trace_without_refused h⟩
  · intro ev hev hr
    obtain ⟨e₁,hp⟩ := h.performs hev
    obtain ⟨rfl,hdropped⟩ := refused_inert hr hp
    exact ⟨hp,hdropped⟩
  · rintro front ev back key counter rfl hp hseen
    rw [List.append_cons] at h hcap
    obtain ⟨mid,hfront,-⟩ := (trace_append P).mp h
    refine refused_again hfront ((Finset.card_le_card ?_).trans_lt hcap) hp hseen
    rw [admittedKeys_append,admittedKeys_append,Finset.union_assoc]
    exact Finset.union_subset_union_right Finset.subset_union_left

theorem Relayed.trace {w₀ w : World SK} {tr : History SK} (h : Relayed P w₀ tr w) (x : Side) :
    Trace P (w₀ x) (observe x some tr) (w x) := by
  induction h with
  | nil => exact .nil _
  | @snoc tr w y ev e' _ hb hp _ ih =>
    rw [observe_snoc]
    by_cases hy : y = x
    · subst hy
      rw [if_pos rfl,Function.update_self]
      refine (trace_append P).mpr ⟨w y,ih,?_⟩
      rw [← hb]
      exact .cons hp (.nil e')
    · rw [if_neg hy,Function.update_of_ne (Ne.symm hy)]
      simpa using ih

end

/-- A stream is opened and used, and the relay presents its frames again. -/
def presentedAgain (c : Bytes32) : List Action :=
  establish c 4 1000++([.call .a c (.sendData [1]) 1001 0,.present .b .a 1 1001,.present .b .a 0 1002,
    .present .b .a 1 1002,.call .a c (.sendData [2]) 1003 0,.present .b .a 2 1003] : List Action)

theorem presented_again_powerless : ∃ tr e e', Trace .plain e tr e' ∧ tr.length = 6 ∧
    (tr.filter fun ev => !ev.refused .plain).length = 4 ∧
    Trace .plain e (tr.filter fun ev => !ev.refused .plain) e' := by
  obtain ⟨tr,w,hr,hc⟩ := aliceAndBob_run default (presentedAgain (byte32 9)) (fun tr =>
    (observe .b some tr).length = 6 &&
      ((observe .b some tr).filter fun ev => !ev.refused .plain).length = 4 &&
      decide ((((startWorld .plain aliceAndBob) .b).guard.senders.keys ∪
        admittedKeys .plain (observe .b some tr)).card < maxTrackedSenders)) (by decide +kernel)
  simp only [Bool.and_eq_true,decide_eq_true_eq] at hc
  exact ⟨_,_,_,hr.trace .b,hc.1.1,hc.1.2,(relay_powerless (hr.trace .b) hc.2).2.2⟩

end DigMessage
