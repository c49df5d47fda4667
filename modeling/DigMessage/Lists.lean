import Mathlib

/-! General facts about lists: prefixes found by increasing indices, counts after removing
one occurrence, counts compared by charging positions to positions, and relations followed
along a list. -/
namespace DigMessage
namespace Lists

theorem le_key_of_increasing {α : Type} {l : List (ℕ × α)}
    (h : l.Pairwise fun a b => a.1 < b.1) (i : ℕ) {d : ℕ × α} (hd : l[i]? = some d) : i ≤ d.1 := by
  induction i generalizing d with
  | zero => exact Nat.zero_le _
  | succ i ih =>
    obtain ⟨hlt,rfl⟩ := List.getElem?_eq_some_iff.mp hd
    have hprev : l[i]? = some l[i] := List.getElem?_eq_getElem (by omega)
    have hstep : l[i].1 < l[i+1].1 := List.pairwise_iff_getElem.mp h i (i+1) (by omega) hlt (by omega)
    have := ih hprev
    omega

/-- Where every item of `r` stands in an increasing list under its own index as key, `r` is
a prefix of that list's values. -/
theorem prefix_of_increasing {α : Type} {l : List (ℕ × α)} (h : l.Pairwise fun a b => a.1 < b.1)
    {r : List α} (hr : ∀ (i : ℕ) (p : α), r[i]? = some p → (i,p) ∈ l) : r <+: l.map Prod.snd := by
  have key : ∀ (i : ℕ) (p : α), r[i]? = some p → l[i]? = some (i,p) := by
    intro i
    induction i using Nat.strong_induction_on with
    | _ i ih =>
      intro p hp
      obtain ⟨k,hk⟩ := List.getElem?_of_mem (hr i p hp)
      have hki := le_key_of_increasing h k hk
      rcases Nat.lt_or_ge k i with hlt | hge
      · obtain ⟨hi,-⟩ := List.getElem?_eq_some_iff.mp hp
        have hq : r[k]? = some r[k] := List.getElem?_eq_getElem (by omega)
        have := ih k hlt _ hq
        rw [hk] at this
        simp only [Option.some.injEq,Prod.mk.injEq] at this
        omega
      · have : k = i := by simp only at hki; omega
        rw [← this,hk,this]
  rw [List.prefix_iff_getElem?]
  intro i hi
  have hp : r[i]? = some r[i] := List.getElem?_eq_getElem hi
  rw [List.getElem?_map,key i _ hp]
  rfl

theorem filterMap_snoc {α β : Type} (f : α → Option β) (l : List α) (a : α) :
    (l++[a]).filterMap f = l.filterMap f++(f a).toList := by
  cases h : f a <;> simp [List.filterMap_append,h]

theorem getElem?_snoc_cases {α : Type} {l : List α} {a b : α} {i : ℕ}
    (h : (l++[a])[i]? = some b) : (i < l.length ∧ l[i]? = some b) ∨ (i = l.length ∧ a = b) := by
  rcases Nat.lt_trichotomy i l.length with hlt | rfl | hgt
  · rw [List.getElem?_append_left hlt] at h
    exact Or.inl ⟨hlt,h⟩
  · rw [List.getElem?_concat_length,Option.some.injEq] at h
    exact Or.inr ⟨rfl,h⟩
  · rw [List.getElem?_eq_none (by simp; omega)] at h
    cases h

theorem getElem?_take_eq_some {α : Type} {l : List α} {i j : ℕ} {a : α} :
    (l.take i)[j]? = some a ↔ j < i ∧ l[j]? = some a := by
  rw [List.getElem?_take]
  split <;> simp_all

theorem countP_of_erase {α : Type} [DecidableEq α] (p : α → Bool) {l r : List α} {a : α}
    (ha : a ∈ l) (h : r.Sublist (l.erase a)) : r.countP p+(if p a then 1 else 0) ≤ l.countP p := by
  have hle := h.countP_le (p:=p)
  have hperm := (List.perm_cons_erase ha).countP_eq p
  rw [List.countP_cons] at hperm
  omega

def positions {α : Type} (p : α → Bool) (l : List α) : Finset ℕ :=
  (Finset.range l.length).filter fun i => l[i]?.any p = true

theorem mem_positions {α : Type} {p : α → Bool} {l : List α} {i : ℕ} :
    i ∈ positions p l ↔ ∃ a, l[i]? = some a ∧ p a = true := by
  simp only [positions,Finset.mem_filter,Finset.mem_range]
  constructor
  · rintro ⟨hi,hp⟩
    rw [List.getElem?_eq_getElem hi] at hp
    exact ⟨l[i],List.getElem?_eq_getElem hi,hp⟩
  · rintro ⟨a,ha,hp⟩
    exact ⟨(List.getElem?_eq_some_iff.mp ha).1,by rw [ha]; exact hp⟩

theorem card_positions {α : Type} (p : α → Bool) (l : List α) : (positions p l).card = l.countP p := by
  induction l using List.reverseRecOn with
  | nil => rfl
  | append_singleton l a ih =>
    have hsame : ((Finset.range l.length).filter fun i => (l++[a])[i]?.any p = true) = positions p l := by
      apply Finset.filter_congr
      intro i hi
      rw [List.getElem?_append_left (Finset.mem_range.mp hi)]
    rw [positions,List.length_append,List.length_singleton,Finset.range_add_one,Finset.filter_insert,
      hsame,List.getElem?_concat_length,List.countP_append,List.countP_singleton,Option.any_some]
    split
    · rw [Finset.card_insert_of_notMem,ih]
      simp [positions]
    · exact ih

/-- Where every position of `p` is charged to a position of `q` of its own, `p` counts no
more than `q`. -/
theorem countP_le_of_injOn {α : Type} {p q : α → Bool} {l : List α} (f : ℕ → ℕ)
    (hf : ∀ i a, l[i]? = some a → p a = true → ∃ b, l[f i]? = some b ∧ q b = true)
    (hinj : Set.InjOn f {i | ∃ a, l[i]? = some a ∧ p a = true}) : l.countP p ≤ l.countP q := by
  rw [← card_positions,← card_positions]
  refine Finset.card_le_card_of_injOn f ?_ ?_
  · intro i hi
    obtain ⟨a,ha,hp⟩ := mem_positions.mp hi
    exact mem_positions.mpr (hf i a ha hp)
  · intro i hi j hj hij
    exact hinj (mem_positions.mp hi) (mem_positions.mp hj) hij

theorem sum_filter_le {α : Type} {l : List α} {p q : α → Bool} (f : α → ℕ)
    (h : ∀ a ∈ l, p a = true → q a = true) :
    ((l.filter p).map f).sum ≤ ((l.filter q).map f).sum := by
  have hboth : l.filter p = (l.filter q).filter p := by
    rw [List.filter_filter]
    refine List.filter_congr fun b hb => ?_
    cases hb' : p b with
    | false => rfl
    | true => simp [h b hb hb']
  have hsub : (l.filter p).Sublist (l.filter q) := by
    rw [hboth]
    exact List.filter_sublist
  exact (hsub.map f).sum_le_sum fun b _ => Nat.zero_le b

theorem sum_filter_add_le {α : Type} {l : List α} {p q : α → Bool} (f : α → ℕ)
    (h : ∀ a ∈ l, p a = true → q a = true) {a : α} (ha : a ∈ l) (hp : p a = false)
    (hq : q a = true) : ((l.filter p).map f).sum+f a ≤ ((l.filter q).map f).sum := by
  obtain ⟨xs,ys,rfl⟩ := List.append_of_mem ha
  have hxs := sum_filter_le (l:=xs) f fun b hb => h b (by simp [hb])
  have hys := sum_filter_le (l:=ys) f fun b hb => h b (by simp [hb])
  simp only [List.filter_append,List.filter_cons,hp,hq,List.map_append,List.sum_append,
    Bool.false_eq_true,if_false,if_true,List.map_cons,List.sum_cons]
  omega

theorem eq_of_filters {α β κ : Type} [DecidableEq κ] (kind : α → κ) {l r : List (α × β)}
    (hfst : l.map Prod.fst = r.map Prod.fst)
    (h : ∀ k, l.filter (fun x => kind x.1 = k) = r.filter (fun x => kind x.1 = k)) : l = r := by
  induction l generalizing r with
  | nil =>
    rw [List.map_nil,eq_comm,List.map_eq_nil_iff] at hfst
    exact hfst.symm
  | cons x l ih =>
    cases r with
    | nil => cases hfst
    | cons y r =>
      rw [List.map_cons,List.map_cons,List.cons.injEq] at hfst
      obtain ⟨hxy,htail⟩ := hfst
      have hhead := h (kind x.1)
      simp only [List.filter_cons,← hxy,decide_true,if_true,List.cons.injEq] at hhead
      rw [hhead.1]
      refine congrArg _ (ih htail fun k => ?_)
      by_cases hk : kind x.1 = k
      · rw [← hk]
        exact hhead.2
      · have hother := h k
        simp only [List.filter_cons,← hxy,hk,decide_false,Bool.false_eq_true,if_false] at hother
        exact hother

/-- `R` followed along a list, an item a step. -/
inductive Along {α β : Type} (R : α → β → α → Prop) : α → List β → α → Prop
  | nil {a : α} : Along R a [] a
  | cons {a a₁ a₂ : α} {b : β} {l : List β} : R a b a₁ → Along R a₁ l a₂ → Along R a (b::l) a₂

namespace Along
variable {α β : Type} {R Q : α → β → α → Prop} {a a' a₁ a₂ : α} {b : β} {l : List β}

theorem snoc (h : Along R a l a₁) (hb : R a₁ b a₂) : Along R a (l++[b]) a₂ := by
  induction h with
  | nil => exact .cons hb .nil
  | cons hr _ ih => exact .cons hr (ih hb)

theorem append {l r : List β} (h : Along R a l a₁) (hr : Along R a₁ r a₂) : Along R a (l++r) a₂ := by
  induction h with
  | nil => exact hr
  | cons hb _ ih => exact .cons hb (ih hr)

theorem split {l r : List β} (h : Along R a (l++r) a') : ∃ m, Along R a l m ∧ Along R m r a' := by
  induction l generalizing a with
  | nil => exact ⟨a,.nil,h⟩
  | cons b l ih =>
    cases h with
    | cons hb htail =>
      obtain ⟨m,hl,hr⟩ := ih htail
      exact ⟨m,.cons hb hl,hr⟩

/-- What a history satisfies and every step carries over holds of the history prolonged. -/
theorem records {J : List β → α → Prop} (h : Along R a l a')
    (hstep : ∀ {front a₁ b a₂}, J front a₁ → R a₁ b a₂ → J (front++[b]) a₂) {k : List β}
    (hk : J k a) : J (k++l) a' := by
  induction h generalizing k with
  | nil => simpa using hk
  | cons hb _ ih => simpa using ih (hstep hk hb)

theorem map (f : α → α) {I : α → Prop}
    (hf : ∀ a b a', I a → R a b a' → I a' ∧ Q (f a) b (f a')) (hi : I a) (h : Along R a l a') :
    Along Q (f a) l (f a') ∧ I a' := by
  induction h with
  | nil => exact ⟨.nil,hi⟩
  | cons hr _ ih =>
    obtain ⟨hi',hr'⟩ := hf _ _ _ hi hr
    obtain ⟨htail,hlast⟩ := ih hi'
    exact ⟨.cons hr' htail,hlast⟩

theorem length_le (m : α → ℕ) {I : α → Prop} (hI : ∀ {a b a'}, I a → R a b a' → I a' ∧ m a' < m a)
    (hi : I a) (h : Along R a l a') : l.length+m a' ≤ m a ∧ I a' := by
  induction h with
  | nil => exact ⟨by simp,hi⟩
  | cons hr _ ih =>
    obtain ⟨hi',hlt⟩ := hI hi hr
    obtain ⟨hle,hlast⟩ := ih hi'
    exact ⟨by rw [List.length_cons]; omega,hlast⟩

/-- Where a step is left until all is done, and steps use up a measure, all gets done. -/
theorem reaches (m : α → ℕ) {I D : α → Prop}
    (hI : ∀ {a b a'}, I a → R a b a' → I a' ∧ m a' < m a)
    (hD : ∀ {a}, I a → ¬ D a → ∃ b a', R a b a') (a : α) (hi : I a) :
    ∃ l a', Along R a l a' ∧ D a' := by
  induction hm : m a using Nat.strong_induction_on generalizing a with
  | _ k ih =>
    by_cases hd : D a
    · exact ⟨[],a,.nil,hd⟩
    · obtain ⟨b,a₁,hr⟩ := hD hi hd
      obtain ⟨hi₁,hlt⟩ := hI hi hr
      obtain ⟨l,a',hl,hd'⟩ := ih (m a₁) (hm ▸ hlt) a₁ hi₁ rfl
      exact ⟨b::l,a',.cons hr hl,hd'⟩

end Along

end Lists
end DigMessage
