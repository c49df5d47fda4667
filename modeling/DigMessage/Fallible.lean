import Mathlib

/-! Calls on a mutable object. A call panics, or returns a value or an error together
with the object it leaves; an error keeps what was written before it. -/
namespace DigMessage

/-- A call on an object of type `σ`; `none` is a panic. -/
def Fallible (ε σ α : Type) : Type := σ → Option (Except ε α × σ)

namespace Fallible
variable {ε σ τ α β : Type}

def andThen (x : Fallible ε σ α) (f : α → Fallible ε σ β) : Fallible ε σ β := fun s =>
  match x s with
  | none => none
  | some (.error e,t) => some (.error e,t)
  | some (.ok a,t) => f a t

instance : Monad (Fallible ε σ) where
  pure a := fun s => some (.ok a,s)
  bind := andThen

def read : Fallible ε σ σ := fun s => some (.ok s,s)
def write (s : σ) : Fallible ε σ Unit := fun _ => some (.ok (),s)
def fail (e : ε) : Fallible ε σ α := fun s => some (.error e,s)

def ofExcept (x : Except ε α) : Fallible ε σ α := fun s => some (x,s)

/-- A computation that can only panic. -/
def unwrap (x : Option α) : Fallible ε σ α := fun s => x.map fun a => (.ok a,s)

/-- The outcome of a call as a value, error included. -/
def attempt (x : Fallible ε σ α) : Fallible ε σ (Except ε α) := fun s =>
  (x s).map fun p => (.ok p.1,p.2)

/-- A call on the part of the object that `part` reads and `store` writes back. -/
def onPart (part : σ → τ) (store : σ → τ → σ) (x : Fallible ε τ α) : Fallible ε σ α := fun s =>
  (x (part s)).map fun p => (p.1,store s p.2)

@[simp] theorem pure_apply (a : α) (s : σ) : (pure a : Fallible ε σ α) s = some (.ok a,s) := rfl
@[simp] theorem read_apply (s : σ) : (read : Fallible ε σ σ) s = some (.ok s,s) := rfl
@[simp] theorem write_apply (s t : σ) : (write t : Fallible ε σ Unit) s = some (.ok (),t) := rfl
@[simp] theorem fail_apply (e : ε) (s : σ) : (fail e : Fallible ε σ α) s = some (.error e,s) := rfl
@[simp] theorem ofExcept_apply (x : Except ε α) (s : σ) :
    (ofExcept x : Fallible ε σ α) s = some (x,s) := rfl

theorem bind_of_none {x : Fallible ε σ α} {f : α → Fallible ε σ β} {s : σ} (h : x s = none) :
    (x >>= f) s = none := by simp only [bind,andThen,h]

theorem bind_of_error {x : Fallible ε σ α} {f : α → Fallible ε σ β} {s t : σ} {e : ε}
    (h : x s = some (.error e,t)) : (x >>= f) s = some (.error e,t) := by
  simp only [bind,andThen,h]

theorem bind_of_ok {x : Fallible ε σ α} {f : α → Fallible ε σ β} {s t : σ} {a : α}
    (h : x s = some (.ok a,t)) : (x >>= f) s = f a t := by simp only [bind,andThen,h]

/-- Inversion of a sequence: the first call failed, or both ran. -/
theorem bind_eq_some {x : Fallible ε σ α} {f : α → Fallible ε σ β} {s t : σ} {r : Except ε β} :
    (x >>= f) s = some (r,t) ↔ (∃ e, x s = some (.error e,t) ∧ r = .error e) ∨
      ∃ a u, x s = some (.ok a,u) ∧ f a u = some (r,t) := by
  rcases hx : x s with _ | ⟨e | a,u⟩
  · simp [bind_of_none hx]
  · rw [bind_of_error hx]
    constructor
    · intro h
      cases h
      exact Or.inl ⟨e,rfl,rfl⟩
    · rintro (⟨e',he,rfl⟩ | ⟨a,u',ha,-⟩)
      · cases he
        rfl
      · cases ha
  · rw [bind_of_ok hx]
    constructor
    · exact fun h => Or.inr ⟨a,u,rfl,h⟩
    · rintro (⟨e,he,-⟩ | ⟨a',u',ha,h⟩)
      · cases he
      · cases ha
        exact h

theorem bind_assoc {γ : Type} (x : Fallible ε σ α) (f : α → Fallible ε σ β)
    (g : β → Fallible ε σ γ) : (x >>= f) >>= g = x >>= fun a => f a >>= g := by
  funext s
  rcases hx : x s with _ | ⟨e | a,t⟩
  · rw [bind_of_none (bind_of_none hx),bind_of_none hx]
  · rw [bind_of_error (bind_of_error hx),bind_of_error hx]
  · rw [bind_of_ok hx]
    simp only [bind,andThen,hx]

theorem unwrap_eq_some {x : Option α} {s t : σ} {r : Except ε α} :
    (unwrap x : Fallible ε σ α) s = some (r,t) ↔ ∃ a, x = some a ∧ r = .ok a ∧ t = s := by
  cases x with
  | none => simp [unwrap]
  | some a => simp [unwrap,eq_comm]

theorem attempt_eq_some {x : Fallible ε σ α} {s t : σ} {r : Except ε (Except ε α)} :
    attempt x s = some (r,t) ↔ ∃ r', x s = some (r',t) ∧ r = .ok r' := by
  unfold attempt
  rcases x s with _ | ⟨r',u⟩
  · simp
  · simp only [Option.map_some,Option.some.injEq,Prod.mk.injEq]
    constructor
    · rintro ⟨rfl,rfl⟩
      exact ⟨r',⟨rfl,rfl⟩,rfl⟩
    · rintro ⟨r'',⟨rfl,rfl⟩,rfl⟩
      exact ⟨rfl,rfl⟩

theorem onPart_eq_some {part : σ → τ} {store : σ → τ → σ} {x : Fallible ε τ α} {s t : σ}
    {r : Except ε α} :
    onPart part store x s = some (r,t) ↔ ∃ p, x (part s) = some (r,p) ∧ t = store s p := by
  unfold onPart
  rcases x (part s) with _ | ⟨r',p⟩
  · simp
  · simp only [Option.map_some,Option.some.injEq,Prod.mk.injEq]
    constructor
    · rintro ⟨rfl,rfl⟩
      exact ⟨p,⟨rfl,rfl⟩,rfl⟩
    · rintro ⟨p',⟨rfl,rfl⟩,rfl⟩
      exact ⟨rfl,rfl⟩

def Runs (x : Fallible ε σ α) (s : σ) : Prop := ∃ r t, x s = some (r,t)

theorem Runs.pure (a : α) (s : σ) : Runs (Pure.pure a : Fallible ε σ α) s := ⟨_,_,rfl⟩
theorem Runs.read (s : σ) : Runs (Fallible.read : Fallible ε σ σ) s := ⟨_,_,rfl⟩
theorem Runs.write (s t : σ) : Runs (Fallible.write t : Fallible ε σ Unit) s := ⟨_,_,rfl⟩
theorem Runs.fail (e : ε) (s : σ) : Runs (Fallible.fail e : Fallible ε σ α) s := ⟨_,_,rfl⟩
theorem Runs.ofExcept (x : Except ε α) (s : σ) : Runs (Fallible.ofExcept x) s := ⟨_,_,rfl⟩

theorem Runs.unwrap {x : Option α} {a : α} (h : x = some a) (s : σ) :
    Runs (Fallible.unwrap x : Fallible ε σ α) s := ⟨_,_,unwrap_eq_some.mpr ⟨a,h,rfl,rfl⟩⟩

theorem Runs.attempt {x : Fallible ε σ α} {s : σ} (h : Runs x s) : Runs (Fallible.attempt x) s := by
  obtain ⟨r,t,hx⟩ := h
  exact ⟨_,t,attempt_eq_some.mpr ⟨r,hx,rfl⟩⟩

theorem Runs.onPart {part : σ → τ} {store : σ → τ → σ} {x : Fallible ε τ α} {s : σ}
    (h : Runs x (part s)) : Runs (Fallible.onPart part store x) s := by
  obtain ⟨r,p,hx⟩ := h
  exact ⟨r,_,onPart_eq_some.mpr ⟨p,hx,rfl⟩⟩

theorem Runs.bind {x : Fallible ε σ α} {f : α → Fallible ε σ β} {s : σ} (h : Runs x s)
    (hf : ∀ a t, x s = some (.ok a,t) → Runs (f a) t) : Runs (x >>= f) s := by
  obtain ⟨r,t,hx⟩ := h
  cases r with
  | error e => exact ⟨_,_,bind_of_error hx⟩
  | ok a =>
    obtain ⟨r,u,hr⟩ := hf a t hx
    exact ⟨r,u,(bind_of_ok hx).trans hr⟩

end Fallible
end DigMessage
