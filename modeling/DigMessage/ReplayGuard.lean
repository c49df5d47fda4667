import DigMessage.Fallible
import DigMessage.SenderWindow

/-! The bounded anti-replay table: a freshness test on the timestamp, one sliding window
per sender key, and eviction of the least recently seen sender at the cap. -/
namespace DigMessage
open FixedWidth

/-- The dedup key: a sender and its key epoch. -/
abbrev SenderKey := Bytes32 × UInt32

abbrev SenderTable := Finmap fun _ : SenderKey => SenderWindow

/-- The order in which a hash table yields its entries. The code leaves it open, so every
call carries its own. -/
structure HashOrder where
  iter : SenderTable → List (SenderKey × SenderWindow)
  nodup : ∀ t, ((iter t).map Prod.fst).Nodup
  mem_iter : ∀ t key w, (key,w) ∈ iter t ↔ t.lookup key = some w

noncomputable instance : Inhabited HashOrder where
  default := {
    iter t := t.keys.toList.filterMap fun key => (t.lookup key).map fun w => (key,w)
    nodup t := by
      rw [List.map_filterMap]
      refine List.Nodup.filterMap ?_ t.keys.nodup_toList
      intro a b c ha hb
      cases hla : t.lookup a <;> cases hlb : t.lookup b <;> simp_all
    mem_iter t key w := by
      simp only [List.mem_filterMap,Finset.mem_toList,Finmap.mem_keys,Option.map_eq_some_iff,
        Prod.mk.injEq]
      constructor
      · rintro ⟨key',-,w',hl,rfl,rfl⟩
        exact hl
      · exact fun hl => ⟨key,Finmap.mem_of_lookup_eq_some hl,w,hl,rfl,rfl⟩ }

structure ReplayGuard where
  senders : SenderTable
  deriving DecidableEq

namespace ReplayGuard

def new : ReplayGuard := ⟨∅⟩

def trackedSenders (g : ReplayGuard) : ℕ := g.senders.keys.card

/-- Drop the first entry of the least `last_seen_ms` once the table is at its cap. -/
def evictIfFull (order : HashOrder) (g : ReplayGuard) : ReplayGuard :=
  if g.senders.keys.card < maxTrackedSenders then g
  else match (order.iter g.senders).argmin fun entry => entry.2.lastSeenMs.toNat with
    | none => g
    | some victim => ⟨g.senders.erase victim.1⟩

/-- The timestamp lies within the freshness window around `nowMs`. -/
def fresh (timestampMs nowMs : UInt64) : Bool :=
  let lower := saturatingSub nowMs freshnessWindowMs
  let upper := saturatingAdd nowMs freshnessWindowMs
  !(timestampMs < lower || timestampMs > upper)

/-- Check freshness and dedup for a message and, on accept, record it. The windows are indexed with the
64-bit `usize` of a 64-bit target. -/
def checkAndAdmit {ε : Type} (order : HashOrder) (sender : Bytes32) (senderEpoch : UInt32)
    (counter timestampMs nowMs : UInt64) : Fallible ε ReplayGuard Bool := do
  if !fresh timestampMs nowMs then pure false
  else
    let key := (sender,senderEpoch)
    let g ← Fallible.read
    let g := if key ∈ g.senders then g else g.evictIfFull order
    let window := (g.senders.lookup key).getD .new
    let (admitted,window) ← Fallible.unwrap (window.admitCounter 64 counter)
    let window := if admitted then {window with lastSeenMs := max window.lastSeenMs timestampMs}
      else window
    Fallible.write ⟨g.senders.insert key window⟩
    pure admitted

/-- A counter the guard refuses for `key`. -/
def Seen (g : ReplayGuard) (key : SenderKey) (counter : UInt64) : Prop :=
  ∃ w, g.senders.lookup key = some w ∧ w.Seen counter

instance (g : ReplayGuard) (key : SenderKey) (counter : UInt64) : Decidable (g.Seen key counter) :=
  decidable_of_iff ((g.senders.lookup key).any (fun w => decide (w.Seen counter)) = true) (by
    cases h : g.senders.lookup key <;> simp [Seen,h])

@[simp] theorem new_not_seen (key : SenderKey) (counter : UInt64) : ¬ new.Seen key counter := by
  simp [new,Seen]

theorem insert_lookup {t : SenderTable} {key : SenderKey} {w : SenderWindow}
    (h : t.lookup key = some w) : t.insert key w = t := by
  apply Finmap.ext_lookup
  intro k
  by_cases hk : k = key
  · subst hk
    rw [Finmap.lookup_insert,h]
  · rw [Finmap.lookup_insert_of_ne _ hk]

/-- Eviction does nothing below the cap; at the cap it removes one entry of the least
`last_seen_ms`. -/
theorem evictIfFull_cases (order : HashOrder) (g : ReplayGuard) :
    (g.trackedSenders < maxTrackedSenders ∧ g.evictIfFull order = g) ∨
    (maxTrackedSenders ≤ g.trackedSenders ∧ ∃ victim w, g.senders.lookup victim = some w ∧
      (∀ key w', g.senders.lookup key = some w' → w.lastSeenMs.toNat ≤ w'.lastSeenMs.toNat) ∧
      g.evictIfFull order = ⟨g.senders.erase victim⟩) := by
  unfold evictIfFull trackedSenders
  by_cases hc : g.senders.keys.card < maxTrackedSenders
  · exact Or.inl ⟨hc,if_pos hc⟩
  · refine Or.inr ⟨Nat.not_lt.mp hc,?_⟩
    rw [if_neg hc]
    cases ha : (order.iter g.senders).argmin fun entry => entry.2.lastSeenMs.toNat with
    | none =>
      have hnil := List.argmin_eq_none.mp ha
      obtain ⟨key,hkey⟩ : ∃ key, key ∈ g.senders.keys := by
        apply Finset.card_pos.mp
        have hm : 0 < maxTrackedSenders := by decide
        omega
      obtain ⟨w,hw⟩ := Finmap.mem_iff.mp (Finmap.mem_keys.mp hkey)
      have hmem := (order.mem_iter g.senders key w).mpr hw
      rw [hnil] at hmem
      cases hmem
    | some victim =>
      refine ⟨victim.1,victim.2,(order.mem_iter _ _ _).mp (List.argmin_mem ha),?_,rfl⟩
      intro key w' hw'
      exact List.le_of_mem_argmin (f:=fun entry : SenderKey × SenderWindow =>
        entry.2.lastSeenMs.toNat) ((order.mem_iter _ _ _).mpr hw') ha

/-- What one call can do. A refusal leaves the table as it was; an acceptance leaves the
window of its key with the counter seen, after an eviction where the key is new. -/
theorem checkAndAdmit_cases {ε : Type} (order : HashOrder) (sender : Bytes32)
    (senderEpoch : UInt32) (counter timestampMs nowMs : UInt64) (g : ReplayGuard) :
    ((fresh timestampMs nowMs = false ∨ g.Seen (sender,senderEpoch) counter) ∧
      checkAndAdmit (ε:=ε) order sender senderEpoch counter timestampMs nowMs g =
        some (.ok false,g)) ∨
    (fresh timestampMs nowMs = true ∧ ¬ g.Seen (sender,senderEpoch) counter ∧
      ∃ base w w', base = (if (sender,senderEpoch) ∈ g.senders then g else g.evictIfFull order) ∧
        w = (base.senders.lookup (sender,senderEpoch)).getD .new ∧ ¬ w.Seen counter ∧
        w.admitCounter 64 counter = some (true,w') ∧
        checkAndAdmit (ε:=ε) order sender senderEpoch counter timestampMs nowMs g =
          some (.ok true,⟨base.senders.insert (sender,senderEpoch)
            {w' with lastSeenMs := max w'.lastSeenMs timestampMs}⟩)) := by
  by_cases hf : fresh timestampMs nowMs
  · by_cases hk : (sender,senderEpoch) ∈ g.senders
    · obtain ⟨w,hw⟩ := Finmap.mem_iff.mp hk
      obtain ⟨hs,ha⟩ | ⟨hs,w',ha,-⟩ := SenderWindow.admitCounter_total w counter
      · refine Or.inl ⟨Or.inr ⟨w,hw,hs⟩,?_⟩
        simp [checkAndAdmit,hf,bind,Fallible.andThen,Fallible.read,hk,hw,ha,
          Fallible.unwrap,Fallible.write,pure,insert_lookup hw]
      · refine Or.inr ⟨hf,?_,g,w,w',by simp [hk],by simp [hw],hs,ha,?_⟩
        · rintro ⟨w₁,hw₁,hs₁⟩
          rw [hw] at hw₁
          cases hw₁
          exact hs hs₁
        · simp [checkAndAdmit,hf,bind,Fallible.andThen,Fallible.read,hk,hw,ha,Fallible.unwrap,
            Fallible.write,pure]
    · have hl : (g.evictIfFull order).senders.lookup (sender,senderEpoch) = none := by
        rw [Finmap.lookup_eq_none]
        obtain ⟨-,he⟩ | ⟨-,victim,_,-,-,he⟩ := evictIfFull_cases order g
        · rwa [he]
        · rw [he]
          exact fun hm => hk (Finmap.mem_erase.mp hm).2
      obtain ⟨hs,-⟩ | ⟨hs,w',ha,-⟩ := SenderWindow.admitCounter_total .new counter
      · exact absurd hs (SenderWindow.new_not_seen counter)
      · refine Or.inr ⟨hf,?_,g.evictIfFull order,.new,w',by simp [hk],by simp [hl],hs,ha,?_⟩
        · rintro ⟨w₁,hw₁,-⟩
          exact hk (Finmap.mem_of_lookup_eq_some hw₁)
        · simp [checkAndAdmit,hf,bind,Fallible.andThen,Fallible.read,hk,hl,ha,Fallible.unwrap,
            Fallible.write,pure]
  · refine Or.inl ⟨Or.inl (by simpa using hf),?_⟩
    simp [checkAndAdmit,hf]

end ReplayGuard
end DigMessage
