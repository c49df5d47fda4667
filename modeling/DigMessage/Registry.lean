import DigMessage.Envelope
import DigMessage.Fallible

/-! The message-type registry: a table from type ids to the handlers of typed payloads. A
registration never displaces another, so over any use of the table an id belongs to the first that
asked for it. -/
namespace DigMessage
open Streamable

/-- What a subsystem declares of a message type: its reserved id and its payload. -/
structure MessageKind where
  typeId : UInt32
  Payload : Type
  [streamable : Streamable Payload]

instance (kind : MessageKind) : Streamable kind.Payload := kind.streamable

inductive Dispatch
  | handled | dropped
  deriving DecidableEq, Repr

abbrev Handler (σ : Type) := List UInt8 → Fallible MessageError σ Unit

structure MessageRegistry (σ : Type) where
  handlers : Finmap fun _ : UInt32 => Handler σ

namespace MessageRegistry
variable {σ : Type}

def new : MessageRegistry σ := ⟨∅⟩

def contains (r : MessageRegistry σ) (messageType : UInt32) : Bool := messageType ∈ r.handlers

def len (r : MessageRegistry σ) : ℕ := r.handlers.entries.card

def decoding (kind : MessageKind) (handler : kind.Payload → Fallible MessageError σ Unit) : Handler σ :=
  fun bytes => do
    let payload ← Fallible.ofExcept (mapStreamable .codec (fromBytes bytes))
    handler payload

def register (kind : MessageKind) (handler : kind.Payload → Fallible MessageError σ Unit) :
    Fallible MessageError (MessageRegistry σ) Unit := do
  let r ← Fallible.read
  if kind.typeId ∈ r.handlers then Fallible.fail (.duplicateType kind.typeId)
  else Fallible.write ⟨r.handlers.insert kind.typeId (decoding kind handler)⟩

/-- Route a payload to its handler; an unknown type fails by its shape. -/
def dispatch (r : MessageRegistry σ) (messageType : UInt32) (shape : InteractionShape)
    (payload : List UInt8) : Fallible MessageError σ Dispatch :=
  match r.handlers.lookup messageType with
  | some handler => do
    handler payload
    pure .handled
  | none =>
    match shape with
    | .request | .streamFrame => Fallible.fail (.unsupportedType messageType)
    | .oneShot | .response => pure .dropped

theorem register_of_mem {r : MessageRegistry σ} {kind : MessageKind}
    {handler : kind.Payload → Fallible MessageError σ Unit} (h : kind.typeId ∈ r.handlers) :
    register kind handler r = some (.error (.duplicateType kind.typeId),r) := by
  simp [register,h,bind,Fallible.andThen]

theorem register_of_not_mem {r : MessageRegistry σ} {kind : MessageKind}
    {handler : kind.Payload → Fallible MessageError σ Unit} (h : kind.typeId ∉ r.handlers) :
    register kind handler r =
      some (.ok (),⟨r.handlers.insert kind.typeId (decoding kind handler)⟩) := by
  simp [register,h,bind,Fallible.andThen]

theorem decoding_error {kind : MessageKind} {handler : kind.Payload → Fallible MessageError σ Unit}
    {bytes : List UInt8} {e : StreamableError} (h : fromBytes (α:=kind.Payload) bytes = .error e)
    (world : σ) : decoding kind handler bytes world = some (.error (.codec (.streamable e)),world) := by
  simp [decoding,h,mapStreamable,Except.mapError,bind,Fallible.andThen]

theorem decoding_ok {kind : MessageKind} {handler : kind.Payload → Fallible MessageError σ Unit}
    {bytes : List UInt8} {payload : kind.Payload} (h : fromBytes bytes = .ok payload) (world : σ) :
    decoding kind handler bytes world = handler payload world := by
  simp [decoding,h,bind,Fallible.andThen]

theorem dispatch_of_lookup {r : MessageRegistry σ} {messageType : UInt32} {handler : Handler σ}
    (h : r.handlers.lookup messageType = some handler) (shape : InteractionShape)
    (payload : List UInt8) (world : σ) : r.dispatch messageType shape payload world =
      (handler payload world).map fun p => (p.1.map fun _ => .handled,p.2) := by
  simp only [dispatch,h]
  rcases hrun : handler payload world with _ | ⟨e | u,world'⟩
  · rw [Fallible.bind_of_none hrun]
    rfl
  · rw [Fallible.bind_of_error hrun]
    rfl
  · rw [Fallible.bind_of_ok hrun]
    rfl

theorem dispatch_of_unknown {r : MessageRegistry σ} {messageType : UInt32}
    (h : r.handlers.lookup messageType = none) (payload : List UInt8) (world : σ) :
    r.dispatch messageType .request payload world =
      some (.error (.unsupportedType messageType),world) ∧
    r.dispatch messageType .streamFrame payload world =
      some (.error (.unsupportedType messageType),world) ∧
    r.dispatch messageType .oneShot payload world = some (.ok .dropped,world) ∧
    r.dispatch messageType .response payload world = some (.ok .dropped,world) := by
  simp [dispatch,h]

structure Registration (σ : Type) where
  kind : MessageKind
  handler : kind.Payload → Fallible MessageError σ Unit

inductive Usage (σ : Type)
  | register (reg : Registration σ) (res : Except MessageError Unit)
  | dispatch (messageType : UInt32) (shape : InteractionShape) (payload : List UInt8) (world : σ)
      (res : Option (Except MessageError Dispatch × σ))

/-- The calls on a table since it was new, in any order and in any world. -/
inductive History : List (Usage σ) → MessageRegistry σ → Prop
  | new : History [] .new
  | registers {tr : List (Usage σ)} {r r' : MessageRegistry σ} {res : Except MessageError Unit}
      (reg : Registration σ) : History tr r → register reg.kind reg.handler r = some (res,r') →
      History (tr++[.register reg res]) r'
  | dispatches {tr : List (Usage σ)} {r : MessageRegistry σ} (messageType : UInt32)
      (shape : InteractionShape) (payload : List UInt8) (world : σ) : History tr r →
      History (tr++[.dispatch messageType shape payload world
        (r.dispatch messageType shape payload world)]) r

def Usage.registers (messageType : UInt32) : Usage σ → Option (Registration σ)
  | .register reg (.ok ()) => if reg.kind.typeId = messageType then some reg else none
  | _ => none

/-- What the table is for: a type belongs to the first that registered it. -/
def registrant (messageType : UInt32) (tr : List (Usage σ)) : Option (Registration σ) :=
  tr.findSome? (Usage.registers messageType)

def Registered (messageType : UInt32) (tr : List (Usage σ)) : Prop :=
  ∃ reg : Registration σ, Usage.register reg (.ok ()) ∈ tr ∧ reg.kind.typeId = messageType

theorem registrant_snoc (messageType : UInt32) (tr : List (Usage σ)) (u : Usage σ) :
    registrant messageType (tr++[u]) = (registrant messageType tr).or (u.registers messageType) := by
  simp [registrant,List.findSome?_append]

/-- The table holds the handler of each type's registrant and nothing else. -/
theorem History.lookup {tr : List (Usage σ)} {r : MessageRegistry σ} (h : History tr r)
    (messageType : UInt32) : r.handlers.lookup messageType =
      (registrant messageType tr).map fun reg => decoding reg.kind reg.handler := by
  induction h with
  | new => rfl
  | @registers tr r r' res reg hr hcall ih =>
    rw [registrant_snoc]
    by_cases hm : reg.kind.typeId ∈ r.handlers
    · rw [register_of_mem hm] at hcall
      cases hcall
      rw [ih]
      simp [Usage.registers]
    · rw [register_of_not_mem hm] at hcall
      cases hcall
      by_cases ht : reg.kind.typeId = messageType
      · have hfirst : registrant messageType tr = none := by
          rw [ht] at hm
          rw [Finmap.lookup_eq_none.mpr hm] at ih
          exact Option.map_eq_none_iff.mp ih.symm
        rw [hfirst,← ht]
        simp [Usage.registers]
      · rw [Finmap.lookup_insert_of_ne _ (Ne.symm ht),ih]
        simp [Usage.registers,ht]
  | dispatches messageType' shape payload world hr ih =>
    rw [registrant_snoc,ih]
    simp [Usage.registers]

theorem registers_eq_some {messageType : UInt32} {u : Usage σ} {reg : Registration σ} :
    u.registers messageType = some reg ↔
      u = .register reg (.ok ()) ∧ reg.kind.typeId = messageType := by
  rcases u with ⟨reg',e | _⟩ | _
  · simp [Usage.registers]
  · by_cases ht : reg'.kind.typeId = messageType
    · simp only [Usage.registers,ht,if_true,Option.some.injEq,Usage.register.injEq,and_true]
      constructor
      · rintro rfl
        exact ⟨rfl,ht⟩
      · exact fun h => h.1
    · simp only [Usage.registers,ht,if_false,reduceCtorEq,Usage.register.injEq,and_true,false_iff]
      rintro ⟨rfl,h⟩
      exact ht h
  · simp [Usage.registers]

theorem registrant_eq_none {messageType : UInt32} {tr : List (Usage σ)} :
    registrant messageType tr = none ↔ ¬ Registered messageType tr := by
  rw [registrant,List.findSome?_eq_none_iff]
  constructor
  · rintro h ⟨reg,hmem,ht⟩
    have hnone := h _ hmem
    rw [registers_eq_some.mpr ⟨rfl,ht⟩] at hnone
    cases hnone
  · intro h u hu
    cases hreg : u.registers messageType with
    | none => rfl
    | some reg =>
      obtain ⟨rfl,ht⟩ := registers_eq_some.mp hreg
      exact absurd ⟨reg,hu,ht⟩ h

theorem registrant_of_first {before after : List (Usage σ)} {reg : Registration σ}
    (h : ¬ Registered reg.kind.typeId before) :
    registrant reg.kind.typeId (before++.register reg (.ok ())::after) = some reg := by
  have hnone := registrant_eq_none.mpr h
  rw [registrant] at hnone
  simp [registrant,List.findSome?_append,hnone,Usage.registers]

theorem History.contains_iff {tr : List (Usage σ)} {r : MessageRegistry σ} (h : History tr r)
    (messageType : UInt32) : r.contains messageType = true ↔ Registered messageType tr := by
  have hlook := h.lookup messageType
  rw [contains,decide_eq_true_iff,← not_iff_not,← Finmap.lookup_eq_none,hlook,Option.map_eq_none_iff,
    registrant_eq_none]

/-- Over any use of a registry an id belongs to the first that registered it. Dispatch decodes for
and runs the handler of that registration, whatever was registered later; a registration is refused
exactly where the id was registered before, and then changes nothing; and a type that was never
registered is answered by the shape alone. -/
theorem first_registration_serves {tr : List (Usage σ)} {r : MessageRegistry σ} (h : History tr r) :
    (∀ (before after : List (Usage σ)) (reg : Registration σ),
      tr = before++.register reg (.ok ())::after → ¬ Registered reg.kind.typeId before →
      ∀ (shape : InteractionShape) (bytes : List UInt8) (world : σ),
        (∀ e, fromBytes (α:=reg.kind.Payload) bytes = .error e →
          r.dispatch reg.kind.typeId shape bytes world =
            some (.error (.codec (.streamable e)),world)) ∧
        ∀ payload, fromBytes bytes = .ok payload →
          r.dispatch reg.kind.typeId shape bytes world =
            (reg.handler payload world).map fun p => (p.1.map fun _ => .handled,p.2)) ∧
    (∀ reg : Registration σ, ∃ res r', register reg.kind reg.handler r = some (res,r') ∧
      (res = .error (.duplicateType reg.kind.typeId) ↔ Registered reg.kind.typeId tr) ∧
      (Registered reg.kind.typeId tr → r' = r) ∧
      (¬ Registered reg.kind.typeId tr → res = .ok ())) ∧
    ∀ messageType : UInt32, ¬ Registered messageType tr → ∀ (payload : List UInt8) (world : σ),
      r.dispatch messageType .request payload world =
        some (.error (.unsupportedType messageType),world) ∧
      r.dispatch messageType .streamFrame payload world =
        some (.error (.unsupportedType messageType),world) ∧
      r.dispatch messageType .oneShot payload world = some (.ok .dropped,world) ∧
      r.dispatch messageType .response payload world = some (.ok .dropped,world) := by
  refine ⟨?_,?_,?_⟩
  · rintro before after reg rfl hfirst shape bytes world
    have hlook := h.lookup reg.kind.typeId
    rw [registrant_of_first hfirst,Option.map_some] at hlook
    have hdispatch := dispatch_of_lookup hlook shape bytes world
    constructor
    · intro e he
      rw [hdispatch,decoding_error he]
      rfl
    · intro payload hpayload
      rw [hdispatch,decoding_ok hpayload]
  · intro reg
    have hmem : reg.kind.typeId ∈ r.handlers ↔ Registered reg.kind.typeId tr := by
      rw [← h.contains_iff,contains,decide_eq_true_iff]
    by_cases hr : Registered reg.kind.typeId tr
    · exact ⟨_,r,register_of_mem (hmem.mpr hr),iff_of_true rfl hr,fun _ => rfl,fun hn => absurd hr hn⟩
    · exact ⟨_,_,register_of_not_mem (fun hm => hr (hmem.mp hm)),iff_of_false nofun hr,
        fun hn => absurd hn hr,fun _ => rfl⟩
  · intro messageType hr payload world
    have hlook := h.lookup messageType
    rw [registrant_eq_none.mpr hr] at hlook
    exact dispatch_of_unknown hlook payload world

def chatText : MessageKind := {typeId := 0x201, Payload := List UInt8}
def emailText : MessageKind := {typeId := 0x301, Payload := List UInt8}

def logging (mark : UInt8) (body : List UInt8) : Fallible MessageError (List (List UInt8)) Unit := do
  let log ← Fallible.read
  Fallible.write (log++[mark::body])

theorem twoKinds_history : ∃ res r, History [.register ⟨chatText,logging 1⟩ (.ok ()),
    .dispatch 0x201 .oneShot [0,0,0,1,7] [] res,
    .register ⟨chatText,logging 2⟩ (.error (.duplicateType 0x201)),
    .register ⟨emailText,logging 3⟩ (.ok ())] r := by
  let chat : MessageRegistry (List (List UInt8)) :=
    ⟨Finmap.insert chatText.typeId (decoding chatText (logging 1)) ∅⟩
  have hmem : ∀ t, t ∈ chat.handlers ↔ t = chatText.typeId := by
    intro t
    rw [Finmap.mem_insert]
    exact or_iff_left Finmap.notMem_empty
  have h₁ : History [.register ⟨chatText,logging 1⟩ (.ok ())] chat :=
    .registers ⟨chatText,logging 1⟩ .new (register_of_not_mem Finmap.notMem_empty)
  have h₂ := History.dispatches 0x201 .oneShot [0,0,0,1,7] [] h₁
  have h₃ := History.registers ⟨chatText,logging 2⟩ h₂ (register_of_mem ((hmem _).mpr rfl))
  have hnew : emailText.typeId ∉ chat.handlers := fun h => absurd ((hmem _).mp h) (by decide)
  exact ⟨_,_,History.registers ⟨emailText,logging 3⟩ h₃ (register_of_not_mem hnew)⟩

/-- The first chat handler still serves, a third one is refused, and another subsystem's id is not
known. -/
theorem twoKinds_serve : ∃ tr r, History tr r ∧ tr.length = 4 ∧
    r.dispatch 0x201 .request [0,0,0,1,7] [] = some (.ok .handled,[[1,7]]) ∧
    r.dispatch 0x201 .request [0,0,0,2,7] [] =
      some (.error (.codec (.streamable .endOfBuffer)),[]) ∧
    register chatText (logging 4) r = some (.error (.duplicateType 0x201),r) ∧
    r.dispatch 0x401 .request [] [] = some (.error (.unsupportedType 0x401),[]) := by
  obtain ⟨res,r,h⟩ := twoKinds_history
  obtain ⟨hserved,hrefused,hunknown⟩ := first_registration_serves h
  have hfirst : ¬ Registered chatText.typeId ([] : List (Usage (List (List UInt8)))) := by
    rintro ⟨reg,hmem,-⟩
    cases hmem
  obtain ⟨-,hgood⟩ := hserved [] _ ⟨chatText,logging 1⟩ rfl hfirst .request [0,0,0,1,7] []
  obtain ⟨hbad,-⟩ := hserved [] _ ⟨chatText,logging 1⟩ rfl hfirst .request [0,0,0,2,7] []
  obtain ⟨res',r',hcall,hduplicate,hsame,-⟩ := hrefused ⟨chatText,logging 4⟩
  rw [hduplicate.mpr ⟨⟨chatText,logging 1⟩,List.mem_cons_self,rfl⟩,
    hsame ⟨⟨chatText,logging 1⟩,List.mem_cons_self,rfl⟩] at hcall
  refine ⟨_,r,h,rfl,hgood [7] rfl,hbad _ rfl,hcall,(hunknown 0x401 ?_ [] []).1⟩
  rintro ⟨reg,hmem,ht⟩
  simp only [List.mem_cons,Usage.register.injEq,reduceCtorEq,and_false,and_true,false_or,
    List.not_mem_nil,or_false] at hmem
  rcases hmem with rfl | rfl
  · exact absurd ht (by decide)
  · exact absurd ht (by decide)

end MessageRegistry
end DigMessage
