import DigMessage.GuardReorder
import DigMessage.Registry
import DigMessage.SealTamper

/-! The receiving end as a whole. A frame is decoded, opened and dispatched; what reaches a handler
is what a sender sealed for this recipient, and a sealed message reaches its handler at most once. -/
namespace DigMessage
open FixedWidth Streamable

theorem kdfInfo_inj {kemEnc kemEnc' senderPub senderPub' recipientPub recipientPub' : Bytes48}
    (h : kdfInfo kemEnc senderPub recipientPub = kdfInfo kemEnc' senderPub' recipientPub') :
    kemEnc = kemEnc' ∧ senderPub = senderPub' ∧ recipientPub = recipientPub' := by
  have hlen (a b : Bytes48) : a.val.length = b.val.length := a.2.trans b.2.symm
  simp only [kdfInfo,List.append_assoc,List.append_cancel_left_eq] at h
  obtain ⟨hkem,hrest⟩ := List.append_inj h (hlen _ _)
  obtain ⟨hsender,hrecipient⟩ := List.append_inj hrest (hlen _ _)
  exact ⟨Subtype.ext hkem,Subtype.ext hsender,Subtype.ext hrecipient⟩

section
variable {SK : Type} {P : Primitives SK} {calls : Set (SealCall SK)} {recipientSk : SK}
  {env : DigMessageEnvelope} {resolveSenderPub : Bytes32 → UInt32 → Option Bytes48}
  {order : HashOrder} {nowMs : UInt64} {g g' : ReplayGuard}

theorem parties_of_authenticate (hideal : IdealSeal P calls) {shape : InteractionShape}
    {inner : InnerMessage}
    (h : authenticate P recipientSk env resolveSenderPub = .ok (shape,inner)) :
    ∃ call ∈ calls, call.output P = .ok env ∧
      KeysMatch P call.params recipientSk resolveSenderPub := by
  obtain ⟨-,senderPub,z,aad,innerBytes,hpub,haad,ho,-⟩ := authenticate_ok h
  have hdec : ∃ pt, P.aeadDecrypt (okmKey (kdf P z env.sealed.kemEnc senderPub
      (P.publicKeyBytes recipientSk))) (okmNonce (kdf P z env.sealed.kemEnc senderPub
      (P.publicKeyBytes recipientSk))) aad env.sealed.ciphertext = some pt := by
    unfold aeadOpen at ho
    split at ho
    · exact ⟨_,‹_›⟩
    · cases ho
  obtain ⟨pt,hpt⟩ := hdec
  obtain ⟨call,hc,env₀,z₀,hout,hz₀,haad₀,hkey,hnonce,hct⟩ := hideal.aead _ _ _ _ _ hpt
  -- one derivation, so one encapsulation and the same two keys
  have hinfo := (hideal.kdf call hc z₀ z _ hz₀ (okm_ext hkey hnonce)).2
  obtain ⟨hkem,hsender,hrecipient⟩ := kdfInfo_inj hinfo
  obtain ⟨_,_,_,_,_,-,-,-,-,-,henv₀⟩ := sealWithEphemeral_ok hout
  have hsealed : env.sealed = env₀.sealed := by
    have hkem₀ : env₀.sealed.kemEnc = P.publicKeyBytes call.esk := by rw [henv₀]; rfl
    cases hs : env.sealed
    cases hs₀ : env₀.sealed
    simp_all
  obtain rfl := DigMessageEnvelope.eq_of_fields
    (DigMessageEnvelope.headerFields_of_bytes haad haad₀)
    hsealed
  refine ⟨call,hc,hout,hrecipient.symm,?_⟩
  rw [henv₀] at hpub
  rw [← hsender]
  exact hpub

/-- Opening fails without a trace, or meets what one of the calls sealed for this key, and then can
only fail for the payload. -/
theorem open_cases (hP : P.Lawful) (hideal : IdealSeal P calls)
    {res : Except MessageError OpenedMessage}
    (h : openMessage P order recipientSk env resolveSenderPub nowMs g = some (res,g')) :
    (g' = g ∧ ∃ err, res = .error err) ∨ ∃ call ∈ calls, call.output P = .ok env ∧
      KeysMatch P call.params recipientSk resolveSenderPub ∧ Admits order call.params nowMs g g' ∧
      (res = .ok call.params.opened ∨ ∃ err, res = .error err) := by
  obtain ⟨err,hopen,-⟩ | ⟨shape,inner,g₁,had,hopen⟩ :=
    openMessage_cases P order recipientSk env resolveSenderPub nowMs g
  · rw [hopen] at h
    cases h
    exact Or.inl ⟨rfl,err,rfl⟩
  · obtain ⟨call,hc,hout,hk⟩ := parties_of_authenticate hideal had.authentic
    obtain ⟨compressed,-,hauth,ct,henv⟩ := authentic_of_sealed hP hout hk
    have hsame := had.authentic
    rw [hauth] at hsame
    cases hsame
    have hadm : Admits order call.params nowMs g g₁ := by
      have hadmits := had.admits
      rw [henv] at hadmits
      exact hadmits
    have hsealed := openMessage_sealed hP hout hk hadm had.unexpired
    rw [h] at hsealed
    cases hsealed
    refine Or.inr ⟨call,hc,hout,hk,hadm,?_⟩
    split
    · exact Or.inl rfl
    · exact Or.inr ⟨_,rfl⟩

/-- Whatever opens is, field by field, what a sender sealed: for the key that opens it, under the
key that its resolver answers with for the sender. -/
theorem opened_is_sealed (hP : P.Lawful) (hideal : IdealSeal P calls) {m : OpenedMessage}
    (h : openMessage P order recipientSk env resolveSenderPub nowMs g = some (.ok m,g')) :
    ∃ call ∈ calls, call.output P = .ok env ∧ m = call.params.opened ∧
      call.params.recipientPub = P.publicKeyBytes recipientSk ∧
      resolveSenderPub m.sender m.senderEpoch = some (P.publicKeyBytes call.params.senderSk) := by
  obtain ⟨-,err,hres⟩ | ⟨call,hc,hout,hk,-,hres | ⟨err,hres⟩⟩ := open_cases hP hideal h
  · cases hres
  · cases hres
    exact ⟨call,hc,hout,rfl,hk.recipient,hk.sender⟩
  · cases hres

end

/-- A receiver: its anti-replay table, and the world its handlers act on. -/
structure Inbox (σ : Type) where
  guard : ReplayGuard
  world : σ

structure Arrival where
  bytes : List UInt8
  resolveSenderPub : Bytes32 → UInt32 → Option Bytes48
  nowMs : UInt64
  order : HashOrder

section
variable {SK σ : Type} (P : Primitives SK) (recipientSk : SK)

/-- Decode the envelope, open it, and dispatch what it carried. -/
def receive (r : MessageRegistry σ) (x : Arrival) : Fallible MessageError (Inbox σ) Dispatch := do
  let envelope ← Fallible.ofExcept (decodeEnvelope x.bytes)
  let opened ← Fallible.onPart Inbox.guard (fun i guard => {i with guard})
    (openMessage P x.order recipientSk envelope x.resolveSenderPub x.nowMs)
  Fallible.onPart Inbox.world (fun i world => {i with world})
    (r.dispatch opened.messageType opened.shape opened.payload)

variable {P recipientSk} {calls : Set (SealCall SK)} {r : MessageRegistry σ} {x : Arrival}
  {i i' : Inbox σ} {res : Except MessageError Dispatch}

/-- The frame carries what `call` sealed, for this key. -/
structure Bears (P : Primitives SK) (recipientSk : SK) (x : Arrival)
    (call : SealCall SK) : Prop where
  bytes : ∃ env, call.output P = .ok env ∧ encodeEnvelope env = .ok x.bytes
  keys : KeysMatch P call.params recipientSk x.resolveSenderPub

theorem dispatch_cases {messageType : UInt32} {shape : InteractionShape} {payload : List UInt8}
    {world world' : σ} (h : r.dispatch messageType shape payload world = some (res,world')) :
    (r.handlers.lookup messageType = none ∧ world' = world) ∨
    ∃ handler ran, r.handlers.lookup messageType = some handler ∧
      handler payload world = some (ran,world') ∧ res = ran.map fun _ => .handled := by
  cases hl : r.handlers.lookup messageType with
  | none =>
    have hunknown := MessageRegistry.dispatch_of_unknown hl payload world
    refine Or.inl ⟨rfl,?_⟩
    cases shape <;> simp_all
  | some handler =>
    rw [MessageRegistry.dispatch_of_lookup hl,Option.map_eq_some_iff] at h
    obtain ⟨⟨ran,w⟩,hran,he⟩ := h
    cases he
    exact Or.inr ⟨handler,ran,rfl,hran,rfl⟩

/-- Receiving fails without a trace, or the frame carries what one of the calls sealed; then the
table admits it, and the world is left as it is or its handler is run on the payload sealed. -/
theorem receive_cases (hP : P.Lawful) (hideal : IdealSeal P calls)
    (h : receive P recipientSk r x i = some (res,i')) :
    i' = i ∨ ∃ call ∈ calls, Bears P recipientSk x call ∧
      Admits x.order call.params x.nowMs i.guard i'.guard ∧
      (i'.world = i.world ∨ ∃ handler ran,
        r.handlers.lookup call.params.messageType = some handler ∧
        handler call.params.payload i.world = some (ran,i'.world) ∧
        res = ran.map fun _ => .handled) := by
  rcases Fallible.bind_eq_some.mp h with ⟨err,hd,-⟩ | ⟨env,i₀,hd,h⟩
  · rw [Fallible.ofExcept_apply,Option.some.injEq,Prod.mk.injEq] at hd
    exact Or.inl hd.2.symm
  · rw [Fallible.ofExcept_apply,Option.some.injEq,Prod.mk.injEq] at hd
    obtain ⟨hd,rfl⟩ := hd
    have hbytes := (decodeEnvelope_iff.mp hd).2
    rcases Fallible.bind_eq_some.mp h with ⟨err,ho,-⟩ | ⟨m,i₁,ho,hdispatch⟩
    · obtain ⟨g',hopen,rfl⟩ := Fallible.onPart_eq_some.mp ho
      obtain ⟨rfl,-⟩ | ⟨call,hc,hout,hk,hadm,-⟩ := open_cases hP hideal hopen
      · exact Or.inl rfl
      · exact Or.inr ⟨call,hc,⟨⟨env,hout,hbytes⟩,hk⟩,hadm,Or.inl rfl⟩
    · obtain ⟨g',hopen,rfl⟩ := Fallible.onPart_eq_some.mp ho
      obtain ⟨w',hrun,rfl⟩ := Fallible.onPart_eq_some.mp hdispatch
      obtain ⟨-,err,hres⟩ | ⟨call,hc,hout,hk,hadm,hres | ⟨err,hres⟩⟩ := open_cases hP hideal hopen
      · cases hres
      · cases hres
        refine Or.inr ⟨call,hc,⟨⟨env,hout,hbytes⟩,hk⟩,hadm,?_⟩
        obtain ⟨-,hsame⟩ | hran := dispatch_cases hrun
        · exact Or.inl hsame
        · exact Or.inr hran
      · cases hres

structure Node (σ : Type) where
  registry : MessageRegistry σ
  inbox : Inbox σ

inductive NodeEvent (σ : Type)
  | registered (reg : MessageRegistry.Registration σ) (res : Except MessageError Unit)
  | received (x : Arrival) (before : σ) (res : Except MessageError Dispatch) (after : σ)

inductive NodeStep (P : Primitives SK) (recipientSk : SK) : Node σ → NodeEvent σ → Node σ → Prop
  | registers {n : Node σ} {r' : MessageRegistry σ} {res : Except MessageError Unit}
      (reg : MessageRegistry.Registration σ) :
      MessageRegistry.register reg.kind reg.handler n.registry = some (res,r') →
      NodeStep P recipientSk n (.registered reg res) {n with registry := r'}
  | receives {n : Node σ} {i' : Inbox σ} {res : Except MessageError Dispatch} (x : Arrival) :
      receive P recipientSk n.registry x n.inbox = some (res,i') →
      NodeStep P recipientSk n (.received x n.inbox.world res i'.world) {n with inbox := i'}

def Node.new (world : σ) : Node σ := ⟨.new,⟨.new,world⟩⟩

/-- The events of a receiver since it was new. -/
inductive NodeRun (P : Primitives SK) (recipientSk : SK) : List (NodeEvent σ) → Node σ → Prop
  | new (world : σ) : NodeRun P recipientSk [] (.new world)
  | step {log : List (NodeEvent σ)} {n n' : Node σ} {ev : NodeEvent σ} :
      NodeRun P recipientSk log n →
      NodeStep P recipientSk n ev n' → NodeRun P recipientSk (log++[ev]) n'

def registrations (log : List (NodeEvent σ)) : List (MessageRegistry.Usage σ) :=
  log.filterMap fun ev => match ev with
    | .registered reg res => some (.register reg res)
    | .received .. => none

/-- What an event did in the world: nothing, or it ran, for a message sealed to this key, the
handler first registered for its type, on the payload that was serialised, with that handler's
result. -/
inductive Accounted (P : Primitives SK) (recipientSk : SK) (tr : List (MessageRegistry.Usage σ)) :
    NodeEvent σ → Option (SealCall SK) → Prop
  | registered {reg : MessageRegistry.Registration σ} {res : Except MessageError Unit} :
      Accounted P recipientSk tr (.registered reg res) none
  | idle {x : Arrival} {world : σ} {res : Except MessageError Dispatch} :
      Accounted P recipientSk tr (.received x world res world) none
  | ran {x : Arrival} {before after : σ} {ran : Except MessageError Unit} {call : SealCall SK}
      {reg : MessageRegistry.Registration σ} {payload : reg.kind.Payload} :
      Bears P recipientSk x call →
      MessageRegistry.registrant call.params.messageType tr = some reg →
      fromBytes call.params.payload = .ok payload →
      reg.handler payload before = some (ran,after) →
      Accounted P recipientSk tr (.received x before (ran.map fun _ => .handled) after) (some call)

variable {K : Finset SenderKey} {tr tr' : List (MessageRegistry.Usage σ)} {ev : NodeEvent σ}
  {log : List (NodeEvent σ)} {n n' : Node σ} {o : Option (SealCall SK)}
    {served : List (Option (SealCall SK))}

theorem Accounted.mono (h : Accounted P recipientSk tr ev o) (u : List (MessageRegistry.Usage σ)) :
    Accounted P recipientSk (tr++u) ev o := by
  cases h with
  | registered => exact .registered
  | idle => exact .idle
  | ran hbears hreg hpayload hran =>
    refine .ran hbears ?_ hpayload hran
    rw [MessageRegistry.registrant,List.findSome?_append,← MessageRegistry.registrant,hreg]
    rfl

/-- The sealed messages whose handlers ran, by the event: each was authentic, and the table has seen
it; so none ran twice. -/
structure Kept (P : Primitives SK) (recipientSk : SK) (calls : Set (SealCall SK))
    (K : Finset SenderKey) (log : List (NodeEvent σ)) (n : Node σ)
    (served : List (Option (SealCall SK))) : Prop where
  history : MessageRegistry.History (registrations log) n.registry
  accounted : List.Forall₂ (Accounted P recipientSk (registrations log)) log served
  authentic : ∀ call ∈ served.reduceOption, call ∈ calls
  seen : ∀ call ∈ served.reduceOption,
    n.inbox.guard.Seen (call.params.sender,call.params.senderEpoch) call.params.counter
  once : served.reduceOption.Nodup
  roomy : ReplayGuard.Roomy K n.inbox.guard

theorem registrations_snoc (log : List (NodeEvent σ)) (ev : NodeEvent σ) :
    registrations (log++[ev]) = registrations log++registrations [ev] := List.filterMap_append

theorem Kept.accounts (h : Kept P recipientSk calls K log n served)
    (hev : Accounted P recipientSk (registrations (log++[ev])) ev o) :
    List.Forall₂ (Accounted P recipientSk (registrations (log++[ev]))) (log++[ev])
      (served++[o]) := by
  refine List.rel_append ?_ (.cons hev .nil)
  rw [registrations_snoc]
  exact h.accounted.imp fun _ _ hacc => hacc.mono _

theorem reduceOption_snoc {α : Type} (l : List (Option α)) (o : Option α) :
    (l++[o]).reduceOption = l.reduceOption++o.toList := by
  rw [List.reduceOption_append]
  cases o <;> rfl

theorem Kept.pass (h : Kept P recipientSk calls K log n served) {n' : Node σ}
    (hhist : MessageRegistry.History (registrations (log++[ev])) n'.registry)
    (hev : Accounted P recipientSk (registrations (log++[ev])) ev none)
    (hseen : ∀ key counter, n.inbox.guard.Seen key counter → n'.inbox.guard.Seen key counter)
    (hroomy : ReplayGuard.Roomy K n'.inbox.guard) :
    Kept P recipientSk calls K (log++[ev]) n' (served++[none]) := by
  have hsame : (served++[none]).reduceOption = served.reduceOption := by
    rw [reduceOption_snoc,Option.toList_none,List.append_nil]
  refine ⟨hhist,h.accounts hev,?_,?_,?_,hroomy⟩
  · rw [hsame]
    exact h.authentic
  · rw [hsame]
    exact fun call hc => hseen _ _ (h.seen call hc)
  · rw [hsame]
    exact h.once

theorem Kept.step (hP : P.Lawful) (hideal : IdealSeal P calls)
    (hK : ∀ call ∈ calls, (call.params.sender,call.params.senderEpoch) ∈ K)
    (h : Kept P recipientSk calls K log n served) (hs : NodeStep P recipientSk n ev n') :
    ∃ o, Kept P recipientSk calls K (log++[ev]) n' (served++[o]) := by
  cases hs with
  | @registers r' res reg hcall =>
    refine ⟨none,h.pass ?_ .registered (fun _ _ => id) h.roomy⟩
    rw [registrations_snoc]
    exact .registers reg h.history hcall
  | @receives i' res x hrecv =>
    have hhist : MessageRegistry.History
        (registrations (log++[.received x n.inbox.world res i'.world]))
        n.registry := by
      rw [registrations_snoc]
      simpa [registrations] using h.history
    obtain rfl | ⟨call,hc,hbears,hadm,hworld⟩ := receive_cases hP hideal hrecv
    · exact ⟨none,h.pass hhist .idle (fun _ _ => id) h.roomy⟩
    · let check : Check := ⟨call.params.sender,call.params.senderEpoch,call.params.counter,
        call.params.timestampMs,x.nowMs,x.order⟩
      have hstep : check.Step n.inbox.guard true i'.guard := hadm
      have hkey : check.key ∈ K := hK call hc
      have hkept {key : SenderKey} {counter : UInt64} (hseen : n.inbox.guard.Seen key counter) :=
        h.roomy.seen_step hstep hkey hseen
      have hroomy := h.roomy.step hstep hkey
      rcases hworld with hsame | ⟨handler,ran,hlook,hran,rfl⟩
      · refine ⟨none,h.pass hhist ?_ (fun _ _ => hkept) hroomy⟩
        rw [hsame]
        exact .idle
      · have hreg := h.history.lookup call.params.messageType
        rw [hlook,eq_comm,Option.map_eq_some_iff] at hreg
        obtain ⟨reg,hreg,rfl⟩ := hreg
        cases hdec : (fromBytes call.params.payload : Except StreamableError reg.kind.Payload) with
        | error err =>
          rw [MessageRegistry.decoding_error hdec,Option.some.injEq,Prod.mk.injEq] at hran
          refine ⟨none,h.pass hhist ?_ (fun _ _ => hkept) hroomy⟩
          rw [← hran.2]
          exact .idle
        | ok payload =>
          rw [MessageRegistry.decoding_ok hdec] at hran
          have hev : Accounted P recipientSk (registrations (log++[.received x n.inbox.world
              (ran.map fun _ => .handled) i'.world])) (.received x n.inbox.world
              (ran.map fun _ => .handled) i'.world) (some call) := by
            refine .ran hbears ?_ hdec hran
            rw [registrations_snoc]
            simpa [registrations] using hreg
          -- the table had not seen it, so it was not served before
          have hnew : call ∉ served.reduceOption := fun hmem =>
            ((ReplayGuard.admitted_iff check n.inbox.guard).mp ⟨_,hstep⟩).2 (h.seen call hmem)
          refine ⟨some call,hhist,h.accounts hev,?_,?_,?_,hroomy⟩
          · rw [reduceOption_snoc,Option.toList_some]
            intro d hd
            rcases List.mem_append.mp hd with hd | hd
            · exact h.authentic d hd
            · rwa [List.mem_singleton.mp hd]
          · rw [reduceOption_snoc,Option.toList_some]
            intro d hd
            rcases List.mem_append.mp hd with hd | hd
            · exact hkept (h.seen d hd)
            · rw [List.mem_singleton.mp hd]
              exact ReplayGuard.seen_of_admitted hstep
          · rw [reduceOption_snoc,Option.toList_some,List.nodup_append_comm]
            exact List.nodup_cons.mpr ⟨hnew,h.once⟩

/-- Over any registrations and any arrivals, in any order: an event leaves the world as it is, or
it runs, for a message that was sealed to this key, the handler first registered for the message's
type, on the payload that was serialised; and no message runs its handler twice. -/
theorem handlers_run_once (hP : P.Lawful) (hideal : IdealSeal P calls)
    (hfew : K.card ≤ maxTrackedSenders)
    (hK : ∀ call ∈ calls, (call.params.sender,call.params.senderEpoch) ∈ K)
    (h : NodeRun P recipientSk log n) :
    ∃ served, List.Forall₂ (Accounted P recipientSk (registrations log)) log served ∧
      (∀ call ∈ served.reduceOption, call ∈ calls) ∧ served.reduceOption.Nodup := by
  have hkept : ∃ served, Kept P recipientSk calls K log n served := by
    induction h with
    | new world =>
      exact ⟨[],.new,.nil,fun _ hc => absurd hc List.not_mem_nil,
        fun _ hc => absurd hc List.not_mem_nil,
        List.nodup_nil,hfew,by simp [Node.new,ReplayGuard.new]⟩
    | step _ hs ih =>
      obtain ⟨served,hk⟩ := ih
      obtain ⟨o,hnext⟩ := hk.step hP hideal hK hs
      exact ⟨served++[o],hnext⟩
  obtain ⟨served,hk⟩ := hkept
  exact ⟨served,hk.accounted,hk.authentic,hk.once⟩

/-- Serialised, sealed and encoded at one end, a value is decoded, opened and dispatched at the
other to the handler first registered for its type: that handler is run on the value itself, and
its result is the result. -/
theorem value_reaches_handler (hP : P.Lawful) {tr : List (MessageRegistry.Usage σ)}
    (hist : MessageRegistry.History tr r) {params : SealParams SK}
    {reg : MessageRegistry.Registration σ}
    (hreg : MessageRegistry.registrant params.messageType tr = some reg)
    (hlawful : LawfulStreamable reg.kind.Payload) {value : reg.kind.Payload}
    (hvalue : toBytes value = .ok params.payload) {entropy : Except String Bytes32}
    {env : DigMessageEnvelope} (hseal : sealMessage P entropy params = .ok env)
    (henc : encodeEnvelope env = .ok x.bytes)
    (hk : KeysMatch P params recipientSk x.resolveSenderPub)
    (hexpiry : checkExpiry params.timestampMs params.expiresAt x.nowMs = .ok ())
    (hfresh : ReplayGuard.fresh params.timestampMs x.nowMs = true)
    (hunseen : ¬ i.guard.Seen (params.sender,params.senderEpoch) params.counter)
    (hcap : params.payload.length ≤ maxDecompressedBytes) :
    ∃ g', Admits x.order params x.nowMs i.guard g' ∧ receive P recipientSk r x i =
      (reg.handler value i.world).map fun p => (p.1.map fun _ => .handled,⟨g',p.2⟩) := by
  obtain ⟨esk,hsealed⟩ := sealMessage_ok hseal
  obtain ⟨_,_,_,_,_,-,-,-,-,-,henv⟩ := sealWithEphemeral_ok hsealed
  have hversion : env.version ≤ envelopeVersion := by
    rw [henv]
    exact UInt8.le_refl _
  have hdecode := decodeEnvelope_iff.mpr ⟨hversion,henc⟩
  obtain ⟨g',hadm⟩ := (ReplayGuard.admitted_iff ⟨params.sender,params.senderEpoch,params.counter,
    params.timestampMs,x.nowMs,x.order⟩ i.guard).mpr ⟨hfresh,hunseen⟩
  have hopen := openMessage_sealed hP hsealed hk hadm hexpiry
  rw [if_pos hcap] at hopen
  have hlook := hist.lookup params.messageType
  rw [hreg,Option.map_some] at hlook
  have hdispatch := MessageRegistry.dispatch_of_lookup hlook params.shape params.payload i.world
  rw [MessageRegistry.decoding_ok (fromBytes_toBytes hvalue)] at hdispatch
  refine ⟨g',hadm,?_⟩
  have hfirst : (Fallible.ofExcept (decodeEnvelope x.bytes) : Fallible MessageError (Inbox σ) _) i =
      some (.ok env,i) := by rw [hdecode,Fallible.ofExcept_apply]
  rw [receive,Fallible.bind_of_ok hfirst,
    Fallible.bind_of_ok (Fallible.onPart_eq_some.mpr ⟨g',hopen,rfl⟩)]
  simp only [Fallible.onPart,SealParams.opened,hdispatch,Option.map_map]
  rfl

end

/-- The stand-in whose cipher encrypts nothing but what it opens again, the letter. -/
def lettersAlone : Primitives Bytes32 :=
  {lettersOnly with
    aeadEncrypt := fun key nonce aad msg =>
      (lettersKeys.aeadEncrypt key nonce aad msg).filter fun ct =>
      decide (lettersOnly.aeadDecrypt key nonce aad ct = some msg)}

theorem lettersAlone_lawful : lettersAlone.Lawful where
  dh_comm := Primitives.plain_lawful.dh_comm
  subgroup := Primitives.plain_lawful.subgroup
  verify_sign := Primitives.plain_lawful.verify_sign
  decrypt_encrypt {key nonce aad msg ct} h := by
    simp only [lettersAlone,Option.filter_eq_some_iff,decide_eq_true_eq] at h
    exact h.2
  zstd {xs ys level} h := by
    cases h
    rfl

theorem letter_output_alone : theLetter.output lettersAlone = .ok letterEnvelope := by
  decide +kernel

theorem lettersAlone_ideal : IdealSeal lettersAlone {theLetter} where
  aead key nonce aad ct pt h := by
    obtain ⟨call,hc,env,z,hout,hz,haad,hkey,hnonce,hct⟩ :=
      lettersOnly_ideal.aead key nonce aad ct pt h
    obtain rfl := Set.mem_singleton_iff.mp hc
    rw [letter_output] at hout
    cases hout
    exact ⟨theLetter,hc,letterEnvelope,z,letter_output_alone,hz,haad,hkey,hnonce,hct⟩
  kdf := lettersOnly_ideal.kdf

def threeBytes : MessageKind := {typeId := 0x500, Payload := Bytes 3}

def letterReader : MessageRegistry.Registration (List (List UInt8)) :=
  ⟨threeBytes,fun b => MessageRegistry.logging 1 b.val⟩

def letterRegistry : MessageRegistry (List (List UInt8)) :=
  ⟨Finmap.insert threeBytes.typeId (MessageRegistry.decoding threeBytes letterReader.handler) ∅⟩

theorem letterReader_registers :
    MessageRegistry.register letterReader.kind letterReader.handler .new =
      some (.ok (),letterRegistry) :=
  MessageRegistry.register_of_not_mem Finmap.notMem_empty

def letterArrival (order : HashOrder) : Arrival :=
  ⟨((encodeEnvelope letterEnvelope).toOption).getD [],lettersSender,1000,order⟩

/-- The letter opens to what was sealed. -/
theorem letter_opens_as_sealed : ∃ g' m, openMessage lettersAlone default (byte32 12) letterEnvelope
    lettersSender 1000 .new = some (.ok m,g') ∧ m = (letter [1,2,3] 0).opened ∧
    lettersSender m.sender m.senderEpoch = some (Primitives.point (byte32 11)) := by
  have hok : ((openMessage lettersAlone default (byte32 12) letterEnvelope lettersSender 1000
      .new).any
    fun p => p.1.isOk) = true := by decide +kernel
  cases hopen : openMessage lettersAlone default (byte32 12) letterEnvelope lettersSender 1000
      .new with
  | none =>
    rw [hopen] at hok
    cases hok
  | some p =>
    obtain ⟨res,g'⟩ := p
    rw [hopen] at hok
    obtain ⟨m,rfl⟩ := exists_of_isOk hok
    obtain ⟨call,hc,-,hm,-,hsender⟩ := opened_is_sealed lettersAlone_lawful lettersAlone_ideal hopen
    obtain rfl := Set.mem_singleton_iff.mp hc
    exact ⟨g',m,rfl,hm,hsender⟩

/-- Registered, received and received again: the reader has read it once. -/
theorem letter_read_once :
    ∃ (log : List (NodeEvent (List (List UInt8)))) (n : Node (List (List UInt8)))
    (served : List (Option (SealCall Bytes32))), NodeRun lettersAlone (byte32 12) log n ∧
    log.length = 3 ∧ n.inbox.world = [[1,1,2,3]] ∧
    List.Forall₂ (Accounted lettersAlone (byte32 12) (registrations log)) log served ∧
    served.reduceOption.Nodup := by
  have htwice : ((receive lettersAlone (byte32 12) letterRegistry (letterArrival default)
      ⟨.new,[]⟩).bind fun p => (receive lettersAlone (byte32 12) letterRegistry (letterArrival default)
        p.2).map fun q => (p.1,q.1,q.2.world)) =
      some (.ok .handled,.error .replay,[[1,1,2,3]]) := by decide +kernel
  obtain ⟨⟨res,i₁⟩,hfirst,hrest⟩ := Option.bind_eq_some_iff.mp htwice
  obtain ⟨⟨res',i₂⟩,hsecond,he⟩ := Option.map_eq_some_iff.mp hrest
  simp only [Prod.mk.injEq] at he
  have hnew : NodeRun lettersAlone (byte32 12) [] (.new ([] : List (List UInt8))) := .new []
  have hrun := (hnew.step (.registers letterReader letterReader_registers)).step
      (.receives _ hfirst)
  have hrun' := hrun.step (.receives _ hsecond)
  obtain ⟨served,hacc,-,honce⟩ := handlers_run_once (K:={(byte32 1,0)}) lettersAlone_lawful
    lettersAlone_ideal (by decide) (by
      intro call hc
      rw [Set.mem_singleton_iff.mp hc]
      decide) hrun'
  exact ⟨_,_,served,hrun',rfl,he.2.2,hacc,honce⟩

/-- Its three bytes are what the reader is run on. -/
theorem letter_reaches_reader : ∃ g', receive lettersAlone (byte32 12) letterRegistry
    (letterArrival default) ⟨.new,[]⟩ = some (.ok .handled,⟨g',[[1,1,2,3]]⟩) := by
  have hist : MessageRegistry.History [.register letterReader (.ok ())] letterRegistry :=
    .registers letterReader .new letterReader_registers
  have hseal : sealMessage lettersAlone (.ok (byte32 7)) (letter [1,2,3] 0) =
      .ok letterEnvelope := by
    decide +kernel
  have hbytes : encodeEnvelope letterEnvelope = .ok (letterArrival default).bytes := by
    decide +kernel
  have hkeys : KeysMatch lettersAlone (letter [1,2,3] 0) (byte32 12)
      (letterArrival default).resolveSenderPub :=
    ⟨rfl,rfl⟩
  have hvalue : toBytes (⟨[1,2,3],rfl⟩ : letterReader.kind.Payload) =
      .ok (letter [1,2,3] 0).payload := rfl
  obtain ⟨g',-,hrecv⟩ := value_reaches_handler (i:=⟨.new,[]⟩) lettersAlone_lawful hist rfl
    (inferInstanceAs (LawfulStreamable (Bytes 3))) hvalue hseal hbytes hkeys (by decide +kernel)
    (by decide) (ReplayGuard.new_not_seen _ _) (by decide)
  exact ⟨g',hrecv⟩

end DigMessage
