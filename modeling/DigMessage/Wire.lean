import DigMessage.RelayFrames
import DigMessage.FrameSize
import DigMessage.EnvelopeCodec
import DigMessage.SelfAddressed

/-! The two endpoints on the wire. What an endpoint returns is encoded, what comes in is decoded
before it is presented, and the relay hands over any bytes it likes. A run of the bytes is a
relayed run of the envelopes that decode, and a frame too long for the wire is lost to it. -/
namespace DigMessage
open FixedWidth

inductive WireInput
  | call (correlationId : Bytes32) (r : Request) (nowMs expiresAt : UInt64)
      (entropy : Except String Bytes32)
  | frame (bytes : List UInt8) (resolveSenderPub : Bytes32 → UInt32 → Option Bytes48)
      (nowMs : UInt64) (order : HashOrder) (entropy : Except String Bytes32)

namespace WireInput

/-- The call it makes on the endpoint, where bytes decode. -/
def decoded : WireInput → Except MessageError Input
  | .call c r nowMs expiresAt entropy => .ok (.call c r nowMs expiresAt entropy)
  | .frame bytes resolveSenderPub nowMs order entropy => (decodeEnvelope bytes).map fun envelope =>
    .accept envelope resolveSenderPub nowMs order entropy

def bytes? : WireInput → Option (List UInt8)
  | .call .. => none
  | .frame bytes _ _ _ _ => some bytes

theorem bytes_of_decoded {i : WireInput} {envelope : DigMessageEnvelope}
    {resolveSenderPub : Bytes32 → UInt32 → Option Bytes48} {nowMs : UInt64} {order : HashOrder}
    {entropy : Except String Bytes32}
    (h : i.decoded = .ok (.accept envelope resolveSenderPub nowMs order entropy)) :
    ∃ bytes, i.bytes? = some bytes ∧ decodeEnvelope bytes = .ok envelope := by
  cases i with
  | call c r nowMs' expiresAt entropy' => cases h
  | frame bytes resolveSenderPub' nowMs' order' entropy' =>
    simp only [decoded] at h
    cases hdec : decodeEnvelope bytes with
    | error err =>
      rw [hdec] at h
      cases h
    | ok envelope' =>
      rw [hdec] at h
      cases h
      exact ⟨bytes,rfl,hdec⟩

end WireInput

abbrev WireHistory (SK : Type) := List (Side × WireInput × Option (Event SK))

section
variable {SK : Type}

def performed (h : WireHistory SK) : History SK :=
  h.filterMap fun p => p.2.2.map fun ev => (p.1,ev)

theorem performed_snoc (h : WireHistory SK) (x : Side) (i : WireInput) (ev : Option (Event SK)) :
    performed (h++[(x,i,ev)]) = performed h++(ev.map fun ev => (x,ev)).toList :=
  Lists.filterMap_snoc _ h (x,i,ev)

theorem mem_performed {h : WireHistory SK} {x : Side} {ev : Event SK} :
    (x,ev) ∈ performed h ↔ ∃ i, (x,i,some ev) ∈ h := by
  simp only [performed,List.mem_filterMap,Option.map_eq_some_iff,Prod.mk.injEq]
  constructor
  · rintro ⟨⟨y,i,o⟩,hmem,ev',ho,hy,hev⟩
    simp only at ho hy
    subst ho hy hev
    exact ⟨i,hmem⟩
  · rintro ⟨i,hmem⟩
    exact ⟨_,hmem,ev,rfl,rfl,rfl⟩

variable (P : Primitives SK) (party : Side → Party SK)

/-- A run on the wire: bytes that do not decode never reach the endpoint. -/
inductive Wired : WireHistory SK → World SK → Prop
  | nil : Wired [] (startWorld P party)
  | garbled {h : WireHistory SK} {w : World SK} {x : Side} {i : WireInput} {err : MessageError} :
      Wired h w → i.decoded = .error err → Wired (h++[(x,i,none)]) w
  | decoded {h : WireHistory SK} {w : World SK} {x : Side} {i : WireInput} {ev : Event SK}
      {e' : StreamEndpoint SK} :
      Wired h w → i.decoded = .ok ev.input → ev.before = w x →
      ev.input.perform P ev.before = some (ev.outcome,e') →
      (∀ envelope resolveSenderPub nowMs order entropy,
        ev.input = .accept envelope resolveSenderPub nowMs order entropy →
        Genuine P (performed h) ev.before envelope resolveSenderPub) →
      Wired (h++[(x,i,some ev)]) (Function.update w x e')

/-- The bytes that passed the anti-replay check of a side. -/
def takenIn (x : Side) (h : WireHistory SK) : List (List UInt8) :=
  h.filterMap fun p => if p.1 = x then
    p.2.2.bind fun ev => if ev.refused P then none else p.2.1.bytes? else none

theorem takenIn_snoc (x y : Side) (h : WireHistory SK) (i : WireInput) (ev : Option (Event SK)) :
    takenIn P x (h++[(y,i,ev)]) = takenIn P x h++(if y = x then
      ev.bind fun ev => if ev.refused P then none else i.bytes? else none).toList :=
  Lists.filterMap_snoc _ h (y,i,ev)

/-- The frame was encoded, and its bytes came in at a side. -/
def Arrived (y : Side) (s : SealedFrame SK) (h : WireHistory SK) : Prop :=
  ∃ bytes, encodeEnvelope s.envelope = .ok bytes ∧ ∃ p ∈ h, p.1 = y ∧ p.2.1.bytes? = some bytes

variable {P} {party} {h : WireHistory SK} {w : World SK}

namespace Wired

theorem relayed (hw : Wired P party h w) : Relayed P (startWorld P party) (performed h) w := by
  induction hw with
  | nil => exact .nil
  | garbled hw hdec ih =>
    rw [performed_snoc]
    simpa using ih
  | decoded hw hdec hb hp hg ih =>
    rw [performed_snoc]
    exact ih.snoc hb hp hg

theorem decodes (hw : Wired P party h w) {x : Side} {i : WireInput} {o : Option (Event SK)}
    (hmem : (x,i,o) ∈ h) : (∃ ev, o = some ev ∧ i.decoded = .ok ev.input) ∨
      (o = none ∧ ∃ err, i.decoded = .error err) := by
  induction hw with
  | nil => cases hmem
  | garbled hw hdec ih =>
    rcases List.mem_append.mp hmem with hold | hnew
    · exact ih hold
    · cases List.mem_singleton.mp hnew
      exact Or.inr ⟨rfl,_,hdec⟩
  | decoded hw hdec hb hp hg ih =>
    rcases List.mem_append.mp hmem with hold | hnew
    · exact ih hold
    · cases List.mem_singleton.mp hnew
      exact Or.inl ⟨_,rfl,hdec⟩

theorem bytes_of_presented (hw : Wired P party h w) {x : Side} {i : WireInput} {ev : Event SK}
    {envelope : DigMessageEnvelope} (hmem : (x,i,some ev) ∈ h)
    (hpres : ev.presented? = some envelope) :
    ∃ bytes, i.bytes? = some bytes ∧ decodeEnvelope bytes = .ok envelope := by
  obtain ⟨ev',ho,hdec⟩ | ⟨ho,-⟩ := hw.decodes hmem
  · cases ho
    obtain ⟨resolveSenderPub,nowMs,order,entropy,hin⟩ := DigMessage.presented_iff.mp hpres
    rw [hin] at hdec
    exact WireInput.bytes_of_decoded hdec
  · cases ho

theorem presented_iff (hw : Wired P party h w) {y : Side} {s : SealedFrame SK}
    (hv : s.envelope.version ≤ envelopeVersion) : Presented y s (performed h) ↔ Arrived y s h := by
  constructor
  · rintro ⟨ev,hmem,hpres⟩
    obtain ⟨i,hi⟩ := mem_performed.mp hmem
    obtain ⟨bytes,hbytes,henv⟩ := hw.bytes_of_presented hi hpres
    exact ⟨bytes,(decodeEnvelope_iff.mp henv).2,_,hi,rfl,hbytes⟩
  · rintro ⟨bytes,henc,⟨x,i,o⟩,hmem,rfl,hbytes⟩
    have hi : ∃ resolveSenderPub nowMs order entropy,
        i.decoded = .ok (.accept s.envelope resolveSenderPub nowMs order entropy) := by
      cases i with
      | call c r nowMs expiresAt entropy => cases hbytes
      | frame bytes' resolveSenderPub nowMs order entropy =>
        cases hbytes
        refine ⟨resolveSenderPub,nowMs,order,entropy,?_⟩
        rw [WireInput.decoded,decodeEnvelope_iff.mpr ⟨hv,henc⟩]
        rfl
    obtain ⟨resolveSenderPub,nowMs,order,entropy,hi⟩ := hi
    obtain ⟨ev,rfl,hdec⟩ | ⟨-,err,hdec⟩ := hw.decodes hmem
    · rw [hi] at hdec
      refine ⟨ev,mem_performed.mpr ⟨i,hmem⟩,?_⟩
      rw [Event.presented?,← Except.ok.inj hdec]
    · rw [hi] at hdec
      cases hdec

end Wired

theorem SealedFrame.Sound.version_le {me peer : Party SK} {s : SealedFrame SK}
    (hs : s.Sound P me peer) :
    s.envelope.version ≤ envelopeVersion := by
  obtain ⟨kemEnc,ct,he⟩ := hs.envelope_eq
  rw [he]
  exact UInt8.le_refl envelopeVersion

theorem SealedFrame.Sound.counter_eq (hP : P.Lawful) {me peer : Party SK} {s s' : SealedFrame SK}
    (hs : s.Sound P me peer) (hs' : s'.Sound P me peer) (he : s.envelope = s'.envelope) :
    s.frame.counter = s'.frame.counter := by
  have hres : knows P me me.did me.epoch = some (P.publicKeyBytes me.identitySk) := if_pos ⟨rfl,rfl⟩
  obtain ⟨inner,ha,hy⟩ := hs.authenticates hP hres
  obtain ⟨inner',ha',hy'⟩ := hs'.authenticates hP hres
  rw [he,ha'] at ha
  cases ha
  rw [← hy.counter hs,hy'.counter hs']

theorem Relayed.admitted_frame {tr : History SK} {x : Side} {ev : Event SK}
    {envelope : DigMessageEnvelope} {resolveSenderPub : Bytes32 → UInt32 → Option Bytes48}
    {nowMs : UInt64} {order : HashOrder} {entropy : Except String Bytes32}
    (hd : (party .a).did ≠ (party .b).did) (hr : Relayed P (startWorld P party) tr w)
    (hb : ev.before = w x) (hi : ev.input = .accept envelope resolveSenderPub nowMs order entropy)
    (hg : Genuine P tr ev.before envelope resolveSenderPub) (hn : ev.refused P = false) :
    ∃ s ∈ sealedBy x.other tr, s.envelope = envelope ∧
      ev.Presents P (party x.other).key s.frame.counter := by
  rw [Event.refused,hi] at hn
  simp only [Bool.not_eq_false'] at hn
  obtain ⟨shape,inner,g',had⟩ := (admits_iff P).mp hn
  obtain ⟨s,hs,_,_,_,_,hi',hyields⟩ := hr.genuine_crosses hd hb hi hg had.authentic
  rw [hi] at hi'
  cases hi'
  have hsound := hr.sound x.other s hs
  exact ⟨s,hs,rfl,_,_,_,_,_,shape,inner,hi,had.authentic,hsound.sender.symm,
    ((hyields _ _ had.authentic).counter hsound).symm⟩

/-- What a side took in are encodings of frames its peer sealed, each once; its table has seen
them. -/
theorem Wired.taken_in (hP : P.Lawful) (hd : (party .a).did ≠ (party .b).did)
    (hw : Wired P party h w) (x : Side) : (takenIn P x h).Nodup ∧ ∀ bytes ∈ takenIn P x h,
      ∃ s ∈ sealedBy x.other (performed h), encodeEnvelope s.envelope = .ok bytes ∧
        (w x).guard.Seen (party x.other).key s.frame.counter := by
  induction hw with
  | nil => exact ⟨List.nodup_nil,fun _ hmem => absurd hmem List.not_mem_nil⟩
  | garbled hw hdec ih =>
    rw [takenIn_snoc,performed_snoc]
    simpa using ih
  | @decoded h w y i ev e' hw hdec hb hp hg ih =>
    have hr := hw.relayed
    have hkept : ∀ bytes ∈ takenIn P x h,
        ∃ s ∈ sealedBy x.other (performed (h++[(y,i,some ev)])),
          encodeEnvelope s.envelope = .ok bytes ∧
          (Function.update w y e' x).guard.Seen (party x.other).key s.frame.counter := by
      intro bytes hmem
      obtain ⟨s,hs,henc,hseen⟩ := ih.2 bytes hmem
      refine ⟨s,?_,henc,?_⟩
      · rw [performed_snoc,Option.map_some,Option.toList_some,sealedBy_snoc]
        exact List.mem_append_left _ hs
      · by_cases hx : x = y
        · subst hx
          rw [Function.update_self]
          exact hr.seen_mono hb hp hseen
        · rwa [Function.update_of_ne hx]
    rw [takenIn_snoc]
    by_cases hx : y = x
    swap
    · rw [if_neg hx,Option.toList_none,List.append_nil]
      exact ⟨ih.1,hkept⟩
    subst hx
    rw [if_pos rfl,Option.bind_some]
    cases hn : ev.refused P with
    | true =>
      rw [if_pos rfl,Option.toList_none,List.append_nil]
      exact ⟨ih.1,hkept⟩
    | false =>
      rw [if_neg Bool.false_ne_true]
      cases hi : ev.input with
      | call c r nowMs expiresAt entropy =>
        have hno : i.bytes? = none := by
          cases i with
          | call => rfl
          | frame bytes resolveSenderPub nowMs order entropy =>
            simp only [WireInput.decoded,hi] at hdec
            cases hb' : decodeEnvelope bytes <;> simp [hb',Except.map] at hdec
        rw [hno,Option.toList_none,List.append_nil]
        exact ⟨ih.1,hkept⟩
      | accept envelope resolveSenderPub nowMs order entropy =>
        rw [hi] at hdec
        obtain ⟨bytes,hbytes,henv⟩ := WireInput.bytes_of_decoded hdec
        have henc := (decodeEnvelope_iff.mp henv).2
        obtain ⟨s,hs,rfl,hpres⟩ := hr.admitted_frame hd hb hi (hg _ _ _ _ _ hi) hn
        rw [hbytes,Option.toList_some]
        constructor
        · rw [List.nodup_append]
          refine ⟨ih.1,List.nodup_singleton _,fun old hold new hnew hsame => ?_⟩
          cases List.mem_singleton.mp hnew
          subst hsame
          -- the same bytes carry the same counter, which the table has seen
          obtain ⟨s₀,hs₀,henc₀,hseen⟩ := ih.2 _ hold
          have hsame := (hr.sound y.other s₀ hs₀).counter_eq hP (hr.sound y.other s hs)
            (encodeEnvelope_injective henc₀ henc)
          rw [hsame,← hb] at hseen
          rw [refused_of_seen hpres hseen] at hn
          cases hn
        · intro b hmem
          rcases List.mem_append.mp hmem with hold | hnew
          · exact hkept b hold
          · cases List.mem_singleton.mp hnew
            refine ⟨s,?_,henc,?_⟩
            · rw [performed_snoc,Option.map_some,Option.toList_some,sealedBy_snoc]
              exact List.mem_append_left _ hs
            · rw [Function.update_self]
              exact seen_of_not_refused hp hn hpres

theorem Wired.repeat_refused (hP : P.Lawful) (hd : (party .a).did ≠ (party .b).did)
    (hw : Wired P party h w) {x : Side} {j : ℕ} {i : WireInput} {ev : Event SK} {bytes : List UInt8}
    (hj : h[j]? = some (x,i,some ev)) (hbytes : i.bytes? = some bytes)
    (hold : bytes ∈ takenIn P x (h.take j)) : ev.refused P = true := by
  have hnodup : (takenIn P x (h.take (j+1))).Nodup :=
    ((List.take_sublist (j+1) h).filterMap _).nodup (hw.taken_in hP hd x).1
  cases hn : ev.refused P with
  | true => rfl
  | false =>
    rw [List.take_add_one,hj,Option.toList_some,takenIn_snoc,if_pos rfl,Option.bind_some,hn,
      if_neg Bool.false_ne_true,hbytes,Option.toList_some] at hnodup
    exact absurd rfl (List.nodup_append.mp hnodup |>.2.2 _ hold _ List.mem_cons_self)

/-- A run under the relay is one on the wire, where every envelope presented has its bytes. -/
theorem Relayed.wired {tr : History SK} (hr : Relayed P (startWorld P party) tr w)
    (hbytes : ∀ p ∈ tr, ∀ envelope, p.2.presented? = some envelope →
      ∃ bytes, decodeEnvelope bytes = .ok envelope) :
    ∃ h, Wired P party h w ∧ performed h = tr := by
  induction hr with
  | nil => exact ⟨[],.nil,rfl⟩
  | @snoc tr w x ev e' hr hb hp hg ih =>
    obtain ⟨h,hw,rfl⟩ := ih fun p hmem => hbytes p (List.mem_append_left _ hmem)
    have hin : ∃ i : WireInput, i.decoded = .ok ev.input := by
      cases hi : ev.input with
      | call c r nowMs expiresAt entropy => exact ⟨.call c r nowMs expiresAt entropy,rfl⟩
      | accept envelope resolveSenderPub nowMs order entropy =>
        obtain ⟨bytes,hdec⟩ := hbytes (x,ev) (by simp) envelope (by simp [Event.presented?,hi])
        refine ⟨.frame bytes resolveSenderPub nowMs order entropy,?_⟩
        rw [WireInput.decoded,hdec]
        rfl
    obtain ⟨i,hi⟩ := hin
    refine ⟨_,hw.decoded hi hb hp hg,?_⟩
    rw [performed_snoc]
    rfl

/-- The wire refines the relay. What happens at the endpoints is a run under the relay; what passes
an anti-replay check is byte for byte an encoding of a frame the peer sealed, and does so once;
what is refused, a repetition of such bytes among it, is dropped and changes nothing. Every run
under the relay whose envelopes have their bytes is one on the wire. -/
theorem wire_refines_relay (hP : P.Lawful) (hd : (party .a).did ≠ (party .b).did) :
    (∀ h w, Wired P party h w → Relayed P (startWorld P party) (performed h) w ∧
      ∀ x, (takenIn P x h).Nodup ∧
        (∀ bytes ∈ takenIn P x h, ∃ s ∈ sealedBy x.other (performed h),
          encodeEnvelope s.envelope = .ok bytes) ∧
        ∀ j i ev bytes e', h[j]? = some (x,i,some ev) → i.bytes? = some bytes →
          ev.input.perform P ev.before = some (ev.outcome,e') →
          ev.refused P = true ∨ bytes ∈ takenIn P x (h.take j) →
          e' = ev.before ∧ ∃ cause, ev.outcome = .accepted (.ok (.dropped cause))) ∧
    ∀ tr w, Relayed P (startWorld P party) tr w →
      (∀ p ∈ tr, ∀ envelope, p.2.presented? = some envelope →
        ∃ bytes, decodeEnvelope bytes = .ok envelope) →
      ∃ h, Wired P party h w ∧ performed h = tr := by
  refine ⟨fun h w hw => ⟨hw.relayed,fun x => ?_⟩,fun tr w hr hbytes => hr.wired hbytes⟩
  obtain ⟨hnodup,hsealed⟩ := hw.taken_in hP hd x
  refine ⟨hnodup,fun bytes hmem => ?_,fun j i ev bytes e' hj hbytes hp hor => ?_⟩
  · obtain ⟨s,hs,henc,-⟩ := hsealed bytes hmem
    exact ⟨s,hs,henc⟩
  · exact refused_inert (hor.elim id (hw.repeat_refused hP hd hj hbytes)) hp

end

def encodes (tr : History Bytes32) : Bool :=
  tr.all fun p => p.2.presented?.all fun envelope =>
    envelope.version ≤ envelopeVersion && (encodeEnvelope envelope).isOk

theorem bytes_of_encodes {tr : History Bytes32} (h : encodes tr = true) :
    ∀ p ∈ tr, ∀ envelope, p.2.presented? = some envelope →
      ∃ bytes, decodeEnvelope bytes = .ok envelope := by
  intro p hp envelope hpres
  have hall := List.all_eq_true.mp h p hp
  simp only [hpres,Option.all_some,Bool.and_eq_true,decide_eq_true_eq] at hall
  obtain ⟨bytes,henc⟩ := exists_of_isOk hall.2
  exact ⟨bytes,decodeEnvelope_iff.mpr ⟨hall.1,henc⟩⟩

def refuses (tr : History Bytes32) : Bool :=
  tr.any fun p => p.1 = .b && p.2.presented?.isSome && p.2.refused .plain

/-- The exchange of the two parties, as bytes, among them some that come in twice. -/
theorem exchange_on_wire : ∃ h w, Wired .plain aliceAndBob h w ∧
    payloadsReported .b (byte32 9) (performed h) = [[1,2],[3]] ∧ (takenIn .plain .b h).Nodup ∧
    (∀ bytes ∈ takenIn .plain .b h, ∃ s ∈ sealedBy .a (performed h),
      encodeEnvelope s.envelope = .ok bytes) ∧
    ∃ i ev bytes cause, (.b,i,some ev) ∈ h ∧ i.bytes? = some bytes ∧
      ev.input.perform .plain ev.before = some (.accepted (.ok (.dropped cause)),ev.before) := by
  obtain ⟨tr,w,hr,hc⟩ := aliceAndBob_run default (exchange (byte32 9))
    (fun tr => exchanged (byte32 9) tr && encodes tr && refuses tr) (by decide +kernel)
  simp only [Bool.and_eq_true] at hc
  obtain ⟨⟨hex,henc⟩,href⟩ := hc
  simp only [exchanged,Bool.and_eq_true,decide_eq_true_eq] at hex
  simp only [refuses,List.any_eq_true,Bool.and_eq_true,decide_eq_true_eq,Option.isSome_iff_exists]
    at href
  obtain ⟨⟨y,ev⟩,hmem,⟨rfl,envelope,hpres⟩,hno⟩ := href
  obtain ⟨k,hk⟩ := List.getElem?_of_mem hmem
  obtain ⟨-,e',-,-,hp,-⟩ := hr.at_index hk
  obtain ⟨hfrom,hto⟩ := wire_refines_relay Primitives.plain_lawful alice_ne_bob
  obtain ⟨h,hw,rfl⟩ := hto tr w hr (bytes_of_encodes henc)
  obtain ⟨hnodup,hsealed,hinert⟩ := (hfrom h w hw).2 .b
  obtain ⟨i,hi⟩ := mem_performed.mp hmem
  obtain ⟨j,hj⟩ := List.getElem?_of_mem hi
  obtain ⟨bytes,hbytes,-⟩ := hw.bytes_of_presented hi hpres
  obtain ⟨rfl,cause,hout⟩ := hinert j i ev bytes e' hj hbytes hp (Or.inl hno)
  exact ⟨h,w,hw,hex.1.2,hnodup,hsealed,i,ev,bytes,cause,hi,hbytes,hout ▸ hp⟩

section
variable {SK : Type} {P : Primitives SK} {party : Side → Party SK} {h : WireHistory SK}
    {w : World SK}

/-- The frame is longer than the wire takes, its payload compressed. -/
def SealedFrame.TooLong (P : Primitives SK) (s : SealedFrame SK) : Prop :=
  ∃ compressed, compressPayload P s.frame.payload = .ok compressed ∧
    maxEnvelopeBytes < wireOverhead (some s.frame.header)+compressed.bytes.length

/-- A chunk that is lost holds up the stream for good, and so does one that was sealed and is too
long to be encoded: of what was sent from it on, nothing is reported. -/
theorem lost_chunk_holds_up (hz : P.ZstdLossless) (ht : P.TagsSixteen)
    (hd : (party .a).did ≠ (party .b).did) (hw : Wired P party h w) {c : Bytes32}
    (honce : timesOpened c (performed h) ≤ 1) {y : Side} {front rest : List (SealedFrame SK)}
    {s : SealedFrame SK} (hsplit : dataFrames y.other c (performed h) = front++s::rest)
    (hlost : ¬ Arrived y s h ∨ s.TooLong P) :
    payloadsReported y c (performed h) <+: front.map fun s => s.frame.payload := by
  have hs : s ∈ sealedBy y.other (performed h) := by
    refine mem_sealedBy_of_dataFrames (c:=c) ?_
    rw [hsplit]
    simp
  have hsound := hw.relayed.sound y.other s hs
  refine hw.relayed.held_up hz hd honce hsplit fun hpres => ?_
  have harrived := (hw.presented_iff hsound.version_le).mp hpres
  rcases hlost with hno | ⟨compressed,hc,hlong⟩
  · exact hno harrived
  · obtain ⟨bytes,henc,-⟩ := harrived
    obtain ⟨esk,hseal⟩ := hsound.sealing
    obtain ⟨compressed',hc',hsize,-⟩ := sealed_size ht hseal
    have hfits := ((encodeEnvelope_size s.envelope).2.1.mp ⟨bytes,henc⟩).2
    rw [hsound.payload,hc] at hc'
    cases hc'
    have hstream : s.params.stream = some s.frame.header := by
      rw [hsound.params]
      rfl
    rw [hsize,hstream] at hfits
    omega

end

def lossy (c : Bytes32) : List Action :=
  establish c 4 1000++([.call .a c (.sendData [1]) 1001 0,.call .a c (.sendData [2]) 1001 0,
    .call .a c (.sendData [3]) 1001 0,.present .b .a 1 1002,.present .b .a 3 1002] : List Action)

def secondLost (c : Bytes32) (tr : History Bytes32) : Bool :=
  timesOpened c tr = 1 && (dataFrames .a c tr).map (fun s => s.frame.payload) = [[1],[2],[3]] &&
    payloadsReported .b c tr = [[1]] && (dataFrames .a c tr)[1]?.all fun s =>
      tr.all fun p => p.2.presented? ≠ some s.envelope

theorem lossy_run : ∃ tr w s₁ s₂ s₃, Relayed .plain (startWorld .plain aliceAndBob) tr w ∧
    timesOpened (byte32 9) tr ≤ 1 ∧
    (∀ p ∈ tr, ∀ envelope, p.2.presented? = some envelope →
      ∃ bytes, decodeEnvelope bytes = .ok envelope) ∧
    dataFrames .a (byte32 9) tr = [s₁,s₂,s₃] ∧
    [s₁,s₂,s₃].map (fun s => s.frame.payload) = [[1],[2],[3]] ∧
    payloadsReported .b (byte32 9) tr = [[1]] ∧ ¬ Presented .b s₂ tr := by
  obtain ⟨tr,w,hr,hc⟩ := aliceAndBob_run default (lossy (byte32 9))
    (fun tr => secondLost (byte32 9) tr && encodes tr) (by decide +kernel)
  simp only [secondLost,Bool.and_eq_true,decide_eq_true_eq] at hc
  obtain ⟨⟨⟨⟨honce,hsent⟩,hrep⟩,hlost⟩,henc⟩ := hc
  have hlen : (dataFrames .a (byte32 9) tr).length = 3 := by
    rw [← List.length_map (fun s => s.frame.payload),hsent]
    rfl
  obtain ⟨s₁,s₂,s₃,hframes⟩ := List.length_eq_three.mp hlen
  rw [hframes] at hsent hlost
  refine ⟨tr,w,s₁,s₂,s₃,hr,honce.le,bytes_of_encodes henc,hframes,hsent,hrep,?_⟩
  rintro ⟨ev,hmem,hpres⟩
  have hall := List.all_eq_true.mp hlost _ hmem
  simp [hpres] at hall

def longChunk : List UInt8 := List.replicate maxEnvelopeBytes 0

theorem longChunk_length : longChunk.length = maxEnvelopeBytes := List.length_replicate

theorem longChunk_tooLong {s : SealedFrame Bytes32} (h : s.frame.payload = longChunk) :
    s.TooLong .plain := by
  have hshort : longChunk.length < 2^32 := by
    rw [longChunk_length]
    decide
  unfold SealedFrame.TooLong
  rw [h]
  refine ⟨_,plain_compressed hshort,?_⟩
  have hlen : (raw longChunk (UInt32.ofNat longChunk.length)).bytes.length = maxEnvelopeBytes :=
    longChunk_length
  rw [hlen,wireOverhead]
  omega

theorem byte_encoded {params : SealParams Bytes32} {ikm : Bytes32} {env : DigMessageEnvelope}
    {b : UInt8} (h : sealMessage .plain (.ok ikm) params = .ok env) (hb : params.payload = [b]) :
    ∃ bytes, encodeEnvelope env = .ok bytes := by
  obtain ⟨esk,hseal⟩ := sealMessage_ok h
  obtain ⟨compressed,hc,hsize,hfits⟩ := sealed_size plain_tags hseal
  rw [hb,plain_compressed (Nat.lt_of_le_of_lt (le_refl 1) (by decide))] at hc
  cases hc
  have hone : (raw [b] (UInt32.ofNat [b].length)).bytes.length = 1 := rfl
  have hheader : headerBytesOf params.stream ≤ 14 := by
    unfold headerBytesOf
    split <;> omega
  have hcap : maxEnvelopeBytes = 16777216 := by decide
  rw [hone] at hsize hfits
  refine (encodeEnvelope_size env).2.1.mpr ⟨hfits.mpr (by decide),?_⟩
  rw [hsize,wireOverhead]
  omega

theorem Event.dataFrame?_quiet {SK : Type} {c : Bytes32} {ev : Event SK} {s : SealedFrame SK}
    (h : ev.dataFrame? c = some s) : ev.presented? = none ∧ ev.opens c = false := by
  have hsent := (Event.dataFrame?_eq_some h).1
  unfold Event.dataSent? at hsent
  split at hsent
  · rename_i hi hout
    simp [Event.presented?,Event.opens,hi]
  · cases hsent

theorem plain_sends {party : Side → Party Bytes32} {tr : History Bytes32} {w : World Bytes32}
    (hr : Relayed .plain (startWorld .plain party) tr w) (hroom : tr.length+1 < 2^64) {x : Side}
    {c : Bytes32} {s : StreamSession} (hs : (w x).session c = some s) {payload : List UInt8}
    (ht : s.Takes (.sendData payload)) (hlen : payload.length < 2^32) :
    ∃ ev e' f next, Relayed .plain (startWorld .plain party) (tr++[(x,ev)])
      (Function.update w x e') ∧
      ev.dataFrame? c = some f ∧ f.frame.payload = payload ∧
      (∃ params, sealMessage .plain (.ok c) params = .ok f.envelope ∧ params.payload = payload) ∧
      e'.session c = some {s with sendCredit := s.sendCredit-1,sendSeq := next} := by
  obtain ⟨env,hseal⟩ : ∃ env, sealMessage .plain (.ok c) ((w x).frameParams c
      ((Request.sendData payload).header (nextSeq (w x) c)) payload 1000 0) = .ok env :=
    plain_seals c hlen
  obtain ⟨e',hr',after,failed,hsend,hafter⟩ := hr.calls hroom (r:=.sendData payload) ⟨s,hs,ht⟩ hseal
  rw [hs] at hsend
  generalize (Request.sendData payload).header _ = hdr at hsend
  cases hsend with
  | live hmoved =>
    cases hmoved with
    | sendData _ next hh hl hc hn =>
      refine ⟨_,e',sealedFrame (w x) c .data (header .data (nextSeq (w x) c) 0) payload 1000 0 env,next,
        hr',?_,rfl,⟨_,hseal,rfl⟩,hafter⟩
      have hdata : SealedFrame.isData c (sealedFrame (w x) c .data
          (header .data (nextSeq (w x) c) 0) payload 1000 0 env) = true := decide_eq_true ⟨rfl,rfl⟩
      exact Option.filter_eq_some_iff.mpr ⟨rfl,hdata⟩

def firstChunk (c : Bytes32) : List Action :=
  establish c 4 1000++([.call .a c (.sendData [1]) 1000 0,.present .b .a 1 1000] : List Action)

def afterChunk : StreamSession := ⟨.initiator,.established,1,0,3,4,false,false,false⟩

theorem first_chunk_run : ∃ tr w s₁, Relayed .plain (startWorld .plain aliceAndBob) tr w ∧
    tr.length = 6 ∧ timesOpened (byte32 9) tr = 1 ∧ dataFrames .a (byte32 9) tr = [s₁] ∧
    s₁.frame.payload = [1] ∧
    (∀ p ∈ tr, ∀ envelope, p.2.presented? = some envelope →
      ∃ bytes, decodeEnvelope bytes = .ok envelope) ∧
    (w .a).session (byte32 9) = some afterChunk := by
  have hstart : (execute .plain aliceAndBob default [] (startWorld .plain aliceAndBob)
      (firstChunk (byte32 9))).any (fun p => decide (p.1.length = 6 ∧
        timesOpened (byte32 9) p.1 = 1 ∧
        (dataFrames .a (byte32 9) p.1).map (fun s => s.frame.payload) = [[1]] ∧
        encodes p.1 = true ∧ (p.2 .a).session (byte32 9) = some afterChunk)) = true := by
    decide +kernel
  obtain ⟨⟨tr,w⟩,hx,hc⟩ := (Option.any_eq_true _ _).mp hstart
  obtain ⟨hlen,honce,hsent,henc,hs⟩ := of_decide_eq_true hc
  simp only at hlen honce hsent henc hs
  have hr := execute_relayed Primitives.plain_lawful (fun h => absurd h alice_ne_bob) .nil hx
  obtain ⟨s₁,front,hfront,h₁,hnil⟩ := List.map_eq_cons_iff.mp hsent
  rw [List.map_eq_nil_iff] at hnil
  subst hnil
  exact ⟨tr,w,s₁,hr,hlen,honce,hfront,h₁,bytes_of_encodes henc,hs⟩

/-- After the first chunk one is sealed that is too long for the wire, and one behind it, which
arrives. -/
theorem oversized_run : ∃ tr w s₁ s₂ s₃, Relayed .plain (startWorld .plain aliceAndBob) tr w ∧
    timesOpened (byte32 9) tr ≤ 1 ∧
    (∀ p ∈ tr, ∀ envelope, p.2.presented? = some envelope →
      ∃ bytes, decodeEnvelope bytes = .ok envelope) ∧
    dataFrames .a (byte32 9) tr = [s₁,s₂,s₃] ∧ s₁.frame.payload = [1] ∧
    s₂.frame.payload = longChunk ∧ Presented .b s₃ tr := by
  obtain ⟨tr,w,s₁,hr,hlen,honce,hfront,h₁,hbytes,hs⟩ := first_chunk_run
  have hlong : longChunk.length < 2^32 := by
    rw [longChunk_length]
    decide
  obtain ⟨ev₂,e₂,s₂,next,hr₂,hs₂,hp₂,-,hsess₂⟩ := plain_sends hr (by omega) hs
    ⟨rfl,rfl,show (3 : UInt64) ≠ 0 by decide⟩ hlong
  rw [← Function.update_self Side.a e₂ w] at hsess₂
  have htakes : StreamSession.Takes {afterChunk with sendCredit := 3-1,sendSeq := next}
      (.sendData [3]) := ⟨rfl,rfl,show (2 : UInt64) ≠ 0 by decide⟩
  obtain ⟨ev₃,e₃,s₃,-,hr₃,hs₃,-,⟨params,hseal,hbyte⟩,-⟩ := plain_sends hr₂ (by simp [hlen]) hsess₂
    htakes (Nat.lt_of_le_of_lt (le_refl 1) (by decide))
  have hframes : dataFrames .a (byte32 9) (tr++[(.a,ev₂)]++[(.a,ev₃)]) = [s₁,s₂,s₃] := by
    rw [dataFrames_snoc,dataFrames_snoc,hfront,hs₂,hs₃]
    rfl
  have hmem : s₃ ∈ sealedBy .a (tr++[(.a,ev₂)]++[(.a,ev₃)]) := by
    refine mem_sealedBy_of_dataFrames (c:=byte32 9) ?_
    rw [hframes]
    simp
  obtain ⟨ev,e₄,hpres,hr₄⟩ := hr₃.presents Primitives.plain_lawful
    (fun h => absurd h alice_ne_bob) (by simp [hlen]) hmem .b 1000 default (.ok (byte32 7))
  refine ⟨_,_,s₁,s₂,s₃,hr₄,?_,fun p hp envelope hin => ?_,?_,h₁,hp₂,ev,by simp,hpres⟩
  · obtain ⟨_,_,_,_,hi⟩ := presented_iff.mp hpres
    have hno : ev.opens (byte32 9) = false := by simp [Event.opens,hi]
    rw [timesOpened_snoc,timesOpened_snoc,timesOpened_snoc,hno,(Event.dataFrame?_quiet hs₂).2,
      (Event.dataFrame?_quiet hs₃).2,honce]
    decide
  · simp only [List.mem_append,List.mem_singleton] at hp
    rcases hp with ((hp | rfl) | rfl) | rfl
    · exact hbytes p hp envelope hin
    · simp only [(Event.dataFrame?_quiet hs₂).1] at hin
      cases hin
    · simp only [(Event.dataFrame?_quiet hs₃).1] at hin
      cases hin
    · rw [hpres] at hin
      cases hin
      obtain ⟨bytes,henc⟩ := byte_encoded hseal hbyte
      exact ⟨bytes,decodeEnvelope_iff.mpr ⟨(hr₃.sound .a s₃ hmem).version_le,henc⟩⟩
  · rw [dataFrames_snoc,hframes]
    rfl

/-- The third chunk arrives and is not reported, where the second was lost and where it was too
long. -/
theorem third_chunk_held_up :
    (∃ h w, Wired .plain aliceAndBob h w ∧
      (dataFrames .a (byte32 9) (performed h)).map (fun s => s.frame.payload) = [[1],[2],[3]] ∧
      payloadsReported .b (byte32 9) (performed h) = [[1]] ∧
      payloadsReported .b (byte32 9) (performed h) <+: [[1]]) ∧
    ∃ h w s₁ s₂ s₃, Wired .plain aliceAndBob h w ∧
      dataFrames .a (byte32 9) (performed h) = [s₁,s₂,s₃] ∧ s₂.TooLong .plain ∧ Arrived .b s₃ h ∧
      payloadsReported .b (byte32 9) (performed h) <+: [[1]] := by
  constructor
  · obtain ⟨tr,w,s₁,s₂,s₃,hr,honce,hbytes,hframes,hsent,hrep,hno⟩ := lossy_run
    obtain ⟨h,hw,rfl⟩ := hr.wired hbytes
    have hsound := hw.relayed.sound .a s₂ (mem_sealedBy_of_dataFrames (c:=byte32 9)
      (by rw [hframes]; simp))
    have hheld := lost_chunk_holds_up Primitives.plain_lawful.zstd plain_tags alice_ne_bob hw honce
      (y:=.b) (show dataFrames .a (byte32 9) (performed h) = [s₁]++s₂::[s₃] from hframes)
      (Or.inl fun harr => hno ((hw.presented_iff hsound.version_le).mpr harr))
    have h₁ : s₁.frame.payload = [1] := (List.cons.inj hsent).1
    rw [List.map_singleton,h₁] at hheld
    exact ⟨h,w,hw,hframes ▸ hsent,hrep,hheld⟩
  · obtain ⟨tr,w,s₁,s₂,s₃,hr,honce,hbytes,hframes,h₁,h₂,hpres⟩ := oversized_run
    obtain ⟨h,hw,rfl⟩ := hr.wired hbytes
    have hlong := longChunk_tooLong h₂
    have hsound := hw.relayed.sound .a s₃ (mem_sealedBy_of_dataFrames (c:=byte32 9)
      (by rw [hframes]; simp))
    have harrived := (hw.presented_iff hsound.version_le).mp hpres
    have hheld := lost_chunk_holds_up Primitives.plain_lawful.zstd plain_tags alice_ne_bob hw honce
      (y:=.b) (show dataFrames .a (byte32 9) (performed h) = [s₁]++s₂::[s₃] from hframes) (Or.inr hlong)
    rw [List.map_singleton,h₁] at hheld
    exact ⟨h,w,s₁,s₂,s₃,hw,hframes,hlong,harrived,hheld⟩

end DigMessage
