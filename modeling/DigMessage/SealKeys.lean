import DigMessage.Inbox
import DigMessage.Network

/-! The keys of the cipher over a run. Every frame is sealed under an ephemeral of its own, and so
under a key and a nonce of its own: across all parties and streams, answers included. -/
namespace DigMessage
open FixedWidth

section
variable {SK ι : Type} (P : Primitives SK)

def Input.entropy : Input → Except String Bytes32
  | .call _ _ _ _ entropy => entropy
  | .accept _ _ _ _ entropy => entropy

/-- The entropy behind the frame an event sealed. -/
def Event.drawn? (ev : Event SK) : Option Bytes32 :=
  ev.sealed?.bind fun _ => ev.input.entropy.toOption

def Event.sealCall? (ev : Event SK) : Option (SealCall SK) :=
  ev.sealed?.bind fun s => ev.drawn?.map fun ikm => ⟨s.params,P.secretKeyFromSeed ikm⟩

/-- The calls of the sealer that a run made, and succeeded in, in order. -/
def sealCalls (tr : NetworkHistory SK ι) : List (SealCall SK) :=
  tr.filterMap fun p => p.2.sealCall? P

variable {P}

theorem sealCall_of_sealed {ev : Event SK} {e' : StreamEndpoint SK} {s : SealedFrame SK}
    (h : ev.input.perform P ev.before = some (ev.outcome,e')) (hs : ev.sealed? = some s) :
    ∃ call, ev.sealCall? P = some call ∧ call.params = s.params ∧
      call.output P = .ok s.envelope := by
  have hmade {entropy : Except String Bytes32} (hin : ev.input.entropy = entropy)
      (hseal : sealMessage P entropy s.params = .ok s.envelope) :
      ∃ call, ev.sealCall? P = some call ∧ call.params = s.params ∧
        call.output P = .ok s.envelope := by
    cases entropy with
    | error e => cases hseal
    | ok ikm =>
      refine ⟨⟨s.params,P.secretKeyFromSeed ikm⟩,?_,rfl,hseal⟩
      simp only [Event.sealCall?,Event.drawn?,hs,hin,Except.toOption,Option.bind_some,
        Option.map_some]
  obtain ⟨e,input,out⟩ := ev
  cases input with
  | call c r nowMs expiresAt entropy =>
    obtain ⟨res,hout,hcall⟩ := Input.perform_call P h
    simp only at hout
    subst hout
    cases hcall with
    | rejected err => cases hs
    | unsealed hsend hn hseal => cases hs
    | sealed hsend hn hseal =>
      cases hs
      rw [hsend.header_eq] at hseal
      exact hmade rfl hseal
  | accept envelope resolveSenderPub nowMs order entropy =>
    obtain ⟨res,hout,hacc⟩ := Input.perform_accept P h
    simp only at hout
    subst hout
    cases hacc with
    | refused hopen => cases hs
    | idle cause hopen hn => cases hs
    | event hopen ha hr => cases hs
    | ignored hopen ha hr => cases hs
    | answered hopen ha hr hn hseal =>
      cases hs
      exact hmade rfl hseal
    | unanswered hopen ha hr hn hseal => cases hs

variable (P)

def draws (tr : NetworkHistory SK ι) : List Bytes32 := tr.filterMap fun p => p.2.drawn?

def allSealed (tr : NetworkHistory SK ι) : List (SealedFrame SK) :=
  tr.filterMap fun p => p.2.sealed?

/-- The key schedule does not map two of the calls' infos to one output. -/
def KdfSeparates (calls : List (SealCall SK)) : Prop :=
  ∀ call ∈ calls, ∀ call' ∈ calls, ∀ z z', call.secret P = .ok z → call'.secret P = .ok z' →
    P.hkdfSha256 z (call.info P) = P.hkdfSha256 z' (call'.info P) → call.info P = call'.info P

variable {P}

theorem sealCall_drawn {ev : Event SK} {call : SealCall SK} (h : ev.sealCall? P = some call) :
    ∃ ikm, ev.drawn? = some ikm ∧ call.esk = P.secretKeyFromSeed ikm := by
  obtain ⟨s,-,hmap⟩ := Option.bind_eq_some_iff.mp h
  obtain ⟨ikm,hdrawn,rfl⟩ := Option.map_eq_some_iff.mp hmap
  exact ⟨ikm,hdrawn,rfl⟩

theorem ephemerals_differ {tr : NetworkHistory SK ι} (hfresh : (draws tr).Nodup)
    (hseed : ∀ a ∈ draws tr, ∀ b ∈ draws tr,
      P.publicKeyBytes (P.secretKeyFromSeed a) = P.publicKeyBytes (P.secretKeyFromSeed b) → a = b) :
    (sealCalls P tr).Pairwise fun call call' =>
      P.publicKeyBytes call.esk ≠ P.publicKeyBytes call'.esk := by
  rw [draws,List.Nodup,List.pairwise_filterMap] at hfresh
  rw [sealCalls,List.pairwise_filterMap]
  refine hfresh.imp_of_mem fun {p q} hp hq hne call hcall call' hcall' he => ?_
  obtain ⟨a,ha,hesk⟩ := sealCall_drawn hcall
  obtain ⟨b,hb,hesk'⟩ := sealCall_drawn hcall'
  have hmem {r : Link ι × Event SK} (hr : r ∈ tr) {k : Bytes32} (hk : r.2.drawn? = some k) :
      k ∈ draws tr := List.mem_filterMap.mpr ⟨r,hr,hk⟩
  rw [hesk,hesk'] at he
  exact hne a ha b hb (hseed a (hmem hp ha) b (hmem hq hb) he)

theorem ephemeral_of_key {calls : List (SealCall SK)} (hkdf : KdfSeparates P calls)
    {call call' : SealCall SK} (hc : call ∈ calls) (hc' : call' ∈ calls) {key : Bytes 32}
    {nonce : Bytes 12} {aad aad' ct ct' : List UInt8} (h : call.Encrypts P key nonce aad ct)
    (h' : call'.Encrypts P key nonce aad' ct') :
    P.publicKeyBytes call.esk = P.publicKeyBytes call'.esk := by
  obtain ⟨_,z,-,hz,-,hkey,hnonce,-⟩ := h
  obtain ⟨_,z',-,hz',-,hkey',hnonce',-⟩ := h'
  have hokm := okm_ext (hkey.symm.trans hkey') (hnonce.symm.trans hnonce')
  exact kdfInfo_kemEnc (hkdf call hc call' hc' z z' hz hz' hokm)

theorem SealCall.encrypts {call : SealCall SK} {env : DigMessageEnvelope}
    (h : call.output P = .ok env) :
    ∃ key nonce aad, call.Encrypts P key nonce aad env.sealed.ciphertext := by
  obtain ⟨_,z,_,aad,ct,-,hz,-,haad,-,-⟩ := sealWithEphemeral_ok h
  exact ⟨_,_,aad,env,z,h,hz,haad,rfl,rfl,rfl⟩

/-- Over a run of any number of parties, in which no two frames draw the same entropy: every frame
sealed, by a call or as an answer, is encrypted under a key and a nonce that no other frame of the
run is encrypted under. -/
theorem keys_never_reused [DecidableEq ι] {party : ι → Party SK} {tr : NetworkHistory SK ι}
    {w : NetworkWorld SK ι} (h : Networked P party tr w) (hfresh : (draws tr).Nodup)
    (hseed : ∀ a ∈ draws tr, ∀ b ∈ draws tr,
      P.publicKeyBytes (P.secretKeyFromSeed a) = P.publicKeyBytes (P.secretKeyFromSeed b) → a = b)
    (hkdf : KdfSeparates P (sealCalls P tr)) :
    List.Forall₂ (fun (s : SealedFrame SK) call => ∃ key nonce aad,
      call.Encrypts P key nonce aad s.envelope.sealed.ciphertext) (allSealed tr) (sealCalls P tr) ∧
    (sealCalls P tr).Pairwise fun call call' => ∀ key nonce aad aad' ct ct',
      call.Encrypts P key nonce aad ct → ¬ call'.Encrypts P key nonce aad' ct' := by
  constructor
  · clear hfresh hseed hkdf
    induction h with
    | nil => exact .nil
    | @snoc tr w l ev e' hr hb hp hg ih =>
      rw [allSealed,sealCalls,Lists.filterMap_snoc,Lists.filterMap_snoc]
      refine List.rel_append ih ?_
      cases hs : ev.sealed? with
      | none =>
        have hnone : ev.sealCall? P = none := by rw [Event.sealCall?,hs,Option.bind_none]
        simp only [hnone,Option.toList_none]
        exact .nil
      | some s =>
        obtain ⟨call,hcall,-,hout⟩ := sealCall_of_sealed hp hs
        simp only [hcall,Option.toList_some]
        exact .cons (SealCall.encrypts hout) .nil
  · exact (ephemerals_differ hfresh hseed).imp_of_mem fun
      hc hc' hne key nonce aad aad' ct ct' hen hen' =>
      hne (ephemeral_of_key hkdf hc hc' hen hen')

end

/-- The opening frames of streams of ids 7 and 8 by `a` and of id 9 by `b`. -/
def openings : List Action :=
  [.call .a (byte32 7) (.open 4) 1000 0,.call .a (byte32 8) (.open 4) 1000 0,
    .call .b (byte32 9) (.open 4) 1000 0]

def keysApart (tr : NetworkHistory Bytes32 Person) : Bool :=
  let calls := sealCalls .plain tr
  (draws tr).Nodup && decide (calls.length = 3) && calls.all fun call => calls.all fun call' =>
    decide ((call.secret .plain).map (fun z => Primitives.plain.hkdfSha256 z (call.info .plain)) =
      (call'.secret .plain).map (fun z => Primitives.plain.hkdfSha256 z (call'.info .plain)) →
      call.info .plain = call'.info .plain)

theorem point_injective : Function.Injective Primitives.point := by
  intro a b h
  have hval := congrArg Subtype.val h
  simp only [Primitives.point] at hval
  exact Subtype.ext (List.append_inj_left hval (a.2.trans b.2.symm))

theorem openings_keys_apart : ∃ tr w, Networked .plain trio tr w ∧
    (sealCalls .plain tr).length = 3 ∧
    (sealCalls .plain tr).Pairwise fun call call' => ∀ key nonce aad aad' ct ct',
      call.Encrypts .plain key nonce aad ct → ¬ call'.Encrypts .plain key nonce aad' ct' := by
  have hbob : Person.alice ≠ .bob := by decide
  obtain ⟨tr,w,hr,hc⟩ := trio_run hbob openings (fun tr => keysApart (lift Person.alice .bob tr))
    (by decide +kernel)
  obtain ⟨w',hrun,-⟩ := (Networked.nil (P:=.plain)).follow hbob (pairOf_start _ _ _ _) hr
  simp only [keysApart,Bool.and_eq_true,decide_eq_true_eq,List.all_eq_true] at hc
  obtain ⟨⟨hfresh,hlen⟩,hkdf⟩ := hc
  refine ⟨_,w',hrun,hlen,(keys_never_reused hrun hfresh ?_ ?_).2⟩
  · exact fun a _ b _ he => point_injective he
  · intro call hcall call' hcall' z z' hz hz' he
    refine hkdf call hcall call' hcall' ?_
    rw [hz,hz']
    exact congrArg Except.ok he

end DigMessage
