import DigMessage.RelayDelivery

/-! Many parties. Each holds an endpoint for every other, under one identity, and one untrusted
relay sits between them all; what happens between two of them is a relayed run of the two. -/
namespace DigMessage
open FixedWidth

/-- An endpoint: the party it belongs to, and the peer it is for. -/
abbrev Link (ι : Type) := ι × ι

abbrev NetworkWorld (SK ι : Type) := Link ι → StreamEndpoint SK

abbrev NetworkHistory (SK ι : Type) := List (Link ι × Event SK)

section
variable {SK ι : Type} [DecidableEq ι]

def startNetwork (P : Primitives SK) (party : ι → Party SK) : NetworkWorld SK ι := fun l =>
  (party l.1).endpoint P (party l.2)

def sealedAt (l : Link ι) (tr : NetworkHistory SK ι) : List (SealedFrame SK) :=
  tr.filterMap fun p => if p.1 = l then p.2.sealed? else none

theorem sealedAt_snoc (l m : Link ι) (tr : NetworkHistory SK ι) (ev : Event SK) :
    sealedAt l (tr++[(m,ev)]) = sealedAt l tr++(if m = l then ev.sealed? else none).toList :=
  Lists.filterMap_snoc _ tr (m,ev)

variable (P : Primitives SK) (party : ι → Party SK)

/-- The ideal seal, with a resolver that knows only the endpoint's peer: what authenticates was
sealed by one of the parties' endpoints, for this party. -/
structure NetworkGenuine (tr : NetworkHistory SK ι) (e : StreamEndpoint SK)
    (envelope : DigMessageEnvelope)
    (resolveSenderPub : Bytes32 → UInt32 → Option Bytes48) : Prop where
  peerScoped : ∀ did epoch pub, resolveSenderPub did epoch = some pub → did = e.peerDid
  ideal : ∀ shape inner, authenticate P e.identitySk envelope resolveSenderPub = .ok (shape,inner) →
    ∃ l, ∃ s ∈ sealedAt l tr, s.envelope = envelope ∧ s.params.recipient = e.localDid ∧
      s.Yields P shape inner

/-- A run of the network under the relay. -/
inductive Networked : NetworkHistory SK ι → NetworkWorld SK ι → Prop
  | nil : Networked [] (startNetwork P party)
  | snoc {tr : NetworkHistory SK ι} {w : NetworkWorld SK ι} {l : Link ι} {ev : Event SK}
      {e' : StreamEndpoint SK} :
      Networked tr w → ev.before = w l → ev.input.perform P ev.before = some (ev.outcome,e') →
      (∀ envelope resolveSenderPub nowMs order entropy,
        ev.input = .accept envelope resolveSenderPub nowMs order entropy →
        NetworkGenuine P tr ev.before envelope resolveSenderPub) →
      Networked (tr++[(l,ev)]) (Function.update w l e')

variable {P} {party} {tr : NetworkHistory SK ι} {w : NetworkWorld SK ι}

theorem Networked.owns (h : Networked P party tr w) (l : Link ι) :
    (party l.1).Owns P (party l.2) (w l) := by
  induction h with
  | nil => exact Party.owns_endpoint _ _
  | @snoc tr w m ev e' _ hb hp _ ih =>
    by_cases hm : l = m
    · subst hm
      rw [Function.update_self]
      exact (hb ▸ ih).step hp
    · rwa [Function.update_of_ne hm]

theorem Networked.sound (h : Networked P party tr w) (l : Link ι) :
    ∀ s ∈ sealedAt l tr, s.Sound P (party l.1) (party l.2) := by
  induction h with
  | nil => exact fun s hs => absurd hs List.not_mem_nil
  | @snoc tr w m ev e' hr hb hp _ ih =>
    intro s hs
    rw [sealedAt_snoc,List.mem_append,Option.mem_toList] at hs
    rcases hs with hs | hs
    · exact ih s hs
    · split at hs
      · rename_i hm
        subst hm
        exact sealed_sound (hb ▸ hr.owns m) hp hs
      · cases hs

def ends (i j : ι) : Side → Link ι
  | .a => (i,j)
  | .b => (j,i)

def sideOf (i j : ι) (l : Link ι) : Option Side :=
  if l = ends i j .a then some .a else if l = ends i j .b then some .b else none

def pairOf (party : ι → Party SK) (i j : ι) (x : Side) : Party SK := party (ends i j x).1

/-- What happened at the endpoints of `i` and `j` for each other. -/
def between (i j : ι) (tr : NetworkHistory SK ι) : History SK :=
  tr.filterMap fun p => (sideOf i j p.1).map fun x => (x,p.2)

def worldBetween (i j : ι) (w : NetworkWorld SK ι) : World SK := fun x => w (ends i j x)

variable {i j : ι}

theorem sideOf_eq_some (hij : i ≠ j) {l : Link ι} {x : Side} :
    sideOf i j l = some x ↔ l = ends i j x := by
  have hne : ends i j .b ≠ ends i j .a := fun he => hij (congrArg Prod.fst he).symm
  unfold sideOf
  constructor
  · intro h
    split at h
    · cases h
      assumption
    · split at h
      · cases h
        assumption
      · cases h
  · rintro rfl
    cases x with
    | a => exact if_pos rfl
    | b => rw [if_neg hne,if_pos rfl]

omit [DecidableEq ι] in
theorem ends_other (i j : ι) (x : Side) : (ends i j x.other).1 = (ends i j x).2 := by
  cases x <;> rfl

theorem between_snoc (i j : ι) (tr : NetworkHistory SK ι) (l : Link ι) (ev : Event SK) :
    between i j (tr++[(l,ev)]) = between i j tr++((sideOf i j l).map fun x => (x,ev)).toList :=
  Lists.filterMap_snoc _ tr (l,ev)

theorem sealedBy_between (hij : i ≠ j) (x : Side) (tr : NetworkHistory SK ι) :
    sealedBy x (between i j tr) = sealedAt (ends i j x) tr := by
  rw [sealedBy,observe,between,List.filterMap_filterMap,sealedAt]
  congr 1
  funext p
  cases hs : sideOf i j p.1 with
  | none =>
    have hno : p.1 ≠ ends i j x := fun he => by
      rw [(sideOf_eq_some hij).mpr he] at hs
      cases hs
    simp [hno]
  | some y =>
    have hp := (sideOf_eq_some hij).mp hs
    have hiff : ends i j y = ends i j x ↔ y = x := by
      constructor
      · intro he
        have hx := (sideOf_eq_some hij).mpr he
        rw [(sideOf_eq_some hij).mpr rfl] at hx
        exact Option.some.inj hx
      · rintro rfl
        rfl
    simp [hp,hiff]

theorem NetworkGenuine.genuine (hd : Function.Injective fun i => (party i).did) (hij : i ≠ j)
    (h : Networked P party tr w) {x : Side} {envelope : DigMessageEnvelope}
    {resolveSenderPub : Bytes32 → UInt32 → Option Bytes48}
    (hg : NetworkGenuine P tr (w (ends i j x)) envelope resolveSenderPub) :
    Genuine P (between i j tr) (w (ends i j x)) envelope resolveSenderPub where
  peerScoped := hg.peerScoped
  ideal shape inner ha := by
    obtain ⟨l,s,hs,henv,hto,hy⟩ := hg.ideal shape inner ha
    have hsound := h.sound l s hs
    have howns := h.owns (ends i j x)
    obtain ⟨pub,hpub⟩ := authenticate_resolves ha
    have hfrom : l.1 = (ends i j x).2 := by
      apply hd
      have hkey := congrArg Prod.fst hsound.sender
      rw [henv] at hkey
      exact hkey.symm.trans ((hg.peerScoped _ _ _ hpub).trans howns.peerDid)
    have hrecipient : l.2 = (ends i j x).1 := by
      apply hd
      rw [hsound.params,howns.localDid] at hto
      exact hto
    have hl : l = ends i j x.other := by
      apply Prod.ext
      · rw [ends_other]
        exact hfrom
      · rw [hrecipient,← ends_other,Side.other_other]
    refine ⟨x.other,s,?_,henv,hto,hy⟩
    rw [sealedBy_between hij,← hl]
    exact hs

omit [DecidableEq ι] in
theorem pairOf_start (P : Primitives SK) (party : ι → Party SK) (i j : ι) :
    worldBetween i j (startNetwork P party) = startWorld P (pairOf party i j) := by
  funext x
  cases x <;> rfl

theorem worldBetween_update (hij : i ≠ j) (w : NetworkWorld SK ι) (x : Side)
    (e' : StreamEndpoint SK) :
    worldBetween i j (Function.update w (ends i j x) e') =
      Function.update (worldBetween i j w) x e' := by
  funext y
  have hiff : ends i j y = ends i j x ↔ y = x := by
    rw [← sideOf_eq_some hij,(sideOf_eq_some hij).mpr rfl,Option.some.injEq]
  by_cases hy : y = x
  · subst hy
    simp [worldBetween]
  · rw [Function.update_of_ne hy,worldBetween,Function.update_of_ne (fun he => hy (hiff.mp he))]
    rfl

/-- What happens between two parties is a relayed run of the two. -/
theorem Networked.relayed (hd : Function.Injective fun i => (party i).did) (hij : i ≠ j)
    (h : Networked P party tr w) :
    Relayed P (startWorld P (pairOf party i j)) (between i j tr) (worldBetween i j w) := by
  induction h with
  | nil =>
    rw [pairOf_start]
    exact .nil
  | @snoc tr w l ev e' hr hb hp hg ih =>
    rw [between_snoc]
    cases hs : sideOf i j l with
    | none =>
      have hsame : worldBetween i j (Function.update w l e') = worldBetween i j w := by
        funext x
        refine Function.update_of_ne (fun he => ?_) _ _
        rw [(sideOf_eq_some hij).mpr he.symm] at hs
        cases hs
      rw [hsame,Option.map_none,Option.toList_none,List.append_nil]
      exact ih
    | some x =>
      obtain rfl := (sideOf_eq_some hij).mp hs
      rw [worldBetween_update hij,Option.map_some,Option.toList_some]
      refine ih.snoc hb hp fun envelope resolveSenderPub nowMs order entropy hi => ?_
      have hgen := hg _ _ _ _ _ hi
      rw [hb] at hgen ⊢
      exact hgen.genuine hd hij hr

/-- In-order authentic delivery among any number of parties. Whatever the relay does with the
envelopes of all of them, what two of them do is a relayed run of the two alone, and on a stream
between them the payloads a party reports are the first of those its peer sent on it, in that
order. -/
theorem network_delivery (hz : P.ZstdLossless) (hd : Function.Injective fun i => (party i).did)
    (h : Networked P party tr w) (hij : i ≠ j) :
    Relayed P (startWorld P (pairOf party i j)) (between i j tr) (worldBetween i j w) ∧
    ∀ (c : Bytes32) (y : Side), timesOpened c (between i j tr) ≤ 1 →
      payloadsReported y c (between i j tr) <+:
        payloadsSent y.other c (between i j tr) := by
  have hr := h.relayed hd hij
  have hne : (pairOf party i j .a).did ≠ (pairOf party i j .b).did := fun he => hij (hd he)
  exact ⟨hr,fun c y honce => hr.prefix_of_sent hz (hr.clean hne c) honce y⟩

def lift (i j : ι) (tr : History SK) : NetworkHistory SK ι := tr.map fun p => (ends i j p.1,p.2)

theorem between_lift (hij : i ≠ j) (tr : History SK) : between i j (lift i j tr) = tr := by
  rw [between,lift,List.filterMap_map]
  refine (List.filterMap_congr fun p _ => ?_).trans List.filterMap_some
  simp [(sideOf_eq_some hij).mpr rfl]

theorem between_append (i j : ι) (tr tr' : NetworkHistory SK ι) :
    between i j (tr++tr') = between i j tr++between i j tr' := List.filterMap_append

theorem sealedAt_append (l : Link ι) (tr tr' : NetworkHistory SK ι) :
    sealedAt l (tr++tr') = sealedAt l tr++sealedAt l tr' := List.filterMap_append

theorem sealedAt_lift (hij : i ≠ j) (x : Side) (tr : History SK) :
    sealedAt (ends i j x) (lift i j tr) = sealedBy x tr := by
  rw [← sealedBy_between hij,between_lift hij]

/-- Where the endpoints of two parties for each other are new, any run of the two can follow. -/
theorem Networked.follow (hij : i ≠ j) (h : Networked P party tr w)
    (hnew : worldBetween i j w = startWorld P (pairOf party i j)) {tr' : History SK} {w' : World SK}
    (hr : Relayed P (startWorld P (pairOf party i j)) tr' w') :
    ∃ w'', Networked P party (tr++lift i j tr') w'' ∧ worldBetween i j w'' = w' ∧
      ∀ l, sideOf i j l = none → w'' l = w l := by
  induction hr with
  | nil => exact ⟨w,by simpa [lift] using h,hnew,fun l _ => rfl⟩
  | @snoc tr' w' x ev e' hr hb hp hg ih =>
    obtain ⟨w'',hn,hw,hkept⟩ := ih
    refine ⟨Function.update w'' (ends i j x) e',?_,?_,fun l hl => ?_⟩
    · have hsnoc : tr++lift i j (tr'++[(x,ev)]) = (tr++lift i j tr')++[(ends i j x,ev)] := by
        simp [lift]
      rw [hsnoc]
      refine hn.snoc (by rw [hb,← hw]; rfl) hp fun envelope resolveSenderPub nowMs order entropy hi => ?_
      have hgen := hg _ _ _ _ _ hi
      refine ⟨hgen.peerScoped,fun shape inner ha => ?_⟩
      obtain ⟨y,s,hs,henv,hto,hy⟩ := hgen.ideal shape inner ha
      refine ⟨ends i j y,s,?_,henv,hto,hy⟩
      rw [sealedAt_append,sealedAt_lift hij]
      exact List.mem_append_right _ hs
    · rw [worldBetween_update hij,hw]
    · have hne : l ≠ ends i j x := fun he => by
        rw [(sideOf_eq_some hij).mpr he] at hl
        cases hl
      rw [Function.update_of_ne hne]
      exact hkept l hl

/-- A frame of a third party, presented at an endpoint whose resolver knows the peer alone, is
dropped and changes nothing. -/
theorem Networked.refuse (h : Networked P party tr w) (l : Link ι) (envelope : DigMessageEnvelope)
    (resolveSenderPub : Bytes32 → UInt32 → Option Bytes48)
    (hscoped : ∀ did epoch pub, resolveSenderPub did epoch = some pub → did = (w l).peerDid)
    (hthird : envelope.sender ≠ (w l).peerDid) (nowMs : UInt64) (order : HashOrder)
    (entropy : Except String Bytes32) : ∃ ev cause, ev.presented? = some envelope ∧
      ev.outcome = .accepted (.ok (.dropped cause)) ∧ Networked P party (tr++[(l,ev)]) w := by
  have hno (shape : InteractionShape) (inner : InnerMessage) :
      authenticate P (w l).identitySk envelope resolveSenderPub ≠ .ok (shape,inner) := by
    intro ha
    obtain ⟨pub,hpub⟩ := authenticate_resolves ha
    exact hthird (hscoped _ _ _ hpub)
  obtain ⟨cause,hopen,-⟩ | ⟨shape,inner,g',had,-⟩ :=
    openMessage_cases P order (w l).identitySk envelope resolveSenderPub nowMs (w l).guard
  · have hp : (Input.accept envelope resolveSenderPub nowMs order entropy).perform P (w l) =
        some (.accepted (.ok (.dropped cause)),w l) := by
      rw [Input.perform,StreamEndpoint.accept_of_error P entropy hopen]
      rfl
    let ev : Event SK := ⟨w l,.accept envelope resolveSenderPub nowMs order entropy,
      .accepted (.ok (.dropped cause))⟩
    have hrun : Networked P party (tr++[(l,ev)]) (Function.update w l (w l)) := by
      refine h.snoc rfl hp ?_
      rintro _ _ _ _ _ ⟨⟩
      exact ⟨hscoped,fun shape inner ha => absurd ha (hno shape inner)⟩
    rw [Function.update_eq_self] at hrun
    exact ⟨ev,cause,rfl,rfl,hrun⟩
  · exact absurd had.authentic (hno shape inner)

end

inductive Person
  | alice | bob | carol
  deriving DecidableEq

def trio : Person → Party Bytes32
  | .alice => DigMessage.alice
  | .bob => DigMessage.bob
  | .carol => ⟨byte32 3,byte32 13,0,0x500,maxConcurrentStreams⟩

theorem trio_injective : Function.Injective fun i => (trio i).did := by
  intro i j
  cases i <;> cases j <;> decide

theorem trio_run {i j : Person} (hij : i ≠ j) (script : List Action)
    (check : History Bytes32 → Bool)
    (h : (execute .plain (pairOf trio i j) default [] (startWorld .plain (pairOf trio i j)) script).any
      (fun p => check p.1) = true) :
    ∃ tr w, Relayed .plain (startWorld .plain (pairOf trio i j)) tr w ∧ check tr = true :=
  relayed_of_check Primitives.plain_lawful (fun he => absurd (trio_injective he) hij) script check h

theorem between_lift_other {i j k l : Person} (hno : ∀ x, sideOf i j (ends k l x) = none)
    (tr : History Bytes32) : between i j (lift k l tr) = [] := by
  rw [between,lift,List.filterMap_map,List.filterMap_eq_nil_iff]
  intro p _
  simp [hno p.1]

theorem dropped_unobserved {ev : Event Bytes32} {cause : MessageError}
    (hout : ev.outcome = .accepted (.ok (.dropped cause))) (x y : Side) (c : Bytes32)
    (tr : History Bytes32) : timesOpened c ((x,ev)::tr) = timesOpened c tr ∧
      payloadsReported y c ((x,ev)::tr) = payloadsReported y c tr := by
  have hopens : ev.opens c = false := by simp [Event.opens,hout]
  have hreported : ev.dataReported? c = none := by simp [Event.dataReported?,hout]
  constructor
  · simp [timesOpened,hopens]
  · simp [payloadsReported,observe,hreported]

section
variable (tr tr' : History Bytes32) (ev : Event Bytes32)

/-- Carol's run with Bob, an event at the endpoint Bob keeps for Alice, and Alice's run with Bob. -/
def inTurn : NetworkHistory Bytes32 Person :=
  lift Person.carol .bob tr'++[((.bob,.alice),ev)]++lift Person.alice .bob tr

theorem inTurn_alice : between Person.alice .bob (inTurn tr tr' ev) = (.b,ev)::tr := by
  rw [inTurn,between_append,between_lift (by decide),between_snoc,
    between_lift_other (fun x => by cases x <;> decide)]
  rfl

theorem inTurn_carol : between Person.carol .bob (inTurn tr tr' ev) = tr' := by
  rw [inTurn,between_append,between_snoc,between_lift (by decide),
    between_lift_other (fun x => by cases x <;> decide)]
  simp [show sideOf Person.carol .bob (.bob,.alice) = none by decide]

theorem sealedAt_inTurn {s : SealedFrame Bytes32} (hs : s ∈ sealedBy .a tr') :
    s ∈ sealedAt (.carol,.bob) (inTurn tr tr' ev) := by
  rw [inTurn,sealedAt_append,sealedAt_append]
  refine List.mem_append_left _ (List.mem_append_left _ ?_)
  exact (sealedAt_lift (i:=Person.carol) (j:=.bob) (by decide) .a tr').symm ▸ hs

end

/-- Carol streams to Bob, a frame of hers is presented to the endpoint Bob keeps for Alice, and then
Alice streams to Bob on a stream of the same id. -/
theorem trio_delivers : ∃ tr w s ev, Networked .plain trio tr w ∧
    s ∈ sealedAt (.carol,.bob) tr ∧ ((.bob,.alice),ev) ∈ tr ∧ ev.presented? = some s.envelope ∧
    Relayed .plain (startWorld .plain (pairOf trio .alice .bob)) (between .alice .bob tr)
      (worldBetween .alice .bob w) ∧
    payloadsReported .b (byte32 9) (between Person.alice .bob tr) = [[1,2],[3]] ∧
    payloadsReported .b (byte32 9) (between Person.carol .bob tr) = [[1,2],[3]] ∧
    [[1,2],[3]] <+: payloadsSent .a (byte32 9) (between Person.alice .bob tr) ∧
    [[1,2],[3]] <+: payloadsSent .a (byte32 9) (between Person.carol .bob tr) := by
  have hbob : Person.alice ≠ .bob := by decide
  have hcarol : Person.carol ≠ .bob := by decide
  obtain ⟨tr,w,hr,hc⟩ := trio_run hbob (exchange (byte32 9)) (exchanged (byte32 9))
    (by decide +kernel)
  obtain ⟨tr',w',hr',hc'⟩ := trio_run hcarol (exchange (byte32 9))
    (fun tr => exchanged (byte32 9) tr && !(sealedBy .a tr).isEmpty) (by decide +kernel)
  simp only [exchanged,Bool.and_eq_true,decide_eq_true_eq,Bool.not_eq_true',
    List.isEmpty_eq_false_iff]
    at hc hc'
  obtain ⟨s,hs⟩ := List.exists_mem_of_ne_nil _ hc'.2
  obtain ⟨w₁,hfirst,-,hkept⟩ := (Networked.nil (P:=.plain)).follow hcarol (pairOf_start _ _ _ _) hr'
  rw [List.nil_append] at hfirst
  have hunused (x : Side) : w₁ (ends .alice .bob x) =
      startNetwork .plain trio (ends .alice .bob x) :=
    hkept _ (by cases x <;> decide)
  -- the frame of Carol's comes to the wrong endpoint
  have hsender : s.envelope.sender = (trio .carol).did :=
    congrArg Prod.fst (hr'.sound .a s hs).sender
  have hpeer : (w₁ (.bob,.alice)).peerDid = (trio .alice).did :=
    congrArg StreamEndpoint.peerDid (hunused .b)
  obtain ⟨ev,cause,hpres,hout,hsecond⟩ := hfirst.refuse (.bob,.alice) s.envelope
    (knows .plain (trio .alice)) (fun did epoch pub hk => by
      rw [hpeer]
      exact (Option.ite_none_right_eq_some.mp hk).1.1)
    (by rw [hsender,hpeer]; decide) 1000 default (.ok (byte32 7))
  have hnew : worldBetween .alice .bob w₁ = startWorld .plain (pairOf trio .alice .bob) := by
    funext x
    rw [worldBetween,hunused]
    exact congrFun (pairOf_start _ _ _ _) x
  obtain ⟨w₂,hall,-,-⟩ := hsecond.follow hbob hnew hr
  have hrun : Networked .plain trio (inTurn tr tr' ev) w₂ := hall
  obtain ⟨hrelayed,hfromAlice⟩ := network_delivery Primitives.plain_lawful.zstd trio_injective hrun
    hbob
  have hfromCarol := (network_delivery Primitives.plain_lawful.zstd trio_injective hrun hcarol).2
    (byte32 9) .b
  obtain ⟨hopened,hreported⟩ := dropped_unobserved hout .b .b (byte32 9) tr
  have hdelivered := hfromAlice (byte32 9) .b
  rw [inTurn_alice,hopened,hreported] at hdelivered
  rw [inTurn_carol] at hfromCarol
  refine ⟨_,w₂,s,ev,hrun,sealedAt_inTurn tr tr' ev hs,by simp [inTurn],hpres,hrelayed,?_,?_,?_,?_⟩
  · rw [inTurn_alice,hreported]
    exact hc.1.2
  · rw [inTurn_carol]
    exact hc'.1.1.2
  · rw [inTurn_alice,← hc.1.2]
    exact hdelivered hc.1.1.le
  · rw [inTurn_carol,← hc'.1.1.2]
    exact hfromCarol hc'.1.1.1.le

end DigMessage
