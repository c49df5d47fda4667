import DigMessage.Lists
import DigMessage.StreamSession

/-! Every history of one stream session: its own calls and the headers of a peer that may send
anything, in any order. What was sent, taken, granted and closed is read off the history, and
the fields of the session keep account of it. -/
namespace DigMessage
open FixedWidth

inductive SessionCall
  | openAck (recvWindow : UInt32) | data | credit (n : UInt32) | close | reset
  | recv (frame : StreamFrame) (hdr : StreamHeader)
  deriving DecidableEq, Repr

inductive SessionReply
  | built (hdr : StreamHeader) | accepted (a : Accepted)
  deriving DecidableEq, Repr

namespace SessionCall

def perform : SessionCall → Fallible MessageError StreamSession SessionReply
  | .openAck w => do
    let hdr ← StreamSession.buildOpenAck w
    pure (.built hdr)
  | .data => do
    let hdr ← StreamSession.buildData
    pure (.built hdr)
  | .credit n => do
    let hdr ← StreamSession.buildCredit n
    pure (.built hdr)
  | .close => do
    let hdr ← StreamSession.buildClose
    pure (.built hdr)
  | .reset => do
    let hdr ← StreamSession.buildReset
    pure (.built hdr)
  | .recv frame hdr => do
    let a ← StreamSession.onRecv frame hdr
    pure (.accepted a)

def request : SessionCall → Option Request
  | .openAck w => some (.openAck w)
  | .data => some (.sendData [])
  | .credit n => some (.grantCredit n)
  | .close => some .close
  | .reset => some .reset
  | .recv .. => none

end SessionCall

structure SessionEvent where
  call : SessionCall
  result : Except MessageError SessionReply
  deriving DecidableEq

abbrev StreamSession.Run (s₀ : StreamSession) : List SessionEvent → StreamSession → Prop :=
  Lists.Along (fun s ev s' => ev.call.perform s = some (ev.result,s')) s₀

namespace StreamSession

inductive Moves (s : StreamSession) : SessionCall → SessionReply → StreamSession → Prop
  | send {call : SessionCall} {r : Request} {s' : StreamSession} : call.request = some r →
      s.Send r s' → Moves s call (.built (r.header s.sendSeq)) s'
  | recv {frame : StreamFrame} {hdr : StreamHeader} {a : Accepted} {s' : StreamSession} :
      s.reset = false → s.Recv hdr frame a s' → Moves s (.recv frame hdr) (.accepted a) s'

/-- A session as OPEN makes it, on either side. -/
def Started (s : StreamSession) : Prop := ∃ w, s = initiator w ∨ s = responder w

theorem built_cases {build : Fallible MessageError StreamSession StreamHeader} {r : Request}
    {call : SessionCall} (hb : Builds build r) (hr : call.request = some r) {s s' : StreamSession}
    {result : Except MessageError SessionReply}
    (h : (build >>= fun hdr => pure (.built hdr)) s = some (result,s')) :
    (s' = s ∧ ∃ e, result = .error e) ∨ ∃ reply, result = .ok reply ∧ s.Moves call reply s' := by
  rcases Fallible.bind_eq_some.mp h with ⟨e,he,rfl⟩ | ⟨hdr,u,hok,hp⟩
  · exact Or.inl ⟨hb.error he,e,rfl⟩
  · cases hp
    obtain ⟨hsend,rfl⟩ := hb.ok hok
    exact Or.inr ⟨_,rfl,.send hr hsend⟩

/-- A call fails and changes nothing, or moves the session. -/
theorem perform_cases {call : SessionCall} {s s' : StreamSession}
    {result : Except MessageError SessionReply} (h : call.perform s = some (result,s')) :
    (s' = s ∧ ∃ e, result = .error e) ∨ ∃ reply, result = .ok reply ∧ s.Moves call reply s' := by
  cases call with
  | openAck w => exact built_cases (buildOpenAck_builds w) rfl h
  | data => exact built_cases (buildData_builds []) rfl h
  | credit n => exact built_cases (buildCredit_builds n) rfl h
  | close => exact built_cases buildClose_builds rfl h
  | reset => exact built_cases buildReset_builds rfl h
  | recv frame hdr =>
    rcases Fallible.bind_eq_some.mp h with ⟨e,he,rfl⟩ | ⟨a,u,hok,hp⟩
    · exact Or.inl ⟨(onRecv_error he).1,e,rfl⟩
    · cases hp
      obtain ⟨hr,hrecv⟩ := onRecv_ok hok
      exact Or.inr ⟨_,rfl,.recv hr hrecv⟩

end StreamSession

namespace SessionEvent

def stamp? : SessionEvent → Option ℕ
  | ⟨.data,.ok (.built hdr)⟩ => some hdr.seq.toNat
  | _ => none

/-- The number on a DATA frame we took. -/
def taken? : SessionEvent → Option ℕ
  | ⟨.recv .data hdr,.ok _⟩ => some hdr.seq.toNat
  | _ => none

def received : SessionEvent → ℕ
  | ⟨.recv .openAck hdr,.ok _⟩ => hdr.window.toNat
  | ⟨.recv .credit hdr,.ok _⟩ => hdr.window.toNat
  | _ => 0

def advertised : SessionEvent → ℕ
  | ⟨.openAck w,.ok _⟩ => w.toNat
  | ⟨.credit n,.ok _⟩ => n.toNat
  | _ => 0

def acked : SessionEvent → Bool
  | ⟨.recv .openAck _,.ok _⟩ => true
  | _ => false

def completes : SessionEvent → Bool
  | ⟨.openAck _,.ok _⟩ => true
  | ⟨.recv .openAck _,.ok _⟩ => true
  | _ => false

def closesHere : SessionEvent → Bool
  | ⟨.close,.ok _⟩ => true
  | _ => false

def closesThere : SessionEvent → Bool
  | ⟨.recv .close _,.ok _⟩ => true
  | _ => false

def resetsThere : SessionEvent → Bool
  | ⟨.recv .reset _,.ok _⟩ => true
  | _ => false

end SessionEvent

namespace StreamSession
open SessionEvent

/-- The credit received so far, the window of the OPEN included. -/
def creditReceived (s₀ : StreamSession) (tr : List SessionEvent) : ℕ :=
  s₀.sendCredit.toNat+(tr.map received).sum

/-- The credit advertised so far, the window of the OPEN included. -/
def creditAdvertised (s₀ : StreamSession) (tr : List SessionEvent) : ℕ :=
  s₀.recvWindowRemaining.toNat+(tr.map advertised).sum

/-- What one event changes in the accounts of a session. -/
structure Books (s : StreamSession) (ev : SessionEvent) (s' : StreamSession) : Prop where
  sent : List.range s'.sendSeq.toNat = List.range s.sendSeq.toNat++ev.stamp?.toList
  taken : List.range s'.recvSeq.toNat = List.range s.recvSeq.toNat++ev.taken?.toList
  credit : s'.sendSeq.toNat+s'.sendCredit.toNat ≤ s.sendSeq.toNat+s.sendCredit.toNat+ev.received
  window : s'.recvSeq.toNat+s'.recvWindowRemaining.toNat ≤
    s.recvSeq.toNat+s.recvWindowRemaining.toNat+ev.advertised
  established : s'.handshake = .established ↔ s.handshake = .established ∨ ev.completes = true
  localClosed : s'.localClosed = (s.localClosed || ev.closesHere)
  remoteClosed : s'.remoteClosed = (s.remoteClosed || ev.closesThere)
  reset : (s.reset || ev.resetsThere) = true → s'.reset = true
  acked : ev.acked = true → s.handshake = .opening ∧ s'.handshake = .established
  closed : ev.closesThere = true → s.remoteClosed = false

structure Flagless (ev : SessionEvent) : Prop where
  completes : ev.completes = false
  closesHere : ev.closesHere = false
  closesThere : ev.closesThere = false
  resetsThere : ev.resetsThere = false
  acked : ev.acked = false

theorem Books.counted {s s' : StreamSession} {ev : SessionEvent} (hf : Flagless ev)
    (hh : s'.handshake = s.handshake) (hl : s'.localClosed = s.localClosed)
    (hr : s'.remoteClosed = s.remoteClosed) (hx : s'.reset = s.reset)
    (sent : List.range s'.sendSeq.toNat = List.range s.sendSeq.toNat++ev.stamp?.toList)
    (taken : List.range s'.recvSeq.toNat = List.range s.recvSeq.toNat++ev.taken?.toList)
    (credit : s'.sendSeq.toNat+s'.sendCredit.toNat ≤
      s.sendSeq.toNat+s.sendCredit.toNat+ev.received)
    (window : s'.recvSeq.toNat+s'.recvWindowRemaining.toNat ≤
      s.recvSeq.toNat+s.recvWindowRemaining.toNat+ev.advertised) : Books s ev s' where
  sent := sent
  taken := taken
  credit := credit
  window := window
  established := by simp [hh,hf.completes]
  localClosed := by simp [hl,hf.closesHere]
  remoteClosed := by simp [hr,hf.closesThere]
  reset := by simp [hx,hf.resetsThere]
  acked := by simp [hf.acked]
  closed := by simp [hf.closesThere]

theorem Books.flagged {s s' : StreamSession} {ev : SessionEvent} (hstamp : ev.stamp? = none)
    (htaken : ev.taken? = none) (hsend : s'.sendSeq = s.sendSeq) (hrecv : s'.recvSeq = s.recvSeq)
    (credit : s'.sendCredit.toNat ≤ s.sendCredit.toNat+ev.received)
    (window : s'.recvWindowRemaining.toNat ≤ s.recvWindowRemaining.toNat+ev.advertised)
    (established : s'.handshake = .established ↔ s.handshake = .established ∨ ev.completes = true)
    (localClosed : s'.localClosed = (s.localClosed || ev.closesHere))
    (remoteClosed : s'.remoteClosed = (s.remoteClosed || ev.closesThere))
    (reset : (s.reset || ev.resetsThere) = true → s'.reset = true)
    (acked : ev.acked = true → s.handshake = .opening ∧ s'.handshake = .established)
    (closed : ev.closesThere = true → s.remoteClosed = false) : Books s ev s' where
  sent := by rw [hstamp,hsend]; exact (List.append_nil _).symm
  taken := by rw [htaken,hrecv]; exact (List.append_nil _).symm
  credit := by rw [hsend]; omega
  window := by rw [hrecv]; omega
  established := established
  localClosed := localClosed
  remoteClosed := remoteClosed
  reset := reset
  acked := acked
  closed := closed

theorem Books.failed (s : StreamSession) (call : SessionCall) (e : MessageError) :
    Books s ⟨call,.error e⟩ s := by
  have hf : Flagless ⟨call,.error e⟩ := by
    constructor <;> simp [completes,closesHere,closesThere,resetsThere,SessionEvent.acked]
  have hstamp : (SessionEvent.mk call (.error e)).stamp? = none := by simp [stamp?]
  have htaken : (SessionEvent.mk call (.error e)).taken? = none := by simp [taken?]
  apply Books.counted hf rfl rfl rfl rfl <;> simp [hstamp,htaken]

theorem Send.books {s s' : StreamSession} {call : SessionCall} {r : Request}
    (hr : call.request = some r) (h : s.Send r s') :
    Books s ⟨call,.ok (.built (r.header s.sendSeq))⟩ s' := by
  cases h with
  | openAck w role opening =>
    cases call <;> cases hr
    exact .flagged rfl rfl rfl rfl (Nat.le_add_right _ _) (by simp [advertised])
      (by simp [completes]) (by simp [closesHere]) (by simp [closesThere]) (by simp [resetsThere])
      nofun nofun
  | sendData payload next established «open» credit hnext =>
    have hsub := toNat_sub_one credit
    cases call <;> cases hr
    refine .counted ⟨rfl,rfl,rfl,rfl,rfl⟩ rfl rfl rfl rfl ?_ (List.append_nil _).symm ?_ le_rfl
    · rw [hnext]
      exact List.range_succ
    · simp only [hnext,received]
      omega
  | grantCredit n established =>
    have hadd := saturatingAdd_toNat s.recvWindowRemaining n.toUInt64
    have hwide : n.toUInt64.toNat = n.toNat := UInt32.toNat_toUInt64 n
    cases call <;> cases hr
    refine .counted ⟨rfl,rfl,rfl,rfl,rfl⟩ rfl rfl rfl rfl (List.append_nil _).symm
      (List.append_nil _).symm le_rfl ?_
    simp only [advertised]
    omega
  | close «open» =>
    cases call <;> cases hr
    exact .flagged rfl rfl rfl rfl le_rfl le_rfl (by simp [completes]) (by simp [closesHere])
      (by simp [closesThere]) (by simp [resetsThere]) nofun nofun
  | reset =>
    cases call <;> cases hr
    exact .flagged rfl rfl rfl rfl le_rfl le_rfl (by simp [completes]) (by simp [closesHere])
      (by simp [closesThere]) (by simp) nofun nofun

theorem Recv.books {s s' : StreamSession} {frame : StreamFrame} {hdr : StreamHeader} {a : Accepted}
    (live : s.reset = false) (h : s.Recv hdr frame a s') :
    Books s ⟨.recv frame hdr,.ok (.accepted a)⟩ s' := by
  cases h with
  | openAck role opening =>
    exact .flagged rfl rfl rfl rfl (by simp [received]) le_rfl (by simp [completes])
      (by simp [closesHere]) (by simp [closesThere]) (by simp [live,resetsThere])
      (fun _ => ⟨opening,rfl⟩) nofun
  | data next established «open» hseq hw hnext =>
    have hsub := toNat_sub_one hw
    refine .counted ⟨rfl,rfl,rfl,rfl,rfl⟩ rfl rfl rfl rfl (List.append_nil _).symm ?_ le_rfl ?_
    · simp only [taken?,hseq,hnext]
      exact List.range_succ
    · simp only [hnext,advertised]
      omega
  | credit established =>
    have hadd := saturatingAdd_toNat s.sendCredit hdr.window.toUInt64
    have hwide : hdr.window.toUInt64.toNat = hdr.window.toNat := UInt32.toNat_toUInt64 hdr.window
    refine .counted ⟨rfl,rfl,rfl,rfl,rfl⟩ rfl rfl rfl rfl (List.append_nil _).symm
      (List.append_nil _).symm ?_ le_rfl
    simp only [received]
    omega
  | close established «open» =>
    exact .flagged rfl rfl rfl rfl le_rfl le_rfl (by simp [completes]) (by simp [closesHere])
      (by simp [closesThere]) (by simp [live,resetsThere]) nofun (fun _ => «open»)
  | closeAck closed =>
    exact .counted ⟨rfl,rfl,rfl,rfl,rfl⟩ rfl rfl rfl rfl (List.append_nil _).symm
      (List.append_nil _).symm le_rfl le_rfl
  | reset =>
    exact .flagged rfl rfl rfl rfl le_rfl le_rfl (by simp [completes]) (by simp [closesHere])
      (by simp [closesThere]) (by simp) nofun nofun

theorem Moves.books {s s' : StreamSession} {call : SessionCall} {reply : SessionReply}
    (h : s.Moves call reply s') : Books s ⟨call,.ok reply⟩ s' := by
  cases h with
  | send hr hs => exact hs.books hr
  | recv live hs => exact hs.books live

theorem perform_books {ev : SessionEvent} {s s' : StreamSession}
    (h : ev.call.perform s = some (ev.result,s')) : Books s ev s' := by
  obtain ⟨call,result⟩ := ev
  rcases perform_cases h with ⟨rfl,e,rfl⟩ | ⟨reply,rfl,hm⟩
  · exact .failed s' call e
  · exact hm.books

/-- The fields of a session keep account of its history. -/
structure Accounts (s₀ : StreamSession) (tr : List SessionEvent) (s : StreamSession) : Prop where
  sent : tr.filterMap stamp? = List.range s.sendSeq.toNat
  taken : tr.filterMap taken? = List.range s.recvSeq.toNat
  credit : s.sendSeq.toNat+s.sendCredit.toNat ≤ s₀.creditReceived tr
  window : s.recvSeq.toNat+s.recvWindowRemaining.toNat ≤ s₀.creditAdvertised tr
  established : s.handshake = .established ↔ tr.any completes = true
  localClosed : s.localClosed = tr.any closesHere
  remoteClosed : s.remoteClosed = tr.any closesThere
  reset : tr.any resetsThere = true → s.reset = true
  acks : tr.countP acked ≤ if s.handshake = .established then 1 else 0
  closes : tr.countP closesThere ≤ if s.remoteClosed then 1 else 0

theorem Started.accounts {s₀ : StreamSession} (h : s₀.Started) : Accounts s₀ [] s₀ := by
  obtain ⟨w,rfl | rfl⟩ := h
  · constructor <;> simp [initiator,creditReceived,creditAdvertised]
  · constructor <;> simp [responder,creditReceived,creditAdvertised]

theorem Accounts.snoc {s₀ s s' : StreamSession} {tr : List SessionEvent} {ev : SessionEvent}
    (h : Accounts s₀ tr s) (hb : Books s ev s') : Accounts s₀ (tr++[ev]) s' where
  sent := by
    rw [List.filterMap_append,h.sent,hb.sent]
    cases hs : ev.stamp? <;> simp [hs]
  taken := by
    rw [List.filterMap_append,h.taken,hb.taken]
    cases ht : ev.taken? <;> simp [ht]
  credit := by
    have hc := h.credit
    have he := hb.credit
    simp [creditReceived] at *
    omega
  window := by
    have hw := h.window
    have he := hb.window
    simp [creditAdvertised] at *
    omega
  established := by simp [hb.established,h.established]
  localClosed := by simp [hb.localClosed,h.localClosed]
  remoteClosed := by simp [hb.remoteClosed,h.remoteClosed]
  reset := by
    intro hr
    apply hb.reset
    rw [List.any_append,Bool.or_eq_true] at hr
    rw [Bool.or_eq_true]
    exact hr.imp h.reset (by simp)
  acks := by
    have hk := h.acks
    have hs := hb.acked
    have he := hb.established
    rw [List.countP_append]
    cases ha : ev.acked with
    | false =>
      have hle : (if s.handshake = .established then 1 else 0) ≤
          if s'.handshake = .established then 1 else 0 := by
        by_cases hest : s.handshake = .established
        · simp [hest,he.mpr (Or.inl hest)]
        · simp [hest]
      simpa [ha] using hk.trans hle
    | true =>
      obtain ⟨opening,hest⟩ := hs ha
      simp_all
  closes := by
    have hk := h.closes
    have hc := hb.closed
    have hr := hb.remoteClosed
    rw [List.countP_append]
    cases hev : ev.closesThere <;> cases hrc : s.remoteClosed <;> simp_all

theorem Run.accounts {s₀ s : StreamSession} {tr : List SessionEvent} (hs : s₀.Started)
    (h : Run s₀ tr s) : Accounts s₀ tr s :=
  h.records (fun hacc hp => hacc.snoc (perform_books hp)) hs.accounts

/-- The order and the limits that a history keeps, in both directions. -/
structure TraceLaw (s₀ : StreamSession) (tr : List SessionEvent) : Prop where
  sent : tr.filterMap stamp? = List.range (tr.filterMap stamp?).length
  taken : tr.filterMap taken? = List.range (tr.filterMap taken?).length
  credit : ∀ front back : List SessionEvent, tr = front++back →
    (front.filterMap stamp?).length ≤ s₀.creditReceived front
  window : ∀ front back : List SessionEvent, tr = front++back →
    (front.filterMap taken?).length ≤ s₀.creditAdvertised front
  sends : ∀ (front : List SessionEvent) (ev : SessionEvent) (back : List SessionEvent),
    tr = front++ev::back → ev.stamp?.isSome →
    front.any completes = true ∧ front.any closesHere = false
  takes : ∀ (front : List SessionEvent) (ev : SessionEvent) (back : List SessionEvent),
    tr = front++ev::back → ev.taken?.isSome →
    front.any completes = true ∧ front.any closesThere = false ∧ front.any resetsThere = false
  acks : tr.countP acked ≤ 1
  closes : tr.countP closesThere ≤ 1

theorem Moves.stamped {s s' : StreamSession} {call : SessionCall} {reply : SessionReply}
    (h : s.Moves call reply s') (hs : (SessionEvent.mk call (.ok reply)).stamp?.isSome) :
    s.handshake = .established ∧ s.localClosed = false := by
  cases h with
  | recv => simp [stamp?] at hs
  | send hr hsend =>
    cases call <;> simp [stamp?] at hs
    cases hr
    cases hsend with
    | sendData payload next established «open» => exact ⟨established,«open»⟩

theorem Moves.took {s s' : StreamSession} {call : SessionCall} {reply : SessionReply}
    (h : s.Moves call reply s') (hs : (SessionEvent.mk call (.ok reply)).taken?.isSome) :
    s.handshake = .established ∧ s.remoteClosed = false ∧ s.reset = false := by
  cases h with
  | send hr => cases call <;> simp [taken?] at hs; cases hr
  | recv live hrecv =>
    cases hrecv with
    | data next established «open» => exact ⟨established,«open»,live⟩
    | _ => simp [taken?] at hs

theorem failed_silent (call : SessionCall) (e : MessageError) :
    (SessionEvent.mk call (.error e)).stamp? = none ∧
    (SessionEvent.mk call (.error e)).taken? = none := by
  constructor <;> simp [stamp?,taken?]

theorem Run.law {s₀ s : StreamSession} {tr : List SessionEvent} (hs : s₀.Started)
    (h : Run s₀ tr s) : TraceLaw s₀ tr where
  sent := by rw [(h.accounts hs).sent,List.length_range]
  taken := by rw [(h.accounts hs).taken,List.length_range]
  credit front back htr := by
    subst htr
    obtain ⟨t,hfront,-⟩ := h.split
    have hacc := Run.accounts hs hfront
    have hcredit := hacc.credit
    rw [hacc.sent,List.length_range]
    omega
  window front back htr := by
    subst htr
    obtain ⟨t,hfront,-⟩ := h.split
    have hacc := Run.accounts hs hfront
    have hwindow := hacc.window
    rw [hacc.taken,List.length_range]
    omega
  sends front ev back htr hsent := by
    subst htr
    obtain ⟨t,hfront,hback⟩ := h.split
    have hacc := Run.accounts hs hfront
    rw [← hacc.established,← hacc.localClosed]
    obtain ⟨call,result⟩ := ev
    cases hback with
    | cons hp =>
      rcases perform_cases hp with ⟨-,e,rfl⟩ | ⟨reply,rfl,hm⟩
      · rw [(failed_silent call e).1] at hsent
        cases hsent
      · exact hm.stamped hsent
  takes front ev back htr htaken := by
    subst htr
    obtain ⟨t,hfront,hback⟩ := h.split
    have hacc := Run.accounts hs hfront
    rw [← hacc.established,← hacc.remoteClosed]
    obtain ⟨call,result⟩ := ev
    cases hback with
    | cons hp =>
      rcases perform_cases hp with ⟨-,e,rfl⟩ | ⟨reply,rfl,hm⟩
      · rw [(failed_silent call e).2] at htaken
        cases htaken
      · obtain ⟨established,«open»,live⟩ := hm.took htaken
        exact ⟨established,«open»,by simpa [live] using hacc.reset⟩
  acks := (h.accounts hs).acks.trans (by split <;> simp)
  closes := (h.accounts hs).closes.trans (by split <;> simp)

theorem buildData_total {s : StreamSession} (h : s.sendSeq.toNat+1 < 2^64) :
    ∃ result s', buildData s = some (result,s') := by
  have hnext : checkedAdd s.sendSeq 1 = some (s.sendSeq+1) := if_pos h
  unfold buildData
  rw [Fallible.bind_of_ok (Fallible.read_apply s)]
  split_ifs
  · exact ⟨_,_,rfl⟩
  · exact ⟨_,_,rfl⟩
  · exact ⟨_,_,rfl⟩
  · rw [hnext]
    exact ⟨_,_,rfl⟩

theorem onRecv_total {s : StreamSession} (h : s.recvSeq.toNat+1 < 2^64) (frame : StreamFrame)
    (hdr : StreamHeader) : ∃ result s', onRecv frame hdr s = some (result,s') := by
  have hnext : checkedAdd s.recvSeq 1 = some (s.recvSeq+1) := if_pos h
  unfold onRecv
  rw [Fallible.bind_of_ok (Fallible.read_apply s),hnext]
  cases frame <;> simp only <;> split_ifs <;> exact ⟨_,_,rfl⟩

theorem then_total {α : Type} {x : Fallible MessageError StreamSession α} {s : StreamSession}
    (h : ∃ result s', x s = some (result,s')) (f : α → SessionReply) :
    ∃ result s', (x >>= fun a => pure (f a)) s = some (result,s') := by
  obtain ⟨e | a,s',hx⟩ := h
  · exact ⟨_,_,Fallible.bind_of_error hx⟩
  · exact ⟨_,_,Fallible.bind_of_ok hx⟩

theorem perform_total {s : StreamSession} (hsend : s.sendSeq.toNat+1 < 2^64)
    (hrecv : s.recvSeq.toNat+1 < 2^64) (call : SessionCall) :
    ∃ result s', call.perform s = some (result,s') := by
  cases call with
  | openAck w =>
    apply then_total
    unfold buildOpenAck
    rw [Fallible.bind_of_ok (Fallible.read_apply s)]
    split_ifs <;> exact ⟨_,_,rfl⟩
  | data => exact then_total (buildData_total hsend) _
  | credit n =>
    apply then_total
    unfold buildCredit
    rw [Fallible.bind_of_ok (Fallible.read_apply s)]
    split_ifs <;> exact ⟨_,_,rfl⟩
  | close =>
    apply then_total
    unfold buildClose
    rw [Fallible.bind_of_ok (Fallible.read_apply s)]
    split_ifs <;> exact ⟨_,_,rfl⟩
  | reset => exact ⟨_,_,rfl⟩
  | recv frame hdr => exact then_total (onRecv_total hrecv frame hdr) _

/-- Every history keeps the law, a call that fails changes nothing, and every call returns that
does not bring a direction to `2^64` DATA frames. -/
theorem session_trace_law {s₀ s : StreamSession} {tr : List SessionEvent} (hs : s₀.Started)
    (h : Run s₀ tr s) : TraceLaw s₀ tr ∧
    (∀ call e s', SessionCall.perform call s = some (.error e,s') → s' = s) ∧
    ((tr.filterMap stamp?).length+1 < 2^64 → (tr.filterMap taken?).length+1 < 2^64 →
      ∀ call, ∃ result s', SessionCall.perform call s = some (result,s')) := by
  refine ⟨h.law hs,fun call e s' hp => ?_,fun hsend hrecv => ?_⟩
  · rcases perform_cases hp with ⟨rfl,-⟩ | ⟨reply,hr,-⟩
    · rfl
    · cases hr
  · have hacc := h.accounts hs
    rw [hacc.sent,List.length_range] at hsend
    rw [hacc.taken,List.length_range] at hrecv
    exact perform_total hsend hrecv

/-- An initiator that is granted two frames, sends both and is refused a third, takes the
peer's first frame and not its repetition, and half-closes. -/
def exchange : List SessionEvent :=
  [⟨.recv .openAck (header .openAck 0 2),.ok (.accepted .established)⟩,
   ⟨.data,.ok (.built (header .data 0 0))⟩,
   ⟨.data,.ok (.built (header .data 1 0))⟩,
   ⟨.data,.error (.streamProtocol "DATA exceeds the granted credit window")⟩,
   ⟨.recv .data (header .data 0 0),.ok (.accepted .data)⟩,
   ⟨.recv .data (header .data 0 0),
     .error (.streamProtocol "out-of-order / gap / replayed DATA seq")⟩,
   ⟨.close,.ok (.built (header .close 0 0))⟩]

theorem exchange_lawful : ∃ s, Run (initiator 1) exchange s ∧ TraceLaw (initiator 1) exchange ∧
    exchange.filterMap stamp? = [0,1] ∧ exchange.filterMap taken? = [0] := by
  have h : Run (initiator 1) exchange
      ⟨.initiator,.established,2,1,0,0,true,false,false⟩ :=
    .cons rfl (.cons rfl (.cons rfl (.cons rfl (.cons rfl (.cons rfl (.cons rfl .nil))))))
  exact ⟨_,h,(session_trace_law ⟨1,Or.inl rfl⟩ h).1,by decide,by decide⟩

end StreamSession
end DigMessage
