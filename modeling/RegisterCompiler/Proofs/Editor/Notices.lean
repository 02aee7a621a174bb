/-
What an editor shows in the end.

Every notice that is sent is delivered once.  The last notice sent for a document tells what
holds for the text that is open there, so an editor that gets the notices for the document in
the order in which they were sent ends up with it.  A notice that is overtaken by a later one
is shown in the end instead of it.
-/

import Mathlib.Data.List.Perm.Basic
import RegisterCompiler.Editor.Traffic
import RegisterCompiler.Proofs.Store.OrderedMap

set_option autoImplicit false

namespace RegisterCompiler
namespace Editor

variable {notices others : List Notice} {address : String} {session : Session}

/-! ### What is shown -/

theorem shown_append_singleton (notices : List Notice) (notice : Notice) (address : String) :
    shown (notices ++ [notice]) address =
      if notice.address = address then notice.diagnostics else shown notices address := by
  rw [shown, List.filter_append]
  by_cases hSame : notice.address = address
  · simp [hSame]
  · simp [hSame, shown]

private theorem shown_told (notices : List Notice) (address : String) :
    (∃ notice ∈ notices, notice.address = address ∧ shown notices address = notice.diagnostics) ∨
      (∀ notice ∈ notices, notice.address ≠ address) ∧ shown notices address = [] := by
  cases hLast : (notices.filter fun notice => notice.address = address).getLast? with
  | none =>
      have hEmpty := List.filter_eq_nil_iff.mp (List.getLast?_eq_none_iff.mp hLast)
      refine .inr ⟨fun notice hNotice hSame => hEmpty notice hNotice (decide_eq_true hSame), ?_⟩
      rw [shown, hLast]
      rfl
  | some notice =>
      have hMem := List.mem_filter.mp (List.mem_of_getLast? hLast)
      refine .inl ⟨notice, hMem.1, of_decide_eq_true hMem.2, ?_⟩
      rw [shown, hLast]
      rfl

/-- If all notices for an address tell the same, every order of delivery shows it. -/
theorem shown_of_perm {diagnostics : List Diagnostic} (hPerm : others.Perm notices)
    (hSame : ∀ notice ∈ notices, notice.address = address → notice.diagnostics = diagnostics)
    (hShown : shown notices address = diagnostics) : shown others address = diagnostics := by
  rcases shown_told others address with ⟨notice, hNotice, hAddress, hOthers⟩ | ⟨hNone, hOthers⟩
  · rw [hOthers]
    exact hSame notice (hPerm.mem_iff.mp hNotice) hAddress
  · -- Without a notice for the address in one order there is none in the other.
    rcases shown_told notices address with ⟨notice, hNotice, hAddress, -⟩ | ⟨-, hNothing⟩
    · exact absurd hAddress (hNone notice (hPerm.mem_iff.mpr hNotice))
    · rw [hOthers, ← hShown, hNothing]

/-! ### Requests -/

theorem owed_update (session : Session) (changed : String) (text : Text.Bytes)
    (address : String) :
    (session.update changed text).2.owed address =
      if changed = address then (session.update changed text).1.diagnostics
      else session.owed address := by
  simp only [Session.owed, Session.update, OrderedMap.get?_set, eq_comm (a := address)]
  split <;> rfl

private theorem owed_close (session : Session) (closed address : String) :
    (session.close closed).2.owed address =
      if closed = address then (session.close closed).1.diagnostics
      else session.owed address := by
  simp only [Session.owed, Session.close, OrderedMap.get?_erase, eq_comm (a := address)]
  split <;> rfl

/-- A notice tells what is owed to its document from now on.  Nothing changes for the other
documents, nor for any document without a notice. -/
theorem owed_handle (session : Session) (request : DocumentRequest) (address : String) :
    (session.handle request).2.owed address =
      ((session.handle request).1.elim (session.owed address) fun notice =>
        if notice.address = address then notice.diagnostics else session.owed address) := by
  cases request with
  | opened changed text => exact owed_update session changed text address
  | changed changed changes =>
      simp only [Session.handle, Session.change]
      split
      · exact owed_update session changed _ address
      · rfl
  | closed closed => exact owed_close session closed address

private theorem shown_handle (request : DocumentRequest)
    (hShown : shown notices address = session.owed address) :
    shown (notices ++ (session.handle request).1.toList) address =
      (session.handle request).2.owed address := by
  rw [owed_handle]
  cases (session.handle request).1 with
  | none =>
      rw [Option.toList_none, List.append_nil]
      exact hShown
  | some notice =>
      rw [Option.toList_some, shown_append_singleton, hShown]
      rfl

private theorem handleAll_cons (session : Session) (request : DocumentRequest)
    (requests : List DocumentRequest) :
    session.handleAll (request :: requests) =
      ((session.handle request).1.toList ++ ((session.handle request).2.handleAll requests).1,
        ((session.handle request).2.handleAll requests).2) :=
  rfl

private theorem shown_handleAll (requests : List DocumentRequest)
    (hShown : shown notices address = session.owed address) :
    shown (notices ++ (session.handleAll requests).1) address =
      (session.handleAll requests).2.owed address := by
  induction requests generalizing session notices with
  | nil =>
      rw [Session.handleAll, List.append_nil]
      exact hShown
  | cons request requests inductionHypothesis =>
      rw [handleAll_cons, ← List.append_assoc]
      exact inductionHypothesis (shown_handle request hShown)

private theorem shown_handleAll_start (options : GeneratorOptions) (requests : List DocumentRequest)
    (address : String) :
    shown ((Session.start options).handleAll requests).1 address =
      ((Session.start options).handleAll requests).2.owed address := by
  have hNothing : shown [] address = (Session.start options).owed address := rfl
  exact shown_handleAll requests hNothing

/-! ### Runs -/

namespace Traffic

open TrafficEvent (requests)

variable {traffic after later : Traffic} {event : TrafficEvent} {events more : List TrafficEvent}

private theorem run?_cons_eq_some_iff : traffic.run? (event :: events) = some later ↔
    ∃ after, traffic.step? event = some after ∧ after.run? events = some later := by
  rw [run?, List.foldlM_cons]
  exact Option.bind_eq_some_iff

private theorem run?_append (hRun : traffic.run? events = some after) :
    traffic.run? (events ++ more) = after.run? more := by
  rw [run?, List.foldlM_append, ← run?, hRun]
  rfl

private theorem step?_handle (traffic : Traffic) (request : DocumentRequest) :
    traffic.step? (.handle request) =
      some { traffic with
        session := (traffic.session.handle request).2
        flying := traffic.flying ++ (traffic.session.handle request).1.toList } :=
  rfl

private theorem perm_of_deliver {index : Nat}
    (hStep : traffic.step? (.deliver index) = some after) :
    after.session = traffic.session ∧
      (after.delivered ++ after.flying).Perm (traffic.delivered ++ traffic.flying) := by
  rcases Option.map_eq_some_iff.mp hStep with ⟨notice, hNotice, hAfter⟩
  cases hAfter
  rcases List.getElem?_eq_some_iff.mp hNotice with ⟨hIndex, hElement⟩
  refine ⟨rfl, ?_⟩
  rw [List.append_assoc, List.singleton_append, ← hElement]
  exact (List.getElem_cons_eraseIdx_perm hIndex).append_left _

/-- The notices delivered and on their way are those that were, and those sent since. -/
theorem run_carries (hRun : traffic.run? events = some later) :
    later.session = (traffic.session.handleAll (requests events)).2 ∧
      (later.delivered ++ later.flying).Perm
        (traffic.delivered ++ traffic.flying ++
          (traffic.session.handleAll (requests events)).1) := by
  induction events generalizing traffic with
  | nil =>
      cases hRun
      refine ⟨rfl, ?_⟩
      rw [requests, List.filterMap_nil, Session.handleAll, List.append_nil]
  | cons event events inductionHypothesis =>
      rcases run?_cons_eq_some_iff.mp hRun with ⟨after, hStep, hRest⟩
      rcases inductionHypothesis hRest with ⟨hSession, hNotices⟩
      cases event with
      | handle request =>
          cases hStep
          refine ⟨hSession, ?_⟩
          rw [show requests (.handle request :: events) = request :: requests events from rfl,
            handleAll_cons, ← List.append_assoc, List.append_assoc traffic.delivered]
          exact hNotices
      | deliver index =>
          rcases perm_of_deliver hStep with ⟨hSame, hMoved⟩
          rw [hSame] at hSession hNotices
          exact ⟨hSession, hNotices.trans (hMoved.append_right _)⟩

private theorem run?_handle (traffic : Traffic) (requests : List DocumentRequest) :
    traffic.run? (requests.map .handle) =
      some { traffic with
        session := (traffic.session.handleAll requests).2
        flying := traffic.flying ++ (traffic.session.handleAll requests).1 } := by
  induction requests generalizing traffic with
  | nil =>
      rw [Session.handleAll, List.append_nil]
      rfl
  | cons request requests inductionHypothesis =>
      rw [List.map_cons, run?_cons_eq_some_iff]
      refine ⟨_, step?_handle traffic request, ?_⟩
      rw [inductionHypothesis, handleAll_cons, List.append_assoc]

private theorem exists_run?_deliver {order : List Notice} (hOrder : order.Perm traffic.flying) :
    ∃ indices : List Nat, traffic.run? (indices.map .deliver) =
      some { traffic with flying := [], delivered := traffic.delivered ++ order } := by
  induction order generalizing traffic with
  | nil =>
      rcases traffic with ⟨session, flying, delivered⟩
      cases List.nil_perm.mp hOrder
      refine ⟨[], ?_⟩
      rw [List.append_nil]
      rfl
  | cons notice order inductionHypothesis =>
      rcases List.mem_iff_getElem?.mp (hOrder.mem_iff.mp List.mem_cons_self) with
        ⟨index, hIndex⟩
      rcases List.getElem?_eq_some_iff.mp hIndex with ⟨hBound, hNotice⟩
      have hRest : order.Perm (traffic.flying.eraseIdx index) := by
        rw [← List.perm_cons notice]
        refine hOrder.trans (List.Perm.symm ?_)
        rw [← hNotice]
        exact List.getElem_cons_eraseIdx_perm hBound
      let after : Traffic :=
        { traffic with
          flying := traffic.flying.eraseIdx index
          delivered := traffic.delivered ++ [notice] }
      have hStep : traffic.step? (.deliver index) = some after := by
        rw [step?, hIndex]
        rfl
      have hAfter : order.Perm after.flying := hRest
      rcases inductionHypothesis hAfter with ⟨indices, hIndices⟩
      refine ⟨index :: indices, ?_⟩
      rw [List.map_cons, run?_cons_eq_some_iff]
      refine ⟨after, hStep, ?_⟩
      rw [hIndices, List.append_assoc]
      rfl

private theorem requests_append (events more : List TrafficEvent) :
    requests (events ++ more) = requests events ++ requests more :=
  List.filterMap_append

private theorem requests_handle (handled : List DocumentRequest) :
    requests (handled.map .handle) = handled := by
  rw [requests, List.filterMap_map]
  exact List.filterMap_some

private theorem requests_deliver (indices : List Nat) : requests (indices.map .deliver) = [] := by
  rw [requests, List.filterMap_map, List.filterMap_eq_nil_iff]
  exact fun _ _ => rfl

/-- Whatever order the notices of some requests arrive in, it can come about. -/
theorem exists_run_delivering (options : GeneratorOptions) {handled : List DocumentRequest}
    {order : List Notice} (hOrder : order.Perm ((Session.start options).handleAll handled).1) :
    ∃ events traffic, requests events = handled ∧ (start options).run? events = some traffic ∧
      traffic.flying = [] ∧ traffic.delivered = order := by
  let sent : Traffic :=
    ⟨((Session.start options).handleAll handled).2,
      ((Session.start options).handleAll handled).1, []⟩
  have hHandled : (start options).run? (handled.map .handle) = some sent :=
    run?_handle (start options) handled
  have hSent : order.Perm sent.flying := hOrder
  rcases exists_run?_deliver hSent with ⟨indices, hIndices⟩
  refine ⟨handled.map .handle ++ indices.map .deliver, _, ?_, (run?_append hHandled).trans hIndices,
    rfl, List.nil_append order⟩
  rw [requests_append, requests_handle, requests_deliver, List.append_nil]

/-- Once no notice is on its way, each notice that was sent has been delivered once.  If the
notices for a document arrived in the order in which they were sent, the editor shows what is
owed to the document: the diagnostics of its text, or none if it is closed.  It does so
in every order of delivery exactly if all notices sent for the document tell the same. -/
theorem diagnostics_settle {options : GeneratorOptions}
    (hRun : (start options).run? events = some traffic) (hSettled : traffic.flying = [])
    (address : String) :
    let sent := ((Session.start options).handleAll (requests events)).1
    traffic.session = ((Session.start options).handleAll (requests events)).2 ∧
    traffic.delivered.Perm sent ∧
    (((traffic.delivered.filter fun notice => notice.address = address) =
        sent.filter fun notice => notice.address = address) →
      shown traffic.delivered address = traffic.session.owed address) ∧
    ((∀ others other, requests others = requests events →
        (start options).run? others = some other → other.flying = [] →
        shown other.delivered address = traffic.session.owed address) ↔
      ∀ notice ∈ sent, notice.address = address →
        notice.diagnostics = traffic.session.owed address) := by
  intro sent
  have hDelivered : ∀ {others other}, requests others = requests events →
      (start options).run? others = some other → other.flying = [] →
      other.session = ((Session.start options).handleAll (requests events)).2 ∧
        other.delivered.Perm sent := by
    intro others other hRequests hOther hNone
    have hCarries := run_carries hOther
    rw [hNone, List.append_nil, hRequests] at hCarries
    exact hCarries
  rcases hDelivered rfl hRun hSettled with ⟨hSession, hPerm⟩
  have hOwed : shown sent address = traffic.session.owed address := by
    rw [hSession]
    exact shown_handleAll_start options (requests events) address
  refine ⟨hSession, hPerm, ?_, ?_, ?_⟩
  · intro hInOrder
    rw [← hOwed, shown, hInOrder]
    rfl
  · -- The notice can be the last one to arrive.
    intro hAlways notice hNotice hAddress
    have hLast : (sent.erase notice ++ [notice]).Perm sent :=
      List.perm_append_comm.trans (List.perm_cons_erase hNotice).symm
    rcases exists_run_delivering options hLast with
      ⟨others, other, hRequests, hOther, hNone, hOrder⟩
    have hShown := hAlways others other hRequests hOther hNone
    rw [hOrder, shown_append_singleton, if_pos hAddress] at hShown
    exact hShown
  · intro hSame others other hRequests hOther hNone
    exact shown_of_perm (hDelivered hRequests hOther hNone).2 hSame hOwed

def mended : DocumentRequest :=
  .changed "a" [.part, .whole (Text.encode "VAR n BEGIN READ n; WRITE n; END")]

/-- A text with an undeclared name is opened, one more request is handled, and two notices are
delivered. -/
def revising (request : DocumentRequest) (first second : Nat) : List TrafficEvent :=
  [.handle (.opened "a" (Text.encode "VAR n BEGIN WRITE m; END")), .handle request,
    .deliver first, .deliver second]

/-- The two notices arrive in the order in which they were sent, and the errors are gone. -/
theorem mended_text_diagnostics_settle :
    ∃ traffic, (start .standard).run? (revising mended 0 0) = some traffic ∧
      traffic.flying = [] ∧ traffic.session.owed "a" = [] ∧
      shown traffic.delivered "a" = traffic.session.owed "a" := by
  have hEnd : ((start .standard).run? (revising mended 0 0)).any (fun traffic =>
      traffic.flying = [] ∧ traffic.session.owed "a" = [] ∧
        (traffic.delivered.filter fun notice => notice.address = "a") =
          ((Session.start .standard).handleAll (requests (revising mended 0 0))).1.filter
            fun notice => notice.address = "a") = true := by
    decide +kernel
  rcases (Option.any_eq_true _ _).mp hEnd with ⟨traffic, hRun, hHolds⟩
  rcases of_decide_eq_true hHolds with ⟨hSettled, hOwed, hArrived⟩
  rcases diagnostics_settle hRun hSettled "a" with ⟨-, -, hInOrder, -⟩
  exact ⟨traffic, hRun, hSettled, hOwed, hInOrder hArrived⟩

def StillShown (events : List TrafficEvent) : Prop :=
  ∃ traffic, (start .standard).run? events = some traffic ∧ traffic.flying = [] ∧
    traffic.session.owed "a" = [] ∧ shown traffic.delivered "a" ≠ traffic.session.owed "a"

private theorem stillShown_of_any
    (hEnd : ((start .standard).run? events).any (fun traffic =>
      traffic.flying = [] ∧ traffic.session.owed "a" = [] ∧
        shown traffic.delivered "a" ≠ traffic.session.owed "a") = true) :
    StillShown events := by
  rcases (Option.any_eq_true _ _).mp hEnd with ⟨traffic, hRun, hHolds⟩
  exact ⟨traffic, hRun, of_decide_eq_true hHolds⟩

/-- The first notice is overtaken, and its errors are shown in the end, though the text that is
open has none, or no text is open any more. -/
theorem overtaken_notice_shown :
    StillShown (revising mended 1 0) ∧ StillShown (revising (.closed "a") 1 0) :=
  ⟨stillShown_of_any (by decide +kernel), stillShown_of_any (by decide +kernel)⟩

end Traffic
end Editor
end RegisterCompiler
