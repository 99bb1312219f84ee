import EthAgent.LinkQueue

/-!
Link events on their way from the callbacks to the WAN manager, in whatever order the
callbacks and the event handler take their steps. None is lost but by a send that fails,
none is delivered twice, and the event handler delivers what was sent in the order in
which it was sent.
-/

set_option autoImplicit false

namespace EthAgent
open CString Packed Runs Interleaving

/-- What a message, a callback that has still to send, and an event say. -/
def WanData.report (msg : WanData) : Text × LinkStatus := (msg.name.text,msg.linkStatus)

def CallbackPoint.report : CallbackPoint → Option (Text × LinkStatus)
  | .send msg => some msg.report
  | .store _ _ => none

/-- A message has room for 63 characters of the name. -/
def storedReport : LinkQueueEvent → Option (Text × LinkStatus)
  | .stored ifname linkStatus => some ((Buf.store ifname : Buf 64).text,linkStatus)
  | _ => none

def deliveredReport : LinkQueueEvent → Option (Text × LinkStatus)
  | .delivered ifname linkStatus => some (ifname,linkStatus)
  | _ => none

def droppedReport : LinkQueueEvent → Option (Text × LinkStatus)
  | .dropped ifname linkStatus => some (ifname,linkStatus)
  | _ => none

/-- The messages that have been sent and not delivered, the oldest first. -/
def LinkQueue.waiting (s : LinkQueue) : List WanData := s.handling.toList ++ s.queue

def sentBy (c : LinkQueueConf) : LinkQueueStep → List WanData
  | .enter _ => []
  | .resume k sent =>
    match c.threads[k]? with
    | some (.send msg) =>
      if sent = true ∧ c.shared.queue.length < maxQueueLength then [msg] else []
    | _ => []

/-- A configuration with its log, and all messages sent so far. -/
abbrev LinkHistory := (LinkQueueConf × List LinkQueueEvent) × List WanData

def historyStep (h : LinkHistory) (ev : LinkQueueStep) : LinkHistory :=
  (stepLog linkQueueProgram h.1 ev,h.2 ++ sentBy h.1.1 ev)

/-- Each stored status is delivered, waits, is still to be sent, or could not be sent,
once; what was sent is delivered or waits, in the order of sending. -/
structure EventsKept (h : LinkHistory) : Prop where
  accounted : (h.1.2.filterMap storedReport).Perm
    (h.1.2.filterMap deliveredReport ++ h.1.1.shared.waiting.map WanData.report ++
      h.1.1.threads.filterMap CallbackPoint.report ++ h.1.2.filterMap droppedReport)
  inOrder : h.2.map WanData.report =
    h.1.2.filterMap deliveredReport ++ h.1.1.shared.waiting.map WanData.report
  bounded : h.1.1.shared.queue.length ≤ maxQueueLength

theorem reports_send (msg : WanData) (points : List CallbackPoint) :
    (.send msg :: points).filterMap CallbackPoint.report =
      msg.report :: points.filterMap CallbackPoint.report := rfl

theorem eventHandler_moves (s : LinkQueue) :
    (eventHandler s).threads = [] ∧ (eventHandler s).events.filterMap storedReport = [] ∧
      (eventHandler s).events.filterMap droppedReport = [] ∧
      (eventHandler s).events.filterMap deliveredReport ++
        (eventHandler s).shared.waiting.map WanData.report = s.waiting.map WanData.report ∧
      (eventHandler s).shared.queue.length ≤ s.queue.length := by
  unfold eventHandler
  cases hh : s.handling with
  | some msg =>
    exact ⟨rfl,rfl,rfl,by simp [LinkQueue.waiting,hh,deliveredReport,WanData.report],le_rfl⟩
  | none =>
    cases hq : s.queue with
    | nil => exact ⟨rfl,rfl,rfl,by simp [LinkQueue.waiting],by simp [hq]⟩
    | cons msg queue => exact ⟨rfl,rfl,rfl,by simp [LinkQueue.waiting,hh,hq],by simp⟩

theorem EventsKept.enter {h : LinkHistory} (hk : EventsKept h) (call : LinkQueueCall) :
    EventsKept (historyStep h (.enter call)) := by
  have ho : outcome linkQueueProgram h.1.1 (.enter call) =
      some (linkQueueEnter h.1.1.shared call) := rfl
  rw [historyStep,stepLog_some ho]
  simp only [sentBy,rest,List.append_nil]
  cases call with
  | linkStatusCallback ifname state =>
    rcases linkQueueEnter_callback h.1.1.shared ifname state with heq | ⟨i,linkStatus,x,-,heq⟩
    · rw [heq,List.append_nil]
      exact hk
    · rw [heq,List.append_nil]
      exact ⟨hk.accounted,hk.inOrder,hk.bounded⟩
  | eventHandler =>
    obtain ⟨hthreads,hstored,hdropped,hmoved,hlength⟩ := eventHandler_moves h.1.1.shared
    simp only [linkQueueEnter,hthreads,List.nil_append]
    refine ⟨?_,?_,hlength.trans hk.bounded⟩
    · rw [List.filterMap_append,hstored,List.append_nil,List.filterMap_append,
        List.filterMap_append (f := droppedReport),hdropped,List.append_nil,
        List.append_assoc (h.1.2.filterMap deliveredReport),hmoved]
      exact hk.accounted
    · rw [List.filterMap_append,List.append_assoc,hmoved]
      exact hk.inOrder

/-- The threads that a step leaves behind account for what the one that moves has not. -/
theorem EventsKept.others {h : LinkHistory} (hk : EventsKept h) {k : Nat}
    {point : CallbackPoint} (sent : Bool) (hthread : h.1.1.threads[k]? = some point) :
    (h.1.2.filterMap storedReport).Perm
      (h.1.2.filterMap deliveredReport ++ h.1.1.shared.waiting.map WanData.report ++
        (point.report.toList ++
          (rest h.1.1 (.resume k sent : LinkQueueStep)).filterMap CallbackPoint.report) ++
        h.1.2.filterMap droppedReport) := by
  have hothers := (threads_perm (κ := LinkQueueCall) sent hthread).filterMap CallbackPoint.report
  rw [List.filterMap_cons] at hothers
  refine hk.accounted.trans ((List.Perm.append_left _ ?_).append_right _)
  cases hreport : point.report <;> simpa [hreport] using hothers

theorem EventsKept.store {h : LinkHistory} (hk : EventsKept h) {k i : Nat} {sent : Bool}
    {linkStatus : LinkStatus} (hthread : h.1.1.threads[k]? = some (.store i linkStatus)) :
    EventsKept (historyStep h (.resume k sent)) := by
  have ho : outcome linkQueueProgram h.1.1 (.resume k sent) =
      some (linkQueueResume h.1.1.shared (.store i linkStatus) sent) := outcome_resume hthread
  have hrest := hk.others sent hthread
  rw [historyStep,stepLog_some ho]
  simp only [sentBy,hthread,List.append_nil,linkQueueResume]
  cases hr : h.1.1.shared.ports.records[i]? with
  | none =>
    simp only [List.nil_append,List.append_nil]
    exact ⟨hrest,hk.inOrder,hk.bounded⟩
  | some r =>
    have hstored : [LinkQueueEvent.stored r.name.text linkStatus].filterMap storedReport =
        [WanData.report ⟨Buf.store r.name.text,linkStatus⟩] := rfl
    have hdelivered : [LinkQueueEvent.stored r.name.text linkStatus].filterMap deliveredReport =
        [] := rfl
    have hdropped : [LinkQueueEvent.stored r.name.text linkStatus].filterMap droppedReport =
        [] := rfl
    simp only [List.singleton_append]
    refine ⟨?_,?_,hk.bounded⟩
    · rw [List.filterMap_append,List.filterMap_append,List.filterMap_append (f := droppedReport),
        hstored,hdelivered,hdropped,List.append_nil,List.append_nil,reports_send]
      refine (List.perm_append_singleton _ _).trans ((hrest.cons _).trans ?_)
      rw [← List.cons_append]
      exact List.Perm.append_right _ List.perm_middle.symm
    · rw [List.filterMap_append,hdelivered,List.append_nil]
      exact hk.inOrder

theorem EventsKept.sent {h : LinkHistory} (hk : EventsKept h) {k : Nat} {msg : WanData}
    (hthread : h.1.1.threads[k]? = some (.send msg)) :
    EventsKept (historyStep h (.resume k true)) := by
  have ho : outcome linkQueueProgram h.1.1 (.resume k true) =
      some (linkQueueResume h.1.1.shared (.send msg) true) := outcome_resume hthread
  have hrest := hk.others true hthread
  rw [historyStep,stepLog_some ho]
  simp only [sentBy,hthread,linkQueueResume]
  by_cases hroom : h.1.1.shared.queue.length < maxQueueLength
  · simp only [hroom,and_self,if_true,List.nil_append,List.append_nil]
    have hwaiting : LinkQueue.waiting { h.1.1.shared with queue := h.1.1.shared.queue ++ [msg] } =
        h.1.1.shared.waiting ++ [msg] := by
      simp [LinkQueue.waiting]
    refine ⟨?_,?_,?_⟩
    · simp only [hwaiting,List.map_append,List.map_cons,List.map_nil]
      rw [← List.append_assoc (h.1.2.filterMap deliveredReport),List.append_assoc _ [msg.report]]
      exact hrest
    · simp only [hwaiting]
      rw [List.map_append,hk.inOrder,List.map_append,List.append_assoc]
    · simp only [List.length_append,List.length_singleton]
      omega
  · simp only [hroom,and_false,if_true,if_false,List.append_nil,List.singleton_append]
    exact ⟨hrest,hk.inOrder,hk.bounded⟩

/-- A status that cannot be sent is gone with its callback. -/
theorem EventsKept.dropped {h : LinkHistory} (hk : EventsKept h) {k : Nat} {msg : WanData}
    (hthread : h.1.1.threads[k]? = some (.send msg)) :
    EventsKept (historyStep h (.resume k false)) := by
  have ho : outcome linkQueueProgram h.1.1 (.resume k false) =
      some (linkQueueResume h.1.1.shared (.send msg) false) := outcome_resume hthread
  have hrest := hk.others false hthread
  rw [historyStep,stepLog_some ho]
  have hstored : [LinkQueueEvent.dropped msg.name.text msg.linkStatus].filterMap storedReport =
      [] := rfl
  have hdelivered :
      [LinkQueueEvent.dropped msg.name.text msg.linkStatus].filterMap deliveredReport = [] := rfl
  have hdropped :
      [LinkQueueEvent.dropped msg.name.text msg.linkStatus].filterMap droppedReport =
        [msg.report] := rfl
  simp only [sentBy,hthread,linkQueueResume,Bool.false_eq_true,false_and,if_false,
    List.nil_append,List.append_nil]
  refine ⟨?_,?_,hk.bounded⟩
  · rw [List.filterMap_append,List.filterMap_append,List.filterMap_append (f := droppedReport),
      hstored,hdelivered,hdropped,List.append_nil,List.append_nil]
    refine hrest.trans ?_
    simp only [CallbackPoint.report,Option.toList_some,List.append_assoc,List.singleton_append]
    refine List.Perm.append_left _ (List.Perm.append_left _ ?_)
    rw [← List.append_assoc]
    exact (List.perm_append_singleton _ _).symm
  · rw [List.filterMap_append,hdelivered,List.append_nil]
    exact hk.inOrder

theorem EventsKept.step {h : LinkHistory} (hk : EventsKept h) (ev : LinkQueueStep) :
    EventsKept (historyStep h ev) := by
  cases ev with
  | enter call => exact hk.enter call
  | resume k sent =>
    cases hthread : h.1.1.threads[k]? with
    | none =>
      have ho : outcome linkQueueProgram h.1.1 (.resume k sent) = none := by
        rw [outcome,hthread,Option.map_none]
      rw [historyStep,stepLog_none ho]
      simpa only [sentBy,hthread,List.append_nil] using hk
    | some point =>
      cases point with
      | store i linkStatus => exact hk.store hthread
      | send msg =>
        cases sent with
        | true => exact hk.sent hthread
        | false => exact hk.dropped hthread

/-- In every run each status that a callback stores is delivered, still on its way, or
lost by a send that fails, exactly once, and the deliveries are the first of the messages
sent, in their order. -/
theorem link_events_kept (t : PortTable) (steps : List LinkQueueStep) :
    Always historyStep EventsKept ((⟨⟨t,[],none⟩,[]⟩,[]),[]) steps :=
  always_of_meets (J := EventsKept) (C := fun _ _ => True)
    ⟨List.Perm.refl _,rfl,Nat.zero_le _⟩ (fun _ ev hk _ => hk.step ev) (fun _ hk => hk)
    (meets_of_forall fun _ _ => trivial)

end EthAgent
