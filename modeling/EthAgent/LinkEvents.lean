import EthAgent.LinkQueue

/-!
A link event as the bytes of a message: what `CosaDmlEthPortLinkStatusCallback`
returns to the HAL, what it has put in the queue by then, and what
`CosaDmlEthEventHandlerThread` reads from those bytes.
-/

set_option autoImplicit false

namespace EthAgent
open CString Packed

def eventMsgMaxSize : Nat := 256
def maxQueueMsgSize : Nat := 512
def msgTypeWan : Nat := 1

def LinkStatus.value : LinkStatus → Nat
  | .up => 1
  | .down => 2

def wanDataBytes (msg : WanData) : Text :=
  field 64 msg.name.text ++ intBytes msg.linkStatus.value

/-- The buffer that is sent: `CosaEthEventQData`, which is `Msg[256]` and behind
it `MsgType`, in as many bytes as a message of the queue has. -/
def eventBuffer (msg : WanData) : Text :=
  field maxQueueMsgSize (field eventMsgMaxSize (wanDataBytes msg) ++ intBytes msgTypeWan)

/-- What the event handler makes of a buffer: the name and the status that it
hands on, if the message is one of the WAN and its status is valid. -/
def handledEvent (buffer : Text) : Option (Text × LinkStatus) :=
  let msg := buffer.take eventMsgMaxSize
  let msgType := intOfBytes ((buffer.drop eventMsgMaxSize).take 4)
  if msgType = msgTypeWan then
    let wanData := msg.take 68
    let name := (wanData.take 64).set 63 nul
    match intOfBytes ((wanData.drop 64).take 4) with
    | 1 => some (untilNul name,.up)
    | 2 => some (untilNul name,.down)
    | _ => none
  else none

/-- The outcomes of `mq_open`, `mq_send` and `mq_close`. -/
structure QueueAnswers where
  opened : Bool
  sent : Bool
  closed : Bool

structure EventState where
  ports : PortTable
  queue : List Text

/-- `CosaDmlEthPortSendLinkStatusToEventQueue`; `none` is a `mq_send` that waits
for room in the queue. -/
def cosaDmlEthPortSendLinkStatusToEventQueue (a : QueueAnswers) (queue : List Text)
    (msgqWanData : WanData) : Option (Bool × List Text) :=
  if a.opened then
    if a.sent then
      if queue.length < maxQueueLength then some (a.closed,queue ++ [eventBuffer msgqWanData])
      else none
    else some (false,queue)
  else some (false,queue)

/-- `CosaDmlEthPortLinkStatusCallback`, which ignores the status of the sending.
The first component says whether TRUE is returned. -/
def cosaDmlEthPortLinkStatusCallbackResult (a : QueueAnswers) (s : EventState)
    (ifname state : Option CStr) : Option (Bool × EventState) :=
  match ifname,state with
  | some ifname,some state =>
    let linkStatus := linkStatusOfState state.text
    match cosaDmlEthPortGetIndexFromIfName s.ports (some ifname.text) with
    | some ifIndex =>
      let ports := s.ports.modifyRecord ifIndex fun r => { r with linkStatus := linkStatus }
      match ports.records[ifIndex]? with
      | some r =>
        (cosaDmlEthPortSendLinkStatusToEventQueue a s.queue
          ⟨Buf.store r.name.text,r.linkStatus⟩).map fun sent => (true,⟨ports,sent.2⟩)
      | none => some (true,{ s with ports := ports })
    | none => some (true,s)
  | _,_ => some (false,s)

theorem handledEvent_eventBuffer {msg : WanData} (h : nul ∉ msg.name.text) :
    handledEvent (eventBuffer msg) = some (msg.name.text,msg.linkStatus) := by
  have hdata : (wanDataBytes msg).length = 68 := by simp [wanDataBytes]
  have hevent : (field eventMsgMaxSize (wanDataBytes msg) ++ intBytes msgTypeWan).length = 260 := by
    simp [eventMsgMaxSize]
  have hbuffer : eventBuffer msg = (field eventMsgMaxSize (wanDataBytes msg) ++
      intBytes msgTypeWan) ++ List.replicate (512-260) nul := by
    rw [eventBuffer,field_of_le (by rw [hevent]; decide),hevent]
    rfl
  have hmsg : (eventBuffer msg).take eventMsgMaxSize =
      field eventMsgMaxSize (wanDataBytes msg) := by
    rw [hbuffer,List.append_assoc,List.take_left' (length_field _ _)]
  have htype : ((eventBuffer msg).drop eventMsgMaxSize).take 4 = intBytes msgTypeWan := by
    rw [hbuffer,List.append_assoc,List.drop_left' (length_field _ _),
      List.take_left' (length_intBytes _)]
  have htake : (field eventMsgMaxSize (wanDataBytes msg)).take 68 = wanDataBytes msg := by
    rw [← hdata]
    exact take_field (by rw [hdata]; decide)
  have hname : ((wanDataBytes msg).take 64).set 63 nul = field 64 msg.name.text := by
    rw [wanDataBytes,List.take_left' (length_field _ _)]
    exact set_last_field msg.name.fits
  have hstatus : ((wanDataBytes msg).drop 64).take 4 = intBytes msg.linkStatus.value := by
    rw [wanDataBytes,List.drop_left' (length_field _ _)]
    exact List.take_of_length_le (length_intBytes _).le
  have hint : ∀ n, n < 3 → intOfBytes (intBytes n) = n := fun n hn =>
    intOfBytes_intBytes (by omega)
  simp only [handledEvent,hmsg,htype,htake,hname,hstatus,untilNul_field h msg.name.fits]
  rw [hint _ (by decide),if_pos rfl]
  cases msg.linkStatus with
  | up => rw [hint _ (by decide)]; rfl
  | down => rw [hint _ (by decide)]; rfl

/-- A call for an interface of the table: the status is in the record, and on
its way as a message. -/
theorem linkStatusCallbackResult_of_index (a : QueueAnswers) {s : EventState} {ifname : CStr}
    (state : CStr) {i : Nat}
    (hi : cosaDmlEthPortGetIndexFromIfName s.ports (some ifname.text) = some i) :
    cosaDmlEthPortLinkStatusCallbackResult a s (some ifname) (some state) =
      (cosaDmlEthPortSendLinkStatusToEventQueue a s.queue
        ⟨Buf.store ifname.text,linkStatusOfState state.text⟩).map fun sent =>
          (true,⟨s.ports.modifyRecord i fun r =>
            { r with linkStatus := linkStatusOfState state.text },sent.2⟩) := by
  obtain ⟨r,hr,hname⟩ := record_of_index hi
  have hrecord : (s.ports.modifyRecord i fun r =>
      { r with linkStatus := linkStatusOfState state.text }).records[i]? =
        some { r with linkStatus := linkStatusOfState state.text } := by
    rw [records_modifyRecord,List.getElem?_modify]
    simp [hr]
  simp only [cosaDmlEthPortLinkStatusCallbackResult,hi,hrecord,hname]

/-- The table after a call that returns is that of the callback without its message. -/
theorem linkStatusCallbackResult_ports {a : QueueAnswers} {s s' : EventState}
    {ifname state : Option CStr} {ret : Bool}
    (h : cosaDmlEthPortLinkStatusCallbackResult a s ifname state = some (ret,s')) :
    s'.ports = cosaDmlEthPortLinkStatusCallback s.ports (ifname.map CStr.text)
      (state.map CStr.text) := by
  cases state with
  | none =>
    cases ifname <;> cases h <;> rfl
  | some state =>
    cases ifname with
    | none => cases h; rfl
    | some ifname =>
      cases hi : cosaDmlEthPortGetIndexFromIfName s.ports (some ifname.text) with
      | none =>
        simp only [cosaDmlEthPortLinkStatusCallbackResult,hi,Option.some_inj,Prod.mk.injEq] at h
        simp [cosaDmlEthPortLinkStatusCallback,hi,← h.2]
      | some i =>
        rw [linkStatusCallbackResult_of_index a state hi,Option.map_eq_some_iff] at h
        obtain ⟨sent,-,hs'⟩ := h
        simp [cosaDmlEthPortLinkStatusCallback,hi,linkStatusOfState,← (Prod.mk.inj hs').2]

/-- TRUE is returned only with the status in the record of the interface and one
message more in the queue, which is handled as the same name and status. -/
def EventKept (a : QueueAnswers) (s : EventState) (ifname state : Option CStr) : Prop :=
  ∀ s', cosaDmlEthPortLinkStatusCallbackResult a s ifname state = some (true,s') →
    ∃ name ifState, ifname = some name ∧ state = some ifState ∧
      (cosaDmlEthPortGetCopyOfGlobalInfoForGivenIfName s'.ports (some name.text)).map
        PortRecord.linkStatus = some (linkStatusOfState ifState.text) ∧
      ∃ msg, s'.queue = s.queue ++ [msg] ∧
        handledEvent msg = some (name.text,linkStatusOfState ifState.text)

/-- The queue is opened and takes the message, which has room for the name. -/
def Sends (a : QueueAnswers) (s : EventState) (name : CStr) : Prop :=
  a.opened = true ∧ a.sent = true ∧ (s.queue.length < maxQueueLength → name.text.length < 64)

/-- Where there are a name and a state, the interface is in the table, and its message
is sent. -/
def Deliverable (a : QueueAnswers) (s : EventState) (ifname state : Option CStr) : Prop :=
  ∀ name ∈ ifname, state ≠ none → name.text ∈ s.ports.names ∧ Sends a s name

theorem nul_notMem_store {ifname : CStr} : nul ∉ (Buf.store ifname.text : Buf 64).text :=
  fun h => ifname.noNul (List.mem_of_mem_take h)

theorem handledEvent_iff {ifname : CStr} (linkStatus : LinkStatus) :
    handledEvent (eventBuffer ⟨Buf.store ifname.text,linkStatus⟩) =
      some (ifname.text,linkStatus) ↔ ifname.text.length < 64 := by
  rw [handledEvent_eventBuffer nul_notMem_store,Option.some_inj,Prod.mk.injEq,
    and_iff_left rfl]
  constructor
  · intro h
    have hfits := (Buf.store ifname.text : Buf 64).fits
    rwa [h] at hfits
  · exact Buf.store_text_of_lt

theorem sendLinkStatus_lost {a : QueueAnswers} (h : ¬(a.opened = true ∧ a.sent = true))
    (queue : List Text) (msg : WanData) :
    cosaDmlEthPortSendLinkStatusToEventQueue a queue msg = some (false,queue) := by
  unfold cosaDmlEthPortSendLinkStatusToEventQueue
  cases hopened : a.opened with
  | false => rfl
  | true =>
    have hsent : a.sent = false := by simpa [hopened] using h
    simp [hsent]

theorem eventKept_of_index {a : QueueAnswers} {s : EventState} {ifname state : CStr} {i : Nat}
    (hi : cosaDmlEthPortGetIndexFromIfName s.ports (some ifname.text) = some i) :
    EventKept a s (some ifname) (some state) ↔ Sends a s ifname := by
  unfold EventKept Sends
  rw [linkStatusCallbackResult_of_index a state hi]
  by_cases hsend : a.opened = true ∧ a.sent = true
  · rw [← and_assoc,and_iff_right hsend]
    by_cases hroom : s.queue.length < maxQueueLength
    · simp only [cosaDmlEthPortSendLinkStatusToEventQueue,hsend.1,hsend.2,hroom,if_true,
        Option.map_some,Option.some_inj,Prod.mk.injEq,true_and,true_implies,forall_eq']
      rw [← handledEvent_iff (linkStatusOfState state.text)]
      constructor
      · rintro ⟨name,ifState,rfl,rfl,-,msg,hqueue,hhandled⟩
        obtain rfl := List.singleton_inj.mp (List.append_cancel_left hqueue)
        exact hhandled
      · refine fun hhandled => ⟨ifname,state,rfl,rfl,?_,_,rfl,hhandled⟩
        have hget := getCopy_modifyRecord hi
          (f := fun r => { r with linkStatus := linkStatusOfState state.text }) fun _ => rfl
        obtain ⟨r,hr,-⟩ := record_of_index hi
        rw [hget,getCopy_of_index hi,hr]
        rfl
    · simp [cosaDmlEthPortSendLinkStatusToEventQueue,hsend,hroom]
  · refine iff_of_false (fun h => ?_) fun h => hsend ⟨h.1,h.2.1⟩
    rw [sendLinkStatus_lost hsend] at h
    obtain ⟨-,-,-,-,-,buffer,hqueue,-⟩ := h _ rfl
    exact absurd (congrArg List.length hqueue) (by simp)

/-- No event is lost in silence exactly where none can be lost: the callback
returns TRUE whatever becomes of the message. -/
theorem link_event_kept_iff (a : QueueAnswers) (s : EventState) (ifname state : Option CStr) :
    EventKept a s ifname state ↔ Deliverable a s ifname state := by
  unfold Deliverable
  cases ifname with
  | none => simp [EventKept,cosaDmlEthPortLinkStatusCallbackResult]
  | some ifname =>
    cases state with
    | none => simp [EventKept,cosaDmlEthPortLinkStatusCallbackResult]
    | some state =>
      simp only [Option.mem_some_iff,forall_eq',ne_eq,reduceCtorEq,not_false_eq_true,
        true_implies]
      cases hi : cosaDmlEthPortGetIndexFromIfName s.ports (some ifname.text) with
      | none =>
        have hnot := (getIndexFromIfName_eq_none_iff _ _).mp hi
        refine iff_of_false (fun h => ?_) fun h => hnot h.1
        have hret : cosaDmlEthPortLinkStatusCallbackResult a s (some ifname) (some state) =
            some (true,s) := by
          simp [cosaDmlEthPortLinkStatusCallbackResult,hi]
        obtain ⟨-,-,-,-,-,buffer,hqueue,-⟩ := h s hret
        exact absurd (congrArg List.length hqueue) (by simp)
      | some i =>
        have hmem := ((getIndexFromIfName_eq_some_iff _ _ _).mp hi).mem
        rw [eventKept_of_index hi,and_iff_right hmem]

/-- An interface that the table has not, with nobody to receive its event: TRUE. -/
theorem unknown_interface_posted :
    ¬ EventKept ⟨true,true,true⟩ ⟨(cosaDmlEthPortInit fourPorts unconfigured).ports,[]⟩
      (some ⟨"eth7".toList,by decide⟩) (some ⟨"Up".toList,by decide⟩) := by
  intro h
  obtain ⟨name,ifState,-,-,-,msg,hqueue,-⟩ := h _ rfl
  exact absurd (congrArg List.length hqueue) (by simp)

end EthAgent
