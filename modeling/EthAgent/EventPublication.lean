import EthAgent.Lib.CString
import EthAgent.Lib.Runs

/-!
The event for the status of the Ethernet WAN link: `eventSubHandler` counts its
subscriptions, `publishEWanLinkStatus` emits it.
-/

set_option autoImplicit false

namespace EthAgent
open CString Runs

/-- `RBUS_EVENT_ACTION_SUBSCRIBE`, and the other value of `rbusEventSubAction_t`. -/
inductive EventSubAction where
  | subscribe
  | unsubscribe
  deriving DecidableEq

/-- An event `RBUS_EVENT_VALUE_CHANGED`, with the values of its object. -/
structure ValueChanged where
  name : Text
  value : Bool
  oldValue : Bool
  byComponent : Text
  deriving DecidableEq

def ethwanLinkStatusTr181 : Text := "Device.X_RDKCENTRAL-COM_EthernetWAN.LinkStatus".toList
def rbusComponentName : Text := "RbusEthAgent".toList

/-- `gSubscribersCount`, an `unsigned int`, and `ethAgent_Link_Status.EWanLinkStatus`. -/
structure LinkStatusEvents where
  gSubscribersCount : Nat
  eWanLinkStatus : Bool
  deriving DecidableEq

def initLinkStatus : LinkStatusEvents := ⟨0,false⟩

def eventSubHandler (s : LinkStatusEvents) (action : EventSubAction) (eventName : Text) :
    LinkStatusEvents :=
  if ethwanLinkStatusTr181 = eventName then
    match action with
    | .subscribe => { s with gSubscribersCount := (s.gSubscribersCount+1)%2^32 }
    | .unsubscribe =>
      if 0 < s.gSubscribersCount then { s with gSubscribersCount := s.gSubscribersCount-1 } else s
  else s

def sendBoolUpdateEvent (eventName : Text) (eventNewData eventOldData : Bool) : ValueChanged where
  name := eventName
  value := eventNewData
  oldValue := eventOldData
  byComponent := rbusComponentName

def publishEWanLinkStatus (s : LinkStatusEvents) (linkStatus : Bool) :
    LinkStatusEvents × List ValueChanged :=
  ({ s with eWanLinkStatus := linkStatus },
    if 0 < s.gSubscribersCount then
      [sendBoolUpdateEvent ethwanLinkStatusTr181 linkStatus s.eWanLinkStatus]
    else [])

inductive LinkStatusCall where
  | eventSub (action : EventSubAction) (eventName : Text)
  | publish (linkStatus : Bool)
  deriving DecidableEq

def linkStatusCall (s : LinkStatusEvents) : LinkStatusCall → LinkStatusEvents × List ValueChanged
  | .eventSub action eventName => (eventSubHandler s action eventName,[])
  | .publish linkStatus => publishEWanLinkStatus s linkStatus

/-- The agent beside what the bus and the callers know: the active subscriptions to the
event, and the status of the last publication. -/
structure Publication where
  agent : LinkStatusEvents
  active : Nat
  previous : Bool
  deriving DecidableEq

def startOfPublication : Publication := ⟨initLinkStatus,0,false⟩

def LinkStatusCall.delta : LinkStatusCall → Option EventSubAction
  | .eventSub action eventName => if ethwanLinkStatusTr181 = eventName then some action else none
  | .publish _ => none

def publicationStep (s : Publication) (c : LinkStatusCall) : Publication where
  agent := (linkStatusCall s.agent c).1
  active :=
    match c.delta with
    | some .subscribe => s.active+1
    | some .unsubscribe => s.active-1
    | none => s.active
  previous :=
    match c with
    | .eventSub _ _ => s.previous
    | .publish linkStatus => linkStatus

/-- What a call has to emit: the change of the status, where there are subscriptions. -/
def dueEvents (s : Publication) : LinkStatusCall → List ValueChanged
  | .eventSub _ _ => []
  | .publish linkStatus =>
    if 0 < s.active ∧ linkStatus ≠ s.previous then
      [⟨ethwanLinkStatusTr181,linkStatus,s.previous,rbusComponentName⟩]
    else []

def EmitsDue (s : Publication) (c : LinkStatusCall) : Prop :=
  (linkStatusCall s.agent c).2 = dueEvents s c

/-- The bus ends only subscriptions that there are, and has no more of them at a time
than an `unsigned int` counts. -/
def Granted (s : Publication) (c : LinkStatusCall) : Prop :=
  (c.delta = some .subscribe → s.active+1 < 2^32) ∧ (c.delta = some .unsubscribe → 0 < s.active)

/-- The status is published as it was only while nobody is subscribed. -/
def PublishesChange (s : Publication) : LinkStatusCall → Prop
  | .eventSub _ _ => True
  | .publish linkStatus => 0 < s.active → linkStatus ≠ s.previous

instance (s : Publication) (c : LinkStatusCall) : Decidable (EmitsDue s c) :=
  inferInstanceAs (Decidable ((linkStatusCall s.agent c).2 = dueEvents s c))

instance (s : Publication) (c : LinkStatusCall) : Decidable (Granted s c) :=
  inferInstanceAs (Decidable ((c.delta = some .subscribe → s.active+1 < 2^32) ∧
    (c.delta = some .unsubscribe → 0 < s.active)))

/-- The counter counts the active subscriptions, and the stored status is the last one
published. -/
structure EmittedSoFar (s : Publication) : Prop where
  count : s.agent.gSubscribersCount = s.active
  bound : s.active < 2^32
  status : s.agent.eWanLinkStatus = s.previous

theorem EmittedSoFar.step {s : Publication} {c : LinkStatusCall} (h : EmittedSoFar s)
    (hc : Granted s c) : EmittedSoFar (publicationStep s c) := by
  obtain ⟨hcount,hbound,hstatus⟩ := h
  cases c with
  | publish linkStatus => exact ⟨hcount,hbound,rfl⟩
  | eventSub action eventName =>
    by_cases hname : ethwanLinkStatusTr181 = eventName
    · cases action with
      | subscribe =>
        have hroom : s.active+1 < 2^32 := hc.1 (by simp [LinkStatusCall.delta,hname])
        refine ⟨?_,?_,?_⟩
        · simp only [publicationStep,linkStatusCall,eventSubHandler,LinkStatusCall.delta,hname,
            if_true,hcount]
          exact Nat.mod_eq_of_lt hroom
        · simpa [publicationStep,LinkStatusCall.delta,hname] using hroom
        · simpa [publicationStep,linkStatusCall,eventSubHandler,hname] using hstatus
      | unsubscribe =>
        have hsome : 0 < s.active := hc.2 (by simp [LinkStatusCall.delta,hname])
        refine ⟨?_,?_,?_⟩
        · simp [publicationStep,linkStatusCall,eventSubHandler,LinkStatusCall.delta,hname,hcount,
            hsome]
        · simp only [publicationStep,LinkStatusCall.delta,hname,if_true]
          omega
        · simpa [publicationStep,linkStatusCall,eventSubHandler,hname,hcount,hsome] using hstatus
    · refine ⟨?_,?_,?_⟩
      · simpa [publicationStep,linkStatusCall,eventSubHandler,LinkStatusCall.delta,hname]
          using hcount
      · simpa [publicationStep,LinkStatusCall.delta,hname] using hbound
      · simpa [publicationStep,linkStatusCall,eventSubHandler,hname] using hstatus

theorem EmittedSoFar.emitsDue_iff {s : Publication} (h : EmittedSoFar s) (c : LinkStatusCall) :
    EmitsDue s c ↔ PublishesChange s c := by
  cases c with
  | eventSub action eventName => exact ⟨fun _ => trivial,fun _ => rfl⟩
  | publish linkStatus =>
    simp only [EmitsDue,PublishesChange,linkStatusCall,publishEWanLinkStatus,dueEvents,
      sendBoolUpdateEvent,h.count,h.status]
    by_cases hactive : 0 < s.active
    · by_cases hchange : linkStatus = s.previous
      · simp [hactive,hchange]
      · simp [hactive,hchange]
    · simp [hactive]

theorem emittedSoFar_start : EmittedSoFar startOfPublication := ⟨rfl,by decide,rfl⟩

/-- In a run, every call emits what it has to exactly if no status is published again
while somebody is subscribed. -/
theorem emission_law_iff {calls : List LinkStatusCall}
    (h : Meets publicationStep Granted startOfPublication calls) :
    Meets publicationStep EmitsDue startOfPublication calls ↔
      Meets publicationStep PublishesChange startOfPublication calls :=
  meets_congr_of_meets emittedSoFar_start (fun _ _ hs hc => hs.step hc)
    (fun _ c hs _ => hs.emitsDue_iff c) h

def subscribed : LinkStatusCall := .eventSub .subscribe ethwanLinkStatusTr181

theorem emission_law_link_up_down :
    Meets publicationStep EmitsDue startOfPublication
        [subscribed,.publish true,.publish false,.eventSub .unsubscribe ethwanLinkStatusTr181] ↔
      Meets publicationStep PublishesChange startOfPublication
        [subscribed,.publish true,.publish false,.eventSub .unsubscribe ethwanLinkStatusTr181] :=
  emission_law_iff (by decide)

/-- A link that goes down again after it was down changes no value, and is announced as
a change. -/
theorem unchanged_status_emitted :
    ¬ ∀ calls : List LinkStatusCall, Meets publicationStep Granted startOfPublication calls →
      Meets publicationStep EmitsDue startOfPublication calls := by
  intro h
  exact absurd (h [subscribed,.publish false] (by decide)) (by decide)

end EthAgent
