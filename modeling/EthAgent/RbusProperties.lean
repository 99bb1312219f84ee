import EthAgent.EventPublication
import EthAgent.Lib.Scanf
import EthAgent.Lib.Simulation

/-!
The properties of the Ethernet WAN link on rbus: the data elements with their handlers, and
what they are for, three values of which one is kept over restarts. The handlers keep it as
a text of syscfg, which every Get reads again.
-/

set_option autoImplicit false

namespace EthAgent
open CString Runs Scanf Simulation

/-- A value by its rbus type; those of the other types are refused. -/
inductive RbusValue where
  | boolean (b : Bool)
  | uint32 (u : BitVec 32)
  | other
  deriving DecidableEq

/-- What rbus is told, the call of `pEWanLinkDownSignal`, and the events for subscribers. -/
inductive RbusReply where
  | value (v : RbusValue)
  | success
  | busError
  | invalidInput
  | noHandler
  | signal
  | published (event : ValueChanged)
  deriving DecidableEq

def ethwanLinkDownTr181 : Text := "Device.X_RDKCENTRAL-COM_EthernetWAN.LinkDown".toList
def ethwanLinkDownTimeoutTr181 : Text :=
  "Device.X_RDKCENTRAL-COM_EthernetWAN.LinkDownTimeout".toList

/-- `gSubscribersCount` and `ethAgent_Link_Status`, and `EWanLinkDownTimeout` of syscfg. -/
structure RbusAgent where
  events : LinkStatusEvents
  eWanLinkDown : Bool
  eWanLinkDownTimeout : BitVec 32
  pEWanLinkDownSignal : Bool
  syscfg : Option Text

/-- Whether `strdup` and the two calls of syscfg succeed, and what `ParamValue` holds where
`syscfg_get` leaves it alone. -/
structure RbusAnswers where
  strdup : Bool
  syscfgGet : Bool
  syscfgSet : Bool
  paramValue : Text

def getParamName (path : Text) : Text := (path.reverse.takeWhile (· ≠ '.')).reverse

/-- `atoi` of the text that `syscfg_get` gives, in the `uint` it is assigned to. -/
def timeoutOf (c : IntStore) (text : Text) : BitVec 32 :=
  BitVec.ofInt 32 (c.store (atoi (text.take 15)))

def RbusAgent.syscfgGet (s : RbusAgent) (a : RbusAnswers) : Option Text :=
  if a.syscfgGet then s.syscfg else none

def getBoolHandler (s : RbusAgent) (name : Text) : RbusReply :=
  if name = ethwanLinkStatusTr181 then .value (.boolean s.events.eWanLinkStatus)
  else if name = ethwanLinkDownTr181 then .value (.boolean s.eWanLinkDown)
  else .invalidInput

def getuintHandler (c : IntStore) (s : RbusAgent) (name : Text) (a : RbusAnswers) :
    RbusAgent × RbusReply :=
  if name = ethwanLinkDownTimeoutTr181 then
    let timeout := timeoutOf c ((s.syscfgGet a).getD a.paramValue)
    ({ s with eWanLinkDownTimeout := timeout },.value (.uint32 timeout))
  else (s,.invalidInput)

/-- `Rbus_EthAgent_SetParamBoolValue`, and whether it calls the signal function. -/
def rbusSetParamBoolValue (s : RbusAgent) (pParamName : Text) (bValue : Bool) :
    RbusAgent × Bool × List RbusReply :=
  if pParamName = "LinkDown".toList then
    if s.eWanLinkDown ≠ bValue then
      ({ s with eWanLinkDown := bValue },true,if s.pEWanLinkDownSignal then [.signal] else [])
    else (s,false,[])
  else (s,false,[])

/-- `Rbus_EthAgent_SetParamUintValue`; the status of `syscfg_set_u_commit` is not looked at. -/
def rbusSetParamUintValue (s : RbusAgent) (pParamName : Text) (uValue : BitVec 32)
    (syscfgSet : Bool) : RbusAgent × Bool :=
  if pParamName = "LinkDownTimeout".toList then
    if s.eWanLinkDownTimeout ≠ uValue then
      ({ s with
        eWanLinkDownTimeout := uValue
        syscfg := if syscfgSet then some (decimal uValue.toNat) else s.syscfg },true)
    else (s,false)
  else (s,false)

def setBoolHandler (s : RbusAgent) (name : Text) (value : Option RbusValue) (a : RbusAnswers) :
    RbusAgent × List RbusReply :=
  if a.strdup = false then (s,[.busError])
  else
    match value with
    | some (.boolean b) =>
      let set := rbusSetParamBoolValue s (getParamName name) b
      (set.1,set.2.2 ++ [if set.2.1 then .success else .busError])
    | _ => (s,[.busError])

def setuintHandler (s : RbusAgent) (name : Text) (value : Option RbusValue) (a : RbusAnswers) :
    RbusAgent × List RbusReply :=
  if a.strdup = false then (s,[.busError])
  else
    match value with
    | some (.uint32 u) =>
      let set := rbusSetParamUintValue s (getParamName name) u a.syscfgSet
      (set.1,[if set.2 then .success else .busError])
    | _ => (s,[.busError])

inductive RbusHandlers where
  | eventOfBool
  | bool
  | uint
  deriving DecidableEq

/-- `ethAgentRbusDataElements`: an event has no handler for a Set. -/
def ethAgentRbusDataElements : List (Text × RbusHandlers) :=
  [(ethwanLinkStatusTr181,.eventOfBool),(ethwanLinkDownTr181,.bool),
    (ethwanLinkDownTimeoutTr181,.uint)]

def handlersOf (name : Text) : Option RbusHandlers := ethAgentRbusDataElements.lookup name

def rbusGet (c : IntStore) (s : RbusAgent) (name : Text) (a : RbusAnswers) :
    RbusAgent × List RbusReply :=
  match handlersOf name with
  | none => (s,[.noHandler])
  | some .uint => ((getuintHandler c s name a).1,[(getuintHandler c s name a).2])
  | some _ => (s,[getBoolHandler s name])

def rbusSet (s : RbusAgent) (name : Text) (value : Option RbusValue) (a : RbusAnswers) :
    RbusAgent × List RbusReply :=
  match handlersOf name with
  | none => (s,[.noHandler])
  | some .eventOfBool => (s,[.noHandler])
  | some .bool => setBoolHandler s name value a
  | some .uint => setuintHandler s name value a

def startRbus (c : IntStore) (syscfg : Option Text) : RbusAgent where
  events := initLinkStatus
  eWanLinkDown := false
  eWanLinkDownTimeout := syscfg.elim 0 (timeoutOf c)
  pEWanLinkDownSignal := false
  syscfg := syscfg

/-- The requests of rbus, and what the rest of the agent does to these variables: the
callbacks publish the link status, the simulation resets `EWanLinkDown` when its time is
over, `CosaEthernetInitialize` sets the signal function, and the agent starts again. -/
inductive RbusCall where
  | get (name : Text) (a : RbusAnswers)
  | set (name : Text) (value : Option RbusValue) (a : RbusAnswers)
  | eventSub (action : EventSubAction) (eventName : Text)
  | publish (linkStatus : Bool)
  | simulationOver
  | setEWanLinkDownSignalfunc (given : Bool)
  | restart (syscfgGet : Bool)

def rbusStep (c : IntStore) (s : RbusAgent) : RbusCall → RbusAgent × List RbusReply
  | .get name a => rbusGet c s name a
  | .set name value a => rbusSet s name value a
  | .eventSub action eventName =>
    ({ s with events := eventSubHandler s.events action eventName },[.success])
  | .publish linkStatus =>
    ({ s with events := (publishEWanLinkStatus s.events linkStatus).1 },
      (publishEWanLinkStatus s.events linkStatus).2.map .published)
  | .simulationOver => ({ s with eWanLinkDown := false },[])
  | .setEWanLinkDownSignalfunc given => ({ s with pEWanLinkDownSignal := given },[])
  | .restart syscfgGet =>
    ({ startRbus c (if syscfgGet then s.syscfg else none) with syscfg := s.syscfg },[])

structure LinkProperties where
  events : LinkStatusEvents
  linkDown : Bool
  linkDownTimeout : BitVec 32
  signalled : Bool

/-- A property takes a value that is not its own already. -/
def LinkProperties.set (t : LinkProperties) (name : Text) :
    Option RbusValue → LinkProperties × List RbusReply
  | some (.boolean b) =>
    if name = ethwanLinkDownTr181 ∧ b ≠ t.linkDown then
      ({ t with linkDown := b },(if t.signalled then [.signal] else []) ++ [.success])
    else (t,[.busError])
  | some (.uint32 u) =>
    if name = ethwanLinkDownTimeoutTr181 ∧ u ≠ t.linkDownTimeout then
      ({ t with linkDownTimeout := u },[.success])
    else (t,[.busError])
  | _ => (t,[.busError])

/-- The timeout is kept over a restart, and the rest is not. -/
def propertyStep (t : LinkProperties) : RbusCall → LinkProperties × List RbusReply
  | .get name _ =>
    (t,[if name = ethwanLinkStatusTr181 then .value (.boolean t.events.eWanLinkStatus)
      else if name = ethwanLinkDownTr181 then .value (.boolean t.linkDown)
      else if name = ethwanLinkDownTimeoutTr181 then .value (.uint32 t.linkDownTimeout)
      else .noHandler])
  | .set name value a =>
    if name = ethwanLinkDownTr181 ∨ name = ethwanLinkDownTimeoutTr181 then
      if a.strdup then t.set name value else (t,[.busError])
    else (t,[.noHandler])
  | .eventSub action eventName =>
    ({ t with events := eventSubHandler t.events action eventName },[.success])
  | .publish linkStatus =>
    ({ t with events := (publishEWanLinkStatus t.events linkStatus).1 },
      (publishEWanLinkStatus t.events linkStatus).2.map .published)
  | .simulationOver => ({ t with linkDown := false },[])
  | .setEWanLinkDownSignalfunc given => ({ t with signalled := given },[])
  | .restart _ => (⟨initLinkStatus,false,t.linkDownTimeout,false⟩,[])

/-- syscfg answers where it has a timeout, takes a new one, and an `int` can hold it; and
nobody asks for a timeout that was never stored. -/
def TimeoutKept (s : RbusAgent) : RbusCall → Prop
  | .get name a => name = ethwanLinkDownTimeoutTr181 → a.syscfgGet = true ∧ s.syscfg.isSome = true
  | .set name (some (.uint32 u)) a =>
    name = ethwanLinkDownTimeoutTr181 → a.strdup = true → u ≠ s.eWanLinkDownTimeout →
      a.syscfgSet = true ∧ u.toNat < 2^31
  | .restart syscfgGet => s.syscfg.isSome = true → syscfgGet = true
  | _ => True

instance (s : RbusAgent) : DecidablePred (TimeoutKept s)
  | .get _ _ => inferInstanceAs (Decidable (_ → _))
  | .set _ (some (.uint32 _)) _ => inferInstanceAs (Decidable (_ → _))
  | .set _ none _ | .set _ (some (.boolean _)) _ | .set _ (some .other) _ => .isTrue trivial
  | .eventSub _ _ | .publish _ | .simulationOver | .setEWanLinkDownSignalfunc _ =>
    .isTrue trivial
  | .restart _ => inferInstanceAs (Decidable (_ → _))

structure HoldsProperties (c : IntStore) (s : RbusAgent) (t : LinkProperties) : Prop where
  events : s.events = t.events
  linkDown : s.eWanLinkDown = t.linkDown
  timeout : s.eWanLinkDownTimeout = t.linkDownTimeout
  signalled : s.pEWanLinkDownSignal = t.signalled
  stored : s.syscfg.elim 0 (timeoutOf c) = t.linkDownTimeout

section Names

/-- The three names are different, and what follows their last dot are the parameters. -/
theorem ethwanNames :
    (ethwanLinkStatusTr181 ≠ ethwanLinkDownTr181 ∧
      ethwanLinkStatusTr181 ≠ ethwanLinkDownTimeoutTr181 ∧
      ethwanLinkDownTr181 ≠ ethwanLinkDownTimeoutTr181) ∧
    getParamName ethwanLinkDownTr181 = "LinkDown".toList ∧
    getParamName ethwanLinkDownTimeoutTr181 = "LinkDownTimeout".toList := by
  decide +kernel

theorem linkStatus_ne_linkDown : ethwanLinkStatusTr181 ≠ ethwanLinkDownTr181 := ethwanNames.1.1

theorem linkStatus_ne_timeout : ethwanLinkStatusTr181 ≠ ethwanLinkDownTimeoutTr181 :=
  ethwanNames.1.2.1

theorem linkDown_ne_timeout : ethwanLinkDownTr181 ≠ ethwanLinkDownTimeoutTr181 :=
  ethwanNames.1.2.2

theorem getParamName_linkDown : getParamName ethwanLinkDownTr181 = "LinkDown".toList :=
  ethwanNames.2.1

theorem getParamName_linkDownTimeout :
    getParamName ethwanLinkDownTimeoutTr181 = "LinkDownTimeout".toList :=
  ethwanNames.2.2

theorem lookup_names {α : Type} {a b d : Text} (hab : a ≠ b) (had : a ≠ d) (hbd : b ≠ d)
    (x y z : α) :
    [(a,x),(b,y),(d,z)].lookup a = some x ∧ [(a,x),(b,y),(d,z)].lookup b = some y ∧
      [(a,x),(b,y),(d,z)].lookup d = some z := by
  simp [List.lookup_cons,beq_eq_false_iff_ne.mpr hab.symm,beq_eq_false_iff_ne.mpr had.symm,
    beq_eq_false_iff_ne.mpr hbd.symm]

theorem handlersOf_names :
    handlersOf ethwanLinkStatusTr181 = some .eventOfBool ∧
      handlersOf ethwanLinkDownTr181 = some .bool ∧
      handlersOf ethwanLinkDownTimeoutTr181 = some .uint :=
  lookup_names linkStatus_ne_linkDown linkStatus_ne_timeout linkDown_ne_timeout _ _ _

theorem handlersOf_linkStatus : handlersOf ethwanLinkStatusTr181 = some .eventOfBool :=
  handlersOf_names.1

theorem handlersOf_linkDown : handlersOf ethwanLinkDownTr181 = some .bool :=
  handlersOf_names.2.1

theorem handlersOf_linkDownTimeout : handlersOf ethwanLinkDownTimeoutTr181 = some .uint :=
  handlersOf_names.2.2

theorem handlersOf_other {name : Text} (hstatus : name ≠ ethwanLinkStatusTr181)
    (hdown : name ≠ ethwanLinkDownTr181) (htimeout : name ≠ ethwanLinkDownTimeoutTr181) :
    handlersOf name = none := by
  simp [handlersOf,ethAgentRbusDataElements,List.lookup_cons,beq_eq_false_iff_ne.mpr hstatus,
    beq_eq_false_iff_ne.mpr hdown,beq_eq_false_iff_ne.mpr htimeout]

end Names

section Simulates

variable {c : IntStore} {s : RbusAgent} {t : LinkProperties} {name : Text} {a : RbusAnswers}

/-- The text that a Set stores is read back as the value. -/
theorem timeoutOf_decimal (c : IntStore) {u : BitVec 32} (hu : u.toNat < 2^31) :
    timeoutOf c (decimal u.toNat) = u := by
  have hdigits : (decimal u.toNat).length ≤ 10 := length_decimal_le (by decide) (by omega)
  have hread : (decimal u.toNat).take 15 = decimal u.toNat :=
    List.take_of_length_le (by omega)
  have hint : c.store (u.toNat : Int) = u.toNat := c.exact _ (by omega) (by omega)
  rw [timeoutOf,hread,atoi_decimal,hint,BitVec.ofInt_natCast,BitVec.ofNat_toNat,
    BitVec.setWidth_eq]

/-- A Get that finds the stored text gives what the variable held already. -/
theorem HoldsProperties.getuint (h : HoldsProperties c s t) (hget : a.syscfgGet = true)
    (hsome : s.syscfg.isSome = true) :
    timeoutOf c ((s.syscfgGet a).getD a.paramValue) = t.linkDownTimeout := by
  obtain ⟨text,htext⟩ := Option.isSome_iff_exists.mp hsome
  have hstored := h.stored
  rw [htext,Option.elim_some] at hstored
  rw [RbusAgent.syscfgGet,if_pos hget,htext,Option.getD_some,hstored]

theorem HoldsProperties.get (h : HoldsProperties c s t) (hkept : TimeoutKept s (.get name a)) :
    HoldsProperties c (rbusGet c s name a).1 (propertyStep t (.get name a)).1 ∧
      (rbusGet c s name a).2 = (propertyStep t (.get name a)).2 := by
  unfold rbusGet
  by_cases hstatus : name = ethwanLinkStatusTr181
  · rw [hstatus,handlersOf_linkStatus]
    exact ⟨h,by simp [propertyStep,getBoolHandler,h.events]⟩
  · by_cases hdown : name = ethwanLinkDownTr181
    · rw [hdown,handlersOf_linkDown]
      exact ⟨h,by simp [propertyStep,getBoolHandler,linkStatus_ne_linkDown.symm,h.linkDown]⟩
    · by_cases htimeout : name = ethwanLinkDownTimeoutTr181
      · obtain ⟨hget,hsome⟩ := hkept htimeout
        have hvalue := h.getuint hget hsome
        rw [htimeout,handlersOf_linkDownTimeout]
        simp only [getuintHandler,if_true,hvalue]
        refine ⟨⟨h.events,h.linkDown,rfl,h.signalled,h.stored⟩,?_⟩
        simp [propertyStep,linkStatus_ne_timeout.symm,linkDown_ne_timeout.symm]
      · rw [handlersOf_other hstatus hdown htimeout]
        exact ⟨h,by simp [propertyStep,hstatus,hdown,htimeout]⟩

theorem HoldsProperties.setBool (h : HoldsProperties c s t) (value : Option RbusValue) :
    HoldsProperties c (setBoolHandler s ethwanLinkDownTr181 value a).1
        (propertyStep t (.set ethwanLinkDownTr181 value a)).1 ∧
      (setBoolHandler s ethwanLinkDownTr181 value a).2 =
        (propertyStep t (.set ethwanLinkDownTr181 value a)).2 := by
  simp only [setBoolHandler,propertyStep,true_or,if_true]
  cases hdup : a.strdup with
  | false => exact ⟨h,rfl⟩
  | true =>
    match value with
    | none => exact ⟨h,rfl⟩
    | some .other => exact ⟨h,rfl⟩
    | some (.uint32 u) => simpa [LinkProperties.set,linkDown_ne_timeout] using h
    | some (.boolean b) =>
      simp only [rbusSetParamBoolValue,getParamName_linkDown,if_true,LinkProperties.set,true_and,
        h.linkDown]
      by_cases hsame : t.linkDown = b
      · simpa [hsame] using h
      · have hne : b ≠ t.linkDown := Ne.symm hsame
        simp only [if_pos hsame,if_pos hne,h.signalled,Bool.true_eq_false,if_false,if_true]
        exact ⟨⟨h.events,rfl,h.timeout,rfl,h.stored⟩,trivial⟩

theorem HoldsProperties.setuint (h : HoldsProperties c s t) (value : Option RbusValue)
    (hkept : TimeoutKept s (.set ethwanLinkDownTimeoutTr181 value a)) :
    HoldsProperties c (setuintHandler s ethwanLinkDownTimeoutTr181 value a).1
        (propertyStep t (.set ethwanLinkDownTimeoutTr181 value a)).1 ∧
      (setuintHandler s ethwanLinkDownTimeoutTr181 value a).2 =
        (propertyStep t (.set ethwanLinkDownTimeoutTr181 value a)).2 := by
  simp only [setuintHandler,propertyStep,or_true,if_true]
  cases hdup : a.strdup with
  | false => exact ⟨h,rfl⟩
  | true =>
    match value with
    | none => exact ⟨h,rfl⟩
    | some .other => exact ⟨h,rfl⟩
    | some (.boolean b) => simpa [LinkProperties.set,linkDown_ne_timeout.symm] using h
    | some (.uint32 u) =>
      simp only [rbusSetParamUintValue,getParamName_linkDownTimeout,if_true,LinkProperties.set,
        true_and]
      by_cases hsame : s.eWanLinkDownTimeout = u
      · have hsame' : ¬ u ≠ t.linkDownTimeout := not_not.mpr (hsame.symm.trans h.timeout)
        simp only [if_neg (not_not.mpr hsame),if_neg hsame']
        exact ⟨h,rfl⟩
      · have hne : u ≠ t.linkDownTimeout := fun heq => hsame (h.timeout.trans heq.symm)
        obtain ⟨hset,hu⟩ := hkept rfl hdup (Ne.symm hsame)
        simp only [if_pos hsame,if_pos hne,hset,if_true]
        exact ⟨⟨h.events,h.linkDown,rfl,h.signalled,timeoutOf_decimal c hu⟩,rfl⟩

theorem HoldsProperties.set (h : HoldsProperties c s t) {value : Option RbusValue}
    (hkept : TimeoutKept s (.set name value a)) :
    HoldsProperties c (rbusSet s name value a).1 (propertyStep t (.set name value a)).1 ∧
      (rbusSet s name value a).2 = (propertyStep t (.set name value a)).2 := by
  unfold rbusSet
  by_cases hdown : name = ethwanLinkDownTr181
  · rw [hdown,handlersOf_linkDown]
    exact h.setBool value
  · by_cases htimeout : name = ethwanLinkDownTimeoutTr181
    · rw [htimeout] at hkept ⊢
      rw [handlersOf_linkDownTimeout]
      exact h.setuint value hkept
    · have hspec : propertyStep t (.set name value a) = (t,[.noHandler]) := by
        simp [propertyStep,hdown,htimeout]
      rw [hspec]
      by_cases hstatus : name = ethwanLinkStatusTr181
      · rw [hstatus,handlersOf_linkStatus]
        exact ⟨h,rfl⟩
      · rw [handlersOf_other hstatus hdown htimeout]
        exact ⟨h,rfl⟩

theorem holdsProperties_restart (h : HoldsProperties c s t) {syscfgGet : Bool}
    (hkept : TimeoutKept s (.restart syscfgGet)) :
    HoldsProperties c (rbusStep c s (.restart syscfgGet)).1
      (propertyStep t (.restart syscfgGet)).1 := by
  have hfound : (if syscfgGet then s.syscfg else none) = s.syscfg := by
    cases hsome : s.syscfg with
    | none => exact ite_self none
    | some text => rw [if_pos (hkept (by rw [hsome]; rfl))]
  simp only [rbusStep,hfound]
  exact ⟨rfl,rfl,h.stored,rfl,h.stored⟩

theorem rbus_simulates_properties (c : IntStore) :
    Simulates (rbusStep c) propertyStep TimeoutKept (HoldsProperties c) := by
  intro s t call h hkept
  cases call with
  | get name a => exact h.get hkept
  | set name value a => exact h.set hkept
  | eventSub action eventName =>
    simp only [rbusStep,propertyStep,h.events]
    exact ⟨⟨rfl,h.linkDown,h.timeout,h.signalled,h.stored⟩,trivial⟩
  | publish linkStatus =>
    simp only [rbusStep,propertyStep,h.events]
    exact ⟨⟨rfl,h.linkDown,h.timeout,h.signalled,h.stored⟩,trivial⟩
  | simulationOver => exact ⟨⟨h.events,rfl,h.timeout,h.signalled,h.stored⟩,rfl⟩
  | setEWanLinkDownSignalfunc given => exact ⟨⟨h.events,h.linkDown,h.timeout,rfl,h.stored⟩,rfl⟩
  | restart syscfgGet => exact ⟨holdsProperties_restart h hkept,rfl⟩

end Simulates

/-- In every run of requests and restarts that keeps the timeout, rbus gets the answers and
events of three properties of which the timeout is kept over the restarts. -/
theorem rbus_refines_properties (c : IntStore) (syscfg : Option Text) (calls : List RbusCall)
    (h : Meets (silent (rbusStep c)) TimeoutKept (startRbus c syscfg) calls) :
    (exec (logged (rbusStep c)) (startRbus c syscfg,[]) calls).2 =
      (exec (logged propertyStep)
        (⟨initLinkStatus,false,syscfg.elim 0 (timeoutOf c),false⟩,[]) calls).2 :=
  ((rbus_simulates_properties c).run ⟨rfl,rfl,rfl,rfl,rfl⟩ [] h).2

def rbusAnswers : RbusAnswers := ⟨true,true,true,[]⟩

def timeoutCalls : List RbusCall :=
  [.set ethwanLinkDownTimeoutTr181 (some (.uint32 600)) rbusAnswers,.restart true,
    .get ethwanLinkDownTimeoutTr181 rbusAnswers]

theorem rbus_refines_properties_restart :
    (exec (logged (rbusStep wrappingInt)) (startRbus wrappingInt none,[]) timeoutCalls).2 =
      (exec (logged propertyStep) (⟨initLinkStatus,false,0,false⟩,[]) timeoutCalls).2 := by
  refine rbus_refines_properties wrappingInt none timeoutCalls
    ⟨fun _ _ _ => ⟨rfl,by decide⟩,fun _ => rfl,fun _ => ⟨rfl,?_⟩,trivial⟩
  simp [silent,rbusStep,rbusSet,handlersOf_linkDownTimeout,setuintHandler,rbusAnswers,
    rbusSetParamUintValue,getParamName_linkDownTimeout,startRbus]

end EthAgent
