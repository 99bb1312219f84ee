import EthAgent.WanNotify

/-!
The boot-inform message to the WAN manager, and the thread that sends it in rounds
until a round is complete or the retries are used up.
-/

set_option autoImplicit false

namespace EthAgent.WanNotify
open CString

/-- What `InitBootInformInfo` reads beside the WAN manager: two values of syscfg,
whether `/nvram/ETHWAN_ENABLE` exists, what `GWP_GetEthWanInterfaceName` gives, and
the `ETHWAN_DEF_INTF_NAME` of the build. -/
structure BootAnswers where
  ethWanEnabled : Option (Buf 64)
  ethwanEnableFile : Bool
  wanPhysicalIfname : Option (Buf 64)
  gwpEthWanInterfaceName : Option (Buf 64)
  ethwanDefIntfName : Buf 64

def BootAnswers.bEthWanEnable (a : BootAnswers) : Bool :=
  (match a.ethWanEnabled with
    | some buf => buf.text = "true".toList
    | none => false) && a.ethwanEnableFile

def BootAnswers.wanName (a : BootAnswers) : Text :=
  match a.wanPhysicalIfname with
  | some outValue => if outValue.text = [] then "erouter0".toList else outValue.text
  | none => "erouter0".toList

def BootAnswers.ethWanName (a : BootAnswers) : Text :=
  match a.gwpEthWanInterfaceName with
  | some ethWanName =>
    if ethWanName.text = [] ∨ ethWanName.text = "disable".toList then a.ethwanDefIntfName.text
    else ethWanName.text
  | none => a.ethwanDefIntfName.text

/-- The parameters of `WAN_BOOTINFORM_MSG`, in the order of `WANBOOTINFORM_MSG`. -/
def bootInformParams (unified : Bool) (iWanInstanceNumber : Nat) (name : Text) :
    List ParameterVal :=
  let entry := wanEntryParam unified iWanInstanceNumber
  [⟨wanInterfaceParamName unified iWanInstanceNumber,name,.ccspString⟩,
    ⟨wanPhyPathParamName unified iWanInstanceNumber,
      "Device.X_RDKCENTRAL-COM_EthernetWAN.".toList,.ccspString⟩,
    ⟨entry "ConfigureWanEnable".toList "ConfigureWanEnable".toList,"true".toList,.ccspBoolean⟩,
    ⟨entry "EnableCustomConfig".toList "EnableCustomConfig".toList,"true".toList,.ccspBoolean⟩,
    ⟨entry "CustomConfigPath".toList "CustomConfigPath".toList,
      "Device.X_CISCO_COM_CableModem.".toList,.ccspString⟩,
    ⟨entry "EnableOperStatusMonitor".toList "EnableOperStatusMonitor".toList,"false".toList,
      .ccspBoolean⟩]

def wanEthInterfaceInstanceNum : Nat := 2

/-- `InitBootInformInfo`; `none` where the lookup of the entry has no defined result. -/
def initBootInformInfo (unified : Bool) (a : BootAnswers) (w : WanBus) :
    Option (List ParameterVal) :=
  (cosaDmlEthGetLowerLayersInstanceInOtherAgent unified w a.ethWanName).map fun iWANInstance =>
    bootInformParams unified (iWANInstance.getD wanEthInterfaceInstanceNum)
      (if a.bEthWanEnable then a.wanName else a.ethWanName)

def bootRound (w : WanBus) : List ParameterVal → List ParameterVal → Bool × List ParameterVal
  | [], sent => (true,sent)
  | param :: msg, sent =>
    let set := cosaDmlEthSetParamValues w sent param
    if set.1 then bootRound w msg set.2 else (false,set.2)

def retryMax : Nat := 60

/-- The loop of `ThreadBootInformMsg` with its variables, `fuel` rounds at most. -/
def bootLoop (w : WanBus) (msg : List ParameterVal) :
    Nat → Nat → Bool → List ParameterVal → Option (List ParameterVal)
  | 0, _, _, _ => none
  | fuel+1, retryCount, retryBootInform, sent =>
    let round := bootRound w msg sent
    let retryBootInform := retryBootInform || !round.1
    if retryBootInform = false then some round.2
    else if retryMax < retryCount then some round.2
    else bootLoop w msg fuel (retryCount+1) retryBootInform round.2

def threadBootInformMsg (unified : Bool) (a : BootAnswers) (w : WanBus) :
    Option (List ParameterVal) :=
  (initBootInformInfo unified a w).bind fun msg => bootLoop w msg (retryMax+2) 0 false []

def rounds (w : WanBus) (msg : List ParameterVal) : Nat → List ParameterVal
  | 0 => []
  | k+1 => (bootRound w msg (rounds w msg k)).2

def Complete (w : WanBus) (msg : List ParameterVal) (k : Nat) : Prop :=
  (bootRound w msg (rounds w msg k)).1 = true

instance (w : WanBus) (msg : List ParameterVal) (k : Nat) : Decidable (Complete w msg k) :=
  inferInstanceAs (Decidable ((bootRound w msg (rounds w msg k)).1 = true))

/-- The thread ends with its first complete round, or with round `N` if none is complete
before. -/
def StopsPromptly (unified : Bool) (a : BootAnswers) (w : WanBus) (msg : List ParameterVal)
    (N : Nat) : Prop :=
  ∃ n, threadBootInformMsg unified a w = some (rounds w msg (n+1)) ∧
    (Complete w msg n ∨ n+1 = N) ∧ ∀ k < n, ¬ Complete w msg k

theorem length_bootRound (w : WanBus) (msg sent : List ParameterVal) :
    sent.length+min msg.length 1 ≤ (bootRound w msg sent).2.length := by
  induction msg generalizing sent with
  | nil => exact Nat.le_refl _
  | cons param msg ih =>
    rw [bootRound,setParamValues_eq]
    have hrest := ih (sent ++ [param])
    rw [List.length_append,List.length_singleton] at hrest
    dsimp only
    split
    · rw [List.length_cons]
      omega
    · simp

/-- Every round sends something, so what was sent tells how many rounds there were. -/
theorem rounds_injective {w : WanBus} {msg : List ParameterVal} (h : msg ≠ []) :
    Function.Injective (rounds w msg) := by
  have hmono : StrictMono fun k => (rounds w msg k).length :=
    strictMono_nat_of_lt_succ fun k => by
      have hsent := length_bootRound w msg (rounds w msg k)
      have hmsg := List.length_pos_of_ne_nil h
      rw [rounds]
      omega
  intro m n hmn
  exact hmono.injective (congrArg List.length hmn)

/-- Once the flag is set, it is the count that ends the loop. -/
theorem bootLoop_retrying (w : WanBus) (msg : List ParameterVal) (fuel retryCount k : Nat)
    (hcount : retryCount ≤ retryMax+1) (hfuel : retryMax+1 < fuel+retryCount) :
    bootLoop w msg fuel retryCount true (rounds w msg k) =
      some (rounds w msg (k+(retryMax+2-retryCount))) := by
  induction fuel generalizing retryCount k with
  | zero => omega
  | succ fuel ih =>
    simp only [bootLoop,Bool.true_or,Bool.true_eq_false,if_false]
    split
    · next hlast =>
      have hone : retryMax+2-retryCount = 1 := by omega
      rw [hone,rounds]
    · next hmore =>
      have hnext := ih (retryCount+1) (k+1) (by omega) (by omega)
      have hleft : k+1+(retryMax+2-(retryCount+1)) = k+(retryMax+2-retryCount) := by omega
      rw [rounds,hleft] at hnext
      exact hnext

theorem threadBootInformMsg_eq {unified : Bool} {a : BootAnswers} {w : WanBus}
    {msg : List ParameterVal} (h : initBootInformInfo unified a w = some msg) :
    threadBootInformMsg unified a w =
      some (rounds w msg (if Complete w msg 0 then 1 else retryMax+2)) := by
  rw [threadBootInformMsg,h,Option.bind_some,bootLoop]
  cases hround : (bootRound w msg []).1 with
  | true =>
    have hcomplete : Complete w msg 0 := hround
    rw [if_pos hcomplete]
    rfl
  | false =>
    have hincomplete : ¬ Complete w msg 0 := by
      rw [Complete,rounds,hround]
      exact Bool.false_ne_true
    have hrest := bootLoop_retrying w msg (retryMax+1) 1 1 (by decide) (by decide)
    have hleft : 1+(retryMax+2-1) = retryMax+2 := rfl
    rw [hleft,rounds,rounds] at hrest
    rw [if_neg hincomplete,← hrest]
    simp

theorem initBootInformInfo_ne_nil {unified : Bool} {a : BootAnswers} {w : WanBus}
    {msg : List ParameterVal} (h : initBootInformInfo unified a w = some msg) : msg ≠ [] := by
  rw [initBootInformInfo,Option.map_eq_some_iff] at h
  obtain ⟨o,-,rfl⟩ := h
  exact List.cons_ne_nil _ _

/-- The thread stops as it should exactly if its first round is complete, or none of
those is that it makes after an incomplete first one, but for the last. -/
theorem stops_promptly_iff {unified : Bool} {a : BootAnswers} {w : WanBus}
    {msg : List ParameterVal} (h : initBootInformInfo unified a w = some msg) :
    StopsPromptly unified a w msg (retryMax+2) ↔
      Complete w msg 0 ∨ ∀ k < retryMax+1, ¬ Complete w msg k := by
  have hinj := rounds_injective (w := w) (initBootInformInfo_ne_nil h)
  rw [StopsPromptly,threadBootInformMsg_eq h]
  constructor
  · rintro ⟨n,hsent,-,hbefore⟩
    by_cases hfirst : Complete w msg 0
    · exact .inl hfirst
    · rw [if_neg hfirst,Option.some_inj] at hsent
      have hn := hinj hsent
      exact .inr fun k hk => hbefore k (by omega)
  · rintro (hfirst | hnone)
    · rw [if_pos hfirst]
      exact ⟨0,rfl,.inl hfirst,fun k hk => absurd hk (Nat.not_lt_zero k)⟩
    · rw [if_neg (hnone 0 (Nat.succ_pos _))]
      exact ⟨retryMax+1,rfl,.inr rfl,hnone⟩

/-- Reads that all fail, and the set of one place refused. -/
def refusesAt (place : Nat) : WanBus where
  int := Scanf.wrappingInt
  get := fun _ => .failed
  set := fun k => ⟨k ≠ place,true⟩

def bootAnswers : BootAnswers := ⟨none,false,none,none,⟨"eth3".toList,by decide⟩⟩

def bootMessage : List ParameterVal := bootInformParams false 2 "eth3".toList

theorem init_refusesAt (place : Nat) :
    initBootInformInfo false bootAnswers (refusesAt place) = some bootMessage := rfl

theorem stops_promptly_never_refused :
    StopsPromptly false bootAnswers (refusesAt 1000) bootMessage (retryMax+2) ↔
      Complete (refusesAt 1000) bootMessage 0 ∨
        ∀ k < retryMax+1, ¬ Complete (refusesAt 1000) bootMessage k :=
  stops_promptly_iff (init_refusesAt 1000)

/-- One refused parameter, and the complete rounds that follow are repeated to the end. -/
theorem complete_round_repeated :
    ¬ ∃ N, ∀ (unified : Bool) (a : BootAnswers) (w : WanBus) (msg : List ParameterVal),
      initBootInformInfo unified a w = some msg → StopsPromptly unified a w msg N := by
  rintro ⟨N,h⟩
  obtain ⟨n,hsent,-,hbefore⟩ := h false bootAnswers (refusesAt 0) bootMessage (init_refusesAt 0)
  have hfirst : ¬ Complete (refusesAt 0) bootMessage 0 := by decide +kernel
  have hsecond : Complete (refusesAt 0) bootMessage 1 := by decide +kernel
  rw [threadBootInformMsg_eq (init_refusesAt 0),if_neg hfirst,Option.some_inj] at hsent
  have hn := rounds_injective (initBootInformInfo_ne_nil (init_refusesAt 0)) hsent
  exact hbefore 1 (by rw [retryMax] at hn; omega) hsecond

end EthAgent.WanNotify
