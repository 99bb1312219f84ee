import EthAgent.Lib.CString
import EthAgent.Lib.Runs

/-!
The three places that keep whether EthWAN is enabled: the HAL, the file
/nvram/ETHWAN_ENABLE and syscfg. Two functions write them one after another; the
commands that these give to the network interfaces touch none of the three.
-/

set_option autoImplicit false

namespace EthAgent
open CString Runs

structure EthWanStores where
  halEnable : Bool
  ethwanEnableFile : Bool
  ethWanEnabled : Option Text
  deriving DecidableEq

/-- Whether `CcspHalExtSw_setEthWanEnable` and `syscfg_set_commit` succeed. What
fails changes nothing. -/
structure ModeAnswers where
  setEthWanEnable : Bool
  syscfgSetCommit : Bool

def boolText (b : Bool) : Text := if b then "true".toList else "false".toList

/-- The part that both functions share, with the status that each returns when the
HAL fails. -/
def storeEthWanMode (halFailure : Bool) (s : EthWanStores) (bEnable : Bool) (a : ModeAnswers) :
    Bool × EthWanStores :=
  if a.setEthWanEnable then
    let s := { s with halEnable := bEnable, ethwanEnableFile := bEnable }
    if a.syscfgSetCommit then (true,{ s with ethWanEnabled := some (boolText bEnable) })
    else (false,s)
  else (halFailure,s)

def ethwanEnableWithoutReboot := storeEthWanMode false

/-- `CosaDmlEthWanSetEnable` of the `ENABLE_ETH_WAN` build; it reports no failure of
the HAL. -/
def cosaDmlEthWanSetEnable := storeEthWanMode true

inductive ModePath where
  | ethwanEnableWithoutReboot
  | cosaDmlEthWanSetEnable
  deriving DecidableEq

structure ModeRequest where
  path : ModePath
  bEnable : Bool
  answers : ModeAnswers

def modeCall (s : EthWanStores) (r : ModeRequest) : Bool × EthWanStores :=
  match r.path with
  | .ethwanEnableWithoutReboot => ethwanEnableWithoutReboot s r.bEnable r.answers
  | .cosaDmlEthWanSetEnable => cosaDmlEthWanSetEnable s r.bEnable r.answers

def modeStep (s : EthWanStores) (r : ModeRequest) : EthWanStores := (modeCall s r).2

def isEthWanEnabled (s : EthWanStores) : Bool := s.halEnable

def bootInformEthWanEnable (s : EthWanStores) : Bool :=
  s.ethWanEnabled = some "true".toList ∧ s.ethwanEnableFile

structure EthWanStores.Agree (s : EthWanStores) (b : Bool) : Prop where
  hal : s.halEnable = b
  file : s.ethwanEnableFile = b
  syscfg : s.ethWanEnabled = some (boolText b)

theorem EthWanStores.Agree.readers {s : EthWanStores} {b : Bool} (h : s.Agree b) :
    isEthWanEnabled s = b ∧ bootInformEthWanEnable s = b := by
  refine ⟨h.hal,?_⟩
  rw [bootInformEthWanEnable,h.file,h.syscfg]
  cases b <;> decide

/-- After success the stores agree on what was requested, after failure they are as
before. -/
def AllOrNothing (s : EthWanStores) (r : ModeRequest) : Prop :=
  ((modeCall s r).1 = true → (modeCall s r).2.Agree r.bEnable) ∧
    ((modeCall s r).1 = false → (modeCall s r).2 = s)

/-- A failure of syscfg finds the HAL and the file as requested already, and one of
the HAL is reported or finds all three as requested. -/
def FailsHarmlessly (s : EthWanStores) (r : ModeRequest) : Prop :=
  (r.answers.setEthWanEnable = true → r.answers.syscfgSetCommit = false →
    s.halEnable = r.bEnable ∧ s.ethwanEnableFile = r.bEnable) ∧
  (r.answers.setEthWanEnable = false → r.path = .cosaDmlEthWanSetEnable → s.Agree r.bEnable)

theorem storeEthWanMode_allOrNothing_iff (halFailure : Bool) (s : EthWanStores)
    (bEnable : Bool) (a : ModeAnswers) :
    let c := storeEthWanMode halFailure s bEnable a
    ((c.1 = true → c.2.Agree bEnable) ∧ (c.1 = false → c.2 = s)) ↔
      (a.setEthWanEnable = true → a.syscfgSetCommit = false →
        s.halEnable = bEnable ∧ s.ethwanEnableFile = bEnable) ∧
      (a.setEthWanEnable = false → halFailure = true → s.Agree bEnable) := by
  obtain ⟨hal,syscfg⟩ := a
  cases hal with
  | false => simp [storeEthWanMode]
  | true =>
    cases syscfg with
    | false =>
      obtain ⟨halEnable,file,value⟩ := s
      simp [storeEthWanMode,eq_comm]
    | true => simpa [storeEthWanMode] using ⟨rfl,rfl,rfl⟩

theorem allOrNothing_iff (s : EthWanStores) (r : ModeRequest) :
    AllOrNothing s r ↔ FailsHarmlessly s r := by
  obtain ⟨path,bEnable,a⟩ := r
  cases path with
  | ethwanEnableWithoutReboot =>
    exact (storeEthWanMode_allOrNothing_iff false s bEnable a).trans (by simp [FailsHarmlessly])
  | cosaDmlEthWanSetEnable =>
    exact (storeEthWanMode_allOrNothing_iff true s bEnable a).trans (by simp [FailsHarmlessly])

/-- In every sequence of requests, from any stores, each call stores all or nothing
exactly when each failure is harmless. -/
theorem all_or_nothing_iff (s : EthWanStores) (requests : List ModeRequest) :
    Meets modeStep AllOrNothing s requests ↔ Meets modeStep FailsHarmlessly s requests :=
  meets_congr (J := fun _ => True) trivial (fun _ _ _ _ => trivial)
    fun s r _ => allOrNothing_iff s r

theorem failed_enable_leaves_hal_enabled :
    ¬ Meets modeStep AllOrNothing ⟨false,false,some "false".toList⟩
      [⟨.ethwanEnableWithoutReboot,true,⟨true,false⟩⟩] := by
  rintro ⟨⟨-,hfailed⟩,-⟩
  exact absurd (hfailed rfl) (by decide)

end EthAgent
