import EthAgent.Lib.CString
import EthAgent.Lib.Runs
import EthAgent.Lib.Wrapping

/-!
`Ethernet_Logger_Thread`, which sleeps a minute at a time until the log period has
passed, and `EthLogging_SetParamUlongValue`, which changes that period meanwhile. The
width of `LONG` and `ULONG` is `w`.
-/

set_option autoImplicit false

namespace EthAgent
open CString Runs Wrapping

variable {w : Nat}

/-- One request to `EthLogging_SetParamUlongValue`, and whether `syscfg_set_u_commit`
takes the value. -/
structure PeriodRequest (w : Nat) where
  paramName : Text
  uValue : BitVec w
  committed : Bool

def ethLoggingSetParamUlongValue (logPeriod : BitVec w) (r : PeriodRequest w) :
    Bool × BitVec w :=
  if r.paramName = "xOpsDMEthLogPeriod".toList then
    (true,if r.committed then r.uValue else logPeriod)
  else (false,logPeriod)

def periodAfter (logPeriod : BitVec w) (requests : List (PeriodRequest w)) : BitVec w :=
  requests.foldl (fun p r => (ethLoggingSetParamUlongValue p r).2) logPeriod

/-- `LogStatus.Log_Period` and `timeleft`, with the number of naps since the thread read
the period. -/
structure LoggerThread (w : Nat) where
  logPeriod : BitVec w
  timeleft : BitVec w
  naps : Nat
  deriving DecidableEq

/-- Before the first round of the outer loop, which nothing is left of to wait for. -/
def loggerStart (logPeriod : BitVec w) : LoggerThread w := ⟨logPeriod,0,0⟩

/-- The body of the inner loop, `requests` being served during `sleep(60)`. -/
def loggerNap (s : LoggerThread w) (requests : List (PeriodRequest w)) : LoggerThread w :=
  let logPeriodOld := s.logPeriod
  let logPeriod := periodAfter s.logPeriod requests
  ⟨logPeriod,s.timeleft-BitVec.ofNat w 60+logPeriod-logPeriodOld,s.naps+1⟩

/-- The start of a round of the outer loop, after `Ethernet_Log`. -/
def loggerRound (s : LoggerThread w) : LoggerThread w := ⟨s.logPeriod,s.logPeriod,0⟩

def loggerStep (s : LoggerThread w) (requests : List (PeriodRequest w)) : LoggerThread w :=
  if 0 < s.timeleft.toInt then loggerNap s requests else loggerRound s

/-- What is left is the period less the time slept, in a round that sleeps, and it is
used up when the period has elapsed. -/
structure OnTime (s : LoggerThread w) : Prop where
  exact : s.timeleft.toInt = s.logPeriod.toNat-60*s.naps
  sleeps : s.naps = 0 → 0 < s.timeleft.toInt
  elapses : s.timeleft.toInt ≤ 0 ↔ s.logPeriod.toNat ≤ 60*s.naps

def StepsOnTime (s : LoggerThread w) (requests : List (PeriodRequest w)) : Prop :=
  OnTime (loggerStep s requests)

/-- A round starts with a period that is positive as a `LONG`, and after every nap of it
a `LONG` holds the period less the time slept. -/
def KeepsRange (s : LoggerThread w) (requests : List (PeriodRequest w)) : Prop :=
  if 0 < s.timeleft.toInt then
    FitsSigned w ((periodAfter s.logPeriod requests).toNat-60*(s.naps+1 : Nat))
  else 0 < s.logPeriod.toNat ∧ FitsSigned w s.logPeriod.toNat

/-- In the middle of a round the rest is exact. -/
def Waiting (s : LoggerThread w) : Prop :=
  0 < s.timeleft.toInt → s.timeleft.toInt = s.logPeriod.toNat-60*s.naps

theorem OnTime.of_exact {s : LoggerThread w}
    (h : s.timeleft.toInt = s.logPeriod.toNat-60*s.naps)
    (hsleeps : s.naps = 0 → 0 < s.timeleft.toInt) : OnTime s :=
  ⟨h,hsleeps,by rw [h]; omega⟩

theorem loggerNap_toInt {s : LoggerThread w}
    (h : s.timeleft.toInt = s.logPeriod.toNat-60*s.naps) (requests : List (PeriodRequest w)) :
    (loggerNap s requests).timeleft.toInt =
      ((periodAfter s.logPeriod requests).toNat-60*(s.naps+1 : Nat) : Int).bmod (2^w) := by
  rw [loggerNap,toInt_sub_add_sub,h]
  congr 1
  push_cast
  omega

theorem loggerNap_onTime_iff {s : LoggerThread w}
    (h : s.timeleft.toInt = s.logPeriod.toNat-60*s.naps) (requests : List (PeriodRequest w)) :
    OnTime (loggerNap s requests) ↔
      FitsSigned w ((periodAfter s.logPeriod requests).toNat-60*(s.naps+1 : Nat)) := by
  rw [← bmod_eq_self_iff,← loggerNap_toInt h]
  constructor
  · intro hexact
    exact hexact.exact
  · intro hexact
    refine OnTime.of_exact hexact fun hnone => ?_
    exact absurd hnone (Nat.succ_ne_zero s.naps)

theorem loggerRound_onTime_iff (s : LoggerThread w) :
    OnTime (loggerRound s) ↔ 0 < s.logPeriod.toNat ∧ FitsSigned w s.logPeriod.toNat := by
  rw [← toInt_eq_toNat_iff]
  constructor
  · rintro ⟨hexact,hsleeps,-⟩
    simp only [loggerRound] at hexact hsleeps
    have hpos := hsleeps trivial
    omega
  · rintro ⟨hpos,hexact⟩
    refine OnTime.of_exact ?_ fun _ => ?_
    · simp only [loggerRound]
      omega
    · simp only [loggerRound]
      omega

theorem stepsOnTime_iff {s : LoggerThread w} (h : Waiting s)
    (requests : List (PeriodRequest w)) : StepsOnTime s requests ↔ KeepsRange s requests := by
  unfold StepsOnTime KeepsRange loggerStep
  split
  · next hleft => exact loggerNap_onTime_iff (h hleft) requests
  · exact loggerRound_onTime_iff s

theorem waiting_start (logPeriod : BitVec w) : Waiting (loggerStart logPeriod) := by
  intro h
  simp [loggerStart] at h

/-- Along a run the thread sleeps in every round, and for as long as the period in force
asks, exactly as long as no round starts and no nap ends outside the range of `LONG`. -/
theorem logger_on_time_iff (logPeriod : BitVec w) (naps : List (List (PeriodRequest w))) :
    Meets loggerStep StepsOnTime (loggerStart logPeriod) naps ↔
      Meets loggerStep KeepsRange (loggerStart logPeriod) naps :=
  meets_congr (J := Waiting) (waiting_start logPeriod) (fun _ _ _ h _ => h.exact)
    (fun _ requests h => stepsOnTime_iff h requests)

def setPeriod (uValue : BitVec w) : PeriodRequest w :=
  ⟨"xOpsDMEthLogPeriod".toList,uValue,true⟩

/-- The period is set to zero while the thread sleeps: the next round does not sleep. -/
theorem logger_busy :
    ¬ ∀ (w : Nat) (logPeriod : BitVec w) (naps : List (List (PeriodRequest w))),
      Meets loggerStep StepsOnTime (loggerStart logPeriod) naps := by
  intro h
  have hrun := ((h 64 3600#64 [[],[setPeriod 0#64],[]]).2.2.1).sleeps rfl
  revert hrun
  decide +kernel

end EthAgent
