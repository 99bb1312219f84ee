import EthAgent.Lib.Runs

/-!
Runs that come to rest. A rank which gets smaller with every step, and which is zero only
where no step changes anything, bounds the number of steps that a run needs.
-/

set_option autoImplicit false

namespace Settling
open Runs

universe u v w
variable {σ : Type u} {ι : Type v} {ε : Type w}

/-- No step changes the state or emits an event. -/
def Still (step : σ → ι → σ × List ε) (s : σ) : Prop := ∀ a, step s a = (s,[])

variable {step : σ → ι → σ × List ε} {rank : σ → Nat}

theorem rank_exec (hstill : ∀ s, rank s = 0 → Still step s)
    (hless : ∀ s a, rank s ≠ 0 → rank (step s a).1 < rank s) (s : σ) (as : List ι)
    (h : rank s ≤ as.length) : rank (exec (silent step) s as) = 0 := by
  induction as generalizing s with
  | nil => exact Nat.le_zero.mp h
  | cons a as ih =>
    rw [exec_cons]
    by_cases hs : rank s = 0
    · have hsame : silent step s a = s := congrArg Prod.fst (hstill s hs a)
      exact ih _ (by rw [hsame,hs]; exact Nat.zero_le _)
    · have hnext := hless s a hs
      rw [List.length_cons] at h
      exact ih _ (by rw [silent]; omega)

theorem Still.exec {s : σ} (h : Still step s) (log : List ε) (as : List ι) :
    exec (logged step) (s,log) as = (s,log) := by
  induction as with
  | nil => rfl
  | cons a as ih =>
    have hsame : logged step (s,log) a = (s,log) := by
      simp only [logged,h a,List.append_nil]
    rw [exec_cons,hsame,ih]

end Settling
