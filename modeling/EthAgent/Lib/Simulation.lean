import EthAgent.Lib.Runs

/-!
Forward simulation between two step functions that emit events. When related states give
the same events and related states again, runs from related states have equal logs: the
first step function refines the second.
-/

set_option autoImplicit false

namespace Simulation
open Runs

universe u v w x
variable {σ : Type u} {τ : Type v} {ι : Type w} {ε : Type x}
variable {f : σ → ι → σ × List ε} {g : τ → ι → τ × List ε} {R : σ → τ → Prop}
variable {C : σ → ι → Prop}

/-- The steps of `f` which meet the condition are matched by those of `g`. -/
def Simulates (f : σ → ι → σ × List ε) (g : τ → ι → τ × List ε) (C : σ → ι → Prop)
    (R : σ → τ → Prop) : Prop :=
  ∀ s t a, R s t → C s a → R (f s a).1 (g t a).1 ∧ (f s a).2 = (g t a).2

theorem Simulates.run (h : Simulates f g C R) {s : σ} {t : τ} (h0 : R s t) (log : List ε)
    {as : List ι} (hC : Meets (silent f) C s as) :
    R (exec (logged f) (s,log) as).1 (exec (logged g) (t,log) as).1 ∧
      (exec (logged f) (s,log) as).2 = (exec (logged g) (t,log) as).2 := by
  induction as generalizing s t log with
  | nil => exact ⟨h0,rfl⟩
  | cons a as ih =>
    obtain ⟨hnext,hsame⟩ := h s t a h0 hC.1
    simp only [exec_cons,logged,← hsame]
    exact ih hnext (log ++ (f s a).2) hC.2

end Simulation
