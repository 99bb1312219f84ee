import Mathlib.Data.Nat.Notation
import Mathlib.Tactic.TypeStar

/-!
Loops without fuel, given by what one round does: it leaves the loop with a value or
goes on in another state. States and values are of any types.
-/

set_option autoImplicit false

namespace Loops

universe u v
variable {σ : Type u} {β : Type v} {round : σ → β ⊕ σ}

inductive Leaves (round : σ → β ⊕ σ) : σ → Nat → β → Prop where
  | left {s : σ} {b : β} (h : round s = .inl b) : Leaves round s 1 b
  | again {s s' : σ} {n : Nat} {b : β} (h : round s = .inr s') (hs : Leaves round s' n b) :
      Leaves round s (n+1) b

/-- A loop is left when a number gets smaller with each round. -/
theorem leaves_of_variant {variant : σ → Nat}
    (hround : ∀ s s', round s = .inr s' → variant s' < variant s) (s : σ) :
    ∃ n b, n ≤ variant s+1 ∧ Leaves round s n b := by
  induction hv : variant s using Nat.strongRecOn generalizing s with
  | ind v ih =>
    cases hr : round s with
    | inl b => exact ⟨1,b,by omega,.left hr⟩
    | inr s' =>
      have hless := hround s s' hr
      obtain ⟨n,b,hn,hleaves⟩ := ih (variant s') (by omega) s' rfl
      exact ⟨n+1,b,by omega,.again hr hleaves⟩

/-- With fuel for its rounds, a function that makes them one by one comes to the same. -/
theorem Leaves.eq_of_fuel {f : Nat → σ → β}
    (hf : ∀ fuel s, f (fuel+1) s = (round s).elim id (f fuel)) {s : σ} {n fuel : Nat} {b : β}
    (h : Leaves round s n b) (hfuel : n ≤ fuel) : f fuel s = b := by
  induction h generalizing fuel with
  | left h =>
    obtain ⟨fuel,rfl⟩ := Nat.exists_eq_add_of_le' hfuel
    rw [hf,h]
    rfl
  | @again s s' n b h _ ih =>
    obtain ⟨fuel,rfl⟩ := Nat.exists_eq_add_of_le' hfuel
    rw [← Nat.add_assoc,hf,h]
    exact ih (Nat.le_add_left n fuel)

end Loops
