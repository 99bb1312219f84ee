import Mathlib.Data.List.Basic

/-!
A condition variable with the threads that may sleep on it: `wakes p` is where a
thread that sleeps at `p` goes on when it is woken, and nothing if it is not asleep.
-/

set_option autoImplicit false

namespace CondVar

universe u
variable {π : Type u}

def asleep (wakes : π → Option π) (p : π) : Bool := (wakes p).isSome

/-- One of the sleeping threads is woken, if there is any: the `n`-th, or the last. -/
def signal (wakes : π → Option π) : Nat → List π → List π
  | _, [] => []
  | n, p :: ps =>
    match wakes p with
    | none => p :: signal wakes n ps
    | some p' =>
      if n = 0 ∨ ps.countP (asleep wakes) = 0 then p' :: ps else p :: signal wakes (n-1) ps

variable {wakes : π → Option π}

theorem mem_signal {n : Nat} {ps : List π} {p : π} (h : p ∈ signal wakes n ps) :
    p ∈ ps ∨ ∃ q ∈ ps, wakes q = some p := by
  induction ps generalizing n with
  | nil => exact .inl h
  | cons q ps ih =>
    have hlater : ∀ m, p ∈ signal wakes m ps → p ∈ q :: ps ∨ ∃ q' ∈ q :: ps, wakes q' = some p := by
      intro m hm
      rcases ih hm with hold | ⟨q',hq',hwoken⟩
      · exact .inl (List.mem_cons_of_mem q hold)
      · exact .inr ⟨q',List.mem_cons_of_mem q hq',hwoken⟩
    cases hq : wakes q with
    | none =>
      simp only [signal,hq] at h
      rcases List.mem_cons.mp h with rfl | hrest
      · exact .inl List.mem_cons_self
      · exact hlater n hrest
    | some q' =>
      simp only [signal,hq] at h
      split at h
      · rcases List.mem_cons.mp h with rfl | hrest
        · exact .inr ⟨q,List.mem_cons_self,hq⟩
        · exact .inl (List.mem_cons_of_mem q hrest)
      · rcases List.mem_cons.mp h with rfl | hrest
        · exact .inl List.mem_cons_self
        · exact hlater (n-1) hrest

theorem countP_signal (hwoken : ∀ q p, wakes q = some p → wakes p = none) (n : Nat) (ps : List π) :
    (signal wakes n ps).countP (asleep wakes) = ps.countP (asleep wakes) - 1 := by
  induction ps generalizing n with
  | nil => rfl
  | cons q ps ih =>
    cases hq : wakes q with
    | none =>
      have hawake : asleep wakes q = false := by rw [asleep,hq,Option.isSome_none]
      simp only [signal,hq,List.countP_cons,hawake,ih,Bool.false_eq_true,if_false,Nat.add_zero]
    | some q' =>
      have hasleep : asleep wakes q = true := by rw [asleep,hq,Option.isSome_some]
      have hawake : asleep wakes q' = false := by rw [asleep,hwoken q q' hq,Option.isSome_none]
      simp only [signal,hq]
      split_ifs with hn
      · simp [hasleep,hawake]
      · push Not at hn
        have hsome := Nat.pos_of_ne_zero hn.2
        simp only [List.countP_cons,hasleep,ih,if_true]
        omega

/-- What a thread keeps when it is woken, a signal does not change the count of. -/
theorem countP_signal_of_kept {f : π → Bool} (hkept : ∀ q p, wakes q = some p → f p = f q)
    (n : Nat) (ps : List π) : (signal wakes n ps).countP f = ps.countP f := by
  induction ps generalizing n with
  | nil => rfl
  | cons q ps ih =>
    cases hq : wakes q with
    | none => simp only [signal,hq,List.countP_cons,ih]
    | some q' =>
      simp only [signal,hq]
      split
      · simp only [List.countP_cons,hkept q q' hq]
      · simp only [List.countP_cons,ih]

end CondVar
