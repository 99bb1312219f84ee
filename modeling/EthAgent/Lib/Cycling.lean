import Mathlib

/-!
A number that runs through 1 to `m` and begins again. Among any `m` numbers that
follow each other one is unused, if fewer than `m` are used.
-/

set_option autoImplicit false

namespace Cycling

def cycle (m s k : Nat) : Nat := (s-1+k)%m+1

variable {m s : Nat}

theorem cycle_zero (hs : 0 < s) (hm : s ≤ m) : cycle m s 0 = s := by
  rw [cycle,Nat.add_zero,Nat.mod_eq_of_lt (by omega)]
  omega

theorem cycle_pos (m s k : Nat) : 0 < cycle m s k := Nat.succ_pos _

theorem cycle_le (hm : 0 < m) (s k : Nat) : cycle m s k ≤ m := Nat.mod_lt _ hm

theorem cycle_succ (m s k : Nat) :
    cycle m s (k+1) = if cycle m s k = m then 1 else cycle m s k+1 := by
  unfold cycle
  rw [← Nat.add_assoc,Nat.add_mod_eq_ite]
  rcases Nat.lt_or_ge 1 m with hm | hm
  · rw [Nat.mod_eq_of_lt hm]
    have hlt : (s-1+k)%m < m := Nat.mod_lt _ (by omega)
    split <;> split <;> omega
  · obtain rfl | rfl : m = 0 ∨ m = 1 := by omega
    · simp
    · simp [Nat.mod_one]

theorem cycle_injective {i j : Nat} (hi : i < m) (hj : j < m)
    (h : cycle m s i = cycle m s j) : i = j := by
  have hmod : s-1+i ≡ s-1+j [MOD m] := Nat.succ_injective h
  exact Nat.ModEq.eq_of_lt_of_lt (Nat.ModEq.add_left_cancel' (s-1) hmod) hi hj

theorem exists_unused {used : List Nat} (h : used.length < m) (s : Nat) :
    ∃ k, k ≤ used.length ∧ cycle m s k ∉ used := by
  by_contra hnone
  push Not at hnone
  have hnodup : ((List.range (used.length+1)).map (cycle m s)).Nodup := by
    refine List.Nodup.map_on (fun i hi j hj hij => ?_) List.nodup_range
    rw [List.mem_range] at hi hj
    exact cycle_injective (by omega) (by omega) hij
  have hsubset : (List.range (used.length+1)).map (cycle m s) ⊆ used := by
    intro n hn
    obtain ⟨k,hk,rfl⟩ := List.mem_map.mp hn
    exact hnone k (Nat.lt_succ_iff.mp (List.mem_range.mp hk))
  have hlength := (hnodup.subperm hsubset).length_le
  rw [List.length_map,List.length_range] at hlength
  omega

/-- Numbers of their own from 1 to `m`, of which one is not taken, are fewer than `m`. -/
theorem length_lt_of_nodup {l : List Nat} (hnodup : l.Nodup)
    (hl : ∀ a ∈ l, 0 < a ∧ a ≤ m) {b : Nat} (hb : 0 < b ∧ b ≤ m) (hfree : b ∉ l) :
    l.length < m := by
  have hsubset : b :: l ⊆ List.range' 1 m := by
    intro a ha
    have hrange : 0 < a ∧ a ≤ m := by
      rcases List.mem_cons.mp ha with rfl | hmem
      · exact hb
      · exact hl a hmem
    rw [List.mem_range'_1]
    omega
  have hlength := ((List.nodup_cons.mpr ⟨hfree,hnodup⟩).subperm hsubset).length_le
  rwa [List.length_cons,List.length_range'] at hlength

end Cycling
