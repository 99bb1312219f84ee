import Mathlib

/-!
The bits of a word as a list, the highest first, and the words that are a run of ones
before a run of zeros.
-/

set_option autoImplicit false

namespace Bits

variable {w : Nat}

def lowBits (x : BitVec w) : Nat → List Bool
  | 0 => []
  | n+1 => x.getLsbD n :: lowBits x n

@[simp] theorem length_lowBits (x : BitVec w) (n : Nat) : (lowBits x n).length = n := by
  induction n with
  | zero => rfl
  | succ n ih => rw [lowBits,List.length_cons,ih]

theorem lowBits_congr {v : Nat} {x : BitVec w} {y : BitVec v} {n : Nat}
    (h : ∀ i < n, x.getLsbD i = y.getLsbD i) : lowBits x n = lowBits y n := by
  induction n with
  | zero => rfl
  | succ n ih => rw [lowBits,lowBits,h n (Nat.lt_succ_self n),ih fun i hi => h i (by omega)]

/-- The upper of the bits are those of a part cut out of the word. -/
theorem lowBits_add (x : BitVec w) (m n : Nat) :
    lowBits x (m+n) = lowBits (x.extractLsb' n m) m ++ lowBits x n := by
  have hsplit : ∀ k ≤ m, lowBits x (k+n) = lowBits (x.extractLsb' n m) k ++ lowBits x n := by
    intro k
    induction k with
    | zero => intro _; rw [Nat.zero_add]; rfl
    | succ k ih =>
      intro hk
      have hbit : (x.extractLsb' n m).getLsbD k = x.getLsbD (k+n) := by
        rw [BitVec.getLsbD_extractLsb',decide_eq_true (by omega : k < m),Bool.true_and,
          Nat.add_comm]
      rw [Nat.succ_add,lowBits,lowBits,hbit,ih (by omega)]
      rfl
  exact hsplit m (Nat.le_refl m)

theorem lowBits_append {v : Nat} (x : BitVec v) (y : BitVec w) (n : Nat) :
    lowBits (x ++ y) (n+w) = lowBits x n ++ lowBits y w := by
  have hupper : lowBits ((x ++ y).extractLsb' w n) n = lowBits x n := lowBits_congr fun i hi => by
    rw [BitVec.getLsbD_extractLsb',BitVec.getLsbD_append,decide_eq_true hi,Bool.true_and,
      if_neg (by omega),Nat.add_sub_cancel_left]
  have hlower : lowBits (x ++ y) w = lowBits y w := lowBits_congr fun i hi => by
    rw [BitVec.getLsbD_append,if_pos hi]
  rw [lowBits_add,hupper,hlower]

theorem lowBits_succ (x : BitVec w) (n : Nat) :
    lowBits x (n+1) = lowBits (x >>> 1) n ++ [x.getLsbD 0] := by
  induction n with
  | zero => rfl
  | succ n ih =>
    rw [lowBits,ih,lowBits,BitVec.getLsbD_ushiftRight,Nat.add_comm 1 n]
    rfl

theorem dropWhile_lowBits (p : Bool → Bool) (x : BitVec w) (n : Nat) :
    (lowBits x n).dropWhile p = lowBits x ((lowBits x n).dropWhile p).length := by
  induction n with
  | zero => rfl
  | succ n ih =>
    by_cases hp : p (x.getLsbD n) = true
    · rw [lowBits,List.dropWhile_cons_of_pos hp]
      exact ih
    · rw [lowBits,List.dropWhile_cons_of_neg hp,← lowBits,length_lowBits]

theorem twoPow_ne_zero {n : Nat} (hn : n < w) : BitVec.twoPow w n ≠ 0#w := by
  intro hzero
  have hbit := congrArg (fun x => x.getLsbD n) hzero
  simp [hn] at hbit

theorem and_twoPow_eq_zero_iff (x : BitVec w) {n : Nat} (hn : n < w) :
    x &&& BitVec.twoPow w n = 0#w ↔ x.getLsbD n = false := by
  rw [BitVec.and_twoPow]
  cases hbit : x.getLsbD n with
  | true => simpa using twoPow_ne_zero hn
  | false => simp

def OnesThenZeros (l : List Bool) (k : Nat) : Prop :=
  k ≤ l.length ∧ l = List.replicate k true ++ List.replicate (l.length-k) false

theorem onesThenZeros_cons_true (l : List Bool) (k : Nat) :
    OnesThenZeros (true :: l) (k+1) ↔ OnesThenZeros l k := by
  simp [OnesThenZeros,List.replicate_succ]

theorem exists_onesThenZeros_iff (l : List Bool) :
    (∃ k, OnesThenZeros l k) ↔ ∀ b ∈ l.dropWhile id, b = false := by
  induction l with
  | nil => exact ⟨fun _ => by simp,fun _ => ⟨0,Nat.le_refl 0,rfl⟩⟩
  | cons b l ih =>
    cases b with
    | true =>
      rw [List.dropWhile_cons_of_pos rfl,← ih]
      constructor
      · rintro ⟨k,hk⟩
        cases k with
        | zero => exact absurd (List.cons.inj hk.2).1 (by decide)
        | succ k => exact ⟨k,(onesThenZeros_cons_true l k).mp hk⟩
      · rintro ⟨k,hk⟩
        exact ⟨k+1,(onesThenZeros_cons_true l k).mpr hk⟩
    | false =>
      rw [List.dropWhile_cons_of_neg (by simp)]
      constructor
      · rintro ⟨k,-,hk⟩
        cases k with
        | zero =>
          intro b hb
          rw [hk] at hb
          exact List.eq_of_mem_replicate hb
        | succ k => exact absurd (List.cons.inj hk).1 (by decide)
      · intro h
        exact ⟨0,Nat.zero_le _,List.eq_replicate_iff.mpr ⟨rfl,h⟩⟩

theorem OnesThenZeros.count {l : List Bool} {k : Nat} (h : OnesThenZeros l k) :
    l.count true = k := by
  rw [h.2,List.count_append,List.count_replicate_self,List.count_replicate]
  rfl

end Bits
