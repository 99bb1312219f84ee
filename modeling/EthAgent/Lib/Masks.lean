import EthAgent.Lib.Bits

/-!
The words that agree with a given one wherever a mask has a one: the least and the
greatest of them, how many there are, and the masks for which they are all the words
between these two.
-/

set_option autoImplicit false

namespace Masks
open Bits

variable {w : Nat}

def coset (mask net : BitVec w) : Set (BitVec w) := {x | x &&& mask = net &&& mask}

def numbers (mask net : BitVec w) : Set Nat := BitVec.toNat '' coset mask net

/-- Above a one there are ones only. -/
def Upward (mask : BitVec w) (n : Nat) : Prop :=
  ∀ i j, i < j → j < n → mask.getLsbD i = true → mask.getLsbD j = true

theorem mem_coset_iff {mask net x : BitVec w} :
    x ∈ coset mask net ↔ ∀ i < w, mask.getLsbD i = true → x.getLsbD i = net.getLsbD i := by
  constructor
  · intro h i hi hone
    have hbit := congrArg (fun y => y.getLsbD i) h
    simpa [hone] using hbit
  · intro h
    refine BitVec.eq_of_getLsbD_eq fun i hi => ?_
    rw [BitVec.getLsbD_and,BitVec.getLsbD_and]
    cases hone : mask.getLsbD i with
    | false => rw [Bool.and_false,Bool.and_false]
    | true => rw [h i hi hone]

theorem mem_numbers_iff {mask net x : BitVec w} :
    x.toNat ∈ numbers mask net ↔ x ∈ coset mask net := by
  constructor
  · rintro ⟨y,hy,heq⟩
    rwa [← BitVec.eq_of_toNat_eq heq]
  · exact fun h => ⟨x,h,rfl⟩

theorem and_mem_coset (mask net : BitVec w) : net &&& mask ∈ coset mask net := by
  refine mem_coset_iff.mpr fun i _ hone => ?_
  rw [BitVec.getLsbD_and,hone,Bool.and_true]

theorem isLeast_numbers (mask net : BitVec w) :
    IsLeast (numbers mask net) (net &&& mask).toNat := by
  refine ⟨mem_numbers_iff.mpr (and_mem_coset mask net),?_⟩
  intro n hn
  obtain ⟨x,hx,rfl⟩ := hn
  rw [← show x &&& mask = net &&& mask from hx,BitVec.toNat_and]
  exact Nat.and_le_left

theorem or_not_mem_coset (mask net : BitVec w) : net ||| ~~~mask ∈ coset mask net := by
  refine mem_coset_iff.mpr fun i hi hone => ?_
  simp [hone,hi]

theorem isGreatest_numbers (mask net : BitVec w) :
    IsGreatest (numbers mask net) (net ||| ~~~mask).toNat := by
  refine ⟨mem_numbers_iff.mpr (or_not_mem_coset mask net),?_⟩
  intro n hn
  obtain ⟨x,hx,rfl⟩ := hn
  have hor : (net ||| ~~~mask) = x ||| (net ||| ~~~mask) := by
    refine BitVec.eq_of_getLsbD_eq fun i hi => ?_
    simp only [BitVec.getLsbD_or,BitVec.getLsbD_not,decide_eq_true hi,Bool.true_and]
    cases hone : mask.getLsbD i with
    | false => simp
    | true => simp [mem_coset_iff.mp hx i hi hone]
  rw [hor,BitVec.toNat_or]
  exact Nat.left_le_or

/-- A word is known by its bits in the mask and those outside. -/
theorem eq_merge_iff {mask a b x : BitVec w} :
    x = a &&& mask ||| b &&& ~~~mask ↔ x &&& mask = a &&& mask ∧ x &&& ~~~mask = b &&& ~~~mask := by
  have hbits : ∀ y z : BitVec w, y = z ↔ ∀ i < w, y.getLsbD i = z.getLsbD i := fun y z =>
    ⟨fun h i _ => h ▸ rfl,BitVec.eq_of_getLsbD_eq⟩
  rw [hbits,hbits,hbits,← forall₂_and]
  refine forall₂_congr fun i hi => ?_
  simp only [BitVec.getLsbD_or,BitVec.getLsbD_and,BitVec.getLsbD_not,decide_eq_true hi,
    Bool.true_and]
  cases mask.getLsbD i <;> simp

theorem isLeast_numbers_iff {mask net x : BitVec w} :
    IsLeast (numbers mask net) x.toNat ↔ x &&& mask = net &&& mask ∧ x &&& ~~~mask = 0 := by
  have hmerge : net &&& mask = net &&& mask ||| 0 &&& ~~~mask := by simp
  have hzero : (0 : BitVec w) = 0 &&& ~~~mask := by simp
  rw [hzero,← eq_merge_iff,← hmerge]
  exact ⟨fun h => BitVec.eq_of_toNat_eq (h.unique (isLeast_numbers mask net)),
    fun h => h ▸ isLeast_numbers mask net⟩

theorem isGreatest_numbers_iff {mask net x : BitVec w} :
    IsGreatest (numbers mask net) x.toNat ↔
      x &&& mask = net &&& mask ∧ x &&& ~~~mask = BitVec.allOnes w &&& ~~~mask := by
  have hmerge : net ||| ~~~mask = net &&& mask ||| BitVec.allOnes w &&& ~~~mask := by
    refine BitVec.eq_of_getLsbD_eq fun i hi => ?_
    simp only [BitVec.getLsbD_or,BitVec.getLsbD_and,BitVec.getLsbD_not,BitVec.getLsbD_allOnes,
      decide_eq_true hi,Bool.true_and]
    cases mask.getLsbD i <;> simp
  rw [← eq_merge_iff,← hmerge]
  exact ⟨fun h => BitVec.eq_of_toNat_eq (h.unique (isGreatest_numbers mask net)),
    fun h => h ▸ isGreatest_numbers mask net⟩

theorem toNat_div_two_pow_eq_iff {x y : BitVec w} {j : Nat} :
    x.toNat / 2^j = y.toNat / 2^j ↔ ∀ i < w, j ≤ i → x.getLsbD i = y.getLsbD i := by
  rw [← Nat.shiftRight_eq_div_pow,← Nat.shiftRight_eq_div_pow,← BitVec.toNat_ushiftRight,
    ← BitVec.toNat_ushiftRight]
  constructor
  · intro h i _ hji
    have hbit := congrArg (fun z => z.getLsbD (i-j)) (BitVec.eq_of_toNat_eq h)
    simp only [BitVec.getLsbD_ushiftRight] at hbit
    rwa [Nat.add_sub_cancel' hji] at hbit
  · intro h
    refine congrArg BitVec.toNat (BitVec.eq_of_getLsbD_eq fun i _ => ?_)
    rw [BitVec.getLsbD_ushiftRight,BitVec.getLsbD_ushiftRight]
    by_cases hlt : j+i < w
    · exact h (j+i) hlt (Nat.le_add_right j i)
    · rw [BitVec.getLsbD_of_ge _ _ (by omega),BitVec.getLsbD_of_ge _ _ (by omega)]

/-- The words of a mask of upper bits are those with the same upper part. -/
theorem mem_coset_upper_iff {mask net x : BitVec w} {j : Nat}
    (h : ∀ i < w, mask.getLsbD i = true ↔ j ≤ i) :
    x ∈ coset mask net ↔ x.toNat / 2^j = net.toNat / 2^j := by
  rw [mem_coset_iff,toNat_div_two_pow_eq_iff]
  exact forall₂_congr fun i hi => by rw [h i hi]

theorem ordConnected_of_upward {mask : BitVec w} (h : Upward mask w) (net : BitVec w) :
    (numbers mask net).OrdConnected := by
  obtain ⟨j,hj⟩ : ∃ j, ∀ i < w, mask.getLsbD i = true ↔ j ≤ i := by
    by_cases hzero : ∀ i < w, mask.getLsbD i = false
    · refine ⟨w,fun i hi => ?_⟩
      rw [hzero i hi]
      exact ⟨fun h => absurd h Bool.false_ne_true,fun hle => absurd hi (Nat.not_lt.mpr hle)⟩
    · push Not at hzero
      have hexists : ∃ i, i < w ∧ mask.getLsbD i = true := by
        obtain ⟨i,hi,hone⟩ := hzero
        exact ⟨i,hi,by simpa using hone⟩
      classical
      refine ⟨Nat.find hexists,fun i hi => ⟨fun hone => Nat.find_min' hexists ⟨hi,hone⟩,?_⟩⟩
      intro hle
      obtain ⟨-,hone⟩ := Nat.find_spec hexists
      rcases Nat.eq_or_lt_of_le hle with heq | hlt
      · rwa [← heq]
      · exact h _ i hlt hi hone
  constructor
  intro a ha b hb n hn
  obtain ⟨x,hx,rfl⟩ := ha
  obtain ⟨z,hz,rfl⟩ := hb
  have hn' : n = (BitVec.ofNat w n).toNat := by
    rw [BitVec.toNat_ofNat,Nat.mod_eq_of_lt (lt_of_le_of_lt hn.2 z.isLt)]
  rw [hn',mem_numbers_iff,mem_coset_upper_iff hj,← hn']
  rw [mem_coset_upper_iff hj] at hx hz
  refine Nat.le_antisymm ?_ ?_
  · exact (Nat.div_le_div_right hn.2).trans_eq hz
  · exact hx.symm.trans_le (Nat.div_le_div_right hn.1)

theorem upward_of_ordConnected {mask : BitVec w} (h : (numbers mask 0).OrdConnected) :
    Upward mask w := by
  intro i j hij hj hone
  by_contra hzero
  rw [Bool.not_eq_true] at hzero
  have hlow : (0 : BitVec w).toNat ∈ numbers mask 0 := mem_numbers_iff.mpr rfl
  have hhigh : (BitVec.twoPow w j).toNat ∈ numbers mask 0 := by
    rw [mem_numbers_iff,coset,Set.mem_ofPred_eq,BitVec.and_comm,
      (and_twoPow_eq_zero_iff mask hj).mpr hzero]
    simp
  have hbetween : (BitVec.twoPow w i).toNat ∈ numbers mask 0 := by
    refine h.out hlow hhigh ⟨Nat.zero_le _,?_⟩
    rw [BitVec.toNat_twoPow_of_lt (by omega),BitVec.toNat_twoPow_of_lt hj]
    exact Nat.pow_le_pow_right (by decide) (by omega)
  rw [mem_numbers_iff,mem_coset_iff] at hbetween
  have hbit := hbetween i (by omega) hone
  simp [show i < w by omega] at hbit

/-- The words are always an interval exactly if the mask is ones, and zeros after them. -/
theorem forall_ordConnected_iff {mask : BitVec w} :
    (∀ net, (numbers mask net).OrdConnected) ↔ Upward mask w :=
  ⟨fun h => upward_of_ordConnected (h 0),ordConnected_of_upward⟩

theorem mem_lowBits_iff {x : BitVec w} {n : Nat} {b : Bool} :
    b ∈ lowBits x n ↔ ∃ i < n, x.getLsbD i = b := by
  induction n with
  | zero => simp [lowBits]
  | succ n ih =>
    rw [lowBits,List.mem_cons,ih,Nat.exists_lt_succ_right,or_comm]
    simp [eq_comm]

theorem exists_onesThenZeros_lowBits_iff (mask : BitVec w) (n : Nat) :
    (∃ k, OnesThenZeros (lowBits mask n) k) ↔ Upward mask n := by
  rw [exists_onesThenZeros_iff]
  induction n with
  | zero => simp [lowBits,Upward]
  | succ n ih =>
    rw [lowBits]
    cases hbit : mask.getLsbD n with
    | true =>
      rw [List.dropWhile_cons_of_pos rfl,ih]
      constructor
      · intro h i j hij hj hone
        rcases Nat.lt_succ_iff_lt_or_eq.mp hj with hlt | rfl
        · exact h i j hij hlt hone
        · exact hbit
      · exact fun h i j hij hj hone => h i j hij (by omega) hone
    | false =>
      rw [List.dropWhile_cons_of_neg (by simp),List.forall_mem_cons]
      constructor
      · intro h i j hij hj hone
        have hzero := h.2 _ (mem_lowBits_iff.mpr ⟨i,by omega,rfl⟩)
        exact absurd (hzero.symm.trans hone) Bool.false_ne_true
      · refine fun h => ⟨rfl,fun b hb => ?_⟩
        obtain ⟨i,hi,rfl⟩ := mem_lowBits_iff.mp hb
        by_contra hone
        rw [Bool.not_eq_false] at hone
        exact Bool.false_ne_true (hbit.symm.trans (h i n hi (Nat.lt_succ_self n) hone))

section Count

theorem ofFnLE_injective : Function.Injective (BitVec.ofFnLE (n := w)) := by
  intro f g h
  funext i
  have hbit := congrArg (fun x => x.getLsbD i) h
  simpa [BitVec.getLsbD_ofFnLE,i.isLt] using hbit

/-- The bits of the words: each one is fixed in the mask and free outside. -/
def bitChoices (mask net : BitVec w) : Finset (Fin w → Bool) :=
  Fintype.piFinset fun i => if mask.getLsbD i = true then {net.getLsbD i} else Finset.univ

theorem coset_eq_image (mask net : BitVec w) :
    coset mask net = BitVec.ofFnLE '' (bitChoices mask net : Set (Fin w → Bool)) := by
  ext x
  rw [mem_coset_iff,Set.mem_image]
  constructor
  · intro h
    refine ⟨fun i => x.getLsbD i,Finset.mem_coe.mpr (Fintype.mem_piFinset.mpr fun i => ?_),?_⟩
    · by_cases hone : mask.getLsbD i = true
      · rw [if_pos hone,Finset.mem_singleton]
        exact h i i.isLt hone
      · rw [if_neg hone]
        exact Finset.mem_univ _
    · refine BitVec.eq_of_getLsbD_eq fun i hi => ?_
      rw [BitVec.getLsbD_ofFnLE,dif_pos hi]
  · rintro ⟨f,hf,rfl⟩ i hi hone
    have hbit := Fintype.mem_piFinset.mp (Finset.mem_coe.mp hf) ⟨i,hi⟩
    rw [if_pos hone,Finset.mem_singleton] at hbit
    rwa [BitVec.getLsbD_ofFnLE,dif_pos hi]

theorem count_lowBits (x : BitVec w) (n : Nat) :
    (lowBits x n).count true = ∑ i ∈ Finset.range n, if x.getLsbD i = true then 1 else 0 := by
  induction n with
  | zero => rfl
  | succ n ih =>
    rw [lowBits,Finset.sum_range_succ,← ih,List.count_cons]
    cases x.getLsbD n <;> rfl

theorem card_bitChoices (mask net : BitVec w) :
    (bitChoices mask net).card * 2^(lowBits mask w).count true = 2^w := by
  have hchoice : ∀ i : Fin w,
      (if mask.getLsbD i = true then {net.getLsbD i} else Finset.univ : Finset Bool).card *
        2^(if mask.getLsbD i = true then 1 else 0) = 2 := by
    intro i
    split <;> rfl
  rw [bitChoices,Fintype.card_piFinset,count_lowBits,Finset.sum_range,← Finset.prod_pow_eq_pow_sum,
    ← Finset.prod_mul_distrib,Finset.prod_congr rfl fun i _ => hchoice i,Finset.prod_const,
    Finset.card_univ,Fintype.card_fin]

theorem ncard_numbers (mask net : BitVec w) :
    (numbers mask net).ncard * 2^(lowBits mask w).count true = 2^w := by
  have hinj : Function.Injective (BitVec.toNat (w := w)) := fun _ _ => BitVec.eq_of_toNat_eq
  rw [numbers,Set.ncard_image_of_injective _ hinj,coset_eq_image,
    Set.ncard_image_of_injective _ ofFnLE_injective,Set.ncard_coe_finset,card_bitChoices]

end Count

end Masks
