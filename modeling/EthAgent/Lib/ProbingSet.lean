import EthAgent.Lib.Probing
import Mathlib.Algebra.BigOperators.Group.Finset.Basic
import Mathlib.Algebra.Order.BigOperators.Group.Finset
import Mathlib.Data.Finset.Union

/-!
An open-addressing table as the finite set of its records. With unique keys, filling a
free cell inserts into the set, emptying a cell erases from it, and the table is full
exactly if the set has as many elements as there are cells.
-/

set_option autoImplicit false

namespace Probing

universe u v
variable {n : Nat} {α : Type u} {κ : Type v} [DecidableEq α]

def contents (t : Table n α) : Finset α := Finset.univ.biUnion fun i => (t i).toFinset

variable {t : Table n α} {key : α → κ}

@[simp] theorem mem_contents {d : α} : d ∈ contents t ↔ ∃ i, d ∈ t i := by
  simp [contents]

@[simp] theorem contents_empty : contents (fun _ => none : Table n α) = ∅ := by
  ext d
  simp

theorem contents_insert {i : Fin n} (hfree : t i = none) (d : α) :
    contents (Function.update t i (some d)) = insert d (contents t) := by
  ext e
  simp only [mem_contents,Finset.mem_insert]
  constructor
  · rintro ⟨j,hj⟩
    by_cases hji : j = i
    · subst j
      rw [Function.update_self,Option.mem_some_iff] at hj
      exact .inl hj.symm
    · rw [Function.update_of_ne hji] at hj
      exact .inr ⟨j,hj⟩
  · rintro (rfl | ⟨j,hj⟩)
    · exact ⟨i,by simp⟩
    · have hji : j ≠ i := by rintro rfl; simp [hfree] at hj
      exact ⟨j,by rwa [Function.update_of_ne hji]⟩

theorem contents_erase (hu : UniqueKeys key t) {i : Fin n} {d : α} (hd : d ∈ t i) :
    contents (Function.update t i none) = (contents t).erase d := by
  ext e
  simp only [mem_contents,Finset.mem_erase]
  constructor
  · rintro ⟨j,hj⟩
    obtain ⟨hji,hj⟩ := mem_erase hj
    refine ⟨?_,j,hj⟩
    rintro rfl
    exact hji (hu j i e hj e hd rfl)
  · rintro ⟨hne,j,hj⟩
    have hji : j ≠ i := by
      rintro rfl
      exact hne (Option.mem_unique hj hd)
    exact ⟨j,by rwa [Function.update_of_ne hji]⟩

/-- The records of a table with unique keys are told apart by their keys. -/
theorem contents_unique (hu : UniqueKeys key t) {d e : α} (hd : d ∈ contents t)
    (he : e ∈ contents t) (hk : key d = key e) : d = e := by
  obtain ⟨i,hi⟩ := mem_contents.mp hd
  obtain ⟨j,hj⟩ := mem_contents.mp he
  obtain rfl := hu i j d hi e hj hk
  exact Option.mem_unique hi hj

theorem card_contents (hu : UniqueKeys key t) :
    (contents t).card = ∑ i, (t i).toFinset.card := by
  refine Finset.card_biUnion fun i _ j _ hij => Finset.disjoint_left.mpr fun d hi hj => ?_
  rw [Option.mem_toFinset] at hi hj
  exact hij (hu i j d hi d hj rfl)

theorem card_contents_eq_iff (hu : UniqueKeys key t) :
    (contents t).card = n ↔ ∀ i, t i ≠ none := by
  have hone : ∀ i ∈ Finset.univ, (t i).toFinset.card ≤ 1 := by
    intro i _
    cases t i <;> simp
  have hsum : ∑ _i : Fin n, 1 = n := by simp
  have hall := Finset.sum_eq_sum_iff_of_le hone
  rw [hsum,← card_contents hu] at hall
  rw [hall]
  refine forall_congr' fun i => ?_
  cases t i <;> simp

/-- A walk over the cells meets each record once. -/
theorem contents_val (hu : UniqueKeys key t) :
    (contents t).val = ((List.finRange n).filterMap t : List α) := by
  have hnodup : ((List.finRange n).filterMap t).Nodup :=
    (List.nodup_finRange n).filterMap fun i j d hi hj => hu i j d hi d hj rfl
  have hset : contents t = ((List.finRange n).filterMap t).toFinset := by
    ext d
    simp
  rw [hset,List.toFinset_val,hnodup.dedup]

noncomputable def recordOf [DecidableEq κ] (key : α → κ) (s : Finset α) (k : κ) : Option α :=
  s.toList.find? fun d => key d = k

theorem recordOf_contents [DecidableEq κ] {home : κ → Fin n} (hu : UniqueKeys key t) {k : κ}
    {i : Fin n} (h : Finds key home t k i) : recordOf key (contents t) k = t i := by
  obtain ⟨⟨d,hd,hk⟩,-⟩ := h
  have hmem : d ∈ contents t := mem_contents.mpr ⟨i,hd⟩
  rw [Option.mem_def.mp hd]
  cases hr : recordOf key (contents t) k with
  | none =>
    have hnone := List.find?_eq_none.mp hr d (Finset.mem_toList.mpr hmem)
    exact absurd hk (by simpa using hnone)
  | some e =>
    have he : e ∈ contents t := Finset.mem_toList.mp (List.mem_of_find?_eq_some hr)
    have hek : key e = k := by simpa using List.find?_some hr
    rw [contents_unique hu he hmem (hek.trans hk.symm)]

omit [DecidableEq α] in
theorem recordOf_eq_none_iff [DecidableEq κ] {s : Finset α} {k : κ} :
    recordOf key s k = none ↔ ∀ d ∈ s, key d ≠ k := by
  simp [recordOf]

end Probing
