import EthAgent.Lib.Probing
import EthAgent.Lib.Runs
import Mathlib.Data.Fintype.Card

/-!
Tables of `n` cells that are filled, and swept: a sweep visits the cells in turn,
and where it meets a record with a stale key it empties the cell that a search
for the key finds, which need not be the one that it visits.
-/

set_option autoImplicit false

namespace Sweeping
open Probing Runs

universe u v
variable {n : Nat} {α : Type u} {κ : Type v}

def taken (t : Table n α) : Nat := (Finset.univ.filter fun i => (t i).isSome).card

@[simp] theorem taken_empty : taken (fun _ => none : Table n α) = 0 := by
  simp [taken]

theorem taken_insert {t : Table n α} {i : Fin n} (hfree : t i = none) (d : α) :
    taken (Function.update t i (some d)) = taken t+1 := by
  have hcells : (Finset.univ.filter fun j => (Function.update t i (some d) j).isSome) =
      insert i (Finset.univ.filter fun j => (t j).isSome) := by
    ext j
    by_cases hj : j = i
    · simp [hj]
    · simp [hj]
  rw [taken,hcells,Finset.card_insert_of_notMem (by simp [hfree]),taken]

theorem exists_free_iff (t : Table n α) : (∃ i, t i = none) ↔ taken t < n := by
  have hle := Finset.card_filter_le (Finset.univ : Finset (Fin n)) fun i => (t i).isSome
  have hall := Finset.card_filter_eq_iff (s := (Finset.univ : Finset (Fin n)))
    (p := fun i => (t i).isSome)
  rw [Finset.card_univ,Fintype.card_fin] at hle hall
  rw [taken,Nat.lt_iff_le_and_ne,ne_eq,hall]
  simp only [hle,true_and,Finset.mem_univ,true_implies,not_forall,Option.not_isSome_iff_eq_none]

variable (key : α → κ) (find : Table n α → κ → Option (Fin n))
  (stale : κ → Bool)

def sweepStep (t : Table n α) (i : Fin n) : Table n α :=
  match t i with
  | none => t
  | some d =>
    if stale (key d) then
      match find t (key d) with
      | none => t
      | some j => Function.update t j none
    else t

/-- The cell holds the key, and a search for the key does not end there. -/
def Missed (k : κ) (t : Table n α) (i : Fin n) : Prop :=
  (∃ d ∈ t i, key d = k) ∧ find t k ≠ some i

theorem sweepStep_cases (t : Table n α) (i : Fin n) :
    (sweepStep key find stale t i = t ∧
        ∀ d ∈ t i, stale (key d) = true → find t (key d) = none) ∨
      ∃ d ∈ t i, ∃ j, stale (key d) = true ∧ find t (key d) = some j ∧
        sweepStep key find stale t i = Function.update t j none := by
  unfold sweepStep
  cases hi : t i with
  | none => exact .inl ⟨rfl,fun d hd => absurd hd (by simp)⟩
  | some d =>
    dsimp only
    cases hstale : stale (key d) with
    | false =>
      refine .inl ⟨rfl,fun e he hfresh => ?_⟩
      rw [← Option.mem_some_iff.mp he,hstale] at hfresh
      exact absurd hfresh Bool.false_ne_true
    | true =>
      cases hf : find t (key d) with
      | none =>
        refine .inl ⟨rfl,fun e he _ => ?_⟩
        rwa [← Option.mem_some_iff.mp he]
      | some j => exact .inr ⟨d,rfl,j,hstale,hf,rfl⟩

variable {key find stale}

/-- What a visit that does not miss the key leaves of it in its own cell: nothing. -/
theorem sweepStep_self_of_not_missed {k : κ} (hk : stale k = true) {t : Table n α} {i : Fin n}
    (h : ¬ Missed key find k t i) : ¬ ∃ d ∈ sweepStep key find stale t i i, key d = k := by
  rintro ⟨d,hd,rfl⟩
  rcases sweepStep_cases key find stale t i with
    ⟨heq,hnone⟩ | ⟨e,he,l,hstale,hl,heq⟩
  · rw [heq] at hd
    exact h ⟨⟨d,hd,rfl⟩,by simp [hnone d hd hk]⟩
  · rw [heq] at hd
    obtain ⟨hil,hd'⟩ := mem_erase hd
    have hed : e = d := Option.mem_unique he hd'
    subst hed
    exact h ⟨⟨e,hd',rfl⟩,fun hi => hil (Option.some_inj.mp (hi.symm.trans hl))⟩

variable (hfind : ∀ (t : Table n α) (k : κ) (j : Fin n),
  find t k = some j → ∃ d ∈ t j, key d = k)
include hfind

/-- A visit empties no cell whose key is not that of the record it meets. -/
theorem mem_sweepStep_of_ne {t : Table n α} {i j : Fin n} {d : α} (hd : d ∈ t j)
    (hne : ∀ e ∈ t i, stale (key e) = true → key e ≠ key d) :
    d ∈ sweepStep key find stale t i j := by
  rcases sweepStep_cases key find stale t i with
    ⟨heq,-⟩ | ⟨e,he,l,hstale,hl,heq⟩
  · rwa [heq]
  · obtain ⟨a,ha,hak⟩ := hfind t (key e) l hl
    have hjl : j ≠ l := by
      rintro rfl
      rw [Option.mem_unique ha hd] at hak
      exact hne e he hstale hak.symm
    rwa [heq,Function.update_of_ne hjl]

theorem stored_sweepStep_of_fresh {k : κ} (hk : stale k = false) (t : Table n α) (i : Fin n) :
    Stored key (sweepStep key find stale t i) k ↔ Stored key t k := by
  constructor
  · rintro ⟨j,d,hd,rfl⟩
    rcases sweepStep_cases key find stale t i with
      ⟨heq,-⟩ | ⟨e,-,l,-,-,heq⟩
    · exact ⟨j,d,by rwa [heq] at hd,rfl⟩
    · rw [heq] at hd
      exact ⟨j,d,(mem_erase hd).2,rfl⟩
  · rintro ⟨j,d,hd,rfl⟩
    refine ⟨j,d,mem_sweepStep_of_ne hfind hd fun e _ hstale hek => ?_,rfl⟩
    rw [hek,hk] at hstale
    exact Bool.false_ne_true hstale

theorem stored_sweep_of_fresh {k : κ} (hk : stale k = false) (t : Table n α)
    (is : List (Fin n)) :
    Stored key (exec (sweepStep key find stale) t is) k ↔ Stored key t k := by
  induction is generalizing t with
  | nil => rfl
  | cons i is ih =>
    rw [exec_cons,ih]
    exact stored_sweepStep_of_fresh hfind hk t i

/-- Where a cell visited earlier holds the key, it or the cell visited now does
after the visit. -/
theorem visited_sweepStep {k : κ} {t : Table n α} {i j : Fin n} (hij : j ≠ i)
    (hj : ∃ d ∈ t j, key d = k) :
    (∃ d ∈ sweepStep key find stale t i j, key d = k) ∨
      ∃ d ∈ sweepStep key find stale t i i, key d = k := by
  obtain ⟨d,hd,rfl⟩ := hj
  rcases sweepStep_cases key find stale t i with
    ⟨heq,-⟩ | ⟨e,he,l,hstale,hl,heq⟩
  · exact .inl ⟨d,by rwa [heq],rfl⟩
  · rw [heq]
    by_cases hjl : j = l
    · subst hjl
      obtain ⟨a,ha,hak⟩ := hfind t (key e) j hl
      rw [Option.mem_unique ha hd] at hak
      exact .inr ⟨e,by rwa [Function.update_of_ne hij.symm],hak.symm⟩
    · exact .inl ⟨d,by rwa [Function.update_of_ne hjl],rfl⟩

/-- Once a visited cell holds the key after its visit, the key stays. -/
theorem stored_sweep_of_visited {k : κ} {t : Table n α} {is : List (Fin n)} (hnodup : is.Nodup)
    (hvisited : ∃ j, j ∉ is ∧ ∃ d ∈ t j, key d = k) :
    Stored key (exec (sweepStep key find stale) t is) k := by
  induction is generalizing t with
  | nil =>
    obtain ⟨j,-,hd⟩ := hvisited
    exact ⟨j,hd⟩
  | cons i is ih =>
    obtain ⟨j,hj,hd⟩ := hvisited
    obtain ⟨hi,hnodup⟩ := List.nodup_cons.mp hnodup
    rw [List.mem_cons,not_or] at hj
    refine ih hnodup ?_
    have hkept : (∃ d ∈ sweepStep key find stale t i j, key d = k) ∨
        ∃ d ∈ sweepStep key find stale t i i, key d = k := visited_sweepStep hfind hj.1 hd
    rcases hkept with hkeep | hmoved
    · exact ⟨j,hj.2,hkeep⟩
    · exact ⟨i,hi,hmoved⟩

theorem stored_sweep_iff_of_unvisited {k : κ} (hk : stale k = true) {t : Table n α}
    {is : List (Fin n)} (hnodup : is.Nodup)
    (hvisited : ∀ j, j ∉ is → ¬ ∃ d ∈ t j, key d = k) :
    Stored key (exec (sweepStep key find stale) t is) k ↔
      Sometime (sweepStep key find stale) (Missed key find k) t is := by
  induction is generalizing t with
  | nil => exact iff_of_false (fun ⟨j,hd⟩ => hvisited j List.not_mem_nil hd) id
  | cons i is ih =>
    obtain ⟨hi,hnodup⟩ := List.nodup_cons.mp hnodup
    rw [exec_cons,Sometime]
    by_cases hmissed : Missed key find k t i
    · refine iff_of_true (stored_sweep_of_visited hfind hnodup ⟨i,hi,?_⟩) (.inl hmissed)
      obtain ⟨⟨d,hd,rfl⟩,hne⟩ := hmissed
      rcases sweepStep_cases key find stale t i with
        ⟨heq,-⟩ | ⟨e,he,l,-,hl,heq⟩
      · exact ⟨d,by rwa [heq],rfl⟩
      · have hed : e = d := Option.mem_unique he hd
        have hil : i ≠ l := by
          rintro rfl
          exact hne (hed ▸ hl)
        exact ⟨d,by rwa [heq,Function.update_of_ne hil],rfl⟩
    · rw [or_iff_right hmissed]
      refine ih hnodup fun j hj hstored => ?_
      by_cases hji : j = i
      · exact sweepStep_self_of_not_missed hk hmissed (hji ▸ hstored)
      · obtain ⟨d,hd,hdk⟩ := hstored
        refine hvisited j (by simp [hji,hj]) ⟨d,?_,hdk⟩
        rcases sweepStep_cases key find stale t i with
          ⟨heq,-⟩ | ⟨e,-,l,-,-,heq⟩
        · rwa [heq] at hd
        · rw [heq] at hd
          exact (mem_erase hd).2

theorem stored_sweep_iff {k : κ} (hk : stale k = true) (t : Table n α) :
    Stored key (exec (sweepStep key find stale) t (List.finRange n)) k ↔
      Sometime (sweepStep key find stale) (Missed key find k) t (List.finRange n) :=
  stored_sweep_iff_of_unvisited hfind hk (List.nodup_finRange n)
    fun j hj => absurd (List.mem_finRange j) hj

end Sweeping
