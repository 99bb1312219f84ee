import Mathlib.Data.List.Basic

/-!
The latest value in a list: that of the last element which has one. It is what a
variable holds after a loop that overwrites it now and then.
-/

set_option autoImplicit false

namespace Latest

universe u v w
variable {α : Type u} {β : Type v} {σ : Type w}

def latest (f : α → Option β) (l : List α) : Option β := (l.filterMap f).getLast?

variable {f : α → Option β}

@[simp] theorem latest_nil : latest f [] = none := rfl

theorem latest_cons (x : α) (l : List α) : latest f (x :: l) = (latest f l).or (f x) := by
  rw [latest,latest]
  cases hx : f x with
  | none => rw [List.filterMap_cons_none hx,Option.or_none]
  | some y =>
    rw [List.filterMap_cons_some hx,List.getLast?_cons]
    cases (l.filterMap f).getLast? <;> rfl

theorem latest_concat (l : List α) (x : α) : latest f (l ++ [x]) = (f x).or (latest f l) := by
  rw [latest,List.filterMap_append,latest]
  cases hx : f x with
  | none => rw [List.filterMap_cons_none hx,List.filterMap_nil,List.append_nil,Option.none_or]
  | some y =>
    rw [List.filterMap_cons_some hx,List.filterMap_nil,List.getLast?_concat,Option.some_or]

theorem latest_congr {f' : α → Option β} {l : List α} (h : ∀ x ∈ l, f x = f' x) :
    latest f l = latest f' l := by
  rw [latest,latest,List.filterMap_congr h]

theorem latest_eq_none_iff {l : List α} : latest f l = none ↔ ∀ x ∈ l, f x = none := by
  rw [latest,List.getLast?_eq_none_iff,List.filterMap_eq_nil_iff]

theorem latest_eq_some_iff {l : List α} {y : β} :
    latest f l = some y ↔
      ∃ before x after, l = before ++ x :: after ∧ f x = some y ∧ ∀ z ∈ after, f z = none := by
  rw [latest,List.getLast?_filterMap,List.findSome?_eq_some_iff]
  constructor
  · rintro ⟨after,x,before,hrev,hx,hafter⟩
    refine ⟨before.reverse,x,after.reverse,?_,hx,fun z hz => hafter z (List.mem_reverse.mp hz)⟩
    rw [← List.reverse_reverse l,hrev]
    simp
  · rintro ⟨before,x,after,rfl,hx,hafter⟩
    exact ⟨after.reverse,x,before.reverse,by simp,hx,fun z hz => hafter z (List.mem_reverse.mp hz)⟩

/-- What a loop leaves that overwrites `get` with the values of `f`. -/
theorem get_foldl {step : σ → α → σ} {get : σ → β}
    (hstep : ∀ s x, get (step s x) = (f x).getD (get s)) (l : List α) (s : σ) :
    get (l.foldl step s) = (latest f l).getD (get s) := by
  induction l generalizing s with
  | nil => rfl
  | cons x l ih =>
    rw [List.foldl_cons,ih,hstep,latest_cons]
    cases latest f l <;> rfl

/-- The latest value is `v`, or `v` stands in for it: said of the elements. -/
theorem getD_latest_eq_iff {l : List α} {d v : β} :
    (latest f l).getD d = v ↔
      (∀ before x after y, l = before ++ x :: after → f x = some y →
        (∀ z ∈ after, f z = none) → y = v) ∧ ((∀ x ∈ l, f x = none) → d = v) := by
  constructor
  · intro h
    constructor
    · intro before x after y hl hy hafter
      rwa [latest_eq_some_iff.mpr ⟨before,x,after,hl,hy,hafter⟩] at h
    · intro hnone
      rwa [latest_eq_none_iff.mpr hnone] at h
  · rintro ⟨hsome,hnone⟩
    cases hlast : latest f l with
    | none => exact hnone (latest_eq_none_iff.mp hlast)
    | some y =>
      obtain ⟨before,x,after,hl,hy,hafter⟩ := latest_eq_some_iff.mp hlast
      exact hsome before x after y hl hy hafter

/-- What is written and also refreshed now and then holds what was written last, exactly
if a refresh with nothing after it finds this. -/
theorem getD_latest_or_iff {r : α → Option β} (hr : ∀ x y, r x = some y → f x = none)
    {l : List α} {d : β} :
    (latest (fun x => (f x).or (r x)) l).getD d = (latest f l).getD d ↔
      ∀ before x after y, l = before ++ x :: after → r x = some y →
        (∀ z ∈ after, f z = none ∧ r z = none) → y = (latest f l).getD d := by
  rw [getD_latest_eq_iff]
  simp only [Option.or_eq_none_iff]
  constructor
  · intro h before x after y hl hy hafter
    exact h.1 before x after y hl (by rw [hr x y hy,hy]; rfl) hafter
  · intro h
    constructor
    · intro before x after y hl hy hafter
      cases hx : f x with
      | none =>
        rw [hx,Option.none_or] at hy
        exact h before x after y hl hy hafter
      | some v =>
        rw [hx,Option.some_or,Option.some_inj] at hy
        have hlast : latest f l = some v :=
          latest_eq_some_iff.mpr ⟨before,x,after,hl,hx,fun z hz => (hafter z hz).1⟩
        rw [hlast,← hy]
        rfl
    · intro hnone
      rw [latest_eq_none_iff.mpr fun x hx => (hnone x hx).1]
      rfl

end Latest
