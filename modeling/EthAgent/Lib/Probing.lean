import Mathlib.Logic.Function.Basic
import Mathlib.Data.Option.Basic

/-!
Open addressing with linear probing over a table of `n` cells, for any records,
keys and home function. A search starts at the home cell of its key, wraps
around, and stops at an empty cell. A table is complete when such searches find
every stored key.
-/

set_option autoImplicit false

namespace Probing

universe u v
variable {n : Nat}

/-- The cell after `i`, wrapping around the table. -/
def next (i : Fin n) : Fin n :=
  ⟨(i.val+1) % n,Nat.mod_lt _ (by have hi := i.isLt; omega)⟩

/-- How many cells a search from `h` leaves behind before it looks at `i`. -/
def dist (h i : Fin n) : Nat :=
  if h.val ≤ i.val then i.val-h.val else n-h.val+i.val

@[simp] theorem dist_self (h : Fin n) : dist h h = 0 := by simp [dist]

theorem dist_lt (h i : Fin n) : dist h i < n := by
  have hh := h.isLt
  have hi := i.isLt
  unfold dist; split <;> omega

theorem dist_injective {h i j : Fin n} (he : dist h i = dist h j) : i = j := by
  apply Fin.ext
  have hi := i.isLt
  have hj := j.isLt
  have hh := h.isLt
  unfold dist at he
  split at he <;> split at he <;> omega

theorem next_val (i : Fin n) :
    (next i).val = if i.val+1 = n then 0 else i.val+1 := by
  have hi := i.isLt
  unfold next
  split
  · rename_i he; simp [he]
  · exact Nat.mod_eq_of_lt (by omega)

theorem dist_next {h i : Fin n} (hne : next i ≠ h) :
    dist h (next i) = dist h i+1 := by
  have hv := next_val i
  have hi := i.isLt
  have hh := h.isLt
  have hnv : (next i).val ≠ h.val := fun he => hne (Fin.ext he)
  unfold dist
  split at hv <;> split <;> split <;> omega

theorem dist_of_next_eq {h i : Fin n} (he : next i = h) : dist h i+1 = n := by
  have hv := next_val i
  have hi := i.isLt
  rw [he] at hv
  unfold dist
  split at hv <;> split <;> omega

/-- One search: look at `i` and the cells after it until `stop` holds or the
search is back at `h`. The fuel bounds the cells looked at. -/
def scan (stop : Fin n → Bool) (h : Fin n) : Nat → Fin n → Option (Fin n)
  | 0, _ => none
  | fuel+1, i =>
    if stop i then some i
    else if next i = h then none
    else scan stop h fuel (next i)

/-- The first cell in probe order where `stop` holds. -/
def First (stop : Fin n → Bool) (h k : Fin n) : Prop :=
  stop k = true ∧ ∀ j, dist h j < dist h k → stop j = false

theorem scan_spec (stop : Fin n → Bool) (h : Fin n) (fuel : Nat) (i : Fin n)
    (hf : n ≤ dist h i+fuel) (hb : ∀ j, dist h j < dist h i → stop j = false) :
    (∃ k, scan stop h fuel i = some k ∧ First stop h k) ∨
      (scan stop h fuel i = none ∧ ∀ j, stop j = false) := by
  induction fuel generalizing i with
  | zero =>
    have hlt := dist_lt h i
    omega
  | succ fuel ih =>
    by_cases hs : stop i = true
    · exact .inl ⟨i,by simp [scan,hs],hs,hb⟩
    · have hi : stop i = false := by simpa using hs
      have hle : ∀ j, dist h j < dist h i+1 → stop j = false := by
        intro j hj
        rcases Nat.lt_succ_iff_lt_or_eq.mp hj with hlt | heq
        · exact hb j hlt
        · rw [dist_injective heq]; exact hi
      by_cases hn : next i = h
      · refine .inr ⟨by simp [scan,hi,hn],fun j => hle j ?_⟩
        rw [dist_of_next_eq hn]
        exact dist_lt h j
      · have hd := dist_next hn
        have hrec := ih (next i) (by omega) (by rw [hd]; exact hle)
        simpa [scan,hi,hn] using hrec

theorem First.unique {stop : Fin n → Bool} {h i k : Fin n} (hi : First stop h i)
    (hk : First stop h k) : i = k := by
  rcases Nat.lt_trichotomy (dist h i) (dist h k) with hlt | heq | hgt
  · exact absurd hi.1 (by simp [hk.2 i hlt])
  · exact dist_injective heq
  · exact absurd hk.1 (by simp [hi.2 k hgt])

/-- `n` probes from the home cell always suffice. -/
theorem scan_eq_some_iff (stop : Fin n → Bool) (h k : Fin n) :
    scan stop h n h = some k ↔ First stop h k := by
  have hs := scan_spec stop h n h (by simp) (by simp)
  rcases hs with ⟨i,hi,hfirst⟩ | ⟨hnone,hall⟩
  · rw [hi,Option.some.injEq]
    exact ⟨fun he => he ▸ hfirst,fun hk => hfirst.unique hk⟩
  · rw [hnone]
    exact ⟨fun he => absurd he (by simp),fun hk => absurd hk.1 (by simp [hall k])⟩

abbrev Table (n : Nat) (α : Type u) := Fin n → Option α

section Tables

variable {α : Type u} {κ : Type v} (key : α → κ) (home : κ → Fin n)

def Stored (t : Table n α) (k : κ) : Prop := ∃ i, ∃ d ∈ t i, key d = k

/-- A search for `k` gets as far as cell `i`: every cell it looks at before is
taken by another key. -/
def Reaches (t : Table n α) (k : κ) (i : Fin n) : Prop :=
  ∀ j, dist (home k) j < dist (home k) i → ∃ d ∈ t j, key d ≠ k

/-- Cell `i` holds key `k`, and a search for `k` ends there. -/
def Finds (t : Table n α) (k : κ) (i : Fin n) : Prop :=
  (∃ d ∈ t i, key d = k) ∧ Reaches key home t k i

def Complete (t : Table n α) : Prop :=
  ∀ k, (∃ i, Finds key home t k i) ↔ Stored key t k

def UniqueKeys (t : Table n α) : Prop :=
  ∀ i j, ∀ d ∈ t i, ∀ e ∈ t j, key d = key e → i = j

/-- No search for a record of another cell gets as far as cell `i`. -/
def Unused (t : Table n α) (i : Fin n) : Prop :=
  ∀ j, j ≠ i → ∀ d ∈ t j, ¬ Reaches key home t (key d) i

instance decidableReaches [DecidableEq κ] (t : Table n α) (k : κ) (i : Fin n) :
    Decidable (Reaches key home t k i) := inferInstanceAs (Decidable (∀ _, _ → _))

instance decidableUnused [DecidableEq κ] (t : Table n α) (i : Fin n) :
    Decidable (Unused key home t i) := inferInstanceAs (Decidable (∀ _, _ → _))

variable {key home}

theorem Finds.stored {t : Table n α} {k : κ} {i : Fin n} (h : Finds key home t k i) :
    Stored key t k := ⟨i,h.1⟩

theorem complete_iff {t : Table n α} :
    Complete key home t ↔ ∀ k, Stored key t k → ∃ i, Finds key home t k i :=
  ⟨fun h k => (h k).mpr,fun h k => ⟨fun ⟨_,hi⟩ => hi.stored,h k⟩⟩

/-- Where a key sits behind taken cells only, a search finds it there or earlier. -/
theorem finds_of_path (t : Table n α) (k : κ) (i : Fin n) (hk : ∃ d ∈ t i, key d = k)
    (hpath : ∀ j, dist (home k) j < dist (home k) i → t j ≠ none) :
    ∃ j, Finds key home t k j := by
  classical
  let stop : Fin n → Bool := fun j => decide (∃ d ∈ t j, key d = k)
  rcases scan_spec stop (home k) n (home k) (by simp) (by simp) with
    ⟨j,-,hstop,hbefore⟩ | ⟨-,hall⟩
  · have hle : dist (home k) j ≤ dist (home k) i := by
      by_contra hlt
      have hi := hbefore i (by omega)
      simp only [stop,decide_eq_false_iff_not] at hi
      exact hi hk
    refine ⟨j,by simpa [stop] using hstop,fun l hl => ?_⟩
    obtain ⟨d,hd⟩ := Option.ne_none_iff_exists'.mp (hpath l (by omega))
    have hl' := hbefore l hl
    simp only [stop,decide_eq_false_iff_not,not_exists,not_and] at hl'
    exact ⟨d,hd,hl' d hd⟩
  · have hi := hall i
    simp only [stop,decide_eq_false_iff_not] at hi
    exact absurd hk hi

theorem Finds.path {t : Table n α} {k : κ} {i : Fin n} (h : Finds key home t k i) :
    ∀ j, dist (home k) j < dist (home k) i → t j ≠ none := by
  intro j hj
  obtain ⟨d,hd,-⟩ := h.2 j hj
  exact Option.ne_none_iff_exists'.mpr ⟨d,hd⟩

theorem complete_empty : Complete key home (fun _ => none : Table n α) := by
  rw [complete_iff]
  rintro k ⟨i,d,hd,-⟩
  exact absurd hd (by simp)

theorem uniqueKeys_empty : UniqueKeys key (fun _ => none : Table n α) := by
  intro i j d hd
  exact absurd hd (by simp)

theorem uniqueKeys_insert {t : Table n α} {i : Fin n} {d : α} (hu : UniqueKeys key t)
    (hnew : ¬ Stored key t (key d)) :
    UniqueKeys key (Function.update t i (some d)) := by
  have hother : ∀ j, j ≠ i → ∀ e ∈ t j, key e ≠ key d :=
    fun j _ e he hk => hnew ⟨j,e,he,hk⟩
  intro a b x hx y hy hk
  by_cases ha : a = i <;> by_cases hb : b = i
  · rw [ha,hb]
  · subst a
    rw [Function.update_self,Option.mem_some_iff] at hx
    rw [Function.update_of_ne hb] at hy
    exact absurd (hx ▸ hk.symm) (hother b hb y hy)
  · subst b
    rw [Function.update_self,Option.mem_some_iff] at hy
    rw [Function.update_of_ne ha] at hx
    exact absurd (hy ▸ hk) (hother a ha x hx)
  · rw [Function.update_of_ne ha] at hx
    rw [Function.update_of_ne hb] at hy
    exact hu a b x hx y hy hk

section Insert

variable {t : Table n α} {i : Fin n} {d : α} (hfree : t i = none)
include hfree

theorem stored_insert (k : κ) :
    Stored key (Function.update t i (some d)) k ↔ k = key d ∨ Stored key t k := by
  constructor
  · rintro ⟨j,e,he,rfl⟩
    by_cases hj : j = i
    · subst j
      rw [Function.update_self,Option.mem_some_iff] at he
      exact .inl (by rw [he])
    · rw [Function.update_of_ne hj] at he
      exact .inr ⟨j,e,he,rfl⟩
  · rintro (rfl | ⟨j,e,he,rfl⟩)
    · exact ⟨i,d,by simp,rfl⟩
    · have hj : j ≠ i := by rintro rfl; simp [hfree] at he
      exact ⟨j,e,by rwa [Function.update_of_ne hj],rfl⟩

/-- Filling a free cell behind taken ones keeps searches complete. -/
theorem complete_insert (hc : Complete key home t)
    (hpath : ∀ j, dist (home (key d)) j < dist (home (key d)) i → t j ≠ none) :
    Complete key home (Function.update t i (some d)) := by
  have hgrow : ∀ j, t j ≠ none → Function.update t i (some d) j ≠ none := by
    intro j hj
    by_cases he : j = i
    · subst j; simp
    · rwa [Function.update_of_ne he]
  rw [complete_iff]
  intro k hk
  rcases (stored_insert hfree k).mp hk with rfl | hold
  · exact finds_of_path _ _ i ⟨d,by simp,rfl⟩ fun j hj => hgrow j (hpath j hj)
  · obtain ⟨j,hj⟩ := (hc k).mpr hold
    obtain ⟨e,he,hek⟩ := hj.1
    have hji : j ≠ i := by rintro rfl; simp [hfree] at he
    exact finds_of_path _ _ j ⟨e,by rwa [Function.update_of_ne hji],hek⟩
      fun l hl => hgrow l (hj.path l hl)

end Insert

section Erase

variable {t : Table n α} {i : Fin n}

theorem mem_erase {j : Fin n} {e : α} (he : e ∈ Function.update t i none j) :
    j ≠ i ∧ e ∈ t j := by
  by_cases hj : j = i
  · subst j; simp at he
  · exact ⟨hj,by rwa [Function.update_of_ne hj] at he⟩

theorem uniqueKeys_erase (hu : UniqueKeys key t) :
    UniqueKeys key (Function.update t i none) := by
  intro a b x hx y hy hk
  exact hu a b x (mem_erase hx).2 y (mem_erase hy).2 hk

theorem stored_erase (hu : UniqueKeys key t) {d : α} (hd : d ∈ t i) (k : κ) :
    Stored key (Function.update t i none) k ↔ Stored key t k ∧ k ≠ key d := by
  constructor
  · rintro ⟨j,e,he,rfl⟩
    obtain ⟨hj,he⟩ := mem_erase he
    exact ⟨⟨j,e,he,rfl⟩,fun hk => hj (hu j i e he d hd hk)⟩
  · rintro ⟨⟨j,e,he,rfl⟩,hk⟩
    have hj : j ≠ i := by
      rintro rfl
      exact hk (by rw [Option.mem_unique he hd])
    exact ⟨j,e,by rwa [Function.update_of_ne hj],rfl⟩

/-- Emptying a taken cell keeps searches complete exactly when no search for
another stored record gets as far as this cell. -/
theorem complete_erase_iff (hc : Complete key home t) :
    Complete key home (Function.update t i none) ↔ Unused key home t i := by
  constructor
  · intro hc' j hj d hd hreach
    have hstored : Stored key (Function.update t i none) (key d) :=
      ⟨j,d,by rwa [Function.update_of_ne hj],rfl⟩
    obtain ⟨l,hl⟩ := (hc' (key d)).mpr hstored
    obtain ⟨e,he,hek⟩ := hl.1
    obtain ⟨hli,he⟩ := mem_erase he
    -- the search passes over cell i, which is now empty
    rcases Nat.lt_trichotomy (dist (home (key d)) l) (dist (home (key d)) i) with
      hlt | heq | hgt
    · obtain ⟨e',he',hne⟩ := hreach l hlt
      rw [Option.mem_unique he he'] at hek
      exact hne hek
    · exact hli (dist_injective heq)
    · exact hl.path i hgt (by simp)
  · intro hun
    rw [complete_iff]
    rintro k ⟨j,d,hd,rfl⟩
    obtain ⟨hj,hd⟩ := mem_erase hd
    obtain ⟨l,hl⟩ := (hc (key d)).mpr ⟨j,d,hd,rfl⟩
    obtain ⟨e,he,hek⟩ := hl.1
    have hnot := hun j hj d hd
    have hlt : dist (home (key d)) l < dist (home (key d)) i := by
      by_contra hge
      exact hnot fun a ha => hl.2 a (by omega)
    have hli : l ≠ i := by rintro rfl; exact absurd hlt (Nat.lt_irrefl _)
    refine finds_of_path _ _ l ⟨e,by rwa [Function.update_of_ne hli],hek⟩ fun a ha => ?_
    have hai : a ≠ i := by
      rintro rfl
      exact absurd (Nat.lt_trans ha hlt) (Nat.lt_irrefl _)
    rw [Function.update_of_ne hai]
    exact hl.path a ha

end Erase

end Tables

end Probing
