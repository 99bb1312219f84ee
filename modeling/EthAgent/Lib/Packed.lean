import Mathlib.Data.List.Perm.Basic
import Mathlib.Data.List.Nodup
import Mathlib.Data.Nat.Find

/-!
Arrays without holes: entries are added at the end, and the last entry moves
into the place of a removed one. `FirstAt` is the lookup by key that a scan
from the front makes.
-/

set_option autoImplicit false

namespace Packed

universe u v
variable {α : Type u} {κ : Type v}

def swapRemove (l : List α) (i : Nat) : List α :=
  match l.getLast? with
  | none => []
  | some x => (l.set i x).dropLast

theorem swapRemove_concat (l : List α) (x : α) (i : Nat) :
    swapRemove (l ++ [x]) i = if i < l.length then l.set i x else l := by
  rw [swapRemove,List.getLast?_concat]
  by_cases hi : i < l.length
  · simp [hi,List.set_append_left i x hi]
  · by_cases he : i = l.length
    · subst he; simp
    · have hge : (l ++ [x]).length ≤ i := by
        rw [List.length_append,List.length_singleton]; omega
      simp [hi,List.set_eq_of_length_le hge]

theorem perm_swapRemove {l : List α} {i : Nat} (hi : i < l.length) :
    l.Perm (l[i] :: swapRemove l i) := by
  rcases List.eq_nil_or_concat' l with rfl | ⟨l,x,rfl⟩
  · exact absurd hi (Nat.not_lt_zero i)
  · by_cases hl : i < l.length
    · have hget : (l ++ [x])[i] = l[i] := List.getElem_append_left hl
      rw [swapRemove_concat,if_pos hl,hget]
      calc (l ++ [x]).Perm (x :: l) := List.perm_append_singleton x l
        List.Perm _ (x :: l[i] :: l.eraseIdx i) :=
          (List.getElem_cons_eraseIdx_perm hl).symm.cons x
        List.Perm _ (l[i] :: x :: l.eraseIdx i) := List.Perm.swap _ _ _
        List.Perm _ (l[i] :: l.set i x) :=
          (List.set_perm_cons_eraseIdx hl x).symm.cons l[i]
    · have he : i = l.length := by
        rw [List.length_append,List.length_singleton] at hi; omega
      subst he
      rw [swapRemove_concat,if_neg hl]
      simp

/-- As `swapRemove`, where `f` writes the last entry over the removed one. -/
def swapRemoveBy (f : α → α → α) (l : List α) (i : Nat) : List α :=
  match l.getLast? with
  | none => []
  | some x => l.dropLast.modify i (f x)

theorem swapRemoveBy_concat (f : α → α → α) (l : List α) (x : α) (i : Nat) :
    swapRemoveBy f (l ++ [x]) i = l.modify i (f x) := by
  rw [swapRemoveBy,List.getLast?_concat]
  simp

theorem length_swapRemoveBy (f : α → α → α) (l : List α) (i : Nat) :
    (swapRemoveBy f l i).length = l.length-1 := by
  rcases List.eq_nil_or_concat' l with rfl | ⟨l,x,rfl⟩
  · rfl
  · rw [swapRemoveBy_concat,List.length_modify,List.length_append,List.length_singleton]
    omega

theorem getElem?_swapRemoveBy_of_lt {f : α → α → α} {l : List α} {i j : Nat} (hj : j < i)
    (hi : i < l.length) : (swapRemoveBy f l i)[j]? = l[j]? := by
  rcases List.eq_nil_or_concat' l with rfl | ⟨l,x,rfl⟩
  · exact absurd hi (Nat.not_lt_zero i)
  · rw [List.length_append,List.length_singleton] at hi
    have hne : i ≠ j := by omega
    rw [swapRemoveBy_concat,List.getElem?_append_left (by omega)]
    simp [hne]

theorem map_modify_of_getElem? {f : α → α} {g : α → κ} {l : List α} {i : Nat} {a : α}
    (ha : l[i]? = some a) : (l.modify i f).map g = (l.map g).set i (g (f a)) := by
  obtain ⟨hi,rfl⟩ := List.getElem?_eq_some_iff.mp ha
  apply List.ext_getElem?
  intro j
  simp only [List.getElem?_map,List.getElem?_modify,List.getElem?_set,List.length_map]
  by_cases hij : i = j
  · subst hij
    simp [hi]
  · simp [hij]

/-- Only what `g` makes of the entries counts, and it is that of the last entry moved. -/
theorem map_swapRemoveBy {f : α → α → α} {g : α → κ} {l : List α} {i : Nat}
    (h : ∀ x ∈ l.getLast?, ∀ a ∈ l[i]?, i+1 < l.length → g (f x a) = g x) :
    (swapRemoveBy f l i).map g = swapRemove (l.map g) i := by
  rcases List.eq_nil_or_concat' l with rfl | ⟨l,x,rfl⟩
  · rfl
  · rw [swapRemoveBy_concat,List.map_append,List.map_singleton,swapRemove_concat,List.length_map]
    by_cases hi : i < l.length
    · have hget : l[i]? = some l[i] := List.getElem?_eq_getElem hi
      have hmoved := h x (by simp) l[i] (by rwa [List.getElem?_append_left hi])
        (by simpa using hi)
      rw [if_pos hi,map_modify_of_getElem? hget,hmoved]
    · rw [if_neg hi,List.modify_eq_self (by omega)]

theorem map_modify_of_eq {f : α → α} {g : α → κ} (h : ∀ a, g (f a) = g a) (l : List α)
    (i : Nat) : (l.modify i f).map g = l.map g := by
  apply List.ext_getElem?
  intro j
  simp only [List.getElem?_map,List.getElem?_modify]
  by_cases hij : i = j <;> simp [hij,h,Function.comp_def]

theorem modify_eq_self_iff {f : α → α} {l : List α} {i : Nat} :
    l.modify i f = l ↔ ∀ a, l[i]? = some a → f a = a := by
  constructor
  · intro h a ha
    have hget := congrArg (fun l => l[i]?) h
    simpa [ha] using hget
  · intro h
    apply List.ext_getElem?
    intro j
    rw [List.getElem?_modify]
    by_cases hij : i = j
    · subst hij
      cases ha : l[i]? with
      | none => rfl
      | some a => simp [h a ha]
    · simp [hij]

theorem exists_perm_set {l : List α} {i : Nat} {a : α} (h : l[i]? = some a) (b : α) :
    ∃ rest : List α, l.Perm (a :: rest) ∧ (l.set i b).Perm (b :: rest) := by
  obtain ⟨hi,rfl⟩ := List.getElem?_eq_some_iff.mp h
  exact ⟨l.eraseIdx i,(List.getElem_cons_eraseIdx_perm hi).symm,
    List.set_perm_cons_eraseIdx hi b⟩

/-- Position `i` is the first that holds `k`. -/
def FirstAt (ks : List κ) (k : κ) (i : Nat) : Prop :=
  ks[i]? = some k ∧ ∀ j, j < i → ks[j]? ≠ some k

variable {ks : List κ} {k x : κ} {i j : Nat}

theorem FirstAt.lt (h : FirstAt ks k i) : i < ks.length :=
  (List.getElem?_eq_some_iff.mp h.1).1

theorem FirstAt.mem (h : FirstAt ks k i) : k ∈ ks := List.mem_of_getElem? h.1

/-- A key that was not there comes first where it is written. -/
theorem FirstAt.eq_of_set {x : κ} (h : FirstAt (ks.set j x) k i) (hk : k ∉ ks) : i = j := by
  by_contra hne
  have hget := h.1
  rw [List.getElem?_set_ne (Ne.symm hne)] at hget
  exact hk (List.mem_of_getElem? hget)

theorem FirstAt.unique (hi : FirstAt ks k i) (hj : FirstAt ks k j) : i = j := by
  rcases Nat.lt_trichotomy i j with hlt | heq | hgt
  · exact absurd hi.1 (hj.2 i hlt)
  · exact heq
  · exact absurd hj.1 (hi.2 j hgt)

theorem exists_firstAt (h : k ∈ ks) : ∃ i, FirstAt ks k i := by
  classical
  have hex : ∃ i : Nat, ks[i]? = some k := List.mem_iff_getElem?.mp h
  exact ⟨Nat.find hex,Nat.find_spec hex,fun _ hj => Nat.find_min hex hj⟩

theorem FirstAt.perm_swapRemove (h : FirstAt ks k i) : ks.Perm (k :: swapRemove ks i) := by
  obtain ⟨hi,rfl⟩ := List.getElem?_eq_some_iff.mp h.1
  exact Packed.perm_swapRemove hi

theorem findIdx?_eq_some_iff_firstAt [DecidableEq κ] {key : α → κ} {l : List α} :
    l.findIdx? (fun a => key a = k) = some i ↔ FirstAt (l.map key) k i := by
  rw [List.findIdx?_eq_some_iff_getElem]
  constructor
  · rintro ⟨hi,hk,hbefore⟩
    refine ⟨by simpa [List.getElem?_eq_getElem hi] using hk,fun j hj => ?_⟩
    have hjl : j < l.length := by omega
    simpa [List.getElem?_eq_getElem hjl] using hbefore j hj
  · rintro ⟨hk,hbefore⟩
    rw [List.getElem?_map,Option.map_eq_some_iff] at hk
    obtain ⟨a,ha,hak⟩ := hk
    obtain ⟨hi,rfl⟩ := List.getElem?_eq_some_iff.mp ha
    refine ⟨hi,by simpa using hak,fun j hj => ?_⟩
    have hjl : j < l.length := by omega
    simpa [List.getElem?_eq_getElem hjl] using hbefore j hj

theorem firstAt_concat_iff :
    FirstAt (ks ++ [x]) k i ↔ FirstAt ks k i ∨ (i = ks.length ∧ k = x ∧ k ∉ ks) := by
  constructor
  · rintro ⟨hk,hbefore⟩
    rcases Nat.lt_trichotomy i ks.length with hlt | heq | hgt
    · left
      rw [List.getElem?_append_left hlt] at hk
      refine ⟨hk,fun j hj => ?_⟩
      have hj' := hbefore j hj
      rwa [List.getElem?_append_left (by omega)] at hj'
    · right
      subst heq
      rw [List.getElem?_concat_length,Option.some_inj] at hk
      refine ⟨rfl,hk.symm,fun hmem => ?_⟩
      obtain ⟨j,hj,hjk⟩ := List.getElem_of_mem hmem
      have hj' := hbefore j hj
      rw [List.getElem?_append_left hj,List.getElem?_eq_getElem hj] at hj'
      exact hj' (congrArg some hjk)
    · rw [List.getElem?_eq_none (by simp; omega)] at hk
      exact absurd hk (by simp)
  · rintro (hfirst | ⟨rfl,rfl,hnot⟩)
    · have hlt := hfirst.lt
      refine ⟨by rw [List.getElem?_append_left hlt]; exact hfirst.1,fun j hj => ?_⟩
      rw [List.getElem?_append_left (by omega)]
      exact hfirst.2 j hj
    · refine ⟨List.getElem?_concat_length,fun j hj => ?_⟩
      rw [List.getElem?_append_left hj]
      exact fun h => hnot (List.mem_of_getElem? h)

/-- Writing one entry does not move the first place of any other key. -/
theorem firstAt_set_of_ne (hx : k ≠ x) (hold : ks[j]? ≠ some k) :
    FirstAt (ks.set j x) k i ↔ FirstAt ks k i := by
  have hget : ∀ m : Nat, (ks.set j x)[m]? = some k ↔ ks[m]? = some k := by
    intro m
    by_cases hm : j = m
    · subst hm
      by_cases hl : j < ks.length
      · rw [List.getElem?_set_self hl]
        exact ⟨fun h => absurd (Option.some_inj.mp h).symm hx,fun h => absurd h hold⟩
      · rw [List.set_eq_of_length_le (by omega)]
    · rw [List.getElem?_set_ne hm]
  simp only [FirstAt,hget,ne_eq]

/-- The first place of the key that is written is the place written, or one
before it. -/
theorem firstAt_set_self_iff (hj : j < ks.length) :
    FirstAt (ks.set j x) x i ↔
      (i < j ∧ FirstAt ks x i) ∨ (i = j ∧ ∀ m : Nat, m < j → ks[m]? ≠ some x) := by
  have hself : (ks.set j x)[j]? = some x := List.getElem?_set_self hj
  have hne : ∀ {m : Nat}, m < j → (ks.set j x)[m]? = ks[m]? := fun hm =>
    List.getElem?_set_ne (by omega)
  constructor
  · rintro ⟨hk,hbefore⟩
    rcases Nat.lt_trichotomy i j with hlt | heq | hgt
    · left
      rw [hne hlt] at hk
      refine ⟨hlt,hk,fun m hm => ?_⟩
      rw [← hne (by omega)]
      exact hbefore m hm
    · right
      subst heq
      refine ⟨rfl,fun m hm => ?_⟩
      rw [← hne hm]
      exact hbefore m hm
    · exact absurd hself (hbefore j hgt)
  · rintro (⟨hlt,hk,hbefore⟩ | ⟨rfl,hbefore⟩)
    · refine ⟨by rw [hne hlt]; exact hk,fun m hm => ?_⟩
      rw [hne (by omega)]
      exact hbefore m hm
    · refine ⟨hself,fun m hm => ?_⟩
      rw [hne hm]
      exact hbefore m hm

end Packed
