import Mathlib.Data.List.Basic
import Mathlib.Tactic.Common

/-!
A lookup by name that compares before it reads: at each row the name is compared with
that of the row before, and the path of the row itself is given. Rows are pairs of a
path and a name, of any types.
-/

set_option autoImplicit false

namespace StaleLookup
universe u v
variable {π : Type u} {κ : Type v} [DecidableEq κ]

def first (k : κ) (l : List (π × κ)) : Option π := (l.find? fun r => r.2 = k).map Prod.fst

/-- What the lookup gives, `b` being the name in the buffer when it begins, and the name
that is left there. -/
def scan (k : κ) : κ → List (π × κ) → Option π × κ
  | b, [] => (none,b)
  | b, r :: l => if b = k then (some r.1,r.2) else scan k r.2 l

variable {k b : κ} {l : List (π × κ)}

theorem first_eq_none_iff : first k l = none ↔ ∀ r ∈ l, r.2 ≠ k := by
  simp [first]

theorem first_append {before : List (π × κ)} (h : ∀ r ∈ before, r.2 ≠ k) (p : π)
    (after : List (π × κ)) : first k (before ++ (p,k) :: after) = some p := by
  have hnone : before.find? (fun r => r.2 = k) = none :=
    List.find?_eq_none.mpr fun r hr => by simpa using h r hr
  rw [first,List.find?_append,hnone,Option.none_or,List.find?_cons_of_pos (by simp),
    Option.map_some]

theorem exists_named_or (k : κ) (l : List (π × κ)) :
    (∀ r ∈ l, r.2 ≠ k) ∨
      ∃ before p after, l = before ++ (p,k) :: after ∧ ∀ r ∈ before, r.2 ≠ k := by
  induction l with
  | nil => exact .inl (by simp)
  | cons r l ih =>
    by_cases hr : r.2 = k
    · exact .inr ⟨[],r.1,l,by rw [← hr]; rfl,by simp⟩
    · rcases ih with hnone | ⟨before,p,after,rfl,hbefore⟩
      · exact .inl (List.forall_mem_cons.mpr ⟨hr,hnone⟩)
      · exact .inr ⟨r :: before,p,after,rfl,List.forall_mem_cons.mpr ⟨hr,hbefore⟩⟩

theorem scan_self : (scan k k l).1 = l.head?.map Prod.fst := by
  cases l with
  | nil => rfl
  | cons r l => rw [scan,if_pos rfl]; rfl

theorem scan_of_ne (hb : b ≠ k) (h : ∀ r ∈ l, r.2 ≠ k) : (scan k b l).1 = none := by
  induction l generalizing b with
  | nil => rfl
  | cons r l ih =>
    obtain ⟨hr,hl⟩ := List.forall_mem_cons.mp h
    rw [scan,if_neg hb,ih hr hl]

/-- The lookup goes on behind the first row with the name, with that name in the buffer. -/
theorem scan_named {before : List (π × κ)} (hb : b ≠ k) (h : ∀ r ∈ before, r.2 ≠ k) (p : π)
    (after : List (π × κ)) : scan k b (before ++ (p,k) :: after) = scan k k after := by
  induction before generalizing b with
  | nil => rw [List.nil_append,scan,if_neg hb]
  | cons r before ih =>
    obtain ⟨hr,hbefore⟩ := List.forall_mem_cons.mp h
    rw [List.cons_append,scan,if_neg hb,ih hr hbefore]

theorem scan_append_of_none {l' : List (π × κ)} (h : (scan k b l).1 = none) :
    scan k b (l ++ l') = scan k (scan k b l).2 l' := by
  induction l generalizing b with
  | nil => rfl
  | cons r l ih =>
    rw [scan] at h ⊢
    by_cases hb : b = k
    · rw [if_pos hb] at h
      exact absurd h (by simp)
    · rw [if_neg hb] at h ⊢
      rw [List.cons_append,scan,if_neg hb,ih h]

theorem scan_append_of_some {l' : List (π × κ)} {p : π} (h : (scan k b l).1 = some p) :
    scan k b (l ++ l') = scan k b l := by
  induction l generalizing b with
  | nil => exact absurd h (by simp [scan])
  | cons r l ih =>
    rw [List.cons_append,scan,scan]
    rw [scan] at h
    by_cases hb : b = k
    · rw [if_pos hb,if_pos hb]
    · rw [if_neg hb] at h
      rw [if_neg hb,if_neg hb,ih h]

/-- Behind the first row with the name comes a row of the same path. -/
def NextHasPath (k : κ) (l : List (π × κ)) : Prop :=
  ∀ before p after, l = before ++ (p,k) :: after → (∀ r ∈ before, r.2 ≠ k) →
    ∃ name rest, after = (p,name) :: rest

/-- The row at the head has the path of the first row with the name. -/
def HeadHasPath (k : κ) (l : List (π × κ)) : Prop :=
  ∀ p name rest, l = (p,name) :: rest → first k l = some p

theorem scan_eq_first_iff (hb : b ≠ k) : (scan k b l).1 = first k l ↔ NextHasPath k l := by
  rcases exists_named_or k l with hnone | ⟨before,p,after,rfl,hbefore⟩
  · rw [scan_of_ne hb hnone,first_eq_none_iff.mpr hnone]
    refine ⟨fun _ before p after hl _ => ?_,fun _ => rfl⟩
    exact absurd rfl (hnone (p,k) (by rw [hl]; simp))
  · rw [scan_named hb hbefore,scan_self,first_append hbefore]
    constructor
    · intro h before' p' after' hl hbefore'
      have hscan := scan_named hb hbefore' p' after'
      have hfirst := first_append hbefore' p' after'
      rw [← hl] at hscan hfirst
      rw [scan_named hb hbefore] at hscan
      rw [first_append hbefore] at hfirst
      obtain rfl := Option.some_inj.mp hfirst
      have hhead : after'.head?.map Prod.fst = some p := by
        rw [← h,← scan_self,← scan_self (k := k),hscan]
      cases after' with
      | nil => exact absurd hhead (by simp)
      | cons r rest =>
        obtain rfl := Option.some_inj.mp hhead
        exact ⟨r.2,rest,rfl⟩
    · intro h
      obtain ⟨name,rest,rfl⟩ := h before p after rfl hbefore
      rfl

theorem nextHasPath_iff_of_nodup (h : (l.map Prod.fst).Nodup) :
    NextHasPath k l ↔ ∀ r ∈ l, r.2 ≠ k := by
  constructor
  · intro hnext
    rcases exists_named_or k l with hnone | ⟨before,p,after,rfl,hbefore⟩
    · exact hnone
    · obtain ⟨name,rest,rfl⟩ := hnext before p after rfl hbefore
      simp [List.nodup_append] at h
  · intro hnone before p after hl
    exact absurd rfl (hnone (p,k) (by rw [hl]; simp))

theorem scan_self_eq_first_iff : (scan k k l).1 = first k l ↔ HeadHasPath k l := by
  rw [scan_self]
  cases l with
  | nil =>
    exact ⟨fun _ p name rest h => absurd h (by simp),fun _ => rfl⟩
  | cons r l =>
    constructor
    · intro h p name rest hl
      obtain ⟨rfl,-⟩ := List.cons.inj hl
      exact h.symm
    · intro h
      exact (h r.1 r.2 l rfl).symm

def FindsFirst (k b : κ) (l : List (π × κ)) : Prop :=
  if b = k then HeadHasPath k l else NextHasPath k l

theorem findsFirst_iff : (scan k b l).1 = first k l ↔ FindsFirst k b l := by
  unfold FindsFirst
  split
  · next hb => rw [hb,scan_self_eq_first_iff]
  · next hb => exact scan_eq_first_iff hb

/-- Of a name and the rows behind it none is the name looked for, but for the last of all. -/
def Quiet (k c : κ) (l : List (π × κ)) : Prop := k ∉ (c :: l.map Prod.snd).dropLast

/-- The name in the buffer once all rows are read. -/
def lastName (c : κ) (l : List (π × κ)) : κ :=
  (c :: l.map Prod.snd).getLast (List.cons_ne_nil c _)

omit [DecidableEq κ] in
theorem quiet_cons {c : κ} {r : π × κ} : Quiet k c (r :: l) ↔ c ≠ k ∧ Quiet k r.2 l := by
  rw [Quiet,Quiet,List.map_cons,List.dropLast_cons_of_ne_nil (List.cons_ne_nil _ _),
    List.mem_cons,not_or,ne_comm]

omit [DecidableEq κ] in
theorem quiet_nil (k c : κ) : Quiet k c ([] : List (π × κ)) := List.not_mem_nil

omit [DecidableEq κ] in
theorem quiet_append {c : κ} {l' : List (π × κ)} :
    Quiet k c (l ++ l') ↔ Quiet k c l ∧ Quiet k (lastName c l) l' := by
  induction l generalizing c with
  | nil => exact ⟨fun h => ⟨quiet_nil k c,h⟩,fun h => h.2⟩
  | cons r l ih =>
    have hlast : lastName c (r :: l) = lastName r.2 l := List.getLast_cons _
    rw [List.cons_append,quiet_cons,quiet_cons,ih,hlast,and_assoc]

omit [DecidableEq κ] in
theorem quiet_of_ne {c : κ} (hc : c ≠ k) (h : ∀ r ∈ l, r.2 ≠ k) : Quiet k c l := by
  induction l generalizing c with
  | nil => exact quiet_nil k c
  | cons r l ih =>
    obtain ⟨hr,hl⟩ := List.forall_mem_cons.mp h
    exact quiet_cons.mpr ⟨hc,ih hr hl⟩

omit [DecidableEq κ] in
theorem lastName_ne {c : κ} (hc : c ≠ k) (h : ∀ r ∈ l, r.2 ≠ k) : lastName c l ≠ k := by
  induction l generalizing c with
  | nil => exact hc
  | cons r l ih =>
    obtain ⟨hr,hl⟩ := List.forall_mem_cons.mp h
    have hlast : lastName c (r :: l) = lastName r.2 l := List.getLast_cons _
    rw [hlast]
    exact ih hr hl

/-- Among quiet rows the lookup ends with nothing found, else at one of the rows. -/
theorem scan_cases (k c : κ) (l : List (π × κ)) :
    Quiet k c l ∧ scan k c l = (none,lastName c l) ∨
      ¬Quiet k c l ∧ ∃ r ∈ l, scan k c l = (some r.1,r.2) := by
  induction l generalizing c with
  | nil => exact .inl ⟨quiet_nil k c,rfl⟩
  | cons r l ih =>
    rw [quiet_cons,scan]
    by_cases hc : c = k
    · exact .inr ⟨fun h => h.1 hc,r,List.mem_cons_self,if_pos hc⟩
    · have hlast : lastName c (r :: l) = lastName r.2 l := List.getLast_cons _
      rw [if_neg hc,hlast]
      rcases ih r.2 with ⟨hquiet,hscan⟩ | ⟨hloud,r',hr',hscan⟩
      · exact .inl ⟨⟨hc,hquiet⟩,hscan⟩
      · exact .inr ⟨fun h => hloud h.2,r',List.mem_cons_of_mem r hr',hscan⟩

/-- Lists in groups: a hit ends the lookup in its group only, and of several the last
counts. -/
def sweep (k : κ) : κ → Option π → List (List (π × κ)) → Option π × κ
  | b, m, [] => (m,b)
  | b, m, l :: ls => sweep k (scan k b l).2 ((scan k b l).1.or m) ls

/-- Groups that are quiet are swept without a hit, in others the last hit counts. -/
theorem sweep_cases (k c : κ) (ls : List (List (π × κ))) :
    Quiet k c ls.flatten ∧ (∀ m, (sweep k c m ls).1 = m) ∨
      ¬Quiet k c ls.flatten ∧ ∃ r ∈ ls.flatten, ∀ m, (sweep k c m ls).1 = some r.1 := by
  induction ls generalizing c with
  | nil => exact .inl ⟨quiet_nil k c,fun _ => rfl⟩
  | cons l ls ih =>
    rw [List.flatten_cons,quiet_append]
    rcases scan_cases k c l with ⟨hquiet,hscan⟩ | ⟨hloud,r,hr,hscan⟩
    · simp only [sweep,hscan,Option.none_or]
      rcases ih (lastName c l) with ⟨hrest,hsweep⟩ | ⟨hrest,r,hr,hsweep⟩
      · exact .inl ⟨⟨hquiet,hrest⟩,hsweep⟩
      · exact .inr ⟨fun h => hrest h.2,r,List.mem_append_right l hr,hsweep⟩
    · simp only [sweep,hscan,Option.some_or]
      refine .inr ⟨fun h => hloud h.1,?_⟩
      rcases ih r.2 with ⟨-,hsweep⟩ | ⟨-,r',hr',hsweep⟩
      · exact ⟨r,List.mem_append_left _ hr,fun _ => hsweep (some r.1)⟩
      · exact ⟨r',List.mem_append_right l hr',fun _ => hsweep (some r.1)⟩

variable {ls : List (List (π × κ))}

theorem sweep_append_of_ne {before : List (List (π × κ))} (ls : List (List (π × κ)))
    (hb : b ≠ k) (h : ∀ r ∈ before.flatten, r.2 ≠ k) (m : Option π) :
    ∃ b', b' ≠ k ∧ sweep k b m (before ++ ls) = sweep k b' m ls := by
  induction before generalizing b with
  | nil => exact ⟨b,hb,rfl⟩
  | cons l before ih =>
    have hl : ∀ r ∈ l, r.2 ≠ k := fun r hr => h r (by simp [hr])
    have hbefore : ∀ r ∈ before.flatten, r.2 ≠ k := fun r hr =>
      h r (by rw [List.flatten_cons]; exact List.mem_append_right l hr)
    rcases scan_cases k b l with ⟨-,hscan⟩ | ⟨hloud,-⟩
    · rw [List.cons_append,sweep,hscan]
      exact ih (lastName_ne hb hl) hbefore
    · exact absurd (quiet_of_ne hb hl) hloud

/-- Groups without rows are passed over. -/
theorem sweep_append_of_empty {before : List (List (π × κ))} (h : before.flatten = [])
    (m : Option π) : sweep k b m (before ++ ls) = sweep k b m ls := by
  induction before with
  | nil => rfl
  | cons l before ih =>
    obtain ⟨rfl,hbefore⟩ := List.append_eq_nil_iff.mp h
    exact ih hbefore

theorem exists_group_or (k : κ) (ls : List (List (π × κ))) :
    (∀ r ∈ ls.flatten, r.2 ≠ k) ∨
      ∃ before l p l' after, ls = before ++ (l ++ (p,k) :: l') :: after ∧
        ∀ r ∈ before.flatten ++ l, r.2 ≠ k := by
  induction ls with
  | nil => exact .inl (by simp)
  | cons l ls ih =>
    rcases exists_named_or k l with hnone | ⟨before,p,after,rfl,hbefore⟩
    · rcases ih with hrest | ⟨before,l₁,p,l₂,after,rfl,hbefore⟩
      · refine .inl fun r hr => ?_
        rw [List.flatten_cons] at hr
        exact (List.mem_append.mp hr).elim (hnone r) (hrest r)
      · refine .inr ⟨l :: before,l₁,p,l₂,after,rfl,fun r hr => ?_⟩
        rw [List.flatten_cons,List.append_assoc] at hr
        exact (List.mem_append.mp hr).elim (hnone r) (hbefore r)
    · exact .inr ⟨[],before,p,after,ls,rfl,hbefore⟩

theorem first_group {before : List (List (π × κ))} {l l' : List (π × κ)} {p : π}
    {after : List (List (π × κ))} (h : ∀ r ∈ before.flatten ++ l, r.2 ≠ k) :
    first k (before ++ (l ++ (p,k) :: l') :: after).flatten = some p := by
  have hflat : (before ++ (l ++ (p,k) :: l') :: after).flatten =
      (before.flatten ++ l) ++ (p,k) :: (l' ++ after.flatten) := by simp
  rw [hflat,first_append h]

/-- Right behind the first row with the name comes in its group a row of the same path, and
of that row and those of the groups behind none but the last of all has the name. -/
def NextEndsSweep (k : κ) (ls : List (List (π × κ))) : Prop :=
  ∀ before l p l' after, ls = before ++ (l ++ (p,k) :: l') :: after →
    (∀ r ∈ before.flatten ++ l, r.2 ≠ k) →
    ∃ name rest, l' = (p,name) :: rest ∧ Quiet k name after.flatten

/-- The first row of all has the path of the first with the name in its group, and of it and
the rows of the groups behind none but the last of all has the name; or its group has no row
with the name and a group behind it does. -/
def HeadEndsSweep (k : κ) (ls : List (List (π × κ))) : Prop :=
  ∀ before p name l after, ls = before ++ ((p,name) :: l) :: after → before.flatten = [] →
    first k ((p,name) :: l) = some p ∧ Quiet k name after.flatten ∨
    (∀ r ∈ (p,name) :: l, r.2 ≠ k) ∧ (∃ r ∈ after.flatten, r.2 = k) ∧ NextEndsSweep k after

def SweepsFirst (k b : κ) (ls : List (List (π × κ))) : Prop :=
  if b = k then HeadEndsSweep k ls else NextEndsSweep k ls

/-- No path is that of rows in two groups. -/
def PathsApart (ls : List (List (π × κ))) : Prop :=
  ls.Pairwise fun l l' => ∀ r ∈ l, ∀ r' ∈ l', r.1 ≠ r'.1

/-- Behind the first row with the name the sweep goes on with the row that comes next. -/
theorem sweep_named (hb : b ≠ k) {before : List (List (π × κ))} {l : List (π × κ)}
    (h : ∀ r ∈ before.flatten ++ l, r.2 ≠ k) (p : π) (l' : List (π × κ))
    (after : List (List (π × κ))) :
    sweep k b none (before ++ (l ++ (p,k) :: l') :: after) =
      match l' with
      | [] => sweep k k none after
      | r :: _ => sweep k r.2 (some r.1) after := by
  obtain ⟨b',hb',hsweep⟩ := sweep_append_of_ne ((l ++ (p,k) :: l') :: after) hb
    (fun r hr => h r (List.mem_append_left l hr)) none
  rw [hsweep,sweep,scan_named hb' fun r hr => h r (List.mem_append_right _ hr)]
  cases l' with
  | nil => rfl
  | cons r l' => rw [scan,if_pos rfl,Option.some_or]

theorem sweep_of_nextEndsSweep (hb : b ≠ k) (h : NextEndsSweep k ls) :
    (sweep k b none ls).1 = first k ls.flatten := by
  rcases exists_group_or k ls with hnone | ⟨before,l,p,l',after,rfl,hbefore⟩
  · rw [first_eq_none_iff.mpr hnone]
    rcases sweep_cases k b ls with ⟨-,hsweep⟩ | ⟨hloud,-⟩
    · exact hsweep none
    · exact absurd (quiet_of_ne hb hnone) hloud
  · obtain ⟨name,rest,rfl,hquiet⟩ := h before l p l' after rfl hbefore
    rw [first_group hbefore,sweep_named hb hbefore]
    rcases sweep_cases k name after with ⟨-,hsweep⟩ | ⟨hloud,-⟩
    · exact hsweep (some p)
    · exact absurd hquiet hloud

theorem nextEndsSweep_of_sweep (hb : b ≠ k) (hapart : PathsApart ls)
    (h : (sweep k b none ls).1 = first k ls.flatten) : NextEndsSweep k ls := by
  rintro before l p l' after rfl hbefore
  rw [first_group hbefore,sweep_named hb hbefore] at h
  have hafter : ∀ r ∈ after.flatten, r.1 ≠ p := by
    intro r hr he
    obtain ⟨l₁,hl₁,hr⟩ := List.mem_flatten.mp hr
    have hgroup := List.rel_of_pairwise_cons (List.pairwise_append.mp hapart).2.1 hl₁
    exact hgroup (p,k) (by simp) r hr he.symm
  cases l' with
  | nil =>
    rcases sweep_cases k k after with ⟨-,hsweep⟩ | ⟨-,r,hr,hsweep⟩
    · exact absurd ((hsweep none).symm.trans h) (by simp)
    · exact absurd (Option.some_inj.mp ((hsweep none).symm.trans h)) (hafter r hr)
  | cons r rest =>
    rcases sweep_cases k r.2 after with ⟨hquiet,hsweep⟩ | ⟨-,r',hr',hsweep⟩
    · obtain rfl := Option.some_inj.mp ((hsweep (some r.1)).symm.trans h)
      exact ⟨r.2,rest,rfl,hquiet⟩
    · exact absurd (Option.some_inj.mp ((hsweep (some r.1)).symm.trans h)) (hafter r' hr')

omit [DecidableEq κ] in
theorem exists_head_or (ls : List (List (π × κ))) :
    ls.flatten = [] ∨
      ∃ before p name l after, ls = before ++ ((p,name) :: l) :: after ∧ before.flatten = [] := by
  induction ls with
  | nil => exact .inl rfl
  | cons l ls ih =>
    cases l with
    | nil =>
      rcases ih with hnone | ⟨before,p,name,l,after,rfl,hbefore⟩
      · exact .inl hnone
      · exact .inr ⟨[] :: before,p,name,l,after,rfl,hbefore⟩
    | cons r l => exact .inr ⟨[],r.1,r.2,l,ls,rfl,rfl⟩

theorem sweep_head {before : List (List (π × κ))} (h : before.flatten = []) (p : π) (name : κ)
    (l : List (π × κ)) (after : List (List (π × κ))) :
    sweep k k none (before ++ ((p,name) :: l) :: after) = sweep k name (some p) after := by
  rw [sweep_append_of_empty h,sweep,scan,if_pos rfl,Option.some_or]

theorem first_append_of_some {l' : List (π × κ)} {p : π} (h : first k l = some p) :
    first k (l ++ l') = some p := by
  obtain ⟨r,hr,rfl⟩ := Option.map_eq_some_iff.mp h
  rw [first,List.find?_append,hr,Option.some_or,Option.map_some]

theorem first_append_of_ne {l' : List (π × κ)} (h : ∀ r ∈ l, r.2 ≠ k) :
    first k (l ++ l') = first k l' := by
  have hnone : l.find? (fun r => r.2 = k) = none :=
    List.find?_eq_none.mpr fun r hr => by simpa using h r hr
  rw [first,List.find?_append,hnone,Option.none_or,first]

theorem mem_of_first {p : π} (h : first k l = some p) : ∃ r ∈ l, r.2 = k ∧ r.1 = p := by
  obtain ⟨r,hr,rfl⟩ := Option.map_eq_some_iff.mp h
  exact ⟨r,List.mem_of_find?_eq_some hr,by simpa using List.find?_some hr,rfl⟩

theorem first_flatten {before : List (List (π × κ))} (h : before.flatten = [])
    (l : List (π × κ)) (after : List (List (π × κ))) :
    first k (before ++ l :: after).flatten = first k (l ++ after.flatten) := by
  rw [List.flatten_append,h,List.nil_append,List.flatten_cons]

theorem sweep_of_headEndsSweep (h : HeadEndsSweep k ls) :
    (sweep k k none ls).1 = first k ls.flatten := by
  rcases exists_head_or ls with hnone | ⟨before,p,name,l,after,rfl,hbefore⟩
  · rcases sweep_cases k k ls with ⟨-,hsweep⟩ | ⟨hloud,-⟩
    · rw [hsweep none,hnone]
      rfl
    · exact absurd (hnone ▸ quiet_nil k k) hloud
  · rw [sweep_head hbefore,first_flatten hbefore]
    rcases h before p name l after rfl hbefore with ⟨hfirst,hquiet⟩ | ⟨hno,⟨r,hr,hname⟩,hnext⟩
    · rw [first_append_of_some hfirst]
      rcases sweep_cases k name after with ⟨-,hsweep⟩ | ⟨hloud,-⟩
      · exact hsweep (some p)
      · exact absurd hquiet hloud
    · have hswept := sweep_of_nextEndsSweep (hno (p,name) List.mem_cons_self) hnext
      rw [first_append_of_ne hno,← hswept]
      rcases sweep_cases k name after with ⟨-,hsweep⟩ | ⟨-,r',-,hsweep⟩
      · rw [hsweep none,eq_comm,first_eq_none_iff] at hswept
        exact absurd hname (hswept r hr)
      · rw [hsweep (some p),hsweep none]

theorem headEndsSweep_of_sweep (hapart : PathsApart ls)
    (h : (sweep k k none ls).1 = first k ls.flatten) : HeadEndsSweep k ls := by
  rintro before p name l after rfl hbefore
  rw [sweep_head hbefore,first_flatten hbefore] at h
  have htail := (List.pairwise_append.mp hapart).2.1
  have hgroup : ∀ r ∈ (p,name) :: l, ∀ r' ∈ after.flatten, r.1 ≠ r'.1 := by
    intro r hr r' hr'
    obtain ⟨l₁,hl₁,hr'⟩ := List.mem_flatten.mp hr'
    exact List.rel_of_pairwise_cons htail hl₁ r hr r' hr'
  cases hfirst : first k ((p,name) :: l) with
  | some q =>
    obtain ⟨r,hr,-,rfl⟩ := mem_of_first hfirst
    rw [first_append_of_some hfirst] at h
    rcases sweep_cases k name after with ⟨hquiet,hsweep⟩ | ⟨-,r',hr',hsweep⟩
    · exact .inl ⟨h.symm.trans (hsweep (some p)),hquiet⟩
    · exact absurd (Option.some_inj.mp (h.symm.trans (hsweep (some p)))) (hgroup r hr r' hr')
  | none =>
    have hno := first_eq_none_iff.mp hfirst
    rw [first_append_of_ne hno] at h
    rcases sweep_cases k name after with ⟨-,hsweep⟩ | ⟨-,r',-,hsweep⟩
    · obtain ⟨r,hr,-,hp⟩ := mem_of_first (h.symm.trans (hsweep (some p)))
      exact absurd hp.symm (hgroup (p,name) List.mem_cons_self r hr)
    · rw [hsweep (some p)] at h
      obtain ⟨r,hr,hname,-⟩ := mem_of_first h.symm
      refine .inr ⟨hno,⟨r,hr,hname⟩,?_⟩
      exact nextEndsSweep_of_sweep (hno (p,name) List.mem_cons_self) htail.of_cons
        ((hsweep none).trans h)

theorem sweep_of_sweepsFirst (h : SweepsFirst k b ls) :
    (sweep k b none ls).1 = first k ls.flatten := by
  unfold SweepsFirst at h
  split at h
  · next hb =>
    obtain rfl := hb
    exact sweep_of_headEndsSweep h
  · next hb => exact sweep_of_nextEndsSweep hb h

theorem sweep_eq_first_iff (hapart : PathsApart ls) :
    (sweep k b none ls).1 = first k ls.flatten ↔ SweepsFirst k b ls := by
  refine ⟨fun h => ?_,sweep_of_sweepsFirst⟩
  unfold SweepsFirst
  split
  · next hb =>
    obtain rfl := hb
    exact headEndsSweep_of_sweep hapart h
  · next hb => exact nextEndsSweep_of_sweep hb hapart h

end StaleLookup
