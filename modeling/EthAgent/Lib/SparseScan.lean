import Mathlib.Data.Nat.Count

/-!
A scan over a sequence with gaps. It asks place after place, counts the answers, and
ends at the first answer that is wanted or behind the announced number of them. It
need not end: nothing bounds the gaps.
-/

set_option autoImplicit false

namespace SparseScan

universe u
variable {α : Type u}

/-- The scan from the place `k` on, `i` answers being counted; `none` without fuel. -/
def scanPlaces (reply : Nat → Option α) (wanted : α → Bool) (announced : Nat) :
    Nat → Nat → Nat → Option (Option Nat)
  | 0, _, _ => none
  | fuel+1, k, i =>
    if i < announced then
      match reply k with
      | none => scanPlaces reply wanted announced fuel (k+1) i
      | some a =>
        if wanted a then some (some k) else scanPlaces reply wanted announced fuel (k+1) (i+1)
    else some none

def answersBefore (reply : Nat → Option α) (k : Nat) : Nat :=
  Nat.count (fun j => (reply j).isSome) k

def WantedAt (reply : Nat → Option α) (wanted : α → Bool) (announced k : Nat) : Prop :=
  (∃ a, reply k = some a ∧ wanted a = true) ∧ answersBefore reply k < announced

/-- The place of the first hit, if there is one. -/
def IsFirst (reply : Nat → Option α) (wanted : α → Bool) (announced : Nat) :
    Option Nat → Prop
  | some k => WantedAt reply wanted announced k ∧ ∀ j < k, ¬ WantedAt reply wanted announced j
  | none => ∀ k, ¬ WantedAt reply wanted announced k

/-- What a scan can come to an end at. -/
def Bounded (reply : Nat → Option α) (wanted : α → Bool) (announced : Nat) : Prop :=
  (∃ k, WantedAt reply wanted announced k) ∨ ∃ k, announced ≤ answersBefore reply k

variable {reply : Nat → Option α} {wanted : α → Bool} {announced : Nat}

theorem answersBefore_succ (reply : Nat → Option α) (k : Nat) :
    answersBefore reply (k+1) = answersBefore reply k+if (reply k).isSome then 1 else 0 :=
  Nat.count_succ _ _

theorem not_hit_of_le {k j : Nat} (h : announced ≤ answersBefore reply k) (hj : k ≤ j) :
    ¬ WantedAt reply wanted announced j := by
  intro hhit
  have hmono : answersBefore reply k ≤ answersBefore reply j := Nat.count_monotone _ hj
  have hlt := hhit.2
  omega

theorem scan_end {k : Nat} (h : announced ≤ answersBefore reply k) (fuel : Nat) :
    scanPlaces reply wanted announced (fuel+1) k (answersBefore reply k) = some none := by
  rw [scanPlaces,if_neg (Nat.not_lt.mpr h)]

theorem scan_hit {k : Nat} (h : WantedAt reply wanted announced k) (fuel : Nat) :
    scanPlaces reply wanted announced (fuel+1) k (answersBefore reply k) = some (some k) := by
  obtain ⟨⟨a,ha,hwanted⟩,hlt⟩ := h
  simp [scanPlaces,hlt,ha,hwanted]

theorem scan_pass {k : Nat} (hlt : answersBefore reply k < announced)
    (h : ¬ WantedAt reply wanted announced k) (fuel : Nat) :
    scanPlaces reply wanted announced (fuel+1) k (answersBefore reply k) =
      scanPlaces reply wanted announced fuel (k+1) (answersBefore reply (k+1)) := by
  rw [scanPlaces,if_pos hlt,answersBefore_succ]
  cases ha : reply k with
  | none => rfl
  | some a =>
    have hunwanted : ¬ wanted a = true := fun hwanted => h ⟨⟨a,ha,hwanted⟩,hlt⟩
    exact if_neg hunwanted

theorem scan_isFirst {fuel k : Nat} {r : Option Nat}
    (hbefore : ∀ j < k, ¬ WantedAt reply wanted announced j)
    (h : scanPlaces reply wanted announced fuel k (answersBefore reply k) = some r) :
    IsFirst reply wanted announced r ∧ Bounded reply wanted announced := by
  induction fuel generalizing k with
  | zero => exact absurd h (by simp [scanPlaces])
  | succ fuel ih =>
    by_cases hend : announced ≤ answersBefore reply k
    · rw [scan_end hend,Option.some_inj] at h
      rw [← h]
      refine ⟨fun j => ?_,.inr ⟨k,hend⟩⟩
      rcases Nat.lt_or_ge j k with hj | hj
      · exact hbefore j hj
      · exact not_hit_of_le hend hj
    · by_cases hhit : WantedAt reply wanted announced k
      · rw [scan_hit hhit,Option.some_inj] at h
        rw [← h]
        exact ⟨⟨hhit,hbefore⟩,.inl ⟨k,hhit⟩⟩
      · rw [scan_pass (Nat.lt_of_not_le hend) hhit] at h
        refine ih (fun j hj => ?_) h
        rcases Nat.lt_succ_iff_lt_or_eq.mp hj with hj | rfl
        · exact hbefore j hj
        · exact hhit

theorem scan_ends {m k : Nat}
    (h : WantedAt reply wanted announced (k+m) ∨ announced ≤ answersBefore reply (k+m)) :
    ∃ r, scanPlaces reply wanted announced (m+1) k (answersBefore reply k) = some r := by
  induction m generalizing k with
  | zero =>
    rcases h with hhit | hend
    · exact ⟨_,scan_hit hhit 0⟩
    · exact ⟨_,scan_end hend 0⟩
  | succ m ih =>
    by_cases hend : announced ≤ answersBefore reply k
    · exact ⟨_,scan_end hend (m+1)⟩
    · by_cases hhit : WantedAt reply wanted announced k
      · exact ⟨_,scan_hit hhit (m+1)⟩
      · rw [scan_pass (Nat.lt_of_not_le hend) hhit]
        rw [← Nat.add_assoc,Nat.add_right_comm] at h
        exact ih h

theorem answersBefore_zero (reply : Nat → Option α) : answersBefore reply 0 = 0 :=
  Nat.count_zero _

theorem isFirst_of_scan {fuel : Nat} {r : Option Nat}
    (h : scanPlaces reply wanted announced fuel 0 0 = some r) :
    IsFirst reply wanted announced r ∧ Bounded reply wanted announced := by
  rw [← answersBefore_zero reply] at h
  exact scan_isFirst (fun j hj => absurd hj (Nat.not_lt_zero j)) h

theorem exists_scanPlaces_iff :
    (∃ fuel r, scanPlaces reply wanted announced fuel 0 0 = some r) ↔
      Bounded reply wanted announced := by
  constructor
  · rintro ⟨fuel,r,h⟩
    exact (isFirst_of_scan h).2
  · intro h
    obtain ⟨m,hm⟩ : ∃ m, WantedAt reply wanted announced (0+m) ∨
        announced ≤ answersBefore reply (0+m) := by
      simp only [Nat.zero_add]
      exact exists_or.mpr h
    obtain ⟨r,hr⟩ := scan_ends hm
    exact ⟨m+1,r,by rwa [answersBefore_zero] at hr⟩

section Follows

variable {β : Type u} {γ : Type u} {loop : Nat → Option β} {path : β → γ}
  {out : Option Nat → γ}

theorem ends_iff_of_follows
    (h : ∀ fuel, (loop fuel).map path = (scanPlaces reply wanted announced fuel 0 0).map out) :
    (∃ fuel s, loop fuel = some s) ↔ Bounded reply wanted announced := by
  rw [← exists_scanPlaces_iff]
  refine exists_congr fun fuel => ?_
  have hends := congrArg Option.isSome (h fuel)
  rw [Option.isSome_map,Option.isSome_map] at hends
  rw [← Option.isSome_iff_exists,← Option.isSome_iff_exists,hends]

theorem first_of_follows
    (h : ∀ fuel, (loop fuel).map path = (scanPlaces reply wanted announced fuel 0 0).map out)
    {fuel : Nat} {s : β} (hs : loop fuel = some s) :
    ∃ r, IsFirst reply wanted announced r ∧ path s = out r := by
  have hscan := h fuel
  rw [hs,Option.map_some,eq_comm,Option.map_eq_some_iff] at hscan
  obtain ⟨r,hr,heq⟩ := hscan
  exact ⟨r,(isFirst_of_scan hr).1,heq.symm⟩

end Follows

end SparseScan
