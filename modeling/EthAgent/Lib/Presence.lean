import Mathlib.Data.Set.Insert
import Mathlib.Data.List.Basic

/-!
Logs of arrivals and departures, for keys of any type. An entry `(k,true)` says
that `k` arrived and `(k,false)` that it left. A log tracks a set when every key
arrives and leaves in turn and the set holds the keys that arrived last.
-/

set_option autoImplicit false

namespace Presence

universe u
variable {κ : Type u} [DecidableEq κ]

/-- The entries about one key, oldest first. -/
def stream (k : κ) (log : List (κ × Bool)) : List Bool :=
  (log.filter (fun e => e.1 = k)).map Prod.snd

def latest (k : κ) (log : List (κ × Bool)) : Option Bool := (stream k log).getLast?

/-- The values flip at each place, beginning with `b`. -/
def Alternates : Bool → List Bool → Prop
  | _, [] => True
  | b, c :: cs => c = b ∧ Alternates (!b) cs

instance decidableAlternates : (b : Bool) → (cs : List Bool) → Decidable (Alternates b cs)
  | _, [] => .isTrue trivial
  | b, c :: cs =>
    have := decidableAlternates (!b) cs
    inferInstanceAs (Decidable (c = b ∧ Alternates (!b) cs))

theorem alternates_append_singleton (b c : Bool) (cs : List Bool) :
    Alternates b (cs ++ [c]) ↔ Alternates b cs ∧ c = (cs.getLast?.map not).getD b := by
  induction cs generalizing b with
  | nil => simp [Alternates]
  | cons x xs ih =>
    simp only [List.cons_append,Alternates,ih,and_assoc]
    refine and_congr_right fun hx => and_congr_right fun _ => ?_
    cases xs with
    | nil => simp [hx]
    | cons y ys =>
      have hlast := List.getLast?_eq_some_getLast (List.cons_ne_nil y ys)
      simp only [List.getLast?_cons_cons,hlast,Option.map_some,Option.getD_some]

theorem stream_snoc_self (k : κ) (b : Bool) (log : List (κ × Bool)) :
    stream k (log ++ [(k,b)]) = stream k log ++ [b] := by
  simp [stream]

theorem stream_snoc_ne {k l : κ} (hne : l ≠ k) (b : Bool) (log : List (κ × Bool)) :
    stream k (log ++ [(l,b)]) = stream k log := by
  simp [stream,hne]

structure Tracks (log : List (κ × Bool)) (s : Set κ) : Prop where
  alternates : ∀ k, Alternates true (stream k log)
  present : ∀ k, k ∈ s ↔ latest k log = some true

theorem Tracks.unique {log : List (κ × Bool)} {s s' : Set κ} (h : Tracks log s)
    (h' : Tracks log s') : s = s' :=
  Set.ext fun k => (h.present k).trans (h'.present k).symm

theorem Tracks.nil : Tracks ([] : List (κ × Bool)) ∅ :=
  ⟨fun _ => trivial,fun _ => by simp [latest,stream]⟩

/-- An entry that says the opposite of what the log said last keeps it in step. -/
theorem Tracks.snoc {log : List (κ × Bool)} {s s' : Set κ} (h : Tracks log s)
    {k : κ} {b : Bool} (hk : k ∈ s ↔ b = false) (hk' : k ∈ s' ↔ b = true)
    (hother : ∀ l, l ≠ k → (l ∈ s' ↔ l ∈ s)) : Tracks (log ++ [(k,b)]) s' := by
  have hp := h.present k
  constructor
  · intro l
    by_cases hl : k = l
    · subst l
      rw [stream_snoc_self,alternates_append_singleton]
      refine ⟨h.alternates k,?_⟩
      -- a key never heard of is absent, so its first entry is an arrival
      unfold latest at hp
      cases hlast : (stream k log).getLast? with
      | none => cases b <;> simp_all
      | some c => cases b <;> cases c <;> simp_all
    · rw [stream_snoc_ne hl]
      exact h.alternates l
  · intro l
    by_cases hl : k = l
    · subst l
      simp [latest,stream_snoc_self,hk']
    · rw [latest,stream_snoc_ne hl,hother l (Ne.symm hl)]
      exact h.present l

theorem Tracks.arrive {log : List (κ × Bool)} {s : Set κ} (h : Tracks log s) {k : κ}
    (hk : k ∉ s) : Tracks (log ++ [(k,true)]) (insert k s) := by
  refine h.snoc (by simp [hk]) (by simp) fun l hl => ?_
  simp [hl]

theorem Tracks.leave {log : List (κ × Bool)} {s : Set κ} (h : Tracks log s) {k : κ}
    (hk : k ∈ s) : Tracks (log ++ [(k,false)]) (s \ {k}) := by
  refine h.snoc (by simp [hk]) (by simp) fun l hl => ?_
  simp [hl]

section Switch

variable {log : List (κ × Bool)} {k : κ} {p q : Prop}

/-- A set that holds one key or none, and the entry that its change asks for. -/
theorem Tracks.switch [Decidable p] [Decidable q] (h : Tracks log {x | p ∧ k = x}) :
    Tracks (log ++ if q ↔ p then [] else [(k,decide q)]) {x | q ∧ k = x} := by
  by_cases hqp : q ↔ p
  · rw [if_pos hqp,List.append_nil]
    simpa only [hqp] using h
  · rw [if_neg hqp]
    refine h.snoc ?_ (by simp) fun l hl => ?_
    · simp only [Set.mem_ofPred_eq,and_true,decide_eq_false_iff_not]
      by_cases hp : p <;> by_cases hq : q <;> simp_all
    · simp [Ne.symm hl]

theorem Tracks.missed_switch (h : Tracks log {x | p ∧ k = x}) (hqp : q ↔ ¬ p) :
    ¬ Tracks log {x | q ∧ k = x} := by
  intro h'
  have hsame : p ∧ k = k ↔ q ∧ k = k := Set.ext_iff.mp (h.unique h') k
  simp only [and_true] at hsame
  exact (iff_not_self : ¬ (p ↔ ¬ p)) (hsame.trans hqp)

end Switch

end Presence
