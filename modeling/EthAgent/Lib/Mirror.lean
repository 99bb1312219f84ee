import EthAgent.Lib.Presence
import Mathlib.Algebra.Ring.Parity
import Mathlib.Data.List.Induction

/-!
A copy of a changing set that is kept by notices, of which some are lost. A change notice
says that a key arrived or left; a refresh says once more that a key is there. What the
copy says of a key is right exactly if the number of changes that it has missed since it
last heard of the key is even: `heard_iff`.
-/

set_option autoImplicit false

namespace Mirror
open Presence

universe u
variable {κ : Type u}

structure Notice (κ : Type u) where
  key : κ
  present : Bool
  refresh : Bool
  received : Bool

def changes (log : List (Notice κ)) : List (κ × Bool) :=
  (log.filter fun e => !e.refresh).map fun e => (e.key,e.present)

section keys
variable [DecidableEq κ]

def heard (k : κ) (log : List (Notice κ)) : Option Bool :=
  latest k ((log.filter Notice.received).map fun e => (e.key,e.present))

def missedNext (k : κ) (n : Nat) (e : Notice κ) : Nat :=
  if e.key = k then (if e.received then 0 else if e.refresh then n else n+1) else n

/-- The changes of the key that were lost after the last notice received about it. -/
def missed (k : κ) (log : List (Notice κ)) : Nat := log.foldl (missedNext k) 0

def Truthful (log : List (Notice κ)) : Prop :=
  ∀ before e after, log = before ++ e :: after → e.refresh = true →
    e.present = true ∧ latest e.key (changes before) = some true

end keys

variable {log : List (Notice κ)} {e : Notice κ}

theorem changes_append (log log' : List (Notice κ)) :
    changes (log ++ log') = changes log ++ changes log' := by
  simp [changes]

theorem changes_snoc_change (h : e.refresh = false) :
    changes (log ++ [e]) = changes log ++ [(e.key,e.present)] := by
  simp [changes,h]

theorem changes_snoc_refresh (h : e.refresh = true) : changes (log ++ [e]) = changes log := by
  simp [changes,h]

variable [DecidableEq κ]

theorem missed_snoc (k : κ) (log : List (Notice κ)) (e : Notice κ) :
    missed k (log ++ [e]) = missedNext k (missed k log) e :=
  List.foldl_concat ..

theorem latest_snoc (k l : κ) (b : Bool) (entries : List (κ × Bool)) :
    latest k (entries ++ [(l,b)]) = if l = k then some b else latest k entries := by
  split
  · next h => rw [h,latest,stream_snoc_self,List.getLast?_concat]
  · next h => rw [latest,stream_snoc_ne h,latest]

theorem heard_snoc (k : κ) (log : List (Notice κ)) (e : Notice κ) :
    heard k (log ++ [e]) =
      if e.received = true ∧ e.key = k then some e.present else heard k log := by
  cases hr : e.received with
  | false => simp [heard,hr]
  | true =>
    have hsplit : (log ++ [e]).filter Notice.received = log.filter Notice.received ++ [e] := by
      simp [hr]
    rw [heard,hsplit,List.map_append,List.map_singleton,latest_snoc]
    simp [heard]

theorem truthful_snoc_iff :
    Truthful (log ++ [e]) ↔ Truthful log ∧
      (e.refresh = true → e.present = true ∧ latest e.key (changes log) = some true) := by
  constructor
  · intro h
    refine ⟨fun before e' after hlog => h before e' (after ++ [e]) ?_,h log e [] rfl⟩
    rw [hlog,List.append_assoc,List.cons_append]
  · rintro ⟨hlog,he⟩ before e' after hsplit
    rcases List.eq_nil_or_concat after with rfl | ⟨after',e'',rfl⟩
    · obtain ⟨rfl,heq⟩ := List.append_inj' hsplit rfl
      obtain rfl := List.singleton_inj.mp heq
      exact he
    · rw [List.concat_eq_append,← List.cons_append,← List.append_assoc] at hsplit
      exact hlog before e' after' (List.append_inj' hsplit rfl).1

theorem Truthful.append_changes {batch : List (Notice κ)} (h : Truthful log)
    (hbatch : ∀ e ∈ batch, e.refresh = false) : Truthful (log ++ batch) := by
  induction batch generalizing log with
  | nil => rwa [List.append_nil]
  | cons e batch ih =>
    have he := hbatch e List.mem_cons_self
    rw [List.append_cons]
    refine ih (truthful_snoc_iff.mpr ⟨h,fun hr => ?_⟩) fun e' h' =>
      hbatch e' (List.mem_cons_of_mem e h')
    exact absurd (hr.symm.trans he) (by decide)

theorem Truthful.append_refreshes {batch : List (Notice κ)} (h : Truthful log)
    (hbatch : ∀ e ∈ batch, e.refresh = true ∧ e.present = true ∧
      latest e.key (changes log) = some true) : Truthful (log ++ batch) := by
  induction batch generalizing log with
  | nil => rwa [List.append_nil]
  | cons e batch ih =>
    obtain ⟨hrefresh,he⟩ := hbatch e List.mem_cons_self
    rw [List.append_cons]
    refine ih (truthful_snoc_iff.mpr ⟨h,fun _ => he⟩) fun e' h' => ?_
    rw [changes_snoc_refresh hrefresh]
    exact hbatch e' (List.mem_cons_of_mem e h')

theorem alternates_change (he : e.refresh = false)
    (h : Alternates true (stream e.key (changes (log ++ [e])))) :
    e.present = true ↔ ¬ latest e.key (changes log) = some true := by
  rw [changes_snoc_change he,stream_snoc_self,alternates_append_singleton] at h
  rw [h.2,latest]
  cases (stream e.key (changes log)).getLast? with
  | none => simp
  | some b => cases b <;> simp

theorem alternates_init (k : κ)
    (h : Alternates true (stream k (changes (log ++ [e])))) :
    Alternates true (stream k (changes log)) := by
  cases he : e.refresh with
  | true => rwa [changes_snoc_refresh he] at h
  | false =>
    rw [changes_snoc_change he] at h
    by_cases hk : e.key = k
    · subst hk
      rw [stream_snoc_self,alternates_append_singleton] at h
      exact h.1
    · rwa [stream_snoc_ne hk] at h

/-- Whatever is lost, the copy holds a key as present exactly if the key is there and an
even number of its changes was missed, or is not there and an odd number was. -/
theorem heard_iff (halternates : ∀ k, Alternates true (stream k (changes log)))
    (htruth : Truthful log) (k : κ) :
    heard k log = some true ↔
      (latest k (changes log) = some true ↔ Even (missed k log)) := by
  induction log using List.reverseRecOn with
  | nil => simp [heard,latest,stream,changes,missed]
  | append_singleton log e ih =>
    obtain ⟨htruth,he⟩ := truthful_snoc_iff.mp htruth
    have hold := ih (fun k => alternates_init k (halternates k)) htruth
    rw [heard_snoc,missed_snoc,missedNext]
    by_cases hk : e.key = k
    · subst hk
      cases hrefresh : e.refresh with
      | true =>
        obtain ⟨hpresent,hthere⟩ := he hrefresh
        rw [changes_snoc_refresh hrefresh]
        cases hr : e.received with
        | true => simp [hpresent,hthere]
        | false => simpa using hold
      | false =>
        have hflip := alternates_change hrefresh (halternates e.key)
        rw [changes_snoc_change hrefresh,latest_snoc,if_pos rfl]
        cases hr : e.received with
        | true => simp
        | false =>
          simp only [Bool.false_eq_true,false_and,if_false,if_true,Option.some_inj,hflip,hold,
            Nat.even_add_one]
          tauto
    · have hchanges : latest k (changes (log ++ [e])) = latest k (changes log) := by
        cases hrefresh : e.refresh with
        | true => rw [changes_snoc_refresh hrefresh]
        | false => rw [changes_snoc_change hrefresh,latest_snoc,if_neg hk]
      rw [hchanges,if_neg fun h => hk h.2,if_neg hk]
      exact hold

/-- A batch of notices that are all received, and all say present, takes nothing away. -/
theorem heard_append_present {batch : List (Notice κ)}
    (hbatch : ∀ e ∈ batch, e.received = true ∧ e.present = true) (k : κ) :
    heard k (log ++ batch) = some true ↔
      (∃ e ∈ batch, e.key = k) ∨ heard k log = some true := by
  induction batch generalizing log with
  | nil => simp
  | cons e batch ih =>
    obtain ⟨hreceived,hpresent⟩ := hbatch e List.mem_cons_self
    rw [List.append_cons,ih fun e' h' => hbatch e' (List.mem_cons_of_mem e h'),heard_snoc]
    by_cases hk : e.key = k
    · simp [hk,hreceived,hpresent]
    · simp [hk]

end Mirror
