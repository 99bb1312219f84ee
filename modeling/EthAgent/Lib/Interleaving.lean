import EthAgent.Lib.Runs
import Mathlib.Data.List.Perm.Basic

/-!
Calls cut into sections, each of them atomic, and the threads that execute them
over one shared state. Between the sections of one call, those of any others may
come. What a thread relies on between its sections has to survive the sections of
all other threads: `Sound.step` is that rule.
-/

set_option autoImplicit false

namespace Interleaving
open Runs

universe u v w x y
variable {σ : Type u} {π : Type v} {κ : Type w} {α : Type x} {ε : Type y}

/-- What a section leaves: the shared state, the points at which threads go on
because of it, and the events it emits. -/
structure Outcome (σ : Type u) (π : Type v) (ε : Type y) where
  shared : σ
  threads : List π
  events : List ε

/-- `enter` is the first section of a call, `resume` the section at a point. -/
structure Program (σ : Type u) (π : Type v) (κ : Type w) (α : Type x) (ε : Type y) where
  enter : σ → κ → Outcome σ π ε
  resume : σ → π → α → Outcome σ π ε

/-- The shared state, and the point of each thread that is inside a call. -/
structure Conf (σ : Type u) (π : Type v) where
  shared : σ
  threads : List π

/-- A new call, or the next section of the thread at a place of the list, with
what the environment answers in it. -/
inductive Event (κ : Type w) (α : Type x) where
  | enter (call : κ)
  | resume (i : Nat) (answer : α)

def outcome (m : Program σ π κ α ε) (c : Conf σ π) : Event κ α → Option (Outcome σ π ε)
  | .enter call => some (m.enter c.shared call)
  | .resume i answer => (c.threads[i]?).map fun p => m.resume c.shared p answer

/-- The threads that an event does not move. -/
def rest (c : Conf σ π) : Event κ α → List π
  | .enter _ => c.threads
  | .resume i _ => c.threads.eraseIdx i

def step (m : Program σ π κ α ε) (c : Conf σ π) (ev : Event κ α) : Conf σ π × List ε :=
  match outcome m c ev with
  | none => (c,[])
  | some o => (⟨o.shared,o.threads ++ rest c ev⟩,o.events)

def stepLog (m : Program σ π κ α ε) (q : Conf σ π × List ε) (ev : Event κ α) :
    Conf σ π × List ε :=
  logged (step m) q ev

variable {m : Program σ π κ α ε} {c : Conf σ π} {ev : Event κ α} {o : Outcome σ π ε} {p : π}

theorem step_none (h : outcome m c ev = none) : step m c ev = (c,[]) := by
  rw [step,h]

theorem step_some (h : outcome m c ev = some o) :
    step m c ev = (⟨o.shared,o.threads ++ rest c ev⟩,o.events) := by
  rw [step,h]

theorem stepLog_none {q : Conf σ π × List ε} (h : outcome m q.1 ev = none) :
    stepLog m q ev = q := by
  rw [stepLog,logged,step_none h,List.append_nil]

theorem stepLog_some {q : Conf σ π × List ε} (h : outcome m q.1 ev = some o) :
    stepLog m q ev = (⟨o.shared,o.threads ++ rest q.1 ev⟩,q.2 ++ o.events) := by
  rw [stepLog,logged,step_some h]

theorem outcome_resume {i : Nat} {answer : α} (h : c.threads[i]? = some p) :
    outcome m c (.resume i answer) = some (m.resume c.shared p answer) := by
  rw [outcome,h,Option.map_some]

/-- What a section of a thread that is there keeps, a `resume` keeps: at any other place
nothing happens. -/
theorem stepLog_resume_inv {J : Conf σ π × List ε → Prop} {q : Conf σ π × List ε} {i : Nat}
    {answer : α} (h : J q)
    (hsection : ∀ p, q.1.threads[i]? = some p → J (stepLog m q (.resume i answer))) :
    J (stepLog m q (.resume i answer)) := by
  cases hi : q.1.threads[i]? with
  | none => rwa [stepLog_none (by rw [outcome,hi,Option.map_none])]
  | some p => exact hsection p hi

theorem mem_of_mem_rest (h : p ∈ rest c ev) : p ∈ c.threads := by
  cases ev with
  | enter call => exact h
  | resume i answer => exact List.mem_of_mem_eraseIdx h

theorem threads_perm {i : Nat} (answer : α) (h : c.threads[i]? = some p) :
    c.threads.Perm (p :: rest c (.resume i answer : Event κ α)) := by
  obtain ⟨hi,rfl⟩ := List.getElem?_eq_some_iff.mp h
  exact (List.getElem_cons_eraseIdx_perm hi).symm

theorem mem_threads_iff {i : Nat} (answer : α) (h : c.threads[i]? = some p) {q : π} :
    q ∈ c.threads ↔ q = p ∨ q ∈ rest c (.resume i answer : Event κ α) :=
  (threads_perm answer h).mem_iff.trans List.mem_cons

theorem countP_resume {i : Nat} (answer : α) (h : c.threads[i]? = some p) (f : π → Bool) :
    c.threads.countP f =
      (rest c (.resume i answer : Event κ α)).countP f + if f p then 1 else 0 := by
  rw [(threads_perm (κ := κ) answer h).countP_eq f,List.countP_cons]

/-- The shared state is as `I` says, and each thread finds there what `A` says of
its point. -/
structure Sound (I : σ → Prop) (A : σ → π → Prop) (c : Conf σ π) : Prop where
  shared : I c.shared
  threads : ∀ p ∈ c.threads, A c.shared p

variable {I : σ → Prop} {A : σ → π → Prop}

/-- A section keeps the shared state in order, leaves its own thread what that
relies on, and does not take from the others what they rely on. -/
theorem Sound.step (h : Sound I A c)
    (hnext : ∀ o, outcome m c ev = some o → I o.shared ∧ (∀ p ∈ o.threads, A o.shared p) ∧
      ∀ p ∈ rest c ev, A o.shared p) : Sound I A (step m c ev).1 := by
  cases ho : outcome m c ev with
  | none =>
    rw [step_none ho]
    exact h
  | some o =>
    obtain ⟨hshared,hown,hothers⟩ := hnext o ho
    rw [step_some ho]
    exact ⟨hshared,List.forall_mem_append.mpr ⟨hown,hothers⟩⟩

end Interleaving
