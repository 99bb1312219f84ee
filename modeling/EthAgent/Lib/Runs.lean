import Mathlib.Data.List.Basic

/-!
Finite runs of a deterministic step function, for any state and input types.

A property of a run is stated in one of two ways: `Always` speaks about every
state the run reaches, `Meets` about every step, as the state before it and
its input. The rules below derive the first from the second.
-/

set_option autoImplicit false

namespace Runs

universe u v w
variable {σ : Type u} {ι : Type v} {ε : Type w}

def exec (step : σ → ι → σ) (s : σ) (as : List ι) : σ := as.foldl step s

@[simp] theorem exec_nil (step : σ → ι → σ) (s : σ) : exec step s [] = s := rfl

@[simp] theorem exec_cons (step : σ → ι → σ) (s : σ) (a : ι) (as : List ι) :
    exec step s (a :: as) = exec step (step s a) as := rfl

/-- The property holds before the run and after each of its steps. -/
def Always (step : σ → ι → σ) (P : σ → Prop) : σ → List ι → Prop
  | s, [] => P s
  | s, a :: as => P s ∧ Always step P (step s a) as

/-- The condition holds of every step, of the state before it and its input. -/
def Meets (step : σ → ι → σ) (C : σ → ι → Prop) : σ → List ι → Prop
  | _, [] => True
  | s, a :: as => C s a ∧ Meets step C (step s a) as

/-- The condition holds of some step. -/
def Sometime (step : σ → ι → σ) (C : σ → ι → Prop) : σ → List ι → Prop
  | _, [] => False
  | s, a :: as => C s a ∨ Sometime step C (step s a) as

instance decidableMeets (step : σ → ι → σ) (C : σ → ι → Prop)
    [∀ s a, Decidable (C s a)] : (s : σ) → (as : List ι) → Decidable (Meets step C s as)
  | _, [] => .isTrue trivial
  | s, a :: as =>
    have := decidableMeets step C (step s a) as
    inferInstanceAs (Decidable (C s a ∧ Meets step C (step s a) as))

instance decidableAlways (step : σ → ι → σ) (P : σ → Prop)
    [∀ s, Decidable (P s)] : (s : σ) → (as : List ι) → Decidable (Always step P s as)
  | s, [] => inferInstanceAs (Decidable (P s))
  | s, a :: as =>
    have := decidableAlways step P (step s a) as
    inferInstanceAs (Decidable (P s ∧ Always step P (step s a) as))

variable {f : σ → ι → σ} {P J : σ → Prop} {C D : σ → ι → Prop}

theorem Always.head {s : σ} {as : List ι} (h : Always f P s as) : P s := by
  cases as with
  | nil => exact h
  | cons a as => exact h.1

theorem Always.last {s : σ} {as : List ι} (h : Always f P s as) :
    P (exec f s as) := by
  induction as generalizing s with
  | nil => exact h
  | cons a as ih => exact ih h.2

theorem meets_of_mem {A : ι → Prop} {s : σ} {as : List ι} (h : ∀ a ∈ as, A a) :
    Meets f (fun _ a => A a) s as := by
  induction as generalizing s with
  | nil => trivial
  | cons a as ih => exact ⟨h a List.mem_cons_self,ih fun b hb => h b (List.mem_cons_of_mem a hb)⟩

theorem meets_of_forall {s : σ} {as : List ι} (h : ∀ s a, C s a) : Meets f C s as := by
  induction as generalizing s with
  | nil => trivial
  | cons a as ih => exact ⟨h s a,ih⟩

/-- The guarded invariant rule: what each step keeps under its condition holds
after a run whose steps all meet it. -/
theorem exec_inv {s : σ} {as : List ι} (h0 : J s)
    (hstep : ∀ s a, J s → C s a → J (f s a)) (h : Meets f C s as) :
    J (exec f s as) := by
  induction as generalizing s with
  | nil => exact h0
  | cons a as ih => exact ih (hstep s a h0 h.1) h.2

theorem exec_inv_all {s : σ} (h0 : J s) (hstep : ∀ s a, J s → J (f s a))
    (as : List ι) : J (exec f s as) :=
  exec_inv (C := fun _ _ => True) h0 (fun s a hs _ => hstep s a hs)
    (meets_of_forall fun _ _ => trivial)

theorem always_of_meets {s : σ} {as : List ι} (h0 : J s)
    (hstep : ∀ s a, J s → C s a → J (f s a)) (hP : ∀ s, J s → P s)
    (h : Meets f C s as) : Always f P s as := by
  induction as generalizing s with
  | nil => exact hP s h0
  | cons a as ih => exact ⟨hP s h0,ih (hstep s a h0 h.1) h.2⟩

/-- The exact rule, for runs over the inputs that meet `A`. The invariant is
carried by the condition, and a step which breaks the condition breaks the
property at once. -/
theorem always_iff_meets_on {A : ι → Prop} {s : σ} {as : List ι} (hA : ∀ a ∈ as, A a)
    (h0 : J s) (hstep : ∀ s a, A a → J s → C s a → J (f s a)) (hP : ∀ s, J s → P s)
    (hC : ∀ s a, A a → J s → P (f s a) → C s a) :
    Always f P s as ↔ Meets f C s as := by
  induction as generalizing s with
  | nil => exact ⟨fun _ => trivial,fun _ => hP s h0⟩
  | cons a as ih =>
    have ha := hA a List.mem_cons_self
    have hrest := fun b hb => hA b (List.mem_cons_of_mem a hb)
    constructor
    · rintro ⟨-,h⟩
      have hc := hC s a ha h0 h.head
      exact ⟨hc,(ih hrest (hstep s a ha h0 hc)).mp h⟩
    · rintro ⟨hc,h⟩
      exact ⟨hP s h0,(ih hrest (hstep s a ha h0 hc)).mpr h⟩

theorem always_iff_meets {s : σ} {as : List ι} (h0 : J s)
    (hstep : ∀ s a, J s → C s a → J (f s a)) (hP : ∀ s, J s → P s)
    (hC : ∀ s a, J s → P (f s a) → C s a) :
    Always f P s as ↔ Meets f C s as :=
  always_iff_meets_on (A := fun _ => True) (fun _ _ => trivial) h0
    (fun s a _ => hstep s a) hP (fun s a _ => hC s a)

/-- The exact rule, for runs whose steps meet a guard. -/
theorem always_iff_meets_of_meets {G : σ → ι → Prop} {s : σ} {as : List ι} (h0 : J s)
    (hstep : ∀ s a, J s → G s a → C s a → J (f s a)) (hP : ∀ s, J s → P s)
    (hC : ∀ s a, J s → G s a → P (f s a) → C s a) (h : Meets f G s as) :
    Always f P s as ↔ Meets f C s as := by
  induction as generalizing s with
  | nil => exact ⟨fun _ => trivial,fun _ => hP s h0⟩
  | cons a as ih =>
    constructor
    · rintro ⟨-,hrest⟩
      have hc := hC s a h0 h.1 hrest.head
      exact ⟨hc,(ih (hstep s a h0 h.1 hc) h.2).mp hrest⟩
    · rintro ⟨hc,hrest⟩
      exact ⟨hP s h0,(ih (hstep s a h0 h.1 hc) h.2).mpr hrest⟩

/-- A condition weakened wherever the invariant holds. -/
theorem meets_mono {s : σ} {as : List ι} (h0 : J s)
    (hstep : ∀ s a, J s → C s a → J (f s a)) (hcd : ∀ s a, J s → C s a → D s a)
    (h : Meets f C s as) : Meets f D s as := by
  induction as generalizing s with
  | nil => trivial
  | cons a as ih => exact ⟨hcd s a h0 h.1,ih (hstep s a h0 h.1) h.2⟩

/-- Two conditions which agree wherever the invariant holds are met by the same runs. -/
theorem meets_congr {s : σ} {as : List ι} (h0 : J s)
    (hstep : ∀ s a, J s → C s a → J (f s a)) (hcd : ∀ s a, J s → (C s a ↔ D s a)) :
    Meets f C s as ↔ Meets f D s as := by
  have hstep' : ∀ s a, J s → D s a → J (f s a) :=
    fun s a hs hd => hstep s a hs ((hcd s a hs).mpr hd)
  exact ⟨meets_mono h0 hstep fun s a hs => (hcd s a hs).mp,
    meets_mono h0 hstep' fun s a hs => (hcd s a hs).mpr⟩

/-- Two conditions which agree wherever the invariant and the guard hold are met by the
same runs, among those that meet the guard. -/
theorem meets_congr_of_meets {G : σ → ι → Prop} {s : σ} {as : List ι} (h0 : J s)
    (hstep : ∀ s a, J s → G s a → J (f s a)) (hcd : ∀ s a, J s → G s a → (C s a ↔ D s a))
    (h : Meets f G s as) : Meets f C s as ↔ Meets f D s as := by
  induction as generalizing s with
  | nil => exact Iff.rfl
  | cons a as ih => exact and_congr (hcd s a h0 h.1) (ih (hstep s a h0 h.1) h.2)

/-- Steps that each copy one place of `src`, which they leave alone, to `dst` copy the
places of the run. -/
theorem exec_copies {β : Type w} {src dst : σ → List β} {step : σ → Nat → σ}
    (hsrc : ∀ s i, src (step s i) = src s)
    (hdst : ∀ s i j, (dst (step s i))[j]? = if i = j then (src s)[j]? else (dst s)[j]?)
    (s : σ) (places : List Nat) :
    src (exec step s places) = src s ∧
      ∀ j, (dst (exec step s places))[j]? = if j ∈ places then (src s)[j]? else (dst s)[j]? := by
  induction places generalizing s with
  | nil => exact ⟨rfl,fun j => by simp⟩
  | cons i places ih =>
    obtain ⟨hkept,hcopied⟩ := ih (step s i)
    refine ⟨hkept.trans (hsrc s i),fun j => ?_⟩
    rw [exec_cons,hcopied,hsrc,hdst]
    by_cases hj : j ∈ places
    · simp [hj]
    · by_cases hij : i = j
      · simp [hij]
      · simp [hj,hij,Ne.symm hij]

/-- A step that counts the inputs which meet the test. -/
theorem exec_count {A : ι → Prop} [DecidablePred A] (n : Nat) (as : List ι) :
    exec (fun m a => if A a then m+1 else m) n as = n+(as.filter A).length := by
  induction as generalizing n with
  | nil => rfl
  | cons a as ih =>
    rw [exec_cons,ih,List.filter_cons]
    by_cases ha : A a
    · rw [if_pos ha,if_pos (decide_eq_true ha),List.length_cons]
      omega
    · rw [if_neg ha,if_neg (by simpa using ha)]

/-- What a step may bring about and no step undoes holds after a run if it held
before, or some step brought it about. -/
theorem exec_iff_or_sometime {s : σ} {as : List ι}
    (h : ∀ s, ∀ a ∈ as, P (f s a) ↔ P s ∨ C s a) :
    P (exec f s as) ↔ P s ∨ Sometime f C s as := by
  induction as generalizing s with
  | nil => simp [Sometime]
  | cons a as ih =>
    rw [exec_cons,ih fun s b hb => h s b (List.mem_cons_of_mem a hb),
      h s a List.mem_cons_self,or_assoc]
    rfl

/-- A step that emits events, run together with the log of what was emitted. -/
def logged (step : σ → ι → σ × List ε) (p : σ × List ε) (a : ι) : σ × List ε :=
  ((step p.1 a).1,p.2 ++ (step p.1 a).2)

theorem exec_logged_append (step : σ → ι → σ × List ε) (s : σ) (log : List ε)
    (as : List ι) :
    exec (logged step) (s,log) as =
      ((exec (logged step) (s,[]) as).1,log ++ (exec (logged step) (s,[]) as).2) := by
  induction as generalizing s log with
  | nil => simp
  | cons a as ih =>
    simp only [exec_cons,logged,List.nil_append]
    rw [ih (step s a).1 (log ++ (step s a).2),ih (step s a).1 (step s a).2]
    simp [List.append_assoc]

def silent (step : σ → ι → σ × List ε) (s : σ) (a : ι) : σ := (step s a).1

theorem exec_logged_fst (step : σ → ι → σ × List ε) (p : σ × List ε) (as : List ι) :
    (exec (logged step) p as).1 = exec (silent step) p.1 as := by
  induction as generalizing p with
  | nil => rfl
  | cons a as ih => exact ih _

theorem meets_logged_iff (step : σ → ι → σ × List ε) (p : σ × List ε) (as : List ι) :
    Meets (logged step) (fun q a => C q.1 a) p as ↔ Meets (silent step) C p.1 as := by
  induction as generalizing p with
  | nil => simp [Meets]
  | cons a as ih =>
    simp only [Meets,ih]
    rfl

/-- The guarded invariant rule for a state and the log so far. -/
theorem exec_logged_inv {step : σ → ι → σ × List ε} {J : σ → List ε → Prop} {s : σ}
    {log : List ε} {as : List ι} (h0 : J s log)
    (hstep : ∀ s log a, J s log → C s a → J (step s a).1 (log ++ (step s a).2))
    (h : Meets (silent step) C s as) :
    J (exec (logged step) (s,[]) as).1 (log ++ (exec (logged step) (s,[]) as).2) := by
  have hrun := exec_inv (f := logged step) (J := fun p => J p.1 p.2)
    (C := fun p a => C p.1 a) (s := (s,log)) h0
    (fun p a hp hc => hstep p.1 p.2 a hp hc) ((meets_logged_iff step (s,log) as).mpr h)
  rwa [exec_logged_append step s log as] at hrun

def lastOf {β : Type*} (f : ε → Option β) (log : List ε) : Option β :=
  (log.filterMap f).getLast?

theorem lastOf_append {β : Type*} (f : ε → Option β) (log log' : List ε) :
    lastOf f (log ++ log') = (lastOf f log').or (lastOf f log) := by
  simp [lastOf,List.filterMap_append,List.getLast?_append]

end Runs
