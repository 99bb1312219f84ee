import Mathlib.Data.Option.Basic

/-!
A value that one side rewrites and another side watches. The watcher reads once, adds its
watch, and then sleeps until it is told of a modification; what is modified while it reads
is told to it later. Between two writes there can be nothing to read.
-/

set_option autoImplicit false

namespace Watched

universe u
variable {α : Type u}

inductive Stage where
  | waiting
  | opened
  | asleep
  | reading
  deriving DecidableEq

/-- The value that is there to be read, the one that was read last, and whether there is a
modification that the watcher has not been told of. -/
structure Watch (α : Type u) where
  content : Option α
  seen : α
  stage : Stage
  modified : Bool

inductive Event (α : Type u) where
  | clear
  | write (a : α)
  | firstRead
  | addWatch
  | take
  | read (more : Bool)

def Stage.watches : Stage → Bool
  | .waiting => false
  | .opened => false
  | .asleep => true
  | .reading => true

def step (s : Watch α) : Event α → Watch α
  | .clear => { s with content := none, modified := s.modified || s.stage.watches }
  | .write a => { s with content := some a, modified := s.modified || s.stage.watches }
  | .firstRead =>
    if s.stage = .waiting then { s with seen := s.content.getD s.seen, stage := .opened } else s
  | .addWatch => if s.stage = .opened then { s with stage := .asleep } else s
  | .take =>
    if s.stage = .asleep ∧ s.modified = true then { s with stage := .reading, modified := false }
    else s
  | .read more =>
    if s.stage = .reading then
      { s with seen := s.content.getD s.seen, stage := if more then .reading else .asleep }
    else s

/-- The watcher sleeps, and nothing will wake it up. -/
def Settled (s : Watch α) : Prop := s.stage = .asleep ∧ s.modified = false

def UpToDate (s : Watch α) : Prop := ∀ a ∈ s.content, a = s.seen

/-- What the watcher has read before it adds its watch is what is there still. -/
def CaughtUp (s : Watch α) : Event α → Prop
  | .addWatch => s.stage = .opened → UpToDate s
  | _ => True

structure Sound (s : Watch α) : Prop where
  early : s.stage.watches = false → s.modified = false
  late : Settled s → UpToDate s

theorem upToDate_getD (content : Option α) (seen : α) (stage : Stage) (modified : Bool) :
    UpToDate ⟨content,content.getD seen,stage,modified⟩ := by
  rintro a ha
  obtain rfl : content = some a := ha
  rfl

theorem Sound.step {s : Watch α} (h : Sound s) {ev : Event α} (hc : CaughtUp s ev) :
    Sound (step s ev) := by
  obtain ⟨content,seen,stage,modified⟩ := s
  cases ev with
  | clear =>
    refine ⟨fun hstage => ?_,fun _ a ha => absurd ha (by simp [Watched.step])⟩
    have hstage : stage.watches = false := hstage
    simp [Watched.step,h.early hstage,hstage]
  | write a =>
    refine ⟨fun hstage => ?_,fun hsettled => ?_⟩
    · have hstage : stage.watches = false := hstage
      simp [Watched.step,h.early hstage,hstage]
    · obtain ⟨hasleep,hmodified⟩ := hsettled
      obtain rfl : stage = .asleep := hasleep
      simp [Watched.step,Stage.watches] at hmodified
  | firstRead =>
    cases stage with
    | waiting => exact ⟨fun _ => h.early rfl,fun _ => upToDate_getD _ _ _ _⟩
    | opened => exact h
    | asleep => exact h
    | reading => exact h
  | addWatch =>
    cases stage with
    | waiting => exact h
    | opened => exact ⟨fun hstage => absurd hstage (by simp [Watched.step,Stage.watches]),
        fun _ => hc rfl⟩
    | asleep => exact h
    | reading => exact h
  | take =>
    cases stage with
    | waiting => exact h
    | opened => exact h
    | asleep =>
      cases modified with
      | false => exact h
      | true => exact ⟨fun _ => rfl,fun hsettled => absurd hsettled.1 (by simp [Watched.step])⟩
    | reading => exact h
  | read more =>
    cases stage with
    | waiting => exact h
    | opened => exact h
    | asleep => exact h
    | reading =>
      refine ⟨fun hstage => ?_,fun _ => upToDate_getD _ _ _ _⟩
      cases more <;> simp [Watched.step,Stage.watches] at hstage

/-- A watch that is added too late leaves the watcher asleep with an old value. -/
theorem Sound.caughtUp {s : Watch α} (h : Sound s) {ev : Event α}
    (hnext : Settled (Watched.step s ev) → UpToDate (Watched.step s ev)) : CaughtUp s ev := by
  cases ev with
  | addWatch =>
    intro hopened
    have hearly : s.modified = false := h.early (by rw [hopened]; rfl)
    simp only [Watched.step,hopened,if_true] at hnext
    exact hnext ⟨rfl,hearly⟩
  | clear => trivial
  | write a => trivial
  | firstRead => trivial
  | take => trivial
  | read more => trivial

end Watched
