import EthAgent.Lib.CString
import EthAgent.Lib.Tokens

/-!
The reads of a text file: `fgets` takes a line with its newline, or as much of it as
the buffer holds, and the rest of the line with the next calls.
-/

set_option autoImplicit false

namespace Fgets
open CString Tokens

/-- The line that the text begins with, `room` characters of it at most, and the rest. -/
def takeLine : Nat → Text → Text × Text
  | 0, t => ([],t)
  | _+1, [] => ([],[])
  | room+1, c :: t =>
    if c = '\n' then ([c],t) else (c :: (takeLine room t).1,(takeLine room t).2)

/-- One call with a buffer of `cap` bytes: what it stores, and the text not read yet. -/
def fgets (cap : Nat) (t : Text) : Option (Text × Text) :=
  if t = [] then none else some (takeLine (cap-1) t)

def readsFrom (cap : Nat) : Nat → Text → Text → List Text
  | _, [], [] => []
  | _, c :: cur, [] => [c :: cur]
  | room, cur, c :: t =>
    if c = '\n' ∨ room ≤ 1 then (cur ++ [c]) :: readsFrom cap (cap-1) [] t
    else readsFrom cap (room-1) (cur ++ [c]) t

/-- What the calls store, one after another, until there is nothing left. -/
def reads (cap : Nat) (t : Text) : List Text := readsFrom cap (cap-1) [] t

def strings (cap : Nat) (t : Text) : List Text := (reads cap t).map untilNul

variable {cap : Nat}

theorem readsFrom_cons {room : Nat} (hroom : 0 < room) (cur : Text) (c : Char) (t : Text) :
    readsFrom cap room cur (c :: t) =
      (cur ++ (takeLine room (c :: t)).1) :: reads cap (takeLine room (c :: t)).2 := by
  induction room generalizing cur c t with
  | zero => omega
  | succ room ih =>
    rw [readsFrom,takeLine]
    by_cases hc : c = '\n'
    · rw [if_pos (.inl hc),if_pos hc]
      rfl
    · rw [if_neg hc]
      by_cases hone : room+1 ≤ 1
      · obtain rfl : room = 0 := by omega
        rw [if_pos (.inr hone)]
        rfl
      · have hroom : 0 < room := by omega
        rw [if_neg (not_or.mpr ⟨hc,hone⟩),Nat.add_sub_cancel]
        cases t with
        | nil => cases room <;> cases cur <;> simp [readsFrom,takeLine,reads]
        | cons d t =>
          rw [ih hroom,List.append_assoc]
          rfl

/-- The reads are the calls of `fgets` until the one that gives NULL. -/
theorem reads_eq (hcap : 1 < cap) (t : Text) :
    reads cap t = (fgets cap t).elim [] fun r => r.1 :: reads cap r.2 := by
  cases t with
  | nil => rfl
  | cons c t =>
    rw [reads,readsFrom_cons (by omega),fgets,if_neg (List.cons_ne_nil c t)]
    rfl

theorem takeLine_newline {l : Text} (hl : ∀ c ∈ l, c ≠ '\n') {room : Nat}
    (hroom : l.length < room) (rest : Text) :
    takeLine room (l ++ '\n' :: rest) = (l ++ ['\n'],rest) := by
  induction l generalizing room with
  | nil =>
    cases room with
    | zero => exact absurd hroom (Nat.not_lt_zero _)
    | succ room => rfl
  | cons c l ih =>
    obtain ⟨hc,hl⟩ := List.forall_mem_cons.mp hl
    cases room with
    | zero => exact absurd hroom (Nat.not_lt_zero _)
    | succ room =>
      rw [List.cons_append,takeLine,if_neg hc,ih hl (by simpa using hroom)]
      rfl

theorem length_takeLine_le (room : Nat) (t : Text) : (takeLine room t).1.length ≤ room := by
  induction t generalizing room with
  | nil => cases room <;> exact Nat.zero_le _
  | cons c t ih =>
    cases room with
    | zero => exact Nat.le_refl 0
    | succ room =>
      rw [takeLine]
      split
      · exact Nat.succ_le_succ (Nat.zero_le room)
      · exact Nat.succ_le_succ (ih room)

/-- A text without a newline that the buffer holds is read at once. -/
theorem takeLine_all {t : Text} (ht : ∀ c ∈ t, c ≠ '\n') {room : Nat} (hroom : t.length ≤ room) :
    takeLine room t = (t,[]) := by
  induction t generalizing room with
  | nil => cases room <;> rfl
  | cons c t ih =>
    obtain ⟨hc,ht⟩ := List.forall_mem_cons.mp ht
    cases room with
    | zero => exact absurd hroom (Nat.not_succ_le_zero _)
    | succ room => rw [takeLine,if_neg hc,ih ht (Nat.succ_le_succ_iff.mp hroom)]

structure IsLine (cap : Nat) (l : Text) : Prop where
  plain : ∀ c ∈ l, c ≠ '\n' ∧ c ≠ nul
  fits : l.length+1 < cap

theorem isLine_of_not_mem {l : Text} (hnewline : '\n' ∉ l) (hnul : nul ∉ l)
    (hfits : l.length+1 < cap) : IsLine cap l :=
  ⟨fun _ hc => ⟨ne_of_mem_of_not_mem hc hnewline,ne_of_mem_of_not_mem hc hnul⟩,hfits⟩

theorem reads_line {l : Text} (hl : IsLine cap l) (rest : Text) :
    reads cap (l ++ '\n' :: rest) = (l ++ ['\n']) :: reads cap rest := by
  have hlt := hl.fits
  have hne : l ++ '\n' :: rest ≠ [] := by simp
  rw [reads_eq (by omega),fgets,if_neg hne,
    takeLine_newline (fun c hc => (hl.plain c hc).1) (by omega),Option.elim_some]

theorem strings_lines {lines : List Text} (h : ∀ l ∈ lines, IsLine cap l) :
    strings cap (terminated '\n' lines) = lines.map fun l => l ++ ['\n'] := by
  induction lines with
  | nil => rfl
  | cons l lines ih =>
    obtain ⟨hl,hlines⟩ := List.forall_mem_cons.mp h
    have hcons : terminated '\n' (l :: lines) = l ++ '\n' :: terminated '\n' lines := by
      simp [terminated]
    have hall : ∀ c ∈ l ++ ['\n'], decide (c ≠ nul) = true := by
      intro c hc
      rcases List.mem_append.mp hc with hc | hc
      · simpa using (hl.plain c hc).2
      · rw [List.mem_singleton.mp hc]
        decide
    rw [strings] at ih ⊢
    rw [hcons,reads_line hl,List.map_cons,List.map_cons,ih hlines,untilNul,
      List.takeWhile_eq_self_iff.mpr hall]

theorem splitOn_lines {lines : List Text} (h : ∀ l ∈ lines, IsLine cap l) :
    (terminated '\n' lines).splitOn '\n' = lines ++ [[]] := by
  have hjoin : ∀ lines : List Text,
      terminated '\n' lines = ['\n'].intercalate (lines ++ [[]]) := by
    intro lines
    induction lines with
    | nil => rfl
    | cons l lines ih =>
      obtain ⟨l',lines',hcons⟩ : ∃ l' lines', lines ++ [[]] = l' :: lines' :=
        List.exists_cons_of_ne_nil (by simp)
      rw [hcons] at ih
      rw [List.cons_append,hcons,List.intercalate_cons_cons,← ih]
      simp [terminated]
  rw [hjoin,List.splitOn_intercalate '\n' ?_ (by simp)]
  intro l hl
  rcases List.mem_append.mp hl with hl | hl
  · exact fun hmem => ((h l hl).plain '\n' hmem).1 rfl
  · rw [List.mem_singleton.mp hl]
    exact List.not_mem_nil

end Fgets
