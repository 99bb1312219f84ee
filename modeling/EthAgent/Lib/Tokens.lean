import Mathlib.Data.List.Basic
import Mathlib.Data.List.Infix
import Mathlib.Data.List.TakeWhile

/-!
The tokens of a text: the longest runs without a separator, which `strtok` gives one
after another. Texts are lists over any type, with any set of separators.
-/

set_option autoImplicit false

namespace Tokens

universe u
variable {α : Type u} {sep : α → Bool}

structure IsToken (sep : α → Bool) (t : List α) : Prop where
  nonempty : t ≠ []
  plain : ∀ x ∈ t, sep x = false

def flush : List α → List (List α)
  | [] => []
  | x :: t => [x :: t]

/-- The tokens of `cur` and the text after it, `cur` being read already. -/
def tokensFrom (sep : α → Bool) : List α → List α → List (List α)
  | cur, [] => flush cur
  | cur, x :: l =>
    if sep x then flush cur ++ tokensFrom sep [] l else tokensFrom sep (cur ++ [x]) l

def tokens (sep : α → Bool) (l : List α) : List (List α) := tokensFrom sep [] l

theorem flush_of_token {t : List α} (ht : IsToken sep t) : flush t = [t] := by
  cases t with
  | nil => exact absurd rfl ht.nonempty
  | cons x t => rfl

theorem mem_flush_iff {t cur : List α} : t ∈ flush cur ↔ t = cur ∧ cur ≠ [] := by
  cases cur <;> simp [flush]

theorem tokensFrom_plain {t : List α} (ht : ∀ x ∈ t, sep x = false) (cur l : List α) :
    tokensFrom sep cur (t ++ l) = tokensFrom sep (cur ++ t) l := by
  induction t generalizing cur with
  | nil => simp
  | cons x t ih =>
    have hx := ht x List.mem_cons_self
    rw [List.cons_append,tokensFrom,hx,if_neg (by decide),
      ih fun y hy => ht y (List.mem_cons_of_mem x hy)]
    simp

theorem tokens_plain {t : List α} (ht : ∀ x ∈ t, sep x = false) : tokens sep t = flush t := by
  have h := tokensFrom_plain ht [] []
  rwa [List.append_nil] at h

theorem tokensFrom_sep {x : α} (hx : sep x = true) (cur l r : List α) :
    tokensFrom sep cur (l ++ x :: r) = tokensFrom sep cur l ++ tokens sep r := by
  induction l generalizing cur with
  | nil => simp [tokensFrom,hx,tokens]
  | cons y l ih =>
    rw [List.cons_append,tokensFrom,tokensFrom]
    split
    · rw [ih,List.append_assoc]
    · exact ih _

/-- A separator cuts the tokens of a text in two. -/
theorem tokens_sep {x : α} (hx : sep x = true) (l r : List α) :
    tokens sep (l ++ x :: r) = tokens sep l ++ tokens sep r := tokensFrom_sep hx [] l r

theorem tokens_of_token {t : List α} (ht : IsToken sep t) : tokens sep t = [t] :=
  (tokens_plain ht.plain).trans (flush_of_token ht)

/-- A text is plain, or it is a plain text, a separator, and the rest. -/
theorem sep_induction (sep : α → Bool) {P : List α → Prop}
    (hplain : ∀ t, (∀ x ∈ t, sep x = false) → P t)
    (hsep : ∀ t x r, (∀ y ∈ t, sep y = false) → sep x = true → P r → P (t ++ x :: r))
    (l : List α) : P l := by
  have hsplit : ∀ t l : List α, (∀ x ∈ t, sep x = false) → P (t ++ l) := by
    intro t l ht
    induction l generalizing t with
    | nil => simpa using hplain t ht
    | cons x l ih =>
      cases hx : sep x with
      | true => exact hsep t x l ht hx (by simpa using ih [] (by simp))
      | false =>
        have htx : ∀ y ∈ t ++ [x], sep y = false := by
          intro y hy
          rcases List.mem_append.mp hy with hy | hy
          · exact ht y hy
          · rwa [List.mem_singleton.mp hy]
        simpa using ih (t ++ [x]) htx
  simpa using hsplit [] l (by simp)

theorem isToken_of_mem {l t : List α} (h : t ∈ tokens sep l) : IsToken sep t := by
  induction l using sep_induction sep with
  | hplain l hl =>
    rw [tokens_plain hl,mem_flush_iff] at h
    obtain ⟨rfl,hne⟩ := h
    exact ⟨hne,hl⟩
  | hsep l x r hl hx ih =>
    rw [tokens_sep hx,tokens_plain hl,List.mem_append,mem_flush_iff] at h
    rcases h with ⟨rfl,hne⟩ | h
    · exact ⟨hne,hl⟩
    · exact ih h

/-- A text without the separator occurs on one side of it. -/
theorem infix_sep_iff {x : α} {t l r : List α} (ht : t ≠ []) (hx : x ∉ t) :
    t <:+: l ++ x :: r ↔ t <:+: l ∨ t <:+: r := by
  constructor
  · rintro ⟨a,b,h⟩
    rw [List.append_assoc] at h
    rcases List.append_eq_append_iff.mp h with ⟨c,hl,hr⟩ | ⟨c,ha,hr⟩
    · rcases List.append_eq_append_iff.mp hr with ⟨d,hc,-⟩ | ⟨d,htd,hxr⟩
      · exact .inl ⟨a,d,by rw [hl,hc,List.append_assoc]⟩
      · cases d with
        | nil => exact .inl ⟨a,[],by rw [htd,hl]; simp⟩
        | cons y d =>
          obtain ⟨rfl,-⟩ := List.cons.inj hxr
          exact absurd (by rw [htd]; simp) hx
    · cases c with
      | nil =>
        rw [List.nil_append] at hr
        cases t with
        | nil => exact absurd rfl ht
        | cons y t =>
          obtain ⟨rfl,-⟩ := List.cons.inj hr
          exact absurd List.mem_cons_self hx
      | cons y c =>
        obtain ⟨-,hr⟩ := List.cons.inj hr
        exact .inr ⟨c,b,by rw [List.append_assoc]; exact hr.symm⟩
  · rintro (h | h)
    · exact h.trans (List.prefix_append l _).isInfix
    · exact h.trans ((List.suffix_cons x r).isInfix.trans (List.suffix_append l _).isInfix)

/-- A text occurs before what its last letter does not occur in. -/
theorem infix_of_infix_append {x : α} {t l r : List α} (ht : t.getLast? = some x) (hx : x ∉ r)
    (h : t <:+: l ++ r) : t <:+: l := by
  obtain ⟨a,b,h⟩ := h
  rcases List.append_eq_append_iff.mp h with ⟨c,hl,-⟩ | ⟨c,ha,hr⟩
  · exact ⟨a,c,hl.symm⟩
  · cases c with
    | nil => exact ⟨a,[],by rw [List.append_nil,ha,List.append_nil]⟩
    | cons y c =>
      have hlast : (y :: c).getLast? = some x := by
        have hend := congrArg List.getLast? ha
        rw [List.getLast?_append_of_ne_nil _ (by rintro rfl; cases ht),ht,
          List.getLast?_append_of_ne_nil _ (by simp)] at hend
        exact hend.symm
      refine absurd ?_ hx
      rw [hr]
      exact List.mem_append_left b (List.mem_of_getLast? hlast)

theorem IsToken.not_mem {x : α} {t : List α} (ht : IsToken sep t) (hx : sep x = true) :
    x ∉ t := by
  intro h
  rw [ht.plain x h] at hx
  exact absurd hx (by decide)

theorem infix_of_mem {l t : List α} (h : t ∈ tokens sep l) : t <:+: l := by
  induction l using sep_induction sep with
  | hplain l hl =>
    rw [tokens_plain hl,mem_flush_iff] at h
    rw [h.1]
  | hsep l x r hl hx ih =>
    have ht := isToken_of_mem h
    rw [infix_sep_iff ht.nonempty (ht.not_mem hx)]
    rw [tokens_sep hx,tokens_plain hl,List.mem_append,mem_flush_iff] at h
    rcases h with ⟨rfl,-⟩ | h
    · exact .inl (List.infix_refl t)
    · exact .inr (ih h)

def terminated (x : α) (ts : List (List α)) : List α := ts.flatMap fun t => t ++ [x]

theorem length_terminated_le (x : α) (l : List α) :
    (terminated x (tokens sep l)).length ≤ l.length+1 := by
  induction l using sep_induction sep with
  | hplain l hl =>
    rw [tokens_plain hl]
    cases l <;> simp [flush,terminated]
  | hsep l y r hl hy ih =>
    rw [tokens_sep hy,tokens_plain hl,terminated,List.flatMap_append,List.length_append]
    have hflush : ((flush l).flatMap fun t => t ++ [x]).length ≤ l.length+1 := by
      cases l <;> simp [flush]
    rw [terminated] at ih
    simp only [List.length_append,List.length_cons]
    omega

theorem length_terminated_sublist {x : α} {ts us : List (List α)} (h : ts.Sublist us) :
    (terminated x ts).length ≤ (terminated x us).length := by
  induction h with
  | slnil => exact Nat.le_refl _
  | cons t _ ih =>
    simp only [terminated,List.flatMap_cons,List.length_append] at ih ⊢
    omega
  | cons_cons t _ ih =>
    simp only [terminated,List.flatMap_cons,List.length_append] at ih ⊢
    omega

theorem tokens_terminated {x : α} (hx : sep x = true) {ts : List (List α)}
    (hts : ∀ t ∈ ts, IsToken sep t) : tokens sep (terminated x ts) = ts := by
  induction ts with
  | nil => rfl
  | cons t ts ih =>
    have hcons : terminated x (t :: ts) = t ++ x :: terminated x ts := by simp [terminated]
    rw [hcons,tokens_sep hx,tokens_of_token (hts t List.mem_cons_self),
      ih fun s hs => hts s (List.mem_cons_of_mem t hs)]
    rfl

theorem tokens_intercalate {x : α} (hx : sep x = true) {ts : List (List α)}
    (hts : ∀ t ∈ ts, IsToken sep t) : tokens sep ([x].intercalate ts) = ts := by
  induction ts with
  | nil => rfl
  | cons t ts ih =>
    have ht := tokens_of_token (hts t List.mem_cons_self)
    cases ts with
    | nil => simpa [List.intercalate] using ht
    | cons s ts =>
      have hcons : [x].intercalate (t :: s :: ts) = t ++ x :: [x].intercalate (s :: ts) := by
        simp [List.intercalate]
      rw [hcons,tokens_sep hx,ht,ih fun u hu => hts u (List.mem_cons_of_mem t hu)]
      rfl

theorem tokens_concat_sep {x : α} (hx : sep x = true) (l : List α) :
    tokens sep (l ++ [x]) = tokens sep l := by
  rw [tokens_sep hx]
  exact List.append_nil _

theorem tokens_blanks {x : α} (hx : sep x = true) (n : Nat) (l : List α) :
    tokens sep (List.replicate n x ++ l) = tokens sep l := by
  induction n with
  | zero => rfl
  | succ n ih =>
    rw [List.replicate_succ,List.cons_append]
    exact (tokens_sep hx [] _).trans ih

theorem tokens_dropWhile (l : List α) : tokens sep (l.dropWhile sep) = tokens sep l := by
  induction l with
  | nil => rfl
  | cons x l ih =>
    cases hx : sep x with
    | true => rw [List.dropWhile_cons_of_pos hx,ih]; exact (tokens_sep hx [] l).symm
    | false => rw [List.dropWhile_cons_of_neg (by simp [hx])]

/-- Behind the separators in front there is nothing, or the first token and the rest. -/
theorem tokens_cases (sep : α → Bool) (l : List α) :
    (l.dropWhile sep = [] ∧ tokens sep l = []) ∨
      ∃ t rest, IsToken sep t ∧ l.dropWhile sep = t ++ rest ∧
        (∀ x ∈ rest.head?, sep x = true) ∧ tokens sep l = t :: tokens sep rest := by
  rw [← tokens_dropWhile l]
  cases hdrop : l.dropWhile sep with
  | nil => exact .inl ⟨rfl,rfl⟩
  | cons x l' =>
    have hx : sep x = false := by
      have hhead := List.head?_dropWhile_not sep l
      rw [hdrop] at hhead
      simpa using hhead
    let t := (x :: l').takeWhile fun y => !sep y
    have htoken : IsToken sep t :=
      ⟨by simp [t,hx],fun y hy => by simpa using List.mem_takeWhile_imp hy⟩
    have hsplit : t ++ (x :: l').dropWhile (fun y => !sep y) = x :: l' :=
      List.takeWhile_append_dropWhile
    cases hrest : (x :: l').dropWhile fun y => !sep y with
    | nil =>
      rw [hrest,List.append_nil] at hsplit
      refine .inr ⟨t,[],htoken,by rw [List.append_nil,hsplit],by simp,?_⟩
      rw [← hsplit]
      exact tokens_of_token htoken
    | cons y r =>
      have hy : sep y = true := by
        have hhead := List.head?_dropWhile_not (fun y => !sep y) (x :: l')
        rw [hrest] at hhead
        simpa using hhead
      have hcut : tokens sep (y :: r) = tokens sep r := tokens_sep hy [] r
      rw [hrest] at hsplit
      refine .inr ⟨t,y :: r,htoken,hsplit.symm,fun z hz => Option.some_inj.mp hz ▸ hy,?_⟩
      rw [hcut,← hsplit,tokens_sep hy,tokens_of_token htoken]
      rfl

theorem dropWhile_eq_nil_of_tokens {l : List α} (h : tokens sep l = []) :
    l.dropWhile sep = [] := by
  rcases tokens_cases sep l with ⟨hnil,-⟩ | ⟨t,rest,-,-,-,htokens⟩
  · exact hnil
  · rw [h] at htokens
    exact absurd htokens (by simp)

def led (x : α) (ts : List (List α)) : List α := ts.flatMap fun t => x :: t

theorem led_concat (x : α) (ts : List (List α)) : led x ts ++ [x] = x :: terminated x ts := by
  induction ts with
  | nil => rfl
  | cons t ts ih =>
    rw [led] at ih
    simp [led,terminated,ih]

theorem tokens_led {x : α} (hx : sep x = true) {ts : List (List α)}
    (hts : ∀ t ∈ ts, IsToken sep t) : tokens sep (led x ts) = ts := by
  have hcut : tokens sep (x :: terminated x ts) = tokens sep (terminated x ts) :=
    tokens_sep hx [] _
  rw [← tokens_concat_sep hx,led_concat,hcut,tokens_terminated hx hts]

end Tokens
