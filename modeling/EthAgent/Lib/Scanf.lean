import EthAgent.Lib.CString
import EthAgent.Lib.Tokens

/-!
The conversions of `sscanf`: the value that each takes from the head of a text,
with what it leaves, or `none` where it does not match.
-/

set_option autoImplicit false

namespace Scanf
open CString Tokens

def hexValue (c : Char) : Nat :=
  if c.isDigit then c.toNat-48 else if 'a' ≤ c then c.toNat-87 else c.toNat-55

def hexNumber (digits : Text) : Nat := digits.foldl (fun n c => 16*n+hexValue c) 0

def withoutPrefix : Text → Text
  | '0' :: c :: t => if c = 'x' ∨ c = 'X' then t else '0' :: c :: t
  | t => t

/-- The digits of `%x`, of which there must be one, also after a `0x`. -/
def hexItem (t : Text) : Option (Nat × Text) :=
  let digits := (withoutPrefix t).takeWhile Char.isHexDigit
  if digits = [] then none
  else some (hexNumber digits,(withoutPrefix t).dropWhile Char.isHexDigit)

def signed (item : Text → Option (Nat × Text)) : Text → Option (Int × Text)
  | '-' :: t => (item t).map fun r => (-(r.1 : Int),r.2)
  | '+' :: t => (item t).map fun r => ((r.1 : Int),r.2)
  | t => (item t).map fun r => ((r.1 : Int),r.2)

/-- `%x` of a number that fits, with a width. -/
def scanHex (width : Nat) (t : Text) : Option (Int × Text) :=
  let t := t.dropWhile isSpace
  (signed hexItem (t.take width)).map fun r => (r.1,r.2 ++ t.drop width)

def decimalItem (t : Text) : Option (Nat × Text) :=
  if t.takeWhile Char.isDigit = [] then none
  else some (digitsValue t,t.dropWhile Char.isDigit)

/-- The number that `%d` reads. -/
def scanDecimal (t : Text) : Option (Int × Text) := signed decimalItem (t.dropWhile isSpace)

/-- What `%d` stores: up to the C library where an `int` cannot hold the number. -/
structure IntStore where
  store : Int → Int
  exact : ∀ n, -2^31 ≤ n → n < 2^31 → store n = n

/-- An `int` that keeps the low 32 bits of a number. -/
def wrappingInt : IntStore where
  store := fun n => n.bmod (2^32)
  exact := fun n hlow hhigh => by
    simp only [Int.bmod]
    omega

/-- `%s`. -/
def scanWord (width : Nat) (t : Text) : Option (Text × Text) :=
  let t := t.dropWhile isSpace
  let word := (t.take width).takeWhile fun c => !isSpace c
  if word = [] then none else some (word,t.drop word.length)

theorem withoutPrefix_eq {t : Text} (h : ∀ c ∈ t.tail.head?, c ≠ 'x' ∧ c ≠ 'X') :
    withoutPrefix t = t := by
  unfold withoutPrefix
  split
  · next c t => rw [if_neg (not_or.mpr (h c rfl))]
  · rfl

theorem ne_x_of_isHexDigit {c : Char} (hc : c.isHexDigit = true) : c ≠ 'x' ∧ c ≠ 'X' :=
  ⟨fun h => absurd hc (by rw [h]; decide),fun h => absurd hc (by rw [h]; decide)⟩

theorem hexItem_of_digits {digits rest : Text} (hne : digits ≠ [])
    (hhex : ∀ c ∈ digits, c.isHexDigit = true)
    (hrest : ∀ c ∈ rest.head?, c.isHexDigit = false ∧ c ≠ 'x' ∧ c ≠ 'X') :
    hexItem (digits ++ rest) = some (hexNumber digits,rest) := by
  have hstop : ∀ c ∈ rest.head?, ¬c.isHexDigit = true := fun c hc => by simp [(hrest c hc).1]
  have htake : (digits ++ rest).takeWhile Char.isHexDigit = digits := by
    rw [List.takeWhile_append_of_pos hhex]
    cases rest with
    | nil => simp
    | cons c rest => rw [List.takeWhile_cons_of_neg (hstop c rfl),List.append_nil]
  have hdrop : (digits ++ rest).dropWhile Char.isHexDigit = rest := by
    rw [List.dropWhile_append_of_pos hhex]
    cases rest with
    | nil => rfl
    | cons c rest => rw [List.dropWhile_cons_of_neg (hstop c rfl)]
  have hplain : withoutPrefix (digits ++ rest) = digits ++ rest := by
    refine withoutPrefix_eq fun c hc => ?_
    cases digits with
    | nil => exact absurd rfl hne
    | cons d digits =>
      cases digits with
      | nil => exact (hrest c hc).2
      | cons d' digits =>
        obtain rfl := Option.some_inj.mp hc
        exact ne_x_of_isHexDigit (hhex _ (List.mem_cons_of_mem _ List.mem_cons_self))
  rw [hexItem,hplain,htake,hdrop,if_neg hne]

theorem signed_of_ne {item : Text → Option (Nat × Text)} {t : Text}
    (h : ∀ c ∈ t.head?, c ≠ '-' ∧ c ≠ '+') :
    signed item t = (item t).map fun r => ((r.1 : Int),r.2) := by
  unfold signed
  split
  · next t => exact absurd rfl (h '-' rfl).1
  · next t => exact absurd rfl (h '+' rfl).2
  · rfl

theorem scanHex_of_digits {width : Nat} {digits rest : Text} (hne : digits ≠ [])
    (hwidth : digits.length ≤ width) (hhex : ∀ c ∈ digits, c.isHexDigit = true)
    (hrest : digits.length < width →
      ∀ c ∈ rest.head?, c.isHexDigit = false ∧ c ≠ 'x' ∧ c ≠ 'X') :
    scanHex width (digits ++ rest) = some ((hexNumber digits : Int),rest) := by
  have htake : (digits ++ rest).take width = digits ++ rest.take (width-digits.length) := by
    rw [List.take_append,List.take_of_length_le hwidth]
  have hdrop : (digits ++ rest).drop width = rest.drop (width-digits.length) := by
    rw [List.drop_append,List.drop_of_length_le hwidth,List.nil_append]
  have hitem : hexItem (digits ++ rest.take (width-digits.length)) =
      some (hexNumber digits,rest.take (width-digits.length)) := by
    refine hexItem_of_digits hne hhex fun c hc => ?_
    rw [List.head?_take] at hc
    split at hc
    · exact absurd hc (by simp)
    · next hlt => exact hrest (by omega) c hc
  obtain ⟨d,tail,rfl⟩ := List.exists_cons_of_ne_nil hne
  have hd := hhex d List.mem_cons_self
  have hspace : (d :: tail ++ rest).dropWhile isSpace = d :: tail ++ rest := by
    rw [List.cons_append,List.dropWhile_cons_of_neg (by simp [isSpace_of_isHexDigit hd])]
  have hsign : ∀ c ∈ (d :: tail ++ rest.take (width-(d :: tail).length)).head?,
      c ≠ '-' ∧ c ≠ '+' := by
    intro c hc
    obtain rfl := Option.some_inj.mp hc
    exact ⟨fun h => absurd hd (by rw [h]; decide),fun h => absurd hd (by rw [h]; decide)⟩
  rw [scanHex]
  simp only [hspace,htake,hdrop,signed_of_ne hsign,hitem,Option.map_some,List.take_append_drop]

theorem hexNumber_append (s t : Text) :
    hexNumber (s ++ t) = 16^t.length*hexNumber s+hexNumber t := by
  have hrun : ∀ (t : Text) n, t.foldl (fun n c => 16*n+hexValue c) n =
      16^t.length*n+hexNumber t := by
    intro t
    induction t with
    | nil => intro n; simp [hexNumber]
    | cons c t ih =>
      intro n
      have hc := ih (hexValue c)
      have hnumber : hexNumber (c :: t) = t.foldl (fun n c => 16*n+hexValue c) (hexValue c) := by
        simp [hexNumber]
      rw [List.foldl_cons,ih,hnumber,hc,List.length_cons,Nat.pow_succ]
      ring
  rw [hexNumber,List.foldl_append,hrun]
  rfl

theorem scanHex_space (width : Nat) (t : Text) : scanHex width (' ' :: t) = scanHex width t := rfl

theorem scanWord_of_word (width : Nat) {word : Text} (rest : Text) (hne : word ≠ [])
    (hwidth : word.length ≤ width) (hword : ∀ c ∈ word, isSpace c = false)
    (hrest : word.length < width → ∀ c ∈ rest.head?, isSpace c = true) :
    scanWord width (word ++ rest) = some (word,rest) := by
  obtain ⟨d,tail,rfl⟩ := List.exists_cons_of_ne_nil hne
  have hspace : (d :: tail ++ rest).dropWhile isSpace = d :: tail ++ rest := by
    rw [List.cons_append,
      List.dropWhile_cons_of_neg (by simp [hword d List.mem_cons_self])]
  have htake : (d :: tail ++ rest).take width =
      d :: tail ++ rest.take (width-(d :: tail).length) := by
    rw [List.take_append,List.take_of_length_le hwidth]
  have hall : ∀ c ∈ d :: tail, (!isSpace c) = true := fun c hc => by simp [hword c hc]
  have hitem : ((d :: tail ++ rest).take width).takeWhile (fun c => !isSpace c) = d :: tail := by
    rw [htake,List.takeWhile_append_of_pos hall]
    cases htail : rest.take (width-(d :: tail).length) with
    | nil => simp
    | cons c rest' =>
      have hhead : c ∈ rest.head? := by
        have hc := List.head?_take (l := rest) (i := width-(d :: tail).length)
        rw [htail] at hc
        split at hc
        · exact absurd hc (by simp)
        · exact hc.symm
      have hlt : (d :: tail).length < width := by
        by_contra hge
        rw [show width-(d :: tail).length = 0 by omega] at htail
        exact absurd htail (by simp)
      rw [List.takeWhile_cons_of_neg (by simp [hrest hlt c hhead]),List.append_nil]
  rw [scanWord]
  simp only [hspace,hitem,if_neg hne,List.drop_left]

theorem scanWord_dropWhile (width : Nat) (t : Text) :
    scanWord width (t.dropWhile isSpace) = scanWord width t := by
  rw [scanWord,scanWord,List.dropWhile_idempotent]

theorem scanWord_cases (width : Nat) (t : Text) :
    (tokens isSpace t = [] ∧ scanWord width t = none) ∨
      ∃ word rest, tokens isSpace t = word :: tokens isSpace rest ∧
        (word.length ≤ width → scanWord width t = some (word,rest)) := by
  rw [← scanWord_dropWhile]
  rcases tokens_cases isSpace t with ⟨hdrop,htokens⟩ | ⟨word,rest,hword,hdrop,hrest,htokens⟩
  · refine .inl ⟨htokens,?_⟩
    rw [hdrop,scanWord,List.dropWhile_nil,List.take_nil,List.takeWhile_nil]
    rfl
  · refine .inr ⟨word,rest,htokens,fun hwidth => ?_⟩
    rw [hdrop]
    exact scanWord_of_word width rest hword.nonempty hwidth hword.plain fun _ => hrest

theorem scanWord_blanks (width n : Nat) (t : Text) :
    scanWord width (List.replicate n ' ' ++ t) = scanWord width t := by
  have hspace : (List.replicate n ' ' ++ t).dropWhile isSpace = t.dropWhile isSpace :=
    List.dropWhile_append_of_pos fun c hc => by
      rw [List.eq_of_mem_replicate hc]
      rfl
  rw [scanWord,scanWord,hspace]

theorem scanDecimal_append (n : Nat) {rest : Text} (hrest : ∀ c ∈ rest.head?, c.isDigit = false) :
    scanDecimal (decimal n ++ rest) = some ((n : Int),rest) := by
  have hdigit : ∀ c ∈ decimal n, c.isDigit = true := fun c => isDigit_of_mem_decimal
  have hne : decimal n ≠ [] := Nat.toDigits_ne_nil
  have htake : (decimal n ++ rest).takeWhile Char.isDigit = decimal n := by
    rw [List.takeWhile_append_of_pos hdigit]
    cases rest with
    | nil => simp
    | cons c rest => rw [List.takeWhile_cons_of_neg (by simp [hrest c rfl]),List.append_nil]
  have hdrop : (decimal n ++ rest).dropWhile Char.isDigit = rest := by
    rw [List.dropWhile_append_of_pos hdigit]
    cases rest with
    | nil => rfl
    | cons c rest => rw [List.dropWhile_cons_of_neg (by simp [hrest c rfl])]
  have hvalue : digitsValue (decimal n ++ rest) = n := by
    have hself : (decimal n).takeWhile Char.isDigit = decimal n :=
      List.takeWhile_eq_self_iff.mpr hdigit
    have hdecimal := digitsValue_decimal n
    rw [digitsValue,hself] at hdecimal
    rw [digitsValue,htake,hdecimal]
  have hitem : decimalItem (decimal n ++ rest) = some (n,rest) := by
    rw [decimalItem,htake,if_neg hne,hdrop,hvalue]
  obtain ⟨d,tail,hd⟩ := List.exists_cons_of_ne_nil hne
  have hdd := hdigit d (hd ▸ List.mem_cons_self)
  have hspace : (decimal n ++ rest).dropWhile isSpace = decimal n ++ rest := by
    rw [hd,List.cons_append,List.dropWhile_cons_of_neg (by simp [isSpace_of_isDigit hdd])]
  have hsign : ∀ c ∈ (decimal n ++ rest).head?, c ≠ '-' ∧ c ≠ '+' := by
    intro c hc
    rw [hd,List.cons_append] at hc
    obtain rfl := Option.some_inj.mp hc
    exact ⟨fun h => absurd hdd (by rw [h]; decide),fun h => absurd hdd (by rw [h]; decide)⟩
  rw [scanDecimal,hspace,signed_of_ne hsign,hitem]
  rfl

theorem scanDecimal_decimal (n : Nat) : scanDecimal (decimal n) = some ((n : Int),[]) := by
  have h : scanDecimal (decimal n ++ []) = some ((n : Int),[]) :=
    scanDecimal_append n fun c hc => absurd hc (by simp)
  rwa [List.append_nil] at h

end Scanf
