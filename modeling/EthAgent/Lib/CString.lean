import Mathlib

/-!
Text as C programs hold it: the characters before the terminating NUL, in a
buffer of fixed size or in one of the caller's choosing.
-/

set_option autoImplicit false

namespace CString

abbrev Text := List Char

/-- A terminated string in a buffer of `cap` bytes, one of them for the NUL. -/
structure Buf (cap : Nat) where
  text : Text
  fits : text.length < cap
  deriving DecidableEq

variable {cap : Nat}

theorem Buf.ext_text {s t : Buf cap} (h : s.text = t.text) : s = t := by
  cases s; cases t; simp_all

/-- The buffer after a copy bounded by its size: `snprintf` with the size, or
`strncpy` with one less into a buffer whose last byte is NUL. -/
def Buf.store [NeZero cap] (t : Text) : Buf cap :=
  ⟨t.take (cap-1),by
    have hc := Nat.pos_of_ne_zero (NeZero.ne cap)
    have hl := List.length_take_le (cap-1) t
    omega⟩

theorem Buf.store_text_of_lt [NeZero cap] {t : Text} (h : t.length < cap) :
    (Buf.store t : Buf cap).text = t := List.take_of_length_le (by omega)

/-- Copying between buffers of one size loses nothing. -/
@[simp] theorem Buf.store_text [NeZero cap] (s : Buf cap) : Buf.store s.text = s :=
  Buf.ext_text (Buf.store_text_of_lt s.fits)

/-- `%d` and `%lu` of a number that is not negative. -/
def decimal (n : Nat) : Text := Nat.toDigits 10 n

/-- `%d` of the `int` that `n` becomes. -/
def intDecimal (n : Nat) : Text :=
  if n%2^32 < 2^31 then decimal (n%2^32) else '-' :: decimal (2^32-n%2^32)

def isSpace (c : Char) : Bool := c ∈ [' ','\t','\n','\x0b','\x0c','\r']

def digitsValue (t : Text) : Nat :=
  (t.takeWhile Char.isDigit).foldl (fun n c => 10*n+(c.toNat - '0'.toNat)) 0

def atoi (t : Text) : Int :=
  match t.dropWhile isSpace with
  | '-' :: t => -digitsValue t
  | '+' :: t => digitsValue t
  | t => digitsValue t

theorem isSpace_of_isHexDigit {c : Char} (hc : c.isHexDigit = true) : isSpace c = false := by
  refine decide_eq_false fun hmem => ?_
  simp only [List.mem_cons,List.not_mem_nil,or_false] at hmem
  rcases hmem with rfl | rfl | rfl | rfl | rfl | rfl <;> exact absurd hc (by decide)

theorem isHexDigit_of_isDigit {c : Char} (hc : c.isDigit = true) : c.isHexDigit = true := by
  rw [Char.isHexDigit,hc]
  rfl

theorem isSpace_of_isDigit {c : Char} (hc : c.isDigit = true) : isSpace c = false :=
  isSpace_of_isHexDigit (isHexDigit_of_isDigit hc)

theorem isDigit_of_mem_decimal {n : Nat} {c : Char} (hc : c ∈ decimal n) : c.isDigit = true :=
  Nat.isDigit_of_mem_toDigits (by decide) (by decide) hc

theorem digitsValue_decimal (n : Nat) : digitsValue (decimal n) = n := by
  rw [digitsValue,List.takeWhile_eq_self_iff.mpr fun c hc => isDigit_of_mem_decimal hc]
  exact Nat.ofDigitChars_ten_toDigits

theorem atoi_digits {t : Text} (hne : t ≠ []) (ht : ∀ c ∈ t, c.isDigit = true) :
    atoi t = digitsValue t := by
  obtain ⟨c,t',rfl⟩ := List.exists_cons_of_ne_nil hne
  have hc := ht c List.mem_cons_self
  have hminus : c ≠ '-' := fun h => absurd hc (by simp [h])
  have hplus : c ≠ '+' := fun h => absurd hc (by simp [h])
  have hspace : (c :: t').dropWhile isSpace = c :: t' := by
    rw [List.dropWhile_cons_of_neg (by simp [isSpace_of_isDigit hc])]
  unfold atoi
  rw [hspace]
  split
  · next h => exact absurd (List.cons.inj h).1 hminus
  · next h => exact absurd (List.cons.inj h).1 hplus
  · rfl

theorem atoi_decimal (n : Nat) : atoi (decimal n) = n := by
  have hne : decimal n ≠ [] := Nat.toDigits_ne_nil
  rw [atoi_digits hne fun c => isDigit_of_mem_decimal,digitsValue_decimal]

theorem decimal_injective {m n : Nat} (h : decimal m = decimal n) : m = n := by
  have hm := Nat.ofDigitChars_ten_toDigits (n := m)
  rw [decimal,decimal] at h
  rw [h] at hm
  exact hm.symm.trans Nat.ofDigitChars_ten_toDigits

theorem length_decimal_le {n k : Nat} (hk : 0 < k) (hn : n < 10^k) : (decimal n).length ≤ k :=
  (Nat.length_toDigits_le_iff (by decide) hk).mpr hn

theorem length_intDecimal_le (n : Nat) : (intDecimal n).length ≤ 11 := by
  unfold intDecimal
  split
  · have h : (decimal (n%2^32)).length ≤ 10 := length_decimal_le (by decide) (by omega)
    omega
  · have h : (decimal (2^32-n%2^32)).length ≤ 10 := length_decimal_le (by decide) (by omega)
    rw [List.length_cons]
    omega

def nul : Char := Char.ofNat 0

structure CStr where
  text : Text
  noNul : nul ∉ text

/-- An array of `cap` characters in memory that nobody clears: the string in all its
bytes but the last, and the last byte. -/
structure Chars (cap : Nat) where
  front : Text
  last : Char
  fits : front.length < cap
  deriving DecidableEq

namespace Chars

/-- What the last byte adds to a string that reaches it. -/
def tail (s : Chars cap) : Text := if s.last = nul then [] else [s.last]

def text (s : Chars cap) : Text :=
  if s.front.length+1 = cap then s.front ++ s.tail else s.front

def cleared (cap : Nat) [NeZero cap] : Chars cap :=
  ⟨[],nul,Nat.pos_of_ne_zero (NeZero.ne cap)⟩

/-- `strncpy` with one less than the size, which leaves the last byte as it is. -/
def strncpy [NeZero cap] (s : Chars cap) (t : Text) : Chars cap :=
  ⟨t.take (cap-1),s.last,(Buf.store t : Buf cap).fits⟩

/-- `snprintf` with the size puts a NUL behind the text, or into the last byte. -/
def snprintf [NeZero cap] (s : Chars cap) (t : Text) : Chars cap :=
  ⟨t.take (cap-1),if cap ≤ t.length+1 then nul else s.last,(Buf.store t : Buf cap).fits⟩

/-- The text is read back after it was copied here by `strncpy`. -/
def Takes (s : Chars cap) (t : Text) : Prop :=
  t.length+1 < cap ∨ t.drop (cap-1) = s.tail

instance (s : Chars cap) (t : Text) : Decidable (s.Takes t) :=
  inferInstanceAs (Decidable (_ ∨ _))

variable {s : Chars cap}

theorem length_tail_le (s : Chars cap) : s.tail.length ≤ 1 := by
  unfold tail
  split <;> simp

/-- A copy bounded by the size takes the string without the last byte. -/
theorem take_text (s : Chars cap) : s.text.take (cap-1) = s.front := by
  have hfits := s.fits
  unfold text
  split
  · next hfull =>
    have hlen : cap-1 = s.front.length := by omega
    rw [hlen,List.take_left]
  · rw [List.take_of_length_le (by omega)]

theorem front_of_text {t : Text} (h : s.text = t) (ht : t.length < cap) : s.front = t := by
  rw [← take_text,h,List.take_of_length_le (by omega)]

theorem takes_of_cleared {t : Text} (ht : t.length < cap) (hs : s.last = nul) : s.Takes t := by
  refine .inr ?_
  rw [tail,if_pos hs,List.drop_of_length_le (by omega)]

variable [NeZero cap]

theorem strncpy_strncpy (s s' : Chars cap) (t : Text) :
    s.strncpy (s'.strncpy t).text = s.strncpy t := by
  unfold strncpy
  congr 1
  exact take_text _

theorem text_snprintf (s : Chars cap) (t : Text) : (s.snprintf t).text = t.take (cap-1) := by
  unfold text snprintf tail
  by_cases hlong : cap ≤ t.length+1
  · simp [hlong]
  · have hpos := Nat.pos_of_ne_zero (NeZero.ne cap)
    rw [if_neg]
    rw [List.length_take]
    omega

theorem length_snprintf_le (s : Chars cap) (t : Text) :
    (s.snprintf t).text.length ≤ t.length := by
  rw [text_snprintf]
  exact List.length_take_le' _ t

/-- Cleared memory stays so at its last byte. -/
theorem last_snprintf {t : Text} (h : s.last = nul) : (s.snprintf t).last = nul := by
  simp [snprintf,h]

theorem text_strncpy (s : Chars cap) (t : Text) :
    (s.strncpy t).text = t.take (cap-1) ++ if cap ≤ t.length+1 then s.tail else [] := by
  have hpos := Nat.pos_of_ne_zero (NeZero.ne cap)
  have hfull : (t.take (cap-1)).length+1 = cap ↔ cap ≤ t.length+1 := by
    rw [List.length_take]
    omega
  unfold text strncpy
  simp only [hfull]
  split
  · rfl
  · rw [List.append_nil]

theorem takes_iff {t : Text} : (s.strncpy t).text = t ↔ s.Takes t := by
  have hpos := Nat.pos_of_ne_zero (NeZero.ne cap)
  rw [text_strncpy]
  by_cases hlong : cap ≤ t.length+1
  · have hsplit := List.take_append_drop (cap-1) t
    have hshort : ¬t.length+1 < cap := by omega
    rw [if_pos hlong,Takes,or_iff_right hshort]
    constructor
    · intro h
      rw [← List.append_cancel_left (h.trans hsplit.symm)]
    · intro h
      rw [← h,hsplit]
  · have hshort : t.length+1 < cap := by omega
    rw [if_neg hlong,List.append_nil,List.take_of_length_le (by omega)]
    exact iff_of_true rfl (.inl hshort)

theorem strncpy_eq_self_iff {t : Text} : s.strncpy t = s ↔ s.front = t.take (cap-1) := by
  constructor
  · intro h
    exact (congrArg front h).symm
  · intro h
    cases s
    subst h
    rfl

theorem strncpy_of_take {t : Text} (h : t.take (cap-1) = s.text) : s.strncpy t = s := by
  have htake := s.take_text
  rw [← h,List.take_take,Nat.min_self] at htake
  exact strncpy_eq_self_iff.mpr htake.symm

end Chars

/-- A field of `cap` bytes that was zeroed before `t` was copied into it. -/
def field (cap : Nat) (t : Text) : Text := (t ++ List.replicate cap nul).take cap

def untilNul (bytes : Text) : Text := bytes.takeWhile (· ≠ nul)

/-- The four bytes of an `int` that is not negative, least significant first. -/
def intBytes (n : Nat) : Text :=
  [n%256,n/256%256,n/256^2%256,n/256^3%256].map Char.ofNat

def intOfBytes (bytes : Text) : Nat := bytes.foldr (fun c n => c.toNat+256*n) 0

@[simp] theorem length_field (cap : Nat) (t : Text) : (field cap t).length = cap := by
  simp [field]

@[simp] theorem length_intBytes (n : Nat) : (intBytes n).length = 4 := rfl

theorem field_of_le {t : Text} (h : t.length ≤ cap) :
    field cap t = t ++ List.replicate (cap-t.length) nul := by
  rw [field,List.take_append,List.take_of_length_le h,List.take_replicate]
  congr 2
  omega

theorem take_field {t : Text} (h : t.length ≤ cap) : (field cap t).take t.length = t := by
  rw [field_of_le h,List.take_left]

theorem untilNul_field {t : Text} (ht : nul ∉ t) (h : t.length < cap) :
    untilNul (field cap t) = t := by
  have hpos : cap-t.length = (cap-t.length-1)+1 := by omega
  have hall : ∀ c ∈ t, decide (c ≠ nul) = true := fun c hc => by
    simpa using fun he : c = nul => ht (he ▸ hc)
  rw [untilNul,field_of_le (by omega),List.takeWhile_append_of_pos hall,hpos,
    List.replicate_succ]
  simp

theorem set_last_field {t : Text} (h : t.length < cap) :
    (field cap t).set (cap-1) nul = field cap t := by
  apply List.ext_getElem?
  intro i
  rw [List.getElem?_set]
  split
  · next hi =>
    subst hi
    have hlt : cap-1 < cap := by omega
    have hin : cap-1-t.length < cap-t.length := by omega
    rw [length_field,if_pos hlt,field_of_le (by omega),List.getElem?_append_right (by omega),
      List.getElem?_replicate,if_pos hin]
  · rfl

theorem intOfBytes_intBytes {n : Nat} (h : n < 256^4) : intOfBytes (intBytes n) = n := by
  have hchar : ∀ k : Fin 256, (Char.ofNat k).toNat = k := by decide +kernel
  have hbyte : ∀ m, (Char.ofNat (m%256)).toNat = m%256 := fun m =>
    hchar ⟨m%256,Nat.mod_lt m (by decide)⟩
  simp only [intOfBytes,intBytes,List.map_cons,List.map_nil,List.foldr_cons,List.foldr_nil,hbyte]
  omega

end CString
