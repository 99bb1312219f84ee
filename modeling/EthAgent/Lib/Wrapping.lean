import Mathlib

/-!
Two's complement words of any width: an integer is read back from a word exactly if
it fits, whatever was added and subtracted on the way.
-/

set_option autoImplicit false

namespace Wrapping

variable {w : Nat}

/-- The integer is one that a signed word of `w` bits holds. -/
def FitsSigned (w : Nat) (x : Int) : Prop := -(2^w : Int) ≤ 2*x ∧ 2*x < 2^w

instance (w : Nat) (x : Int) : Decidable (FitsSigned w x) :=
  inferInstanceAs (Decidable (-(2^w : Int) ≤ 2*x ∧ 2*x < 2^w))

theorem bmod_eq_self_iff {x : Int} : x.bmod (2^w) = x ↔ FitsSigned w x := by
  have hpos : 0 < 2^w := Nat.two_pow_pos w
  have hcast : ((2^w : Nat) : Int) = 2^w := by push_cast; rfl
  constructor
  · intro h
    have hle := Int.le_bmod (x := x) hpos
    have hlt := Int.bmod_lt (x := x) hpos
    rw [h,hcast] at hle hlt
    constructor <;> omega
  · rintro ⟨hle,hlt⟩
    exact Int.bmod_eq_of_le_mul_two (by rw [hcast]; omega) (by rw [hcast]; omega)

/-- A word taken as unsigned keeps its value as signed exactly if that fits. -/
theorem toInt_eq_toNat_iff (x : BitVec w) : x.toInt = x.toNat ↔ FitsSigned w x.toNat := by
  rw [BitVec.toInt_eq_toNat_bmod,bmod_eq_self_iff]

theorem toInt_intCast (x : Int) : ((x : BitVec w)).toInt = x.bmod (2^w) := BitVec.toInt_ofInt x

theorem intCast_toInt (x : BitVec w) : ((x.toInt : Int) : BitVec w) = x := BitVec.ofInt_toInt

theorem natCast_toNat (x : BitVec w) : ((x.toNat : Nat) : BitVec w) = x :=
  (BitVec.ofNat_toNat w x).trans (BitVec.setWidth_eq x)

/-- A signed word from which a constant and one unsigned word are taken, and to which
another is added. -/
theorem toInt_sub_add_sub (t p q : BitVec w) (n : Nat) :
    (t-BitVec.ofNat w n+q-p).toInt = (t.toInt-n+q.toNat-p.toNat).bmod (2^w) := by
  have hsum : t-BitVec.ofNat w n+q-p =
      ((t.toInt-n+q.toNat-p.toNat : Int) : BitVec w) := by
    push_cast
    rw [intCast_toInt,natCast_toNat,natCast_toNat]
    rfl
  rw [hsum,toInt_intCast]

end Wrapping
