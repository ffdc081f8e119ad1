/-
Machine integers. Lines, columns and offsets are whole numbers of 64 bits with a sign, and a sum that
is too large or too small for these comes back in at the other end of their range.
-/
namespace SemFront.Word

/-- What 64 bits keep of a sum or a difference. -/
def wrap (n : Int) : Int := n.bmod 0x10000000000000000

/-- A number that has 64 bits. -/
def Holds (n : Int) : Prop := -0x8000000000000000 ≤ n ∧ n < 0x8000000000000000

instance (n : Int) : Decidable (Holds n) := inferInstanceAs (Decidable (_ ∧ _))

theorem wrap_of_holds {n : Int} (h : Holds n) : wrap n = n := by
  unfold Holds at h
  exact Int.bmod_eq_of_le (by omega) (by omega)

end SemFront.Word
