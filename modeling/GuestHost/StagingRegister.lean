/-!
The staging register: the high word of a 64-bit value on its way across a 32-bit call.
-/

namespace GuestHost

structure StagingRegister where
  value : BitVec 32 := 0
  deriving DecidableEq, Repr, Inhabited

namespace StagingRegister

/-- The low word of `v` is returned and the high word is staged. -/
def split (v : BitVec 64) : BitVec 32 × StagingRegister :=
  (v.setWidth 32, ⟨(v >>> 32).setWidth 32⟩)

def combine (r : StagingRegister) (low : BitVec 32) : BitVec 64 :=
  r.value ++ low

def describe (r : StagingRegister) : String :=
  "StagingRegister \x7b value: " ++ toString r.value.toInt ++ " \x7d"

theorem combine_split (v : BitVec 64) : (split v).2.combine (split v).1 = v := by
  apply BitVec.eq_of_getLsbD_eq
  intro i hi
  simp only [split, combine, BitVec.getLsbD_append, BitVec.getLsbD_setWidth,
    BitVec.getLsbD_ushiftRight]
  grind

theorem split_combine (r : StagingRegister) (low : BitVec 32) :
    split (r.combine low) = (low, r) := by
  apply Prod.ext
  · apply BitVec.eq_of_getLsbD_eq
    intro i hi
    simp only [split, combine, BitVec.getLsbD_setWidth, BitVec.getLsbD_append]
    grind
  · apply congrArg StagingRegister.mk
    apply BitVec.eq_of_getLsbD_eq
    intro i hi
    simp only [combine, BitVec.getLsbD_setWidth, BitVec.getLsbD_ushiftRight,
      BitVec.getLsbD_append]
    grind

end StagingRegister

end GuestHost
