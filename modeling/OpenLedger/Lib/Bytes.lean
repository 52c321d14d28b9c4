import Mathlib.Data.List.Basic
import Mathlib.Tactic.Ring

/-!
# Fixed-width and length-prefixed byte strings

`leBytes width value` is the little-endian rendering of `value` in `width`
bytes, and `put bytes` writes the length in eight bytes before the bytes
themselves.  A concatenation of such pieces determines every piece, because
each one says where it ends.
-/

namespace Bytes

/-- The low `width` bytes of `value`, least significant first. -/
def leBytes : Nat → Nat → List UInt8
  | 0, _ => []
  | width + 1, value => UInt8.ofNat value :: leBytes width (value / 256)

/-- The low `width` bytes of `value`, most significant first. -/
def beBytes (width value : Nat) : List UInt8 := (leBytes width value).reverse

/-- The length as a `u64`, then the bytes. -/
def put (bytes : List UInt8) : List UInt8 := leBytes 8 bytes.length ++ bytes

@[simp]
theorem length_leBytes (width value : Nat) :
    (leBytes width value).length = width := by
  induction width generalizing value with
  | zero =>
      rfl
  | succ width inductionHypothesis =>
      simp [leBytes, inductionHypothesis]

@[simp]
theorem length_beBytes (width value : Nat) :
    (beBytes width value).length = width := by
  simp [beBytes]

@[simp]
theorem length_put (bytes : List UInt8) :
    (put bytes).length = 8 + bytes.length := by
  simp [put]

/-- The bytes determine the value, up to the width they have room for. -/
theorem leBytes_inj
    {width left right : Nat}
    (leftFits : left < 256 ^ width) (rightFits : right < 256 ^ width)
    (equal : leBytes width left = leBytes width right) :
    left = right := by
  induction width generalizing left right with
  | zero =>
      simp only [pow_zero, Nat.lt_one_iff] at leftFits rightFits
      omega
  | succ width inductionHypothesis =>
      simp only [leBytes, List.cons.injEq] at equal
      have lowBytes : left % 256 = right % 256 := by
        have values := congrArg UInt8.toNat equal.1
        simpa using values
      have high : left / 256 = right / 256 := by
        refine inductionHypothesis ?_ ?_ equal.2
        · rw [Nat.div_lt_iff_lt_mul (by decide)]
          rwa [pow_succ] at leftFits
        · rw [Nat.div_lt_iff_lt_mul (by decide)]
          rwa [pow_succ] at rightFits
      omega

theorem beBytes_inj
    {width left right : Nat}
    (leftFits : left < 256 ^ width) (rightFits : right < 256 ^ width)
    (equal : beBytes width left = beBytes width right) :
    left = right :=
  leBytes_inj leftFits rightFits (List.reverse_injective equal)

/-- Two length-prefixed pieces at the front of equal byte strings are equal,
and so is what follows them. -/
theorem put_append_inj
    {left right leftRest rightRest : List UInt8}
    (leftFits : left.length < 256 ^ 8) (rightFits : right.length < 256 ^ 8)
    (equal : put left ++ leftRest = put right ++ rightRest) :
    left = right ∧ leftRest = rightRest := by
  simp only [put, List.append_assoc] at equal
  obtain ⟨prefixes, tails⟩ := List.append_inj equal (by simp)
  exact List.append_inj tails (leBytes_inj leftFits rightFits prefixes)

theorem put_injective : Function.Injective put := by
  intro left right equal
  exact (List.append_inj equal (by simp)).2

end Bytes
