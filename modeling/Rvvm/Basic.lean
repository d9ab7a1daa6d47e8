import Mathlib.Logic.Function.Basic
import Mathlib.Algebra.Group.Int
import Mathlib.Algebra.Order.Ring.Nat

/-!
# Bit helpers and failing computations

The trap engine and the ATA registers read and write bit fields through `bit_cut`,
`bit_replace` and `bit_check`. Their header is not part of the source, so they are modelled
from the spec's "bit extract/replace helpers" on bit vectors of the width of the C operand.
The lemmas below say what each helper does to a single bit; every later proof about a status
word goes through them and never unfolds the helpers.

Code whose result C leaves undefined is modelled in `Except`; the last section gives the bind
lemmas every proof about such code peels computations apart with.
-/

namespace Rvvm

variable {w : Nat}

/-- Modelled from the spec: `bit_cut(val, pos, bits)` of `bit_ops.h` (not in the source)
extracts the `bits` bits of `val` that start at bit `pos`. -/
def bitCut (val : BitVec w) (pos bits : Nat) : BitVec w :=
  (val >>> pos) &&& BitVec.ofNat w (2 ^ bits - 1)

/-- Modelled from the spec: `bit_replace(val, pos, bits, rep)` of `bit_ops.h` (not in the
source) replaces bits `pos .. pos + bits - 1` of `val` by the low `bits` bits of `rep`. -/
def bitReplace (val : BitVec w) (pos bits : Nat) (rep : BitVec w) : BitVec w :=
  (val &&& ~~~(BitVec.ofNat w (2 ^ bits - 1) <<< pos)) |||
    ((rep &&& BitVec.ofNat w (2 ^ bits - 1)) <<< pos)

/-- Modelled from the spec: `bit_check(val, pos)` of `bit_ops.h` (not in the source) tests
bit `pos` of `val`. -/
def bitCheck (val : BitVec w) (pos : Nat) : Bool :=
  val.getLsbD pos

@[simp] theorem getLsbD_bitCut (val : BitVec w) (pos bits i : Nat) :
    (bitCut val pos bits).getLsbD i = (decide (i < bits) && val.getLsbD (pos + i)) := by
  by_cases hi : i < w
  · simp [bitCut, BitVec.getLsbD_ofNat, Nat.testBit_two_pow_sub_one, hi, Bool.and_comm]
  · simp [bitCut, BitVec.getLsbD_ge val (pos + i) (by omega), BitVec.getLsbD_ofNat, hi]

/-- Inside the field `bit_replace` reads the replacement, outside it keeps `val`. -/
theorem getLsbD_bitReplace (val rep : BitVec w) (pos bits : Nat) {i : Nat} (hi : i < w) :
    (bitReplace val pos bits rep).getLsbD i =
      if pos ≤ i ∧ i < pos + bits then rep.getLsbD (i - pos) else val.getLsbD i := by
  have hw : i - pos < w := by omega
  simp only [bitReplace, BitVec.getLsbD_or, BitVec.getLsbD_and, BitVec.getLsbD_not,
    BitVec.getLsbD_shiftLeft, BitVec.getLsbD_ofNat, Nat.testBit_two_pow_sub_one, hi, hw]
  by_cases hf : pos ≤ i ∧ i < pos + bits
  · simp [hf, show i - pos < bits by omega, show ¬ i < pos by omega]
  · by_cases hp : i < pos
    · simp [hf, hp]
    · simp [hf, hp, show ¬ i - pos < bits by omega]

/-! ## `Except` -/

section Except

variable {ε α β : Type}

@[simp] theorem Except.ok_bind (a : α) (f : α → Except ε β) : (Except.ok a >>= f) = f a := rfl

@[simp] theorem Except.error_bind (e : ε) (f : α → Except ε β) :
    (Except.error e >>= f : Except ε β) = .error e := rfl

@[simp] theorem Except.map_ok' (a : α) (f : α → β) :
    (f <$> Except.ok a : Except ε β) = .ok (f a) := rfl

@[simp] theorem Except.map_error' (e : ε) (f : α → β) :
    (f <$> (Except.error e : Except ε α)) = .error e := rfl

theorem Except.bind_eq_ok {x : Except ε α} {f : α → Except ε β} {b : β} :
    x >>= f = .ok b ↔ ∃ a, x = .ok a ∧ f a = .ok b := by
  cases x <;> simp

theorem Except.map_eq_ok {x : Except ε α} {f : α → β} {b : β} :
    f <$> x = .ok b ↔ ∃ a, x = .ok a ∧ f a = b := by
  cases x <;> simp

theorem Except.map_eq_error {x : Except ε α} {f : α → β} {e : ε} :
    f <$> x = .error e ↔ x = .error e := by
  cases x <;> simp

end Except

end Rvvm
