import Mathlib.Logic.Function.Basic
import Mathlib.Algebra.Group.Int

/-!
# The fallback atomics of `atomic.h`

Without C11 atomics and without the GCC builtins, `atomic.h` defines each atomic operation as a
plain C expression over `int` objects (`atomic_int` is `int` there). What such a macro does then
follows from C's grammar and evaluation rules alone. `Expr` is the fragment of C the macros
use, and `eval` lists every outcome C permits: one for each order of the unsequenced operands of
`+`, `-` and `==`, and `none` for undefined behaviour. Two things are undefined here: a signed
overflow, and two unsequenced operands one of which stores to an object the other reads or stores
to (C11 6.5p2). For the second, an evaluation also records the objects it read and wrote.

The comma before `false` in the compare-exchange macro lies outside the conditional, so the
macro has the C11 effect on memory but always yields `false` (`eval_atomicCompareExchangeWeak`).
The exchange macro reads `*A` in one operand of `-` and stores to it in the other, so it is
undefined whatever the memory holds (`eval_atomicExchange`).
-/

namespace Rvvm.Atomic

/-- `INT_MIN` of the 32-bit `int` of the hosts RVVM runs on. -/
def intMin : Int := -2 ^ 31

/-- `INT_MAX` of the 32-bit `int` of the hosts RVVM runs on. -/
def intMax : Int := 2 ^ 31 - 1

/-- A value an `int` can hold. -/
def InRange (v : Int) : Prop := intMin ≤ v ∧ v ≤ intMax

instance (v : Int) : Decidable (InRange v) := inferInstanceAs (Decidable (_ ∧ _))

/-- The result of `int` arithmetic: the value, or `none` when it leaves the range of `int`,
which C leaves undefined. -/
def intResult (v : Int) : Option Int := if InRange v then some v else none

/-- The `int` objects the macros touch, by address. -/
abbrev Mem := Nat → Int

/-- The C expressions the fallback macros expand to, over `int` objects at addresses `p`. -/
inductive Expr where
  /-- An integer constant; `true` and `false` are `1` and `0`. -/
  | lit (v : Int)
  /-- `*(p)`. -/
  | load (p : Nat)
  /-- `*(p) = e`. -/
  | assign (p : Nat) (e : Expr)
  | add (a b : Expr)
  | sub (a b : Expr)
  /-- `a == b`. -/
  | eq (a b : Expr)
  /-- `c ? t : e`. -/
  | cond (c t e : Expr)
  /-- `a, b`. -/
  | comma (a b : Expr)

/-! ## Evaluation -/

/-- The objects an evaluation read and the objects it stored to. -/
structure Footprint where
  reads : List Nat
  writes : List Nat

/-- The accesses of two evaluations together. -/
def Footprint.union (f g : Footprint) : Footprint := ⟨f.reads ++ g.reads, f.writes ++ g.writes⟩

/-- Two unsequenced evaluations conflict when one stores to an object the other reads or stores
to, which C11 6.5p2 makes undefined. -/
def Footprint.conflicts (f g : Footprint) : Bool :=
  f.writes.any (fun p => g.reads.contains p || g.writes.contains p) ||
    g.writes.any fun p => f.reads.contains p

/-- What an evaluation can end in: a value and the memory after it, or `none` for undefined
behaviour. -/
abbrev Outcome := Option (Int × Mem)

/-- An outcome together with the accesses that led to it. -/
abbrev Traced := Option (Int × Mem × Footprint)

/-- Evaluate `a` completely, then `b`, and combine their values with `f`; undefined when the two
conflict. -/
def inOrder (ea eb : Mem → List Traced) (f : Int → Int → Option Int) (m : Mem) :
    List Traced :=
  (ea m).flatMap fun
    | none => [none]
    | some (x, m, fa) => (eb m).map fun
      | none => none
      | some (y, m, fb) =>
        if fa.conflicts fb then none else (f x y).map fun v => (v, m, fa.union fb)

/-- The operands of `+`, `-` and `==` are unsequenced: either may be evaluated first. -/
def unsequenced (ea eb : Mem → List Traced) (f : Int → Int → Option Int) (m : Mem) :
    List Traced :=
  inOrder ea eb f m ++ inOrder eb ea (fun y x => f x y) m

/-- `b`, evaluated after an operand that accessed `fa`, with the accesses of both. The first
operand of `?:` and of `,` is sequenced before the rest. -/
def after (fa : Footprint) (rest : List Traced) : List Traced :=
  rest.map (Option.map fun (v, m, fb) => (v, m, fa.union fb))

/-- Every outcome of `e` from memory `m`, with the accesses behind it. -/
def evalTraced : Expr → Mem → List Traced
  | .lit v, m => [some (v, m, ⟨[], []⟩)]
  | .load p, m => [some (m p, m, ⟨[p], []⟩)]
  | .assign p e, m =>
    (evalTraced e m).map
      (Option.map fun (v, m, f) => (v, Function.update m p v, ⟨f.reads, p :: f.writes⟩))
  | .add a b, m => unsequenced (evalTraced a) (evalTraced b) (fun x y => intResult (x + y)) m
  | .sub a b, m => unsequenced (evalTraced a) (evalTraced b) (fun x y => intResult (x - y)) m
  | .eq a b, m =>
    unsequenced (evalTraced a) (evalTraced b) (fun x y => some (if x = y then 1 else 0)) m
  | .cond c t e, m => (evalTraced c m).flatMap fun
      | none => [none]
      | some (v, m, fc) => after fc (if v ≠ 0 then evalTraced t m else evalTraced e m)
  | .comma a b, m => (evalTraced a m).flatMap fun
      | none => [none]
      | some (_, m, fa) => after fa (evalTraced b m)

/-- Every outcome C permits for `e` from memory `m`. -/
def eval (e : Expr) (m : Mem) : List Outcome :=
  (evalTraced e m).map (Option.map fun (v, m, _) => (v, m))

/-! ## The macros -/

/-- `atomic_exchange(A, C)`: `((*(A) + (C)) - (*(A) = (C)))`. -/
def atomicExchange (a : Nat) (c : Int) : Expr :=
  .sub (.add (.load a) (.lit c)) (.assign a (.lit c))

/-- `atomic_compare_exchange_weak(A, E, D)`:
`((*(A) == *(E)) ? (*(A) = (D)), true : (*(E) = *(A)), false)`. The operand after `:` is a
conditional-expression, which holds no top-level comma, so C reads the text as
`(c ? ((*(A) = (D)), true) : (*(E) = *(A))), false`. -/
def atomicCompareExchangeWeak (a e : Nat) (d : Int) : Expr :=
  .comma (.cond (.eq (.load a) (.load e)) (.comma (.assign a (.lit d)) (.lit 1))
    (.assign e (.load a))) (.lit 0)

/-- `atomic_compare_exchange_strong(A, E, D)`: the weak macro. -/
def atomicCompareExchangeStrong (a e : Nat) (d : Int) : Expr :=
  atomicCompareExchangeWeak a e d

/-- `atomic_store(A, C)`: `(*(A) = (C))`. -/
def atomicStore (a : Nat) (c : Int) : Expr := .assign a (.lit c)

/-! ## The C11 operations

`atomic_exchange` and `atomic_compare_exchange_weak/strong` as C11 defines them, run by one
thread. -/

/-- C11 `atomic_exchange(A, C)`: the old `*A`, and `*A = C`. -/
def c11Exchange (m : Mem) (a : Nat) (c : Int) : Int × Mem := (m a, Function.update m a c)

/-- C11 `atomic_compare_exchange_weak/strong(A, E, D)`: `true` and `*A = D` when `*A == *E`,
otherwise `false` and `*E = *A`. -/
def c11CompareExchange (m : Mem) (a e : Nat) (d : Int) : Bool × Mem :=
  if m a = m e then (true, Function.update m a d) else (false, Function.update m e (m a))

/-! ## What the macros do -/

/-- Two loads never conflict. -/
@[simp] theorem conflicts_reads (r r' : List Nat) :
    Footprint.conflicts ⟨r, []⟩ ⟨r', []⟩ = false := by
  simp [Footprint.conflicts]

/-- The compare-exchange macro has the C11 effect on memory, under either order of its `==`, and
always yields `false`. -/
theorem eval_atomicCompareExchangeWeak (m : Mem) (a e : Nat) (d : Int) :
    eval (atomicCompareExchangeWeak a e d) m =
      [some (0, (c11CompareExchange m a e d).2), some (0, (c11CompareExchange m a e d).2)] := by
  by_cases h : m a = m e <;>
    simp [eval, evalTraced, atomicCompareExchangeWeak, unsequenced, inOrder, after,
      Footprint.union, c11CompareExchange, h]

/-- The exchange macro is undefined in every order of evaluation, whatever the memory and the
value: the store to `*A` in one operand of `-` is unsequenced with the read of `*A` in the
other. -/
theorem eval_atomicExchange (m : Mem) (a : Nat) (c : Int) :
    eval (atomicExchange a c) m = [none, none, none, none] := by
  simp [eval, evalTraced, atomicExchange, unsequenced, inOrder, Footprint.conflicts,
    Footprint.union, intResult]
  split_ifs <;> simp

/-! ## Against C11 -/

/-- With `*A = *E = 0`, the compare-exchange macro stores `D = 1` into `*A` but yields `false`,
where C11 yields `true`; and with `*A = 0`, exchanging in `1` has no defined outcome, where C11
yields the old `0`. -/
theorem fallback_atomics_diverge :
    let m : Mem := fun _ => 0
    (eval (atomicCompareExchangeWeak 0 1 1) m).map (Option.map fun r => (r.1, r.2 0, r.2 1)) =
        [some (0, 1, 0), some (0, 1, 0)] ∧
      (c11CompareExchange m 0 1 1).1 = true ∧
      eval (atomicExchange 0 1) m = [none, none, none, none] ∧
      (c11Exchange m 0 1).1 = 0 := by
  intro m
  refine ⟨?_, rfl, eval_atomicExchange m 0 1, rfl⟩
  rw [eval_atomicCompareExchangeWeak]
  rfl

end Rvvm.Atomic
