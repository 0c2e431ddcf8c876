/-
**Vectors of numbers.**

The operations that the search for a maximum applies to points, gradients and directions.

Main definitions:

* `Arrow.dot` — the inner product, summed in eight lanes;
* `Arrow.length` — the Euclidean length, its squares summed from left to right;
* `Arrow.along` — the point reached from `x` by a step of the given size along `d`.
-/
import MarkovLogic.Scalar.Summation

set_option autoImplicit false

namespace MarkovLogic.Arrow

variable {R : Type} {n : Nat}

/-- The inner product. -/
def dot [Zero R] [Add R] [Mul R] (a b : Vector R n) : R :=
  blockedSum (List.zipWith (· * ·) a.toList b.toList)

/-- The componentwise difference. -/
def sub [Sub R] (a b : Vector R n) : Vector R n := Vector.zipWith (· - ·) a b

/-- Every entry with the other sign. -/
def neg [Neg R] (a : Vector R n) : Vector R n := a.map fun x => -x

/-- Every entry times `c`. -/
def scale [Mul R] (a : Vector R n) (c : R) : Vector R n := a.map fun x => x * c

/-- The point `x + t * d`. -/
def along [Add R] [Mul R] (x : Vector R n) (t : R) (d : Vector R n) : Vector R n :=
  Vector.zipWith (fun x d => x + t * d) x d

/-- The Euclidean length. -/
def length (a : Vector Float n) : Float := (runningSum (a.toList.map fun x => x * x)).sqrt

end MarkovLogic.Arrow
