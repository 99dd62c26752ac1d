import Minimization.Function.Basic

/-!
# Functions in closed form

Constant and affine functions, with their gradients, and the corresponding fields. The affine function
hands out copies of its coefficients, the constant field the array itself.
-/

namespace Minimization

variable {m : Type → Type} [Monad m] {α : Type} [Scalar α]

/-- The function that is a constant. Its gradient is the vector times zero, so it is not zero where the
vector is not finite. -/
def ScalarFunction.constant (c : α) : ScalarFunction m α :=
  .withGradient (some fun _ => pure (.ofNumber c))
    (some (.field (some fun x => pure (x.scale Scalar.zero))))

/-- The function `⟨coefficients, x⟩ + c`; its gradient is kept with precision `p`. -/
def ScalarFunction.affine (p : Precision) (coefficients : Tensor α) (c : α) : ScalarFunction m α :=
  .withGradient
    (some fun x => do
      let product ← coefficients.inner x
      return .ofNumber (product + c))
    (some (.field (some fun _ => pure (coefficients.convert p))))

/-- The field that is a constant. -/
def VectorFunction.constant (c : Tensor α) : VectorFunction m α := .held c

/-- The field `transform x + c`, with products kept with precision `p`. -/
def VectorFunction.affine (p : Precision) (transform c : Tensor α) : VectorFunction m α :=
  .field (some fun x => do
    let product ← transform.product p x
    product.add c)

end Minimization
