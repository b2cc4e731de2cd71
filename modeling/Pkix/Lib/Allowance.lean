import Mathlib.Data.List.Count
import Mathlib.Order.Lattice

/-! An allowance spent along a list: some items cost one unit, and an item may lower what is
left. Spending succeeds when every bound covers the cost of what comes after it. -/

namespace Pkix.Allowance

variable {α : Type} (costs : α → Bool) (cap : α → Option Nat)

def lowered (allowance : Nat) : Option Nat → Nat
  | none => allowance
  | some bound => if bound < allowance then bound else allowance

variable {costs cap}

end Pkix.Allowance
