import Mathlib

/-!
# Conditions over missing values

A condition of a query is true, false or unknown: a comparison with a missing
value is unknown, and a row is taken only where the condition is true.  The
connectives are those of three-valued logic; what a taken row satisfies is
two-valued again (`taken_and`, `taken_or`).
-/

namespace ClawMessenger.Verified.SqlLogic

variable {α : Type*}

abbrev Truth := Option Bool

def and : Truth → Truth → Truth
  | some false, _ => some false
  | _, some false => some false
  | some true, b => b
  | a, some true => a
  | none, none => none

def or : Truth → Truth → Truth
  | some true, _ => some true
  | _, some true => some true
  | some false, b => b
  | a, some false => a
  | none, none => none

/-- A comparison of a value that may be missing. -/
def compare (value : Option α) (test : α → Bool) : Truth := value.map test

def isNull (value : Option α) : Truth := some value.isNone

def taken (truth : Truth) : Bool := truth = some true

@[simp] theorem taken_some (b : Bool) : taken (some b) = b := by
  cases b <;> rfl

@[simp] theorem taken_and (a b : Truth) : taken (and a b) = (taken a && taken b) := by
  rcases a with _ | _ | _ <;> rcases b with _ | _ | _ <;> rfl

@[simp] theorem taken_or (a b : Truth) : taken (or a b) = (taken a || taken b) := by
  rcases a with _ | _ | _ <;> rcases b with _ | _ | _ <;> rfl

@[simp] theorem taken_compare (value : Option α) (test : α → Bool) :
    taken (compare value test) = value.any test := by
  cases value with
  | none => rfl
  | some value => exact taken_some _

@[simp] theorem taken_isNull (value : Option α) : taken (isNull value) = value.isNone :=
  taken_some _

end ClawMessenger.Verified.SqlLogic
