import Criteria.Entries
import Criteria.Number.Reading

/-!
# Records

A record gives values to fields. Its entries are kept in increasing order of the names, which is
the order of their code points, so that records with the same values are equal.
-/

namespace Criteria

open Number (Binary64)

/-- What a field can hold. -/
inductive Value where
  | boolean (value : Bool)
  | number (value : Binary64)
  | text (value : String)
deriving DecidableEq

/-- The values of fields. -/
structure Record where
  entries : List (String × Value) := []
  increasing : Entries.Increasing entries := by simp

namespace Record

/-- Gives a value to a field, in place of the one that it may have. -/
def insert (record : Record) (field : String) (value : Value) : Record :=
  ⟨Entries.insert field value record.entries, Entries.increasing_insert record.increasing⟩

/-- The record with these values; of a field that occurs twice the last value counts. -/
def ofList (entries : List (String × Value)) : Record :=
  ⟨Entries.ofList entries, Entries.increasing_ofList entries⟩

/-- The value of a field. -/
def get? (record : Record) (field : String) : Option Value :=
  Entries.get? record.entries field

end Record

end Criteria
