import FieldDiscovery.Correlation.Evidence
import FieldDiscovery.Lib.Table
import FieldDiscovery.Repository.Sqlite

/-!
# The table of facts

The rows of `observations`, which every persistence path of the repository writes.
-/

namespace FieldDiscovery.Repository

open Py Correlation

/-- A row of `observations`. -/
structure ObservationRow where
  deploymentId : Nat
  subjectType : Str
  subjectId : Option Nat
  factType : Str
  factValueJson : Str
  confidence : Confidence
  inferred : Bool
  source : Str
  observedAt : Str
  deriving DecidableEq

/-- The index `observations_exact_fact` covers every column. -/
def ObservationRow.key (r : ObservationRow) : Option ObservationRow := some r

end FieldDiscovery.Repository
