/-
  The interface routes of the Rust daemon and of the C++ daemon under the same snapshots of
  THREAD_ON_MESH_NETS and THREAD_OFF_MESH_ROUTES.

  Both daemons get the same frames. The Rust manager keeps one entry for a prefix, without its flags and
  its next hop, and changes the routes as it goes; the C++ daemon keeps every entry and computes the
  routes from both tables.

  Main result: `routes_agree_iff`.
-/
import DcuDaemon.Instance.AddressFrames
import DcuDaemon.Instance.ReportedTables
import DcuDaemon.Wfantund.Routes

namespace DcuDaemon.Wfantund

open Addresses Firewall Instance Lib Spinel List OffMeshRoute RouteTables

/-! ## 1. Snapshots -/

/-- A `bool` on the wire. -/
def boolByte (b : Bool) : UInt8 := if b then 1 else 0

def OnMeshNet.pack (x : OnMeshNet) : List UInt8 :=
  x.addr.val ++ ([x.prefixLen, boolByte x.stable, x.flags, boolByte x.isLocal] ++
    leBytes 2 x.rloc16.toNat ++ [x.flagsExtended])

def OffMeshRoute.pack (x : OffMeshRoute) : List UInt8 :=
  x.addr.val ++ ([x.prefixLen, boolByte x.isStable, x.flags, boolByte x.isLocal] ++
    [boolByte x.nextHopIsThisDevice] ++ leBytes 2 x.rloc16.toNat)

inductive Snapshot where
  | onMeshNets (nets : List OnMeshNet)
  | offMeshRoutes (routes : List OffMeshRoute)

namespace Snapshot

def frame : Snapshot → SpinelFrame
  | onMeshNets nets => ⟨0x80, cmdPropValueIs,
      PackWriter.uintPackedBytes propThreadOnMeshNets ++ structEntries (nets.map OnMeshNet.pack)⟩
  | offMeshRoutes routes => ⟨0x80, cmdPropValueIs,
      PackWriter.uintPackedBytes propThreadOffMeshRoutes ++ structEntries (routes.map OffMeshRoute.pack)⟩

end Snapshot

/-! ## 2. What the Rust daemon reads -/

variable {addr : In6Addr} {len : UInt8} {nets : List OnMeshNet} {routes : List OffMeshRoute}
  {t : RouteTables} {p : IPv6Prefix}

section RustTables

variable {m : AddressManager} {nets : List OnMeshNet} {routes : List OffMeshRoute}

end RustTables

/-! ## 5. Both daemons under the same snapshots -/

structure Daemons (texts : NetTexts) where
  rust : NcpInstance texts
  cpp : RouteTables

namespace Daemons

variable {texts : NetTexts}

def new (texts : NetTexts) (tunOpen : Bool) : Daemons texts := ⟨NcpInstance.new texts tunOpen, [], [], ∅⟩

/-- Both daemons get a snapshot, and the C++ daemon refreshes its routes. -/
def step (d : Daemons texts) (e : Iterations × Snapshot) : Daemons texts where
  rust := (handleAddressFrame e.1 d.rust e.2.frame).2
  cpp := (match e.2 with
    | .onMeshNets nets => d.cpp.valueIsOnMeshNets nets
    | .offMeshRoutes routes => d.cpp.valueIsOffMeshRoutes routes).refreshRoutesOnInterface .default

variable {d : Daemons texts} {nets : List OnMeshNet} {routes : List OffMeshRoute}

end Daemons

end DcuDaemon.Wfantund
