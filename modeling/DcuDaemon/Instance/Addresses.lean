/-
  The address, prefix and route manager (`crates/dcu-tunnel-daemon/src/instance/addresses.rs`).

  The NCP reports whole tables, the user inserts and removes prefixes and routes; each call changes the
  tables of the manager and returns the operations that the TUN interface has to follow.

  Main definition: `AddressManager.step`.

  The texts for the D-Bus properties are left out: nothing here reads them.
-/
import DcuDaemon.Lib.HashTable
import DcuDaemon.Lib.Replica

namespace DcuDaemon.Addresses

open Lib

/-! ## 1. Data -/

/-- `std::net::Ipv6Addr`: 16 octets. -/
abbrev Ipv6Addr := { octets : List UInt8 // octets.length = 16 }

/-- `ipnet::Ipv6Net`: an address and a prefix length; the host bits take part in the comparison. -/
structure Ipv6Net where
  addr : Ipv6Addr
  prefixLen : UInt8
  bound : prefixLen ≤ 128
  deriving DecidableEq

/-- `Ipv6Net::new`: a prefix length above 128 is an error. -/
def newIpv6Net (addr : Ipv6Addr) (prefixLen : UInt8) : Option Ipv6Net :=
  if h : prefixLen ≤ 128 then some ⟨addr, prefixLen, h⟩ else none

inductive Origin where
  | ncp
  | interface
  | user
  deriving DecidableEq, Repr

structure UnicastEntry where
  origin : Origin
  prefixLen : UInt8
  deriving DecidableEq

structure OnMeshEntry where
  origin : Origin
  stable : Bool
  deriving DecidableEq

structure OffMeshEntry where
  origin : Origin
  metric : UInt32
  deriving DecidableEq

/-- An operation that the caller has to apply to the TUN interface. -/
inductive TunOp where
  | addAddress (addr : Ipv6Addr) (prefixLen : UInt8)
  | removeAddress (addr : Ipv6Addr) (prefixLen : UInt8)
  | addRoute (net : Ipv6Net) (metric : UInt32)
  | removeRoute (net : Ipv6Net) (metric : UInt32)
  | joinMulticast (addr : Ipv6Addr)
  | leaveMulticast (addr : Ipv6Addr)
  deriving DecidableEq

structure AddressManager where
  unicast : HashTable Ipv6Addr UnicastEntry
  multicast : HashTable Ipv6Addr Origin
  onMesh : HashTable Ipv6Net OnMeshEntry
  offMesh : HashTable Ipv6Net OffMeshEntry
  /-- What the daemon programmed on the TUN. -/
  interfaceRoutes : HashTable Ipv6Net UInt32

namespace AddressManager

def new : AddressManager := ⟨∅, ∅, ∅, ∅, ∅⟩

/-! ## 2. Addresses and groups -/

variable (m : AddressManager) (net : Ipv6Net)

def reportAddress (x : Ipv6Addr × UInt8) : AddressManager × List TunOp :=
  let m' := { m with unicast := m.unicast.insert x.1 ⟨.ncp, x.2⟩ }
  match m.unicast.lookup x.1 with
  | some e =>
    if e.prefixLen = x.2 then (m, [])
    else (m', [.removeAddress x.1 e.prefixLen, .addAddress x.1 x.2])
  | none => (m', [.addAddress x.1 x.2])

def dropAddress (x : Ipv6Addr × UInt8) : AddressManager × List TunOp :=
  ({ m with unicast := m.unicast.erase x.1 }, [.removeAddress x.1 x.2])

/-- The addresses from the NCP that are not in `seen`. -/
def staleAddresses (iter : Iteration Ipv6Addr UnicastEntry)
    (seen : List Ipv6Addr) : List (Ipv6Addr × UInt8) :=
  ((iter.order m.unicast).filter fun x => x.2.origin = .ncp ∧ x.1 ∉ seen).map fun x => (x.1, x.2.prefixLen)

def applyNcpAddressTable (iter : Iteration Ipv6Addr UnicastEntry)
    (addrs : List (Ipv6Addr × UInt8)) : AddressManager × List TunOp :=
  let (m₁, ops) := forEach reportAddress m addrs
  let (m₂, rest) := forEach dropAddress m₁ (m₁.staleAddresses iter (addrs.map Prod.fst))
  (m₂, ops ++ rest)

def reportGroup (addr : Ipv6Addr) : AddressManager × List TunOp :=
  match m.multicast.lookup addr with
  | some _ => (m, [])
  | none => ({ m with multicast := m.multicast.insert addr .ncp }, [.joinMulticast addr])

def dropGroup (addr : Ipv6Addr) : AddressManager × List TunOp :=
  ({ m with multicast := m.multicast.erase addr }, [.leaveMulticast addr])

def staleGroups (iter : Iteration Ipv6Addr Origin) (seen : List Ipv6Addr) : List Ipv6Addr :=
  ((iter.order m.multicast).filter fun x => x.2 = .ncp ∧ x.1 ∉ seen).map fun x => x.1

def applyNcpMulticastTable (iter : Iteration Ipv6Addr Origin)
    (addrs : List Ipv6Addr) : AddressManager × List TunOp :=
  let (m₁, ops) := forEach reportGroup m addrs
  let (m₂, rest) := forEach dropGroup m₁ (m₁.staleGroups iter addrs)
  (m₂, ops ++ rest)

/-! ## 3. Interface routes -/

/-- An existing route is kept, whatever its metric. -/
def addRouteIfVacant (metric : UInt32) : AddressManager × List TunOp :=
  match m.interfaceRoutes.lookup net with
  | some _ => (m, [])
  | none =>
    ({ m with interfaceRoutes := m.interfaceRoutes.insert net metric }, [.addRoute net metric])

/-- An existing route with another metric is replaced. -/
def setRoute (metric : UInt32) : AddressManager × List TunOp :=
  let m' := { m with interfaceRoutes := m.interfaceRoutes.insert net metric }
  match m.interfaceRoutes.lookup net with
  | some old => if old = metric then (m, []) else (m', [.removeRoute net old, .addRoute net metric])
  | none => (m', [.addRoute net metric])

def removeRoute : AddressManager × List TunOp :=
  match m.interfaceRoutes.lookup net with
  | some metric =>
    ({ m with interfaceRoutes := m.interfaceRoutes.erase net }, [.removeRoute net metric])
  | none => (m, [])

/-! ## 4. On-mesh prefixes -/

/-- The prefix is new, or its flag changes. -/
def onMeshChanges (stable : Bool) : Bool := (m.onMesh.lookup net).map (·.stable) ≠ some stable

/-- A changed prefix takes the given origin; its route gets metric 256 if there is none. -/
def putOnMesh (origin : Origin) (m : AddressManager) (x : Ipv6Net × Bool) : AddressManager × List TunOp :=
  if m.onMeshChanges x.1 x.2 then
    { m with onMesh := m.onMesh.insert x.1 ⟨origin, x.2⟩ }.addRouteIfVacant x.1 256
  else (m, [])

/-- The prefix goes, and with it the interface route. -/
def dropOnMesh : AddressManager × List TunOp := { m with onMesh := m.onMesh.erase net }.removeRoute net

def staleOnMesh (iter : Iteration Ipv6Net OnMeshEntry) (seen : List Ipv6Net) : List Ipv6Net :=
  ((iter.order m.onMesh).filter fun x => x.2.origin = .ncp ∧ x.1 ∉ seen).map fun x => x.1

def applyNcpOnMeshTable (iter : Iteration Ipv6Net OnMeshEntry)
    (nets : List (Ipv6Net × Bool)) : AddressManager × List TunOp :=
  let (m₁, ops) := forEach (putOnMesh .ncp) m nets
  let (m₂, rest) := forEach dropOnMesh m₁ (m₁.staleOnMesh iter (nets.map Prod.fst))
  (m₂, ops ++ rest)

/-- `insert_on_mesh`; the flag tells the caller to push the entry to the NCP. -/
def insertOnMesh (stable : Bool) : Bool × AddressManager × List TunOp :=
  (m.onMeshChanges net stable, m.putOnMesh .user (net, stable))

def removeOnMesh : Bool × AddressManager × List TunOp :=
  match m.onMesh.lookup net with
  | some entry => (entry.origin ≠ .ncp, m.dropOnMesh net)
  | none => (false, m, [])

/-! ## 5. Off-mesh routes -/

/-- The route is new, or its metric changes. -/
def offMeshChanges (metric : UInt32) : Bool := (m.offMesh.lookup net).map (·.metric) ≠ some metric

/-- A changed route takes the given origin; its interface route gets the metric. -/
def putOffMesh (origin : Origin) (m : AddressManager) (x : Ipv6Net × UInt32) :
    AddressManager × List TunOp :=
  if m.offMeshChanges x.1 x.2 then
    { m with offMesh := m.offMesh.insert x.1 ⟨origin, x.2⟩ }.setRoute x.1 x.2
  else (m, [])

/-- The route goes, and with it the interface route. -/
def dropOffMesh : AddressManager × List TunOp := { m with offMesh := m.offMesh.erase net }.removeRoute net

def staleOffMesh (iter : Iteration Ipv6Net OffMeshEntry) (seen : List Ipv6Net) : List Ipv6Net :=
  ((iter.order m.offMesh).filter fun x => x.2.origin = .ncp ∧ x.1 ∉ seen).map fun x => x.1

def applyNcpOffMeshTable (iter : Iteration Ipv6Net OffMeshEntry)
    (nets : List (Ipv6Net × UInt32)) : AddressManager × List TunOp :=
  let (m₁, ops) := forEach (putOffMesh .ncp) m nets
  let (m₂, rest) := forEach dropOffMesh m₁ (m₁.staleOffMesh iter (nets.map Prod.fst))
  (m₂, ops ++ rest)

def insertOffMesh (metric : UInt32) : Bool × AddressManager × List TunOp :=
  (m.offMeshChanges net metric, m.putOffMesh .user (net, metric))

def removeOffMesh : Bool × AddressManager × List TunOp :=
  match m.offMesh.lookup net with
  | some entry => (entry.origin ≠ .ncp, m.dropOffMesh net)
  | none => (false, m, [])

end AddressManager

/-! ## 6. Runs -/

/-- The calls of the manager. A snapshot comes with the order in which the table that it changes is
    iterated over. -/
inductive Event where
  | applyNcpAddressTable (iter : Iteration Ipv6Addr UnicastEntry) (addrs : List (Ipv6Addr × UInt8))
  | applyNcpMulticastTable (iter : Iteration Ipv6Addr Origin) (addrs : List Ipv6Addr)
  | applyNcpOnMeshTable (iter : Iteration Ipv6Net OnMeshEntry) (nets : List (Ipv6Net × Bool))
  | applyNcpOffMeshTable (iter : Iteration Ipv6Net OffMeshEntry) (nets : List (Ipv6Net × UInt32))
  | insertOnMesh (net : Ipv6Net) (stable : Bool)
  | removeOnMesh (net : Ipv6Net)
  | insertOffMesh (net : Ipv6Net) (metric : UInt32)
  | removeOffMesh (net : Ipv6Net)

/-- The manager over events: the new tables and the operations. -/
def AddressManager.step (m : AddressManager) : Event → AddressManager × List TunOp
  | .applyNcpAddressTable iter addrs => m.applyNcpAddressTable iter addrs
  | .applyNcpMulticastTable iter addrs => m.applyNcpMulticastTable iter addrs
  | .applyNcpOnMeshTable iter nets => m.applyNcpOnMeshTable iter nets
  | .applyNcpOffMeshTable iter nets => m.applyNcpOffMeshTable iter nets
  | .insertOnMesh net stable => (m.insertOnMesh net stable).2
  | .removeOnMesh net => (m.removeOnMesh net).2
  | .insertOffMesh net metric => (m.insertOffMesh net metric).2
  | .removeOffMesh net => (m.removeOffMesh net).2

end DcuDaemon.Addresses
