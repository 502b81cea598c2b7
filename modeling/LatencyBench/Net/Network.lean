/-
What the machine's network lets a session do: which addresses it can listen
on, and whether anyone can connect to it.
-/

import LatencyBench.Net.Address
import LatencyBench.Net.IoError

namespace LatencyBench.Net

/-- What kind of address a listener is to be opened on.  An address of version
six that embeds one of version four counts as the embedded one. -/
inductive ListenerKind where
  | everyInterface
  | versionFour (first second third fourth : UInt8)
  | ownVersionSix
  | linkLocal
  | multicast
  | otherVersionSix
deriving DecidableEq, Repr

def ListenerKind.ofGroups : List UInt16 → ListenerKind
  | [0, 0, 0, 0, 0, 0, 0, 0] => .everyInterface
  | [0, 0, 0, 0, 0, 0, 0, 1] => .ownVersionSix
  | [0, 0, 0, 0, 0, 0xFFFF, high, low] =>
      .versionFour (high >>> 8).toUInt8 high.toUInt8
        (low >>> 8).toUInt8 low.toUInt8
  | groups =>
      let first := groups.headD 0
      if 0xFF00 ≤ first then .multicast
      else if 0xFE80 ≤ first ∧ first ≤ 0xFEBF then .linkLocal
      else .otherVersionSix

def ListenerKind.ofAddress : IpAddress → ListenerKind
  | .v4 first second third fourth => .versionFour first second third fourth
  | .v6 groups => .ofGroups groups.toList

/-- Whether a version four address belongs to a machine whose only interface
is itself: its own block, the block that names no machine, the multicast
blocks and the broadcast address. -/
def isOwnVersionFour (first second third fourth : UInt8) : Bool :=
  first = 127 || first = 0 || (224 ≤ first && first ≤ 239) ||
    [first, second, third, fourth] == [255, 255, 255, 255]

/-- A network.  On an `isolated` machine no interface is up: the system knows
none of its version four addresses and lets a listener open on any, while one
of version six has to be assigned to an interface; nobody reaches a listener.
The `loopback` has the machine's own addresses, and whoever connects to them
is heard. -/
inductive Network where
  | isolated
  | loopback
deriving DecidableEq, Repr

namespace Network

/-- The errors of an address that the machine does not have, and of one that
cannot be listened on as it stands. -/
def unavailable : IoError := .ofOs 99
def invalid : IoError := .ofOs 22

/-- Whether a listener can be opened on an address.  A link-local address
lacks its interface, and a multicast one is no end of a stream. -/
def bind (network : Network) (address : IpAddress) : Except IoError Unit :=
  match network, ListenerKind.ofAddress address with
  | _, .everyInterface => .ok ()
  | _, .linkLocal => .error invalid
  | _, .multicast => .error invalid
  | _, .otherVersionSix => .error unavailable
  | .isolated, .versionFour .. => .ok ()
  | .isolated, .ownVersionSix => .error unavailable
  | .loopback, .versionFour first second third fourth =>
      if isOwnVersionFour first second third fourth then .ok ()
      else .error unavailable
  | .loopback, .ownVersionSix => .ok ()

def isReachable : Network → Bool
  | .isolated => false
  | .loopback => true

end Network

end LatencyBench.Net
