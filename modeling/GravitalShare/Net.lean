import GravitalShare.Machine

/-! Internet addresses, as the standard library of the source represents them. -/
namespace GravitalShare

structure Ipv4Addr where
  a : UInt8
  b : UInt8
  c : UInt8
  d : UInt8
  deriving DecidableEq, Repr

def Ipv4Addr.octets (ip : Ipv4Addr) : Bytes := [ip.a, ip.b, ip.c, ip.d]

structure Ipv6Addr where
  octets : Bytes
  length_octets : octets.length = 16
  deriving DecidableEq, Repr

inductive SocketAddr where
  | v4 (ip : Ipv4Addr) (port : UInt16)
  | v6 (ip : Ipv6Addr) (port : UInt16) (flowinfo scopeId : UInt32)
  deriving DecidableEq, Repr

inductive IpAddr where
  | v4 (ip : Ipv4Addr)
  | v6 (ip : Ipv6Addr)
  deriving DecidableEq, Repr

namespace SocketAddr

def ip : SocketAddr → IpAddr
  | .v4 ip _ => .v4 ip
  | .v6 ip _ _ _ => .v6 ip

def port : SocketAddr → UInt16
  | .v4 _ port | .v6 _ port _ _ => port

def new (ip : IpAddr) (port : UInt16) : SocketAddr :=
  match ip with
  | .v4 ip => .v4 ip port
  | .v6 ip => .v6 ip port 0 0

@[simp] theorem ip_new (ip : IpAddr) (port : UInt16) : (new ip port).ip = ip := by cases ip <;> rfl

@[simp] theorem port_new (ip : IpAddr) (port : UInt16) : (new ip port).port = port := by
  cases ip <;> rfl

end SocketAddr

end GravitalShare
