import GravitalShare.JsonText
import GravitalShare.NetParse

/-! The configuration of the engine, as it is read from a JSON text. -/
namespace GravitalShare.Engine.Config

open JsonText

def DEFAULT_MTU : UInt16 := 1280
def DEFAULT_DNS : Ipv4Addr := ⟨1, 1, 1, 1⟩

structure ClientConfig where
  proxyAddr : SocketAddr
  mtu : UInt16
  dnsServer : IpAddr
  udpAssociateEnabled : Bool
  deriving DecidableEq, Repr

structure ServerConfig where
  socksBind : SocketAddr
  httpBind : SocketAddr
  maxConnections : ℕ
  deriving DecidableEq, Repr

inductive EngineConfig where
  | client (cfg : ClientConfig)
  | server (cfg : ServerConfig)
  deriving DecidableEq, Repr

def ClientConfig.default : ClientConfig where
  proxyAddr := .v4 ⟨192, 168, 43, 1⟩ 1080
  mtu := DEFAULT_MTU
  dnsServer := .v4 DEFAULT_DNS
  udpAssociateEnabled := true

section Fields

/-- What a structure is read from: an object by the names of its members, an array by position. -/
inductive Content where
  | map (members : List (List Char × Value))
  | seq (elements : List Value)

/-- A field, which has to be there unless it has a default, and not twice. -/
def field {α : Type} (name : String) (index : ℕ) (read : Value → Option α) (default : Option α) :
    Content → Option α
  | .map members =>
    match members.filter fun m => m.1 = name.toList with
    | [] => default
    | [m] => read m.2
    | _ => none
  | .seq elements =>
    match elements[index]? with
    | none => default
    | some v => read v

/-- Members that are no field are ignored, elements are not. -/
def Content.fits (fields : ℕ) : Content → Bool
  | .map _ => true
  | .seq elements => elements.length ≤ fields

def readText {α : Type} (parse : List Char → Option α) : Value → Option α
  | .str s => parse s
  | _ => none

def readBool : Value → Option Bool
  | .bool b => some b
  | _ => none

/-- An integer from 0 up to `bound`, the bound excluded. -/
def readUnsigned (bound : ℕ) : Value → Option ℕ
  | .int n => if 0 ≤ n ∧ n < bound then some n.toNat else none
  | _ => none

def readU16 (v : Value) : Option UInt16 := (readUnsigned (2^16) v).map UInt16.ofNat

end Fields

def ClientConfig.deserialize (content : Content) : Option ClientConfig := do
  let proxyAddr ← field "proxy_addr" 0 (readText NetParse.socketAddr) none content
  let mtu ← field "mtu" 1 readU16 (some DEFAULT_MTU) content
  let dnsServer ← field "dns_server" 2 (readText NetParse.ipAddr) (some (.v4 DEFAULT_DNS)) content
  let udpAssociateEnabled ← field "udp_associate_enabled" 3 readBool (some true) content
  if content.fits 4 then some ⟨proxyAddr, mtu, dnsServer, udpAssociateEnabled⟩ else none

def ServerConfig.deserialize (content : Content) : Option ServerConfig := do
  let socksBind ← field "socks_bind" 0 (readText NetParse.socketAddr)
    (some (.v4 ⟨0, 0, 0, 0⟩ 1080)) content
  let httpBind ← field "http_bind" 1 (readText NetParse.socketAddr)
    (some (.v4 ⟨0, 0, 0, 0⟩ 8080)) content
  let maxConnections ← field "max_connections" 2 (readUnsigned (2^64)) (some 512) content
  if content.fits 3 then some ⟨socksBind, httpBind, maxConnections⟩ else none

def EngineConfig.variant (mode : List Char) (content : Content) : Option EngineConfig :=
  if mode = "Client".toList then (ClientConfig.deserialize content).map .client
  else if mode = "Server".toList then (ServerConfig.deserialize content).map .server
  else none

/-- The member `mode`, or the first element, says which of the two it is. -/
def EngineConfig.deserialize : Value → Option EngineConfig
  | .obj members => do
    let mode ← field "mode" 0 (readText some) none (.map members)
    variant mode (.map members)
  | .arr (tag :: elements) => do
    let mode ← readText some tag
    variant mode (.seq elements)
  | _ => none

/-- `serde_json::from_str::<EngineConfig>`, where `read` is the reader of the texts. -/
def EngineConfig.fromStr (read : List Char → Option Value) (text : List Char) :
    Option EngineConfig :=
  (read text).bind deserialize

end GravitalShare.Engine.Config
