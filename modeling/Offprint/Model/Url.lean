import Offprint.Network.Address

/-!
# Parsed URLs

The components of a parsed URL, as the parser hands them out.
-/

namespace Offprint.Model

open Offprint.Network (Ipv4Addr Ipv6Addr)

inductive Host where
  | domain (name : String)
  | ipv4 (address : Ipv4Addr)
  | ipv6 (address : Ipv6Addr)
  deriving Repr, DecidableEq

def Host.text : Host → String
  | .domain name => name
  | .ipv4 address => address.display
  | .ipv6 address => "[" ++ address.compressed ++ "]"

structure Url where
  scheme : String
  username : String
  password : Option String
  host : Option Host
  port : Option Nat
  path : String
  query : Option String
  fragment : Option String
  deriving Repr, DecidableEq

def Url.hostStr (url : Url) : Option String :=
  url.host.map Host.text

end Offprint.Model
