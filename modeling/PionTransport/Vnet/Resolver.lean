import PionTransport.Core.Table
import PionTransport.Vnet.IP

/-!
# Names

An embedding of `resolver` and of `Net.ResolveIPAddr`. Resolvers live in a heap, a
function from pointers; a router's resolver has the number of the router. A look-up
climbs from resolver to resolver as far as its fuel lasts, since the parents of
routers may form a circle; `none` is a look-up that has not returned yet. How
addresses are parsed and letters are lowered is left to the standard library.
-/

namespace PionTransport.Vnet.HostNames

/-- What the code uses of the standard library. -/
structure Library where
  /-- `net.ParseIP`. -/
  parseIP : String → Option IP
  /-- `strings.ToLower`. -/
  toLower : String → String
  toLower_toLower : ∀ name, toLower (toLower name) = toLower name

/-- The errors of `addHost`. -/
inductive ResolverError
  | hostnameEmpty
  | failedToParseIPAddr (ipAddr : String)
  deriving DecidableEq, Repr

/-- The text of an error. -/
def ResolverError.string : ResolverError → String
  | hostnameEmpty => "host name must not be empty"
  | failedToParseIPAddr ipAddr => "failed to parse IP address \"" ++ ipAddr ++ "\""

/-- The fields of `net.DNSError` that are set. -/
structure DNSError where
  err : String
  name : String
  server : String
  isTimeout : Bool
  isTemporary : Bool
  deriving DecidableEq, Repr

/-- The fields of `resolver`. -/
structure Resolver where
  parent : Option Nat
  hosts : AList fun _ : String => IP

/-- `addHost`. -/
def Resolver.addHost (lib : Library) (r : Resolver) (name ipAddr : String) :
    Resolver × Option ResolverError :=
  if name = "" then (r, some .hostnameEmpty)
  else
    match lib.parseIP ipAddr with
    | none => (r, some (.failedToParseIPAddr ipAddr))
    | some ip => ({ r with hosts := r.hosts.insert name ip }, none)

/-- `newResolver`. -/
def newResolver (lib : Library) : Resolver :=
  (Resolver.addHost lib ⟨none, ∅⟩ "localhost" "127.0.0.1").1

/-- The heap of resolvers. -/
abbrev Resolvers := Nat → Resolver

/-- The error of a look-up. -/
def hostNotFound (hostName : String) : DNSError :=
  ⟨"host not found", hostName, "vnet resolver", false, false⟩

/-- `lookUp`. -/
def Resolvers.lookUp (rs : Resolvers) : Nat → Nat → String → Option (Except DNSError IP)
  | 0, _, _ => none
  | fuel + 1, i, hostName =>
    match (rs i).hosts.lookup hostName with
    | some ip => some (.ok ip)
    | none =>
      match (rs i).parent with
      | some parent => rs.lookUp fuel parent hostName
      | none => some (.error (hostNotFound hostName))

/-- The errors of `ResolveIPAddr`. -/
inductive ResolveError
  | unknownNetwork (network : String)
  | noRouterLinked
  | dns (e : DNSError)
  deriving DecidableEq, Repr

/-- `ResolveIPAddr` of a `Net`, which may have a router. -/
def resolveIPAddr (lib : Library) (rs : Resolvers) (fuel : Nat) (router : Option Nat)
    (network address : String) : Option (Except ResolveError IP) :=
  if network ∉ ["", "ip", "ip4", "ip6"] then some (.error (.unknownNetwork network))
  else if address = "" then
    some (.ok (if network = "ip6" then .v6unspecified else .v4zero))
  else
    match lib.parseIP address with
    | some ip => some (.ok ip)
    | none =>
      if lib.toLower address = "localhost" then
        some (.ok (if network = "ip6" then .v6loopback else .v4 127 0 0 1))
      else
        match router with
        | none => some (.error .noRouterLinked)
        | some i => (rs.lookUp fuel i (lib.toLower address)).map fun result =>
            result.mapError .dns

/-- The calls that change resolvers: `AddHost`, and `setParent` when a router is attached. -/
inductive Call
  | addHost (router : Nat) (name ipAddr : String)
  | setParent (router parent : Nat)
  deriving DecidableEq, Repr

/-- Perform one call. -/
def Resolvers.step (lib : Library) (rs : Resolvers) :
    Call → Option (Resolvers × Option ResolverError)
  | .addHost i name ipAddr =>
    some (Function.update rs i ((rs i).addHost lib name ipAddr).1,
      ((rs i).addHost lib name ipAddr).2)
  | .setParent i parent => some (Function.update rs i { rs i with parent := some parent }, none)

end PionTransport.Vnet.HostNames
