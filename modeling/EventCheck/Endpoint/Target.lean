import EventCheck.Endpoint.Address
import EventCheck.Text.Quoted

/-! # Targets of requests

    A target is a path with an optional query, or an absolute address with a
    scheme and a host in front of the path. A fragment behind it does not matter.

    A host in brackets has to be an address of version 6 or of a later version.
-/

namespace EventCheck

/-- The parts of a target that matter. -/
structure Target where
  path : String
  query : String
  deriving DecidableEq, Repr

/-- Why a target cannot be split. -/
inductive TargetError where
  | brackets
  | version4
  | laterVersion
  | noAddress (host : String)
  deriving DecidableEq, Repr

def TargetError.message : TargetError → String
  | .brackets => "Invalid IPv6 URL"
  | .version4 => "An IPv4 address cannot be in brackets"
  | .laterVersion => "IPvFuture address is invalid"
  | .noAddress host => Quoted.text host ++ " does not appear to be an IPv4 or IPv6 address"

namespace Target

/-- A target that begins with several slashes begins with one. -/
def normal (target : List Char) : List Char :=
  match target with
  | '/' :: '/' :: _ => '/' :: target.dropWhile (· == '/')
  | _ => target

def isSchemeChar (c : Char) : Bool := c.isAlphanum || c == '+' || c == '-' || c == '.'

/-- The target without a scheme. -/
def withoutScheme (cs : List Char) : List Char :=
  let scheme := cs.takeWhile (· != ':')
  match cs.dropWhile (· != ':') with
  | ':' :: rest =>
    if scheme.head?.any Char.isAlpha && scheme.all isSchemeChar then rest else cs
  | _ => cs

/-- Does a later version of addresses allow the host? -/
def isLater (host : List Char) : Bool :=
  let rest := (host.drop 1).dropWhile Address.isHexDigit
  1 < host.length && rest.length < host.length - 1 && rest.head? == some '.' && 1 < rest.length

/-- What is wrong with a host, if anything is. -/
def hostFault (host : List Char) : Option TargetError :=
  let opens := host.contains '['
  let closes := host.contains ']'
  if opens != closes then some .brackets
  else if opens then
    let inner := ((host.dropWhile (· != '[')).drop 1).takeWhile (· != ']')
    if inner.head? == some 'v' then if isLater inner then none else some .laterVersion
    else if Address.isVersion4 inner then some .version4
    else if Address.isVersion6 inner then none
    else some (.noAddress (String.ofList inner))
  else none

def endsHost (c : Char) : Bool := c == '/' || c == '?' || c == '#'

/-- The target without a host. -/
def withoutHost (cs : List Char) : Except TargetError (List Char) :=
  match cs with
  | '/' :: '/' :: rest =>
    match hostFault (rest.takeWhile fun c => !endsHost c) with
    | some fault => .error fault
    | none => .ok (rest.dropWhile fun c => !endsHost c)
  | _ => .ok cs

/-- The target without the characters that no target holds. -/
def clean (cs : List Char) : List Char :=
  (cs.dropWhile fun c => c.toNat ≤ 0x20).filter fun c => c != '\t' && c != '\r' && c != '\n'

/-- The parts of a target. -/
def split (target : String) : Except TargetError Target :=
  match withoutHost (withoutScheme (clean (normal target.toList))) with
  | .error e => .error e
  | .ok rest =>
    let rest := rest.takeWhile (· != '#')
    .ok ⟨String.ofList (rest.takeWhile (· != '?')),
      String.ofList ((rest.dropWhile (· != '?')).drop 1)⟩

end Target

end EventCheck
