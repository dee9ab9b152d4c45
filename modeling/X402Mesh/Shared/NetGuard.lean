import Mathlib.Data.Nat.Digits.Defs
import X402Mesh.Lib.OrderedMap
import X402Mesh.Lib.Transition
import X402Mesh.Shared.Errors

set_option autoImplicit false

namespace X402Mesh.NetGuard

def blockedIPv4 : List (String × Nat) :=
  [("0.0.0.0", 8), ("10.0.0.0", 8), ("100.64.0.0", 10), ("127.0.0.0", 8), ("169.254.0.0", 16),
    ("172.16.0.0", 12), ("192.0.0.0", 24), ("192.0.2.0", 24), ("192.168.0.0", 16),
    ("198.18.0.0", 15), ("198.51.100.0", 24), ("203.0.113.0", 24), ("224.0.0.0", 4),
    ("240.0.0.0", 4)]

-- `/^\d{1,3}$/`
def isOctet (part : List Char) : Bool :=
  part.all Char.isDigit && (1 ≤ part.length && part.length ≤ 3)

def ipv4ToInt (ip : List Char) : Option Nat :=
  let parts := ip.splitOn '.'
  if parts.length ≠ 4 then none
  else
    parts.foldlM (fun value part =>
      if isOctet part then
        let octet := Nat.ofDigitChars 10 part 0
        if octet > 255 then none else some (value * 256 + octet)
      else none) 0

def inBlock (value base length : Nat) : Bool :=
  let mask := 0xffffffff <<< (32 - length) % 2 ^ 32
  (value &&& mask) = (base &&& mask)

def isBlockedValue (value : Nat) : Bool :=
  blockedIPv4.any fun entry =>
    match ipv4ToInt entry.1.toList with
    | none => false
    | some base => inBlock value base entry.2

def isBlockedIPv4 (ip : List Char) : Bool :=
  match ipv4ToInt ip with
  | none => true
  | some value => isBlockedValue value

-- `^\d{1,3}(?:\.\d{1,3}){3}$`
def isQuad (cs : List Char) : Bool :=
  let parts := cs.splitOn '.'
  parts.length = 4 && parts.all isOctet

-- The group that `/(?:^::ffff:|^::)(\d{1,3}(?:\.\d{1,3}){3})$/` captures.
def embedded (normalized : List Char) : Option (List Char) :=
  ((normalized.dropPrefix? "::ffff:".toList).filter isQuad).or
    ((normalized.dropPrefix? "::".toList).filter isQuad)

def hexDigit? (c : Char) : Option Nat :=
  if '0' ≤ c ∧ c ≤ '9' then some (c.toNat - 48)
  else if 'a' ≤ c ∧ c ≤ 'f' then some (c.toNat - 87)
  else if 'A' ≤ c ∧ c ≤ 'F' then some (c.toNat - 55)
  else none

def hexValue (cs : List Char) : Nat := cs.foldl (fun n c => n * 16 + (hexDigit? c).getD 0) 0

-- `Number.parseInt` with radix 16 of a text without blanks, sign or `0x`: none is NaN.
def parseHex (cs : List Char) : Option Nat :=
  let digits := cs.takeWhile fun c => (hexDigit? c).isSome
  if digits.isEmpty then none else some (hexValue digits)

def padEnd (cs : List Char) (length : Nat) (fill : Char) : List Char :=
  cs ++ List.replicate (length - cs.length) fill

def isBlockedGroup (group : Nat) : Bool :=
  group &&& 0xfe00 = 0xfc00 || (group &&& 0xffc0 = 0xfe80 || group &&& 0xff00 = 0xff00)

def isBlockedIPv6 (ip : List Char) : Bool :=
  let normalized := ((ip.map Char.toLower).splitOn '%').headD []
  match embedded normalized with
  | some quad => isBlockedIPv4 quad
  | none =>
    if normalized = "::".toList ∨ normalized = "::1".toList then true
    else
      let head := (normalized.splitOn ':').headD []
      if head.length = 0 then false
      else
        match parseHex ((padEnd head 4 '0').take 4) with
        | none => true
        | some group => isBlockedGroup group

-- `isIP` of `node:net`: 4, 6, or 0 for anything else.
variable (isIP : String → Nat)

def isBlockedAddress (ip : String) : Bool :=
  if isIP ip = 4 then isBlockedIPv4 ip.toList
  else if isIP ip = 6 then isBlockedIPv6 ip.toList
  else true

/-- What `new URL` reads from a text. A colon in the host name is that of an address in brackets. -/
structure Url where
  protocol : String
  username : String
  password : String
  hostname : String
  port : String
  bracketed : ':' ∈ hostname.toList → hostname.toList.getLast? = some ']'
  port_digits : ∀ c ∈ port.toList, c.isDigit = true
  deriving DecidableEq

def Url.host (url : Url) : String :=
  if url.port = "" then url.hostname else url.hostname ++ ":" ++ url.port

-- `/^\[|\]$/g`, each replaced by nothing.
def unbracket (hostname : String) : String :=
  let opened := (hostname.toList.dropPrefix? ['[']).getD hostname.toList
  String.ofList ((opened.dropSuffix? [']']).getD opened)

-- The address or name that is judged.
def Url.bare (url : Url) : String := unbracket url.hostname

def resolutionCacheTtlMs : Nat := 30000

def resolutionCacheMaxEntries : Nat := 1024

-- A host, and when it is resolved again.
abbrev ResolutionCache := OrderedMap String Nat

def rememberHost (cache : ResolutionCache) (host : String) (now : Nat) : ResolutionCache :=
  let cache := if cache.size ≥ resolutionCacheMaxEntries then cache.drop 1 else cache
  cache.set host (now + resolutionCacheTtlMs)

-- `new URL`, which throws on a text that is no absolute URL.
variable (parse : String → Option Url)

def assertHttpUrlShape (raw : String) : Except MeshError Url :=
  match parse raw with
  | none => .error ⟨.validation, "endpoint must be an absolute URL", [("endpoint", raw)]⟩
  | some url =>
    if url.protocol ≠ "http:" ∧ url.protocol ≠ "https:" then
      .error ⟨.validation, "endpoint must use http or https", [("protocol", url.protocol)]⟩
    else if url.username ≠ "" ∨ url.password ≠ "" then
      .error ⟨.validation, "endpoint must not embed credentials", [("endpoint", url.host)]⟩
    else .ok url

def nonPublic (url : Url) (address : String) : MeshError :=
  ⟨.validation, "endpoint resolves to a non-public address",
    [("endpoint", url.host), ("address", address)]⟩

def unresolved (url : Url) : MeshError :=
  ⟨.validation, "endpoint hostname could not be resolved", [("endpoint", url.host)]⟩

/-- How the call ends, or the await of the resolver that it reaches. -/
inductive Guarded
  | returned (url : Url)
  | threw (error : MeshError)
  | resolving (url : Url)

def assertRoutableEndpoint (cache : ResolutionCache) (raw : String) (allowPrivate : Bool)
    (now : Nat) : ResolutionCache × Guarded :=
  match assertHttpUrlShape parse raw with
  | .error error => (cache, .threw error)
  | .ok url =>
    if allowPrivate then (cache, .returned url)
    else if isIP url.bare ≠ 0 then
      if isBlockedAddress isIP url.bare then (cache, .threw (nonPublic url url.bare))
      else (rememberHost cache url.host now, .returned url)
    else
      match cache.get? url.host with
      | some expiresAt => if expiresAt > now then (cache, .returned url) else (cache, .resolving url)
      | none => (cache, .resolving url)

-- The rest of the call. The resolver answers a list of addresses, or throws.
def resolved (cache : ResolutionCache) (url : Url) (answer : Option (List String)) (now : Nat) :
    ResolutionCache × Except MeshError Url :=
  match answer with
  | none => (cache, .error (unresolved url))
  | some addresses =>
    if addresses.length = 0 then (cache, .error (unresolved url))
    else
      match addresses.find? (isBlockedAddress isIP) with
      | some address => (cache, .error (nonPublic url address))
      | none => (rememberHost cache url.host now, .ok url)

end X402Mesh.NetGuard
