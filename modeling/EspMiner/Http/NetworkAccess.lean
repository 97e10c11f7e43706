import EspMiner.Asic.Job
import EspMiner.Library.CString
import EspMiner.Library.InternetAddress
import EspMiner.Library.TextSearch

/-!
# Who may call the API

`is_network_allowed` of `main/http_server/http_server.c`, which each handler of the API asks
first, and the description of the callers that are meant.  A header is absent or a string; the
configured hostname is a string.
-/

namespace EspMiner

open Library

/-! ## The headers of a request -/

/-- What `httpd_req_get_hdr_value_str` returns: `ESP_OK`, a truncation error with what fits
copied, or not found -/
inductive HeaderValue where
  | ok (value : List U8)
  | truncated (value : List U8)
  | notFound

/-- `httpd_req_get_hdr_value_str` with a buffer of `size` bytes -/
def httpdReqGetHdrValueStr (header : Option Text) (size : Nat) : HeaderValue :=
  match header with
  | none => .notFound
  | some value =>
      if value.val.length < size then .ok value.val else .truncated (value.val.take (size - 1))

/-- `httpd_req_get_hdr_value_len` -/
def httpdReqGetHdrValueLen (header : Option Text) : Nat :=
  match header with
  | none => 0
  | some value => value.val.length

/-! ## Addresses and hostnames -/

/-- `ip_in_private_range`, `true` for `ESP_OK` -/
def ipInPrivateRange (address : U32) : Bool :=
  let ipAddress := htonl address
  if 0x0A000000 ≤ ipAddress.toNat ∧ ipAddress.toNat ≤ 0x0AFFFFFF then true
  else if 0xAC100000 ≤ ipAddress.toNat ∧ ipAddress.toNat ≤ 0xAC1FFFFF then true
  else if 0xC0A80000 ≤ ipAddress.toNat ∧ ipAddress.toNat ≤ 0xC0A8FFFF then true
  else false

/-- The prefix of an origin -/
def httpPrefix : List U8 := cText "http://"

/-- `extract_origin_ip_addr`: the address in network order, 0 where there is none -/
def extractOriginIpAddr (origin : List U8) : U32 :=
  match strstr httpPrefix origin with
  | none => 0
  | some found =>
      let hostStr := (found.drop httpPrefix.length).takeWhile (· != 0x2f#8)
      if hostStr.length < 128 then (inetPton hostStr).getD 0 else 0

/-- `local_suffixes` -/
def localSuffixes : List (List U8) :=
  [cText ".local", cText ".lan", cText ".home.arpa", cText ".internal", cText ".localdomain",
    cText ".home", cText ".localhost"]

/-- `is_local_network_hostname` -/
def isLocalNetworkHostname (hostStr : List U8) : Bool :=
  if hostStr = [] then false
  else if hostStr.contains 0x2e#8 = false then true
  else localSuffixes.any fun suffix =>
    decide (suffix.length < hostStr.length) &&
      strcasecmpEqual (hostStr.drop (hostStr.length - suffix.length)) suffix

/-- The host of the second pass: up to the port where there is one, else up to a slash -/
def originHost (hostStart : List U8) : List U8 :=
  if hostStart.contains 0x3a#8 = true then hostStart.takeWhile (· != 0x3a#8)
  else hostStart.takeWhile (· != 0x2f#8)

/-- `is_local_hostname` -/
def originIsLocalHostname (origin : List U8) : Bool :=
  match strstr httpPrefix origin with
  | none => false
  | some found =>
      let hostStr := originHost (found.drop httpPrefix.length)
      if 0 < hostStr.length ∧ hostStr.length < 128 then isLocalNetworkHostname hostStr else false

/-- What the patterns have behind the hostname, in their order -/
def hostnamePatterns : List (List U8) := [cText ".local", []]

/-- `matched`: the origin is one of the patterns, with or without a port -/
def originMatchesHostname (hostname origin : List U8) : Bool :=
  hostnamePatterns.any fun suffix =>
    let expected := (httpPrefix ++ hostname ++ suffix).take 255
    expected.isPrefixOf origin &&
      (origin.length == expected.length || origin[expected.length]? == some 0x3a#8)

/-! ## The decision -/

/-- What `is_network_allowed` looks at; the peer is missing where `getpeername` fails. -/
structure NetworkRequest where
  apEnabled : Bool
  peer : Option (BitVec 128)
  origin : Option Text
  hostname : Text

/-- The second pass and the third, over what the buffer has of a header -/
def originAllowed (origin : Option Text) (hostname : Text) : Bool :=
  match httpdReqGetHdrValueStr origin 128 with
  | .ok value => originIsLocalHostname value || originMatchesHostname hostname.val value
  | .truncated value => originIsLocalHostname value || originMatchesHostname hostname.val value
  | .notFound => false

/-- `origin_ip_addr`: that of the peer where no header was read -/
def originIpAddr (origin : Option Text) (requestIpAddr : U32) : U32 :=
  match httpdReqGetHdrValueStr origin 128 with
  | .ok value => extractOriginIpAddr value
  | _ => requestIpAddr

/-- `is_network_allowed`, `true` for `ESP_OK` -/
def isNetworkAllowed (req : NetworkRequest) : Bool :=
  if req.apEnabled = true then true
  else
    match req.peer with
    | none => false
    | some peer =>
        let requestIpAddr := htonl (peer.extractLsb' 0 32)
        let originAddr := originIpAddr req.origin requestIpAddr
        if originAddr ≠ 0 ∧ ipInPrivateRange originAddr = true ∧
            ipInPrivateRange requestIpAddr = true then true
        else if 0 < httpdReqGetHdrValueLen req.origin then originAllowed req.origin req.hostname
        else false

/-! ## The callers that are meant -/

/-- An address of the private networks 10/8, 172.16/12 and 192.168/16 -/
def PrivateAddress (address : BitVec 32) : Prop :=
  InSubnet (ofOctets 10 0 0 0) 8 address ∨ InSubnet (ofOctets 172 16 0 0) 12 address ∨
    InSubnet (ofOctets 192 168 0 0) 16 address

instance (address : BitVec 32) : Decidable (PrivateAddress address) :=
  inferInstanceAs (Decidable (_ ∨ _ ∨ _))

/-- The IPv4 address that an IPv6 address maps -/
def MapsAddress (peer : BitVec 128) (address : BitVec 32) : Prop :=
  peer.extractLsb' 32 96 = 0xffff#96 ∧ peer.extractLsb' 0 32 = address

/-- A name that is only resolved in a local network: without a dot, or a label with a private
suffix -/
def LocalHostname (host : List U8) : Prop :=
  host ≠ [] ∧ (0x2e#8 ∉ host ∨ ∃ label suffix, label ≠ [] ∧ host = label ++ suffix ∧
    suffix.map lowerByte ∈ localSuffixes)

/-- The address of a private network in dotted decimal -/
def PrivateQuad (host : List U8) : Prop :=
  ∃ address, DottedQuad host address ∧ PrivateAddress address

/-- The hosts whose pages may call: private addresses, local names and the device itself -/
def LocalHost (hostname host : List U8) : Prop :=
  PrivateQuad host ∨ (LocalHostname host ∧ 0x3a#8 ∉ host ∧ 0x2f#8 ∉ host) ∨
    host = hostname ∨ host = hostname ++ cText ".local"

/-- A colon and a number, or nothing -/
def PortPart (port : List U8) : Prop :=
  port = [] ∨ ∃ digits, digits ≠ [] ∧ (∀ byte ∈ digits, isDigit byte = true) ∧
    port = 0x3a#8 :: digits

/-- `http://host` or `http://host:port` of a local host -/
def LocalOrigin (hostname origin : List U8) : Prop :=
  ∃ host port, LocalHost hostname host ∧ PortPart port ∧ origin = httpPrefix ++ (host ++ port)

/-- The peer is an IPv4 address of a private network. -/
def LocalPeer (peer : BitVec 128) : Prop :=
  ∃ address, MapsAddress peer address ∧ PrivateAddress address

/-- A caller of the own network, from no page or from a page of a local host -/
def LocalCaller (peer : BitVec 128) (origin : Option Text) (hostname : Text) : Prop :=
  LocalPeer peer ∧
    ∀ value, origin = some value → LocalOrigin hostname.val value.val

end EspMiner
