import BareAnalysis.Machinery.Json
import BareAnalysis.Machinery.Text

/-!
# Machinery/Url — the host of a URL, and what an address says about it

    scheme : // user @ host : port / path ? query # fragment
                       ╰──╯ `hostname`

`urllib.parse.urlparse(url).hostname` and `ipaddress.ip_address` of Python 3.12.  A path after a URL
that has a host changes nothing about the host.
-/

namespace BareAnalysis

/-! ## Addresses -/

/-- A parsed address, as its number. -/
inductive IPAddress
  | v4 (ip : ℕ)
  | v6 (ip : ℕ)
  deriving DecidableEq, Repr

namespace IPAddress

/-- `IPv4Address._parse_octet`. -/
def parseOctet (octet : List Char) : Option ℕ :=
  if octet = [] ∨ ¬octet.all Char.isDigit ∨ 3 < octet.length then none
  else if octet ≠ ['0'] ∧ octet.head? = some '0' then none
  else
    let value := Nat.ofDigitChars 10 octet 0
    if 255 < value then none else some value

/-- `IPv4Address._ip_int_from_string`. -/
def parseV4 (text : List Char) : Option ℕ :=
  match text.splitOn '.' with
  | [a, b, c, d] => do
    let a ← parseOctet a
    let b ← parseOctet b
    let c ← parseOctet c
    let d ← parseOctet d
    return ((a * 256 + b) * 256 + c) * 256 + d
  | _ => none

/-- The value of a hexadecimal digit. -/
def hexDigit? (c : Char) : Option ℕ :=
  if c.isDigit then some (c.toNat - '0'.toNat)
  else if 'a' ≤ c ∧ c ≤ 'f' then some (c.toNat - 'a'.toNat + 10)
  else if 'A' ≤ c ∧ c ≤ 'F' then some (c.toNat - 'A'.toNat + 10)
  else none

/-- `IPv6Address._parse_hextet`. -/
def parseHextet (hextet : List Char) : Option ℕ :=
  if hextet = [] ∨ 4 < hextet.length then none
  else (hextet.mapM hexDigit?).map fun digits => digits.foldl (fun n d => 16 * n + d) 0

/-- Hextets in a row, as one number. -/
def parseHextets (hextets : List (List Char)) : Option ℕ :=
  (hextets.mapM parseHextet).map fun values => values.foldl (fun n v => 65536 * n + v) 0

/-- `'%x' % n`. -/
def hexChars (n : ℕ) : List Char := Nat.toDigits 16 n

/-- The parts of an IPv6 address, an IPv4 tail in hexadecimal. -/
def partsV6 (text : List Char) : Option (List (List Char)) :=
  let parts := text.splitOn ':'
  if parts.length < 3 then none
  else if parts.getLastD [] |>.contains '.' then
    (parseV4 (parts.getLastD [])).map fun ip =>
      parts.dropLast ++ [hexChars (ip / 65536), hexChars (ip % 65536)]
  else some parts

/-- `IPv6Address._ip_int_from_string`: at most one `::`, which stands for the zeroes missing. -/
def parseV6 (text : List Char) : Option ℕ := do
  let parts ← partsV6 text
  if 9 < parts.length then none
  match ((List.range parts.length).filter fun i =>
      0 < i ∧ i + 1 < parts.length ∧ parts.getD i [] = []) with
  | [] =>
    if parts.length ≠ 8 then none
    parseHextets parts
  | [skip] =>
    let high := parts.take skip
    let low := parts.drop (skip + 1)
    if parts.head? = some [] ∧ high.length ≠ 1 then none
    if parts.getLast? = some [] ∧ low.length ≠ 1 then none
    let high := if parts.head? = some [] then [] else high
    let low := if parts.getLast? = some [] then [] else low
    if 8 ≤ high.length + low.length then none
    let top ← parseHextets high
    let bottom ← parseHextets low
    return top * 65536 ^ (8 - high.length) + bottom
  | _ => none

/-- `ipaddress.ip_address(text)`; a zone id after `%` belongs to an IPv6 address. -/
def parse (text : List Char) : Option IPAddress :=
  if text.contains '/' then none
  else
    match parseV4 text with
    | some ip => some (v4 ip)
    | none =>
      match partition '%' text with
      | (address, none) => (parseV6 address).map v6
      | (address, some zone) =>
        if zone = [] ∨ zone.contains '%' then none else (parseV6 address).map v6

/-- `address in network`, a network given by its first address and the bits it leaves open. -/
def inNetwork (ip : ℕ) (network : ℕ × ℕ) : Bool := ip / 2 ^ network.2 == network.1 / 2 ^ network.2

/-- `a.b.c.d/prefix`. -/
def network4 (a b c d bits : ℕ) : ℕ × ℕ := (((a * 256 + b) * 256 + c) * 256 + d, 32 - bits)

/-- A network named by its first three hextets and its last one. -/
def network6 (a b c h bits : ℕ) : ℕ × ℕ :=
  (((a * 65536 + b) * 65536 + c) * 65536 ^ 5 + h, 128 - bits)

/-- `_IPv4Constants._private_networks`. -/
def privateNetworks4 : List (ℕ × ℕ) :=
  [network4 0 0 0 0 8, network4 10 0 0 0 8, network4 127 0 0 0 8, network4 169 254 0 0 16,
    network4 172 16 0 0 12, network4 192 0 0 0 24, network4 192 0 0 170 31, network4 192 0 2 0 24,
    network4 192 168 0 0 16, network4 198 18 0 0 15, network4 198 51 100 0 24,
    network4 203 0 113 0 24, network4 240 0 0 0 4, network4 255 255 255 255 32]

/-- `_IPv4Constants._private_networks_exceptions`. -/
def privateExceptions4 : List (ℕ × ℕ) := [network4 192 0 0 9 32, network4 192 0 0 10 32]

/-- `_IPv6Constants._private_networks`. -/
def privateNetworks6 : List (ℕ × ℕ) :=
  [network6 0 0 0 1 128, network6 0 0 0 0 128, (0xffff * 65536 ^ 2, 32),
    network6 0x64 0xff9b 1 0 48, network6 0x100 0 0 0 64, network6 0x2001 0 0 0 23,
    network6 0x2001 0xdb8 0 0 32, network6 0x2002 0 0 0 16, network6 0x3fff 0 0 0 20,
    network6 0xfc00 0 0 0 7, network6 0xfe80 0 0 0 10]

/-- `_IPv6Constants._private_networks_exceptions`. -/
def privateExceptions6 : List (ℕ × ℕ) :=
  [network6 0x2001 1 0 1 128, network6 0x2001 1 0 2 128, network6 0x2001 3 0 0 32,
    network6 0x2001 4 0x112 0 48, network6 0x2001 0x20 0 0 28, network6 0x2001 0x30 0 0 28]

/-- The IPv4 address an IPv6 address maps. -/
def mapped (ip : ℕ) : Option ℕ := if ip / 2 ^ 32 = 0xffff then some (ip % 2 ^ 32) else none

/-- In one of the networks, and in none of the exceptions. -/
def inPrivate (networks exceptions : List (ℕ × ℕ)) (ip : ℕ) : Bool :=
  networks.any (inNetwork ip) && !exceptions.any (inNetwork ip)

/-- `address.is_private`. -/
def isPrivate : IPAddress → Bool
  | v4 ip => inPrivate privateNetworks4 privateExceptions4 ip
  | v6 ip =>
    match mapped ip with
    | some ip => inPrivate privateNetworks4 privateExceptions4 ip
    | none => inPrivate privateNetworks6 privateExceptions6 ip

/-- `address.is_loopback`. -/
def isLoopback : IPAddress → Bool
  | v4 ip => inNetwork ip (network4 127 0 0 0 8)
  | v6 ip => ip == 1

/-- `address.is_link_local`. -/
def isLinkLocal : IPAddress → Bool
  | v4 ip => inNetwork ip (network4 169 254 0 0 16)
  | v6 ip =>
    match mapped ip with
    | some ip => inNetwork ip (network4 169 254 0 0 16)
    | none => inNetwork ip (network6 0xfe80 0 0 0 10)

example : parse "192.168.1.50".toList = some (v4 3232235826) := by decide

example : parse "fe80::1%eth0".toList = some (v6 (0xfe80 * 65536 ^ 7 + 1)) := by decide

end IPAddress

/-! ## The host of a URL -/

namespace Url

variable (u : Unicode)

/-- What `urlsplit` strips at the front. -/
def isControlOrSpace (c : Char) : Bool := decide (c.toNat ≤ 32)

/-- What `urlsplit` takes out everywhere. -/
def isUnsafe (c : Char) : Bool := c == '\t' || c == '\r' || c == '\n'

/-- The URL as `urlsplit` takes it apart. -/
def cleaned (url : List Char) : List Char :=
  (url.dropWhile isControlOrSpace).filter fun c => !isUnsafe c

def isSchemeChar (c : Char) : Bool := c.isAlphanum || c == '+' || c == '-' || c == '.'

/-- The URL without its scheme. -/
def withoutScheme (url : List Char) : List Char :=
  match url.head?, partition ':' url with
  | some c, (scheme, some rest) => if c.isAlpha && scheme.all isSchemeChar then rest else url
  | _, _ => url

/-- Where a network location ends. -/
def isDelimiter (c : Char) : Bool := c == '/' || c == '?' || c == '#'

/-- The network location, which two slashes announce. -/
def location (rest : List Char) : List Char :=
  match rest with
  | '/' :: '/' :: rest => rest.takeWhile fun c => !isDelimiter c
  | _ => []

/-- The network location of a URL, before it is checked. -/
def netloc (url : List Char) : List Char := location (withoutScheme (cleaned url))

def invalidIPv6 : PyError := .valueError "Invalid IPv6 URL"

/-- `_check_bracketed_host`. -/
def checkBracketedHost (host : List Char) : Except PyError Unit :=
  match host with
  | 'v' :: rest =>
    let hex := rest.takeWhile fun c => (IPAddress.hexDigit? c).isSome
    match rest.drop hex.length with
    | '.' :: _ :: _ =>
      if hex = [] then .error (.valueError "IPvFuture address is invalid") else .ok ()
    | _ => .error (.valueError "IPvFuture address is invalid")
  | host =>
    match IPAddress.parse host with
    | some (.v6 _) => .ok ()
    | some (.v4 _) => .error (.valueError "An IPv4 address cannot be in brackets")
    | none => .error (.valueError (Json.quoteText u.printable (String.ofList host)
        ++ " does not appear to be an IPv4 or IPv6 address"))

/-- `_check_bracketed_netloc`, and the test that brackets come in pairs. -/
def checkBrackets (netloc : List Char) : Except PyError Unit :=
  if netloc.contains '[' != netloc.contains ']' then .error invalidIPv6
  else if netloc.contains '[' then
    match partition '[' (afterLast '@' netloc) with
    | (before, some bracketed) =>
      let (host, port) := partition ']' bracketed
      if before ≠ [] ∨ (port.getD [] ≠ [] ∧ (port.getD []).head? ≠ some ':') then .error invalidIPv6
      else checkBracketedHost u host
    | (hostAndPort, none) => checkBracketedHost u (partition ':' hostAndPort).1
  else .ok ()

/-- `_checknetloc`: no delimiter comes out of normalizing. -/
def checkNetloc (netloc : List Char) : Except PyError Unit :=
  let plain := netloc.filter fun c => !(c == '@' || c == ':' || c == '#' || c == '?')
  let normal := u.nfkc plain
  if netloc.all (fun c => decide (c.toNat < 128)) ∨ plain = normal then .ok ()
  else if normal.any fun c => isDelimiter c || c == '@' || c == ':' then
    .error (.valueError ("netloc '" ++ String.ofList netloc
      ++ "' contains invalid characters under NFKC normalization"))
  else .ok ()

/-- The host of a network location. -/
def hostOf (netloc : List Char) : List Char :=
  let hostinfo := afterLast '@' netloc
  let host :=
    match partition '[' hostinfo with
    | (_, some bracketed) => (partition ']' bracketed).1
    | (_, none) => (partition ':' hostinfo).1
  match partition '%' host with
  | (name, some zone) => u.lower name ++ '%' :: zone
  | (name, none) => u.lower name

/-- `urlparse(url).hostname or ""`. -/
def hostname (url : List Char) : Except PyError (List Char) := do
  checkBrackets u (netloc url)
  checkNetloc u (netloc url)
  return hostOf u (netloc url)

/-! ## A path after a URL -/

variable {u}

theorem exists_of_location_ne_nil {rest : List Char} (h : location rest ≠ []) :
    ∃ tail, rest = '/' :: '/' :: tail := by
  by_contra hno
  refine h ?_
  rw [location]
  exact fun tail heq => hno ⟨tail, heq⟩

/-- A path, which starts with a slash, is not part of the network location it follows. -/
theorem location_append {rest path : List Char} (h : location rest ≠ []) :
    location (rest ++ '/' :: path) = location rest := by
  obtain ⟨tail, rfl⟩ := exists_of_location_ne_nil h
  show List.takeWhile _ (tail ++ '/' :: path) = List.takeWhile _ tail
  rw [List.takeWhile_append]
  split
  · rename_i hall
    rw [List.takeWhile_cons, if_neg (by decide), List.append_nil]
    exact ((List.takeWhile_prefix _).eq_of_length hall).symm
  · rfl

/-- …nor is it part of the scheme. -/
theorem withoutScheme_append {url : List Char} (h : location (withoutScheme url) ≠ [])
    (more : List Char) : withoutScheme (url ++ more) = withoutScheme url ++ more := by
  obtain - | ⟨c, url⟩ := url
  · exact absurd rfl h
  cases hp : (partition ':' (c :: url)).2 with
  | some rest =>
    have happ := partition_append more hp
    have hpart : partition ':' (c :: url) = ((partition ':' (c :: url)).1, some rest) :=
      Prod.ext rfl hp
    rw [List.cons_append] at happ
    rw [List.cons_append, withoutScheme, withoutScheme, happ, hpart]
    simp only [List.head?_cons]
    split <;> rfl
  | none =>
    have hpart : partition ':' (c :: url) = ((partition ':' (c :: url)).1, none) :=
      Prod.ext rfl hp
    have hself : withoutScheme (c :: url) = c :: url := by rw [withoutScheme, hpart]; rfl
    -- No colon so far: the text starts with the slashes, and no scheme does.
    rw [hself] at h ⊢
    obtain ⟨tail, htail⟩ := exists_of_location_ne_nil h
    obtain ⟨rfl, -⟩ := List.cons.inj htail
    rw [List.cons_append, withoutScheme]
    simp only [List.head?_cons]
    split
    · rename_i heq _
      obtain rfl := Option.some.inj heq
      rfl
    · rfl

/-- **The network location of a URL with a path after it.** -/
theorem netloc_append {url path : List Char} (h : netloc url ≠ []) :
    netloc (url ++ '/' :: path) = netloc url := by
  have hdrop : url.dropWhile isControlOrSpace ≠ [] := fun hnil => h (by
    rw [netloc, cleaned, hnil]; rfl)
  have hclean : cleaned (url ++ '/' :: path)
      = cleaned url ++ '/' :: path.filter fun c => !isUnsafe c := by
    rw [cleaned, cleaned, List.dropWhile_append, if_neg (by simpa using hdrop), List.filter_append,
      List.filter_cons_of_pos (by decide)]
  rw [netloc, hclean, withoutScheme_append h, location_append h, netloc]

/-- A URL with a host has a network location. -/
theorem netloc_ne_nil_of_hostname {url host : List Char} (h : hostname u url = .ok host)
    (hhost : host ≠ []) : netloc url ≠ [] := fun hnil => by
  rw [hostname, hnil] at h
  obtain rfl := Except.ok.inj h
  exact hhost u.lower_nil

/-- **A URL with a host keeps it under every path.** -/
theorem hostname_append {url host path : List Char} (h : hostname u url = .ok host)
    (hhost : host ≠ []) : hostname u (url ++ '/' :: path) = .ok host := by
  rw [← h, hostname, hostname, netloc_append (netloc_ne_nil_of_hostname h hhost)]

end Url

end BareAnalysis
