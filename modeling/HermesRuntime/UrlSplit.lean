import HermesRuntime.Python

/-!
# `urllib.parse.urlsplit`

How the standard library of the production interpreter (Python 3.14) splits a URL: leading
control characters and blanks are dropped, tabs and newlines are removed everywhere, the scheme is
what stands before the first colon when it has the shape of one, the authority follows `//`, and
fragment and query are cut at the first `#` and the first `?`. Three checks on the authority raise
`ValueError`: unbalanced brackets, brackets around anything but the host or a host that is no IPv6
or IPvFuture address, and characters that normalize to a delimiter.
-/

namespace HermesRuntime

/-- The parts `urlsplit` returns. -/
structure SplitResult where
  scheme : String
  netloc : String
  path : String
  query : String
  fragment : String
  deriving DecidableEq, Repr

/-- `s.partition(c)`: before the first `c`, whether there is one, and what follows it. -/
def partitionAt (c : Char) (s : List Char) : List Char × Bool × List Char :=
  (s.takeWhile (· ≠ c), s.contains c, (s.dropWhile (· ≠ c)).drop 1)

/-! ## Bracketed hosts -/

def isHexDigit (c : Char) : Bool :=
  c.isDigit || ('a' ≤ c && c ≤ 'f') || ('A' ≤ c && c ≤ 'F')

/-- `IPv4Address._parse_octet` -/
def isIPv4Octet (s : List Char) : Bool :=
  !s.isEmpty && s.all Char.isDigit && s.length ≤ 3 && (s = ['0'] || s.head? ≠ some '0') &&
    (Nat.ofDigitChars 10 s 0) ≤ 255

def isIPv4 (s : List Char) : Bool :=
  let octets := s.splitOn '.'
  octets.length = 4 && octets.all isIPv4Octet

/-- `IPv6Address._parse_hextet` -/
def isHextet (s : List Char) : Bool := !s.isEmpty && s.all isHexDigit && s.length ≤ 4

/-- `IPv6Address._ip_int_from_string`, as the test whether it raises. -/
def isIPv6Text (s : List Char) : Bool :=
  let parts := s.splitOn ':'
  let last := parts.getLastD []
  if parts.length < 3 then false
  else if last.contains '.' && !isIPv4 last then false
  else
    -- An IPv4 suffix counts as two hextets.
    let parts := if last.contains '.' then parts.dropLast ++ [['0'], ['0']] else parts
    if parts.length > 9 then false
    else
      let inner := parts.tail.dropLast
      match inner.idxOf? [] with
      | some i =>
          -- `parts[i + 1]` is the empty part between the two colons of `::`.
          let hi := parts.take (i + 1)
          let lo := parts.drop (i + 2)
          let hi' := if hi.head? = some [] then hi.tail else hi
          let lo' := if lo.getLast? = some [] then lo.dropLast else lo
          inner.count [] = 1 && (hi.head? ≠ some [] || hi'.isEmpty) &&
            (lo.getLast? ≠ some [] || lo'.isEmpty) && hi'.length + lo'.length < 8 &&
            hi'.all isHextet && lo'.all isHextet
      | none => parts.length = 8 && parts.all isHextet

/-- `IPv6Address(s)`, as the test whether it raises: an optional scope after `%`. -/
def isIPv6 (s : List Char) : Bool :=
  let (address, hasScope, scope) := partitionAt '%' s
  !s.contains '/' && !(hasScope && (scope.isEmpty || scope.contains '%')) && isIPv6Text address

/-- `re.match(r"\Av[a-fA-F0-9]+\..+\Z", host)` -/
def isIPvFuture (s : List Char) : Bool :=
  match s with
  | 'v' :: rest =>
      let digits := rest.takeWhile isHexDigit
      let after := rest.dropWhile isHexDigit
      !digits.isEmpty && after.head? = some '.' && after.length ≥ 2
  | _ => false

/-- `_check_bracketed_host`, as the test whether it raises. -/
def isBracketedHost (s : List Char) : Bool :=
  if s.head? = some 'v' then isIPvFuture s else isIPv6 s

/-- `netloc.rpartition('@')[2]`: host and port. -/
def hostInfo (netloc : List Char) : List Char := (netloc.reverse.takeWhile (· ≠ '@')).reverse

/-- `_check_bracketed_netloc`, as the test whether it raises: nothing stands before the bracket of
the host, and only a port after it. -/
def isBracketedNetloc (netloc : List Char) : Bool :=
  let (before, bracket, bracketed) := partitionAt '[' (hostInfo netloc)
  if bracket then
    let (hostname, _, port) := partitionAt ']' bracketed
    before.isEmpty && port.head?.all (· = ':') && isBracketedHost hostname
  else isBracketedHost (partitionAt ':' (hostInfo netloc)).1

/-! ## The split -/

/-- The characters outside ASCII whose NFKC form contains one of `/?#@:`, which
`_checknetloc` refuses in an authority. -/
def nfkcDelimiters : List Char :=
  ['\u2047', '\u2048', '\u2049', '\u2100', '\u2101', '\u2105', '\u2106', '\u2a74', '\ufe13',
    '\ufe16', '\ufe55', '\ufe56', '\ufe5f', '\ufe6b', '\uff03', '\uff0f', '\uff1a', '\uff1f',
    '\uff20']

def isSchemeChar (c : Char) : Bool := c.isAlphanum || c = '+' || c = '-' || c = '.'

/-- The scheme in front of the first colon, lowered, and the rest of the URL. -/
def splitScheme (url : List Char) : List Char × List Char :=
  let (front, found, rest) := partitionAt ':' url
  if found && (front.head?.any Char.isAlpha) && front.all isSchemeChar then
    (front.map Char.toLower, rest)
  else ([], url)

/-- `urlsplit(url)` -/
def urlsplit (url : String) : Except Exc SplitResult := do
  let cleaned := (url.toList.dropWhile (·.toNat ≤ 32)).filter
    fun c => c ≠ '\t' && c ≠ '\r' && c ≠ '\n'
  let (scheme, rest) := splitScheme cleaned
  let isDelimiter (c : Char) : Bool := c = '/' || c = '?' || c = '#'
  let (netloc, rest) := if rest.take 2 = ['/', '/'] then
    ((rest.drop 2).takeWhile (!isDelimiter ·), (rest.drop 2).dropWhile (!isDelimiter ·))
  else ([], rest)
  if netloc.contains '[' != netloc.contains ']' then throw (.valueError "Invalid IPv6 URL")
  if netloc.contains '[' && !isBracketedNetloc netloc then
    throw (.valueError "Invalid bracketed host")
  let (rest, _, fragment) := partitionAt '#' rest
  let (path, _, query) := partitionAt '?' rest
  if netloc.any nfkcDelimiters.contains then
    throw (.valueError "netloc contains invalid characters under NFKC normalization")
  pure ⟨String.ofList scheme, String.ofList netloc, String.ofList path, String.ofList query,
    String.ofList fragment⟩

example : (urlsplit "https://[::1]:80/x").isOk = true := by decide

example : (urlsplit "https://[::1]x").isOk = false := by decide

end HermesRuntime
