import ApiGate.EventLoop.Feed
import ApiGate.Config
import ApiGate.RoutesCallback

/-!
# Checks of single values

What `config.cpp` does with the text of one setting: the numbers, the labels, the
addresses and the prefix of a route. A check that throws gives its message.
-/

namespace ApiGate

namespace ConfigText

/-- `std::isalnum` in the C locale. -/
def isAlnum (c : Char) : Bool :=
  ('a' ≤ c && c ≤ 'z') || ('A' ≤ c && c ≤ 'Z') || ('0' ≤ c && c ≤ '9')

def maxLabelLength : Nat := 64

def validateLabel (value : Text) (variableName : String) : Except ConfigError Unit :=
  let validCharacter := value.all fun c => isAlnum c || c = '-' || c = '_' || c = '.'
  if value.length > maxLabelLength || !validCharacter then
    .error (variableName ++ " must be 1-64 characters using letters, digits, '.', '_' or '-'")
  else .ok ()

def parseLogLevel (value : Text) : Except ConfigError LogLevel :=
  if value = "trace".toList then .ok .trace
  else if value = "debug".toList then .ok .debug
  else if value = "info".toList then .ok .info
  else if value = "warn".toList then .ok .warn
  else if value = "error".toList then .ok .error
  else if value = "critical".toList then .ok .critical
  else .error "APIGATE_LOG_LEVEL must be one of trace, debug, info, warn, error or critical"

def toString : LogLevel → Text
  | .trace => "trace".toList
  | .debug => "debug".toList
  | .info => "info".toList
  | .warn => "warn".toList
  | .error => "error".toList
  | .critical => "critical".toList

/-! ## Numbers -/

def isDigit (c : Char) : Bool := '0' ≤ c && c ≤ '9'

def digitValue (c : Char) : Nat := c.toNat - '0'.toNat

/-- `std::from_chars` of an unsigned type up to `limit` that must take the whole text. -/
def fromChars (limit : Nat) (value : Text) : Option Nat :=
  if value.isEmpty || !value.all isDigit then none
  else
    let number := value.foldl (fun n c => n * 10 + digitValue c) 0
    if number > limit then none else some number

def maxUInt32 : Nat := 4294967295

def maxUInt64 : Nat := 18446744073709551615

/-- A number of a type up to `limit` that is in range. -/
def boundedNumber (limit low high : Nat) (message : String) (value : Text) :
    Except ConfigError Nat :=
  match fromChars limit value with
  | none => .error message
  | some number => if number < low || number > high then .error message else .ok number

def parseListenPort : Text → Except ConfigError Nat :=
  boundedNumber maxUInt32 0 65535 "APIGATE_LISTEN_PORT must be an integer from 0 to 65535"

def parseUpstreamPort : Text → Except ConfigError Nat :=
  boundedNumber maxUInt32 1 65535 "APIGATE_UPSTREAM_PORT must be an integer from 1 to 65535"

def parseCapacityLimit (value : Text) (variableName : String) : Except ConfigError Nat :=
  boundedNumber maxUInt32 1 65535 (variableName ++ " must be an integer from 1 to 65535") value

def parseBoundedMilliseconds (value : Text) (variableName : String) : Except ConfigError Nat :=
  boundedNumber maxUInt32 1 60000 (variableName ++ " must be an integer from 1 to 60000") value

def parseMaxInFlightBytes : Text → Except ConfigError Nat :=
  boundedNumber maxUInt64 1 1073741824
    "APIGATE_MAX_IN_FLIGHT_BYTES must be an integer from 1 to 1073741824"

theorem boundedNumber_range {limit low high n : Nat} {message : String} {value : Text}
    (h : boundedNumber limit low high message value = .ok n) : low ≤ n ∧ n ≤ high := by
  unfold boundedNumber at h
  split at h
  · cases h
  · split at h
    · cases h
    · rename_i hrange
      cases h
      simpa using hrange

/-! ## Hosts -/

def maxHostnameLength : Nat := 253

def hostnameError : ConfigError := "APIGATE_UPSTREAM_HOST must be a valid hostname or IP address"

/-- The variables of the scanner. -/
structure LabelScan where
  labelLength : Nat := 0
  labelStartsWithHyphen : Bool := false
  previous : Char := Char.ofNat 0
  deriving DecidableEq, Repr

/-- The label that ends here is not a label. -/
def LabelScan.rejects (s : LabelScan) : Bool :=
  s.labelLength = 0 || s.labelLength > 63 || s.labelStartsWithHyphen || s.previous = '-'

/-- The body of the loop. -/
def scanCharacter (s : LabelScan) (c : Char) : Except ConfigError LabelScan :=
  if c = '.' then
    if s.rejects then .error hostnameError
    else .ok { labelLength := 0, labelStartsWithHyphen := false, previous := c }
  else if isAlnum c || c = '-' then
    .ok { labelLength := s.labelLength + 1
          labelStartsWithHyphen := if s.labelLength = 0 then c = '-' else s.labelStartsWithHyphen
          previous := c }
  else .error hostnameError

def validateDnsHostname (value : Text) : Except ConfigError Unit :=
  if value.length > maxHostnameLength || value.head? = some '.' || value.getLast? = some '.' then
    .error hostnameError
  else do
    let s ← EventLoop.feed scanCharacter {} value
    if s.rejects then .error hostnameError else .ok ()

/-- `makeAddress` is `make_address` and `to_string`, without a result for an error. -/
def parseUpstreamHost (makeAddress : Text → Option Text) (value : Text) :
    Except ConfigError Text :=
  match makeAddress value with
  | some address => .ok address
  | none => do
      validateDnsHostname value
      .ok value

def parseListenAddress (makeAddress : Text → Option Text) (value : Text) :
    Except ConfigError Text :=
  match makeAddress value with
  | some address => .ok address
  | none => .error "APIGATE_LISTEN_ADDRESS must be a valid IPv4 or IPv6 address"

/-! ## Route prefixes -/

/-- `find(c, start)`; without a result it is `npos`. -/
def findFrom (text : Text) (c : Char) (start : Nat) : Option Nat :=
  ((text.drop start).findIdx? (· = c)).map (· + start)

/-- `substr(start, count)`; without a count up to the end. -/
def substr (text : Text) (start : Nat) (count : Option Nat) : Text :=
  match count with
  | none => text.drop start
  | some n => (text.drop start).take n

def isSegmentCharacter (c : Char) : Bool :=
  ('a' ≤ c && c ≤ 'z') || ('A' ≤ c && c ≤ 'Z') || ('0' ≤ c && c ≤ '9')
    || c = '-' || c = '.' || c = '_' || c = '~'

def isSegment (segment : Text) : Bool :=
  !(segment.isEmpty || segment = ".".toList || segment = "..".toList
    || !segment.all isSegmentCharacter)

theorem findFrom_le {text : Text} {c : Char} {start stop : Nat}
    (h : findFrom text c start = some stop) : start ≤ stop := by
  obtain ⟨n, -, rfl⟩ := Option.map_eq_some_iff.mp h
  exact Nat.le_add_left start n

/-- The loop of `validate_route_prefix`. -/
def checkSegments (routePrefix : Text) (start : Nat) : Except ConfigError Unit :=
  if _h : start ≤ routePrefix.length then
    match hfind : findFrom routePrefix '/' start with
    | none =>
        if isSegment (substr routePrefix start none) then .ok ()
        else .error "APIGATE_ROUTES prefix contains an invalid path segment"
    | some stop =>
        if isSegment (substr routePrefix start (some (stop - start))) then
          checkSegments routePrefix (stop + 1)
        else .error "APIGATE_ROUTES prefix contains an invalid path segment"
  else .ok ()
termination_by routePrefix.length + 1 - start
decreasing_by
  have hle := findFrom_le hfind
  omega

def validateRoutePrefix (routePrefix : Text) : Except ConfigError Unit :=
  if routePrefix.isEmpty || routePrefix.head? ≠ some '/' then
    .error "APIGATE_ROUTES prefix must start with '/'"
  else if routePrefix = "/".toList then .ok ()
  else checkSegments routePrefix 1

end ConfigText

end ApiGate
