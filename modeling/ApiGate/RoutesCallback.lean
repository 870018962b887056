import ApiGate.EventLoop.Feed
import ApiGate.Json

/-!
# The parse callback of the route document

`parse_routes` gives the JSON parser a callback that refuses documents with a
field that is there twice or with a container in an unexpected place, before
anything else is looked at. The callback sees a stream of events and keeps its
own idea of where it is.
-/

namespace ApiGate

/-- The message of a `ConfigError`. -/
abbrev ConfigError := String

namespace RoutesCallback

open Json (ParseEvent)

/-- The variables that the callback captures. -/
structure State where
  keys0 : List Text := []
  keys1 : List Text := []
  keys2 : List Text := []
  routeKey : Text := []
  objectCount : Nat := 0
  upstreamCount : Nat := 0
  inUpstreams : Bool := false
  authKey : Text := []
  inKeyEnvs : Bool := false
  referenceCount : Nat := 0
  deriving DecidableEq

/-- The names of the fields that may hold a container. -/
def upstreamsKey : Text := "upstreams".toList

def authFieldKey : Text := "auth".toList

def rateLimitKey : Text := "rate_limit".toList

def healthCheckKey : Text := "health_check".toList

def apiKeyEnvKey : Text := "api_key_env".toList

def apiKeyEnvsKey : Text := "api_key_envs".toList

/-- A string that is not empty. -/
def isReference : Json → Bool
  | .string s => !s.isEmpty
  | _ => false

def onArrayStart (s : State) (depth : Nat) : Except ConfigError State :=
  if depth ≠ 0 then
    if depth = 2 && s.routeKey = upstreamsKey then
      .ok { s with upstreamCount := 0, inUpstreams := true }
    else if depth = 3 && s.routeKey = authFieldKey && s.authKey = apiKeyEnvsKey then
      .ok { s with referenceCount := 0, inKeyEnvs := true }
    else .error "APIGATE_ROUTES contains an invalid nested array"
  else .ok s

def onArrayEnd (s : State) (depth : Nat) : State :=
  let s := if depth = 2 then { s with inUpstreams := false } else s
  if depth = 3 then { s with inKeyEnvs := false } else s

def onValue (s : State) (depth : Nat) (parsed : Json) : Except ConfigError State :=
  if depth = 4 && s.inKeyEnvs then
    if !isReference parsed || s.referenceCount + 1 > 4 then
      .error "APIGATE_ROUTES auth requires 1-4 nonempty key references"
    else .ok { s with referenceCount := s.referenceCount + 1 }
  else .ok s

def onObjectStart (s : State) (depth : Nat) : Except ConfigError State :=
  if depth = 1 then
    if s.objectCount + 1 > 32 then
      .error "APIGATE_ROUTES must contain at most 32 route objects"
    else .ok { s with objectCount := s.objectCount + 1, keys0 := [] }
  else if depth = 2 && (s.routeKey = rateLimitKey || s.routeKey = healthCheckKey
      || s.routeKey = authFieldKey) then
    .ok { s with keys1 := [], authKey := [] }
  else if depth = 3 && s.inUpstreams && s.routeKey = upstreamsKey then
    if s.upstreamCount + 1 > 16 then
      .error "APIGATE_ROUTES upstreams must contain at most 16 entries"
    else .ok { s with upstreamCount := s.upstreamCount + 1, keys2 := [] }
  else .error "APIGATE_ROUTES contains an invalid nested object"

/-- `keys.at(depth - 2).insert(name)`, which must be new. -/
def insertKey (s : State) (depth : Nat) (name : Text) : Except ConfigError State :=
  let duplicate := "APIGATE_ROUTES contains a duplicate object field"
  match depth with
  | 2 => if name ∈ s.keys0 then .error duplicate else .ok { s with keys0 := name :: s.keys0 }
  | 3 => if name ∈ s.keys1 then .error duplicate else .ok { s with keys1 := name :: s.keys1 }
  | 4 => if name ∈ s.keys2 then .error duplicate else .ok { s with keys2 := name :: s.keys2 }
  | _ => .error duplicate

/-- A field of an `auth` object must be a known one. -/
def checkAuthKey (s : State) (depth : Nat) (name : Text) : Except ConfigError State :=
  if depth = 3 && s.routeKey = authFieldKey then
    if name ≠ apiKeyEnvKey ∧ name ≠ apiKeyEnvsKey then
      .error "APIGATE_ROUTES auth contains an unknown field"
    else .ok { s with authKey := name }
  else .ok s

def onKey (s : State) (depth : Nat) (name : Text) : Except ConfigError State := do
  let s ← checkAuthKey s depth name
  let s ← insertKey s depth name
  pure (if depth = 2 then { s with routeKey := name } else s)

def callback (s : State) : ParseEvent → Except ConfigError State
  | .arrayStart depth => onArrayStart s depth
  | .arrayEnd depth => .ok (onArrayEnd s depth)
  | .objectStart depth => onObjectStart s depth
  | .objectEnd _ => .ok s
  | .key depth name => onKey s depth name
  | .value depth parsed => onValue s depth parsed

/-- The callback throws at no event of the document. -/
def Passes (doc : Json) : Prop := ∃ s, EventLoop.feed callback {} (Json.events 0 doc) = .ok s

end RoutesCallback

end ApiGate
