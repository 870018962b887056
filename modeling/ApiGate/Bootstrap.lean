import ApiGate.ApiKeys
import ApiGate.LoadConfig
import ApiGate.EventLoop.TwoRuns

/-!
# Starting the program

`main` and the record that `StructuredLogger` makes of its fields. Nothing that the
program prints while it starts depends on a key: `keys_stay_secret` compares two
startups whose environments differ only in variables that a key reference can name.
They are told apart by the three refusals of a missing, malformed or repeated key at
most, and these have fixed texts.
-/

namespace ApiGate

/-! ## Records -/

namespace Json

/-- `object[name] = value`. The members of an object are kept in the order of their names. -/
def assign (name : Text) (value : Json) : List (Text × Json) → List (Text × Json)
  | [] => [(name, value)]
  | m :: rest =>
      if name = m.1 then (name, value) :: rest
      else if name < m.1 then (name, value) :: m :: rest
      else m :: assign name value rest

/-- An object from a list of its members. -/
def record (members : List (Text × Json)) : Json :=
  .object (members.foldl (fun made m => assign m.1 m.2 made) [])

end Json

/-- `StructuredLogger`, as far as it decides what is printed. -/
structure StructuredLogger where
  serviceName : Text
  environment : Text

namespace StructuredLogger

def new (config : AppConfig) : StructuredLogger where
  serviceName := config.serviceName
  environment := config.environment

/-- With the text of `std::invalid_argument`. -/
def makePayload (logger : StructuredLogger) (event : Text) (fields : Json) : Except String Json :=
  if event.isEmpty then .error "log event must not be empty"
  else
    let addStandard := fun members =>
      let members := Json.assign "service".toList (.string logger.serviceName) members
      let members := Json.assign "environment".toList (.string logger.environment) members
      Json.assign "event".toList (.string event) members
    match fields with
    | .null => .ok (.object (addStandard []))
    | .object members => .ok (.object (addStandard members))
    | _ => .error "log fields must be a JSON object"

end StructuredLogger

namespace Bootstrap

open LoadConfig RoutesCallback
open EventLoop (Alike feed)

inductive Command where
  | run
  | checkConfig
  | help
  | version
  deriving DecidableEq, Repr

/-- `argc` is the length of the list. -/
def parseCommandLine (argv : List Text) : Except String Command :=
  match argv with
  | [_] => .ok .run
  | [_, argument] =>
      if argument = "--check-config".toList then .ok .checkConfig
      else if argument = "--help".toList || argument = "-h".toList then .ok .help
      else if argument = "--version".toList then .ok .version
      else .error "unsupported command-line option"
  | _ => .error "expected zero or one command-line option"

/-- What the program does, or what it prints before it ends. Only the last one makes it end
with `EXIT_FAILURE` here. -/
inductive Outcome where
  | helpPrinted
  | versionPrinted
  | configurationValid (payload : Json)
  /-- `Application::run()` with this configuration -/
  | applicationRuns (config : AppConfig)
  | bootstrapFailed (category message : String)

def number (n : Nat) : Json := .unsigned (UInt64.ofNat n)

/-- The fields of the record of `--check-config`. -/
def checkedFields (config : AppConfig) : Json :=
  let authenticated := config.routes.countP fun route => route.auth.isSome
  let fields := [
    ("log_level".toList, .string (ConfigText.toString config.logLevel)),
    ("listen_address".toList, .string config.listenAddress),
    ("listen_port".toList, number config.listenPort),
    ("max_connections".toList, number config.maxConnections),
    ("max_concurrent_proxies".toList, number config.maxConcurrentProxies),
    ("max_in_flight_bytes".toList, .unsigned config.maxInFlightBytes),
    ("shutdown_grace_ms".toList, number config.shutdownGraceMs),
    ("metrics_enabled".toList, .boolean config.metricsEnabled),
    ("upstream_keep_alive".toList, .boolean config.upstreamKeepAlive),
    ("tls_enabled".toList, .boolean config.downstreamTlsContext),
    ("authenticated_route_count".toList, .integer (Int64.ofNat authenticated)),
    ("proxy_enabled".toList, .boolean (config.upstream.isSome || !config.routes.isEmpty))]
  let routeCount :=
    if config.routes.isEmpty then [] else [("route_count".toList, number config.routes.length)]
  let timeout := config.upstream.toList.map fun upstream =>
    ("upstream_timeout_ms".toList, number upstream.timeoutMs)
  Json.record (fields ++ routeCount ++ timeout)

/-- `main` once the configuration is there. -/
def perform (command : Command) (config : AppConfig) : Outcome :=
  if command = .checkConfig then
    let logger := StructuredLogger.new config
    match logger.makePayload "configuration_valid".toList (checkedFields config) with
    | .ok payload => .configurationValid payload
    | .error message => .bootstrapFailed "arguments" message
  else .applicationRuns config

def configured (command : Command) (s : Startup) : Outcome :=
  match loadConfigFromEnvironment s with
  | .error message => .bootstrapFailed "configuration" message
  | .ok config => perform command config

def main (argv : List Text) (s : Startup) : Outcome :=
  match parseCommandLine argv with
  | .error message => .bootstrapFailed "arguments" message
  | .ok .help => .helpPrinted
  | .ok .version => .versionPrinted
  | .ok command => configured command s

/-! ## What is hidden -/

/-- The configuration without its digests. -/
def shownAuth (auth : ApiKeyAuthConfig) : ApiKeyAuthConfig :=
  { auth with digests := Vector.replicate 4 emptyDigest }

def shownRoute (route : RouteConfig) : RouteConfig :=
  { route with auth := route.auth.map shownAuth }

def shownConfig (config : AppConfig) : AppConfig :=
  { config with routes := config.routes.map shownRoute }

/-- What can be seen of a start from outside, and what the program goes on with, except the
digests that it keeps. -/
def Outcome.shown : Outcome → Outcome
  | .applicationRuns config => .applicationRuns (shownConfig config)
  | outcome => outcome

/-- The refusals that depend on the value of a key. -/
def keyRefusals : List ConfigError :=
  ["referenced authentication key is missing or invalid",
   "authentication key configuration contains duplicates",
   "authentication key configuration failed"]

def KeyRefusal (message : ConfigError) : Prop := message ∈ keyRefusals

def Outcome.isKeyRefusal (outcome : Outcome) : Prop :=
  ∃ message, KeyRefusal message ∧ outcome = .bootstrapFailed "configuration" message

/-- A second environment. -/
def rekeyed (s : Startup) (getenv : Text → Option Text) : Startup := { s with getenv }

/-- The two environments differ only in variables that a key reference can name. -/
def SameButKeys (s : Startup) (getenv : Text → Option Text) : Prop :=
  ∀ name, validApiKeyReference name = false → getenv name = s.getenv name

variable {s : Startup} {getenv : Text → Option Text}

/-! ## Keys -/

/-- Two states of the loop over the references. -/
def SameSlots (a b : KeyLoop) : Prop :=
  a.configured.keyCount = b.configured.keyCount ∧ a.uniqueReferences = b.uniqueReferences

theorem referencedDigest_refusal {s : Startup} {reference : Text} {k : ConfigError}
    (h : referencedDigest s reference = .error k) : KeyRefusal k := by
  unfold referencedDigest at h
  split at h
  · cases h
    exact .head _
  · split at h
    · cases h
      exact .head _
    · split at h
      · cases h
        exact .tail _ (.tail _ (.head _))
      · cases h

theorem referencedDigest_alike (reference : Text) :
    Alike KeyRefusal (fun _ _ => True) (referencedDigest s reference)
      (referencedDigest (rekeyed s getenv) reference) := by
  cases h : referencedDigest s reference with
  | error k => exact .left (referencedDigest_refusal h)
  | ok digest =>
      cases h' : referencedDigest (rekeyed s getenv) reference with
      | error k => exact .right (referencedDigest_refusal h')
      | ok digest' => exact .ok trivial

/-- A repeated key shows, but not which key it is. -/
theorem addReference_alike {a b : KeyLoop} (h : SameSlots a b) (reference : Text) :
    Alike KeyRefusal SameSlots (addReference s a reference)
      (addReference (rekeyed s getenv) b reference) := by
  unfold addReference
  rw [h.2]
  refine .ite Iff.rfl (.refused _) (.ite Iff.rfl (.refused _) ?_)
  refine (referencedDigest_alike reference).bind ?_
  intro digest digest' _
  by_cases hleft : matchesApiKeyDigest a.configured digest = true
  · rw [if_pos hleft]
    exact .left (.tail _ (.head _))
  by_cases hright : matchesApiKeyDigest b.configured digest' = true
  · rw [if_pos hright]
    exact .right (.tail _ (.head _))
  rw [if_neg hleft, if_neg hright]
  refine .ok ⟨?_, rfl⟩
  show a.configured.keyCount + 1 = b.configured.keyCount + 1
  rw [h.1]

theorem configureKeys_alike (references : List Text) :
    Alike KeyRefusal (fun a b => shownAuth a = shownAuth b) (configureKeys s references)
      (configureKeys (rekeyed s getenv) references) := by
  have hloop : Alike KeyRefusal SameSlots (feed (addReference s) {} references)
      (feed (addReference (rekeyed s getenv)) {} references) :=
    .feed (fun a b h reference => addReference_alike h reference) references ⟨rfl, rfl⟩
  refine hloop.bind ?_
  intro a b h
  refine .ok ?_
  unfold shownAuth
  rw [h.1]

theorem parseAuth_alike (entry : Json) :
    Alike KeyRefusal (fun a b => Option.map shownAuth a = Option.map shownAuth b)
      (parseAuth s entry) (parseAuth (rekeyed s getenv) entry) := by
  unfold parseAuth
  split
  · exact .ok rfl
  · refine .same_then rfl ?_
    intro references
    refine (configureKeys_alike references).bind ?_
    intro a b h
    exact .ok (congrArg some h)

/-! ## Routes -/

theorem parseRoute_alike (prefixes : List Text) (entry : Json) :
    Alike KeyRefusal (fun a b => shownRoute a = shownRoute b) (parseRoute s prefixes entry)
      (parseRoute (rekeyed s getenv) prefixes entry) := by
  refine .same_then rfl ?_
  intro routePrefix
  refine .same_then rfl ?_
  intro upstreams
  refine .same_then rfl ?_
  intro stripPrefix
  refine .same_then rfl ?_
  intro rateLimit
  refine .same_then rfl ?_
  intro healthCheck
  refine (parseAuth_alike entry).bind ?_
  intro auth auth' hauth
  refine .same_then rfl ?_
  intro streamResponse
  refine .ok ?_
  unfold shownRoute
  rw [hauth]

/-- Two tables that are shown alike. -/
def SameRoutes (a b : List RouteConfig) : Prop := a.map shownRoute = b.map shownRoute

theorem SameRoutes.prefixes {a b : List RouteConfig} (h : SameRoutes a b) :
    a.map RouteConfig.routePrefix = b.map RouteConfig.routePrefix := by
  have hmap := congrArg (List.map RouteConfig.routePrefix) h
  rw [List.map_map, List.map_map] at hmap
  exact hmap

theorem SameRoutes.protected {a b : List RouteConfig} (h : SameRoutes a b) :
    (a.map fun route => route.auth.isSome) = b.map fun route => route.auth.isSome := by
  have hmap := congrArg (List.map fun route => route.auth.isSome) h
  rw [List.map_map, List.map_map] at hmap
  simpa [Function.comp_def, shownRoute] using hmap

theorem SameRoutes.upstreams {a b : List RouteConfig} (h : SameRoutes a b) :
    a.map RouteConfig.upstreams = b.map RouteConfig.upstreams := by
  have hmap := congrArg (List.map RouteConfig.upstreams) h
  rw [List.map_map, List.map_map] at hmap
  exact hmap

theorem addRoute_alike {a b : List RouteConfig} (h : SameRoutes a b) (entry : Json) :
    Alike KeyRefusal SameRoutes (addRoute s a entry) (addRoute (rekeyed s getenv) b entry) := by
  unfold addRoute
  rw [h.prefixes]
  refine (parseRoute_alike _ entry).bind ?_
  intro route route' hroute
  refine .ok ?_
  unfold SameRoutes at h ⊢
  rw [List.map_append, List.map_append, h, List.map_singleton, List.map_singleton, hroute]

theorem routesOf_alike (document : Json) :
    Alike KeyRefusal SameRoutes (routesOf s document) (routesOf (rekeyed s getenv) document) := by
  unfold routesOf
  split
  · exact .ite Iff.rfl (.refused _)
      (.feed (fun a b h entry => addRoute_alike h entry) _ rfl)
  · exact .refused _

theorem parseRoutes_alike (value : Text) :
    Alike KeyRefusal SameRoutes (parseRoutes s value) (parseRoutes (rekeyed s getenv) value) := by
  refine .ite Iff.rfl (.refused _) (.same_then rfl ?_)
  exact routesOf_alike

/-! ## The whole configuration -/

theorem readEnvironment_same (h : SameButKeys s getenv) {name : String}
    (hname : validApiKeyReference name.toList = false) :
    readEnvironment s name = readEnvironment (rekeyed s getenv) name := by
  unfold readEnvironment
  rw [show (rekeyed s getenv).getenv name.toList = s.getenv name.toList from h _ hname]

/-- A setting is read in the same way, and so are the others when they go on alike. -/
theorem setting_same (h : SameButKeys s getenv) {name : String}
    (hname : validApiKeyReference name.toList = false)
    {assign : Text → Except ConfigError AppConfig} {config : AppConfig} :
    setting s name assign config = setting (rekeyed s getenv) name assign config := by
  unfold setting
  rw [readEnvironment_same h hname]

theorem setting_then {α : Type} (h : SameButKeys s getenv) {name : String}
    (hname : validApiKeyReference name.toList = false)
    {assign : Text → Except ConfigError AppConfig} {config : AppConfig}
    {rest rest' : AppConfig → Except ConfigError α} (hrest : ∀ config, rest config = rest' config) :
    setting s name assign config >>= rest
      = setting (rekeyed s getenv) name assign config >>= rest' := by
  rw [setting_same h hname]
  exact bind_congr hrest

theorem readEnvironment_then {α : Type} (h : SameButKeys s getenv) {name : String}
    (hname : validApiKeyReference name.toList = false)
    {rest rest' : Option Text → Except ConfigError α} (hrest : ∀ value, rest value = rest' value) :
    readEnvironment s name >>= rest = readEnvironment (rekeyed s getenv) name >>= rest' := by
  rw [readEnvironment_same h hname]
  exact bind_congr hrest

theorem loadSettings_same (h : SameButKeys s getenv) :
    loadSettings s = loadSettings (rekeyed s getenv) := by
  refine readEnvironment_then h (by decide) fun certificate => ?_
  refine readEnvironment_then h (by decide) fun privateKey => ?_
  refine bind_congr fun downstreamTlsContext => ?_
  refine setting_then h (by decide) fun keepAlive => ?_
  refine setting_then h (by decide) fun metrics => ?_
  refine setting_then h (by decide) fun service => ?_
  refine setting_then h (by decide) fun environment => ?_
  refine setting_then h (by decide) fun logLevel => ?_
  refine setting_then h (by decide) fun address => ?_
  refine setting_then h (by decide) fun port => ?_
  refine setting_then h (by decide) fun connections => ?_
  refine setting_then h (by decide) fun proxies => ?_
  refine setting_then h (by decide) fun bytes => ?_
  exact setting_same h (by decide)

theorem loadRoutes_alike (h : SameButKeys s getenv) (config : AppConfig) (value : Text) :
    Alike KeyRefusal (fun a b => shownConfig a = shownConfig b) (loadRoutes s config value)
      (loadRoutes (rekeyed s getenv) config value) := by
  refine (parseRoutes_alike value).bind ?_
  intro routes routes' hroutes
  have hprotected : routes.any (fun route => route.auth.isSome)
      = routes'.any fun route => route.auth.isSome := by
    have hany := congrArg (List.any · id) hroutes.protected
    simpa [List.any_map, Function.comp_def] using hany
  have hhttps : hasHttps routes = hasHttps routes' := by
    have hany := congrArg (List.any · fun upstreams =>
      upstreams.any fun upstream : UpstreamConfig => upstream.scheme = .https) hroutes.upstreams
    simpa [List.any_map, Function.comp_def, hasHttps] using hany
  rw [hprotected, hhttps]
  refine .ite Iff.rfl (.refused _) ?_
  refine .same_then (readEnvironment_same h (by decide)) ?_
  intro caFile
  refine .same_then rfl ?_
  intro context
  refine .ok ?_
  unfold shownConfig
  rw [show routes.map shownRoute = routes'.map shownRoute from hroutes]

theorem loadUpstream_same (h : SameButKeys s getenv) (config : AppConfig) :
    loadUpstream s config = loadUpstream (rekeyed s getenv) config := by
  refine readEnvironment_then h (by decide) fun host => ?_
  refine readEnvironment_then h (by decide) fun port => ?_
  refine readEnvironment_then h (by decide) fun timeout => ?_
  refine bind_congr fun upstream => ?_
  exact readEnvironment_then h (by decide) fun caFile => rfl

/-- Which of the variables of the old form are set is the same. -/
theorem legacy_same (h : SameButKeys s getenv) :
    ((s.getenv "APIGATE_ROUTES".toList).isSome
        && legacyVariables.any fun name => (s.getenv name.toList).isSome)
      = ((getenv "APIGATE_ROUTES".toList).isSome
        && legacyVariables.any fun name => (getenv name.toList).isSome) := by
  have hlegacy : (legacyVariables.map fun name => (s.getenv name.toList).isSome)
      = legacyVariables.map fun name => (getenv name.toList).isSome := by
    refine List.map_congr_left ?_
    intro name hname
    have hpublic : ∀ name ∈ legacyVariables, validApiKeyReference name.toList = false := by decide
    rw [h _ (hpublic name hname)]
  have hany := congrArg (List.any · id) hlegacy
  rw [List.any_map, List.any_map] at hany
  rw [h _ (by decide)]
  exact congrArg _ hany

theorem loadConfig_alike (h : SameButKeys s getenv) :
    Alike KeyRefusal (fun a b => shownConfig a = shownConfig b) (loadConfigFromEnvironment s)
      (loadConfigFromEnvironment (rekeyed s getenv)) := by
  refine .same_then (loadSettings_same h) ?_
  intro config
  refine .ite (by rw [legacy_same h]; rfl) (.refused _) ?_
  refine .same_then (readEnvironment_same h (by decide)) ?_
  intro value
  cases value with
  | none =>
      refine (Alike.of_eq (loadUpstream_same h config)).mono ?_
      rintro a _ rfl
      rfl
  | some value => exact loadRoutes_alike h config value

/-! ## The program -/

/-- The fields of the record are read from what is shown. -/
theorem checkedFields_shownConfig (config : AppConfig) :
    checkedFields (shownConfig config) = checkedFields config := by
  have hcount : (config.routes.map shownRoute).countP (fun route => route.auth.isSome)
      = config.routes.countP fun route => route.auth.isSome := by
    rw [List.countP_map]
    simp [Function.comp_def, shownRoute]
  have hlength : (config.routes.map shownRoute).length = config.routes.length := List.length_map ..
  have hempty : (config.routes.map shownRoute).isEmpty = config.routes.isEmpty := List.isEmpty_map
  simp only [checkedFields, shownConfig, hcount, hlength, hempty]

/-- What is done with a configuration shows nothing that `shownConfig` hides. -/
theorem perform_shown (command : Command) {a b : AppConfig} (h : shownConfig a = shownConfig b) :
    (perform command a).shown = (perform command b).shown := by
  unfold perform
  by_cases hcheck : command = .checkConfig
  · have hfields : checkedFields a = checkedFields b := by
      rw [← checkedFields_shownConfig a, ← checkedFields_shownConfig b, h]
    have hlogger : StructuredLogger.new a = StructuredLogger.new b := by
      show StructuredLogger.new (shownConfig a) = StructuredLogger.new (shownConfig b)
      rw [h]
    rw [if_pos hcheck, if_pos hcheck, hfields, hlogger]
  · rw [if_neg hcheck, if_neg hcheck]
    exact congrArg Outcome.applicationRuns h

/-- The record of `--check-config` can always be made. -/
theorem perform_ne_failed (command : Command) (config : AppConfig) (category message : String) :
    perform command config ≠ .bootstrapFailed category message := by
  unfold perform
  by_cases hcheck : command = .checkConfig
  · have hmade : (StructuredLogger.new config).makePayload "configuration_valid".toList
        (checkedFields config) = .ok _ := rfl
    rw [if_pos hcheck]
    dsimp only
    rw [hmade]
    exact Outcome.noConfusion
  · rw [if_neg hcheck]
    exact Outcome.noConfusion

/-- A configuration that is accepted is not refused because of its keys. -/
theorem main_accepted {argv : List Text} {s : Startup}
    (h : (loadConfigFromEnvironment s).toOption.isSome = true) : ¬ (main argv s).isKeyRefusal := by
  rintro ⟨message, -, heq⟩
  unfold main configured at heq
  cases hload : loadConfigFromEnvironment s with
  | error refusal =>
      rw [hload] at h
      cases h
  | ok config =>
      rw [hload] at heq
      cases hcommand : parseCommandLine argv with
      | error refusal =>
          rw [hcommand] at heq
          simp at heq
      | ok command =>
          rw [hcommand] at heq
          cases command with
          | help => cases heq
          | version => cases heq
          | run => exact perform_ne_failed _ _ _ _ heq
          | checkConfig => exact perform_ne_failed _ _ _ _ heq

theorem configured_shown (command : Command) (h : SameButKeys s getenv) :
    (configured command s).shown = (configured command (rekeyed s getenv)).shown
      ∨ (configured command s).isKeyRefusal
      ∨ (configured command (rekeyed s getenv)).isKeyRefusal := by
  have hload := loadConfig_alike h
  unfold configured
  generalize loadConfigFromEnvironment s = x at hload ⊢
  generalize loadConfigFromEnvironment (rekeyed s getenv) = y at hload ⊢
  cases hload with
  | ok hshown => exact .inl (perform_shown command hshown)
  | refused message => exact .inl rfl
  | left hmessage => exact .inr (.inl ⟨_, hmessage, rfl⟩)
  | right hmessage => exact .inr (.inr ⟨_, hmessage, rfl⟩)

/-- Two startups that differ only in the values of keys show the same, unless one of them is
refused because of its keys. -/
theorem keys_stay_secret (argv : List Text) (s : Startup) (getenv : Text → Option Text)
    (h : SameButKeys s getenv) :
    (main argv s).shown = (main argv (rekeyed s getenv)).shown
      ∨ (main argv s).isKeyRefusal ∨ (main argv (rekeyed s getenv)).isKeyRefusal := by
  unfold main
  cases parseCommandLine argv with
  | error message => exact .inl rfl
  | ok command =>
      cases command with
      | help => exact .inl rfl
      | version => exact .inl rfl
      | run => exact configured_shown _ h
      | checkConfig => exact configured_shown _ h

/-- A route with one key, which the environment holds. -/
def guardedRoute : Json :=
  .object [("prefix".toList, .string "/api".toList), ("host".toList, .string "::1".toList),
    ("port".toList, .unsigned 80),
    (authFieldKey, .object [(apiKeyEnvKey, .string "APIGATE_AUTH_KEY_A".toList)])]

def guardedRouteText : Text :=
  ("[\x7b\"prefix\":\"/api\",\"host\":\"::1\",\"port\":80,"
    ++ "\"auth\":\x7b\"api_key_env\":\"APIGATE_AUTH_KEY_A\"\x7d\x7d]").toList

def guardedBy (key : Text) (name : Text) : Option Text :=
  if name = "APIGATE_AUTH_KEY_A".toList then some key
  else if name = "APIGATE_ROUTES".toList then some guardedRouteText
  else if name = "APIGATE_TLS_CERT_FILE".toList then some "cert".toList
  else if name = "APIGATE_TLS_KEY_FILE".toList then some "key".toList
  else none

def guarded (key : Text) : Startup where
  getenv := guardedBy key
  makeAddress host := if host = "::1".toList then some host else none
  parseJson := ApiKeys.readsOnly guardedRouteText (.array [guardedRoute])
  lib := { intToStatus := id, sha256 := id }
  digestFails _ := false
  loadUpstreamTls _ := none
  loadDownstreamTls _ _ := true

def checkConfigArguments : List Text := ["api-gate".toList, "--check-config".toList]

theorem keys_stay_secret_two_keys :
    (main checkConfigArguments (guarded (List.replicate 32 'a'))).shown
      = (main checkConfigArguments (guarded (List.replicate 32 'b'))).shown := by
  have hsame : SameButKeys (guarded (List.replicate 32 'a'))
      (guardedBy (List.replicate 32 'b')) := by
    intro name hname
    by_cases hkey : name = "APIGATE_AUTH_KEY_A".toList
    · subst hkey
      exact absurd hname (by decide)
    · unfold guarded guardedBy
      simp only [if_neg hkey]
  rcases keys_stay_secret checkConfigArguments _ _ hsame with hshown | hrefused | hrefused
  · exact hshown
  · exact absurd hrefused (main_accepted (by decide +kernel))
  · exact absurd hrefused (main_accepted (by decide +kernel))

end Bootstrap

end ApiGate
