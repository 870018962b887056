import ApiGate.AcceptedConfig
import ApiGate.RouteDocuments

/-!
# The configurations that an environment can ask for

`load_config_from_environment` reads text and fills a configuration. `Loadable` says
which configurations can come out when the files, the parser and the keys are given:
`loaded_configs_exact` is that these are exactly the ones that some environment is
read as. One direction inverts the settings one after the other, the other writes an
environment in which everything is spelled out and reads it back.
-/

namespace ApiGate

namespace LoadConfig

open ConfigText
open EventLoop (bind_eq_ok)

variable {s : Startup} {config config' : AppConfig}

/-! ## Texts of single values -/

def numberText (n : Nat) : Text := Nat.toDigits 10 n

theorem fromChars_numberText {limit n : Nat} (h : n ≤ limit) :
    fromChars limit (numberText n) = some n := by
  have hdigits : (numberText n).all isDigit = true := by
    rw [List.all_eq_true]
    intro c hc
    have hdigit : c.isDigit = true := Nat.isDigit_of_mem_toDigits (by decide) (by decide) hc
    simpa [Char.isDigit, isDigit, Char.le_def] using hdigit
  have hnonempty : (numberText n).isEmpty = false := by
    rw [List.isEmpty_eq_false_iff]
    exact Nat.toDigits_ne_nil
  have hvalue : (numberText n).foldl (fun m c => m * 10 + digitValue c) 0 = n := by
    have hread := Nat.ofDigitChars_ten_toDigits (n := n)
    rw [Nat.ofDigitChars_eq_foldl] at hread
    simpa [Nat.mul_comm, digitValue, numberText] using hread
  unfold fromChars
  rw [hnonempty, hdigits]
  dsimp only
  rw [hvalue]
  simp [Nat.not_lt.mpr h]

theorem boundedNumber_numberText {limit low high n : Nat} {message : String} (hlimit : high ≤ limit)
    (h : low ≤ n ∧ n ≤ high) : boundedNumber limit low high message (numberText n) = .ok n := by
  unfold boundedNumber
  rw [fromChars_numberText (h.2.trans hlimit)]
  simp [Nat.not_lt.mpr h.1, Nat.not_lt.mpr h.2]

theorem parseLogLevel_toString (level : LogLevel) :
    parseLogLevel (ConfigText.toString level) = .ok level := by
  cases level <;> rfl

def switchText (value : Bool) : Text := if value then "true".toList else "false".toList

theorem parseSwitch_switchText (value : Bool) (name : String) :
    parseSwitch (switchText value) name = .ok value := by
  cases value <;> rfl

/-- What `validate_label` accepts and `read_environment` lets through. -/
structure Label (value : Text) : Prop where
  nonempty : value ≠ []
  length : value.length ≤ maxLabelLength
  character : ∀ c ∈ value, isAlnum c = true ∨ c = '-' ∨ c = '_' ∨ c = '.'

theorem validateLabel_iff {value : Text} {name : String} (hvalue : value ≠ []) :
    validateLabel value name = .ok () ↔ Label value := by
  unfold validateLabel
  dsimp only
  constructor
  · intro h
    split at h
    · cases h
    · rename_i hok
      rw [Bool.or_eq_true, not_or, decide_eq_true_eq, Nat.not_lt, Bool.not_eq_true,
        Bool.not_eq_false', List.all_eq_true] at hok
      refine ⟨hvalue, hok.1, ?_⟩
      intro c hc
      simpa [or_assoc] using hok.2 c hc
  · intro h
    have hall : (value.all fun c => isAlnum c || c = '-' || c = '_' || c = '.') = true := by
      rw [List.all_eq_true]
      intro c hc
      simpa [or_assoc] using h.character c hc
    rw [hall, decide_eq_false (Nat.not_lt.mpr h.length)]
    rfl

/-! ## Settings -/

/-- What is said about everything except upstreams. -/
structure SettingsOk (s : Startup) (config : AppConfig) : Prop where
  serviceName : Label config.serviceName
  environment : Label config.environment
  listenAddress : config.listenAddress = "127.0.0.1".toList
    ∨ config.listenAddress ≠ [] ∧ s.makeAddress config.listenAddress = some config.listenAddress
  listenPort : config.listenPort ≤ 65535
  maxConnections : 1 ≤ config.maxConnections ∧ config.maxConnections ≤ 65535
  maxConcurrentProxies : 1 ≤ config.maxConcurrentProxies ∧ config.maxConcurrentProxies ≤ 65535
  maxInFlightBytes : 1 ≤ config.maxInFlightBytes.toNat
    ∧ config.maxInFlightBytes.toNat ≤ 1073741824
  shutdownGraceMs : 1 ≤ config.shutdownGraceMs ∧ config.shutdownGraceMs ≤ 60000
  downstream : config.downstreamTlsContext = true → ∃ certificate privateKey,
    certificate ≠ [] ∧ privateKey ≠ [] ∧ s.loadDownstreamTls certificate privateKey = true

/-- The upstream that the single variables ask for. -/
structure UpstreamLoadable (s : Startup) (config : AppConfig) : Prop where
  routes : config.routes = []
  upstream : ∀ upstream, config.upstream = some upstream →
    HostOk s upstream.host ∧ UpstreamOk upstream ∧ upstream.scheme = .http
  trust : ∃ caFile, caFile ≠ some []
    ∧ makeUpstreamTlsContext s caFile false = .ok config.upstreamTlsContext

/-- The routes that `APIGATE_ROUTES` asks for. -/
structure RoutesLoadable (s : Startup) (config : AppConfig) : Prop where
  upstream : config.upstream = none
  routes : ∃ value, value ≠ [] ∧ parseRoutes s value = .ok config.routes
  guarded : config.downstreamTlsContext = true ∨ ∀ route ∈ config.routes, route.auth = none
  trust : ∃ caFile, caFile ≠ some []
    ∧ makeUpstreamTlsContext s caFile (hasHttps config.routes) = .ok config.upstreamTlsContext

structure Loadable (s : Startup) (config : AppConfig) : Prop where
  settings : SettingsOk s config
  upstreams : UpstreamLoadable s config ∨ RoutesLoadable s config

theorem readEnvironment_some {name : String} {value : Text}
    (h : readEnvironment s name = .ok (some value)) : value ≠ [] := by
  unfold readEnvironment at h
  split at h
  · cases h
  · split at h
    · cases h
    · rename_i hvalue
      cases h
      simpa using hvalue

theorem SettingsOk.next {name : String} {assign : Text → Except ConfigError AppConfig}
    {rest : AppConfig → Except ConfigError AppConfig} (h : SettingsOk s config)
    (hrun : (setting s name assign config >>= rest) = .ok config')
    (hassign : ∀ value config', value ≠ [] → assign value = .ok config' → SettingsOk s config') :
    ∃ next, SettingsOk s next ∧ rest next = .ok config' := by
  obtain ⟨next, hset, hrest⟩ := bind_eq_ok.mp hrun
  obtain ⟨value, hread, hset⟩ := bind_eq_ok.mp hset
  cases value with
  | none =>
      cases hset
      exact ⟨config, h, hrest⟩
  | some value => exact ⟨next, hassign value next (readEnvironment_some hread) hset, hrest⟩

/-- The settings of an environment without variables. -/
theorem settingsOk_default {downstream : Bool}
    (h : downstream = true → ∃ certificate privateKey,
      certificate ≠ [] ∧ privateKey ≠ [] ∧ s.loadDownstreamTls certificate privateKey = true) :
    SettingsOk s { downstreamTlsContext := downstream } where
  serviceName := by
    have hname : ("api-gate".toList : Text) ≠ [] := by decide
    exact (validateLabel_iff hname).mp (rfl : validateLabel _ "" = .ok ())
  environment := by
    have hname : ("development".toList : Text) ≠ [] := by decide
    exact (validateLabel_iff hname).mp (rfl : validateLabel _ "" = .ok ())
  listenAddress := .inl rfl
  listenPort := (by decide : (8080 : Nat) ≤ 65535)
  maxConnections := (by decide : (1 : Nat) ≤ 256 ∧ 256 ≤ 65535)
  maxConcurrentProxies := (by decide : (1 : Nat) ≤ 32 ∧ 32 ≤ 65535)
  maxInFlightBytes :=
    (by decide : 1 ≤ (67108864 : UInt64).toNat ∧ (67108864 : UInt64).toNat ≤ 1073741824)
  shutdownGraceMs := (by decide : (1 : Nat) ≤ 5000 ∧ 5000 ≤ 60000)
  downstream := h

theorem makeDownstreamTlsContext_ok {certificate privateKey : Option Text}
    (h : makeDownstreamTlsContext s certificate privateKey = .ok true) :
    ∃ certificate privateKey,
      certificate ≠ [] ∧ privateKey ≠ [] ∧ s.loadDownstreamTls certificate privateKey = true := by
  unfold makeDownstreamTlsContext at h
  split at h
  · cases h
  · rename_i cert key
    split at h
    · cases h
    · rename_i hnonempty
      rw [Bool.or_eq_true, not_or, List.isEmpty_iff, List.isEmpty_iff] at hnonempty
      split at h
      · rename_i hload
        exact ⟨cert, key, hnonempty.1, hnonempty.2, hload⟩
      · cases h
  · cases h

/-- A value that is checked changes its own field only. -/
theorem settingsOk_assign {α : Type} {check : Except ConfigError α} {f : α → AppConfig}
    (h : (check >>= fun a => .ok (f a)) = .ok config')
    (hf : ∀ a, check = .ok a → SettingsOk s (f a)) : SettingsOk s config' := by
  obtain ⟨a, ha, h⟩ := bind_eq_ok.mp h
  cases h
  exact hf a ha

theorem parseListenAddress_ok (hcanonical : Canonical s.makeAddress) {value address : Text}
    (h : parseListenAddress s.makeAddress value = .ok address) :
    address ≠ [] ∧ s.makeAddress address = some address := by
  unfold parseListenAddress at h
  split at h
  · rename_i found hfound
    cases h
    exact hcanonical _ _ hfound
  · cases h

theorem maxInFlightBytes_ok {value : Text} {bytes : Nat}
    (h : parseMaxInFlightBytes value = .ok bytes) :
    1 ≤ (UInt64.ofNat bytes).toNat ∧ (UInt64.ofNat bytes).toNat ≤ 1073741824 := by
  have hrange := boundedNumber_range h
  have hsize : bytes < UInt64.size := lt_of_le_of_lt hrange.2 (by decide)
  rw [UInt64.toNat_ofNat_of_lt' hsize]
  exact hrange

theorem loadSettings_ok (hcanonical : Canonical s.makeAddress) (h : loadSettings s = .ok config) :
    SettingsOk s config := by
  obtain ⟨certificate, -, h⟩ := bind_eq_ok.mp h
  obtain ⟨privateKey, -, h⟩ := bind_eq_ok.mp h
  obtain ⟨downstream, hdownstream, h⟩ := bind_eq_ok.mp h
  have h₀ : SettingsOk s { downstreamTlsContext := downstream } := by
    refine settingsOk_default ?_
    rintro rfl
    exact makeDownstreamTlsContext_ok hdownstream
  obtain ⟨c₁, h₁, h⟩ := h₀.next h fun _ _ _ hvalue =>
    settingsOk_assign hvalue fun _ _ => { h₀ with }
  obtain ⟨c₂, h₂, h⟩ := h₁.next h fun _ _ _ hvalue =>
    settingsOk_assign hvalue fun _ _ => { h₁ with }
  obtain ⟨c₃, h₃, h⟩ := h₂.next h fun _ _ hne hvalue =>
    settingsOk_assign hvalue fun _ hlabel =>
      { h₂ with serviceName := (validateLabel_iff hne).mp hlabel }
  obtain ⟨c₄, h₄, h⟩ := h₃.next h fun _ _ hne hvalue =>
    settingsOk_assign hvalue fun _ hlabel =>
      { h₃ with environment := (validateLabel_iff hne).mp hlabel }
  obtain ⟨c₅, h₅, h⟩ := h₄.next h fun _ _ _ hvalue =>
    settingsOk_assign hvalue fun _ _ => { h₄ with }
  obtain ⟨c₆, h₆, h⟩ := h₅.next h fun _ _ _ hvalue =>
    settingsOk_assign hvalue fun _ haddress =>
      { h₅ with listenAddress := .inr (parseListenAddress_ok hcanonical haddress) }
  obtain ⟨c₇, h₇, h⟩ := h₆.next h fun _ _ _ hvalue =>
    settingsOk_assign hvalue fun _ hport => { h₆ with listenPort := (boundedNumber_range hport).2 }
  obtain ⟨c₈, h₈, h⟩ := h₇.next h fun _ _ _ hvalue =>
    settingsOk_assign hvalue fun _ hlimit =>
      { h₇ with maxConnections := boundedNumber_range hlimit }
  obtain ⟨c₉, h₉, h⟩ := h₈.next h fun _ _ _ hvalue =>
    settingsOk_assign hvalue fun _ hlimit =>
      { h₈ with maxConcurrentProxies := boundedNumber_range hlimit }
  obtain ⟨c₁₀, h₁₀, h⟩ := h₉.next h fun _ _ _ hvalue =>
    settingsOk_assign hvalue fun _ hbytes =>
      { h₉ with maxInFlightBytes := maxInFlightBytes_ok hbytes }
  rw [← bind_pure (setting _ _ _ _)] at h
  obtain ⟨c₁₁, h₁₁, h⟩ := h₁₀.next h fun _ _ _ hvalue =>
    settingsOk_assign hvalue fun _ hgrace =>
      { h₁₀ with shutdownGraceMs := boundedNumber_range hgrace }
  cases h
  exact h₁₁

/-! ## Another environment with the same keys -/

/-- The two environments have the same keys. -/
def SameKeys (s : Startup) (getenv : Text → Option Text) : Prop :=
  ∀ name, validApiKeyReference name = true → getenv name = s.getenv name

def inEnvironment (s : Startup) (getenv : Text → Option Text) : Startup := { s with getenv }

variable {getenv : Text → Option Text}

/-- Routes read nothing from the environment except keys. -/
theorem addReference_same (h : SameKeys s getenv) (loop : KeyLoop) (reference : Text) :
    addReference (inEnvironment s getenv) loop reference = addReference s loop reference := by
  unfold addReference
  by_cases hvalid : validApiKeyReference reference = true
  · have hread : referencedDigest (inEnvironment s getenv) reference
        = referencedDigest s reference := by
      unfold referencedDigest
      rw [show (inEnvironment s getenv).getenv reference = s.getenv reference from h _ hvalid]
      rfl
    rw [hread]
  · have hinvalid : (!validApiKeyReference reference) = true := by simpa using hvalid
    rw [if_pos hinvalid, if_pos hinvalid]

theorem parseRoutes_same (h : SameKeys s getenv) (value : Text) :
    parseRoutes (inEnvironment s getenv) value = parseRoutes s value := by
  have hloop : addReference (inEnvironment s getenv) = addReference s := by
    funext loop reference
    exact addReference_same h loop reference
  have hkeys : configureKeys (inEnvironment s getenv) = configureKeys s := by
    funext references
    unfold configureKeys
    rw [hloop]
  have hauth : parseAuth (inEnvironment s getenv) = parseAuth s := by
    funext entry
    unfold parseAuth
    rw [hkeys]
  have hroute : parseRoute (inEnvironment s getenv) = parseRoute s := by
    funext prefixes entry
    unfold parseRoute
    rw [hauth]
    rfl
  have hadd : addRoute (inEnvironment s getenv) = addRoute s := by
    funext routes entry
    unfold addRoute
    rw [hroute]
  have hroutes : routesOf (inEnvironment s getenv) = routesOf s := by
    funext document
    unfold routesOf
    rw [hadd]
  unfold parseRoutes
  rw [hroutes]
  rfl

/-! ## What is loaded -/

theorem readEnvironment_ne {name : String} {value : Option Text}
    (h : readEnvironment s name = .ok value) : value ≠ some [] := by
  rintro rfl
  exact readEnvironment_some h rfl

theorem hostOk_of_parseUpstreamHost (hcanonical : Canonical s.makeAddress) {host validated : Text}
    (hne : host ≠ []) (h : parseUpstreamHost s.makeAddress host = .ok validated) :
    HostOk s validated := by
  have hsame : validatedHost s host = .ok validated := by
    unfold validatedHost
    dsimp only
    rw [if_neg (by simpa using hne), h]
  exact hostOk_of_validatedHost hcanonical hsame

theorem hostOk_of_legacyUpstream (hcanonical : Canonical s.makeAddress)
    {host port timeout : Option Text} {upstream : UpstreamConfig} (hhost : host ≠ some [])
    (h : legacyUpstream s host port timeout = .ok (some upstream)) : HostOk s upstream.host := by
  unfold legacyUpstream at h
  split at h
  · cases h
  · split at h
    · rename_i name number _
      obtain ⟨one, hone, h⟩ := bind_eq_ok.mp h
      cases h
      have hname : name ≠ [] := fun heq => hhost (congrArg some heq)
      obtain ⟨validated, hvalidated, hone⟩ := bind_eq_ok.mp hone
      obtain ⟨parsed, -, hone⟩ := bind_eq_ok.mp hone
      have hok := hostOk_of_parseUpstreamHost hcanonical hname hvalidated
      cases timeout with
      | none =>
          cases hone
          exact hok
      | some value =>
          obtain ⟨timeoutMs, -, hone⟩ := bind_eq_ok.mp hone
          cases hone
          exact hok
    · cases h

theorem loadUpstream_loadable (hcanonical : Canonical s.makeAddress)
    (hsettings : SettingsOk s config) (hbare : Bare config) (h : loadUpstream s config = .ok config') : Loadable s config' := by
  obtain ⟨host, hhost, h⟩ := bind_eq_ok.mp h
  obtain ⟨port, -, h⟩ := bind_eq_ok.mp h
  obtain ⟨timeout, -, h⟩ := bind_eq_ok.mp h
  obtain ⟨upstream, hupstream, h⟩ := bind_eq_ok.mp h
  obtain ⟨caFile, hcaFile, h⟩ := bind_eq_ok.mp h
  obtain ⟨context, hcontext, h⟩ := bind_eq_ok.mp h
  cases h
  refine ⟨{ hsettings with }, .inl ⟨hbare.2, ?_, caFile, readEnvironment_ne hcaFile, hcontext⟩⟩
  rintro one rfl
  exact ⟨hostOk_of_legacyUpstream hcanonical (readEnvironment_ne hhost) hupstream,
    legacyUpstream_ok hupstream⟩

theorem loadRoutes_loadable (hsettings : SettingsOk s config) (hbare : Bare config) {value : Text}
    (hvalue : value ≠ []) (h : loadRoutes s config value = .ok config') : Loadable s config' := by
  obtain ⟨routes, hparse, h⟩ := bind_eq_ok.mp h
  split at h
  · cases h
  · rename_i htls
    obtain ⟨caFile, hcaFile, h⟩ := bind_eq_ok.mp h
    obtain ⟨context, hcontext, h⟩ := bind_eq_ok.mp h
    cases h
    refine ⟨{ hsettings with }, .inr ⟨hbare.1, ⟨value, hvalue, hparse⟩, ?_, caFile,
      readEnvironment_ne hcaFile, hcontext⟩⟩
    by_cases hdownstream : config.downstreamTlsContext = true
    · exact .inl hdownstream
    · refine .inr ?_
      rw [Bool.and_eq_true, not_and, Bool.not_eq_true', List.any_eq_true] at htls
      intro route hroute
      have hnone := htls (by simpa using hdownstream)
      simpa using fun hsome => hnone ⟨route, hroute, hsome⟩

/-- Whatever the environment is. -/
theorem loadable_of_load (hcanonical : Canonical s.makeAddress)
    (h : loadConfigFromEnvironment s = .ok config) : Loadable s config := by
  obtain ⟨settings, hsettings, h⟩ := bind_eq_ok.mp h
  have hok := loadSettings_ok hcanonical hsettings
  have hbare := loadSettings_bare hsettings
  split at h
  · cases h
  · obtain ⟨value, hread, h⟩ := bind_eq_ok.mp h
    cases value with
    | none => exact loadUpstream_loadable hcanonical hok hbare h
    | some value => exact loadRoutes_loadable hok hbare (readEnvironment_some hread) h

/-- Only the keys of an environment decide which configurations can be loaded. -/
theorem Loadable.of_same (h : SameKeys s getenv) (hok : Loadable (inEnvironment s getenv) config) :
    Loadable s config := by
  refine ⟨{ hok.settings with }, ?_⟩
  rcases hok.upstreams with hupstream | hroutes
  · refine .inl ⟨hupstream.routes, ?_, hupstream.trust⟩
    intro one hone
    obtain ⟨hhost, hrest⟩ := hupstream.upstream one hone
    exact ⟨⟨hhost.nonempty, hhost.same⟩, hrest⟩
  · refine .inr ⟨hroutes.upstream, ?_, hroutes.guarded, hroutes.trust⟩
    obtain ⟨value, hvalue, hparse⟩ := hroutes.routes
    rw [parseRoutes_same h] at hparse
    exact ⟨value, hvalue, hparse⟩

/-! ## An environment for a configuration -/

/-- The variables that are about files and upstreams. -/
structure Variables where
  certificate : Option Text := none
  privateKey : Option Text := none
  caFile : Option Text := none
  routes : Option Text := none
  host : Option Text := none
  port : Option Text := none
  timeout : Option Text := none

/-- The address is left out when it is the default and not in the form that is read back. -/
def listenVariable (s : Startup) (config : AppConfig) : Option Text :=
  if s.makeAddress config.listenAddress = some config.listenAddress then
    some config.listenAddress
  else none

/-- The environment that spells the configuration out, with the keys of `s`. -/
def written (s : Startup) (config : AppConfig) (v : Variables) (name : Text) : Option Text :=
  if validApiKeyReference name then s.getenv name
  else if name = "APIGATE_TLS_CERT_FILE".toList then v.certificate
  else if name = "APIGATE_TLS_KEY_FILE".toList then v.privateKey
  else if name = "APIGATE_UPSTREAM_KEEP_ALIVE".toList then
    some (switchText config.upstreamKeepAlive)
  else if name = "APIGATE_METRICS_ENABLED".toList then some (switchText config.metricsEnabled)
  else if name = "APIGATE_SERVICE_NAME".toList then some config.serviceName
  else if name = "APIGATE_ENVIRONMENT".toList then some config.environment
  else if name = "APIGATE_LOG_LEVEL".toList then some (ConfigText.toString config.logLevel)
  else if name = "APIGATE_LISTEN_ADDRESS".toList then listenVariable s config
  else if name = "APIGATE_LISTEN_PORT".toList then some (numberText config.listenPort)
  else if name = "APIGATE_MAX_CONNECTIONS".toList then some (numberText config.maxConnections)
  else if name = "APIGATE_MAX_CONCURRENT_PROXIES".toList then
    some (numberText config.maxConcurrentProxies)
  else if name = "APIGATE_MAX_IN_FLIGHT_BYTES".toList then
    some (numberText config.maxInFlightBytes.toNat)
  else if name = "APIGATE_SHUTDOWN_GRACE_MS".toList then some (numberText config.shutdownGraceMs)
  else if name = "APIGATE_UPSTREAM_CA_FILE".toList then v.caFile
  else if name = "APIGATE_ROUTES".toList then v.routes
  else if name = "APIGATE_UPSTREAM_HOST".toList then v.host
  else if name = "APIGATE_UPSTREAM_PORT".toList then v.port
  else if name = "APIGATE_UPSTREAM_TIMEOUT_MS".toList then v.timeout
  else none

theorem sameKeys_written (s : Startup) (config : AppConfig) (v : Variables) :
    SameKeys s (written s config v) := by
  intro name hname
  unfold written
  rw [if_pos hname]

theorem readEnvironment_eq {name : String} {value : Option Text}
    (hget : s.getenv name.toList = value) (hne : value ≠ some []) :
    readEnvironment s name = .ok value := by
  unfold readEnvironment
  rw [hget]
  cases value with
  | none => rfl
  | some text =>
      have htext : text.isEmpty = false := by
        rw [List.isEmpty_eq_false_iff]
        exact fun heq => hne (congrArg some heq)
      dsimp only
      rw [htext]
      rfl

theorem reads {α β : Type} {check : Except ConfigError α} {a : α} (h : check = .ok a)
    (f : α → Except ConfigError β) : check >>= f = f a := by
  rw [h]
  rfl

theorem setting_reads {name : String} {value : Text} {next : AppConfig}
    {assign : Text → Except ConfigError AppConfig} (hget : s.getenv name.toList = some value)
    (hne : value ≠ []) (hassign : assign value = .ok next) :
    setting s name assign config = .ok next := by
  have hread := readEnvironment_eq hget fun heq => hne (Option.some.inj heq)
  exact (reads hread _).trans hassign

theorem switchText_ne (value : Bool) : switchText value ≠ [] := by
  cases value <;> decide

theorem toString_ne (level : LogLevel) : ConfigText.toString level ≠ [] := by
  cases level <;> decide

theorem numberText_ne (n : Nat) : numberText n ≠ [] := Nat.toDigits_ne_nil

theorem listenAddress_reads {v : Variables} {base : AppConfig} (hok : SettingsOk s config)
    (hbase : base.listenAddress = "127.0.0.1".toList) :
    setting (inEnvironment s (written s config v)) "APIGATE_LISTEN_ADDRESS" (fun value => do
        let listenAddress ← parseListenAddress s.makeAddress value
        .ok { base with listenAddress }) base
      = .ok { base with listenAddress := config.listenAddress } := by
  have hget : (inEnvironment s (written s config v)).getenv "APIGATE_LISTEN_ADDRESS".toList
      = listenVariable s config := rfl
  by_cases hread : s.makeAddress config.listenAddress = some config.listenAddress
  · have hnonempty : config.listenAddress ≠ [] := by
      rcases hok.listenAddress with hdefault | hcanonical
      · rw [hdefault]
        decide
      · exact hcanonical.1
    have hparse : parseListenAddress s.makeAddress config.listenAddress
        = .ok config.listenAddress := by
      unfold parseListenAddress
      rw [hread]
    rw [listenVariable, if_pos hread] at hget
    exact setting_reads hget hnonempty (reads hparse _)
  · have hdefault : config.listenAddress = base.listenAddress := by
      rcases hok.listenAddress with hdefault | hcanonical
      · rw [hdefault, hbase]
      · exact absurd hcanonical.2 hread
    rw [listenVariable, if_neg hread] at hget
    refine (reads (readEnvironment_eq hget (by simp)) _).trans ?_
    rw [hdefault]

theorem loadSettings_written {v : Variables} (hok : SettingsOk s config)
    (hcertificate : v.certificate ≠ some []) (hprivateKey : v.privateKey ≠ some [])
    (hdownstream : makeDownstreamTlsContext s v.certificate v.privateKey
      = .ok config.downstreamTlsContext) :
    loadSettings (inEnvironment s (written s config v))
      = .ok { config with upstream := none, routes := [], upstreamTlsContext := none } := by
  refine (reads (readEnvironment_eq rfl hcertificate) _).trans ?_
  refine (reads (readEnvironment_eq rfl hprivateKey) _).trans ?_
  refine (reads hdownstream _).trans ?_
  refine (reads (setting_reads rfl (switchText_ne _)
    (reads (parseSwitch_switchText _ _) _)) _).trans ?_
  refine (reads (setting_reads rfl (switchText_ne _)
    (reads (parseSwitch_switchText _ _) _)) _).trans ?_
  refine (reads (setting_reads rfl hok.serviceName.nonempty
    (reads ((validateLabel_iff hok.serviceName.nonempty).mpr hok.serviceName) _)) _).trans ?_
  refine (reads (setting_reads rfl hok.environment.nonempty
    (reads ((validateLabel_iff hok.environment.nonempty).mpr hok.environment) _)) _).trans ?_
  refine (reads (setting_reads rfl (toString_ne _) (reads (parseLogLevel_toString _) _)) _).trans ?_
  refine (reads (listenAddress_reads hok rfl) _).trans ?_
  refine (reads (setting_reads rfl (numberText_ne _) (reads
    (boundedNumber_numberText (by decide) ⟨Nat.zero_le _, hok.listenPort⟩) _)) _).trans ?_
  refine (reads (setting_reads rfl (numberText_ne _) (reads
    (boundedNumber_numberText (by decide) hok.maxConnections) _)) _).trans ?_
  refine (reads (setting_reads rfl (numberText_ne _) (reads
    (boundedNumber_numberText (by decide) hok.maxConcurrentProxies) _)) _).trans ?_
  refine (reads (setting_reads rfl (numberText_ne _) (reads
    (boundedNumber_numberText (by decide) hok.maxInFlightBytes) _)) _).trans ?_
  refine (setting_reads rfl (numberText_ne _) (reads
    (boundedNumber_numberText (by decide) hok.shutdownGraceMs) _)).trans ?_
  simp only [UInt64.ofNat_toNat]

/-- The single upstream in the three variables for it. -/
theorem legacyUpstream_reads {upstream : Option UpstreamConfig}
    (hok : ∀ one, upstream = some one → HostOk s one.host ∧ UpstreamOk one ∧ one.scheme = .http) :
    legacyUpstream s (upstream.map UpstreamConfig.host)
      (upstream.map fun one => numberText one.port)
      (upstream.map fun one => numberText one.timeoutMs) = .ok upstream := by
  cases upstream with
  | none => rfl
  | some one =>
      obtain ⟨hhost, hone, hscheme⟩ := hok one rfl
      have hread : parseUpstream s one.host (numberText one.port) (some (numberText one.timeoutMs))
          = .ok one := by
        refine (reads hhost.same _).trans ?_
        refine (reads (boundedNumber_numberText (by decide) hone.port) _).trans ?_
        refine (reads (boundedNumber_numberText (by decide) hone.timeout) _).trans ?_
        rw [← hscheme]
      exact reads hread _

theorem load_written_upstream {certificate privateKey : Option Text} (hok : SettingsOk s config)
    (hupstream : UpstreamLoadable s config) (hcertificate : certificate ≠ some [])
    (hprivateKey : privateKey ≠ some [])
    (hdownstream : makeDownstreamTlsContext s certificate privateKey
      = .ok config.downstreamTlsContext) :
    ∃ v, loadConfigFromEnvironment (inEnvironment s (written s config v)) = .ok config := by
  obtain ⟨caFile, hcaFile, htrust⟩ := hupstream.trust
  have hlegacy := legacyUpstream_reads hupstream.upstream
  have hhost : config.upstream.map UpstreamConfig.host ≠ some [] := by
    intro heq
    obtain ⟨one, hone, hempty⟩ := Option.map_eq_some_iff.mp heq
    exact (hupstream.upstream one hone).1.nonempty hempty
  have hnumber : ∀ field : UpstreamConfig → Nat,
      (config.upstream.map fun one => numberText (field one)) ≠ some [] := by
    intro field heq
    obtain ⟨one, -, hempty⟩ := Option.map_eq_some_iff.mp heq
    exact numberText_ne _ hempty
  let v : Variables :=
    { certificate, privateKey, caFile
      host := config.upstream.map UpstreamConfig.host
      port := config.upstream.map fun one => numberText one.port
      timeout := config.upstream.map fun one => numberText one.timeoutMs }
  have hroutes : readEnvironment (inEnvironment s (written s config v)) "APIGATE_ROUTES"
      = .ok none := readEnvironment_eq rfl (Option.some_ne_none _).symm
  refine ⟨v, ?_⟩
  refine (reads (loadSettings_written (v := v) hok hcertificate hprivateKey hdownstream) _).trans ?_
  refine (if_neg Bool.false_ne_true).trans ?_
  refine (reads hroutes _).trans ?_
  refine (reads (readEnvironment_eq rfl hhost) _).trans ?_
  refine (reads (readEnvironment_eq rfl (hnumber _)) _).trans ?_
  refine (reads (readEnvironment_eq rfl (hnumber _)) _).trans ?_
  refine (reads hlegacy _).trans ?_
  refine (reads (readEnvironment_eq rfl hcaFile) _).trans ?_
  refine (reads htrust _).trans ?_
  rw [← hupstream.routes]

theorem load_written_routes {certificate privateKey : Option Text} (hok : SettingsOk s config)
    (hroutes : RoutesLoadable s config) (hcertificate : certificate ≠ some [])
    (hprivateKey : privateKey ≠ some [])
    (hdownstream : makeDownstreamTlsContext s certificate privateKey
      = .ok config.downstreamTlsContext) :
    ∃ v, loadConfigFromEnvironment (inEnvironment s (written s config v)) = .ok config := by
  obtain ⟨value, hvalue, hparse⟩ := hroutes.routes
  obtain ⟨caFile, hcaFile, htrust⟩ := hroutes.trust
  let v : Variables := { certificate, privateKey, caFile, routes := some value }
  have hparse' : parseRoutes (inEnvironment s (written s config v)) value = .ok config.routes :=
    (parseRoutes_same (sameKeys_written s config v) value).trans hparse
  have hguarded : ¬(!config.downstreamTlsContext
      && config.routes.any fun route => route.auth.isSome) = true := by
    rw [Bool.and_eq_true, not_and, Bool.not_eq_true', List.any_eq_true]
    intro hnone
    rintro ⟨route, hroute, hsome⟩
    rcases hroutes.guarded with hdownstream | hopen
    · rw [hdownstream] at hnone
      cases hnone
    · rw [hopen route hroute] at hsome
      cases hsome
  refine ⟨v, ?_⟩
  refine (reads (loadSettings_written (v := v) hok hcertificate hprivateKey hdownstream) _).trans ?_
  refine (if_neg Bool.false_ne_true).trans ?_
  refine (reads (readEnvironment_eq rfl (fun heq => hvalue (Option.some.inj heq))) _).trans ?_
  refine (reads hparse' _).trans ?_
  refine (if_neg hguarded).trans ?_
  refine (reads (readEnvironment_eq rfl hcaFile) _).trans ?_
  refine (reads htrust _).trans ?_
  rw [← hroutes.upstream]

/-- With given files, parser and keys, the configurations that some environment is read as are
exactly the loadable ones. -/
theorem loaded_configs_exact (s : Startup) (hcanonical : Canonical s.makeAddress)
    (config : AppConfig) :
    (∃ getenv, SameKeys s getenv ∧ loadConfigFromEnvironment (inEnvironment s getenv) = .ok config)
      ↔ Loadable s config := by
  constructor
  · rintro ⟨getenv, hsame, hload⟩
    have hother : Canonical (inEnvironment s getenv).makeAddress := hcanonical
    exact (loadable_of_load hother hload).of_same hsame
  · intro hok
    have hfiles : ∃ certificate privateKey, certificate ≠ some [] ∧ privateKey ≠ some []
        ∧ makeDownstreamTlsContext s certificate privateKey = .ok config.downstreamTlsContext := by
      cases htls : config.downstreamTlsContext with
      | false => exact ⟨none, none, (Option.some_ne_none _).symm, (Option.some_ne_none _).symm, rfl⟩
      | true =>
          obtain ⟨certificate, privateKey, hcertificate, hprivateKey, hload⟩ :=
            hok.settings.downstream htls
          refine ⟨some certificate, some privateKey, ?_, ?_, ?_⟩
          · exact fun heq => hcertificate (Option.some.inj heq)
          · exact fun heq => hprivateKey (Option.some.inj heq)
          · unfold makeDownstreamTlsContext
            have hfull : ¬(certificate.isEmpty || privateKey.isEmpty) = true := by
              rw [Bool.or_eq_true, not_or, List.isEmpty_iff, List.isEmpty_iff]
              exact ⟨hcertificate, hprivateKey⟩
            dsimp only
            rw [if_neg hfull, if_pos hload]
    obtain ⟨certificate, privateKey, hcertificate, hprivateKey, hdownstream⟩ := hfiles
    have hwritten : ∃ v, loadConfigFromEnvironment (inEnvironment s (written s config v))
        = .ok config := by
      rcases hok.upstreams with hupstream | hroutes
      · exact load_written_upstream hok.settings hupstream hcertificate hprivateKey hdownstream
      · exact load_written_routes hok.settings hroutes hcertificate hprivateKey hdownstream
    obtain ⟨v, hload⟩ := hwritten
    exact ⟨_, sameKeys_written s config v, hload⟩

/-- One upstream at an address, and the rest as it is without an environment. -/
def loopbackConfig : AppConfig :=
  { downstreamTlsContext := true, upstream := some { host := "::1".toList, port := 9000 } }

theorem settingsOk_loopbackConfig : SettingsOk loopback loopbackConfig := by
  have hdefault : SettingsOk loopback { downstreamTlsContext := true } :=
    settingsOk_default fun _ => ⟨['c'], ['k'], by decide, by decide, rfl⟩
  exact { hdefault with }

theorem loaded_configs_exact_loopback : ∃ getenv, SameKeys loopback getenv
    ∧ loadConfigFromEnvironment (inEnvironment loopback getenv) = .ok loopbackConfig :=
  (loaded_configs_exact loopback canonical_loopback loopbackConfig).mpr
    { settings := settingsOk_loopbackConfig
      upstreams := .inl
        { routes := rfl
          upstream := by
            rintro one hone
            cases hone
            exact ⟨⟨by decide, rfl⟩, ⟨by decide, by decide⟩, rfl⟩
          trust := ⟨none, by decide, rfl⟩ } }

end LoadConfig

end ApiGate
