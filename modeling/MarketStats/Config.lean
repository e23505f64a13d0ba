import MarketStats.Calendar.Timestamp
import MarketStats.Yaml.Document
import MarketStats.Yaml.Value

/-!
# Configuration

A configuration is read from a YAML document in which every section and every
field may be left out, and three fields may be overridden by the environment.
A configuration that would publish the empty statistics of an in-process store
to a shared cache is refused.
-/

namespace MarketStats

/-- Settings of the cache tiers. -/
structure CacheConfig where
  redisUrl : Option String
  localMaxCostBytes : Nat
  localDefaultTtlSecs : Nat
deriving DecidableEq

/-- Where the durable side store lives. -/
structure SideStoreConfig where
  path : String
deriving DecidableEq

/-- Settings of the statistics. -/
structure StatsConfig where
  claimTtlSecs : Nat
  tokensBatchSize : Nat
deriving DecidableEq

/-- Settings of the hourly aggregation as configured. -/
structure AggregationConfig where
  intervalSecs : Nat
  recentWindowHours : Nat
  projectStart : Calendar.Instant
  perCollection : Bool
deriving DecidableEq

/-- Settings of the metrics listener. -/
structure MetricsConfig where
  listenAddress : Option String
deriving DecidableEq

/-- Which marketplace store runs in the process. -/
inductive StoreKind
  | none
  | memory
deriving DecidableEq

/-- The settings of the service. -/
structure AppConfig where
  cache : CacheConfig
  sideStore : SideStoreConfig
  stats : StatsConfig
  aggregation : AggregationConfig
  metrics : MetricsConfig
  store : StoreKind
deriving DecidableEq

/-- The settings that the hourly aggregation runs with. -/
structure AggregationSettings where
  intervalSecs : Nat
  recentWindowHours : Nat
  projectStart : Calendar.Instant
  perCollection : Bool
deriving DecidableEq

/-- Why there is no configuration. -/
inductive ConfigError
  | unreadable
  | malformed
  | sharedEmptyStore
deriving DecidableEq

/-- The environment values that override the document. -/
structure Environment where
  redisUrl : Option String
  sideStorePath : Option String
  metricsAddress : Option String

/-- What there is to read at the place of the configuration file. -/
inductive ConfigFile
  | missing
  | unreadable
  | text (content : List Char)

namespace ConfigError

def message : ConfigError → String
  | .unreadable => "Failed to read"
  | .malformed => "Failed to parse config.yaml - check YAML syntax and structure"
  | .sharedEmptyStore =>
      "marketplace.store \"memory\" cannot be combined with a Redis cache - "
        ++ "it would publish empty statistics to the shared tier"

end ConfigError

namespace StoreKind

def default : StoreKind :=
  .none

def name : StoreKind → String
  | .none => "none"
  | .memory => "memory"

def ofName? (name : String) : Option StoreKind :=
  if name = "none" then some .none
  else if name = "memory" then some .memory
  else Option.none

end StoreKind

/-- A node of a document from which settings are read. -/
structure ConfigNode where
  document : Yaml.Document
  node : Yaml.Node Nat

namespace ConfigNode

def target (place : ConfigNode) : Yaml.Node Nat :=
  place.document.follow place.node

def entry? (place : ConfigNode) (entry : Yaml.Node Nat × Yaml.Node Nat) :
    Option (String × ConfigNode) :=
  ({ place with node := entry.1 } : ConfigNode).target.asText?.map fun name =>
    (name, { place with node := entry.2 })

/-- The settings of a section by name.  A section in which nothing is written
has none. -/
def entries? (place : ConfigNode) : Option (List (String × ConfigNode)) :=
  match place.target with
  | .mapping _ entries => entries.mapM place.entry?
  | node => if node.isEmpty then some [] else none

def optionalText? (place : ConfigNode) : Option (Option String) :=
  place.target.asOptionalText?

def text? (place : ConfigNode) : Option String :=
  place.target.asText?

def bool? (place : ConfigNode) : Option Bool :=
  place.target.asBool?

def instant? (place : ConfigNode) : Option Calendar.Instant :=
  place.text?.bind fun text => Calendar.Timestamp.read? text.toList

def long? (place : ConfigNode) : Option Nat :=
  place.target.asNatBelow? UInt64.size

def word? (place : ConfigNode) : Option Nat :=
  place.target.asNatBelow? UInt32.size

def storeKind? (place : ConfigNode) : Option StoreKind :=
  place.target.asName?.bind StoreKind.ofName?

end ConfigNode

namespace ConfigSection

/-- The value of a key that occurs at most once; the outer option says whether
it does. -/
def value? (entries : List (String × ConfigNode)) (name : String) :
    Option (Option ConfigNode) :=
  match entries.filter fun entry => entry.1 == name with
  | [] => some none
  | [entry] => some (some entry.2)
  | _ => none

/-- The value of a setting, or its default when it is left out.  Settings with
other names are ignored. -/
def setting? {α : Type} (entries : List (String × ConfigNode)) (name : String)
    (read : ConfigNode → Option α) (default : α) : Option α :=
  (value? entries name).bind fun found =>
    match found with
    | none => some default
    | some place => read place

end ConfigSection

/-! A default is used in two places: in a section that is left out, and for a
setting that is left out of its section. -/

namespace CacheConfig

/-- Sixty-four mebibytes. -/
def defaultLocalMaxCostBytes : Nat :=
  64 * 1024 * 1024

/-- An hour. -/
def defaultLocalTtlSecs : Nat :=
  3600

def default : CacheConfig :=
  { redisUrl := none
    localMaxCostBytes := defaultLocalMaxCostBytes
    localDefaultTtlSecs := defaultLocalTtlSecs }

def ofNode? (place : ConfigNode) : Option CacheConfig := do
  let entries ← place.entries?
  some
    { redisUrl :=
        ← ConfigSection.setting? entries "redis_url" ConfigNode.optionalText? none
      localMaxCostBytes :=
        ← ConfigSection.setting? entries "local_max_cost_bytes" ConfigNode.long?
          defaultLocalMaxCostBytes
      localDefaultTtlSecs :=
        ← ConfigSection.setting? entries "local_default_ttl_secs" ConfigNode.long?
          defaultLocalTtlSecs }

end CacheConfig

namespace SideStoreConfig

def defaultPath : String :=
  "data/side_store"

def default : SideStoreConfig :=
  { path := defaultPath }

def ofNode? (place : ConfigNode) : Option SideStoreConfig := do
  let entries ← place.entries?
  some { path := ← ConfigSection.setting? entries "path" ConfigNode.text? defaultPath }

end SideStoreConfig

namespace StatsConfig

/-- A quarter of an hour. -/
def defaultClaimTtlSecs : Nat :=
  15 * 60

def defaultTokensBatchSize : Nat :=
  1000

def default : StatsConfig :=
  { claimTtlSecs := defaultClaimTtlSecs, tokensBatchSize := defaultTokensBatchSize }

def ofNode? (place : ConfigNode) : Option StatsConfig := do
  let entries ← place.entries?
  some
    { claimTtlSecs :=
        ← ConfigSection.setting? entries "claim_ttl_secs" ConfigNode.long? defaultClaimTtlSecs
      tokensBatchSize :=
        ← ConfigSection.setting? entries "tokens_batch_size" ConfigNode.long?
          defaultTokensBatchSize }

end StatsConfig

namespace AggregationConfig

/-- Five minutes. -/
def defaultIntervalSecs : Nat :=
  300

def defaultRecentWindowHours : Nat :=
  12

def defaultPerCollection : Bool :=
  true

def default : AggregationConfig :=
  { intervalSecs := defaultIntervalSecs
    recentWindowHours := defaultRecentWindowHours
    projectStart := Calendar.Instant.startOf2024
    perCollection := defaultPerCollection }

def ofNode? (place : ConfigNode) : Option AggregationConfig := do
  let entries ← place.entries?
  some
    { intervalSecs :=
        ← ConfigSection.setting? entries "interval_secs" ConfigNode.long? defaultIntervalSecs
      recentWindowHours :=
        ← ConfigSection.setting? entries "recent_window_hours" ConfigNode.word?
          defaultRecentWindowHours
      projectStart :=
        ← ConfigSection.setting? entries "project_start" ConfigNode.instant?
          Calendar.Instant.startOf2024
      perCollection :=
        ← ConfigSection.setting? entries "per_collection" ConfigNode.bool?
          defaultPerCollection }

/-- The settings to run with; passes are at least a second apart. -/
def settings (config : AggregationConfig) : AggregationSettings :=
  { intervalSecs := max config.intervalSecs 1
    recentWindowHours := config.recentWindowHours
    projectStart := config.projectStart
    perCollection := config.perCollection }

end AggregationConfig

namespace AggregationSettings

/-- Every five minutes, twelve hours back, since the start of 2024, with rows
for every collection. -/
def default : AggregationSettings :=
  { intervalSecs := 5 * 60
    recentWindowHours := 12
    projectStart := Calendar.Instant.startOf2024
    perCollection := true }

end AggregationSettings

namespace MetricsConfig

def default : MetricsConfig :=
  { listenAddress := none }

def ofNode? (place : ConfigNode) : Option MetricsConfig := do
  let entries ← place.entries?
  some
    { listenAddress :=
        ← ConfigSection.setting? entries "listen_addr" ConfigNode.optionalText? none }

end MetricsConfig

namespace AppConfig

def default : AppConfig :=
  { cache := CacheConfig.default
    sideStore := SideStoreConfig.default
    stats := StatsConfig.default
    aggregation := AggregationConfig.default
    metrics := MetricsConfig.default
    store := StoreKind.default }

def storeOfNode? (place : ConfigNode) : Option StoreKind := do
  let entries ← place.entries?
  ConfigSection.setting? entries "store" ConfigNode.storeKind? StoreKind.default

def ofSections? (sections : List (String × ConfigNode)) : Option AppConfig := do
  some
    { cache := ← ConfigSection.setting? sections "cache" CacheConfig.ofNode? default.cache
      sideStore :=
        ← ConfigSection.setting? sections "side_store" SideStoreConfig.ofNode? default.sideStore
      stats := ← ConfigSection.setting? sections "stats" StatsConfig.ofNode? default.stats
      aggregation :=
        ← ConfigSection.setting? sections "aggregation" AggregationConfig.ofNode?
          default.aggregation
      metrics := ← ConfigSection.setting? sections "metrics" MetricsConfig.ofNode? default.metrics
      store := ← ConfigSection.setting? sections "marketplace" storeOfNode? default.store }

/-- Read a configuration from a document.  A document without a node has no
sections. -/
def ofDocument? (document : Yaml.Document) : Option AppConfig :=
  match document.root with
  | none => ofSections? []
  | some node => (ConfigNode.entries? { document, node }).bind ofSections?

/-- Read a configuration from a text.  A blank text is an empty document. -/
def ofYaml (content : List Char) : Except ConfigError AppConfig :=
  if content.all Text.isBlank then
    .ok default
  else
    match (Yaml.Document.read? content).bind ofDocument? with
    | some config => .ok config
    | none => .error .malformed

/-- Put the values of the environment in place of those of the document. -/
def override (config : AppConfig) (environment : Environment) : AppConfig :=
  { config with
    cache := { config.cache with redisUrl := environment.redisUrl.or config.cache.redisUrl }
    sideStore := { path := environment.sideStorePath.getD config.sideStore.path }
    metrics := { listenAddress := environment.metricsAddress.or config.metrics.listenAddress } }

/-- What is wrong with a configuration, if anything. -/
def fault? (config : AppConfig) : Option ConfigError :=
  if config.store = .memory ∧ config.cache.redisUrl.isSome then
    some .sharedEmptyStore
  else
    none

def check (config : AppConfig) : Except ConfigError AppConfig :=
  match config.fault? with
  | some fault => .error fault
  | none => .ok config

def load (file : ConfigFile) (environment : Environment) : Except ConfigError AppConfig :=
  match file with
  | .missing => (default.override environment).check
  | .unreadable => .error .unreadable
  | .text content => (ofYaml content).bind fun config => (config.override environment).check

/-- Whether statistics are warmed up and volumes aggregated in the
background. -/
def runsBackgroundWork (config : AppConfig) : Bool :=
  config.store != .none

end AppConfig

end MarketStats
