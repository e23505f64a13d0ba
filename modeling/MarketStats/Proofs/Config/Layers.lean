import Mathlib.Tactic.Choose
import MarketStats.Config

/-!
# Where settings come from

A setting has the value that the environment gives it.  Failing that it has the
value that is written in the document, wherever other settings are written or
left out, and failing that its default.  What is refused is the outcome of all
three: a store in the process behind a shared cache, whoever asked for the
cache.
-/

namespace MarketStats

/-- The settings, each with the type of its values. -/
inductive ConfigField : Type → Type
  | redisUrl : ConfigField (Option String)
  | localMaxCostBytes : ConfigField Nat
  | localDefaultTtlSecs : ConfigField Nat
  | path : ConfigField String
  | claimTtlSecs : ConfigField Nat
  | tokensBatchSize : ConfigField Nat
  | intervalSecs : ConfigField Nat
  | recentWindowHours : ConfigField Nat
  | projectStart : ConfigField Calendar.Instant
  | perCollection : ConfigField Bool
  | listenAddress : ConfigField (Option String)
  | store : ConfigField StoreKind

namespace ConfigSection

variable {α : Type} {entries : List (String × ConfigNode)} {name : String}

/-- The first value under a name. -/
def find? (entries : List (String × ConfigNode)) (name : String) : Option ConfigNode :=
  (entries.find? fun entry => entry.1 == name).map Prod.snd

/-- How often a name occurs. -/
def occurrences (entries : List (String × ConfigNode)) (name : String) : Nat :=
  entries.countP fun entry => entry.1 == name

/-- A value is the one that is written, or the default if none is. -/
def IsWritten (found : Option ConfigNode) (read : ConfigNode → Option α) (default value : α) :
    Prop :=
  match found with
  | none => value = default
  | some place => read place = some value

theorem value?_eq_some_iff {found : Option ConfigNode} :
    value? entries name = some found ↔
      occurrences entries name ≤ 1 ∧ find? entries name = found := by
  unfold value? occurrences find?
  rw [List.countP_eq_length_filter, ← List.head?_filter]
  generalize (entries.filter fun entry => entry.1 == name) = listed
  rcases listed with _ | ⟨entry, _ | ⟨other, rest⟩⟩
  · simp
  · simp
  · simp

theorem find?_eq_none_of_occurrences_eq_zero (absent : occurrences entries name = 0) :
    find? entries name = none := by
  unfold occurrences at absent
  rw [find?, List.find?_eq_none.mpr (List.countP_eq_zero.mp absent), Option.map_none]

/-- A setting is read just when its name occurs at most once and what is written
under it can be read. -/
theorem setting?_eq_some_iff {read : ConfigNode → Option α} {default value : α} :
    setting? entries name read default = some value ↔
      occurrences entries name ≤ 1 ∧ IsWritten (find? entries name) read default value := by
  unfold setting? IsWritten
  simp only [Option.bind_eq_some_iff, value?_eq_some_iff, and_assoc, exists_and_left,
    exists_eq_left']
  apply and_congr_right
  intro _
  cases find? entries name with
  | none => simp [eq_comm]
  | some place => rfl

end ConfigSection

namespace ConfigField

variable {α : Type}

/-- The section that a setting belongs to. -/
def sectionName : ConfigField α → String
  | .redisUrl => "cache"
  | .localMaxCostBytes => "cache"
  | .localDefaultTtlSecs => "cache"
  | .path => "side_store"
  | .claimTtlSecs => "stats"
  | .tokensBatchSize => "stats"
  | .intervalSecs => "aggregation"
  | .recentWindowHours => "aggregation"
  | .projectStart => "aggregation"
  | .perCollection => "aggregation"
  | .listenAddress => "metrics"
  | .store => "marketplace"

/-- The name of a setting in its section. -/
def name : ConfigField α → String
  | .redisUrl => "redis_url"
  | .localMaxCostBytes => "local_max_cost_bytes"
  | .localDefaultTtlSecs => "local_default_ttl_secs"
  | .path => "path"
  | .claimTtlSecs => "claim_ttl_secs"
  | .tokensBatchSize => "tokens_batch_size"
  | .intervalSecs => "interval_secs"
  | .recentWindowHours => "recent_window_hours"
  | .projectStart => "project_start"
  | .perCollection => "per_collection"
  | .listenAddress => "listen_addr"
  | .store => "store"

/-- The value that is written at a place. -/
def read : ConfigField α → ConfigNode → Option α
  | .redisUrl => ConfigNode.optionalText?
  | .localMaxCostBytes => ConfigNode.long?
  | .localDefaultTtlSecs => ConfigNode.long?
  | .path => ConfigNode.text?
  | .claimTtlSecs => ConfigNode.long?
  | .tokensBatchSize => ConfigNode.long?
  | .intervalSecs => ConfigNode.long?
  | .recentWindowHours => ConfigNode.word?
  | .projectStart => ConfigNode.instant?
  | .perCollection => ConfigNode.bool?
  | .listenAddress => ConfigNode.optionalText?
  | .store => ConfigNode.storeKind?

/-- The value of a setting in a configuration. -/
def value : ConfigField α → AppConfig → α
  | .redisUrl, config => config.cache.redisUrl
  | .localMaxCostBytes, config => config.cache.localMaxCostBytes
  | .localDefaultTtlSecs, config => config.cache.localDefaultTtlSecs
  | .path, config => config.sideStore.path
  | .claimTtlSecs, config => config.stats.claimTtlSecs
  | .tokensBatchSize, config => config.stats.tokensBatchSize
  | .intervalSecs, config => config.aggregation.intervalSecs
  | .recentWindowHours, config => config.aggregation.recentWindowHours
  | .projectStart, config => config.aggregation.projectStart
  | .perCollection, config => config.aggregation.perCollection
  | .listenAddress, config => config.metrics.listenAddress
  | .store, config => config.store

/-- The value that the environment gives a setting. -/
def override? : ConfigField α → Environment → Option α
  | .redisUrl, environment => environment.redisUrl.map some
  | .path, environment => environment.sideStorePath
  | .listenAddress, environment => environment.metricsAddress.map some
  | _, _ => none

/-- Where a setting is written in the sections of a document. -/
def place? (field : ConfigField α) (sections : List (String × ConfigNode)) : Option ConfigNode :=
  (ConfigSection.find? sections field.sectionName).bind fun place =>
    place.entries?.bind fun entries => ConfigSection.find? entries field.name

/-- A setting has a value in some sections: its section and its name occur at
most once, and the value is the one that is written, or the default. -/
def Reads (field : ConfigField α) (sections : List (String × ConfigNode)) (value : α) : Prop :=
  ConfigSection.occurrences sections field.sectionName ≤ 1 ∧
    match ConfigSection.find? sections field.sectionName with
    | none => value = field.value AppConfig.default
    | some place =>
        ∃ entries, place.entries? = some entries ∧
          ConfigSection.occurrences entries field.name ≤ 1 ∧
          ConfigSection.IsWritten (ConfigSection.find? entries field.name) field.read
            (field.value AppConfig.default) value

/-- Read one setting of a section. -/
def ofNode? (field : ConfigField α) (place : ConfigNode) : Option α :=
  place.entries?.bind fun entries =>
    ConfigSection.setting? entries field.name field.read (field.value AppConfig.default)

theorem reads_iff {field : ConfigField α} {sections : List (String × ConfigNode)} {value : α} :
    Reads field sections value ↔
      ConfigSection.occurrences sections field.sectionName ≤ 1 ∧
        ConfigSection.IsWritten (ConfigSection.find? sections field.sectionName) field.ofNode?
          (field.value AppConfig.default) value := by
  unfold Reads ofNode?
  apply and_congr_right
  intro _
  cases ConfigSection.find? sections field.sectionName with
  | none => rfl
  | some place =>
      simp only [ConfigSection.IsWritten, Option.bind_eq_some_iff,
        ConfigSection.setting?_eq_some_iff]

theorem Reads.read_place?_eq {field : ConfigField α} {sections : List (String × ConfigNode)}
    {value : α} (reads : Reads field sections value) :
    ConfigSection.IsWritten (field.place? sections) field.read (field.value AppConfig.default)
      value := by
  unfold place?
  obtain ⟨-, written⟩ := reads
  cases found : ConfigSection.find? sections field.sectionName with
  | none =>
      rw [found] at written
      exact written
  | some place =>
      rw [found] at written
      obtain ⟨entries, listed, -, isWritten⟩ := written
      rw [Option.bind_some, listed]
      exact isWritten

end ConfigField

/-! A section is read by reading its settings. -/

theorem CacheConfig.ofNode?_eq_some_iff {place : ConfigNode} {cache : CacheConfig} :
    CacheConfig.ofNode? place = some cache ↔
      ConfigField.redisUrl.ofNode? place = some cache.redisUrl ∧
        ConfigField.localMaxCostBytes.ofNode? place = some cache.localMaxCostBytes ∧
        ConfigField.localDefaultTtlSecs.ofNode? place = some cache.localDefaultTtlSecs := by
  obtain ⟨redisUrl, localMaxCostBytes, localDefaultTtlSecs⟩ := cache
  unfold CacheConfig.ofNode? ConfigField.ofNode?
  cases place.entries? with
  | none => simp
  | some entries =>
      simp only [Option.bind_eq_bind, Option.bind_some, Option.bind_eq_some_iff,
        Option.some.injEq, CacheConfig.mk.injEq]
      constructor
      · rintro ⟨_, first, _, second, _, third, rfl, rfl, rfl⟩
        exact ⟨first, second, third⟩
      · rintro ⟨first, second, third⟩
        exact ⟨_, first, _, second, _, third, rfl, rfl, rfl⟩

theorem SideStoreConfig.ofNode?_eq_some_iff {place : ConfigNode} {sideStore : SideStoreConfig} :
    SideStoreConfig.ofNode? place = some sideStore ↔
      ConfigField.path.ofNode? place = some sideStore.path := by
  obtain ⟨path⟩ := sideStore
  unfold SideStoreConfig.ofNode? ConfigField.ofNode?
  cases place.entries? with
  | none => simp
  | some entries =>
      simp only [Option.bind_eq_bind, Option.bind_some, Option.bind_eq_some_iff,
        Option.some.injEq, SideStoreConfig.mk.injEq, exists_eq_right]
      rfl

theorem StatsConfig.ofNode?_eq_some_iff {place : ConfigNode} {stats : StatsConfig} :
    StatsConfig.ofNode? place = some stats ↔
      ConfigField.claimTtlSecs.ofNode? place = some stats.claimTtlSecs ∧
        ConfigField.tokensBatchSize.ofNode? place = some stats.tokensBatchSize := by
  obtain ⟨claimTtlSecs, tokensBatchSize⟩ := stats
  unfold StatsConfig.ofNode? ConfigField.ofNode?
  cases place.entries? with
  | none => simp
  | some entries =>
      simp only [Option.bind_eq_bind, Option.bind_some, Option.bind_eq_some_iff,
        Option.some.injEq, StatsConfig.mk.injEq]
      constructor
      · rintro ⟨_, first, _, second, rfl, rfl⟩
        exact ⟨first, second⟩
      · rintro ⟨first, second⟩
        exact ⟨_, first, _, second, rfl, rfl⟩

theorem AggregationConfig.ofNode?_eq_some_iff {place : ConfigNode}
    {aggregation : AggregationConfig} :
    AggregationConfig.ofNode? place = some aggregation ↔
      ConfigField.intervalSecs.ofNode? place = some aggregation.intervalSecs ∧
        ConfigField.recentWindowHours.ofNode? place = some aggregation.recentWindowHours ∧
        ConfigField.projectStart.ofNode? place = some aggregation.projectStart ∧
        ConfigField.perCollection.ofNode? place = some aggregation.perCollection := by
  obtain ⟨intervalSecs, recentWindowHours, projectStart, perCollection⟩ := aggregation
  unfold AggregationConfig.ofNode? ConfigField.ofNode?
  cases place.entries? with
  | none => simp
  | some entries =>
      simp only [Option.bind_eq_bind, Option.bind_some, Option.bind_eq_some_iff,
        Option.some.injEq, AggregationConfig.mk.injEq]
      constructor
      · rintro ⟨_, first, _, second, _, third, _, fourth, rfl, rfl, rfl, rfl⟩
        exact ⟨first, second, third, fourth⟩
      · rintro ⟨first, second, third, fourth⟩
        exact ⟨_, first, _, second, _, third, _, fourth, rfl, rfl, rfl, rfl⟩

theorem MetricsConfig.ofNode?_eq_some_iff {place : ConfigNode} {metrics : MetricsConfig} :
    MetricsConfig.ofNode? place = some metrics ↔
      ConfigField.listenAddress.ofNode? place = some metrics.listenAddress := by
  obtain ⟨listenAddress⟩ := metrics
  unfold MetricsConfig.ofNode? ConfigField.ofNode?
  cases place.entries? with
  | none => simp
  | some entries =>
      simp only [Option.bind_eq_bind, Option.bind_some, Option.bind_eq_some_iff,
        Option.some.injEq, MetricsConfig.mk.injEq, exists_eq_right]
      rfl

namespace AppConfig

open ConfigSection ConfigField

variable {sections : List (String × ConfigNode)}

theorem setting?_cache_iff {cache : CacheConfig} :
    setting? sections "cache" CacheConfig.ofNode? default.cache = some cache ↔
      Reads .redisUrl sections cache.redisUrl ∧
        Reads .localMaxCostBytes sections cache.localMaxCostBytes ∧
        Reads .localDefaultTtlSecs sections cache.localDefaultTtlSecs := by
  obtain ⟨redisUrl, localMaxCostBytes, localDefaultTtlSecs⟩ := cache
  simp only [setting?_eq_some_iff, reads_iff, ConfigField.sectionName]
  cases find? sections "cache" with
  | none =>
      simp only [IsWritten, default, CacheConfig.default, CacheConfig.mk.injEq, ConfigField.value,
        ← and_and_left]
  | some place => simp only [IsWritten, CacheConfig.ofNode?_eq_some_iff, ← and_and_left]

theorem setting?_sideStore_iff {sideStore : SideStoreConfig} :
    setting? sections "side_store" SideStoreConfig.ofNode? default.sideStore = some sideStore ↔
      Reads .path sections sideStore.path := by
  obtain ⟨path⟩ := sideStore
  simp only [setting?_eq_some_iff, reads_iff, ConfigField.sectionName]
  cases find? sections "side_store" with
  | none =>
      simp only [IsWritten, default, SideStoreConfig.default, SideStoreConfig.mk.injEq,
        ConfigField.value]
  | some place => simp only [IsWritten, SideStoreConfig.ofNode?_eq_some_iff]

theorem setting?_stats_iff {stats : StatsConfig} :
    setting? sections "stats" StatsConfig.ofNode? default.stats = some stats ↔
      Reads .claimTtlSecs sections stats.claimTtlSecs ∧
        Reads .tokensBatchSize sections stats.tokensBatchSize := by
  obtain ⟨claimTtlSecs, tokensBatchSize⟩ := stats
  simp only [setting?_eq_some_iff, reads_iff, ConfigField.sectionName]
  cases find? sections "stats" with
  | none =>
      simp only [IsWritten, default, StatsConfig.default, StatsConfig.mk.injEq, ConfigField.value,
        ← and_and_left]
  | some place => simp only [IsWritten, StatsConfig.ofNode?_eq_some_iff, ← and_and_left]

theorem setting?_aggregation_iff {aggregation : AggregationConfig} :
    setting? sections "aggregation" AggregationConfig.ofNode? default.aggregation =
        some aggregation ↔
      Reads .intervalSecs sections aggregation.intervalSecs ∧
        Reads .recentWindowHours sections aggregation.recentWindowHours ∧
        Reads .projectStart sections aggregation.projectStart ∧
        Reads .perCollection sections aggregation.perCollection := by
  obtain ⟨intervalSecs, recentWindowHours, projectStart, perCollection⟩ := aggregation
  simp only [setting?_eq_some_iff, reads_iff, ConfigField.sectionName]
  cases find? sections "aggregation" with
  | none =>
      simp only [IsWritten, default, AggregationConfig.default, AggregationConfig.mk.injEq,
        ConfigField.value, ← and_and_left]
  | some place => simp only [IsWritten, AggregationConfig.ofNode?_eq_some_iff, ← and_and_left]

theorem setting?_metrics_iff {metrics : MetricsConfig} :
    setting? sections "metrics" MetricsConfig.ofNode? default.metrics = some metrics ↔
      Reads .listenAddress sections metrics.listenAddress := by
  obtain ⟨listenAddress⟩ := metrics
  simp only [setting?_eq_some_iff, reads_iff, ConfigField.sectionName]
  cases find? sections "metrics" with
  | none =>
      simp only [IsWritten, default, MetricsConfig.default, MetricsConfig.mk.injEq,
        ConfigField.value]
  | some place => simp only [IsWritten, MetricsConfig.ofNode?_eq_some_iff]

theorem setting?_store_iff {store : StoreKind} :
    setting? sections "marketplace" storeOfNode? default.store = some store ↔
      Reads .store sections store := by
  rw [setting?_eq_some_iff, reads_iff]
  rfl

/-- Sections are read as a configuration just when each of its settings is
read. -/
theorem ofSections?_eq_some_iff {config : AppConfig} :
    ofSections? sections = some config ↔
      ∀ {α : Type} (field : ConfigField α), Reads field sections (field.value config) := by
  -- The sections are read independently of each other.
  have bySections : ofSections? sections = some config ↔
      setting? sections "cache" CacheConfig.ofNode? default.cache = some config.cache ∧
        setting? sections "side_store" SideStoreConfig.ofNode? default.sideStore =
          some config.sideStore ∧
        setting? sections "stats" StatsConfig.ofNode? default.stats = some config.stats ∧
        setting? sections "aggregation" AggregationConfig.ofNode? default.aggregation =
          some config.aggregation ∧
        setting? sections "metrics" MetricsConfig.ofNode? default.metrics = some config.metrics ∧
        setting? sections "marketplace" storeOfNode? default.store = some config.store := by
    obtain ⟨cache, sideStore, stats, aggregation, metrics, store⟩ := config
    unfold ofSections?
    simp only [Option.bind_eq_bind, Option.bind_eq_some_iff, Option.some.injEq, AppConfig.mk.injEq]
    constructor
    · rintro ⟨_, first, _, second, _, third, _, fourth, _, fifth, _, sixth, rfl, rfl, rfl, rfl,
        rfl, rfl⟩
      exact ⟨first, second, third, fourth, fifth, sixth⟩
    · rintro ⟨first, second, third, fourth, fifth, sixth⟩
      exact ⟨_, first, _, second, _, third, _, fourth, _, fifth, _, sixth, rfl, rfl, rfl, rfl, rfl,
        rfl⟩
  rw [bySections, setting?_cache_iff, setting?_sideStore_iff, setting?_stats_iff,
    setting?_aggregation_iff, setting?_metrics_iff, setting?_store_iff]
  constructor
  · rintro ⟨⟨redisUrl, localMaxCostBytes, localDefaultTtlSecs⟩, path, ⟨claimTtlSecs,
      tokensBatchSize⟩, ⟨intervalSecs, recentWindowHours, projectStart, perCollection⟩,
      listenAddress, store⟩ α field
    cases field <;> assumption
  · intro reads
    exact ⟨⟨reads .redisUrl, reads .localMaxCostBytes, reads .localDefaultTtlSecs⟩, reads .path,
      ⟨reads .claimTtlSecs, reads .tokensBatchSize⟩, ⟨reads .intervalSecs,
      reads .recentWindowHours, reads .projectStart, reads .perCollection⟩, reads .listenAddress,
      reads .store⟩

/-- The sections of a document.  A document without a node has none. -/
def sectionsOfDocument? (document : Yaml.Document) : Option (List (String × ConfigNode)) :=
  match document.root with
  | none => some []
  | some node => ConfigNode.entries? { document, node }

/-- The sections of a text.  A blank text has none. -/
def sectionsOf? (content : List Char) : Option (List (String × ConfigNode)) :=
  if content.all Text.isBlank then some []
  else (Yaml.Document.read? content).bind sectionsOfDocument?

theorem ofDocument?_eq (document : Yaml.Document) :
    ofDocument? document = (sectionsOfDocument? document).bind ofSections? := by
  unfold ofDocument? sectionsOfDocument?
  cases document.root with
  | none => rfl
  | some node => rfl

/-- A setting that is left out has the same default in a section that is
written as in one that is left out too. -/
theorem ofSections?_of_leftOut
    (once : ∀ {α : Type} (field : ConfigField α), occurrences sections field.sectionName ≤ 1)
    (leftOut : ∀ {α : Type} (field : ConfigField α) {place : ConfigNode},
      find? sections field.sectionName = some place →
        ∃ entries, place.entries? = some entries ∧ occurrences entries field.name = 0) :
    ofSections? sections = some default := by
  apply ofSections?_eq_some_iff.mpr
  intro α field
  refine ⟨once field, ?_⟩
  cases found : find? sections field.sectionName with
  | none => rfl
  | some place =>
      obtain ⟨entries, listed, absent⟩ := leftOut field found
      refine ⟨entries, listed, by omega, ?_⟩
      rw [find?_eq_none_of_occurrences_eq_zero absent]
      rfl

theorem ofSections?_nil : ofSections? [] = some default := by
  apply ofSections?_of_leftOut
  case once => exact fun field => Nat.zero_le 1
  case leftOut =>
    intro α field place found
    cases found

theorem ofYaml_eq_ok_iff {content : List Char} {config : AppConfig} :
    ofYaml content = .ok config ↔
      ∃ sections, sectionsOf? content = some sections ∧ ofSections? sections = some config := by
  unfold ofYaml sectionsOf?
  rw [← Option.bind_eq_some_iff]
  split
  · rw [Option.bind_some, ofSections?_nil, Except.ok.injEq, Option.some.injEq]
  · rw [Option.bind_assoc, ← funext ofDocument?_eq]
    cases (Yaml.Document.read? content).bind ofDocument? with
    | none => simp
    | some read => simp

end AppConfig

/-- Where a setting is written in a text. -/
def ConfigField.writtenIn? {α : Type} (field : ConfigField α) (content : List Char) :
    Option ConfigNode :=
  (AppConfig.sectionsOf? content).bind field.place?

/-- The settings of a default configuration are the default settings of the
aggregation itself. -/
theorem AggregationConfig.settings_default :
    AggregationConfig.default.settings = AggregationSettings.default :=
  rfl

namespace AppConfig

open ConfigField

variable {content : List Char} {environment : Environment} {config : AppConfig}

/-- Every setting has the value of the environment, else the one that is written
in the text, else its default. -/
structure IsLayered (content : List Char) (environment : Environment) (config : AppConfig) :
    Prop where
  fromEnvironment : ∀ {α : Type} (field : ConfigField α) {given : α},
    field.override? environment = some given → field.value config = given
  fromDocument : ∀ {α : Type} (field : ConfigField α) {place : ConfigNode},
    field.override? environment = none → field.writtenIn? content = some place →
      field.read place = some (field.value config)
  fromDefault : ∀ {α : Type} (field : ConfigField α),
    field.override? environment = none → field.writtenIn? content = none →
      field.value config = field.value default

/-- The configuration with some values of its settings. -/
def ofValues (chosen : ∀ {α : Type}, ConfigField α → α) : AppConfig :=
  { cache :=
      { redisUrl := chosen .redisUrl
        localMaxCostBytes := chosen .localMaxCostBytes
        localDefaultTtlSecs := chosen .localDefaultTtlSecs }
    sideStore := { path := chosen .path }
    stats :=
      { claimTtlSecs := chosen .claimTtlSecs
        tokensBatchSize := chosen .tokensBatchSize }
    aggregation :=
      { intervalSecs := chosen .intervalSecs
        recentWindowHours := chosen .recentWindowHours
        projectStart := chosen .projectStart
        perCollection := chosen .perCollection }
    metrics := { listenAddress := chosen .listenAddress }
    store := chosen .store }

theorem value_ofValues (chosen : ∀ {α : Type}, ConfigField α → α) {α : Type}
    (field : ConfigField α) : field.value (ofValues chosen) = chosen field := by
  cases field <;> rfl

/-- A configuration is given by its settings. -/
theorem eq_of_value_eq {other : AppConfig}
    (same : ∀ {α : Type} (field : ConfigField α), field.value other = field.value config) :
    other = config := by
  have settings (config : AppConfig) : config = ofValues fun field => field.value config := rfl
  rw [settings other, settings config]
  congr
  funext α field
  exact same field

theorem value_override {α : Type} (field : ConfigField α) (config : AppConfig)
    (environment : Environment) :
    field.value (config.override environment) =
      (field.override? environment).getD (field.value config) := by
  obtain ⟨redisUrl, sideStorePath, metricsAddress⟩ := environment
  cases field with
  | redisUrl => cases redisUrl <;> rfl
  | listenAddress => cases metricsAddress <;> rfl
  | _ => rfl

/-- The configuration that is checked has its values from the environment, the
document and the defaults. -/
theorem isLayered_override (accepted : ofYaml content = .ok config) (environment : Environment) :
    IsLayered content environment (config.override environment) := by
  obtain ⟨sections, found, read⟩ := ofYaml_eq_ok_iff.mp accepted
  have isWritten {α : Type} (field : ConfigField α) :
      ConfigSection.IsWritten (field.writtenIn? content) field.read (field.value default)
        (field.value config) := by
    unfold writtenIn?
    rw [found]
    exact (ofSections?_eq_some_iff.mp read field).read_place?_eq
  constructor
  case fromEnvironment =>
    intro α field given overridden
    rw [value_override, overridden, Option.getD_some]
  case fromDocument =>
    intro α field place notOverridden written
    have value_eq := isWritten field
    rw [written] at value_eq
    rw [value_override, notOverridden, Option.getD_none]
    exact value_eq
  case fromDefault =>
    intro α field notOverridden notWritten
    have value_eq := isWritten field
    rw [notWritten] at value_eq
    rw [value_override, notOverridden, Option.getD_none]
    exact value_eq

/-- The three layers leave no choice. -/
theorem IsLayered.eq {other : AppConfig} (first : IsLayered content environment config)
    (second : IsLayered content environment other) : other = config := by
  apply eq_of_value_eq
  intro α field
  cases overridden : field.override? environment with
  | some given =>
      rw [first.fromEnvironment field overridden, second.fromEnvironment field overridden]
  | none =>
      cases written : field.writtenIn? content with
      | some place =>
          have read := first.fromDocument field overridden written
          rw [second.fromDocument field overridden written] at read
          exact Option.some.inj read
      | none =>
          rw [first.fromDefault field overridden written,
            second.fromDefault field overridden written]

/-- A text is accepted just when every setting in it can be read. -/
theorem exists_ofYaml_eq_ok_iff :
    (∃ config, ofYaml content = .ok config) ↔
      ∃ sections, sectionsOf? content = some sections ∧
        ∀ {α : Type} (field : ConfigField α), ∃ value, Reads field sections value := by
  constructor
  · rintro ⟨config, accepted⟩
    obtain ⟨sections, found, read⟩ := ofYaml_eq_ok_iff.mp accepted
    exact ⟨sections, found, fun field => ⟨_, ofSections?_eq_some_iff.mp read field⟩⟩
  · rintro ⟨sections, found, readable⟩
    choose chosen reads using @readable
    refine ⟨ofValues chosen, ofYaml_eq_ok_iff.mpr ⟨sections, found, ?_⟩⟩
    apply ofSections?_eq_some_iff.mpr
    intro α field
    rw [value_ofValues]
    exact reads field

/-- A store in the process behind a shared cache. -/
def SharesEmptyStore (config : AppConfig) : Prop :=
  config.store = .memory ∧ config.cache.redisUrl.isSome = true

theorem check_of_sharesEmptyStore (shares : config.SharesEmptyStore) :
    config.check = .error .sharedEmptyStore := by
  unfold SharesEmptyStore at shares
  rw [check, fault?, if_pos shares]

theorem check_eq_ok_iff {checked : AppConfig} :
    config.check = .ok checked ↔ ¬config.SharesEmptyStore ∧ config = checked := by
  by_cases shares : config.SharesEmptyStore
  · rw [check_of_sharesEmptyStore shares]
    simp [shares]
  · have passes : config.check = .ok config := by
      unfold SharesEmptyStore at shares
      rw [check, fault?, if_neg shares]
    rw [passes, Except.ok.injEq]
    simp [shares]

theorem redisUrl_eq_none_of_runsBackgroundWork (runs : config.runsBackgroundWork = true)
    (safe : ¬config.SharesEmptyStore) : config.cache.redisUrl = none := by
  have isMemory : config.store = .memory := by
    unfold runsBackgroundWork at runs
    cases kind : config.store with
    | none =>
        rw [kind] at runs
        cases runs
    | memory => rfl
  cases shared : config.cache.redisUrl with
  | none => rfl
  | some url => exact absurd ⟨isMemory, by rw [shared]; rfl⟩ safe

/-- Only configurations that passed the check are loaded. -/
theorem not_sharesEmptyStore_of_load {file : ConfigFile}
    (loaded : load file environment = .ok config) : ¬config.SharesEmptyStore := by
  cases file with
  | missing =>
      change (default.override environment).check = .ok config at loaded
      obtain ⟨safe, rfl⟩ := check_eq_ok_iff.mp loaded
      exact safe
  | unreadable => cases loaded
  | text content =>
      dsimp only [load] at loaded
      cases accepted : ofYaml content with
      | error failure =>
          rw [accepted] at loaded
          cases loaded
      | ok read =>
          rw [accepted] at loaded
          obtain ⟨safe, rfl⟩ := check_eq_ok_iff.mp loaded
          exact safe

/-- A text is accepted just when every setting in it can be read, whichever
others there are.  The configuration that is then checked has the values of the
environment, else those that are written, else the defaults; it is loaded unless
it puts a store in the process behind a shared cache.  Whatever is loaded runs
no background work with a shared cache. -/
theorem load_layers (environment : Environment) :
    (∀ content : List Char,
      ((∃ config, ofYaml content = .ok config) ↔
        ∃ sections, sectionsOf? content = some sections ∧
          ∀ {α : Type} (field : ConfigField α), ∃ value, Reads field sections value) ∧
      ∀ config, ofYaml content = .ok config →
        IsLayered content environment (config.override environment) ∧
        (∀ other, IsLayered content environment other → other = config.override environment) ∧
        (load (.text content) environment = .ok (config.override environment) ↔
          ¬(config.override environment).SharesEmptyStore) ∧
        ((config.override environment).SharesEmptyStore →
          load (.text content) environment = .error .sharedEmptyStore)) ∧
      ∀ file config, load file environment = .ok config →
        config.runsBackgroundWork = true → config.cache.redisUrl = none := by
  constructor
  · intro content
    refine ⟨exists_ofYaml_eq_ok_iff, ?_⟩
    intro config accepted
    have layered := isLayered_override accepted environment
    have checks : load (.text content) environment = (config.override environment).check := by
      rw [load, accepted]
      rfl
    rw [checks, check_eq_ok_iff]
    exact ⟨layered, fun other => layered.eq, by simp, check_of_sharesEmptyStore⟩
  · intro file config loaded runs
    exact redisUrl_eq_none_of_runsBackgroundWork runs (not_sharesEmptyStore_of_load loaded)

example : (ofYaml "# nothing is set\n".toList).toOption = some default := by decide +kernel

/-- A text with a comment, an empty section, a section that is filled in part, and
names that nothing reads. -/
def partialText : List Char :=
  ("# local runs\nstats:\ncache:\n  local_max_cost_bytes: 1024\n  color: blue\n"
    ++ "marketplace:\n  store: memory\nowner: [a, b]\n").toList

def partialConfig : AppConfig :=
  { default with
    cache := { CacheConfig.default with localMaxCostBytes := 1024 }
    store := .memory }

theorem ofYaml_partialText : ofYaml partialText = .ok partialConfig := by
  have read : (ofYaml partialText).toOption = some partialConfig := by decide +kernel
  cases outcome : ofYaml partialText with
  | error failure =>
      rw [outcome] at read
      cases read
  | ok config =>
      rw [outcome] at read
      cases read
      rfl

theorem load_layers_partialText :
    load (.text partialText) ⟨some "redis://cache:6379", none, none⟩ =
        .error .sharedEmptyStore ∧
      load (.text partialText) ⟨none, some "/data", none⟩ =
        .ok { partialConfig with sideStore := { path := "/data" } } ∧
      { partialConfig with sideStore := { path := "/data" } }.cache.redisUrl = none := by
  obtain ⟨shared, -⟩ := load_layers ⟨some "redis://cache:6379", none, none⟩
  obtain ⟨alone, background⟩ := load_layers ⟨none, some "/data", none⟩
  obtain ⟨-, -, -, refused⟩ := (shared partialText).2 partialConfig ofYaml_partialText
  obtain ⟨-, -, loaded, -⟩ := (alone partialText).2 partialConfig ofYaml_partialText
  have isLoaded := loaded.mpr fun shares => absurd shares.2 Bool.false_ne_true
  exact ⟨refused ⟨rfl, rfl⟩, isLoaded, background _ _ isLoaded rfl⟩

end AppConfig

end MarketStats
