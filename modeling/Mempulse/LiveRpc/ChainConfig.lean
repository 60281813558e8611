import Mempulse.Common
import Mempulse.Library.Decimal
import Mempulse.Library.TextFiles

/-!
# The configuration of the feed

The chains and the limits of the live feed are put together from defaults, a configuration file and
the environment, each later source overriding what it names. Whatever these hold, a configuration
that is accepted has a chain, every chain has a key, a source and an endpoint, no text of it is
empty or padded, and no limit that must not be zero is (`fromEnv_wellFormed`).
-/

set_option autoImplicit false

namespace Mempulse.LiveRpc.Feed

open Library

/-! ## Data -/

/-- A node of a chain, by its two addresses. -/
structure RpcEndpoint where
  wsUrl : String
  httpUrl : String
  deriving DecidableEq

/-- An endpoint as the configuration text spells it. -/
structure EnvRpcEndpointConfig where
  wsUrl : String
  httpUrl : String
  deriving DecidableEq

/-- A chain as the configuration text spells it: fields that may be left out. -/
structure EnvChainConfig where
  chainKey : String
  chainId : Option UInt64 := none
  wsUrl : Option String := none
  httpUrl : Option String := none
  endpoints : List EnvRpcEndpointConfig := []
  sourceId : Option String := none
  deriving DecidableEq

/-- The two shapes of the text: an object with the list, or the list alone. -/
inductive ChainConfigInput where
  | wrapped (chains : List EnvChainConfig)
  | list (chains : List EnvChainConfig)
  deriving DecidableEq

/-- The chains of either shape. -/
def ChainConfigInput.chains : ChainConfigInput → List EnvChainConfig
  | .wrapped chains => chains
  | .list chains => chains

/-- Chain-scoped websocket/http configuration for live-rpc ingest. -/
structure ChainRpcConfig where
  chainKey : String
  chainId : Option UInt64
  endpoints : List RpcEndpoint
  sourceId : String
  deriving DecidableEq

/-- Batch fetch tuning parameters for `eth_getTransactionByHash` requests. -/
structure BatchFetchConfig where
  batchSize : Nat := 32
  maxInFlight : Nat := 4
  retryAttempts : Nat := 2
  retryBackoffMs : Nat := 100
  flushIntervalMs : Nat := 40
  deriving DecidableEq

/-- The configuration the feed starts with. -/
structure LiveRpcConfig where
  chains : List ChainRpcConfig
  maxSeenHashes : Nat
  batchFetch : BatchFetchConfig
  silentChainTimeoutSecs : Nat
  deriving DecidableEq

/-- Why a file could not be read. -/
inductive FileError where
  | notFound
  | other
  deriving DecidableEq

/-- Where the configuration is read from: the variables, the files, the decoder of their format, and
the configuration file of the source tree. -/
structure Surroundings where
  env : String → Option String
  readToString : String → Except FileError String
  decodeJson : String → Option ChainConfigInput
  manifestConfigPath : String

/-! ## Reading -/

/-- The text without white space at its ends. -/
def trimmed (text : String) : String := String.ofList (trim text.toList)

section Reading

variable (surroundings : Surroundings)

/-- A variable counts only when it is not blank. -/
def readEnvTrimmed (key : String) : Option String :=
  ((surroundings.env key).map trimmed).filter fun value => !value.isEmpty

/-- `parse_env_usize` and `parse_env_u64`. -/
def parseEnvNumber (key : String) : Except String (Option Nat) :=
  match readEnvTrimmed surroundings key with
  | none => .ok none
  | some value =>
    match parseUnsigned u64Max value.toList with
    | .error failure => .error ("invalid " ++ key ++ ": " ++ failure.text)
    | .ok number => .ok (some number)

/-- The chains of a text; a text without a chain is refused. -/
def decodeChainConfigs (raw sourceLabel : String) : Except String (List EnvChainConfig) :=
  match surroundings.decodeJson raw with
  | none => .error ("decode " ++ sourceLabel ++ " json")
  | some input =>
    if input.chains.isEmpty then .error (sourceLabel ++ " must contain at least one chain")
    else .ok input.chains

/-- An endpoint of two addresses that are not blank. -/
def parseEndpointUrls (chainKey wsUrl httpUrl : String) : Except String RpcEndpoint :=
  if (trimmed wsUrl).isEmpty then .error ("ws_url for chain '" ++ chainKey ++ "' cannot be empty")
  else if (trimmed httpUrl).isEmpty then
    .error ("http_url for chain '" ++ chainKey ++ "' cannot be empty")
  else .ok { wsUrl := trimmed wsUrl, httpUrl := trimmed httpUrl }

/-- The endpoints of a chain: its list, or the two addresses it gives by themselves. -/
def parseChainEndpoints (chain : EnvChainConfig) (chainKey : String) :
    Except String (List RpcEndpoint) :=
  if !chain.endpoints.isEmpty then
    chain.endpoints.mapM fun endpoint => parseEndpointUrls chainKey endpoint.wsUrl endpoint.httpUrl
  else
    (parseEndpointUrls chainKey (chain.wsUrl.getD "") (chain.httpUrl.getD "")).map
      fun endpoint => [endpoint]

/-- A chain as the feed keeps it, or which of its fields is wrong. -/
def parseEnvChainConfig (chain : EnvChainConfig) : Except String ChainRpcConfig :=
  let chainKey := trimmed chain.chainKey
  if chainKey.isEmpty then .error "chain_key cannot be empty"
  else
    (parseChainEndpoints chain chainKey).map fun endpoints =>
      { chainKey := chainKey
        chainId := chain.chainId
        endpoints := endpoints
        sourceId := ((chain.sourceId.map trimmed).filter fun value => !value.isEmpty).getD
          ("rpc-" ++ chainKey) }

/-- The chains of a text, under the label its source has in errors. -/
def parseChainConfigs (raw sourceLabel : String) : Except String (List ChainRpcConfig) :=
  (decodeChainConfigs surroundings raw sourceLabel).bind fun envChains =>
    envChains.mapM parseEnvChainConfig

/-- The chains of a file. A file that is not there is told apart. -/
def readChainConfigsFromPath (path : String) :
    Except (FileError × String) (List ChainRpcConfig) :=
  match surroundings.readToString path with
  | .error failure => .error (failure, "read chain config file '" ++ path ++ "'")
  | .ok payload =>
    match parseChainConfigs surroundings payload ("chain config file '" ++ path ++ "'") with
    | .error failure => .error (.other, failure)
    | .ok chains => .ok chains

/-- The files tried when no path is configured. -/
def defaultChainConfigPaths : List String :=
  ["configs/chain_config.json", surroundings.manifestConfigPath]

/-- The chains of the first default file that is there. -/
def firstDefaultFile : List String → Except String (Option (List ChainRpcConfig))
  | [] => .ok none
  | path :: rest =>
    match readChainConfigsFromPath surroundings path with
    | .ok chains => .ok (some chains)
    | .error (.notFound, _) => firstDefaultFile rest
    | .error (.other, failure) => .error failure

/-- The configured file must be readable; of the default files the first that exists counts. -/
def loadChainConfigsFromFile : Except String (Option (List ChainRpcConfig)) :=
  match readEnvTrimmed surroundings "VIZ_API_CHAIN_CONFIG_PATH" with
  | some path =>
    match readChainConfigsFromPath surroundings path with
    | .ok chains => .ok (some chains)
    | .error (_, failure) => .error failure
  | none => firstDefaultFile surroundings (defaultChainConfigPaths surroundings)

end Reading

/-! ## The configuration -/

/-- The address of the public node the defaults start from. -/
def primaryPublicHttpUrl : String := "https://eth.drpc.org"

/-- The chains of a feed that nothing configures. -/
def defaultChains : List ChainRpcConfig :=
  [{ chainKey := "eth-mainnet"
     chainId := some 1
     endpoints :=
      [{ wsUrl := "wss://eth.drpc.org", httpUrl := primaryPublicHttpUrl },
        { wsUrl := "wss://ethereum-rpc.publicnode.com"
          httpUrl := "https://ethereum-rpc.publicnode.com" }]
     sourceId := "rpc-live" }]

/-- The URLs of the environment replace those of the first chain: a websocket URL its endpoints
altogether, an http URL alone that of its first endpoint. -/
def overrideEndpoints (wsOverride httpOverride : Option String) (chain : ChainRpcConfig) :
    ChainRpcConfig :=
  match wsOverride, httpOverride with
  | some wsUrl, httpOverride =>
    { chain with
      endpoints := [{ wsUrl := wsUrl, httpUrl := httpOverride.getD primaryPublicHttpUrl }] }
  | none, some httpUrl =>
    { chain with
      endpoints := chain.endpoints.modifyHead fun endpoint => { endpoint with httpUrl := httpUrl } }
  | none, none => chain

/-- The configured source id, where there is one, stands for the chain's own. -/
def overrideSourceId (sourceIdOverride : Option String) (chain : ChainRpcConfig) : ChainRpcConfig :=
  { chain with sourceId := sourceIdOverride.getD chain.sourceId }

/-- The chains of the environment, or else those of a file or the defaults with what the environment
overrides. -/
def overrideChains (surroundings : Surroundings) (fileChains : Option (List ChainRpcConfig)) :
    Except String (List ChainRpcConfig) :=
  match readEnvTrimmed surroundings "VIZ_API_CHAINS" with
  | some raw => parseChainConfigs surroundings raw "VIZ_API_CHAINS"
  | none =>
    .ok ((fileChains.getD defaultChains).modifyHead fun chain =>
      overrideSourceId (readEnvTrimmed surroundings "VIZ_API_SOURCE_ID")
        (overrideEndpoints (readEnvTrimmed surroundings "VIZ_API_ETH_WS_URL")
          (readEnvTrimmed surroundings "VIZ_API_ETH_HTTP_URL") chain))

/-- Builds live-rpc configuration from defaults, optional config files, and env overrides. -/
def fromEnv (surroundings : Surroundings) : Except String LiveRpcConfig := do
  let maxSeenHashes ← parseEnvNumber surroundings "VIZ_API_MAX_SEEN_HASHES"
  let batchSize ← parseEnvNumber surroundings "VIZ_API_RPC_BATCH_SIZE"
  let maxInFlight ← parseEnvNumber surroundings "VIZ_API_RPC_MAX_IN_FLIGHT"
  let retryAttempts ← parseEnvNumber surroundings "VIZ_API_RPC_RETRY_ATTEMPTS"
  let retryBackoffMs ← parseEnvNumber surroundings "VIZ_API_RPC_RETRY_BACKOFF_MS"
  let flushIntervalMs ← parseEnvNumber surroundings "VIZ_API_RPC_BATCH_FLUSH_MS"
  let silentChainTimeoutSecs ← parseEnvNumber surroundings "VIZ_API_SILENT_CHAIN_TIMEOUT_SECS"
  let fileChains ← loadChainConfigsFromFile surroundings
  let chains ← overrideChains surroundings fileChains
  return {
    chains := chains
    maxSeenHashes := max (maxSeenHashes.getD 10000) 1
    batchFetch :=
      { batchSize := max (batchSize.getD 32) 1
        maxInFlight := max (maxInFlight.getD 4) 1
        retryAttempts := retryAttempts.getD 2
        retryBackoffMs := max (retryBackoffMs.getD 100) 1
        flushIntervalMs := max (flushIntervalMs.getD 40) 1 }
    silentChainTimeoutSecs := max (silentChainTimeoutSecs.getD 20) 1 }

/-! ## Texts -/

/-- A text that is not empty and neither starts nor ends with white space. -/
structure Proper (text : String) : Prop where
  nonempty : text.toList ≠ []
  first : ∀ char ∈ text.toList.head?, isWhitespace char = false
  last : ∀ char ∈ text.toList.getLast?, isWhitespace char = false

theorem proper_trimmed {text : String} (kept : (trimmed text).isEmpty = false) :
    Proper (trimmed text) := by
  have listed : (trimmed text).toList = trim text.toList := String.toList_ofList
  have nonempty : trim text.toList ≠ [] := by
    intro empty
    rw [trimmed, empty] at kept
    exact absurd kept (by decide)
  refine ⟨listed ▸ nonempty, fun char starts => ?_, fun char ends => ?_⟩
  · -- What is trimmed at the end starts where the text trimmed at the front starts.
    rw [listed] at starts
    have front : trim text.toList <+: text.toList.dropWhile isWhitespace :=
      List.rdropWhile_prefix isWhitespace _
    have head : (text.toList.dropWhile isWhitespace).head? = some char := by
      obtain ⟨behind, whole⟩ := front
      rw [← whole, List.head?_append_of_ne_nil _ nonempty]
      exact starts
    have refused := List.head?_dropWhile_not isWhitespace text.toList
    rw [head] at refused
    simpa using refused
  · rw [listed] at ends
    have last := List.rdropWhile_last_not isWhitespace (text.toList.dropWhile isWhitespace) nonempty
    rw [List.getLast?_eq_some_getLast nonempty] at ends
    cases ends
    exact Bool.eq_false_iff.mpr last

/-- `Some(text)` of the environment. -/
theorem proper_readEnvTrimmed {surroundings : Surroundings} {key value : String}
    (read : readEnvTrimmed surroundings key = some value) : Proper value := by
  obtain ⟨found, nonempty⟩ := Option.filter_eq_some_iff.mp read
  obtain ⟨raw, -, rfl⟩ := Option.map_eq_some_iff.mp found
  exact proper_trimmed (by simpa using nonempty)

theorem proper_prefixed {text : String} (proper : Proper text) : Proper ("rpc-" ++ text) := by
  have listed : ("rpc-" ++ text).toList = 'r' :: 'p' :: 'c' :: '-' :: text.toList := by
    rw [String.toList_append]
    rfl
  refine ⟨by simp [listed], fun char starts => ?_, fun char ends => ?_⟩
  · rw [listed] at starts
    cases starts
    decide
  · rw [listed, List.getLast?_cons_cons, List.getLast?_cons_cons, List.getLast?_cons_cons] at ends
    cases chars : text.toList with
    | nil => exact absurd chars proper.nonempty
    | cons first rest =>
        rw [chars, List.getLast?_cons_cons, ← chars] at ends
        exact proper.last char ends

/-! ## Chains -/

/-- An endpoint has both URLs. -/
structure RpcEndpoint.WellFormed (endpoint : RpcEndpoint) : Prop where
  ws : Proper endpoint.wsUrl
  http : Proper endpoint.httpUrl

/-- A chain has a key, a source and an endpoint. -/
structure ChainRpcConfig.WellFormed (chain : ChainRpcConfig) : Prop where
  key : Proper chain.chainKey
  source : Proper chain.sourceId
  reachable : chain.endpoints ≠ []
  endpoints : ∀ endpoint ∈ chain.endpoints, endpoint.WellFormed

/-- What is collected without an error was made of the elements one by one. -/
theorem forall_mem_of_mapM {α β ε : Type} {make : α → Except ε β} {elements : List α}
    {made : List β} (collected : elements.mapM make = .ok made) {holds : β → Prop}
    (each : ∀ element result, make element = .ok result → holds result) :
    (∀ result ∈ made, holds result) ∧ (elements ≠ [] → made ≠ []) := by
  induction elements generalizing made with
  | nil =>
      cases collected
      exact ⟨nofun, fun absurdly => absurd rfl absurdly⟩
  | cons element rest ih =>
      rw [List.mapM_cons] at collected
      cases first : make element with
      | error failure => rw [first] at collected; cases collected
      | ok result =>
          cases others : rest.mapM make with
          | error failure => rw [first, others] at collected; cases collected
          | ok results =>
              rw [first, others] at collected
              cases collected
              refine ⟨fun made member => ?_, fun _ => List.cons_ne_nil _ _⟩
              rcases List.mem_cons.mp member with rfl | later
              · exact each element _ first
              · exact (ih others).1 made later

theorem wellFormed_parseEndpointUrls {chainKey wsUrl httpUrl : String} {endpoint : RpcEndpoint}
    (parsed : parseEndpointUrls chainKey wsUrl httpUrl = .ok endpoint) : endpoint.WellFormed := by
  unfold parseEndpointUrls at parsed
  split at parsed
  case isTrue => cases parsed
  case isFalse ws =>
    split at parsed
    case isTrue => cases parsed
    case isFalse http =>
      cases parsed
      exact ⟨proper_trimmed (by simpa using ws), proper_trimmed (by simpa using http)⟩

theorem wellFormed_parseEnvChainConfig {chain : EnvChainConfig} {config : ChainRpcConfig}
    (parsed : parseEnvChainConfig chain = .ok config) : config.WellFormed := by
  unfold parseEnvChainConfig at parsed
  dsimp only at parsed
  split at parsed
  case isTrue => cases parsed
  case isFalse named =>
    have key : Proper (trimmed chain.chainKey) := proper_trimmed (by simpa using named)
    have source : Proper (((chain.sourceId.map trimmed).filter fun value => !value.isEmpty).getD
        ("rpc-" ++ trimmed chain.chainKey)) := by
      cases chosen : (chain.sourceId.map trimmed).filter fun value => !value.isEmpty with
      | none => exact proper_prefixed key
      | some value =>
          obtain ⟨found, nonempty⟩ := Option.filter_eq_some_iff.mp chosen
          obtain ⟨raw, -, rfl⟩ := Option.map_eq_some_iff.mp found
          exact proper_trimmed (by simpa using nonempty)
    cases listed : parseChainEndpoints chain (trimmed chain.chainKey) with
    | error failure => rw [listed] at parsed; cases parsed
    | ok endpoints =>
        rw [listed] at parsed
        cases parsed
        unfold parseChainEndpoints at listed
        split at listed
        case isTrue several =>
          obtain ⟨wellFormed, nonempty⟩ :=
            forall_mem_of_mapM listed fun _ _ => wellFormed_parseEndpointUrls
          exact ⟨key, source, nonempty (by simpa using several), wellFormed⟩
        case isFalse =>
          cases single : parseEndpointUrls (trimmed chain.chainKey) (chain.wsUrl.getD "")
            (chain.httpUrl.getD "") with
          | error failure => rw [single] at listed; cases listed
          | ok endpoint =>
              rw [single] at listed
              cases listed
              refine ⟨key, source, List.cons_ne_nil _ _, fun other member => ?_⟩
              cases List.mem_singleton.mp member
              exact wellFormed_parseEndpointUrls single

/-- Chains as they are accepted: there is one, and every one is well formed. -/
def Accepted (chains : List ChainRpcConfig) : Prop :=
  chains ≠ [] ∧ ∀ chain ∈ chains, chain.WellFormed

theorem accepted_parseChainConfigs {surroundings : Surroundings} {raw sourceLabel : String}
    {chains : List ChainRpcConfig}
    (parsed : parseChainConfigs surroundings raw sourceLabel = .ok chains) : Accepted chains := by
  unfold parseChainConfigs at parsed
  cases decoded : decodeChainConfigs surroundings raw sourceLabel with
  | error failure => rw [decoded] at parsed; cases parsed
  | ok envChains =>
      rw [decoded] at parsed
      have nonempty : envChains ≠ [] := by
        rintro rfl
        unfold decodeChainConfigs at decoded
        split at decoded
        case h_1 => cases decoded
        case h_2 =>
          split at decoded
          case isTrue => cases decoded
          case isFalse filled => exact filled (by rw [Except.ok.inj decoded]; rfl)
      obtain ⟨wellFormed, some⟩ :=
        forall_mem_of_mapM parsed fun _ _ => wellFormed_parseEnvChainConfig
      exact ⟨some nonempty, wellFormed⟩

theorem accepted_readChainConfigsFromPath {surroundings : Surroundings} {path : String}
    {chains : List ChainRpcConfig} (read : readChainConfigsFromPath surroundings path = .ok chains) :
    Accepted chains := by
  unfold readChainConfigsFromPath at read
  split at read
  case h_1 => cases read
  case h_2 =>
    split at read
    case h_1 => cases read
    case h_2 parsed =>
      cases read
      exact accepted_parseChainConfigs parsed

theorem accepted_firstDefaultFile {surroundings : Surroundings} {paths : List String}
    {chains : List ChainRpcConfig}
    (read : firstDefaultFile surroundings paths = .ok (some chains)) : Accepted chains := by
  induction paths with
  | nil => cases read
  | cons path rest ih =>
      rw [firstDefaultFile] at read
      split at read
      case h_1 found =>
        cases read
        exact accepted_readChainConfigsFromPath found
      case h_2 => exact ih read
      case h_3 => cases read

theorem accepted_loadChainConfigsFromFile {surroundings : Surroundings}
    {chains : List ChainRpcConfig}
    (read : loadChainConfigsFromFile surroundings = .ok (some chains)) : Accepted chains := by
  unfold loadChainConfigsFromFile at read
  split at read
  case h_1 =>
    split at read
    case h_1 found =>
      cases read
      exact accepted_readChainConfigsFromPath found
    case h_2 => cases read
  case h_2 => exact accepted_firstDefaultFile read

theorem proper_of_decide {text : String} (computed : (!text.toList.isEmpty &&
    text.toList.head?.all (fun char => !isWhitespace char) &&
      text.toList.getLast?.all fun char => !isWhitespace char) = true) : Proper text := by
  simp only [Bool.and_eq_true, Bool.not_eq_true', Option.all_eq_true] at computed
  exact ⟨by simpa using computed.1.1, fun char starts => by simpa using computed.1.2 char starts,
    fun char ends => by simpa using computed.2 char ends⟩

theorem proper_primaryPublicHttpUrl : Proper primaryPublicHttpUrl := proper_of_decide (by decide)

theorem accepted_defaultChains : Accepted defaultChains := by
  refine ⟨List.cons_ne_nil _ _, fun chain member => ?_⟩
  cases List.mem_singleton.mp member
  refine ⟨proper_of_decide (by decide), proper_of_decide (by decide), List.cons_ne_nil _ _, ?_⟩
  intro endpoint listed
  rcases List.mem_cons.mp listed with rfl | later
  · exact ⟨proper_of_decide (by decide), proper_of_decide (by decide)⟩
  · cases List.mem_singleton.mp later
    exact ⟨proper_of_decide (by decide), proper_of_decide (by decide)⟩

theorem Accepted.modifyHead {chains : List ChainRpcConfig} (accepted : Accepted chains)
    {change : ChainRpcConfig → ChainRpcConfig}
    (kept : ∀ chain : ChainRpcConfig, chain.WellFormed → (change chain).WellFormed) :
    Accepted (chains.modifyHead change) := by
  cases chains with
  | nil => exact accepted
  | cons first rest =>
      refine ⟨List.cons_ne_nil _ _, fun chain member => ?_⟩
      rcases List.mem_cons.mp member with rfl | later
      · exact kept first (accepted.2 first List.mem_cons_self)
      · exact accepted.2 chain (List.mem_cons_of_mem _ later)

/-- Proper overrides keep a chain well formed. -/
theorem wellFormed_overrides {sourceId wsUrl httpUrl : Option String} {chain : ChainRpcConfig}
    (wellFormed : chain.WellFormed) (source : ∀ text ∈ sourceId, Proper text)
    (ws : ∀ text ∈ wsUrl, Proper text) (http : ∀ text ∈ httpUrl, Proper text) :
    (overrideSourceId sourceId (overrideEndpoints wsUrl httpUrl chain)).WellFormed := by
  have endpoints : (overrideEndpoints wsUrl httpUrl chain).WellFormed := by
    cases wsUrl with
    | some url =>
        refine ⟨wellFormed.key, wellFormed.source, List.cons_ne_nil _ _, fun endpoint member => ?_⟩
        cases List.mem_singleton.mp member
        refine ⟨ws url rfl, ?_⟩
        cases httpUrl with
        | none => exact proper_primaryPublicHttpUrl
        | some other => exact http other rfl
    | none =>
        cases httpUrl with
        | none => exact wellFormed
        | some url =>
            obtain ⟨key, named, reachable, listed⟩ := wellFormed
            refine ⟨key, named, ?_, ?_⟩
            all_goals
              rcases chain with ⟨_, _, _ | ⟨first, rest⟩, _⟩
            · exact absurd rfl reachable
            · exact List.cons_ne_nil _ _
            · exact absurd rfl reachable
            · intro endpoint member
              rcases List.mem_cons.mp member with rfl | later
              · exact ⟨(listed first List.mem_cons_self).ws, http url rfl⟩
              · exact listed endpoint (List.mem_cons_of_mem _ later)
  refine ⟨endpoints.key, ?_, endpoints.reachable, endpoints.endpoints⟩
  cases sourceId with
  | none => exact endpoints.source
  | some text => exact source text rfl

theorem exists_of_bind {α β ε : Type} {first : Except ε α} {next : α → Except ε β} {result : β}
    (bound : first >>= next = .ok result) : ∃ value, first = .ok value ∧ next value = .ok result := by
  cases first with
  | error failure => cases bound
  | ok value => exact ⟨value, rfl, bound⟩

/-- **Every accepted configuration is well formed**: there is a chain, every chain has a key, a source
and an endpoint, no text of it is empty or padded, and the limits that must not be zero are not. -/
theorem fromEnv_wellFormed {surroundings : Surroundings} {config : LiveRpcConfig}
    (read : fromEnv surroundings = .ok config) :
    Accepted config.chains ∧ 1 ≤ config.maxSeenHashes ∧ 1 ≤ config.batchFetch.batchSize ∧
      1 ≤ config.batchFetch.maxInFlight ∧ 1 ≤ config.batchFetch.retryBackoffMs ∧
      1 ≤ config.batchFetch.flushIntervalMs ∧ 1 ≤ config.silentChainTimeoutSecs := by
  obtain ⟨maxSeenHashes, -, read⟩ := exists_of_bind read
  obtain ⟨batchSize, -, read⟩ := exists_of_bind read
  obtain ⟨maxInFlight, -, read⟩ := exists_of_bind read
  obtain ⟨retryAttempts, -, read⟩ := exists_of_bind read
  obtain ⟨retryBackoffMs, -, read⟩ := exists_of_bind read
  obtain ⟨flushIntervalMs, -, read⟩ := exists_of_bind read
  obtain ⟨silentChainTimeoutSecs, -, read⟩ := exists_of_bind read
  obtain ⟨fileChains, loaded, read⟩ := exists_of_bind read
  obtain ⟨chains, chosen, read⟩ := exists_of_bind read
  cases read
  refine ⟨?_, Nat.le_max_right _ _, Nat.le_max_right _ _, Nat.le_max_right _ _,
    Nat.le_max_right _ _, Nat.le_max_right _ _, Nat.le_max_right _ _⟩
  unfold overrideChains at chosen
  split at chosen
  case h_1 => exact accepted_parseChainConfigs chosen
  case h_2 =>
    cases chosen
    have base : Accepted (fileChains.getD defaultChains) := by
      cases fileChains with
      | none => exact accepted_defaultChains
      | some chains => exact accepted_loadChainConfigsFromFile loaded
    exact base.modifyHead fun chain wellFormed => wellFormed_overrides wellFormed
      (fun _ => proper_readEnvTrimmed) (fun _ => proper_readEnvTrimmed)
      fun _ => proper_readEnvTrimmed

/-- An environment that sets two variables. -/
def sampleSurroundings : Surroundings where
  env
    | "VIZ_API_ETH_WS_URL" => some " wss://node.example "
    | "VIZ_API_RPC_BATCH_SIZE" => some "0"
    | _ => none
  readToString _ := .error .notFound
  decodeJson _ := none
  manifestConfigPath := "../../configs/chain_config.json"

theorem sampleSurroundings_wellFormed : ∃ config, fromEnv sampleSurroundings = .ok config ∧
    Accepted config.chains ∧ 1 ≤ config.batchFetch.batchSize := by
  have accepts : (fromEnv sampleSurroundings).isOk = true := by decide +kernel
  cases read : fromEnv sampleSurroundings with
  | error failure => rw [read] at accepts; cases accepts
  | ok config =>
      obtain ⟨accepted, -, batchSize, -⟩ := fromEnv_wellFormed read
      exact ⟨config, rfl, accepted, batchSize⟩

end Mempulse.LiveRpc.Feed
