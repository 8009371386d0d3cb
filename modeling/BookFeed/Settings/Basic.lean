import BookFeed.RateLimit.Text
import BookFeed.Settings.LogFormat
import BookFeed.Source.Kind
import BookFeed.Text.Upper
import BookFeed.Throttler.Basic
import BookFeed.Tracker.Settings

/-!
# Settings

The settings of the whole service, read from named texts such as the variables of an environment
(`Settings.read`). A setting without a text has its default.

A text that is no number of its range leaves a numeric setting at its default too. Other settings
are checked, in this order: there must be a trading pair, the rate limits and their share must be
well formed, and the kind of source must be known.

Out of scope: where the texts come from, and how the service is set up with the settings.
-/

namespace BookFeed

/-- The settings of the service. -/
structure Settings where
  exchange : String := "exchange"
  pairs : List String := ["BTC-USDT"]
  source : SourceKind := .channel
  restEndpoint : String := "http://127.0.0.1:8080"
  pollMillis : Nat := 30000
  userStreamUrl : Option String := none
  userStreamSubscribe : Option String := none
  rateLimits : List RateLimit := []
  marginMillis : Nat := 100
  retryMillis : Nat := 100
  /-- the percentage of every rate limit that is to be used -/
  limitsShare : Option Decimal := none
  window : Nat := Synchronizer.defaultCapacity
  backoffSeconds : Nat := 5
  reconnectMillis : Nat := 1000
  healthPort : Nat := 9090
  logFormat : LogFormat := .json

namespace Settings

/-- The texts of settings by name. -/
abbrev Texts := String → Option String

/-- A number below `limit`, blanks around it left out. -/
def number (texts : Texts) (name : String) (limit default : Nat) : Nat :=
  match texts name with
  | some text => (Decimal.readNat? limit (Text.trimChars text.toList)).getD default
  | none => default

/-- The pairs in a list, in upper case and without blanks around them. Empty ones are left out. -/
def readPairs (list : String) : List String :=
  let pairs := (Text.splitChars ',' list.toList).map fun pair =>
    Text.upperChars (Text.trimChars pair)
  (pairs.filter (!·.isEmpty)).map String.ofList

/-- A percentage, blanks around it left out. -/
def readShare (text : String) : Except Halt Decimal :=
  match Decimal.readChars (Text.trimChars text.toList) with
  | .ok share => .ok share
  | .error e =>
    .error (.error (.config ("invalid RATE_LIMITS_SHARE_PCT " ++ text ++ ": " ++ e.message)))

/-- Reads a setting that has a text. -/
def readOptional {α : Type} (read : String → Except Halt α) (text : Option String) :
    Except Halt (Option α) :=
  match text with
  | some text => (read text).map some
  | none => .ok none

def readSource (text : String) : Except Halt SourceKind :=
  match SourceKind.ofName text with
  | .ok kind => .ok kind
  | .error e => .error (.error e)

/-- The address of a stream, where it is not blank. -/
def readUrl (text : Option String) : Option String := text.filter (!Text.isAllBlank ·)

/-- Reads all settings. -/
def read (texts : Texts) : Except Halt Settings := do
  let d : Settings := {}
  let pairs := ((texts "TRADING_PAIRS").map readPairs).getD d.pairs
  if pairs.isEmpty then throw (.error (.missingArgument "trading_pairs"))
  let rateLimits ← readOptional RateLimit.readAll (texts "RATE_LIMITS")
  let limitsShare ← readOptional readShare (texts "RATE_LIMITS_SHARE_PCT")
  let source ← readOptional readSource (texts "DATA_SOURCE")
  return {
    exchange := (texts "EXCHANGE_NAME").getD d.exchange
    pairs
    source := source.getD d.source
    restEndpoint := (texts "REST_ENDPOINT").getD d.restEndpoint
    pollMillis := number texts "SNAPSHOT_POLL_INTERVAL_MS" UInt64.size d.pollMillis
    userStreamUrl := readUrl (texts "USER_STREAM_URL")
    userStreamSubscribe := texts "USER_STREAM_SUBSCRIBE"
    rateLimits := rateLimits.getD d.rateLimits
    marginMillis := number texts "SAFETY_MARGIN_MS" UInt64.size d.marginMillis
    retryMillis := number texts "RETRY_INTERVAL_MS" UInt64.size d.retryMillis
    limitsShare
    window := number texts "PAST_DIFF_WINDOW_SIZE" UInt64.size d.window
    backoffSeconds := number texts "ERROR_BACKOFF_SECS" UInt64.size d.backoffSeconds
    reconnectMillis := number texts "RECONNECT_DELAY_MS" UInt64.size d.reconnectMillis
    healthPort := number texts "HEALTH_PORT" UInt16.size d.healthPort
    logFormat := ((texts "LOG_FORMAT").map LogFormat.ofName).getD d.logFormat }

def throttler (s : Settings) : Throttler.Settings where
  limits := s.rateLimits
  margin := Nanos.ofMillis s.marginMillis
  retry := Nanos.ofMillis s.retryMillis
  share := s.limitsShare

def tracker (s : Settings) : Tracker.Settings where
  window := s.window
  backoff := Nanos.ofSeconds s.backoffSeconds

end Settings

end BookFeed
