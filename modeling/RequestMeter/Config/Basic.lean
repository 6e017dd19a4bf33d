import RequestMeter.SocketAddress

/-! # Configuration

Settings with their defaults, and the checks that settings must pass.
-/
namespace RequestMeter

structure MeterConfig where
  /-- Records kept for statistics. -/
  cacheCapacity : Nat := 4096
  /-- Events between producers and dispatch. -/
  queueCapacity : Nat := 1024
  reportIntervalMs : Nat := 10000
  deriving DecidableEq, Repr

/-- Whole seconds and the nanoseconds beyond them. -/
def MeterConfig.reportInterval (c : MeterConfig) : Nat × Nat :=
  (c.reportIntervalMs / 1000, c.reportIntervalMs % 1000 * 1000000)

structure ServerConfig where
  listenAddress : SocketAddress := ⟨.v4 [0, 0, 0, 0], 3000⟩
  logFilter : String := "info"
  deriving DecidableEq, Repr

structure Config where
  metrics : MeterConfig := {}
  server : ServerConfig := {}
  deriving DecidableEq, Repr

inductive InvalidSetting where
  | cacheCapacity
  | queueCapacity
  | reportInterval
  deriving DecidableEq, Repr

def InvalidSetting.message : InvalidSetting → String
  | .cacheCapacity => "metrics.cache_capacity must be at least 1"
  | .queueCapacity => "metrics.queue_capacity must be at least 1"
  | .reportInterval => "metrics.report_interval_ms must be positive"

inductive ReadError where
  | notFound
  | isDirectory
  /-- The file is not UTF-8. -/
  | invalidData
  deriving DecidableEq, Repr

inductive ConfigError where
  | read (cause : ReadError)
  /-- The text is not JSON, or not of the right shape. -/
  | parse
  | invalid (setting : InvalidSetting)
  deriving DecidableEq, Repr

namespace Config

/-- The first setting that is not valid, in the order of the fields. -/
def validate (c : Config) : Except ConfigError Unit :=
  if c.metrics.cacheCapacity = 0 then .error (.invalid .cacheCapacity)
  else if c.metrics.queueCapacity = 0 then .error (.invalid .queueCapacity)
  else if c.metrics.reportIntervalMs = 0 then .error (.invalid .reportInterval)
  else .ok ()

end Config

end RequestMeter
