import RequestMeter.Config.Basic
import RequestMeter.Json.Read
import RequestMeter.Json.Decode

/-! # Loading a configuration

A configuration is a JSON text; whatever it leaves out has its default.
-/
namespace RequestMeter

open Json

def MeterConfig.ofJson? (j : Json) : Option MeterConfig := do
  let get ← j.members? ["cache_capacity", "queue_capacity", "report_interval_ms"]
  let c : MeterConfig := {}
  return {
    cacheCapacity := ← optional c.cacheCapacity count? (get "cache_capacity")
    queueCapacity := ← optional c.queueCapacity count? (get "queue_capacity")
    reportIntervalMs := ← optional c.reportIntervalMs count? (get "report_interval_ms") }

def ServerConfig.ofJson? (j : Json) : Option ServerConfig := do
  let get ← j.members? ["listen_addr", "log_filter"]
  let c : ServerConfig := {}
  let address? (j : Json) : Option SocketAddress := do SocketAddress.read? (← j.text?).toList
  return {
    listenAddress := ← optional c.listenAddress address? (get "listen_addr")
    logFilter := ← optional c.logFilter text? (get "log_filter") }

namespace Config

def ofJson? (j : Json) : Option Config := do
  let get ← j.members? ["metrics", "server"]
  return {
    metrics := ← optional {} MeterConfig.ofJson? (get "metrics")
    server := ← optional {} ServerConfig.ofJson? (get "server") }

def parse (text : String) : Except ConfigError Config :=
  match (Json.parse? text).bind ofJson? with
  | none => .error .parse
  | some c => do
    c.validate
    return c

/-- The configuration in the content of a file, which must be UTF-8. -/
def ofContent (content : Except ReadError ByteArray) : Except ConfigError Config :=
  match content with
  | .error e => .error (.read e)
  | .ok bytes => match String.fromUTF8? bytes with
    | none => .error (.read .invalidData)
    | some text => parse text

/-- The configuration from the file that the environment names, or the default one when it names
none. -/
def load (path : Option String) (content : String → Except ReadError ByteArray) :
    Except ConfigError Config :=
  match path with
  | none => .ok {}
  | some path => if path = "" then .ok {} else ofContent (content path)

end Config

end RequestMeter
