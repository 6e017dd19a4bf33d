import RequestMeter.Report.Basic
import RequestMeter.Report.Writer

/-! # Report sinks

A report goes to a map, to a writer as one line of JSON, or to the log as a summary.
-/
namespace RequestMeter.Report

def utf8 (cs : List Char) : List UInt8 := cs.flatMap String.utf8EncodeChar

/-- A map takes all values of the report and keeps what it held under other keys. -/
def writeMap (r : Report) (m : Table String Binary64) : Table String Binary64 := m.merge r.values

def line (r : Report) : List UInt8 := utf8 r.toJson.write ++ utf8 ['\n']

/-- The pieces in which the line is written: those of the JSON text, and the line break. -/
def pieces (r : Report) : List (List UInt8) := r.toJson.pieces.map utf8 ++ [utf8 ['\n']]

section

variable {ω : Type} [ByteSink ω]

def writeLine (r : Report) (w : ω) : ω × Except String Unit := ByteSink.writeEach w r.pieces

def writeJson (r : Report) (w : ω) : ω × Except MeterError Unit :=
  match r.writeLine w with
  | (w, .error text) => (w, .error (.sink text))
  | (w, .ok ()) =>
    let (w, result) := ByteSink.flush w
    (w, result.mapError .sink)

end

/-- The values of a summary; a missing one is zero. -/
def summary (r : Report) : Summary :=
  let value (key : String) := (r.get? key).getD .zero
  { total := value "Total/count"
    inFlight := value "Total/in_flight"
    evicted := value "Total/evicted"
    count := value "all/count"
    avgMs := value "all/avg"
    p50Ms := value "all/p50"
    p99Ms := value "all/p99"
    errors := value "all/errors" }

def writeLog (r : Report) : Notice := .report r.summary

end RequestMeter.Report
