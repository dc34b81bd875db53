import GatewayTelemetry.Decimal.Read
import GatewayTelemetry.Prometheus.Response
import GatewayTelemetry.Record.Reported
import GatewayTelemetry.Record.Usage

/-! # Usages from series

Totals and usage series are joined by exporter address; an address found on one side only gets a
zero total or no samples. Of the devices of an address the one with the highest latest receive
rate stands for its network usage.
-/

namespace GatewayTelemetry.Prometheus

def finiteValue? (raw : String) : Option Float :=
  (Decimal.readFloat? raw.toList).filter Float.isFinite

def samplesOf (values : List RawPoint) : List Sample :=
  values.filterMap fun p => (finiteValue? p.2).map fun x => (p.1, x)

def addressOf (labels : Labels) : Option String := labels.find? "instance"

def deviceOf (labels : Labels) : Option String := labels.find? "device"

/-- A raw total as an integer: truncated toward zero and kept within the range of a word. -/
def totalOf (raw : String) : Int64 :=
  match finiteValue? raw with
  | some x => x.toModel.toInt64
  | none => 0

abbrev Joined := Keyed Usage

def usageAt (m : Joined) (address : String) : Usage := (m.find? address).getD ⟨0, []⟩

def addTotal (m : Joined) (s : InstantSample) : Joined :=
  match addressOf s.labels with
  | some a => m.insert a { usageAt m a with total := totalOf s.value.2 }
  | none => m

def addSeries (m : Joined) (s : RangeSeries) : Joined :=
  match addressOf s.labels with
  | some a => m.insert a { usageAt m a with samples := samplesOf s.values }
  | none => m

def joinUsages (totals : List InstantSample) (usages : List RangeSeries) : List (Reported Usage) :=
  (usages.foldl addSeries (totals.foldl addTotal ∅)).entries.map fun e => ⟨e.1, e.2⟩

/-- The last raw value, or zero if that is no finite number. -/
def latestRate (s : RangeSeries) : Float :=
  ((s.values.getLast?).bind fun p => finiteValue? p.2).getD 0

structure Leader where
  device : String
  rate : Float
  series : RangeSeries

def leads (device : String) (rate : Float) : Option Leader → Bool
  | some l => rate > l.rate || (rate == l.rate && device < l.device)
  | none => true

def addDevice (m : Keyed Leader) (s : RangeSeries) : Keyed Leader :=
  match addressOf s.labels, deviceOf s.labels with
  | some a, some d =>
    let rate := latestRate s
    if leads d rate (m.find? a) then m.insert a ⟨d, rate, s⟩ else m
  | _, _ => m

def seriesFor (series : List RangeSeries) (address device : String) : Option RangeSeries :=
  series.find? fun s => addressOf s.labels == some address && deviceOf s.labels == some device

def joinNetwork (received sent : List RangeSeries) : List (Reported NetworkUsage) :=
  (received.foldl addDevice ∅).entries.map fun e =>
    let sentSamples := ((seriesFor sent e.1 e.2.device).map fun s => samplesOf s.values).getD []
    ⟨e.1, ⟨e.2.device, samplesOf e.2.series.values, sentSamples⟩⟩

end GatewayTelemetry.Prometheus
