import ColumnQuery.Decimal.Layout
import ColumnQuery.Metrics.Basic

/-! # Exposition of metrics

Metrics are written as lines: for each family that has a value, its help, its type and its samples
in the order of their labels. Families stand in the order of their names.
-/

namespace ColumnQuery.Metrics

/-- A character of a label value. -/
def escapeChar : Char → List Char
  | '\\' => ['\\', '\\']
  | '"' => ['\\', '"']
  | '\n' => ['\\', 'n']
  | c => [c]

def labelText (label value : String) : String :=
  label ++ "=\"" ++ String.ofList (value.toList.flatMap escapeChar) ++ "\""

/-- A sample of a family. -/
def sample (name : String) (labels : List String) (value : String) : String :=
  name ++ "\x7b" ++ ",".intercalate labels ++ "\x7d " ++ value

/-- The lines before the samples of a family. -/
def heading (name help kind : String) : List String :=
  [s!"# HELP {name} {help}", s!"# TYPE {name} {kind}"]

def counterLines (metrics : Metrics) (counter : Counter) : List String :=
  match counter.labels metrics with
  | [] => []
  | values =>
    heading counter.name counter.help "counter" ++ values.map fun value =>
      sample counter.name [labelText counter.label value]
        (Decimal.Layout.plain.write (counter.reading metrics value))

/-- The samples of a histogram for an outcome. -/
def histogramSamples (metrics : Metrics) (histogram : Histogram) (outcome : String) :
    List String :=
  let durations := Histogram.durations metrics outcome
  let label := labelText "outcome" outcome
  let bucket (bound : String) (count : Nat) :=
    sample (histogram.name ++ "_bucket") [label, labelText "le" bound] (toString count)
  histogram.bounds.map (fun bound =>
      bucket (Decimal.Layout.plain.write bound) (Histogram.countUpTo bound durations)) ++
    [bucket "+Inf" durations.length,
      sample (histogram.name ++ "_sum") [label]
        (Decimal.Layout.plain.write (Histogram.sum durations)),
      sample (histogram.name ++ "_count") [label] (toString durations.length)]

def histogramLines (metrics : Metrics) (histogram : Histogram) : List String :=
  match Counter.queries.labels metrics with
  | [] => []
  | outcomes =>
    heading histogram.name histogram.help "histogram" ++
      outcomes.flatMap (histogramSamples metrics histogram)

def lines (metrics : Metrics) : List String :=
  metrics.counterLines .queries ++ metrics.histogramLines .queryTime ++
    metrics.counterLines .batches ++ metrics.counterLines .partitions ++
    metrics.counterLines .rows

end ColumnQuery.Metrics
