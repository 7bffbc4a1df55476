import DomainRules.Notice

namespace DomainRules

namespace Metric

def all : List Metric :=
  [archiveProbes, archiveDownloads, staleArchives, persistErrors, archiveSize, cacheHits,
    cacheMisses, sweptResults, renderErrors, regexRefusals]

def name : Metric → String
  | .archiveProbes => "archive_probes_total"
  | .archiveDownloads => "archive_downloads_total"
  | .staleArchives => "archive_stale_served_total"
  | .persistErrors => "archive_persist_errors_total"
  | .archiveSize => "archive_size_bytes"
  | .cacheHits => "result_cache_hits_total"
  | .cacheMisses => "result_cache_misses_total"
  | .sweptResults => "result_cache_swept_total"
  | .renderErrors => "ruleset_render_errors_total"
  | .regexRefusals => "regex_refusals_total"

def help : Metric → String
  | .archiveProbes => "Count of upstream archive freshness probes"
  | .archiveDownloads => "Count of full upstream archive downloads"
  | .staleArchives => "Count of stale archives served because the freshness probe failed"
  | .persistErrors => "Count of failed archive snapshot writes"
  | .archiveSize => "Size of the cached upstream archive"
  | .cacheHits => "Count of rendered rulesets served from cache"
  | .cacheMisses => "Count of rendered rulesets that had to be computed"
  | .sweptResults => "Count of expired result cache entries removed by the sweeper"
  | .renderErrors => "Count of failed ruleset renders"
  | .regexRefusals => "Count of regex rules emitted commented out instead of translated"

/-- The name of the label that splits a metric into series, if it has one. -/
def labelName? : Metric → Option String
  | .archiveProbes => some "result"
  | .archiveDownloads => some "result"
  | .cacheHits => some "dialect"
  | .cacheMisses => some "dialect"
  | .renderErrors => some "error"
  | .regexRefusals => some "reason"
  | _ => none

def kindName : Metric → String
  | .archiveSize => "gauge"
  | _ => "counter"

/-- The name of a series: the label value stands in braces. -/
def seriesName (metric : Metric) (label : String) : String :=
  match metric.labelName? with
  | some labelName => metric.name ++ "\x7b" ++ labelName ++ "=\"" ++ label ++ "\"\x7d"
  | none => metric.name

end Metric

structure Sample where
  metric : Metric
  label : String
  value : Nat
  deriving DecidableEq, Repr

/-- The series in order of first change. A metric without a label counts as zero before. -/
structure Metrics where
  samples : List Sample := []
  deriving DecidableEq, Repr

namespace Metrics

/-- Changes the value of one series, which starts at zero. -/
def update (metrics : Metrics) (metric : Metric) (label : String) (f : Nat → Nat) : Metrics :=
  if metrics.samples.any fun s => s.metric == metric && s.label == label then
    { samples := metrics.samples.map fun s =>
        if s.metric == metric && s.label == label then { s with value := f s.value } else s }
  else { samples := metrics.samples ++ [{ metric, label, value := f 0 }] }

def note (metrics : Metrics) : Notice → Metrics
  | .count metric label amount => metrics.update metric label (· + amount)
  | .gauge metric value => metrics.update metric "" fun _ => value
  | _ => metrics

def noteAll (metrics : Metrics) (notices : List Notice) : Metrics := notices.foldl note metrics

def value (metrics : Metrics) (metric : Metric) (label : String) : Nat :=
  match metrics.samples.find? fun s => s.metric == metric && s.label == label with
  | some s => s.value
  | none => 0

/-- The series of one metric. A metric without a label always has its one series. -/
def seriesOf (metrics : Metrics) (metric : Metric) : List Sample :=
  match metric.labelName? with
  | some _ => metrics.samples.filter (·.metric == metric)
  | none => [{ metric, label := "", value := metrics.value metric "" }]

def sampleLine (s : Sample) : String := s.metric.seriesName s.label ++ " " ++ toString s.value

/-- The text for scraping: every metric with its help, its kind and its series. -/
def exposition (metrics : Metrics) : String :=
  let block (metric : Metric) : String :=
    let header := ["# HELP " ++ metric.name ++ " " ++ metric.help,
      "# TYPE " ++ metric.name ++ " " ++ metric.kindName]
    String.intercalate "\n" (header ++ (metrics.seriesOf metric).map sampleLine)
  String.intercalate "\n\n" (Metric.all.map block) ++ "\n"

end Metrics

end DomainRules
