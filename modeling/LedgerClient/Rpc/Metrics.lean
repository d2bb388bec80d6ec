import LedgerClient.Retry.Config
import LedgerClient.Table
import LedgerClient.Text.Decimal

/-!
# `LedgerClient.Rpc.Metrics`: what the service counts

Every body that is answered adds one to one counter, chosen by the
method and the outcome. Besides, there is a gauge of the sessions that
have a client, and a histogram of how long answers took.

The text is that of the usual exposition format: families sorted by
name, each with its help and its type, the samples of a family sorted
by their labels. A family without samples is left out.
-/

set_option autoImplicit false

namespace LedgerClient.Rpc

/-- How the answer to a body came out. -/
inductive Outcome where
  | ok
  | error
  | invalid
deriving DecidableEq, Repr

/-- The name of an outcome. -/
def Outcome.name : Outcome → String
  | ok => "ok"
  | error => "error"
  | invalid => "invalid"

/-- The counters of a service. -/
structure Metrics where
  /-- Answered bodies by method and outcome. -/
  requests : Table (String × Outcome) Nat := []
  /-- How many sessions have a client. -/
  activeSessions : Nat := 0
  /-- How long each answer took. -/
  latencies : List Duration := []
deriving DecidableEq, Repr

namespace Metrics

/-- How often a method came out in a way. -/
def count (m : Metrics) (method : String) (outcome : Outcome) : Nat :=
  (Table.get? (method, outcome) m.requests).getD 0

/-- Counts one more body. -/
def record (m : Metrics) (method : String) (outcome : Outcome) : Metrics :=
  { m with requests :=
      Table.insert (method, outcome) (m.count method outcome + 1) m.requests }

/-- How many bodies were counted, over all counters. -/
def total (m : Metrics) : Nat :=
  m.requests.foldl (fun sum entry => sum + entry.2) 0

/-- Counting a body adds one to its own counter and leaves the others. -/
theorem count_record (m : Metrics) (method other : String) (outcome way : Outcome) :
    (m.record method outcome).count other way =
      m.count other way + if (method, outcome) = (other, way) then 1 else 0 := by
  by_cases h : (method, outcome) = (other, way)
  · cases h
    simp [record, count]
  · simp [record, count, Table.get?_insert_of_ne (Ne.symm h), h]

/-- A sum that starts with one more ends with one more. -/
theorem sum_succ {κ : Type} (table : Table κ Nat) (start : Nat) :
    table.foldl (fun sum entry => sum + entry.2) (start + 1) =
      table.foldl (fun sum entry => sum + entry.2) start + 1 := by
  induction table generalizing start with
  | nil => rfl
  | cons entry rest ih =>
    simp only [List.foldl_cons]
    rw [Nat.add_right_comm, ih]

/-- Adding one to a counter adds one to the sum of all. -/
theorem sum_insert {κ : Type} [DecidableEq κ] (table : Table κ Nat) (key : κ) (start : Nat) :
    (Table.insert key ((Table.get? key table).getD 0 + 1) table).foldl
        (fun sum entry => sum + entry.2) start =
      table.foldl (fun sum entry => sum + entry.2) start + 1 := by
  induction table generalizing start with
  | nil => simp [Table.insert, Table.get?]
  | cons entry rest ih =>
    obtain ⟨k, n⟩ := entry
    by_cases h : k = key
    · simp only [Table.insert, Table.get?, if_pos h, Option.getD_some, List.foldl_cons]
      exact sum_succ rest (start + n)
    · simp only [Table.insert, Table.get?, if_neg h, List.foldl_cons]
      exact ih (start + n)

/-- Counting a body adds one to the number of bodies. -/
theorem total_record (m : Metrics) (method : String) (outcome : Outcome) :
    (m.record method outcome).total = m.total + 1 :=
  sum_insert m.requests (method, outcome) 0

/-- Notes how long an answer took. -/
def observe (m : Metrics) (latency : Duration) : Metrics :=
  { m with latencies := latency :: m.latencies }

/-- The upper bounds of the histogram: as they are written, and in milliseconds. -/
def buckets : List (String × Nat) :=
  [("0.001", 1), ("0.01", 10), ("0.05", 50), ("0.1", 100), ("0.25", 250), ("0.5", 500),
   ("1", 1000), ("2.5", 2500), ("5", 5000), ("10", 10000), ("30", 30000)]

/-- The name of a family. -/
def family (name : String) : String := "hiero_tck_" ++ name

/-- The lines in front of the samples of a family. -/
def heading (name help kind : String) : List String :=
  ["# HELP " ++ family name ++ " " ++ help, "# TYPE " ++ family name ++ " " ++ kind]

/-- The text of a sample. -/
def sample (name labels : String) (value : Nat) : String :=
  let labels := if labels = "" then "" else "\x7b" ++ labels ++ "\x7d"
  family name ++ labels ++ " " ++ Text.Decimal.natural value

/-- A length of time in seconds. -/
def secondsText (d : Duration) : String :=
  Text.Decimal.natural (d / 1000000000) ++ "." ++
    String.ofList (Text.Decimal.padded 9 (d % 1000000000))

/-- The text of the labels of a counter. -/
def labels (method : String) (outcome : Outcome) : String :=
  "method=\"" ++ method ++ "\",outcome=\"" ++ outcome.name ++ "\""

/-- The samples of the histogram. -/
def histogram (m : Metrics) : List String :=
  let name := "rpc_latency_seconds"
  let within (ms : Nat) : Nat := (m.latencies.filter fun l => l ≤ ms * 1000000).length
  buckets.map (fun (bound, ms) =>
      sample (name ++ "_bucket") ("le=\"" ++ bound ++ "\"") (within ms)) ++
    [sample (name ++ "_bucket") "le=\"+Inf\"" m.latencies.length,
     family (name ++ "_sum") ++ " " ++ secondsText (m.latencies.foldl (· + ·) 0),
     sample (name ++ "_count") "" m.latencies.length]

/-- The samples of the counters. -/
def counters (m : Metrics) : List String :=
  let sorted := m.requests.mergeSort fun a b => labels a.1.1 a.1.2 ≤ labels b.1.1 b.1.2
  sorted.map fun ((method, outcome), n) => sample "rpc_requests_total" (labels method outcome) n

/-- The lines of the exposition text. -/
def lines (m : Metrics) : List String :=
  heading "active_sessions" "Sessions with a configured client" "gauge" ++
    [sample "active_sessions" "" m.activeSessions] ++
    heading "rpc_latency_seconds" "JSON-RPC request latency in seconds" "histogram" ++
    m.histogram ++
    (if m.requests = [] then [] else
      heading "rpc_requests_total" "JSON-RPC requests handled" "counter" ++ m.counters)

/-- The exposition text. -/
def text (m : Metrics) : String :=
  String.join (m.lines.map (· ++ "\n"))

end Metrics

end LedgerClient.Rpc
