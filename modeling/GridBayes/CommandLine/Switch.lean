/-! The switches of the command line: how they are written, what they take and what is said about
them. -/
namespace GridBayes.CommandLine

inductive Switch where
  | help
  | grids
  | batch
  | batchSummary
  | batchThreads
  | version
  | setConst
  | verbose
  | plainText
  | dryRun
  | code
  | output
  | depGraph
  | analyze
  | testCase
  | cornerPlot
deriving Repr, DecidableEq

inductive Group where
  | general
  | model
  | output
deriving Repr, DecidableEq

def Group.title : Group → String
  | general => "options"
  | model => "model options"
  | output => "output options"

def Group.description : Group → String
  | model => "Modify the model, overriding input file settings."
  | _ => ""

namespace Switch

def all : List Switch :=
  [help, grids, batch, batchSummary, batchThreads, version, setConst, verbose, plainText, dryRun,
    code, output, depGraph, analyze, testCase, cornerPlot]

def names : Switch → List String
  | help => ["-h", "--help"]
  | grids => ["-g", "--grids"]
  | batch => ["-b", "--batch"]
  | batchSummary => ["--batch-summary"]
  | batchThreads => ["--batch-threads"]
  | version => ["--version"]
  | setConst => ["-s", "--set-const"]
  | verbose => ["-v", "--verbose"]
  | plainText => ["-p", "--plain-text"]
  | dryRun => ["-d", "--dry-run"]
  | code => ["-c", "--code"]
  | output => ["-o", "--output"]
  | depGraph => ["--dep-graph"]
  | analyze => ["-a", "--analyze", "--analyse"]
  | testCase => ["-t", "--test-case"]
  | cornerPlot => ["--corner-plot"]

def value? : Switch → Option String
  | batch => some "BATCH"
  | batchSummary => some "BATCH_SUMMARY"
  | batchThreads => some "BATCH_THREADS"
  | setConst => some "SET_CONST"
  | output => some "OUTPUT"
  | testCase => some "TEST_CASE"
  | cornerPlot => some "CORNER_PLOT"
  | _ => none

def takesValue (s : Switch) : Bool :=
  s.value?.isSome

def group : Switch → Group
  | help | grids | batch | batchSummary | batchThreads | version => .general
  | setConst => .model
  | _ => .output

def description : Switch → String
  | help => "show this help message and exit"
  | grids => "List available grids, or summarize a specific one, then exit."
  | batch => "Run for a range of constants, pulled from the given csv file."
  | batchSummary => "File to write batch run summary information to as a csv."
  | batchThreads => "Number of threads to run in parallel during a batch run."
  | version => "show program's version number and exit"
  | setConst => "Set a model constant, e.g. '-s a=3'; repeatable."
  | verbose => "Print extra debugging information."
  | plainText => "Do not use ANSI codes for terminal output."
  | dryRun => "Exit just before running the sampler (useful with -a)"
  | code => "Print code upon generation."
  | output => "Set output file, overriding input file setting."
  | depGraph => "Render the deferred variable dependencies with graphviz."
  | analyze => "Print analysis info for the model."
  | testCase =>
    "Tests the forward model and likelihood at the given parameters (comma-separated, no spaces)"
  | cornerPlot => "File to write a corner plot to (not supported for batch runs)."

def spellings : List (String × Switch) :=
  all.flatMap fun s => s.names.map fun n => (n, s)

def ofName? (name : String) : Option Switch :=
  spellings.lookup name

end Switch

end GridBayes.CommandLine
