import GridBayes.Sampler.Fit
import GridBayes.Table

/-! Batch runs: a table gives constants row by row, and the sampler runs once for each row. A row whose
run fails is reported and has no numbers. -/
namespace GridBayes.Fit

variable [EnsembleLibrary]

structure BatchPlan where
  settings : Value
  start : Option (Tensor Float) := none
  input : Value
  terminal : Bool := true
  output : Value := .null
  summaryFile : Value := .null
  workers : Value := .int 1

def nameInFile : Value → Except Fault String
  | .str s => .ok (Text.replaceChar ' ' '_' s)
  | .int _ => .error (.nameNotText "numpy.int64")
  | .bool _ => .error (.nameNotText "numpy.bool")
  | .complex .. => .error (.nameNotText "numpy.complex128")
  | _ => .error (.nameNotText "numpy.float64")

def namedSettings (kind : SamplerKind) : Value → Except Fault (List (String × Value))
  | .table entries => .ok entries
  | v => .error (.badCall ("starlord.samplers." ++ kind.runnerName
      ++ ".run() argument after ** must be a mapping, not " ++ v.typeName))

def fileStart : Value → Except Fault String
  | .str s => .ok (s ++ "_")
  | .list _ => .error (.badCall "can only concatenate list (not \"str\") to list")
  | v => .error (.badCall ("unsupported operand type(s) for +: '" ++ v.typeName ++ "' and 'str'"))

def hasWorkers : Value → Except Fault Bool
  | .int n => .ok (1 < n)
  | .bool _ => .ok false
  | .float x => if x > 1.0 then .error .badArgument else .ok false
  | _ => .error .badArgument

/-- A worker has no workers of its own. -/
def checkWorkers (byWorker : Bool) (settings : List (String × Value)) : FitM Unit := do
  if byWorker && (← current).kind = .ensemble then
    if ← ofExcept (isParallel settings) then throw .nestedWorkers

def runRow (plan : BatchPlan) (byWorker : Bool) (name : Value) : FitM (List Float) := do
  let settings ← ofExcept (namedSettings (← current).kind plan.settings)
  checkWorkers byWorker settings
  run settings plan.start
  let numbers := ((← stats).toRows false).flatten
  if plan.terminal then
    let text ← summary
    say (name.text ++ " " ++ text ++ "\n")
  match plan.output with
  | .null => pure ()
  | v => do
    let start ← ofExcept (fileStart v)
    save (.str (start ++ (← ofExcept (nameInFile name))))
  return numbers

/-- Says what a row is and puts its constants in force. -/
def announce (name : Value) (constants : List (String × Value)) : FitM Unit := do
  say (name.text ++ " " ++ Text.join ", " (constants.map fun (k, v) => k ++ " = " ++ v.text) ++ "\n")
  setConstants constants

/-- Runs one row of the table. A failure is said, with five values for each constant that are no numbers. -/
def batchRow (plan : BatchPlan) (byWorker : Bool) (names : List String) (row : List (String × Value)) :
    FitM (List Float) := do
  let name := (row.lookup "name").getD (.str "")
  announce name (row.filter fun (k, _) => k != "name")
  tryCatch (runRow plan byWorker name) fun e => do
    say ("Error: " ++ name.text ++ " raised exception " ++ e.wording ++ "\n")
    return List.replicate (5 * names.length) (0.0 / 0.0)

def batchRows (plan : BatchPlan) (byWorker : Bool) (names : List String) :
    List (List (String × Value)) → FitM (List (List Float))
  | [] => return []
  | row :: rest => do
    let numbers ← batchRow plan byWorker names row
    return numbers :: (← batchRows plan byWorker names rest)

def byWorkers (rows : FitM (List (List Float))) : FitM (List (List Float)) := do
  let before ← get
  let numbers ← rows
  modify fun f => { before with session := { before.session with store := f.session.store } }
  return numbers

/-! ## The table of results -/

def batchHeading (s : Sampler) : List String :=
  ["name"] ++ s.constantNames ++ (s.code.paramNames ++ s.code.outputNames).flatMap fun p =>
    ["_mean", "_std", "_p16", "_p50", "_p84"].map (p ++ ·)

def fixedComplex (re im : Float) : String :=
  let rest := Decimal.fixedText 6 im
  Decimal.fixedText 6 re ++ (if Text.startsWith "-" rest then rest else "+" ++ rest) ++ "j"

def batchConstant (row : List (String × Value)) (name : String) : Except Fault String :=
  match row.lookup name with
  | none => .error .missingField
  | some (.complex re im) => .ok (fixedComplex re im)
  | some v =>
    match Settings.real v with
    | .ok x => .ok (Decimal.fixedText 6 x)
    | .error _ => .error .badNumberFormat

def batchLine (constants : List String) (row : List (String × Value)) (numbers : List Float) :
    Except Fault String := do
  let given ← constants.mapM (batchConstant row)
  match row.lookup "name" with
  | some (.str name) =>
    return Text.join ", " (name :: given ++ numbers.map (Decimal.fixedText 6))
  | _ => throw .badArgument

def writeSummary (s : Sampler) (file : Value) (rows : List (List (String × Value)))
    (numbers : List (List Float)) : FitM Unit := do
  let lines ← ofExcept ((rows.zip numbers).mapM fun (row, xs) => batchLine s.constantNames row xs)
  let file ← match file with
    | .str file => pure file
    | _ => throw .badArgument
  let f ← get
  let text := Text.join ", " (batchHeading s) ++ "\n" ++ Text.join "\n" lines ++ "\n"
  let store ← ofExcept (f.session.store.write (Path.ofText file) (.text text))
  set { f with session := { f.session with store := store } }

def readTable : Value → FitM Table
  | .str file => do
    match (← get).session.store.content (Path.ofText file) with
    | .ok (.text text) => ofExcept (Table.ofText text)
    | .ok (.archive _) => throw .notAnArchive
    | .error .isFolder => throw .isFolder
    | .error _ => throw .fileMissing
  | .list [] => ofExcept (Table.ofText "")
  | _ => throw .badArgument

def batch (plan : BatchPlan) : FitM (List (List Float)) := do
  let table ← readTable plan.input
  let s ← current
  let wanted := "name" :: s.constantNames
  if table.rows.length == 1 then throw .badArgument
  if !table.names.contains "name" then throw .badUnpacking
  let rows := table.rows.map fun r => (table.entries r).filter fun (k, _) => wanted.contains k
  let numbers ← if ← ofExcept (hasWorkers plan.workers) then byWorkers (batchRows plan true s.constantNames rows)
    else batchRows plan false s.constantNames rows
  match plan.summaryFile with
  | .null => pure ()
  | file => do
    if file == plan.input then throw .overwritesInput
    writeSummary s file rows numbers
  if numbers.any fun xs => xs.length != (numbers.head?.getD []).length then throw .wrongRank
  return numbers

end GridBayes.Fit
