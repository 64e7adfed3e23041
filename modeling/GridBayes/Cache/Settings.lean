import GridBayes.Cache

/-! Settings of a clean-up as they stand in descriptions: names with values. A name that is not known is
refused at once; a value of the wrong type is refused when it is looked at, so one that no module is
compared with does no harm. -/
namespace GridBayes.Cache

def nanoseconds (days : Float) : Int :=
  if days.isNaN || days > 1e4 then Int.pow 2 80
  else if days < -1e4 then -Int.pow 2 80
  else (days * 86400e9).toInt64.toInt

def settingNames : List String :=
  ["exclude", "ignore_below", "stale_time"]

def moduleHashes (c : Cache) : List String :=
  (c.files.filter CachedFile.isModule).map CachedFile.hash

def excluded (hashes : List String) (v : Value) : Except Fault (List String) :=
  match v with
  | .str s => .ok (hashes.filter fun h => 1 < (Text.splitWord h s).length)
  | v =>
    match v.parts? with
    | some parts => .ok (parts.filterMap Value.str?)
    | none => if hashes.isEmpty then .ok [] else .error .badArgument

/-- The age for a number of days; other values are refused if something is compared with it. -/
def staleAge (compared : Bool) (v : Value) : Except Fault Int :=
  match v with
  | .int _ | .bool _ | .float _ => .ok (nanoseconds (v.number?.getD 0.0))
  | _ => if compared then .error .badArgument else .ok 0

def keepCount : Value → Except Fault Int
  | .int n => .ok n
  | .bool b => .ok (if b then 1 else 0)
  | .null => .ok 0
  | _ => .error .badArgument

def policyOf (c : Cache) (entries : List (String × Value)) : Except Fault CleanupPolicy := do
  if !entries.all fun (k, _) => settingNames.contains k then throw .badArgument
  let setting (name : String) (default : Value) := (entries.lookup name).getD default
  let exclude ← excluded c.moduleHashes (setting "exclude" (.list []))
  let compared := c.moduleHashes.any fun h => !exclude.contains h
  let staleAfter ← staleAge compared (setting "stale_time" (.int 7))
  return ⟨exclude, ← keepCount (setting "ignore_below" (.int 20)), staleAfter⟩

def cleanupWith (entries : List (String × Value)) : CacheM Unit := do
  cleanup (← ofExcept ((← get).policyOf entries))

end GridBayes.Cache
