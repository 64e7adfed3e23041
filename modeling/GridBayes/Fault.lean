import GridBayes.Text.Quoted
import GridBayes.Text.Basic

/-! Why an operation is refused. Each constructor of `Fault` is one cause; `Fault.kind` sorts the
causes into families and `Fault.message` gives the wording of those that have one. -/
namespace GridBayes

inductive FaultKind where
  | assertion
  | value
  | lookup
  | notImplemented
  | type
  | key
  | index
  | attribute
  | overflow
  | zeroDivision
  | fileMissing
  | fileEnds
  | folder
  | notFolder
  | system
  | jsonSyntax
  | tomlSyntax
  | recursion
  | runtime
  | linearAlgebra
  | loading
  | memory
  | archiveFormat
  | arithmeticType
  | axis
deriving Repr, DecidableEq

def showSet (items : List String) : String :=
  if items.isEmpty then "set()"
  else "\x7b" ++ Text.join ", " (items.map Text.quoted) ++ "\x7d"

inductive Fault where
  | notASymbol (text : String)
  | notANumber
  | numberTooLarge
  | unknownDistribution (name var : String)
  | parameterCount (name : String) (expected got : Nat)
  | priorOnLocal (symbol : String)
  | assignedNonLocal (text : String)
  | notAVariable (symbol : String)
  | uninitialized (symbol : String)
  | circularComponents
  | priorsMissing (symbols : List String)
  | priorsUnused (symbols : List String)
  | missingField
  | numberedField
  | badTemplate
  | missingPart
  | partByName
  | partOutOfRange
  | shapesDiffer
  | axisNotIncreasing
  | emptyAxis
  | badDimension
  | badValueCount
  | wrongRank
  | outOfMemory
  | unevenLists
  | badNumberText
  | noSuchAxis
  | noArithmetic
  | fileMissing
  | isFolder
  | notAFolder
  | nameTooLong
  | nulInName
  | fileEnds
  | notAnArchive
  | brokenArchive
  | unreadableEntry
  | gridNotFound (name : String)
  | notAGrid (file : String)
  | notAGridFile (file : String)
  | gridTaken
  | columnMissing (name : String)
  | badJson
  | badToml
  | notAnOutput
  | notAnInput
  | derivedColumn
  | badNumberFormat
  | inputsUnordered
  | namesOverlap (first second : String)
  | badGridName (group name : String)
  | inputNotFlat (name : String)
  | inputNotIncreasing (name : String)
  | outputShape (name got expected : String)
  | outputNotFinite (name : String)
  | notText
  | mappingWithoutInput (name : String)
  | reservedName
  | unknownComposite (index key : String)
  | noMultiplicity (name : String)
  | unresolved (key : String)
  | circularDefinition (key : String)
  | notAKey (text : String)
  | tooDeep
  | badOverride (key : String)
  | unknownOverrideGrid (grid key : String)
  | unknownOverrideName (name key : String)
  | badOverrideType (name value type : String)
  | notALocal
  | badVariableName (name : String)
  | badParameterName (name : String)
  | looksLikeDistribution (spec var : String)
  | notADistribution
  | indexMissing (grid name : String)
  | indexUnexpected (grid name : String)
  | badOutput (name : String)
  | badImports
  | unknownSection (name : String) (grids sections : List String)
  | notLookedUp
  | graphMismatch
  | dividedByZero
  | noHalves
  | complexPower
  | badUnpacking
  | constantMissing (name : String)
  | emptyReduction
  | badRunSetting
  | covarianceShape
  | notPositive
  | noMatrix
  | notSampled
  | nothingToCompare
  | noStats
  | noResults
  | notStarted
  | constantsMissing (names : List String)
  | constantNotFinite (name value : String)
  | abstractSampler
  | noStart
  | overwritesInput
  | unknownSampler (name : String)
  | notResults (file : String)
  | badArgument
  | unknownSetting (owner name : String)
  | notAnArray (type : String)
  | notReal (type : String)
  | notAnIndex (type : String)
  | notWhole
  | finitenessUnknown
  | nameNotText (type : String)
  | noAttribute (type operation : String)
  | unpacked (count : Nat)
  | namesRefused (reason : String)
  | badCall (reason : String)
  | unusablePoint (reason : String)
  | dependentWalkers
  | nestedWorkers
  | tooFewWalkers
  | badPattern
  | moduleMissing (hash : String)
  | moduleAmbiguous (files : List String)
  | moduleFormat (ext : String)
  | moduleUnsupported (file : String)
  | moduleBroken
  | compilationFailed
  | parentMissing
  | unknownGrid (name : String)
  | unknownInput (file : String)
  | noModel
  | badSamplerSection
  | testCaseLength
deriving Repr, DecidableEq

namespace Fault

def kind : Fault → FaultKind
  | notASymbol _ | notAVariable _ | badTemplate | wrongRank | unevenLists | badNumberText
  | notAnArchive | unreadableEntry
  | notAGridFile _ | badNumberFormat | emptyReduction | unknownComposite .. | unresolved _
  | looksLikeDistribution .. | badUnpacking | constantMissing _ | unknownSampler _
  | dependentWalkers | badPattern | unusablePoint _ | unpacked _ | nulInName => .value
  | notANumber | partByName | reservedName | complexPower | badArgument | unknownSetting ..
  | notAnArray _ | notReal _ | notAnIndex _ | notWhole | finitenessUnknown | badCall _ => .type
  | numberTooLarge => .overflow
  | uninitialized _ | circularComponents => .lookup
  | missingField => .key
  | numberedField | partOutOfRange | emptyAxis => .index
  | missingPart | nameNotText _ | noAttribute .. => .attribute
  | fileMissing => .fileMissing
  | isFolder => .folder
  | notAFolder => .notFolder
  | nameTooLong => .system
  | fileEnds => .fileEnds
  | badJson => .jsonSyntax
  | badToml => .tomlSyntax
  | tooDeep => .recursion
  | dividedByZero | noHalves => .zeroDivision
  | tooFewWalkers => .runtime
  | notPositive | noMatrix => .linearAlgebra
  | moduleBroken => .loading
  | outOfMemory => .memory
  | brokenArchive => .archiveFormat
  | noArithmetic => .arithmeticType
  | noSuchAxis => .axis
  | derivedColumn | abstractSampler => .notImplemented
  | _ => .assertion

def message : Fault → Option String
  | notASymbol text => some ("Could not interpret \"" ++ text ++ "\" as a symbol or literal.")
  | unknownDistribution name var =>
    some ("Unrecognized distribution name '" ++ name ++ "' for '" ++ var ++ "'.")
  | parameterCount name expected got =>
    some ("Wrong number of parameters for distribution '" ++ name ++ "', (expected "
      ++ toString expected ++ ", got " ++ toString got ++ ")")
  | priorOnLocal symbol =>
    some ("Bad prior parameter '" ++ symbol ++ "'.  Prior parameters may only use constants or "
      ++ "parameters, not variables.")
  | assignedNonLocal text => some text
  | notAVariable symbol => some ("Invalid symbol " ++ symbol ++ ".")
  | uninitialized symbol => some ("Variable " ++ symbol ++ " is used but never initialized.")
  | circularComponents => some "Circular dependencies in components"
  | priorsMissing symbols => some ("Priors were not set for param(s) " ++ showSet symbols ++ ".")
  | priorsUnused symbols =>
    some ("Priors were set for unrecognized param(s) " ++ showSet symbols ++ ".")
  | shapesDiffer | axisNotIncreasing | badDimension | badValueCount | notAnOutput | notAnInput
  | derivedColumn | notText | notALocal | notADistribution | notLookedUp | graphMismatch
  | badRunSetting | parentMissing | testCaseLength => some ""
  | gridNotFound name => some ("Grid " ++ name ++ " was not found.")
  | notAGrid file => some (file ++ " is not a Starlord grid file.")
  | notAGridFile file => some ("Not a valid grid file: " ++ file)
  | gridTaken => some "Grid already registered"
  | columnMissing name => some ("Bad grid: " ++ name ++ " in _grid_spec but was not found.")
  | inputsUnordered =>
    some "Inputs must be type collections.OrderedDict; the order matters."
  | namesOverlap first second =>
    some (first ++ " and " ++ second ++ " have overlapping names.")
  | badGridName group name =>
    some (group ++ " name \"" ++ name ++ "\" is not valid.")
  | inputNotFlat name => some ("Input \"" ++ name ++ "\" is not 1d as required.")
  | inputNotIncreasing name =>
    some ("Input " ++ name ++ " was not strictly increasing as required.")
  | outputShape name got expected =>
    some ("Output shape of \"" ++ name ++ "\" was " ++ got ++ "; expected " ++ expected ++ ".")
  | outputNotFinite name =>
    some ("Output \"" ++ name ++ "\" is entirely bad values (inf, nan, etc).")
  | unknownComposite index key =>
    some ("Composite name " ++ index ++ " in " ++ key ++ " not recognized.")
  | noMultiplicity name =>
    some ("Multiplicity (number of interpolations) was not specific for key " ++ name)
  | unresolved key => some ("Couldn't resolve grid variable '" ++ key ++ "'.")
  | circularDefinition key =>
    some ("The definition of \x7b" ++ key ++ "\x7d is circular.")
  | notAKey text => some text
  | constantMissing name =>
    some ("Value for constant " ++ name ++ " was not provided on initialization.")
  | badOverride key => some ("Invalid override key: " ++ key ++ ".")
  | unknownOverrideGrid grid key =>
    some ("Unrecognized grid name " ++ grid ++ " in override of " ++ key ++ ".")
  | unknownOverrideName name key =>
    some ("Unrecognized grid var " ++ name ++ " in override of " ++ key ++ ".")
  | badOverrideType name value type =>
    some ("Bad type for override of '" ++ name ++ "': '" ++ value ++ "' (" ++ type ++ ")")
  | badVariableName name => some ("Bad variable name " ++ name ++ ".")
  | badParameterName name => some ("Bad parameter name " ++ name ++ " for prior.")
  | looksLikeDistribution spec var =>
    some ("First argument of '" ++ spec ++ "' for '" ++ var ++ "' looks like a distribution name but isn't recognized.")
  | indexMissing grid name =>
    some ("No index for multi-interpolated grid " ++ grid ++ "." ++ name)
  | indexUnexpected grid name =>
    some ("Unexpected indexing of single-interpolated grid " ++ grid ++ "." ++ name)
  | badOutput name => some ("Invalid output key " ++ name ++ ".")
  | badImports => some "Imports must be a list of strings."
  | unknownSection name grids sections =>
    some ("Model key '" ++ name ++ "' was neither a known grid (dict_keys(["
      ++ Text.join ", " (grids.map Text.quoted) ++ "])) or keyword (["
      ++ Text.join ", " (sections.map Text.quoted) ++ "])")
  | mappingWithoutInput name =>
    some ("Input default \"" ++ name ++ "\" doesn't match any actual inputs.")
  | covarianceShape => some "Proposal covariance must be [ndim x ndim]."
  | notSampled => some "Must run sampler before retrieving samples."
  | nothingToCompare => some "No samples to get PGR statistic for; run the sampler first."
  | noStats => some "Cannot read stats before running the model"
  | noResults => some "Cannot read results before running the model"
  | notStarted => some "Must run sampler before accessing it."
  | constantsMissing names =>
    some ("Missing values for constant(s) " ++ Text.join ", " names)
  | constantNotFinite name value =>
    some ("Invalid value for constant c." ++ name ++ " = " ++ value)
  | abstractSampler => some "Do not use _Sampler directly, pick a subclass."
  | noStart =>
    some ("Failed to generate a valid initial state from 100 draws.  " ++ "Check your prior bounds.")
  | overwritesInput => some "Error: will not output to input csv file (would overwrite!)"
  | notResults file => some ("File " ++ file ++ " does not appear to be a Starlord output.")
  | moduleMissing hash => some ("Could not find module with hash " ++ hash)
  | moduleAmbiguous files =>
    some ("Unexpected files in the cache directory: ["
      ++ Text.join ", " (files.map fun f => "PosixPath(" ++ Text.quoted f ++ ")") ++ "]")
  | moduleFormat ext => some ("Compiled module format " ++ ext ++ " unrecognized.")
  | moduleUnsupported file => some ("Couldn't load the module specs from file " ++ file)
  | compilationFailed => some "Compilation failed (see error message)"
  | unknownGrid name => some ("Grid " ++ name ++ " not found.")
  | unknownInput file => some ("Unrecognized input file " ++ file)
  | noModel => some "No model information was specified."
  | badSamplerSection => some "Sampler settings must be set with either 'run' or 'init'."
  | nestedWorkers => some "daemonic processes are not allowed to have children"
  | namesRefused reason => some reason
  | unknownSampler name => some ("Sampler type '" ++ name ++ "' was not recognized.")
  | _ => none

def remark (f : Fault) : String :=
  match f with
  | noHalves => "float division by zero"
  | noMatrix => "0-dimensional array given. Array must be at least two-dimensional"
  | unknownSetting owner name => owner ++ "() got an unexpected keyword argument '" ++ name ++ "'"
  | notAnArray type => "a bytes-like object is required, not '" ++ type ++ "'"
  | notReal type => "must be real number, not " ++ type
  | notAnIndex type => "'" ++ type ++ "' object cannot be interpreted as an integer"
  | notWhole => "an integer is required"
  | finitenessUnknown =>
    "ufunc 'isfinite' not supported for the input types, and the inputs could not be safely "
      ++ "coerced to any supported types according to the casting rule ''safe''"
  | nameNotText type => "'" ++ type ++ "' object has no attribute 'replace'"
  | noAttribute type operation => "'" ++ type ++ "' object has no attribute '" ++ operation ++ "'"
  | unpacked count =>
    if count < 2 then "not enough values to unpack (expected 2, got " ++ toString count ++ ")"
    else "too many values to unpack (expected 2)"
  | badCall reason => reason
  | unusablePoint reason => reason
  | dependentWalkers =>
    "Initial state has a large condition number. Make sure that your walkers are linearly "
      ++ "independent for the best performance"
  | tooFewWalkers =>
    "It is unadvisable to use a red-blue move with fewer walkers than twice the number of " ++ "dimensions."
  | _ =>
    match f.kind with
    | .zeroDivision => "float division"
    | .linearAlgebra => "Matrix is not positive definite"
    | .index => "index out of range"
    | .fileMissing => "No such file or directory"
    | .folder => "Is a directory"
    | .type => "unexpected argument"
    | .attribute => "no such attribute"
    | _ => "invalid value"

def wording (f : Fault) : String :=
  f.message.getD f.remark

end Fault

end GridBayes
