import GridBayes.Symbol
import GridBayes.Template.Format

/-! Templates of user code: the variables of a text, and the text with a field in the place of
every variable. -/
namespace GridBayes.Template

def variablePieces (source : String) : List (Text.Piece Symbol) :=
  Text.pieces Symbol.variableRule source.toList

def ofSource (source : String) : String :=
  String.ofList (Text.fill (fun s => s.bracketed.toList) (variablePieces source))

def symbols (source : String) : SymbolSet :=
  SymbolSet.ofList (Text.hits (variablePieces source))

def valuesOf (f : Symbol → String) (symbols : SymbolSet) : List (String × String) :=
  symbols.map fun s => (s.ident, f s)

end GridBayes.Template
