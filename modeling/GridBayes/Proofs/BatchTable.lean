import GridBayes.Proofs.FinishedRun
import GridBayes.Sampler.HalvedEnsemble

/-! The table of a batch run. A row whose run comes to its end has five numbers for each column of its samples; a row
whose run fails has five for each constant, so that the rows of a table are of one length only by chance. -/
namespace GridBayes
open Operation List

namespace Fit

section

variable [EnsembleLibrary] {α : Type} {f g : Fit}

def nameOf (row : List (String × Value)) : Value :=
  (row.lookup "name").getD (.str "")

end

/-- One parameter, no output and no constant. -/
def bare : Sampler where
  kind := .builtin
  code := { (Model.impossible : Model Float).code with paramNames := ["x"] }
  source := .seeded 0

end Fit

end GridBayes
