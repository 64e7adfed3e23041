import GridBayes.Storage.Cell

/-! Corner plots as instructions to a plotting back end: the samples to draw and the options to draw
them with. -/
namespace GridBayes

inductive PlotCall where
  | corner (samples : StoredArray) (options : List (String × Value))
  | save (file : Value)
  | close

structure Plotter where
  figures : Bool := false
  corners : Bool := false

namespace Plot

def shade (color : Value) (opacity : Float) : Value :=
  .list [.str "rgba", color, .float opacity]

def ownOptions : List String :=
  ["color", "fill_contours", "plot_density", "hist_kwargs", "data_kwargs", "contourf_kwargs"]

def cornerOptions (given : List (String × Value)) : Except Fault (List (String × Value)) := do
  let option (name : String) (default : Value) := (given.lookup name).getD default
  let color := option "color" (.str "xkcd:cobalt")
  let hist ← Value.updated [("histtype", .str "stepfilled"), ("facecolor", color), ("edgecolor", color),
    ("linewidth", .int 2), ("alpha", .float 0.6)] (option "hist_kwargs" (.table []))
  let contours ← Value.updated [("colors", .list ([0.0, 0.25, 0.5, 0.75, 1.0].map (shade color)))]
    (option "contourf_kwargs" (.table []))
  let points ← Value.updated [("color", color), ("ms", .float 0.5), ("alpha", .float 0.5)]
    (option "data_kwargs" (.table []))
  return [("fill_contours", option "fill_contours" (.bool true)),
    ("plot_density", option "plot_density" (.bool false)), ("hist_kwargs", .table hist),
    ("data_kwargs", .table points), ("contourf_kwargs", .table contours),
    ("show_titles", .bool true)]
    ++ given.filter fun (k, _) => !ownOptions.contains k

def upright (samples : StoredArray) : Except Fault StoredArray :=
  match samples.shape with
  | n :: width :: _ => .ok (if width < n then samples else samples.turned)
  | _ => .error .partOutOfRange

/-- The instructions for a corner plot, saved unless the file is null, or what to say without a back end. -/
def corner (p : Plotter) (samples : StoredArray) (file : Value)
    (given : List (String × Value)) : Except Fault (List PlotCall × String) := do
  if ["posterior", "filename"].any fun k => (given.lookup k).isSome then throw .badArgument
  if !p.figures then return ([], "Couldn't import matplotlib, skipping plotting.\n")
  if !p.corners then return ([], "Couldn't import corner.py, skipping plotting.\n")
  let options ← cornerOptions given
  let samples ← upright samples
  if (given.lookup "show_titles").isSome then throw .badArgument
  let saving := match file with
    | .null => []
    | f => [.save f, .close]
  return (.corner samples options :: saving, "")

end Plot

end GridBayes
