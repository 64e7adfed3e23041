import GridBayes.Fault
import GridBayes.Text.Case
import GridBayes.Value

/-! The distributions that a model may name. Ten families have their own density and quantile
functions; six presets stand for a family with given parameters. -/
namespace GridBayes

inductive Family where
  | normal
  | uniform
  | beta
  | gamma
  | exponential
  | truncPower
  | truncNormal
  | truncExponential
  | chabrier
  | binorm
deriving Repr, DecidableEq

def Family.name : Family → String
  | normal => "normal"
  | uniform => "uniform"
  | beta => "beta"
  | gamma => "gamma"
  | exponential => "exponential"
  | truncPower => "trunc_power"
  | truncNormal => "trunc_normal"
  | truncExponential => "trunc_exponential"
  | chabrier => "chabrier"
  | binorm => "binorm"

def Family.arity : Family → Nat
  | normal | uniform | beta | gamma => 2
  | exponential => 1
  | truncPower | truncExponential => 3
  | truncNormal | chabrier => 4
  | binorm => 5

inductive Preset where
  | family (f : Family)
  | chabrierDisk
  | chabrierGlobular
  | chabrierSpheroid
  | casagrandeDisk
  | apogeeAlpha
  | galahAlpha
deriving Repr, DecidableEq

namespace Preset

def name : Preset → String
  | family f => f.name
  | chabrierDisk => "chabrier_disk"
  | chabrierGlobular => "chabrier_globular"
  | chabrierSpheroid => "chabrier_spheroid"
  | casagrandeDisk => "casagrande_disk"
  | apogeeAlpha => "apogee_dr17_afe"
  | galahAlpha => "galah_dr4_afe"

def arity : Preset → Nat
  | family f => f.arity
  | chabrierDisk | chabrierGlobular | chabrierSpheroid | casagrandeDisk => 0
  | apogeeAlpha | galahAlpha => 1

def all : List Preset :=
  [family .normal, family .uniform, family .beta, family .gamma, family .exponential,
   family .truncPower, family .truncNormal, family .truncExponential, family .chabrier,
   chabrierDisk, chabrierGlobular, chabrierSpheroid, family .binorm, casagrandeDisk, apogeeAlpha,
   galahAlpha]

def ofName? (name : String) : Option Preset :=
  all.find? fun p => p.name == name

def base : Preset → Family
  | family f => f
  | chabrierDisk | chabrierGlobular | chabrierSpheroid => .chabrier
  | casagrandeDisk | apogeeAlpha => .binorm
  | galahAlpha => .normal

def added : Preset → List Value
  | chabrierDisk => [.float 0.0, .float (-1.10237), .float 0.69, .float 5.295945]
  | chabrierGlobular => [.float (-0.04575749), .float (-0.48148), .float 0.34, .float 5.295945]
  | chabrierSpheroid => [.float (-0.15490195), .float (-0.65757), .float 0.33, .float 5.295945]
  | _ => []

/-- The parameters of the family, given those after the preset's name. The abundance presets depend on the
metallicity `x`. -/
def parameters (p : Preset) (given : List Value) : List Value :=
  let x := (given.head?.map Value.text).getD ""
  match p with
  | casagrandeDisk => [.float 0.8, .float 0.016, .float (-0.15), .float 0.15, .float 0.22]
  | apogeeAlpha =>
    [.str ("0.7693 - 0.571 * math.exp(-(" ++ x ++ " + 0.8137)**2 / 0.10369458)"),
     .str ("-.0052 + .286 * smootherstep(" ++ x ++ ", 0.7, -2.1993)"),
     .str ("-.0052 + .286 * smootherstep(" ++ x ++ ", 0.6189, -0.7542)"),
     .str ("0.024893 + 0.01672 * smootherstep(" ++ x ++ ", 0.5, -2.)"),
     .str ("0.024893 + 0.01672 * smootherstep(" ++ x ++ ", 0.5, -2.)")]
  | galahAlpha =>
    [.str ("math.fmin(0.0305 - 0.2862*" ++ x ++ " + 0.186*" ++ x ++ "*" ++ x ++ ", 0.3987)"),
     .str ("0.0378 + 0.02667 * smootherstep(" ++ x ++ ", 0.3543, -1.0635)")]
  | _ => given ++ p.added

end Preset

end GridBayes
