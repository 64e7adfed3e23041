import GridBayes.Cache.Settings
import GridBayes.Grid.Restructure
import GridBayes.Main
import GridBayes.Proofs.PriorDensity
import GridBayes.Proofs.Substitution
import GridBayes.Proofs.LocalUse
import GridBayes.Proofs.DescriptionLeft
import GridBayes.Proofs.CopyTemplates
import GridBayes.Proofs.GraphNodes
import GridBayes.Proofs.DerivedMentions
import GridBayes.Proofs.KeyNames
import GridBayes.Proofs.GridConstants
import GridBayes.Proofs.ExactEmission
import GridBayes.Proofs.BatchTable
import GridBayes.Proofs.SavedPosterior
import GridBayes.Proofs.GridRegistry
import GridBayes.Proofs.LeastOrder
import GridBayes.Proofs.GridNodes
import GridBayes.Proofs.TruncatedNormal
import GridBayes.Proofs.InitialStates
import GridBayes.Proofs.TruncatedExponential
import GridBayes.Proofs.SmoothStep
import GridBayes.Proofs.CacheCleanup
import GridBayes.Proofs.Thinning
import GridBayes.Proofs.HighlightedText
import GridBayes.Proofs.MassFunction
import GridBayes.Proofs.MixtureQuantile
