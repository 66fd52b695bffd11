import LadderChart.Engine.Basic
import LadderChart.Plugin.Band
import LadderChart.Plugin.Ladder

/-!
The standard chart: the column highlight, then the heat ladder. Only the highlight remembers
anything.
-/

namespace LadderChart
variable {σ α : Type} [Scalar α]

def standardPlugins (slot : Slot σ Band) : List (Plugin σ α) :=
  [BandLook.standard.plugin slot, LadderStyle.standard.plugin LadderStyle.standardId]

def Config.standard (o : Options α) : Config Band α := ⟨o, standardPlugins .whole, .fresh⟩

end LadderChart
