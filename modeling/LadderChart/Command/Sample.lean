import LadderChart.Data.Dataset

/-!
The data shown when no input is named: twelve trading days with a ladder each.
-/

namespace LadderChart.Command

def sampleTimes : List Nat :=
  [1546300800, 1546387200, 1546473600, 1546560000, 1546819200, 1546905600, 1546992000, 1547078400,
    1547164800, 1547424000, 1547510400, 1547596800]

def sampleLadders : List (List Nat) :=
  [[80, 50, 43],
   [10, 12, 14, 18, 30, 50],
   [70, 90, 13, 10, 12, 13],
   [170, 190, 113, 110, 112, 113],
   [270, 290, 213, 110, 112, 113],
   [80, 50, 43],
   [10, 12, 14, 18, 30, 50],
   [70, 90, 13, 10, 12, 13],
   [170, 190, 113, 110, 112, 113],
   [270, 290, 213, 110, 112, 113],
   [220, 222, 224, 228, 230, 240],
   [270, 290, 213, 210, 212, 213]]

def sampleWeights : List (List Nat) :=
  [[1, 3, 5],
   [7, 9, 5, 6, 7, 8],
   [17, 119, 115, 116, 117, 118],
   [27, 29, 25, 226, 227, 228],
   [17, 19, 15, 216, 227, 288],
   [12, 32, 52],
   [217, 219, 252, 216, 217, 218],
   [17, 19, 15, 16, 17, 18],
   [27, 29, 25, 26, 27, 28],
   [17, 19, 15, 16, 27, 88],
   [17, 19, 15, 16, 17, 18],
   [27, 29, 25, 26, 27, 28]]

def sample : Dataset Float :=
  .dense (sampleTimes.map Float.ofNat) (sampleLadders.map (·.map Float.ofNat))
    (sampleWeights.map (·.map Float.ofNat)) ⟨10.0, 256.0⟩

end LadderChart.Command
