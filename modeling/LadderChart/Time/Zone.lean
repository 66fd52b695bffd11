import LadderChart.Fault

/-!
Time zones of labels: universal time, a fixed offset in minutes, or a place of a zone database. The
database itself stays outside. Of a place there is its name and how far ahead its clocks are at each
instant, and of the database the search for a name; names and clocks may be any. All that is asked
of it is `Atlas.Lawful`: a place has a name that finds it.
-/

namespace LadderChart

structure Place where
  name : String
  /-- Seconds by which the clocks are ahead of universal time, instants being seconds too. -/
  ahead : Int → Int

class Atlas where
  place? : String → Option Place

structure Atlas.Lawful [Atlas] : Prop where
  found : ∀ name p, place? name = some p → place? p.name = some p

inductive Zone where
  | utc
  | fixed (minutes : Int16)
  | place (p : Place)

namespace Zone

/-- A zone of places in the atlas at hand. -/
def Listed [Atlas] : Zone → Prop
  | place p => ∃ name, Atlas.place? name = some p
  | _ => True

/-- Places are told apart by their names. -/
def agrees : Zone → Zone → Bool
  | utc, utc => true
  | fixed m, fixed n => m == n
  | place p, place q => p.name == q.name
  | _, _ => false

theorem agrees_self (z : Zone) : z.agrees z = true := by
  cases z <;> simp [agrees]

/-- An offset is at most fourteen hours. -/
def check : Zone → Check
  | fixed minutes => refuseIf (decide (840 < minutes.toInt.natAbs)) .zoneOffset
  | _ => .ok ()

def offset (zone : Zone) (seconds : Int) : Int :=
  match zone with
  | utc => 0
  | fixed minutes => minutes.toInt * 60
  | place p => p.ahead seconds

end Zone
end LadderChart
