import LadderChart.Time.Calendar
import LadderChart.Time.Zone

/-!
An atlas of six places, for runs. It has every change of their clocks in the zone database, whose
own tables end with the year 2099: the mean solar time that clocks showed at first, then a standard
time and the spans in which clocks were an hour further ahead, or two hours where spans overlap. The
other places of the database are left out. What is proved of places is proved of any atlas, and this
one serves as an example.
-/

namespace LadderChart

structure Clocks where
  name : String
  /-- Ends of what came before standard time, and seconds ahead until then. -/
  early : List (Int × Int)
  standard : Int
  /-- Spans of summer time, in hours since 1970. -/
  summers : List (Int × Int)
  yearly : Int → Option (Int × Int)

namespace Clocks
open Calendar

def isWithin (hour : Int) (span : Int × Int) : Bool := span.1 ≤ hour && hour < span.2

def ahead (c : Clocks) (seconds : Int) : Int :=
  match c.early.find? fun old => seconds < old.1 with
  | some old => old.2
  | none =>
      let year := (Moment.ofSeconds seconds).date.year
      let summers := c.summers ++ (c.yearly year).toList
      c.standard + 3600 * (summers.countP (isWithin (seconds / 3600)))

def place (c : Clocks) : Place := ⟨c.name, c.ahead⟩

/-- From the last Sunday of March to the last Sunday of October, at one o'clock universal time. -/
def european (year : Int) : Option (Int × Int) :=
  if 1996 ≤ year ∧ year ≤ 2099 then
    some (lastSunday year 3 * 24 + 1, lastSunday year 10 * 24 + 1)
  else none

/-- From the second Sunday of March to the first Sunday of November, at two o'clock in New York. -/
def american (year : Int) : Option (Int × Int) :=
  if 2007 ≤ year ∧ year ≤ 2099 then
    some ((firstSunday year 3 + 7) * 24 + 7, firstSunday year 11 * 24 + 6)
  else none

def utc : Clocks := ⟨"UTC", [], 0, [], fun _ => none⟩

def tokyo : Clocks where
  name := "Asia/Tokyo"
  early := [(-2587712400, 33539)]
  standard := 32400
  summers :=
    [(-189945, -186753), (-181881, -178017), (-172305, -169281), (-163569, -160545)]
  yearly _ := none

/-- Standard time was interrupted twice in the war, for clocks an hour ahead of it. -/
def kolkata : Clocks where
  name := "Asia/Kolkata"
  early :=
    [(-3645237208, 21208), (-3155694800, 21200), (-2019705670, 19270), (-891581400, 19800),
      (-872058600, 23400), (-862637400, 19800), (-764145000, 23400)]
  standard := 19800
  summers := []
  yearly _ := none

def london : Clocks where
  name := "Europe/London"
  early := [(-3852662325, -75)]
  standard := 0
  summers :=
    [(-469990, -466798), (-462262, -458374), (-453862, -449302), (-444958, -440566),
      (-436222, -431158), (-427318, -422926), (-418750, -414046), (-409342, -405814),
      (-400774, -396910), (-391870, -387838), (-383134, -379102), (-374566, -370366),
      (-365494, -361462), (-356758, -352726), (-348190, -343990), (-339286, -335254),
      (-330550, -326518), (-321982, -317614), (-312910, -308878), (-304342, -300142),
      (-295438, -291406), (-286702, -282670), (-278134, -273934), (-269230, -264022),
      (-261670, -212446), (-251255, -248903), (-243191, -240167), (-234455, -231263),
      (-225719, -221687), (-216959, -214463), (-207910, -203710), (-199846, -194302),
      (-199175, -196319), (-191110, -185566), (-181870, -176830), (-172798, -168262),
      (-164062, -159526), (-155158, -150622), (-146422, -142390), (-137854, -133654),
      (-128950, -124918), (-120046, -116014), (-111478, -107278), (-102574, -98542), (-93838, -89806),
      (-85270, -81070), (-76870, -71662), (-68134, -62926), (-59230, -54190), (-50662, -45454),
      (-41926, -36718), (-33190, -27982), (-24454, -19078), (-16390, 16034), (19394, 24770),
      (28130, 33506), (36866, 42242), (45602, 50978), (54506, 59714), (63242, 68450), (71978, 77354),
      (80714, 86090), (89450, 94826), (98521, 103561), (107257, 112297), (115993, 121033),
      (124729, 129937), (133633, 138673), (142369, 147409), (151105, 156145), (159841, 164881),
      (168577, 173785), (177313, 182521), (186217, 191257), (194953, 199993), (203689, 208729),
      (212425, 217465), (221161, 226201)]
  yearly := european

def berlin : Clocks where
  name := "Europe/Berlin"
  early := [(-2422054408, 3208)]
  standard := 3600
  summers :=
    [(-470474, -466801), (-462071, -458375), (-453335, -449639), (-260807, -238127),
      (-234599, -230063), (-225695, -221327), (-216959, -211439), (-215712, -212760),
      (-207911, -203687), (-199342, -194975), (-198503, -197328), (-190271, -186239),
      (-181703, -177503), (89953, 94153), (98521, 102889), (107257, 111625), (115993, 120361),
      (124729, 129265), (133633, 138001), (142369, 146737), (151105, 155473), (159841, 164209),
      (168577, 172945), (177313, 181849), (186217, 190585), (194953, 199321), (203689, 208057),
      (212425, 216793), (221161, 225529)]
  yearly := european

def newYork : Clocks where
  name := "America/New_York"
  early := [(-2717650800, -17762)]
  standard := -18000
  summers :=
    [(-453689, -448650), (-444953, -439914), (-436217, -431010), (-426809, -423114),
      (-417905, -414378), (-409169, -405474), (-400433, -396738), (-391697, -388002),
      (-382961, -379266), (-374225, -370530), (-365321, -361626), (-356585, -352890),
      (-347849, -344154), (-339113, -335418), (-330377, -326682), (-321473, -317946),
      (-312737, -309042), (-304001, -300306), (-295265, -291570), (-286529, -282834),
      (-277793, -274098), (-268889, -265362), (-260153, -256458), (-251417, -247722),
      (-244505, -212610), (-207569, -203874), (-198833, -195138), (-190097, -186402),
      (-181361, -177666), (-172457, -168930), (-163721, -160026), (-154985, -151290),
      (-146249, -142554), (-137513, -133818), (-128777, -124242), (-119873, -115506),
      (-111137, -106770), (-102401, -98034), (-93665, -89298), (-84929, -80394), (-76025, -71658),
      (-67289, -62922), (-58553, -54186), (-49817, -45450), (-41081, -36546), (-32345, -27810),
      (-23441, -19074), (-14705, -10338), (-5969, -1602), (2767, 7134), (11503, 16038),
      (20407, 24774), (29143, 33510), (35191, 42246), (45103, 50982), (55351, 59886), (64087, 68622),
      (72991, 77358), (81727, 86094), (90463, 94830), (99199, 103566), (107935, 112470),
      (116671, 121206), (125575, 129942), (134311, 138678), (143047, 147414), (151279, 156150),
      (160015, 165054), (168751, 173790), (177487, 182526), (186391, 191262), (195127, 199998),
      (203863, 208902), (212599, 217638), (221335, 226374), (230239, 235110), (238975, 243846),
      (247711, 252582), (256447, 261486), (265183, 270222), (273919, 278958), (282823, 287694),
      (291559, 296430), (300295, 305334), (309031, 314070), (317767, 322806)]
  yearly := american

def all : List Clocks := [utc, tokyo, kolkata, london, berlin, newYork]

end Clocks

instance Atlas.six : Atlas where
  place? name := (Clocks.all.find? fun clocks => clocks.name == name).map Clocks.place

theorem Atlas.six_lawful : Atlas.Lawful where
  found name p listed := by
    obtain ⟨clocks, found, rfl⟩ := Option.map_eq_some_iff.mp listed
    have same := List.find?_some found
    rw [beq_iff_eq] at same
    change Atlas.six.place? clocks.name = _
    rw [same]
    exact listed

end LadderChart
