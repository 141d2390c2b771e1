/-
  EventCalendar.Zone.Region

  The regions whose clocks are known, by the name of their largest city, and
  the rule that each of them keeps.
-/

import EventCalendar.Zone.Rule

namespace EventCalendar.Zone

/-! ## Regions -/

/-- A region with one clock. -/
inductive Region where
  | anchorage
  | chicago
  | denver
  | losAngeles
  | newYork
  | phoenix
  | stJohns
  | kolkata
  | shanghai
  | singapore
  | tokyo
  | lordHowe
  | sydney
  | gmtMinusFive
  | berlin
  | paris
  | budapest
  | warsaw
  | bucharest
  | helsinki
  | chisinau
  | london
  | moscow
  | auckland
  | honolulu
  deriving DecidableEq, Repr

namespace Region

/-- Every region. -/
def all : List Region :=
  [.anchorage, .chicago, .denver, .losAngeles, .newYork, .phoenix, .stJohns, .kolkata,
   .shanghai, .singapore, .tokyo, .lordHowe, .sydney, .gmtMinusFive, .berlin, .paris,
   .budapest, .warsaw, .bucharest, .helsinki, .chisinau, .london, .moscow, .auckland,
   .honolulu]

theorem mem_all (r : Region) : r ∈ all := by
  cases r <;> decide

/-- The name of a region: continent and city. -/
def name : Region → String
  | .anchorage => "America/Anchorage"
  | .chicago => "America/Chicago"
  | .denver => "America/Denver"
  | .losAngeles => "America/Los_Angeles"
  | .newYork => "America/New_York"
  | .phoenix => "America/Phoenix"
  | .stJohns => "America/St_Johns"
  | .kolkata => "Asia/Kolkata"
  | .shanghai => "Asia/Shanghai"
  | .singapore => "Asia/Singapore"
  | .tokyo => "Asia/Tokyo"
  | .lordHowe => "Australia/Lord_Howe"
  | .sydney => "Australia/Sydney"
  | .gmtMinusFive => "Etc/GMT+5"
  | .berlin => "Europe/Berlin"
  | .paris => "Europe/Paris"
  | .budapest => "Europe/Budapest"
  | .warsaw => "Europe/Warsaw"
  | .bucharest => "Europe/Bucharest"
  | .helsinki => "Europe/Helsinki"
  | .chisinau => "Europe/Chisinau"
  | .london => "Europe/London"
  | .moscow => "Europe/Moscow"
  | .auckland => "Pacific/Auckland"
  | .honolulu => "Pacific/Honolulu"

/-- The region with a name. -/
def ofName? (s : String) : Option Region :=
  all.find? (·.name == s)

/-! ## Rules -/

/-- Summer time from the second Sunday of March to the first Sunday of November. -/
def americanSummer : Summer := ⟨60, ⟨3, 2, 120⟩, ⟨11, 1, 120⟩⟩

/-- Summer time from the last Sunday of March to the last Sunday of October, changed everywhere
    at once, `minutes` after midnight of standard time. -/
def europeanSummer (minutes : Nat) : Summer := ⟨60, ⟨3, 5, minutes⟩, ⟨10, 5, minutes + 60⟩⟩

/-- Summer time from the first Sunday of October to the first Sunday of April. -/
def australianSummer : Summer := ⟨60, ⟨10, 1, 120⟩, ⟨4, 1, 180⟩⟩

/-- Summer time of half an hour from the first Sunday of October to the first Sunday of April. -/
def lordHoweSummer : Summer := ⟨30, ⟨10, 1, 120⟩, ⟨4, 1, 120⟩⟩

/-- Summer time from the last Sunday of September to the first Sunday of April. -/
def newZealandSummer : Summer := ⟨60, ⟨9, 5, 120⟩, ⟨4, 1, 180⟩⟩

/-- The rule that a region keeps. -/
def rule : Region → Rule
  | .anchorage => ⟨-540, some americanSummer⟩
  | .chicago => ⟨-360, some americanSummer⟩
  | .denver => ⟨-420, some americanSummer⟩
  | .losAngeles => ⟨-480, some americanSummer⟩
  | .newYork => ⟨-300, some americanSummer⟩
  | .phoenix => ⟨-420, none⟩
  | .stJohns => ⟨-210, some americanSummer⟩
  | .kolkata => ⟨330, none⟩
  | .shanghai => ⟨480, none⟩
  | .singapore => ⟨480, none⟩
  | .tokyo => ⟨540, none⟩
  | .lordHowe => ⟨630, some lordHoweSummer⟩
  | .sydney => ⟨600, some australianSummer⟩
  | .gmtMinusFive => ⟨-300, none⟩
  | .berlin => ⟨60, some (europeanSummer 120)⟩
  | .paris => ⟨60, some (europeanSummer 120)⟩
  | .budapest => ⟨60, some (europeanSummer 120)⟩
  | .warsaw => ⟨60, some (europeanSummer 120)⟩
  | .bucharest => ⟨120, some (europeanSummer 180)⟩
  | .helsinki => ⟨120, some (europeanSummer 180)⟩
  | .chisinau => ⟨120, some (europeanSummer 180)⟩
  | .london => ⟨0, some (europeanSummer 60)⟩
  | .moscow => ⟨180, none⟩
  | .auckland => ⟨720, some newZealandSummer⟩
  | .honolulu => ⟨-600, none⟩

/-- Summer time is at most two hours ahead. -/
theorem ahead_le (r : Region) : ∀ s ∈ r.rule.summer, s.ahead ≤ 120 := by
  cases r <;> decide

/-- Standard time is at most half a day away from universal time. -/
theorem natAbs_standard_le (r : Region) : r.rule.standard.natAbs ≤ 720 := by
  cases r <;> decide

/-- The offset of a region lies between standard time and two hours more. -/
theorem offset_bounds (r : Region) (w : Time.Wall) (later : Bool) :
    (-720 ≤ r.rule.standard ∧ r.rule.standard ≤ 720) ∧
      r.rule.standard ≤ r.rule.offset w later ∧
      r.rule.offset w later ≤ r.rule.standard + 120 := by
  have hstandard := r.natAbs_standard_le
  refine ⟨by omega, ?_⟩
  rcases r.rule.offset_eq w later with h | ⟨s, hs, h⟩
  · omega
  · have hahead := r.ahead_le s hs
    omega

end Region

end EventCalendar.Zone
