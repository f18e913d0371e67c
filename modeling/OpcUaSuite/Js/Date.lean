import OpcUaSuite.Js.Value
import OpcUaSuite.Lib.Calendar

/-!
# The ISO text of a date

`Date.prototype.toISOString` and its inverse: a time value counts the
milliseconds from 1970-01-01, and its text has a fixed width for the years 0 to
9999 and another for all other years.
-/

namespace OpcUaSuite.Js

def msPerDay : Int := 86400000

/-- The year of an ISO text, of four digits or of six with a sign. -/
def isoYear (year : Int) : JsString :=
  if 0 ≤ year ∧ year ≤ 9999 then padded 4 year.toNat
  else if year < 0 then 45 :: padded 6 year.natAbs
  else 43 :: padded 6 year.natAbs

/-- `HH:mm:ss.sss` -/
def isoTimeOfDay (ms : Nat) : JsString :=
  padded 2 (ms / 3600000) ++ 58 :: padded 2 (ms / 60000 % 60) ++ 58 :: padded 2 (ms / 1000 % 60) ++
    46 :: padded 3 (ms % 1000)

/-- `toISOString` of a time value. -/
def isoText (time : Int) : JsString :=
  let date := Calendar.civilOfDays (time / msPerDay)
  isoYear date.year ++ 45 :: padded 2 date.month.toNat ++ 45 :: padded 2 date.day.toNat ++
    84 :: isoTimeOfDay (time % msPerDay).toNat ++ [90]

/-- The largest time value of a date. -/
def maxTime : Nat := 8640000000000000

/-! ## Reading a text back -/

/-- The number in a field of a text. -/
def fieldAt (start width : Nat) (s : JsString) : Nat :=
  ((digits ((s.drop start).take width)).map ofDigits).getD 0

def yearOfText : JsString → Int
  | 45 :: s => -(fieldAt 0 6 s : Int)
  | 43 :: s => fieldAt 0 6 s
  | s => fieldAt 0 4 s

/-- The time value whose text this may be, read from the places of its fields. -/
def timeAt (s : JsString) : Int :=
  let rest := s.drop (s.length - 20)
  let days := Calendar.daysOfCivil
    ⟨yearOfText (s.take (s.length - 20)), fieldAt 1 2 rest, fieldAt 4 2 rest⟩
  days * msPerDay + fieldAt 7 2 rest * 3600000 + fieldAt 10 2 rest * 60000 +
    fieldAt 13 2 rest * 1000 + fieldAt 16 3 rest

/-- The time value of a text that `toISOString` prints. -/
def isoTime? (s : JsString) : Option Int :=
  if isoText (timeAt s) = s ∧ (timeAt s).natAbs ≤ maxTime then some (timeAt s) else none

def Host.timeOfText (host : Host) (s : JsString) : Option Int :=
  match isoTime? s with
  | some time => some time
  | none => host.timeOf (.str s)

/-- The value of `new Date(v)`. -/
def Host.newDate (host : Host) : JsValue → JsValue
  | .str s => .date (host.timeOfText s)
  | .num d =>
      if d.isFinite && decide (d.trunc.natAbs ≤ maxTime) then .date (some d.trunc) else .date none
  | .date time => .date time
  | v => .date (host.timeOf v)

theorem fieldAt_padded {start width n : Nat} {s text : JsString} (t : JsString)
    (htext : text = s ++ (padded width n ++ t)) (hs : s.length = start) (h : n < 10 ^ width) :
    fieldAt start width text = n := by
  obtain ⟨ds, hds, hvalue⟩ := digits_padded width n
  rw [fieldAt, htext, ← hs, List.drop_left, List.take_left' (length_padded width n), hds,
    Option.map_some, hvalue, Nat.mod_eq_of_lt h]
  rfl

theorem yearOfText_isoYear {year : Int} (h : year.natAbs < 10 ^ 6) :
    yearOfText (isoYear year) = year := by
  have hfield : ∀ {width n : Nat}, n < 10 ^ width → fieldAt 0 width (padded width n) = n :=
    fun hn => fieldAt_padded [] (by simp) (List.length_nil) hn
  unfold isoYear
  split
  next hfour =>
    have hdigit : ∀ n : Nat, 45 ≠ UInt16.ofNat (48 + n % 10) ∧ 43 ≠ UInt16.ofNat (48 + n % 10) := by
      intro n
      have hall : ∀ d < 10, 45 ≠ UInt16.ofNat (48 + d) ∧ 43 ≠ UInt16.ofNat (48 + d) := by decide
      exact hall _ (Nat.mod_lt n (by decide))
    have hyear := @hfield 4 year.toNat (by omega)
    unfold yearOfText
    split
    next s hs => exact absurd (List.cons.inj hs).1.symm (hdigit _).1
    next s hs => exact absurd (List.cons.inj hs).1.symm (hdigit _).2
    next =>
      rw [hyear]
      omega
  next =>
    split
    next =>
      rw [yearOfText, hfield h]
      omega
    next =>
      rw [yearOfText, hfield h]
      omega

/-- The text after the year: twenty characters. -/
def afterYear (month day ms : Nat) : JsString :=
  45 :: padded 2 month ++ 45 :: padded 2 day ++ 84 :: isoTimeOfDay ms ++ [90]

theorem length_afterYear (month day ms : Nat) : (afterYear month day ms).length = 20 := by
  simp [afterYear, isoTimeOfDay, length_padded]

theorem fieldAt_afterYear {month day ms : Nat} (hmonth : month < 100) (hday : day < 100)
    (hms : ms < 86400000) :
    fieldAt 1 2 (afterYear month day ms) = month ∧ fieldAt 4 2 (afterYear month day ms) = day ∧
      fieldAt 7 2 (afterYear month day ms) = ms / 3600000 ∧
      fieldAt 10 2 (afterYear month day ms) = ms / 60000 % 60 ∧
      fieldAt 13 2 (afterYear month day ms) = ms / 1000 % 60 ∧
      fieldAt 16 3 (afterYear month day ms) = ms % 1000 := by
  refine ⟨fieldAt_padded _ (s := [45]) rfl rfl (by omega), ?_, ?_, ?_, ?_, ?_⟩
  · exact fieldAt_padded (s := 45 :: padded 2 month ++ [45]) (84 :: isoTimeOfDay ms ++ [90])
      (by simp [afterYear]) (by simp [length_padded]) (by omega)
  · exact fieldAt_padded (s := 45 :: padded 2 month ++ 45 :: padded 2 day ++ [84]) _
      (by simp [afterYear, isoTimeOfDay]; rfl) (by simp [length_padded]) (by omega)
  · exact fieldAt_padded
      (s := 45 :: padded 2 month ++ 45 :: padded 2 day ++ 84 :: padded 2 (ms / 3600000) ++ [58]) _
      (by simp [afterYear, isoTimeOfDay]; rfl) (by simp [length_padded]) (by omega)
  · exact fieldAt_padded
      (s := 45 :: padded 2 month ++ 45 :: padded 2 day ++ 84 :: padded 2 (ms / 3600000) ++
        58 :: padded 2 (ms / 60000 % 60) ++ [58]) _
      (by simp [afterYear, isoTimeOfDay]; rfl) (by simp [length_padded]) (by omega)
  · exact fieldAt_padded
      (s := 45 :: padded 2 month ++ 45 :: padded 2 day ++ 84 :: padded 2 (ms / 3600000) ++
        58 :: padded 2 (ms / 60000 % 60) ++ 58 :: padded 2 (ms / 1000 % 60) ++ [46]) _
      (by simp [afterYear, isoTimeOfDay]; rfl) (by simp [length_padded]) (by omega)

theorem isoText_eq (time : Int) :
    isoText time = isoYear (Calendar.civilOfDays (time / msPerDay)).year ++
      afterYear (Calendar.civilOfDays (time / msPerDay)).month.toNat
        (Calendar.civilOfDays (time / msPerDay)).day.toNat (time % msPerDay).toNat := by
  simp [isoText, afterYear]

/-- The fields of a printed text are those it was printed from. -/
theorem timeAt_isoText {time : Int} (h : time.natAbs ≤ maxTime) : timeAt (isoText time) = time := by
  obtain ⟨date, hdate⟩ : ∃ c, c = Calendar.civilOfDays (time / msPerDay) := ⟨_, rfl⟩
  obtain ⟨hmonth, hmonth', hday, hday'⟩ := Calendar.civilOfDays_bounds (time / msPerDay)
  have hyear := Calendar.civilOfDays_year (time / msPerDay)
  have hback := Calendar.daysOfCivil_civilOfDays (time / msPerDay)
  rw [← hdate] at hmonth hmonth' hday hday' hyear hback
  unfold maxTime at h
  unfold msPerDay at hyear hback hdate
  have hms := Int.emod_nonneg time (show (86400000 : Int) ≠ 0 by decide)
  have hms' := Int.emod_lt_of_pos time (show (0 : Int) < 86400000 by decide)
  obtain ⟨h1, h4, h7, h10, h13, h16⟩ := @fieldAt_afterYear date.month.toNat date.day.toNat
    (time % 86400000).toNat (by omega) (by omega) (by omega)
  have htext : isoText time = isoYear date.year ++
      afterYear date.month.toNat date.day.toNat (time % 86400000).toNat := by
    rw [isoText_eq, hdate]
    rfl
  have hsplit : (isoText time).length - 20 = (isoYear date.year).length := by
    rw [htext, List.length_append, length_afterYear]
    omega
  rw [timeAt, hsplit, htext, List.drop_left, List.take_left, h1, h4, h7, h10, h13, h16,
    yearOfText_isoYear (by omega)]
  have hcivil : (⟨date.year, (date.month.toNat : Int), (date.day.toNat : Int)⟩ : Calendar.Civil) =
      date := by
    rw [Int.toNat_of_nonneg (by omega), Int.toNat_of_nonneg (by omega)]
  rw [hcivil, hback]
  unfold msPerDay
  omega

theorem isoTime?_isoText {time : Int} (h : time.natAbs ≤ maxTime) :
    isoTime? (isoText time) = some time := by
  rw [isoTime?, timeAt_isoText h, if_pos ⟨rfl, h⟩]

/-- A date is read back from its text. -/
theorem newDate_isoText (host : Host) {time : Int} (h : time.natAbs ≤ maxTime) :
    host.newDate (.str (isoText time)) = .date (some time) := by
  have htime : host.timeOfText (isoText time) = some time := by
    unfold Host.timeOfText
    rw [isoTime?_isoText h]
  exact congrArg JsValue.date htime

end OpcUaSuite.Js
