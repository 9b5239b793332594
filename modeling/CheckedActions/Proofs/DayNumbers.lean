import CheckedActions.Calendar.Date
import Mathlib.Order.Monotone.Basic

/-!
Days of the calendar and their numbers. Every number up to that of the last day belongs to exactly
one date that exists, and numbers sort dates by years, months and days.
-/

namespace CheckedActions

theorem total_take_succ (ns : List Nat) (k : Nat) :
    total (ns.take (k + 1)) = total (ns.take k) + (ns[k]?).getD 0 := by
  rw [List.take_add_one, total_append]
  cases ns[k]? with
  | none => rfl
  | some n => rfl

theorem monotone_total_take (ns : List Nat) : Monotone fun k => total (ns.take k) := by
  refine monotone_nat_of_le_succ fun k => ?_
  rw [total_take_succ]
  exact Nat.le_add_right _ _

/-- A number lies between two neighbours of a growing sequence in one place only. -/
theorem eq_of_between {f : Nat → Nat} (hf : Monotone f) {i j n : Nat}
    (hi : f i < n) (hi' : n ≤ f (i + 1)) (hj : f j < n) (hj' : n ≤ f (j + 1)) : i = j := by
  rcases Nat.lt_trichotomy i j with h | h | h
  · have hle : f (i + 1) ≤ f j := hf h
    omega
  · exact h
  · have hle : f (j + 1) ≤ f i := hf h
    omega

namespace Date

/-! ### Years -/

theorem isLeap_iff {year : Nat} :
    isLeap year = true ↔ year % 4 = 0 ∧ (year % 100 ≠ 0 ∨ year % 400 = 0) := by simp [isLeap]

theorem daysBeforeYear_eq (year : Nat) : daysBeforeYear year =
    365 * (year - 1) + (year - 1) / 4 - (year - 1) / 100 + (year - 1) / 400 := rfl

theorem daysBeforeYear_succ {year : Nat} (h : minYear ≤ year) :
    daysBeforeYear (year + 1) = daysBeforeYear year + yearLength year := by
  have hyear : 1 ≤ year := h
  have h4 : year / 4 = (year - 1) / 4 + if year % 4 = 0 then 1 else 0 := by split <;> omega
  have h100 : year / 100 = (year - 1) / 100 + if year % 100 = 0 then 1 else 0 := by split <;> omega
  have h400 : year / 400 = (year - 1) / 400 + if year % 400 = 0 then 1 else 0 := by split <;> omega
  have hle : (year - 1) / 100 ≤ (year - 1) / 4 := by omega
  rw [daysBeforeYear_eq, daysBeforeYear_eq, Nat.add_sub_cancel, h4, h100, h400, yearLength]
  clear h4 h100 h400
  generalize (year - 1) / 4 = q4 at hle
  generalize (year - 1) / 100 = q100 at hle
  generalize (year - 1) / 400 = q400
  by_cases hleap : isLeap year
  · rw [if_pos hleap]
    rw [isLeap_iff] at hleap
    split <;> split <;> split <;> omega
  · rw [if_neg hleap]
    rw [isLeap_iff] at hleap
    split <;> split <;> split <;> omega

theorem monotone_daysBeforeYear : Monotone daysBeforeYear := by
  refine monotone_nat_of_le_succ fun year => ?_
  cases year with
  | zero => exact Nat.le_refl _
  | succ y =>
    rw [daysBeforeYear_succ (Nat.le_add_left 1 y)]
    exact Nat.le_add_right _ _

/-- A year counted in cycles of 400, 100 and 4 years. -/
theorem daysBeforeYear_cycles (a : Nat) {b c e : Nat} (hb : b ≤ 3) (hc : c ≤ 24) (he : e ≤ 3) :
    daysBeforeYear (400 * a + 100 * b + 4 * c + e + 1) =
      146097 * a + 36524 * b + 1461 * c + 365 * e := by
  have h4 : (400 * a + 100 * b + 4 * c + e) / 4 = 100 * a + 25 * b + c := by omega
  have h100 : (400 * a + 100 * b + 4 * c + e) / 100 = 4 * a + b := by omega
  have h400 : (400 * a + 100 * b + 4 * c + e) / 400 = a := by omega
  rw [daysBeforeYear_eq, Nat.add_sub_cancel, h4, h100, h400]
  omega

theorem yearLength_cycles (a : Nat) {b c e : Nat} (hb : b ≤ 3) (hc : c ≤ 24) (he : e ≤ 3) :
    yearLength (400 * a + 100 * b + 4 * c + e + 1) =
      if e = 3 ∧ (c < 24 ∨ b = 3) then 366 else 365 := by
  have hleap : isLeap (400 * a + 100 * b + 4 * c + e + 1) ↔ e = 3 ∧ (c < 24 ∨ b = 3) := by
    rw [isLeap_iff]
    omega
  simp only [yearLength, hleap]

/-! ### Months -/

theorem total_monthLengths (year : Nat) : total (monthLengths (isLeap year)) = yearLength year := by
  unfold yearLength
  cases isLeap year <;> rfl

theorem daysBeforeMonth_succ (year : Nat) {month : Nat} (h : 1 ≤ month) :
    daysBeforeMonth year (month + 1) = daysBeforeMonth year month + monthLength year month := by
  obtain ⟨m, rfl⟩ := Nat.exists_eq_add_of_le' h
  exact total_take_succ _ m

theorem monotone_daysBeforeMonth (year : Nat) : Monotone (daysBeforeMonth year) :=
  fun _ _ h => monotone_total_take _ (Nat.sub_le_sub_right h 1)

/-- After the last month the year is over. -/
theorem daysBeforeMonth_end (year : Nat) : daysBeforeMonth year (12 + 1) = yearLength year := by
  rw [← total_monthLengths]
  unfold daysBeforeMonth
  cases isLeap year <;> rfl

/-- Days counted off against the lengths of months end in the month that has them. -/
theorem findMonth_spec {lengths : List Nat} {rest : Nat} (h : rest < total lengths)
    (month : Nat) : ∃ before length after r, lengths = before ++ length :: after ∧ r < length ∧
      total before + r = rest ∧ findMonth lengths month rest = (month + before.length, r + 1) := by
  induction lengths generalizing rest month with
  | nil => exact absurd h (Nat.not_lt_zero rest)
  | cons n ns ih =>
    rw [total] at h
    rw [findMonth]
    split
    · rename_i hlt
      exact ⟨[], n, ns, rest, rfl, hlt, Nat.zero_add rest, rfl⟩
    · rename_i hge
      have hless : rest - n < total ns := by omega
      obtain ⟨before, length, after, r, rfl, hr, hrest, hfind⟩ := ih hless (month + 1)
      refine ⟨n :: before, length, after, r, rfl, hr, ?_, ?_⟩
      · rw [total]
        omega
      · rw [hfind, List.length_cons]
        congr 1
        omega

/-! ### Day numbers -/

/-- Days counted off in cycles of 400, 100 and 4 years and in years. The last day of a cycle
belongs to its last year, which is a leap year then. -/
theorem ofDayNumber_cycles (d : Nat) : ∃ a b c e r, b ≤ 3 ∧ c ≤ 24 ∧ e ≤ 3 ∧
    146097 * a + 36524 * b + 1461 * c + 365 * e + r = d ∧
    (r < 365 ∨ r = 365 ∧ e = 3 ∧ (c < 24 ∨ b = 3)) ∧
    ofDayNumber (d + 1) = ⟨400 * a + 100 * b + 4 * c + e + 1,
      (findMonth (monthLengths (isLeap (400 * a + 100 * b + 4 * c + e + 1))) 1 r).1,
      (findMonth (monthLengths (isLeap (400 * a + 100 * b + 4 * c + e + 1))) 1 r).2⟩ := by
  refine ⟨_, _, _, _, _, ?_, ?_, ?_, ?_, ?_, rfl⟩
  all_goals simp only [Nat.add_sub_cancel]
  · exact Nat.min_le_right _ _
  · omega
  · exact Nat.min_le_right _ _
  · omega
  · omega

/-- A day number comes apart into a year and the days of that year before it. -/
theorem ofDayNumber_eq {n : Nat} (h : 1 ≤ n) : ∃ year rest, minYear ≤ year ∧
    rest < yearLength year ∧ daysBeforeYear year + rest + 1 = n ∧
    ofDayNumber n = ⟨year, (findMonth (monthLengths (isLeap year)) 1 rest).1,
      (findMonth (monthLengths (isLeap year)) 1 rest).2⟩ := by
  obtain ⟨d, rfl⟩ := Nat.exists_eq_add_of_le' h
  obtain ⟨a, b, c, e, r, hb, hc, he, hd, hr, heq⟩ := ofDayNumber_cycles d
  refine ⟨_, r, Nat.le_add_left 1 _, ?_, ?_, heq⟩
  · rw [yearLength_cycles a hb hc he]
    split <;> omega
  · rw [daysBeforeYear_cycles a hb hc he, hd]

/-- The fields a day number gives are those of a day, which has this number. -/
theorem ofDayNumber_spec {n : Nat} (h : 1 ≤ n) : ∃ year month day,
    ofDayNumber n = ⟨year, month, day⟩ ∧
    minYear ≤ year ∧ 1 ≤ month ∧ month ≤ 12 ∧ 1 ≤ day ∧ day ≤ monthLength year month ∧
    daysBeforeYear year + daysBeforeMonth year month + day = n := by
  obtain ⟨year, rest, hyear, hrest, hn, heq⟩ := ofDayNumber_eq h
  rw [← total_monthLengths] at hrest
  obtain ⟨before, length, after, r, hsplit, hr, htotal, hfind⟩ := findMonth_spec hrest 1
  have hcount : before.length + 1 ≤ 12 := by
    have hlength : (monthLengths (isLeap year)).length = 12 := rfl
    rw [hsplit, List.length_append, List.length_cons] at hlength
    omega
  have hmonth : monthLength year (1 + before.length) = length := by simp [monthLength, hsplit]
  have hdays : daysBeforeMonth year (1 + before.length) = total before := by
    simp [daysBeforeMonth, hsplit]
  rw [hfind] at heq
  refine ⟨year, 1 + before.length, r + 1, heq, hyear, Nat.le_add_right 1 _, by omega,
    Nat.le_add_left 1 r, by rwa [hmonth], by omega⟩

theorem dayNumber_ofDayNumber {n : Nat} (h : 1 ≤ n) : (ofDayNumber n).dayNumber = n := by
  obtain ⟨year, month, day, heq, -, -, -, -, -, hn⟩ := ofDayNumber_spec h
  rw [heq]
  exact hn

theorem valid_ofDayNumber {n : Nat} (h : 1 ≤ n) (hn : n ≤ lastDay) : (ofDayNumber n).Valid := by
  obtain ⟨year, month, day, heq, hyear, hm, hm', hd, hd', hnumber⟩ := ofDayNumber_spec h
  rw [heq]
  refine ⟨hyear, Nat.le_of_not_lt fun hlate => ?_, hm, hm', hd, hd'⟩
  have hend : lastDay ≤ daysBeforeYear year := monotone_daysBeforeYear hlate
  omega

/-- The day of a year stands in its month. -/
theorem Valid.month_bounds {d : Date} (h : d.Valid) :
    daysBeforeMonth d.year d.month < daysBeforeMonth d.year d.month + d.day ∧
      daysBeforeMonth d.year d.month + d.day ≤ daysBeforeMonth d.year (d.month + 1) := by
  obtain ⟨-, -, hm, -, hd, hd'⟩ := h
  rw [daysBeforeMonth_succ d.year hm]
  omega

/-- The number of a date stands in its year. -/
theorem Valid.year_bounds {d : Date} (h : d.Valid) :
    daysBeforeYear d.year < d.dayNumber ∧ d.dayNumber ≤ daysBeforeYear (d.year + 1) := by
  have hmonth := h.month_bounds
  have hend : daysBeforeMonth d.year (d.month + 1) ≤ daysBeforeMonth d.year (12 + 1) :=
    monotone_daysBeforeMonth d.year (Nat.succ_le_succ h.2.2.2.1)
  rw [daysBeforeMonth_end] at hend
  rw [daysBeforeYear_succ h.1, dayNumber]
  omega

theorem Valid.day_le {d : Date} (h : d.Valid) : d.day ≤ 31 := by
  have hlengths : ∀ leap, ∀ length ∈ monthLengths leap, length ≤ 31 := by decide
  refine Nat.le_trans h.2.2.2.2.2 ?_
  unfold monthLength
  cases hlength : (monthLengths (isLeap d.year))[d.month - 1]? with
  | none => exact Nat.zero_le 31
  | some length => exact hlengths _ length (List.mem_of_getElem? hlength)

theorem Valid.one_le_dayNumber {d : Date} (h : d.Valid) : 1 ≤ d.dayNumber :=
  Nat.le_trans (Nat.le_add_left 1 _) h.year_bounds.1

theorem Valid.dayNumber_le {d : Date} (h : d.Valid) : d.dayNumber ≤ lastDay :=
  Nat.le_trans h.year_bounds.2 (monotone_daysBeforeYear (Nat.succ_le_succ h.2.1))

/-- Dates that exist are told apart by their numbers. -/
theorem Valid.dayNumber_inj {d e : Date} (hd : d.Valid) (he : e.Valid)
    (h : d.dayNumber = e.dayNumber) : d = e := by
  have hyear : d.year = e.year :=
    eq_of_between monotone_daysBeforeYear hd.year_bounds.1 hd.year_bounds.2
      (h ▸ he.year_bounds.1) (h ▸ he.year_bounds.2)
  have hmonths := he.month_bounds
  rw [dayNumber, dayNumber, ← hyear] at h
  rw [← hyear] at hmonths
  have hrest : daysBeforeMonth d.year d.month + d.day = daysBeforeMonth d.year e.month + e.day := by
    omega
  have hmonth : d.month = e.month :=
    eq_of_between (monotone_daysBeforeMonth d.year) hd.month_bounds.1 hd.month_bounds.2
      (hrest ▸ hmonths.1) (hrest ▸ hmonths.2)
  rw [hmonth] at hrest
  obtain ⟨y, m, n⟩ := d
  obtain ⟨y', m', n'⟩ := e
  simp only at hyear hmonth hrest
  rw [hyear, hmonth, Nat.add_left_cancel hrest]

/-- A date that comes first in the order of years, months and days has the smaller number. -/
theorem Valid.dayNumber_lt {d e : Date} (hd : d.Valid) (he : e.Valid)
    (h : d.year < e.year ∨ d.year = e.year ∧
      (d.month < e.month ∨ d.month = e.month ∧ d.day < e.day)) :
    d.dayNumber < e.dayNumber := by
  rcases h with hyear | ⟨hyear, hrest⟩
  · have hend : daysBeforeYear (d.year + 1) ≤ daysBeforeYear e.year := monotone_daysBeforeYear hyear
    exact Nat.lt_of_le_of_lt (Nat.le_trans hd.year_bounds.2 hend) he.year_bounds.1
  · have hday := hd.month_bounds.2
    have hday' := he.month_bounds.1
    rw [dayNumber, dayNumber]
    rw [← hyear] at hday' ⊢
    rcases hrest with hmonth | ⟨hmonth, hless⟩
    · have hend : daysBeforeMonth d.year (d.month + 1) ≤ daysBeforeMonth d.year e.month :=
        monotone_daysBeforeMonth d.year hmonth
      omega
    · rw [← hmonth]
      omega

/-- Day numbers sort dates by years, months and days. -/
theorem Valid.dayNumber_lt_iff {d e : Date} (hd : d.Valid) (he : e.Valid) :
    d.dayNumber < e.dayNumber ↔ d.year < e.year ∨ d.year = e.year ∧
      (d.month < e.month ∨ d.month = e.month ∧ d.day < e.day) := by
  refine ⟨fun h => ?_, hd.dayNumber_lt he⟩
  by_contra hnot
  have hafter : e.dayNumber ≤ d.dayNumber := by
    by_cases hsame : e = d
    · rw [hsame]
    · refine Nat.le_of_lt (he.dayNumber_lt hd ?_)
      have hfields : ¬ (e.year = d.year ∧ e.month = d.month ∧ e.day = d.day) := by
        rintro ⟨hy, hm, hd⟩
        cases d
        cases e
        simp_all
      omega
  omega

end Date
end CheckedActions
