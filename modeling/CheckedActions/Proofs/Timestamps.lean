import CheckedActions.Proofs.EpochMillis
import CheckedActions.Proofs.IsoPlaces
import Mathlib.Data.List.Forall2
import Mathlib.Data.String.Basic

/-!
Timestamps as texts. A timestamp is a row of numbers, each with leading zeros up to its width and a
mark behind it, and such rows compare as texts as they do number by number. Only the year may be
shorter than its four digits, and timestamps with years of equal length sort by instant.
-/

namespace CheckedActions

/-- Digits compare as what they write if there are as many, and what stands behind them counts only
where they agree. -/
theorem digits_append_lt_iff {ds es : List Char} (hd : ∀ c ∈ ds, c.isDigit)
    (he : ∀ c ∈ es, c.isDigit) (hlength : ds.length = es.length) (cs cs' : List Char) :
    ds ++ cs < es ++ cs' ↔ Decimal.natOf ds < Decimal.natOf es ∨
      Decimal.natOf ds = Decimal.natOf es ∧ cs < cs' := by
  -- from the last digit on, which weighs least, so that no power of ten comes in
  induction ds using List.reverseRecOn generalizing es cs cs' with
  | nil => simp [List.eq_nil_of_length_eq_zero hlength.symm]
  | append_singleton ds c ih =>
    rcases List.eq_nil_or_concat es with rfl | ⟨es, e, rfl⟩
    · simp at hlength
    · have hdigit := hd c (by simp)
      have hdigit' := he e (by simp)
      have hc := IsoReader.isDigit_iff.1 (IsoReader.isDigit_toNat hdigit)
      have he' := IsoReader.isDigit_iff.1 (IsoReader.isDigit_toNat hdigit')
      have hlt : c < e ↔ c.toNat < e.toNat := Iff.rfl
      have hds : ∀ d ∈ ds, d.isDigit := fun d hmem => hd d (by simp [hmem])
      have hes : ∀ d ∈ es, d.isDigit := fun d hmem => he d (by simp [hmem])
      have hfront := ih hds hes (by simpa using hlength) (c :: cs) (e :: cs')
      rw [List.concat_eq_append, List.append_assoc, List.append_assoc, List.singleton_append,
        List.singleton_append, hfront, List.cons_lt_cons_iff, hlt, ← Char.toNat_inj, natOf_snoc,
        natOf_snoc]
      by_cases hrest : cs < cs'
      · simp only [hrest, and_true]
        omega
      · simp only [hrest, and_false, or_false]
        omega

/-- Digits before a mark compare as digits, and what stands behind the mark counts only where they
agree. -/
theorem digits_mark_lt_iff {ds es : List Char} (hd : ∀ c ∈ ds, c.isDigit)
    (he : ∀ c ∈ es, c.isDigit) {mark : Char} (hmark : mark < '0') (cs cs' : List Char) :
    ds ++ mark :: cs < es ++ mark :: cs' ↔ ds < es ∨ ds = es ∧ cs < cs' := by
  have hbelow : ∀ c : Char, c.isDigit → mark < c := by
    intro c hc
    have hlow := (IsoReader.isDigit_iff.1 (IsoReader.isDigit_toNat hc)).1
    exact lt_of_lt_of_le hmark (UInt32.le_iff_toNat_le.2 hlow)
  induction ds generalizing es with
  | nil =>
    cases es with
    | nil => simp
    | cons e es => simp [List.cons_lt_cons_iff, hbelow e (he e (by simp))]
  | cons d ds ih =>
    obtain ⟨hdigit, hds⟩ := List.forall_mem_cons.1 hd
    cases es with
    | nil =>
      have hless := hbelow d hdigit
      simp [List.cons_lt_cons_iff, not_lt_of_gt hless, ne_of_gt hless]
    | cons e es =>
      obtain ⟨-, hes⟩ := List.forall_mem_cons.1 he
      simp only [List.cons_append, List.cons_lt_cons_iff, ih hds hes, List.cons.injEq]
      tauto

/-! ### Rows of numbers -/

/-- Numbers one after another, each with leading zeros up to its width and its mark behind it. -/
def written : List (Nat × Char) → List Nat → List Char
  | (width, mark) :: layout, n :: ns =>
    (zeroPad width (toString n)).toList ++ mark :: written layout ns
  | _, _ => []

/-- Numbers with no more digits than a layout has room for. -/
def Fits (layout : List (Nat × Char)) (ns : List Nat) : Prop :=
  List.Forall₂ (fun place n => 0 < place.1 ∧ n < pow10 place.1) layout ns

theorem zeroPad_append_lt_iff {width m n : Nat} (hw : 0 < width) (hm : m < pow10 width)
    (hn : n < pow10 width) (cs cs' : List Char) :
    (zeroPad width (toString m)).toList ++ cs < (zeroPad width (toString n)).toList ++ cs' ↔
      m < n ∨ m = n ∧ cs < cs' := by
  have hlength : (zeroPad width (toString m)).toList.length =
      (zeroPad width (toString n)).toList.length := by
    rw [length_zeroPad hw hm, length_zeroPad hw hn]
  rw [digits_append_lt_iff (isDigits_zeroPad width m).2 (isDigits_zeroPad width n).2 hlength,
    natOf_zeroPad, natOf_zeroPad]

/-- Rows in one layout compare as their numbers do, the first ones first. -/
theorem written_lt_iff {layout : List (Nat × Char)} {ms ns : List Nat} (hm : Fits layout ms)
    (hn : Fits layout ns) : written layout ms < written layout ns ↔ ms < ns := by
  induction hm generalizing ns with
  | nil =>
    cases hn
    simp [written]
  | cons hplace hrest ih =>
    cases hn with
    | cons hplace' hrest' =>
      rw [written, written, zeroPad_append_lt_iff hplace.1 hplace.2 hplace'.2,
        List.cons_lt_cons_iff, List.cons_lt_cons_iff, ih hrest']
      simp

/-- A text of the form of another one: digits where that has zeros, and else the same. -/
def HasForm (form cs : List Char) : Prop :=
  List.Forall₂ (fun m c => if m = '0' then c.isDigit = true else c = m) form cs

theorem HasForm.append {form form' cs cs' : List Char} (h : HasForm form cs)
    (h' : HasForm form' cs') : HasForm (form ++ form') (cs ++ cs') := List.rel_append h h'

theorem hasForm_digits {cs : List Char} (h : ∀ c ∈ cs, c.isDigit) :
    HasForm (List.replicate cs.length '0') cs := by
  induction cs with
  | nil => exact .nil
  | cons c cs ih =>
    obtain ⟨hc, hcs⟩ := List.forall_mem_cons.1 h
    exact .cons hc (ih hcs)

/-- The row of zeros in a layout. -/
def formOf : List (Nat × Char) → List Char
  | [] => []
  | (width, mark) :: layout => List.replicate width '0' ++ mark :: formOf layout

theorem hasForm_written {layout : List (Nat × Char)} {ns : List Nat} (h : Fits layout ns)
    (hmarks : ∀ place ∈ layout, place.2 ≠ '0') : HasForm (formOf layout) (written layout ns) := by
  induction h with
  | nil => exact .nil
  | @cons place n layout ns hplace hrest ih =>
    obtain ⟨hmark, hmarks⟩ := List.forall_mem_cons.1 hmarks
    have hdigits := hasForm_digits (isDigits_zeroPad place.1 n).2
    rw [length_zeroPad hplace.1 hplace.2] at hdigits
    refine hdigits.append (.cons ?_ (ih hmarks))
    rw [if_neg hmark]

/-! ### Timestamps -/

namespace DateTime

/-- The numbers of a timestamp, from the year down to the millisecond. -/
def stampNumbers (t : DateTime) : List Nat :=
  [t.date.year, t.date.month, t.date.day, t.hour, t.minute, t.second, t.microsecond / 1000]

/-- The layout of a timestamp with as many digits of the year. -/
def stampLayout (yearWidth : Nat) : List (Nat × Char) :=
  [(yearWidth, '-'), (2, '-'), (2, 'T'), (2, ':'), (2, ':'), (2, '.'), (3, 'Z')]

/-- How many digits the year has. -/
def yearWidth (t : DateTime) : Nat := (Nat.toDigits 10 t.date.year).length

/-- The form `YYYY-MM-DDTHH:MM:SS.mmmZ`. -/
def stampForm : List Char := "0000-00-00T00:00:00.000Z".toList

theorem formOf_stampLayout : formOf (stampLayout 4) = stampForm := by decide

theorem toList_stamp (t : DateTime) :
    t.stamp.toList = written (stampLayout t.yearWidth) t.stampNumbers := by
  have hyear : (zeroPad t.yearWidth t.date.year.repr).toList = Nat.toDigits 10 t.date.year := by
    have hpadded := toList_zeroPad t.yearWidth t.date.year
    rwa [yearWidth, Nat.sub_self] at hpadded
  simp [stamp, stampLayout, stampNumbers, written, hyear, pad2]

theorem yearWidth_pos (t : DateTime) : 0 < t.yearWidth :=
  List.length_pos_iff.2 (isDigits_toDigits t.date.year).1

theorem yearWidth_le_iff (t : DateTime) {k : Nat} (hk : 0 < k) :
    t.yearWidth ≤ k ↔ t.date.year < pow10 k := Nat.length_toDigits_le_iff (by decide) hk

/-- The numbers of a date and time that exist have room in the layout of their timestamp. -/
theorem Universal.fits {t : DateTime} (h : t.Universal) :
    Fits (stampLayout t.yearWidth) t.stampNumbers := by
  have hyear := (t.yearWidth_le_iff t.yearWidth_pos).1 (Nat.le_refl _)
  have hday := h.date_ok.day_le
  obtain ⟨-, -, -, hmonth, -, -⟩ := h.date_ok
  obtain ⟨hhour, hminute, hsecond, hmicro⟩ := h.time_ok
  have hhundred : pow10 2 = 100 := rfl
  have hthousand : pow10 3 = 1000 := rfl
  unfold microsPerSecond at hmicro
  simp only [Fits, stampLayout, stampNumbers, List.forall₂_cons, hhundred, hthousand]
  exact ⟨⟨t.yearWidth_pos, hyear⟩, by omega, by omega, by omega, by omega, by omega, by omega, .nil⟩

theorem timeMillis_eq (t : DateTime) : t.timeMicros / 1000 =
    ((t.hour * 60 + t.minute) * 60 + t.second) * 1000 + t.microsecond / 1000 := by
  unfold timeMicros microsPerSecond
  omega

/-- Times of day sort by hours, minutes, seconds and milliseconds. -/
theorem TimeValid.millis_lt_iff {t u : DateTime} (ht : t.TimeValid) (hu : u.TimeValid) :
    t.timeMicros / 1000 < u.timeMicros / 1000 ↔
      [t.hour, t.minute, t.second, t.microsecond / 1000] <
        [u.hour, u.minute, u.second, u.microsecond / 1000] := by
  obtain ⟨-, htm, hts, htus⟩ := ht
  obtain ⟨-, hum, hus, huus⟩ := hu
  have hmillis : t.microsecond / 1000 < 1000 := Nat.div_lt_of_lt_mul htus
  have hmillis' : u.microsecond / 1000 < 1000 := Nat.div_lt_of_lt_mul huus
  rw [timeMillis_eq, timeMillis_eq]
  simp only [List.cons_lt_cons_iff, List.not_lt_nil, and_false, or_false]
  omega

theorem localMillis_eq (t : DateTime) : t.localMicros / 1000 =
    ((t.date.dayNumber - 1) * 86400000 + t.timeMicros / 1000 : Nat) := by
  unfold localMicros microsPerDay
  omega

/-- The numbers of timestamps sort moments by the millisecond. -/
theorem Universal.stampNumbers_lt_iff {t u : DateTime} (ht : t.Universal) (hu : u.Universal) :
    t.stampNumbers < u.stampNumbers ↔ t.localMicros / 1000 < u.localMicros / 1000 := by
  have hsame : t.date.dayNumber = u.date.dayNumber ↔
      t.date.year = u.date.year ∧ t.date.month = u.date.month ∧ t.date.day = u.date.day := by
    constructor
    · intro h
      simp [ht.date_ok.dayNumber_inj hu.date_ok h]
    · rintro ⟨hyear, hmonth, hday⟩
      rw [Date.dayNumber, Date.dayNumber, hyear, hmonth, hday]
  -- days weigh more than any time of day
  have hsplit : t.stampNumbers < u.stampNumbers ↔ t.date.dayNumber < u.date.dayNumber ∨
      t.date.dayNumber = u.date.dayNumber ∧ t.timeMicros / 1000 < u.timeMicros / 1000 := by
    rw [ht.date_ok.dayNumber_lt_iff hu.date_ok, hsame, ht.time_ok.millis_lt_iff hu.time_ok]
    simp only [stampNumbers, List.cons_lt_cons_iff, and_or_left, or_assoc, and_assoc]
  have htime := ht.time_ok.timeMicros_lt
  have htime' := hu.time_ok.timeMicros_lt
  have hfirst := ht.date_ok.one_le_dayNumber
  have hfirst' := hu.date_ok.one_le_dayNumber
  unfold microsPerDay at htime htime'
  rw [hsplit, localMillis_eq, localMillis_eq, Int.ofNat_lt]
  omega

theorem Universal.stamp_lt_iff {t u : DateTime} (ht : t.Universal) (hu : u.Universal)
    (hwidth : t.yearWidth = u.yearWidth) :
    t.stamp < u.stamp ↔ t.localMicros / 1000 < u.localMicros / 1000 := by
  have hfits := hu.fits
  rw [← hwidth] at hfits
  rw [String.lt_iff_toList_lt, toList_stamp, toList_stamp, ← hwidth, written_lt_iff ht.fits hfits,
    ht.stampNumbers_lt_iff hu]

/-- Timestamps sort by the digits of the year, and within a year by the millisecond. -/
theorem Universal.stamp_lt_iff_year {t u : DateTime} (ht : t.Universal) (hu : u.Universal) :
    t.stamp < u.stamp ↔ toString t.date.year < toString u.date.year ∨
      t.date.year = u.date.year ∧ t.localMicros / 1000 < u.localMicros / 1000 := by
  by_cases hyear : t.date.year = u.date.year
  · have hwidth : t.yearWidth = u.yearWidth := by rw [yearWidth, yearWidth, hyear]
    simp [ht.stamp_lt_iff hu hwidth, hyear]
  · have hdigits : Nat.toDigits 10 t.date.year ≠ Nat.toDigits 10 u.date.year := by
      intro h
      have hsame := congrArg Decimal.natOf h
      rw [natOf_toDigits, natOf_toDigits] at hsame
      exact hyear hsame
    have hmark : ('-' : Char) < '0' := by decide
    simp only [hyear, false_and, or_false, String.lt_iff_toList_lt]
    simp [stamp, digits_mark_lt_iff (isDigits_toDigits _).2 (isDigits_toDigits _).2 hmark, hdigits]

theorem Universal.hasForm_stamp {t : DateTime} (h : t.Universal) :
    HasForm (formOf (stampLayout t.yearWidth)) t.stamp.toList := by
  rw [toList_stamp]
  exact hasForm_written h.fits (by simp [stampLayout])

theorem Universal.length_stamp {t : DateTime} (h : t.Universal) :
    t.stamp.length = 20 + t.yearWidth := by
  rw [← String.length_toList, ← h.hasForm_stamp.length_eq]
  simp [stampLayout, formOf]
  omega

/-- Timestamps are the same only within a millisecond. -/
theorem Universal.stamp_inj_iff {t u : DateTime} (ht : t.Universal) (hu : u.Universal) :
    t.stamp = u.stamp ↔ t.localMicros / 1000 = u.localMicros / 1000 := by
  constructor
  · intro h
    have hwidth : t.yearWidth = u.yearWidth := by
      have hlength := congrArg String.length h
      rw [ht.length_stamp, hu.length_stamp] at hlength
      omega
    have hless := ht.stamp_lt_iff hu hwidth
    have hless' := hu.stamp_lt_iff ht hwidth.symm
    simp only [h, lt_irrefl, false_iff] at hless hless'
    omega
  · intro h
    have hless := ht.stampNumbers_lt_iff hu
    have hless' := hu.stampNumbers_lt_iff ht
    have hnumbers : t.stampNumbers = u.stampNumbers := by
      rcases lt_trichotomy t.stampNumbers u.stampNumbers with hlt | heq | hlt
      · exact absurd (hless.1 hlt) (by omega)
      · exact heq
      · exact absurd (hless'.1 hlt) (by omega)
    have hwidth : t.yearWidth = u.yearWidth := by
      rw [yearWidth, yearWidth, (List.cons.inj hnumbers).1]
    rw [← String.toList_inj, toList_stamp, toList_stamp, hwidth, hnumbers]

/-- The year of a date that exists has four digits from 1000 on. -/
theorem yearWidth_eq_four_iff {t : DateTime} (h : t.date.Valid) :
    t.yearWidth = 4 ↔ 1000 ≤ t.date.year := by
  have hthree : t.yearWidth ≤ 3 ↔ t.date.year < 1000 := t.yearWidth_le_iff (by decide)
  have hfour : t.yearWidth ≤ 4 ↔ t.date.year < 10000 := t.yearWidth_le_iff (by decide)
  have hlast : t.date.year ≤ 9999 := h.2.1
  omega

theorem Universal.hasForm_iff {t : DateTime} (h : t.Universal) :
    t.stamp.length = 24 ∧ HasForm stampForm t.stamp.toList ↔ 1000 ≤ t.date.year := by
  rw [h.length_stamp, ← yearWidth_eq_four_iff h.date_ok]
  constructor
  · rintro ⟨hlength, -⟩
    omega
  · intro hwidth
    have hform := h.hasForm_stamp
    rw [hwidth, formOf_stampLayout] at hform
    exact ⟨by omega, hform⟩

/-- The timestamp of a date-time is that of its moment in universal time. -/
theorem timestamp?_eq_map (t : DateTime) : t.timestamp? = t.toUniversal?.map stamp := by
  cases ho : t.offset with
  | none =>
    rw [timestamp?, toUniversal?, ho]
    rfl
  | some o => rw [timestamp?, ho]

/-- Date-times whose moments lie in the calendar have timestamps, which hold the numbers of these
moments in universal time. A timestamp has 24 characters of the form `YYYY-MM-DDTHH:MM:SS.mmmZ`
exactly from the year 1000 on, and before it has no zeros in front of the year. Two timestamps are
the same exactly if the moments are the same down to the millisecond. They sort as texts by the
digits of the year first, and so as the moments do if the years have as many digits, as from the
year 1000 on. -/
theorem timestamp?_form_and_order {t t' : DateTime} (ht : t.Valid) (ht' : t'.Valid)
    (hin : InCalendar t.instantMicros) (hin' : InCalendar t'.instantMicros) :
    ∃ (u u' : DateTime) (s s' : String), t.timestamp? = some s ∧ t'.timestamp? = some s' ∧
      u.Universal ∧ u.localMicros = t.instantMicros ∧
      u'.Universal ∧ u'.localMicros = t'.instantMicros ∧
      s.toList = written (stampLayout u.yearWidth) u.stampNumbers ∧
      (s.length = 24 ∧ HasForm stampForm s.toList ↔ 1000 ≤ u.date.year) ∧
      (s = s' ↔ t.instantMicros / 1000 = t'.instantMicros / 1000) ∧
      (s < s' ↔ toString u.date.year < toString u'.date.year ∨
        u.date.year = u'.date.year ∧ t.instantMicros / 1000 < t'.instantMicros / 1000) ∧
      (u.yearWidth = u'.yearWidth →
        (s < s' ↔ t.instantMicros / 1000 < t'.instantMicros / 1000)) := by
  obtain ⟨u, hstamp, hu, hcount⟩ := ht.exists_universal hin
  obtain ⟨u', hstamp', hu', hcount'⟩ := ht'.exists_universal hin'
  refine ⟨u, u', u.stamp, u'.stamp, by simp [timestamp?_eq_map, hstamp],
    by simp [timestamp?_eq_map, hstamp'], hu, hcount, hu', hcount', toList_stamp u, hu.hasForm_iff,
    ?_, ?_, ?_⟩
  · rw [hu.stamp_inj_iff hu', hcount, hcount']
  · rw [hu.stamp_lt_iff_year hu', hcount, hcount']
  · intro hwidth
    rw [hu.stamp_lt_iff hu' hwidth, hcount, hcount']

/-- A leap day's last moment, an hour behind universal time, and one a microsecond before its next
millisecond. -/
theorem leap_day_form_and_order :
    let leapDay : DateTime := ⟨⟨2000, 2, 29⟩, 23, 59, 59, 7999, some (-3600)⟩
    let march : DateTime := ⟨⟨2000, 3, 1⟩, 0, 59, 59, 8000, none⟩
    leapDay.timestamp? = some "2000-03-01T00:59:59.007Z" ∧
      HasForm stampForm "2000-03-01T00:59:59.007Z".toList ∧
      march.timestamp? = some "2000-03-01T00:59:59.008Z" ∧
      ("2000-03-01T00:59:59.007Z" < "2000-03-01T00:59:59.008Z" ↔
        leapDay.instantMicros / 1000 < march.instantMicros / 1000) := by
  intro leapDay march
  have hleap : leapDay.timestamp? = some "2000-03-01T00:59:59.007Z" := by decide +kernel
  have hmarch : march.timestamp? = some "2000-03-01T00:59:59.008Z" := by decide +kernel
  have hvalid : leapDay.Valid := ⟨by decide, by decide, by decide⟩
  have hvalid' : march.Valid := ⟨by decide, by decide, by decide⟩
  obtain ⟨u, u', s, s', hs, hs', hu, hcount, hu', hcount', -, hform, -, -, horder⟩ :=
    timestamp?_form_and_order hvalid hvalid' (by decide) (by decide)
  have hmoment : u = ⟨⟨2000, 3, 1⟩, 0, 59, 59, 7999, some 0⟩ :=
    hu.localMicros_inj ⟨by decide, by decide, rfl⟩ (by rw [hcount]; decide)
  have hmoment' : u' = ⟨⟨2000, 3, 1⟩, 0, 59, 59, 8000, some 0⟩ :=
    hu'.localMicros_inj ⟨by decide, by decide, rfl⟩ (by rw [hcount']; decide)
  rw [hleap, Option.some.injEq] at hs
  rw [hmarch, Option.some.injEq] at hs'
  subst hs hs' hmoment hmoment'
  exact ⟨hleap, (hform.2 (by decide)).2, hmarch, horder rfl⟩

/-- The last moment of the year 999 has a character less than the form, and its text comes after
that of the first moment of the year 1000. -/
theorem early_year_out_of_order :
    let early : DateTime := ⟨⟨999, 12, 31⟩, 23, 59, 59, 999000, some 0⟩
    let late : DateTime := ⟨⟨1000, 1, 1⟩, 0, 0, 0, 0, some 0⟩
    early.Valid ∧ early.timestamp? = some "999-12-31T23:59:59.999Z" ∧
      "999-12-31T23:59:59.999Z".length = 23 ∧
      late.timestamp? = some "1000-01-01T00:00:00.000Z" ∧
      early.instantMicros / 1000 < late.instantMicros / 1000 ∧
      "1000-01-01T00:00:00.000Z" < "999-12-31T23:59:59.999Z" := by
  refine ⟨⟨by decide, by decide, by decide⟩, by decide +kernel, by decide, by decide +kernel,
    by decide, by decide⟩

end DateTime
end CheckedActions
