import CheckedActions.Proofs.DayNumbers
import CheckedActions.Value.Instant

/-!
Moments and their counts of microseconds. Every count within the calendar is that of exactly one
moment in universal time, and bringing a date-time to universal time keeps its instant.
-/

namespace CheckedActions
namespace DateTime

/-- A count of microseconds within the years of the calendar. -/
def InCalendar (n : Int) : Prop := 0 ≤ n ∧ n < endMicros

instance (n : Int) : Decidable (InCalendar n) := by unfold InCalendar; infer_instance

/-- A moment that exists, with fields of universal time. -/
structure Universal (t : DateTime) : Prop where
  date_ok : t.date.Valid
  time_ok : t.TimeValid
  offset_eq : t.offset = some 0

theorem TimeValid.timeMicros_lt {t : DateTime} (h : t.TimeValid) : t.timeMicros < microsPerDay := by
  obtain ⟨hh, hm, hs, hus⟩ := h
  unfold microsPerSecond at hus
  unfold timeMicros microsPerSecond microsPerDay
  omega

/-- The fields of a time of day are told by its count of microseconds. -/
theorem TimeValid.timeMicros_inj {t u : DateTime} (ht : t.TimeValid) (hu : u.TimeValid)
    (h : t.timeMicros = u.timeMicros) : t.hour = u.hour ∧ t.minute = u.minute ∧
      t.second = u.second ∧ t.microsecond = u.microsecond := by
  obtain ⟨-, htm, hts, htus⟩ := ht
  obtain ⟨-, hum, hus, huus⟩ := hu
  unfold microsPerSecond at htus huus
  unfold timeMicros microsPerSecond at h
  omega

/-- Fields that exist lie within the calendar. -/
theorem inCalendar_localMicros {t : DateTime} (hd : t.date.Valid) (ht : t.TimeValid) :
    InCalendar t.localMicros := by
  have hday := hd.dayNumber_le
  have htime := ht.timeMicros_lt
  have hfirst := hd.one_le_dayNumber
  unfold InCalendar localMicros endMicros
  unfold microsPerDay at htime ⊢
  omega

theorem Universal.inCalendar {t : DateTime} (h : t.Universal) : InCalendar t.localMicros :=
  inCalendar_localMicros h.date_ok h.time_ok

/-- Moments in universal time are told apart by their counts. -/
theorem Universal.localMicros_inj {t u : DateTime} (ht : t.Universal) (hu : u.Universal)
    (h : t.localMicros = u.localMicros) : t = u := by
  have htime := ht.time_ok.timeMicros_lt
  have hutime := hu.time_ok.timeMicros_lt
  have hfirst := ht.date_ok.one_le_dayNumber
  have hufirst := hu.date_ok.one_le_dayNumber
  unfold localMicros at h
  unfold microsPerDay at htime hutime h
  have hday : t.date.dayNumber = u.date.dayNumber := by omega
  have hrest : t.timeMicros = u.timeMicros := by omega
  have hdate := ht.date_ok.dayNumber_inj hu.date_ok hday
  obtain ⟨hh, hm, hs, hus⟩ := ht.time_ok.timeMicros_inj hu.time_ok hrest
  have hoffset := ht.offset_eq.trans hu.offset_eq.symm
  cases t
  cases u
  simp_all

/-- The fields of a count within the calendar are those of the moment with this count. -/
theorem exists_ofMicros? {n : Int} (h : InCalendar n) :
    ∃ u, ofMicros? n = some u ∧ u.Universal ∧ u.localMicros = n := by
  obtain ⟨m, rfl⟩ := Int.eq_ofNat_of_zero_le h.1
  have hm : m < endMicros := Int.ofNat_lt.1 h.2
  have hday : 1 ≤ m / microsPerDay + 1 := Nat.le_add_left 1 _
  have hlast : m / microsPerDay + 1 ≤ Date.lastDay := by
    unfold endMicros at hm
    unfold microsPerDay at hm ⊢
    omega
  refine ⟨_, if_pos h, ⟨Date.valid_ofDayNumber hday hlast, ?_, rfl⟩, ?_⟩
  · simp only [TimeValid, microsPerSecond, microsPerDay]
    omega
  · have hnumber := Date.dayNumber_ofDayNumber hday
    simp only [localMicros, timeMicros, Int.toNat_natCast, hnumber, Nat.add_sub_cancel]
    unfold microsPerSecond microsPerDay
    omega

theorem ofMicros?_eq_none_iff {n : Int} : ofMicros? n = none ↔ ¬ InCalendar n := by
  constructor
  · intro hnone h
    obtain ⟨u, hu, -⟩ := exists_ofMicros? h
    rw [hnone] at hu
    nomatch hu
  · exact fun h => if_neg h

theorem ofMicros?_eq_some_iff {n : Int} {u : DateTime} :
    ofMicros? n = some u ↔ u.Universal ∧ u.localMicros = n := by
  constructor
  · intro hu
    by_cases h : InCalendar n
    · obtain ⟨t, ht, hspec⟩ := exists_ofMicros? h
      rw [hu, Option.some.injEq] at ht
      exact ht ▸ hspec
    · rw [ofMicros?_eq_none_iff.2 h] at hu
      nomatch hu
  · rintro ⟨hu, rfl⟩
    obtain ⟨t, ht, htu, hcount⟩ := exists_ofMicros? hu.inCalendar
    rw [ht, htu.localMicros_inj hu hcount]

/-- The counts within the calendar are those of the moments in universal time. -/
theorem inCalendar_iff {n : Int} :
    InCalendar n ↔ ∃ u : DateTime, u.Universal ∧ u.localMicros = n := by
  constructor
  · intro h
    obtain ⟨u, -, hu⟩ := exists_ofMicros? h
    exact ⟨u, hu⟩
  · rintro ⟨u, hu, rfl⟩
    exact hu.inCalendar

theorem universal_ofDate {d : Date} (h : d.Valid) : (ofDate d).Universal :=
  ⟨h, show 0 < 24 ∧ 0 < 60 ∧ 0 < 60 ∧ 0 < 1000000 by decide, rfl⟩

theorem Valid.universal {t : DateTime} (h : t.Valid) : ({ t with offset := some 0 }).Universal :=
  ⟨h.1, h.2.1, rfl⟩

theorem Universal.toUniversal?_eq {t : DateTime} (h : t.Universal) : t.toUniversal? = some t := by
  rw [toUniversal?, h.offset_eq]
  exact ofMicros?_eq_some_iff.2 ⟨h, by simp⟩

/-- Bringing a date-time to universal time, which keeps its instant, fails only outside the
calendar. -/
theorem Valid.toUniversal?_eq_some_iff {t u : DateTime} (h : t.Valid) :
    t.toUniversal? = some u ↔ u.Universal ∧ u.localMicros = t.instantMicros := by
  cases ho : t.offset with
  | none =>
    have hinstant : t.instantMicros = ({ t with offset := some 0 } : DateTime).localMicros := by
      simp [instantMicros, ho, localMicros, timeMicros]
    rw [toUniversal?, ho, hinstant, Option.some.injEq]
    constructor
    · rintro rfl
      exact ⟨h.universal, rfl⟩
    · rintro ⟨hu, hcount⟩
      exact h.universal.localMicros_inj hu hcount.symm
  | some o =>
    have hinstant : t.instantMicros = t.localMicros - o * (microsPerSecond : Int) := by
      simp [instantMicros, ho]
    rw [toUniversal?, ho, hinstant]
    exact ofMicros?_eq_some_iff

theorem Valid.exists_universal {t : DateTime} (h : t.Valid) (hin : InCalendar t.instantMicros) :
    ∃ u, t.toUniversal? = some u ∧ u.Universal ∧ u.localMicros = t.instantMicros := by
  obtain ⟨u, hu⟩ := inCalendar_iff.1 hin
  exact ⟨u, h.toUniversal?_eq_some_iff.2 hu, hu⟩

end DateTime

namespace Value

open DateTime

/-- Universal time keeps the instant. Fields with an offset become those of the one moment in
universal time that lies as many microseconds after the start of the calendar as the fields less the
offset, if the calendar has it, and are no instant otherwise; so two date-times of one instant have
one value. Fields without an offset and dates keep what they say. -/
theorem toInstant_keeps_instant :
    (∀ (t : DateTime) (o : Int), t.offset = some o →
      (∀ u, (datetime t).toInstant = .ok (some u) ↔
        u.Universal ∧ u.localMicros = t.localMicros - o * 1000000) ∧
      (InCalendar (t.localMicros - o * 1000000) → ∃ u, (datetime t).toInstant = .ok (some u)) ∧
      (¬ InCalendar (t.localMicros - o * 1000000) → (datetime t).toInstant = .ok none)) ∧
    (∀ t : DateTime, t.offset = none →
      (datetime t).toInstant = .ok (some { t with offset := some 0 })) ∧
    (∀ d : Date, (date d).toInstant = .ok (some ⟨d, 0, 0, 0, 0, some 0⟩)) ∧
    (∀ t t' : DateTime, t.offset.isSome → t'.offset.isSome → t.instantMicros = t'.instantMicros →
      InCalendar t.instantMicros →
      ∃ u, (datetime t).toInstant = .ok (some u) ∧ (datetime t').toInstant = .ok (some u)) := by
  have hinstant : ∀ (t : DateTime) (o : Int), t.offset = some o →
      (datetime t).toInstant = .ok (ofMicros? (t.localMicros - o * 1000000)) := by
    intro t o ho
    simp [toInstant, toUniversal?, ho, microsPerSecond]
  refine ⟨fun t o ho => ⟨fun u => ?_, fun hin => ?_, fun hout => ?_⟩, fun t ho => ?_,
    fun d => rfl, fun t t' ho ho' hsame hin => ?_⟩
  · rw [hinstant t o ho, Except.ok.injEq, ofMicros?_eq_some_iff]
  · obtain ⟨u, hu, -⟩ := exists_ofMicros? hin
    exact ⟨u, by rw [hinstant t o ho, hu]⟩
  · rw [hinstant t o ho, ofMicros?_eq_none_iff.2 hout]
  · simp [toInstant, toUniversal?, ho]
  · obtain ⟨o, ho⟩ := Option.isSome_iff_exists.1 ho
    obtain ⟨o', ho'⟩ := Option.isSome_iff_exists.1 ho'
    obtain ⟨u, hu, -⟩ := exists_ofMicros? hin
    have hmicros : t.instantMicros = t.localMicros - o * 1000000 := by
      simp [instantMicros, ho, microsPerSecond]
    have hmicros' : t'.instantMicros = t'.localMicros - o' * 1000000 := by
      simp [instantMicros, ho', microsPerSecond]
    refine ⟨u, ?_, ?_⟩
    · rw [hinstant t o ho, ← hmicros, hu]
    · rw [hinstant t' o' ho', ← hmicros', ← hsame, hu]

/-- Half an hour into March, an hour ahead, it is still the leap day. The first midnight of the
calendar, five hours ahead, lies before the calendar. -/
theorem leap_day_keeps_instant :
    let march : DateTime := ⟨⟨2000, 3, 1⟩, 0, 30, 0, 7, some 3600⟩
    let leapDay : DateTime := ⟨⟨2000, 2, 29⟩, 23, 30, 0, 7, some 0⟩
    let first : DateTime := ⟨⟨1, 1, 1⟩, 0, 0, 0, 0, some 18000⟩
    let bare : DateTime := ⟨⟨2000, 2, 29⟩, 23, 30, 0, 7, none⟩
    (datetime march).toInstant = .ok (some leapDay) ∧ (datetime first).toInstant = .ok none ∧
      (datetime bare).toInstant = .ok (some leapDay) ∧
      ∃ u, (datetime march).toInstant = .ok (some u) ∧
        (datetime leapDay).toInstant = .ok (some u) := by
  intro march leapDay first bare
  obtain ⟨haware, hbare, -, hsame⟩ := toInstant_keeps_instant
  refine ⟨((haware march 3600 rfl).1 leapDay).2 ⟨⟨by decide, by decide, rfl⟩, by decide⟩,
    (haware first 18000 rfl).2.2 (by decide), hbare bare rfl,
    hsame march leapDay rfl rfl (by decide) (by decide)⟩

end Value
end CheckedActions
