import CheckedActions.Proofs.IsoReading
import CheckedActions.Proofs.Timestamps
import CheckedActions.Value.Plain

/-!
Reading back what results write. The timestamp of a moment is read as the moment down to the
millisecond if its year has four digits, and as no moment if it has fewer; the text of a date is
read as the date.
-/

namespace CheckedActions
namespace IsoReader

open DateTime (stampLayout)

variable {b : Bytes} {i : Nat} {cs marks : List Char}

theorem spelled_written {layout : List (Nat × Char)} (hmarks : ∀ place ∈ layout, place.2 ∈ marks)
    (ns : List Nat) : Spelled marks (written layout ns) := by
  induction layout generalizing ns with
  | nil =>
    cases ns <;> exact spelled_nil
  | cons place layout ih =>
    cases ns with
    | nil => exact spelled_nil
    | cons n ns =>
      obtain ⟨hmark, hmarks⟩ := List.forall_mem_cons.1 hmarks
      exact (spelled_zeroPad place.1 n).append ((ih hmarks ns).cons hmark)

theorem spelled_stamp (t : DateTime) : Spelled isoMarks t.stamp.toList := by
  rw [DateTime.toList_stamp]
  exact spelled_written (by simp [stampLayout, isoMarks]) _

/-! ### Years of four digits -/

/-- The characters of the milliseconds, behind a point. -/
def millisText (t : DateTime) : List Char :=
  '.' :: (zeroPad 3 (toString (t.microsecond / 1000))).toList

theorem toList_stamp_of_four {t : DateTime} (h : t.yearWidth = 4) :
    t.stamp.toList = t.date.iso.toList ++ 'T' :: (clockText t (millisText t) ++ ['Z']) := by
  rw [DateTime.toList_stamp, h]
  simp [stampLayout, DateTime.stampNumbers, written, toList_date, clockText, millisText, pad2]

theorem millis_lt {t : DateTime} (ht : t.TimeValid) : t.microsecond / 1000 < pow10 3 :=
  Nat.div_lt_of_lt_mul ht.2.2.2

theorem length_millisText {t : DateTime} (ht : t.TimeValid) : (millisText t).length = 4 := by
  rw [millisText, List.length_cons, length_zeroPad (by decide) (millis_lt ht)]

theorem spelled_millisText (t : DateTime) : Spelled [':', '.'] (millisText t) :=
  (spelled_zeroPad 3 _).cons (by decide)

theorem Remains.time?_millis {t : DateTime} (ht : t.TimeValid)
    (h : Remains b i (clockText t (millisText t) ++ ['Z'])) :
    time? b i =
      some (⟨t.hour, t.minute, t.second, t.microsecond / 1000 * 1000, true⟩, some 0) := by
  have hz : IsZone ['Z'] := by simp [IsZone, isZoneMark]
  have hclock : clock? b i (i + 12) =
      some ⟨t.hour, t.minute, t.second, t.microsecond / 1000 * 1000, true⟩ :=
    h.clock?_point ht (by decide) (by decide) (millis_lt ht) hz
  have hzone := h.zoneStart_eq hz (spelled_clockText t (spelled_millisText t)).not_zoneMark
  have hmark := h.append.cons
  have hsize := h.size_eq
  rw [length_clockText ht, length_millisText ht] at hzone hmark
  simp only [List.length_append, length_clockText ht, length_millisText ht] at hsize
  have hinside : i + (8 + 4) ≠ b.size := by
    rw [hsize]
    simp
  have hutc : byteAt b (i + (8 + 4)) = 90 := hmark.1
  have hend : byteAt b (i + (8 + 4) + 1) = 0 := hmark.2.byteAt_eq 0
  simp [time?, hzone, hclock, hinside, hutc, hend]

/-! ### Years of fewer digits -/

/-- There is no number where not every character is a digit. -/
theorem digits?_eq_none {count k : Nat} (hk : k < count) (h : isDigit (byteAt b (i + k)) = false) :
    digits? b count i = none := by
  induction count with
  | zero => exact absurd hk (Nat.not_lt_zero k)
  | succ count ih =>
    by_cases hlast : k = count
    · subst hlast
      simp [digits?, h]
    · rw [digits?, ih (by omega)]
      rfl

/-- A year of fewer than four digits has a dash where a digit is looked for. -/
theorem read?_short {t : DateTime} (hwidth : t.yearWidth < 4) :
    read? t.stamp = none := by
  have h := remains_bytesOf (spelled_stamp t).ascii
  rw [String.ofList_toList, DateTime.toList_stamp] at h
  obtain ⟨-, hrest⟩ := h.number t.yearWidth_pos ((t.yearWidth_le_iff t.yearWidth_pos).1 le_rfl)
  have hdash : isDigit (byteAt (bytesOf t.stamp) (0 + t.yearWidth)) = false := by
    rw [hrest.cons.1]
    decide
  have hyear := digits?_eq_none hwidth hdash
  have hdate : ∀ stop, date? (bytesOf t.stamp) stop = none := by
    intro stop
    simp [date?, hyear]
  simp [read?, hdate]

end IsoReader

namespace DateTime

open IsoReader

/-- The moment down to the millisecond. -/
def wholeMillis (t : DateTime) : DateTime := { t with microsecond := t.microsecond / 1000 * 1000 }

theorem Universal.wholeMillis {t : DateTime} (h : t.Universal) : t.wholeMillis.Universal := by
  obtain ⟨hhour, hminute, hsecond, hmicro⟩ := h.time_ok
  have hle : t.microsecond / 1000 * 1000 ≤ t.microsecond := Nat.div_mul_le_self _ _
  exact ⟨h.date_ok, ⟨hhour, hminute, hsecond, Nat.lt_of_le_of_lt hle hmicro⟩, h.offset_eq⟩

theorem Universal.read?_stamp {t : DateTime} (h : t.Universal) (hyear : 1000 ≤ t.date.year) :
    read? t.stamp = some ({ t.wholeMillis with offset := none }, some 0) := by
  have htext := toList_stamp_of_four ((yearWidth_eq_four_iff h.date_ok).2 hyear)
  exact read?_time h.date_ok (spelled_stamp t) htext (by simp)
    (fun b hb => hb.time?_millis h.time_ok) h.wholeMillis.time_ok

/-- Written dates and times stand for what is read from them, since no blanks are around them. -/
theorem ofText?_eq {text : String} (h : Spelled isoMarks text.toList) :
    ofText? text = match read? text with
      | none => none
      | some (t, none) => some { t with offset := some 0 }
      | some (t, some offset) => ofMicros? (t.localMicros - offset) := by
  have htrim : trimBlanks ([] ++ text.toList ++ []) = text.toList :=
    trimBlanks_eq nofun nofun h.not_blank
  rw [List.nil_append, List.append_nil] at htrim
  rw [ofText?, htrim, String.ofList_toList]
  rcases read? text with _ | ⟨t, _ | offset⟩
  · rfl
  · rfl
  · rfl

/-- A timestamp is read as its moment if the year has four digits, and not at all if it has not. -/
theorem Universal.ofText?_stamp {t : DateTime} (h : t.Universal) :
    ofText? t.stamp = if 1000 ≤ t.date.year then some t.wholeMillis else none := by
  have hfour := yearWidth_eq_four_iff h.date_ok
  rw [ofText?_eq (spelled_stamp t)]
  by_cases hyear : 1000 ≤ t.date.year
  · have hlocal : DateTime.localMicros { t.wholeMillis with offset := none } =
        t.wholeMillis.localMicros := by simp [localMicros, timeMicros]
    have hmoment : ofMicros? t.wholeMillis.localMicros = some t.wholeMillis :=
      ofMicros?_eq_some_iff.2 ⟨h.wholeMillis, rfl⟩
    rw [h.read?_stamp hyear, if_pos hyear]
    simp only [Int.sub_zero, hlocal, hmoment]
  · have hle : t.yearWidth ≤ 4 ↔ t.date.year < 10000 := t.yearWidth_le_iff (by decide)
    have hlast : t.date.year ≤ 9999 := h.date_ok.2.1
    rw [read?_short (by omega), if_neg hyear]

theorem Valid.inCalendar_of_naive {t : DateTime} (h : t.Valid) (ho : t.offset = none) :
    InCalendar t.instantMicros := by
  have hinstant : t.instantMicros = t.localMicros := by simp [instantMicros, ho]
  rw [hinstant]
  exact inCalendar_localMicros h.1 h.2.1

end DateTime

namespace Value

open DateTime

theorem toPlain_datetime {t : DateTime} {s : String} (h : t.timestamp? = some s) :
    (datetime t).toPlain = .ok (str s) := by
  simp [toPlain, h]

theorem toInstant_iso {d : Date} (h : d.Valid) : (str d.iso).toInstant = (date d).toInstant := by
  have hread : ofText? d.iso = some (ofDate d) := by
    rw [ofText?_eq (IsoReader.spelled_date d), IsoReader.read?_date h]
    rfl
  simp [toInstant, hread]

/-- What results make of a date-time is the same moment again down to the millisecond, if its year
in universal time has four digits, and no moment if it has fewer. What they make of a date is the
same date again. -/
theorem toInstant_rendered :
    (∀ t : DateTime, t.Valid → t.offset = none ∨ InCalendar t.instantMicros →
      ∃ (u : DateTime) (s : String), (datetime t).toInstant = .ok (some u) ∧
        t.timestamp? = some s ∧ (datetime t).toPlain = .ok (str s) ∧
        (str s).toInstant = .ok (if 1000 ≤ u.date.year then some u.wholeMillis else none)) ∧
    ∀ d : Date, d.Valid →
      ∃ v, (date d).toPlain = .ok v ∧ v.toInstant = (date d).toInstant := by
  constructor
  · intro t ht hin
    have hin : InCalendar t.instantMicros := hin.elim ht.inCalendar_of_naive id
    obtain ⟨u, hu, huniversal, -⟩ := ht.exists_universal hin
    have hstamp : t.timestamp? = some u.stamp := by simp [timestamp?_eq_map, hu]
    refine ⟨u, u.stamp, ?_, hstamp, toPlain_datetime hstamp, ?_⟩
    · rw [toInstant, hu]
    · rw [toInstant, huniversal.ofText?_stamp]
  · intro d hd
    exact ⟨str d.iso, rfl, toInstant_iso hd⟩

/-- The last moment of a leap day, an hour behind universal time, and the leap day. -/
theorem leap_day_rendered :
    (datetime ⟨⟨2000, 2, 29⟩, 23, 59, 59, 7999, some (-3600)⟩).toPlain =
        .ok (str "2000-03-01T00:59:59.007Z") ∧
      (str "2000-03-01T00:59:59.007Z").toInstant =
        .ok (some ⟨⟨2000, 3, 1⟩, 0, 59, 59, 7000, some 0⟩) ∧
      (date ⟨2000, 2, 29⟩).toPlain = .ok (str "2000-02-29") ∧
      (str "2000-02-29").toInstant = .ok (some ⟨⟨2000, 2, 29⟩, 0, 0, 0, 0, some 0⟩) := by
  obtain ⟨hdatetime, hdate⟩ := toInstant_rendered
  have hvalid : DateTime.Valid ⟨⟨2000, 2, 29⟩, 23, 59, 59, 7999, some (-3600)⟩ :=
    ⟨by decide, by decide, by decide⟩
  obtain ⟨u, s, hinstant, hstamp, hplain, hread⟩ := hdatetime _ hvalid (.inr (by decide))
  have htext : DateTime.timestamp? ⟨⟨2000, 2, 29⟩, 23, 59, 59, 7999, some (-3600)⟩ =
      some "2000-03-01T00:59:59.007Z" := by decide +kernel
  have hday : (⟨2000, 2, 29⟩ : Date).iso = "2000-02-29" := by decide +kernel
  have hmoment : (datetime ⟨⟨2000, 2, 29⟩, 23, 59, 59, 7999, some (-3600)⟩).toInstant =
      .ok (some ⟨⟨2000, 3, 1⟩, 0, 59, 59, 7999, some 0⟩) :=
    congrArg Except.ok (hvalid.toUniversal?_eq_some_iff.2 ⟨⟨by decide, by decide, rfl⟩, by decide⟩)
  obtain ⟨v, hv, hread'⟩ := hdate ⟨2000, 2, 29⟩ (by decide)
  have hiso : (date ⟨2000, 2, 29⟩).toPlain = .ok (str "2000-02-29") := by simp [toPlain, hday]
  rw [htext, Option.some.injEq] at hstamp
  rw [hmoment, Except.ok.injEq, Option.some.injEq] at hinstant
  rw [hiso, Except.ok.injEq] at hv
  subst hstamp hinstant hv
  exact ⟨hplain, hread, hiso, hread'⟩

end Value
end CheckedActions
