import CheckedActions.Proofs.Instants
import CheckedActions.Proofs.IsoPlaces

/-!
Reading back what is written. The extended ISO 8601 text of a date or date-time is read as its
fields, whatever blanks stand around it, so a text is the same moment as the value it writes.
-/

namespace CheckedActions
namespace IsoReader

variable {b : Bytes} {i : Nat} {cs ds zone : List Char}

/-! ### Clock times -/

section
variable {stop more n : Nat} {colons? : Option Bool} {parts : List Nat}

theorem clockParts_colon (hn : n < 100) (hcolons : colons?.getD true = true)
    (h : Remains b i ((pad2 n).toList ++ ':' :: cs)) (hstop : i + 3 < stop) :
    clockParts b stop (more + 1) i colons? parts =
      clockParts b stop more (i + 3) (some true) (parts ++ [n]) := by
  obtain ⟨hpart, hrest⟩ := h.pair hn
  have hcolon : byteAt b (i + 2) = 58 := hrest.cons.1
  simp [clockParts, hpart, hcolon, hcolons, Nat.not_le.2 hstop]

theorem clockParts_last (hn : n < 100) (h : Remains b i ((pad2 n).toList ++ zone))
    (hz : IsZone zone) :
    clockParts b (i + 2) (more + 1) i colons? parts =
      some (Clock.ofParts (parts ++ [n]) 0 (!zone.isEmpty)) := by
  obtain ⟨hpart, hrest⟩ := h.pair hn
  have hends := hrest.ends hz
  have hstop : i + 2 ≤ i + 3 := by omega
  simp only [clockParts, hpart, hends, hstop, if_true]
  rfl

/-- Up to six digits of a fraction count, the ones that are not there as zeros. -/
theorem Remains.fraction?_eq {width f : Nat} (hw : 0 < width) (hw' : width ≤ 6)
    (hf : f < pow10 width) (h : Remains b i ((zeroPad width (toString f)).toList ++ zone))
    (hz : IsZone zone) :
    fraction? b i (i + width) = some (f * pow10 (6 - width), !zone.isEmpty) := by
  obtain ⟨hdigits, hrest⟩ := h.number hw hf
  have hcount : min 6 (i + width - i) = width := by omega
  simp only [fraction?, hcount, hdigits, hrest.digitsEnd_eq hz, hrest.ends hz,
    Option.bind_eq_bind, Option.bind_some]

theorem clockParts_point {width f : Nat} (hn : n < 100) (hw : 0 < width) (hw' : width ≤ 6)
    (hf : f < pow10 width)
    (h : Remains b i ((pad2 n).toList ++ '.' :: ((zeroPad width (toString f)).toList ++ zone)))
    (hz : IsZone zone) :
    clockParts b (i + 3 + width) (more + 1) i (some true) parts =
      some (Clock.ofParts (parts ++ [n]) (f * pow10 (6 - width)) (!zone.isEmpty)) := by
  obtain ⟨hpart, hrest⟩ := h.pair hn
  obtain ⟨hpoint, hrest⟩ := hrest.cons
  have hbyte : byteAt b (i + 2) = 46 := hpoint
  have hfraction := hrest.fraction?_eq hw hw' hf hz
  have hstop : ¬ i + 3 + width ≤ i + 3 := by omega
  simp [clockParts, hpart, hbyte, hstop, hfraction]

end

/-- Hours and minutes are read alike in clock times and in offsets. -/
theorem Remains.hours {hour minute : Nat} (stop : Nat) (hhour : hour < 100) (hminute : minute < 100)
    (h : Remains b i ((pad2 hour).toList ++ ':' :: ((pad2 minute).toList ++ ':' :: cs)))
    (hstop : i + 6 < stop) :
    clock? b i stop = clockParts b stop 1 (i + 6) (some true) [hour, minute] ∧
      Remains b (i + 6) cs := by
  have hafter := (h.pair hhour).2.cons.2
  have hfirst : clock? b i stop = clockParts b stop 2 (i + 3) (some true) [hour] :=
    clockParts_colon hhour rfl h (by omega)
  rw [hfirst]
  exact ⟨clockParts_colon hminute rfl hafter hstop, (hafter.pair hminute).2.cons.2⟩

/-- The characters of hours, minutes and seconds, and of a fraction behind them. -/
def clockText (t : DateTime) (fraction : List Char) : List Char :=
  (pad2 t.hour).toList ++ ':' :: ((pad2 t.minute).toList ++ ':' :: ((pad2 t.second).toList ++
    fraction))

theorem clockText_append (t : DateTime) (fraction : List Char) :
    clockText t fraction ++ cs = (pad2 t.hour).toList ++ ':' :: ((pad2 t.minute).toList ++
      ':' :: ((pad2 t.second).toList ++ (fraction ++ cs))) := by
  simp [clockText]

theorem toList_clock (t : DateTime) : t.clock.toList = clockText t
    (if t.microsecond = 0 then [] else '.' :: (zeroPad 6 (toString t.microsecond)).toList) := by
  unfold DateTime.clock clockText
  split <;> simp

theorem length_pad2 {n : Nat} (h : n < 100) : (pad2 n).toList.length = 2 :=
  length_zeroPad (by decide) h

theorem length_clockText {t : DateTime} (ht : t.TimeValid) (fraction : List Char) :
    (clockText t fraction).length = 8 + fraction.length := by
  obtain ⟨hhour, hminute, hsecond, -⟩ := ht
  simp only [clockText, List.length_append, List.length_cons, length_pad2 (by omega : t.hour < 100),
    length_pad2 (by omega : t.minute < 100), length_pad2 (by omega : t.second < 100)]
  omega

theorem length_clock {t : DateTime} (ht : t.TimeValid) :
    t.clock.toList.length = if t.microsecond = 0 then 8 else 15 := by
  have hmicro := length_zeroPad (by decide : 0 < 6) ht.2.2.2
  rw [toList_clock, length_clockText ht]
  split
  · rfl
  · rw [List.length_cons, hmicro]

/-- A clock time with a fraction of up to six digits. -/
theorem Remains.clock?_point {t : DateTime} (ht : t.TimeValid) {width f : Nat} (hw : 0 < width)
    (hw' : width ≤ 6) (hf : f < pow10 width)
    (h : Remains b i (clockText t ('.' :: (zeroPad width (toString f)).toList) ++ zone))
    (hz : IsZone zone) : clock? b i (i + 9 + width) =
      some ⟨t.hour, t.minute, t.second, f * pow10 (6 - width), !zone.isEmpty⟩ := by
  obtain ⟨hhour, hminute, hsecond, -⟩ := ht
  rw [clockText_append] at h
  obtain ⟨hread, hrest⟩ := h.hours (i + 9 + width) (by omega) (by omega) (by omega)
  have hstop : i + 9 + width = i + 6 + 3 + width := by omega
  rw [hread, hstop, clockParts_point (by omega) hw hw' hf hrest hz]
  rfl

theorem Remains.clock?_eq {t : DateTime} (ht : t.TimeValid)
    (h : Remains b i (t.clock.toList ++ zone)) (hz : IsZone zone) :
    clock? b i (i + t.clock.toList.length) =
      some ⟨t.hour, t.minute, t.second, t.microsecond, !zone.isEmpty⟩ := by
  rw [length_clock ht]
  rw [toList_clock] at h
  by_cases hzero : t.microsecond = 0
  · obtain ⟨hhour, hminute, hsecond, -⟩ := ht
    rw [if_pos hzero] at h ⊢
    rw [clockText_append] at h
    obtain ⟨hread, hrest⟩ := h.hours (i + 8) (by omega) (by omega) (by omega)
    rw [hread, clockParts_last (by omega) hrest hz, hzero]
    rfl
  · rw [if_neg hzero] at h ⊢
    have hshift : t.microsecond * pow10 (6 - 6) = t.microsecond := Nat.mul_one _
    have hread := h.clock?_point ht (by decide) (by decide) ht.2.2.2 hz
    rw [hshift] at hread
    exact hread

/-- The characters of an offset. -/
theorem toList_offsetText (o : Int) : (DateTime.offsetText o).toList =
    (if o < 0 then '-' else '+') :: ((pad2 (o.natAbs / 3600)).toList ++
      ':' :: ((pad2 (o.natAbs / 60 % 60)).toList ++
        if o.natAbs % 60 = 0 then [] else ':' :: (pad2 (o.natAbs % 60)).toList)) := by
  unfold DateTime.offsetText
  by_cases hsign : o < 0 <;> by_cases hzero : o.natAbs % 60 = 0 <;> simp [hsign, hzero]

theorem Remains.clock?_offset {n : Nat} (hn : n < 86400)
    (h : Remains b i ((pad2 (n / 3600)).toList ++ ':' :: ((pad2 (n / 60 % 60)).toList ++
      if n % 60 = 0 then [] else ':' :: (pad2 (n % 60)).toList))) :
    clock? b i b.size = some ⟨n / 3600, n / 60 % 60, n % 60, 0, false⟩ := by
  have hhours : n / 3600 < 100 := by omega
  have hminutes : n / 60 % 60 < 100 := by omega
  have hseconds : n % 60 < 100 := by omega
  have hsize := h.size_eq
  rw [List.length_append, List.length_cons, List.length_append, length_pad2 hhours,
    length_pad2 hminutes] at hsize
  -- without seconds the text ends behind the minutes, where no colon is looked for
  by_cases hzero : n % 60 = 0
  · rw [if_pos hzero] at h hsize
    have hsize : b.size = i + 3 + 2 := hsize
    have hfirst : clock? b i (i + 3 + 2) =
        clockParts b (i + 3 + 2) 2 (i + 3) (some true) [n / 3600] :=
      clockParts_colon hhours rfl h (by omega)
    have hlast := (h.pair hhours).2.cons.2
    rw [hsize, hfirst, clockParts_last hminutes hlast nofun, hzero]
    rfl
  · rw [if_neg hzero] at h hsize
    rw [List.length_cons, length_pad2 hseconds] at hsize
    have hsize : b.size = i + 6 + 2 := hsize
    obtain ⟨hread, hlast⟩ := h.hours (i + 6 + 2) hhours hminutes (by omega)
    rw [← List.append_nil (pad2 (n % 60)).toList] at hlast
    rw [hsize, hread, clockParts_last hseconds hlast nofun]
    rfl

/-! ### Which characters are written -/

/-- Digits and the given marks only. -/
def Spelled (marks cs : List Char) : Prop := ∀ c ∈ cs, c.isDigit ∨ c ∈ marks

section
variable {marks marks' : List Char}

/-- What holds of digits and of the marks holds of every character. -/
theorem Spelled.all {P : Char → Prop} (h : Spelled marks cs) (hdigits : ∀ c : Char, c.isDigit → P c)
    (hmarks : ∀ c ∈ marks, P c) : ∀ c ∈ cs, P c :=
  fun c hc => (h c hc).elim (hdigits c) (hmarks c)

theorem Spelled.mono (h : Spelled marks cs) (hsub : marks ⊆ marks') : Spelled marks' cs :=
  fun c hc => (h c hc).imp id fun hmark => hsub hmark

theorem Spelled.append (h : Spelled marks cs) (h' : Spelled marks ds) : Spelled marks (cs ++ ds) :=
  List.forall_mem_append.2 ⟨h, h'⟩

theorem Spelled.cons {c : Char} (hc : c ∈ marks) (h : Spelled marks cs) : Spelled marks (c :: cs) :=
  List.forall_mem_cons.2 ⟨.inr hc, h⟩

theorem spelled_nil : Spelled marks [] := nofun

theorem spelled_zeroPad (width n : Nat) : Spelled marks (zeroPad width (toString n)).toList :=
  fun c hc => .inl ((isDigits_zeroPad width n).2 c hc)

theorem spelled_clockText (t : DateTime) {fraction : List Char}
    (h : Spelled [':', '.'] fraction) : Spelled [':', '.'] (clockText t fraction) := by
  refine (spelled_zeroPad 2 _).append (Spelled.cons (by decide) ?_)
  refine (spelled_zeroPad 2 _).append (Spelled.cons (by decide) ?_)
  exact (spelled_zeroPad 2 _).append h

theorem spelled_clock (t : DateTime) : Spelled [':', '.'] t.clock.toList := by
  rw [toList_clock]
  refine spelled_clockText t ?_
  split
  · exact spelled_nil
  · exact (spelled_zeroPad _ _).cons (by decide)

theorem spelled_offsetText (o : Int) : Spelled ['+', '-', ':'] (DateTime.offsetText o).toList := by
  have hseconds : Spelled ['+', '-', ':']
      (if o.natAbs % 60 = 0 then [] else ':' :: (pad2 (o.natAbs % 60)).toList) := by
    split
    · exact spelled_nil
    · exact (spelled_zeroPad 2 _).cons (by decide)
  rw [toList_offsetText]
  refine Spelled.cons (by split <;> decide) ?_
  refine (spelled_zeroPad 2 _).append (Spelled.cons (by decide) ?_)
  exact (spelled_zeroPad 2 _).append hseconds

end

/-! ### Times with an offset -/

/-- The characters behind the clock. -/
def zoneText (offset? : Option Int) : List Char :=
  ((offset?.map DateTime.offsetText).getD "").toList

theorem isZone_zoneText (offset? : Option Int) : IsZone (zoneText offset?) := by
  cases offset? with
  | none => exact nofun
  | some o =>
    have htext : zoneText (some o) = (DateTime.offsetText o).toList := rfl
    rw [htext, toList_offsetText]
    rintro c ⟨⟩
    split <;> rfl

/-- Digits, colons and points mark no zone. -/
theorem Spelled.not_zoneMark (h : Spelled [':', '.'] cs) :
    ∀ c ∈ cs, isZoneMark c.toNat = false := by
  refine h.all (fun c hdigit => ?_) (by simp [isZoneMark, dash])
  have hrange := isDigit_iff.1 (isDigit_toNat hdigit)
  rw [← Bool.not_eq_true, isZoneMark_iff]
  omega

theorem offsetMicros_eq (o : Int) :
    offsetMicros (decide (o < 0)) ⟨o.natAbs / 3600, o.natAbs / 60 % 60, o.natAbs % 60, 0, false⟩ =
      o * (DateTime.microsPerSecond : Int) := by
  have hseconds : (o.natAbs / 3600 * 60 + o.natAbs / 60 % 60) * 60 + o.natAbs % 60 = o.natAbs := by
    omega
  simp only [offsetMicros, hseconds, DateTime.microsPerSecond, decide_eq_true_eq]
  split <;> split <;> omega

theorem Remains.time?_eq {t : DateTime} (ht : t.Valid)
    (h : Remains b i (t.clock.toList ++ zoneText t.offset)) :
    time? b i = some (⟨t.hour, t.minute, t.second, t.microsecond, t.offset.isSome⟩,
      t.offset.map (· * (DateTime.microsPerSecond : Int))) := by
  obtain ⟨-, htime, hoffset⟩ := ht
  have hzone := h.zoneStart_eq (isZone_zoneText _) (spelled_clock t).not_zoneMark
  have hclock := h.clock?_eq htime (isZone_zoneText _)
  have hrest := h.append
  -- the offset is marked by the first sign, and a clock time has none
  generalize i + t.clock.toList.length = stop at hzone hclock hrest
  cases ho : t.offset with
  | none =>
    rw [ho] at hclock hrest
    have hsize : stop = b.size := hrest.size_eq.symm
    rw [hsize] at hzone hclock
    simp only [time?, hzone, hclock, Option.bind_eq_bind, Option.bind_some, if_true]
    rfl
  | some o =>
    rw [ho] at hclock hrest
    have htext : zoneText (some o) = (DateTime.offsetText o).toList := rfl
    rw [htext, toList_offsetText] at hrest hclock
    obtain ⟨hlow, hhigh⟩ := hoffset o ho
    obtain ⟨hsign, hdigits⟩ := hrest.cons
    have hsize := hrest.size_eq
    have hinside : stop ≠ b.size := by
      rw [hsize, List.length_cons]
      omega
    have hmark : byteAt b stop ≠ 90 := by
      rw [hsign]
      split <;> decide
    have hnegative : decide (byteAt b stop = dash) = decide (o < 0) := by
      rw [hsign]
      split <;> simp_all [dash]
    have hread := hdigits.clock?_offset (by omega)
    have hless : (o * (DateTime.microsPerSecond : Int)).natAbs < DateTime.microsPerDay := by
      unfold DateTime.microsPerSecond DateTime.microsPerDay
      omega
    simp only [time?, hzone, hclock, hinside, hmark, hread, hnegative, offsetMicros_eq, hless,
      Option.bind_eq_bind, Option.bind_some, if_false, if_true]
    rfl

/-! ### Dates -/

/-- The characters of a date. -/
theorem toList_date (d : Date) : d.iso.toList = (zeroPad 4 (toString d.year)).toList ++
    '-' :: ((pad2 d.month).toList ++ '-' :: (pad2 d.day).toList) := by
  simp [Date.iso]

/-- A date is read up to the tenth character. -/
theorem Remains.date?_eq {d : Date} (hd : d.Valid) (h : Remains b 0 (d.iso.toList ++ cs)) :
    separator? b = some 10 ∧ date? b 10 = some d ∧ Remains b 10 cs := by
  have hexists : Date.of? d.year d.month d.day = some d := if_pos hd
  have hday : d.day < 100 := Nat.lt_of_le_of_lt hd.day_le (by decide)
  obtain ⟨-, hyear, -, hmonth, -, -⟩ := hd
  rw [toList_date] at h
  simp only [List.append_assoc, List.cons_append] at h
  obtain ⟨hyear, hrest⟩ := h.number (by decide) (show d.year < pow10 4 from Nat.lt_succ_of_le hyear)
  have hdash : byteAt b 4 = dash := hrest.cons.1
  have hrest : Remains b 5 _ := hrest.cons.2
  have hdigit : byteAt b 5 ≠ weekMark := hrest.ne_weekMark
  obtain ⟨hmonth, hrest⟩ := hrest.pair (by omega)
  have hdash' : byteAt b 7 = dash := hrest.cons.1
  have hrest : Remains b 8 _ := hrest.cons.2
  obtain ⟨hday, hrest⟩ := hrest.pair hday
  have hsize : b.size ≠ 7 := by
    rw [hrest.size_eq]
    omega
  refine ⟨?_, ?_, hrest⟩
  · simp only [separator?, hsize, hdash, hdigit, if_true, if_false]
  · simp [date?, hyear, hdash, hdigit, hmonth, hdash', hday, hexists]

/-! ### Whole texts -/

/-- All marks of extended texts. -/
def isoMarks : List Char := ['-', '+', 'T', ':', '.', 'Z']

theorem Spelled.ascii (h : Spelled isoMarks cs) : ∀ c ∈ cs, c.toNat < 128 := by
  refine h.all (fun c hdigit => ?_) (by simp [isoMarks])
  have hrange := isDigit_iff.1 (isDigit_toNat hdigit)
  omega

theorem Spelled.not_blank (h : Spelled isoMarks cs) : ∀ c ∈ cs, isBlank c = false := by
  refine h.all (fun c hdigit => ?_) (by simp [isoMarks, isBlank])
  have hrange := isDigit_iff.1 (isDigit_toNat hdigit)
  simp only [isBlank, Bool.or_eq_false_iff, Bool.and_eq_false_iff, decide_eq_false_iff_not]
  omega

theorem spelled_date (d : Date) : Spelled isoMarks d.iso.toList := by
  rw [toList_date]
  refine (spelled_zeroPad 4 _).append (Spelled.cons (by decide) ?_)
  exact (spelled_zeroPad 2 _).append (Spelled.cons (by decide) (spelled_zeroPad 2 _))

theorem toList_dateTime (t : DateTime) : (t.iso "T").toList =
    t.date.iso.toList ++ 'T' :: (t.clock.toList ++ zoneText t.offset) := by
  simp [DateTime.iso, zoneText]

theorem spelled_dateTime (t : DateTime) : Spelled isoMarks (t.iso "T").toList := by
  have hzone : Spelled isoMarks (zoneText t.offset) := by
    cases t.offset with
    | none => exact spelled_nil
    | some o => exact (spelled_offsetText o).mono (by decide)
  rw [toList_dateTime]
  exact (spelled_date t.date).append
    (Spelled.cons (by decide) (((spelled_clock t).mono (by decide)).append hzone))

/-- A text of ten characters is a date. -/
theorem read?_date {d : Date} (hd : d.Valid) :
    read? d.iso = some (⟨d, 0, 0, 0, 0, none⟩, none) := by
  have h := remains_bytesOf (spelled_date d).ascii
  rw [String.ofList_toList] at h
  have hlength := h.size_eq
  rw [← List.append_nil d.iso.toList] at h
  obtain ⟨hseparator, hdate, hrest⟩ := h.date?_eq hd
  have hsize := hrest.size_eq
  rw [hsize, String.length_toList] at hlength
  have hlong : ¬ d.iso.length < 7 := by omega
  have hend : ¬ 10 < (bytesOf d.iso).size := by rw [hsize]; decide
  simp only [read?, hlong, hseparator, hdate, hend, if_false, Option.bind_eq_bind, Option.bind_some]
  rfl

/-- In a longer text the date is read first and then the time behind the separator. -/
theorem read?_time {text : String} {d : Date} {clock : Clock} {offset? : Option Int} (hd : d.Valid)
    (hspelled : Spelled isoMarks text.toList) (htext : text.toList = d.iso.toList ++ 'T' :: cs)
    (hcs : cs ≠ []) (htime : ∀ b, Remains b 11 cs → time? b 11 = some (clock, offset?))
    (hvalid : DateTime.TimeValid
      ⟨d, clock.hour, clock.minute, clock.second, clock.micro, none⟩) :
    read? text =
      some (⟨d, clock.hour, clock.minute, clock.second, clock.micro, none⟩, offset?) := by
  have h := remains_bytesOf hspelled.ascii
  rw [String.ofList_toList] at h
  have hlength := h.size_eq
  rw [htext] at h
  obtain ⟨hseparator, hdate, hrest⟩ := h.date?_eq hd
  obtain ⟨hmark, hrest⟩ := hrest.cons
  have hread := htime _ hrest
  have hsize : (bytesOf text).size = 11 + cs.length := hrest.size_eq
  have hsome := List.length_pos_iff.2 hcs
  rw [hsize, String.length_toList] at hlength
  have hlong : ¬ text.length < 7 := by omega
  have hinside : 10 < (bytesOf text).size := by omega
  have hmore : 11 < (bytesOf text).size := by omega
  have hwidth : 10 + charSize (byteAt (bytesOf text) 10) = 11 := by
    rw [hmark]
    rfl
  simp only [read?, hlong, hseparator, hdate, hinside, hwidth, hmore, hread, hvalid, if_false,
    if_true, Option.bind_eq_bind, Option.bind_some]

/-- The text of a date-time is read as its fields, and its offset in microseconds. -/
theorem read?_dateTime {t : DateTime} (ht : t.Valid) : read? (t.iso "T") =
    some ({ t with offset := none }, t.offset.map (· * (DateTime.microsPerSecond : Int))) := by
  have hclock : t.clock.toList ≠ [] := by simp [toList_clock, clockText]
  exact read?_time ht.1 (spelled_dateTime t) (toList_dateTime t)
    (List.append_ne_nil_of_left_ne_nil hclock _) (fun b h => h.time?_eq ht) ht.2.1

end IsoReader

/-! ### Blanks around a text -/

theorem dropWhile_eq_self {cs : List Char} (h : ∀ c ∈ cs, isBlank c = false) :
    cs.dropWhile isBlank = cs := by
  cases cs with
  | nil => rfl
  | cons c cs => rw [List.dropWhile_cons, h c List.mem_cons_self, if_neg Bool.false_ne_true]

/-- Trimming leaves what has no blanks, whatever blanks stand around it. -/
theorem trimBlanks_eq {before cs after : List Char} (hb : ∀ c ∈ before, isBlank c)
    (ha : ∀ c ∈ after, isBlank c) (hcs : ∀ c ∈ cs, isBlank c = false) :
    trimBlanks (before ++ cs ++ after) = cs := by
  have hreverse : ∀ c ∈ cs.reverse, isBlank c = false := fun c hc => hcs c (List.mem_reverse.1 hc)
  have hback : dropTrailing isBlank (cs ++ after) = cs := by
    rw [dropTrailing, List.reverse_append, List.dropWhile_append_of_pos fun c hc =>
      ha c (List.mem_reverse.1 hc), dropWhile_eq_self hreverse, List.reverse_reverse]
  rw [trimBlanks, List.append_assoc, List.dropWhile_append_of_pos hb]
  cases cs with
  | nil =>
    have hnone : ([] ++ after).dropWhile isBlank = [] := by
      rw [← List.append_nil ([] ++ after)]
      exact List.dropWhile_append_of_pos ha
    rw [hnone]
    rfl
  | cons c cs =>
    rw [List.cons_append, List.dropWhile_cons, hcs c List.mem_cons_self,
      if_neg Bool.false_ne_true, ← List.cons_append, hback]

namespace Value

open DateTime IsoReader

/-- The extended ISO 8601 text of a date-time or of a date, whatever blanks stand around it, is the
same moment as the value it writes, or no moment like that value. -/
theorem toInstant_text (before after : List Char) (hb : ∀ c ∈ before, isBlank c)
    (ha : ∀ c ∈ after, isBlank c) :
    (∀ t : DateTime, t.Valid →
      (str (String.ofList (before ++ (t.iso "T").toList ++ after))).toInstant =
        (datetime t).toInstant) ∧
    (∀ d : Date, d.Valid →
      (str (String.ofList (before ++ d.iso.toList ++ after))).toInstant = (date d).toInstant) := by
  constructor
  · intro t ht
    have htrim := trimBlanks_eq hb ha (spelled_dateTime t).not_blank
    simp only [toInstant, ofText?, String.toList_ofList, htrim, String.ofList_toList,
      read?_dateTime ht, Option.bind_eq_bind, Option.bind_some]
    cases ho : t.offset with
    | none => simp [toUniversal?, ho]
    | some o => simp [toUniversal?, ho, localMicros, timeMicros]
  · intro d hd
    have htrim := trimBlanks_eq hb ha (spelled_date d).not_blank
    simp only [toInstant, ofText?, String.toList_ofList, htrim, String.ofList_toList,
      read?_date hd, Option.bind_eq_bind, Option.bind_some]
    rfl

/-- A date-time behind universal time by hours, minutes and a second, and a date, between blanks. -/
theorem leap_day_text :
    let t : DateTime := ⟨⟨2000, 2, 29⟩, 23, 59, 59, 7, some (-5401)⟩
    (str " 2000-02-29T23:59:59.000007-01:30:01\n").toInstant = (datetime t).toInstant ∧
      (str " 2000-02-29\n").toInstant = (date ⟨2000, 2, 29⟩).toInstant := by
  intro t
  obtain ⟨hdateTime, hdate⟩ := toInstant_text [' '] ['\n'] (by simp [isBlank]) (by simp [isBlank])
  have htext : " 2000-02-29T23:59:59.000007-01:30:01\n" =
      String.ofList ([' '] ++ (t.iso "T").toList ++ ['\n']) := by decide +kernel
  have hday : " 2000-02-29\n" =
      String.ofList ([' '] ++ (⟨2000, 2, 29⟩ : Date).iso.toList ++ ['\n']) := by decide +kernel
  rw [htext, hday]
  exact ⟨hdateTime t ⟨by decide, by decide, by decide⟩, hdate ⟨2000, 2, 29⟩ (by decide)⟩

end Value
end CheckedActions
