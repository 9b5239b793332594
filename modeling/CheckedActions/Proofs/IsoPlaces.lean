import CheckedActions.Calendar.Reader
import CheckedActions.Calendar.Timestamp
import CheckedActions.Proofs.Numerals
import Mathlib.Data.List.Induction

/-!
Positions in a text that is read as a date and time: what is left of the text from a position on,
the number written there, and where the clock time ends.
-/

namespace CheckedActions

/-! ### Bytes of a text -/

theorem toList_loop (a : ByteArray) (i : Nat) (bs : List UInt8) :
    ByteArray.toList.loop a i bs = bs.reverse ++ a.data.toList.drop i := by
  fun_induction ByteArray.toList.loop a i bs with
  | case1 i bs h ih =>
    have hi : i < a.data.toList.length := h
    rw [ih, List.drop_eq_getElem_cons hi, ByteArray.get!, getElem!_pos a.data i h]
    simp
  | case2 i bs h => rw [List.drop_eq_nil_of_le (Nat.le_of_not_lt h), List.append_nil]

theorem toList_toByteArray (bs : List UInt8) : bs.toByteArray.toList = bs := by
  rw [ByteArray.toList, toList_loop, List.toList_data_toByteArray]
  rfl

theorem toNat_utf8EncodeChar {c : Char} (h : c.toNat < 128) :
    (String.utf8EncodeChar c).map (·.toNat) = [c.toNat] := by
  have hsize : c.utf8Size = 1 :=
    Char.utf8Size_eq_one_iff.2 (UInt32.le_iff_toNat_le.2 (Nat.le_of_lt_succ h))
  rw [String.utf8EncodeChar_eq_singleton hsize, List.map_singleton, UInt32.toNat_toUInt8]
  congr 1
  exact Nat.mod_eq_of_lt (Nat.lt_trans h (by decide))

namespace IsoReader

/-- The bytes of an ASCII text are the codes of its characters. -/
theorem toList_bytesOf {cs : List Char} (h : ∀ c ∈ cs, c.toNat < 128) :
    (bytesOf (String.ofList cs)).toList = cs.map Char.toNat := by
  have hbytes : (String.ofList cs).toUTF8.toList = cs.flatMap String.utf8EncodeChar :=
    toList_toByteArray _
  rw [bytesOf, hbytes]
  induction cs with
  | nil => rfl
  | cons c cs ih =>
    have hrest := ih (fun d hd => h d (List.mem_cons_of_mem c hd)) (toList_toByteArray _)
    rw [List.flatMap_cons, List.map_append, toNat_utf8EncodeChar (h c List.mem_cons_self)]
    exact congrArg (c.toNat :: ·) hrest

/-! ### What stands at a position -/

/-- The characters that are left of a text from a position on. -/
def Remains (b : Bytes) (i : Nat) (cs : List Char) : Prop :=
  i ≤ b.size ∧ b.toList.drop i = cs.map Char.toNat

theorem remains_bytesOf {cs : List Char} (h : ∀ c ∈ cs, c.toNat < 128) :
    Remains (bytesOf (String.ofList cs)) 0 cs :=
  ⟨Nat.zero_le _, toList_bytesOf h⟩

variable {b : Bytes} {i : Nat} {cs ds zone : List Char}

theorem Remains.size_eq (h : Remains b i cs) : b.size = i + cs.length := by
  have hlength := congrArg List.length h.2
  have hle := h.1
  rw [List.length_drop, List.length_map, Array.length_toList] at hlength
  omega

theorem Remains.append (h : Remains b i (ds ++ cs)) : Remains b (i + ds.length) cs := by
  refine ⟨?_, ?_⟩
  · rw [h.size_eq, List.length_append]
    omega
  · rw [← List.drop_drop, h.2, List.map_append, List.drop_left' (List.length_map Char.toNat)]

theorem Remains.byteAt_eq (h : Remains b i cs) (k : Nat) :
    byteAt b (i + k) = (cs[k]?.map Char.toNat).getD 0 := by
  have hbyte : b[i + k]? = (b.toList.drop i)[k]? := by
    rw [List.getElem?_drop, Array.getElem?_toList]
  rw [byteAt, hbyte, h.2, List.getElem?_map]

theorem Remains.tail {c : Char} (h : Remains b i (c :: cs)) : Remains b (i + 1) cs := by
  rw [← List.singleton_append] at h
  exact h.append

theorem Remains.cons {c : Char} (h : Remains b i (c :: cs)) :
    byteAt b i = c.toNat ∧ Remains b (i + 1) cs :=
  ⟨h.byteAt_eq 0, h.tail⟩

/-! ### Digits -/

theorem isDigit_iff {n : Nat} : isDigit n = true ↔ 48 ≤ n ∧ n ≤ 57 := by
  rw [isDigit, Bool.and_eq_true, decide_eq_true_iff, decide_eq_true_iff]

theorem isDigit_toNat {c : Char} (h : c.isDigit) : isDigit c.toNat := by
  rw [Char.isDigit, Bool.and_eq_true, decide_eq_true_iff, decide_eq_true_iff] at h
  exact isDigit_iff.2 h

theorem Remains.digits?_eq (h : Remains b i (ds ++ cs)) (hd : ∀ c ∈ ds, c.isDigit) :
    digits? b ds.length i = some (Decimal.natOf ds) := by
  -- the number is built from the front, so the last digit is the one read last
  induction ds using List.reverseRecOn generalizing cs with
  | nil => rfl
  | append_singleton ds c ih =>
    rw [List.append_assoc] at h
    have hhigh := ih h fun c hc => hd c (List.mem_append_left _ hc)
    have hlow : isDigit c.toNat := isDigit_toNat (hd c (List.mem_append_right _ List.mem_cons_self))
    have hbyte : byteAt b (i + ds.length) = c.toNat := h.append.cons.1
    rw [List.length_append, List.length_singleton, digits?, hhigh, natOf_snoc]
    simp [hbyte, hlow]

/-- A number in as many digits is read as that number. -/
theorem Remains.number {width n : Nat} (hw : 0 < width) (hn : n < pow10 width)
    (h : Remains b i ((zeroPad width (toString n)).toList ++ cs)) :
    digits? b width i = some n ∧ Remains b (i + width) cs := by
  have hread := h.digits?_eq (isDigits_zeroPad width n).2
  have hrest := h.append
  rw [length_zeroPad hw hn] at hread hrest
  rw [natOf_zeroPad] at hread
  exact ⟨hread, hrest⟩

theorem Remains.pair {n : Nat} (hn : n < 100) (h : Remains b i ((pad2 n).toList ++ cs)) :
    digits? b 2 i = some n ∧ Remains b (i + 2) cs :=
  h.number (by decide) hn

/-- A number does not start with the mark of weeks. -/
theorem Remains.ne_weekMark {n : Nat} (h : Remains b i ((pad2 n).toList ++ cs)) :
    byteAt b i ≠ weekMark := by
  obtain ⟨hne, hdigits⟩ := isDigits_zeroPad 2 n
  obtain ⟨c, ds, htext⟩ := List.exists_cons_of_ne_nil hne
  have hdigit := isDigit_iff.1 (isDigit_toNat (hdigits c (htext ▸ List.mem_cons_self)))
  have htext : (pad2 n).toList = c :: ds := htext
  rw [htext] at h
  rw [h.cons.1, weekMark]
  omega

/-! ### Offsets, or nothing -/

/-- Characters that end a clock time: none at all, or a mark of universal time or of an offset. -/
def IsZone (cs : List Char) : Prop := ∀ c ∈ cs.head?, isZoneMark c.toNat

theorem isZoneMark_iff {n : Nat} : isZoneMark n = true ↔ n = 43 ∨ n = 45 ∨ n = 90 := by
  rw [isZoneMark, Bool.or_eq_true, Bool.or_eq_true, decide_eq_true_iff, decide_eq_true_iff,
    decide_eq_true_iff, or_assoc, dash]

theorem Remains.ends (h : Remains b i zone) (hz : IsZone zone) :
    decide (byteAt b i ≠ 0) = !zone.isEmpty := by
  cases zone with
  | nil =>
    have hbyte : byteAt b i = 0 := h.byteAt_eq 0
    rw [hbyte]
    rfl
  | cons c cs =>
    have hmark := isZoneMark_iff.1 (hz c rfl)
    rw [h.cons.1]
    exact decide_eq_true (by omega)

theorem Remains.digitsEnd_eq (h : Remains b i zone) (hz : IsZone zone) : digitsEnd b i = i := by
  rw [digitsEnd, h.2]
  cases zone with
  | nil => rfl
  | cons c cs =>
    have hmark := isZoneMark_iff.1 (hz c rfl)
    have hdigit : isDigit c.toNat = false := by
      rw [← Bool.not_eq_true, isDigit_iff]
      omega
    simp [hdigit]

/-- The first zone mark is looked for behind the clock time. -/
theorem Remains.zoneStart_eq (h : Remains b i (cs ++ zone)) (hz : IsZone zone)
    (hcs : ∀ c ∈ cs, isZoneMark c.toNat = false) : zoneStart b i = i + cs.length := by
  have hsize := h.size_eq
  have hmarks : ∀ n ∈ cs.map Char.toNat, (!isZoneMark n) = true := by
    intro n hn
    obtain ⟨c, hc, rfl⟩ := List.mem_map.1 hn
    rw [hcs c hc]
    rfl
  have hfirst : (zone.map Char.toNat).takeWhile (!isZoneMark ·) = [] := by
    cases zone with
    | nil => rfl
    | cons c zone => simp [hz c rfl]
  rw [zoneStart, h.2, List.map_append, List.takeWhile_append_of_pos hmarks, hfirst,
    List.append_nil, List.length_map]
  rw [List.length_append] at hsize
  omega

end IsoReader
end CheckedActions
