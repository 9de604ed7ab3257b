import Folio.Naming.OutputName
import Mathlib

/-!
# The order of timestamps

Timestamps are compared as texts, and points in time by their fields, from the year down. Numerals
of one width are in the order of their numbers, whatever stands behind them
(`padded_append_lt_iff`), so the two orders are the same for years of four digits, as far as the
millisecond. Numerals of known widths can also be cut off one after the other, so that a timestamp
is read again (`Instant.ofTimestamp?_timestampChars`). `timestamp_chronological` puts both together.
-/

namespace Folio

/-! ## Numerals of one width -/

/-- Digits are in the order of their values. -/
theorem digitChar_lt_iff {m n : Nat} (hm : m < 10) (hn : n < 10) :
    Nat.digitChar m < Nat.digitChar n ↔ m < n := by
  rw [Char.lt_def, UInt32.lt_iff_toNat_lt]
  show (Nat.digitChar m).toNat < (Nat.digitChar n).toNat ↔ m < n
  rw [Nat.toNat_digitChar_of_lt_ten hm, Nat.toNat_digitChar_of_lt_ten hn]
  omega

/-- Different digits have different values. -/
theorem digitChar_inj {m n : Nat} (hm : m < 10) (hn : n < 10) :
    Nat.digitChar m = Nat.digitChar n ↔ m = n := by
  rw [← Char.toNat_inj, Nat.toNat_digitChar_of_lt_ten hm, Nat.toNat_digitChar_of_lt_ten hn]
  omega

theorem length_padded {width n : Nat} (hwidth : 0 < width) (h : n < 10 ^ width) :
    (padded width n).length = width := by
  have hle := (Nat.length_toDigits_le_iff (b := 10) (by decide) hwidth).2 h
  rw [padded, List.length_append, List.length_replicate]
  omega

/-- A number that has so many digits is not padded. -/
theorem padded_eq_toDigits {width n : Nat} (hwidth : 0 < width) (h : 10 ^ width ≤ n) :
    padded (width + 1) n = Nat.toDigits 10 n := by
  have hlt : width < (Nat.toDigits 10 n).length := Nat.lt_of_not_le
    (mt (Nat.length_toDigits_le_iff (b := 10) (by decide) hwidth).1 (Nat.not_lt.2 h))
  have hnone : width + 1 - (Nat.toDigits 10 n).length = 0 := by omega
  rw [padded, hnone]
  rfl

theorem padded_one {n : Nat} (hn : n < 10) : padded 1 n = [Nat.digitChar n] := by
  rw [padded, Nat.toDigits_of_lt_base hn]
  rfl

/-- The last digit of a numeral, behind the numeral of the other ones. -/
theorem padded_succ {width : Nat} (hwidth : 0 < width) (n : Nat) :
    padded (width + 1) n = padded width (n / 10) ++ [Nat.digitChar (n % 10)] := by
  unfold padded
  rw [Nat.toDigits_eq_if (n := n) (by decide)]
  split
  · next hn =>
    obtain ⟨w, rfl⟩ : ∃ w, width = w + 1 := ⟨width - 1, by omega⟩
    rw [Nat.div_eq_of_lt hn, Nat.toDigits_zero, Nat.mod_eq_of_lt hn]
    simp [List.replicate_succ']
  · simp

/-- **Numerals of one width are in the order of their numbers**, and where these are equal it is up
to what follows. The induction is on the width: the last digit is the first of what follows a
numeral of one digit less. -/
theorem padded_append_lt_iff {width m n : Nat} (hwidth : 0 < width) (hm : m < 10 ^ width)
    (hn : n < 10 ^ width) {cs ds : List Char} :
    padded width m ++ cs < padded width n ++ ds ↔ m < n ∨ m = n ∧ cs < ds := by
  induction width, hwidth using Nat.le_induction generalizing m n cs ds with
  | base =>
    rw [padded_one hm, padded_one hn, List.singleton_append, List.singleton_append,
      List.cons_lt_cons_iff, digitChar_lt_iff hm hn, digitChar_inj hm hn]
  | succ width hwidth ih =>
    have hlast (k : Nat) : k % 10 < 10 := Nat.mod_lt k (by decide)
    have hrest {k : Nat} (hk : k < 10 ^ (width + 1)) : k / 10 < 10 ^ width :=
      Nat.div_lt_of_lt_mul (by rwa [Nat.pow_succ'] at hk)
    rw [padded_succ hwidth, padded_succ hwidth, List.append_assoc, List.append_assoc,
      ih (hrest hm) (hrest hn), List.singleton_append, List.singleton_append, List.cons_lt_cons_iff,
      digitChar_lt_iff (hlast m) (hlast n), digitChar_inj (hlast m) (hlast n)]
    by_cases h : cs < ds <;> simp only [h, and_true, and_false, or_false] <;> omega

/-! ## Reading numerals -/

/-- Reads a numeral of a known width, and leaves what follows it. -/
def numeral? (width : Nat) (cs : List Char) : Option (Nat × List Char) :=
  if width ≤ cs.length ∧ (cs.take width).all Char.isDigit then
    some (Nat.ofDigitChars 10 (cs.take width) 0, cs.drop width)
  else none

theorem isDigit_of_mem_padded {width n : Nat} {c : Char} (h : c ∈ padded width n) :
    c.isDigit = true := by
  rcases List.mem_append.1 h with h | h
  · rw [List.eq_of_mem_replicate h]
    rfl
  · exact Nat.isDigit_of_mem_toDigits (by decide) (by decide) h

/-- Zeros in front do not count. -/
theorem ofDigitChars_padded (width n : Nat) : Nat.ofDigitChars 10 (padded width n) 0 = n := by
  rw [padded, Nat.ofDigitChars_append, Nat.ofDigitChars_replicate_zero, Nat.mul_zero,
    Nat.ofDigitChars_ten_toDigits]

/-- A padded number is read again, whatever stands behind it. -/
theorem numeral?_padded_append {width n : Nat} (hwidth : 0 < width) (h : n < 10 ^ width)
    (cs : List Char) : numeral? width (padded width n ++ cs) = some (n, cs) := by
  have hlength := length_padded hwidth h
  have hdigits : (padded width n).all Char.isDigit = true :=
    List.all_eq_true.2 fun _ => isDigit_of_mem_padded
  have hwhole : width ≤ (padded width n ++ cs).length := by
    rw [List.length_append]
    omega
  rw [numeral?, List.take_left' hlength, List.drop_left' hlength, if_pos ⟨hwhole, hdigits⟩,
    ofDigitChars_padded]

/-! ## Points in time -/

namespace Instant

/-- A point in time as a calendar and a clock show it, in a year of four digits. -/
structure Readable (t : Instant) : Prop where
  year : 1000 ≤ t.year ∧ t.year < 10000
  month : t.month ≤ 12
  day : t.day ≤ 31
  hour : t.hour ≤ 23
  minute : t.minute ≤ 59
  second : t.second ≤ 61
  microsecond : t.microsecond < 1000000

instance (t : Instant) : Decidable t.Readable :=
  decidable_of_iff (_ ∧ _ ∧ _ ∧ _ ∧ _ ∧ _ ∧ _)
    ⟨fun ⟨h₁, h₂, h₃, h₄, h₅, h₆, h₇⟩ => ⟨h₁, h₂, h₃, h₄, h₅, h₆, h₇⟩,
      fun h => ⟨h.1, h.2, h.3, h.4, h.5, h.6, h.7⟩⟩

/-- The fields of a point in time, the longest period first. -/
def fields (t : Instant) : List Nat :=
  [t.year, t.month, t.day, t.hour, t.minute, t.second, t.microsecond]

/-- Of two points in time, the earlier one is lower in the first field in which they differ. -/
instance : LT Instant := ⟨fun a b => a.fields < b.fields⟩

instance (a b : Instant) : Decidable (a < b) := inferInstanceAs (Decidable (a.fields < b.fields))

/-- The point in time with what lies below the millisecond cut off. -/
def toMillisecond (t : Instant) : Instant :=
  { t with microsecond := 1000 * (t.microsecond / 1000) }

/-- Reads a timestamp. -/
def ofTimestamp? (cs : List Char) : Option Instant := do
  let (year, cs) ← numeral? 4 cs
  let (month, cs) ← numeral? 2 cs
  let (day, cs) ← numeral? 2 cs
  guard (cs.head? = some '_')
  let (hour, cs) ← numeral? 2 cs.tail
  let (minute, cs) ← numeral? 2 cs
  let (second, cs) ← numeral? 2 cs
  let (millisecond, cs) ← numeral? 3 cs
  guard (cs = [])
  return ⟨year, month, day, hour, minute, second, 1000 * millisecond⟩

/-- What lies below the millisecond is not in the timestamp. -/
theorem timestampChars_toMillisecond (t : Instant) :
    t.toMillisecond.timestampChars = t.timestampChars := by
  have hcut : 1000 * (t.microsecond / 1000) / 1000 = t.microsecond / 1000 :=
    Nat.mul_div_cancel_left _ (by decide)
  show t.stampChars ++ padded 3 (1000 * (t.microsecond / 1000) / 1000) = _
  rw [hcut, timestampChars]

/-- Every field has a numeral of its width. -/
structure Fits (t : Instant) : Prop where
  year : t.year < 10 ^ 4
  month : t.month < 10 ^ 2
  day : t.day < 10 ^ 2
  hour : t.hour < 10 ^ 2
  minute : t.minute < 10 ^ 2
  second : t.second < 10 ^ 2
  millisecond : t.microsecond / 1000 < 10 ^ 3

section
variable {a b t : Instant}

theorem Readable.fits (h : t.Readable) : t.Fits where
  year := h.year.2
  month := Nat.lt_of_le_of_lt h.month (by decide)
  day := Nat.lt_of_le_of_lt h.day (by decide)
  hour := Nat.lt_of_le_of_lt h.hour (by decide)
  minute := Nat.lt_of_le_of_lt h.minute (by decide)
  second := Nat.lt_of_le_of_lt h.second (by decide)
  millisecond := Nat.div_lt_of_lt_mul h.microsecond

/-- The numerals of a timestamp, each in front of what follows it. -/
theorem Readable.timestampChars_eq (h : t.Readable) :
    t.timestampChars =
      padded 4 t.year ++ (padded 2 t.month ++ (padded 2 t.day ++ '_' ::
        (padded 2 t.hour ++ (padded 2 t.minute ++ (padded 2 t.second ++
          (padded 3 (t.microsecond / 1000) ++ [])))))) := by
  rw [timestampChars, stampChars, dateChars, clockChars,
    ← padded_eq_toDigits (by decide : 0 < 3) h.year.1]
  simp only [List.append_assoc, List.cons_append, List.append_nil]

/-- All timestamps have the same width. -/
theorem Readable.length_timestampChars (h : t.Readable) : t.timestampChars.length = 18 := by
  have htwo : 0 < 2 := by decide
  simp only [h.timestampChars_eq, List.length_append, List.length_cons, List.length_nil,
    length_padded (by decide) h.fits.year, length_padded htwo h.fits.month,
    length_padded htwo h.fits.day, length_padded htwo h.fits.hour,
    length_padded htwo h.fits.minute, length_padded htwo h.fits.second,
    length_padded (by decide) h.fits.millisecond]

/-- **Timestamps are in the order of their points in time**, as far as the millisecond. -/
theorem Readable.timestampChars_lt_iff (ha : a.Readable) (hb : b.Readable) :
    a.timestampChars < b.timestampChars ↔ a.toMillisecond < b.toMillisecond := by
  have hmillisecond : 1000 * (a.microsecond / 1000) < 1000 * (b.microsecond / 1000) ↔
      a.microsecond / 1000 < b.microsecond / 1000 := by omega
  rw [ha.timestampChars_eq, hb.timestampChars_eq,
    padded_append_lt_iff (by decide) ha.fits.year hb.fits.year,
    padded_append_lt_iff (by decide) ha.fits.month hb.fits.month,
    padded_append_lt_iff (by decide) ha.fits.day hb.fits.day, List.cons_lt_cons_iff,
    padded_append_lt_iff (by decide) ha.fits.hour hb.fits.hour,
    padded_append_lt_iff (by decide) ha.fits.minute hb.fits.minute,
    padded_append_lt_iff (by decide) ha.fits.second hb.fits.second,
    padded_append_lt_iff (by decide) ha.fits.millisecond hb.fits.millisecond]
  show _ ↔ a.toMillisecond.fields < b.toMillisecond.fields
  simp only [fields, toMillisecond, List.cons_lt_cons_iff, hmillisecond]
  simp

/-- **A timestamp is read again**, as far as the millisecond. -/
theorem Readable.ofTimestamp?_timestampChars (h : t.Readable) :
    ofTimestamp? t.timestampChars = some t.toMillisecond := by
  have htwo : 0 < 2 := by decide
  simp only [h.timestampChars_eq, ofTimestamp?, Option.bind_eq_bind, Option.bind_some,
    List.head?_cons, List.tail_cons,
    numeral?_padded_append (by decide) h.fits.year, numeral?_padded_append htwo h.fits.month,
    numeral?_padded_append htwo h.fits.day, numeral?_padded_append htwo h.fits.hour,
    numeral?_padded_append htwo h.fits.minute, numeral?_padded_append htwo h.fits.second,
    numeral?_padded_append (by decide) h.fits.millisecond]
  rfl

end

end Instant

namespace Naming

/-- **Timestamps sort chronologically.** In years of four digits the texts that two points in time
give for `[TIMESTAMP]` have one length, and their order by code points is that of the points in
time, cut off below the millisecond. They are equal just if the points in time agree so far, and
what they agree in is read again from the text. -/
theorem timestamp_chronological {s s' : Subject} (h : s.time.Readable) (h' : s'.time.Readable) :
    (s.value .timestamp).length = (s'.value .timestamp).length ∧
      (s.value .timestamp < s'.value .timestamp ↔
        s.time.toMillisecond < s'.time.toMillisecond) ∧
      (s.value .timestamp = s'.value .timestamp ↔
        s.time.toMillisecond = s'.time.toMillisecond) ∧
      Instant.ofTimestamp? (s.value .timestamp) = some s.time.toMillisecond := by
  refine ⟨h.length_timestampChars.trans h'.length_timestampChars.symm, h.timestampChars_lt_iff h',
    ⟨fun heq => ?_, fun heq => ?_⟩, h.ofTimestamp?_timestampChars⟩
  · have hread : some s.time.toMillisecond = some s'.time.toMillisecond :=
      calc some s.time.toMillisecond
        _ = Instant.ofTimestamp? (s.value .timestamp) := h.ofTimestamp?_timestampChars.symm
        _ = Instant.ofTimestamp? (s'.value .timestamp) := by rw [heq]
        _ = some s'.time.toMillisecond := h'.ofTimestamp?_timestampChars
    exact Option.some.inj hread
  · calc s.value .timestamp
      _ = s.time.toMillisecond.timestampChars := (s.time.timestampChars_toMillisecond).symm
      _ = s'.time.toMillisecond.timestampChars := by rw [heq]
      _ = s'.value .timestamp := s'.time.timestampChars_toMillisecond

/-- The last microsecond of a year is cut off, and not rounded up into the next year. -/
theorem timestamp_chronological_midnight :
    let s : Subject := ⟨"a.pdf", 1, ⟨1999, 12, 31, 23, 59, 59, 999999⟩⟩
    let s' : Subject := ⟨"b.pdf", 2, ⟨2000, 1, 1, 0, 0, 0, 0⟩⟩
    (s.time.Readable ∧ s'.time.Readable) ∧ s.value .timestamp = "19991231_235959999".toList ∧
      s.value .timestamp < s'.value .timestamp ∧
      Instant.ofTimestamp? (s.value .timestamp) = some ⟨1999, 12, 31, 23, 59, 59, 999000⟩ := by
  intro s s'
  have h : s.time.Readable := by decide
  have h' : s'.time.Readable := by decide
  obtain ⟨-, hlt, -, hread⟩ := timestamp_chronological h h'
  exact ⟨⟨h, h'⟩, by decide, hlt.2 (by decide), hread.trans (by decide)⟩

end Naming

end Folio
