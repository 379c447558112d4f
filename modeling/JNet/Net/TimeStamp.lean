import JNet.Lib.Calendar
import JNet.Lib.Decimal
import JNet.Lib.Strings

/-! # `jnet::TimeStamp`

    The two texts of a time (`net/timestamp.cc`).  `ToFormattedString` begins the
    lines of the log and ends the names of old log files, where sorting by name is
    to be sorting by time.  `ToString` hands `snprintf` the size of a pointer.
-/

namespace JNet

open Decimal Calendar

structure TimeStamp where
  microSecondsSinceEpoch_ : Int
  deriving DecidableEq, Repr

namespace TimeStamp

def kMicroSecondsPerSecond : Int := 1000 * 1000

/-- The quotient of `int64_t` rounds towards zero. -/
def seconds (t : TimeStamp) : Int := t.microSecondsSinceEpoch_.tdiv kMicroSecondsPerSecond

def microSeconds (t : TimeStamp) : Int := t.microSecondsSinceEpoch_.tmod kMicroSecondsPerSecond

/-- `"%0wd"`, in which the sign counts. -/
def printf (w : Nat) (n : Int) : Bytes :=
  if n < 0 then 45 :: padded (w - 1) n.natAbs else padded w n.natAbs

/-- What `snprintf` leaves in a buffer it takes to have `size` bytes. -/
def snprintf (size : Nat) (text : Bytes) : Bytes := text.take (size - 1)

/-- `ToString`: the size is `sizeof(buf-1)`, the size of a pointer; `"%.0"` prints no digit
    for zero. -/
def toString (t : TimeStamp) : Bytes :=
  snprintf 8 (printf 1 t.seconds ++ if t.microSeconds = 0 then [] else printf 1 t.microSeconds)

def toFormattedString (t : TimeStamp) (showMicroSeconds : Bool) : Bytes :=
  let tm_time := gmtime_r t.seconds
  let date := printf 4 (tm_time.tm_year + 1900) ++ Strings.ascii "-" ++
    printf 2 (tm_time.tm_mon + 1) ++ Strings.ascii "-" ++ printf 2 tm_time.tm_mday ++
    Strings.ascii " " ++ printf 2 tm_time.tm_hour ++ Strings.ascii ":" ++
    printf 2 tm_time.tm_min ++ Strings.ascii ":" ++ printf 2 tm_time.tm_sec
  if showMicroSeconds then
    snprintf (32 - 1) (date ++ Strings.ascii "." ++ printf 6 t.microSeconds)
  else snprintf (32 - 1) date

/-! ## Times with four-digit years -/

/-- From the epoch up to the end of the year 9999. -/
structure FourDigits (t : TimeStamp) : Prop where
  low : 0 ≤ t.microSecondsSinceEpoch_
  high : t.microSecondsSinceEpoch_ < daysBeforeYear 10000 * 86400 * kMicroSecondsPerSecond

/-- The widths, and the texts between the fields. -/
def format (showMicroSeconds : Bool) : List (Nat × Bytes) :=
  [(4, Strings.ascii "-"), (2, Strings.ascii "-"), (2, Strings.ascii " "), (2, Strings.ascii ":"),
    (2, Strings.ascii ":")] ++
    if showMicroSeconds then [(2, Strings.ascii "."), (6, [])] else [(2, [])]

/-- The values. -/
def values (t : TimeStamp) (showMicroSeconds : Bool) : List Nat :=
  let tm_time := gmtime_r t.seconds
  [(tm_time.tm_year + 1900).toNat, tm_time.tm_mon + 1, tm_time.tm_mday, tm_time.tm_hour,
    tm_time.tm_min, tm_time.tm_sec] ++
    if showMicroSeconds then [t.microSeconds.toNat] else []

theorem printf_natCast (w n : Nat) : printf w n = padded w n := by
  rw [printf, if_neg (by omega), Int.natAbs_natCast]

theorem printf_of_nonneg (w : Nat) {n : Int} (hn : 0 ≤ n) : printf w n = padded w n.toNat := by
  rw [printf, if_neg (by omega)]
  congr 1
  omega

variable {t t' : TimeStamp}

theorem FourDigits.seconds_eq (h : FourDigits t) :
    t.seconds = t.microSecondsSinceEpoch_ / 1000000 ∧
      t.microSeconds = t.microSecondsSinceEpoch_ % 1000000 := by
  simp only [seconds, microSeconds, kMicroSecondsPerSecond]
  rw [Int.tdiv_eq_ediv_of_nonneg h.low, Int.tmod_eq_emod_of_nonneg h.low]
  exact ⟨rfl, rfl⟩

/-- The year has four digits. -/
theorem FourDigits.year (h : FourDigits t) :
    1970 ≤ (gmtime_r t.seconds).tm_year + 1900 ∧ (gmtime_r t.seconds).tm_year + 1900 < 10000 := by
  have hlow := h.low
  have hhigh := h.high
  simp only [kMicroSecondsPerSecond] at hhigh
  have hyear : (gmtime_r t.seconds).tm_year + 1900 = yearOf (t.seconds / 86400) := by
    simp only [gmtime_r, yearDay]
    omega
  rw [hyear, h.seconds_eq.1]
  constructor
  · apply le_yearOf_of_le
    show (0 : Int) ≤ _
    omega
  · apply yearOf_lt_of_lt
    rw [show daysBeforeYear 10000 = 2932897 from rfl] at hhigh ⊢
    omega

theorem FourDigits.fit (h : FourDigits t) (showMicroSeconds : Bool) :
    Fit (format showMicroSeconds) (t.values showMicroSeconds) := by
  obtain ⟨hyear, hyear'⟩ := h.year
  obtain ⟨hmon, hmday, hhour, hmin, hsec⟩ := gmtime_r_bounds t.seconds
  have hmicro := h.seconds_eq.2
  refine .cons (by omega) (by omega) (.cons (by omega) (by omega) (.cons (by omega) (by omega)
    (.cons (by omega) (by omega) (.cons (by omega) (by omega) ?_))))
  cases showMicroSeconds with
  | false => exact .cons (by omega) (by omega) .nil
  | true => exact .cons (by omega) (by omega) (.cons (by omega) (by omega) .nil)

/-- The text is not cut, and consists of the fields. -/
theorem FourDigits.toFormattedString (h : FourDigits t) (showMicroSeconds : Bool) :
    t.toFormattedString showMicroSeconds =
      fields (format showMicroSeconds) (t.values showMicroSeconds) := by
  have hyear := h.year
  have hmicro : 0 ≤ t.microSeconds := by
    rw [h.seconds_eq.2]
    omega
  have hlen := length_fields (h.fit showMicroSeconds)
  have hmon : ((gmtime_r t.seconds).tm_mon : Int) + 1 =
      ((gmtime_r t.seconds).tm_mon + 1 : Nat) := by
    omega
  have htext : ∀ text : Bytes, text.length ≤ 30 → snprintf (32 - 1) text = text :=
    fun text hle => List.take_of_length_le hle
  cases showMicroSeconds with
  | false =>
    rw [← htext (fields (format false) (t.values false)) (by rw [hlen]; decide)]
    simp only [TimeStamp.toFormattedString, fields, format, values, printf_natCast, hmon,
      printf_of_nonneg 4 (show 0 ≤ (gmtime_r t.seconds).tm_year + 1900 by omega),
      Bool.false_eq_true, if_false, List.append_nil, List.append_assoc, List.cons_append,
      List.nil_append]
  | true =>
    rw [← htext (fields (format true) (t.values true)) (by rw [hlen]; decide)]
    simp only [TimeStamp.toFormattedString, fields, format, values, printf_natCast, hmon,
      printf_of_nonneg 4 (show 0 ≤ (gmtime_r t.seconds).tm_year + 1900 by omega),
      printf_of_nonneg 6 hmicro, if_true, List.append_nil, List.append_assoc, List.cons_append,
      List.nil_append]

/-- A later time has later fields. -/
theorem FourDigits.values_lt (h : FourDigits t) (h' : FourDigits t')
    (hlt : t.microSecondsSinceEpoch_ < t'.microSecondsSinceEpoch_) :
    t.values true < t'.values true := by
  obtain ⟨hsec, hmicro⟩ := h.seconds_eq
  obtain ⟨hsec', hmicro'⟩ := h'.seconds_eq
  have hle : t.seconds ≤ t'.seconds := by
    rw [hsec, hsec']
    omega
  rcases lt_or_eq_of_le hle with hearlier | hsame
  · have hrecord := gmtime_r_strictMono hearlier
    have hyear := h.year
    have hyear' := h'.year
    simp only [Tm.record, values, List.cons_append, List.nil_append, List.cons_lt_cons_iff,
      List.lt_irrefl, and_false, or_false] at hrecord ⊢
    omega
  · simp only [values, hsame, List.cons_append, List.nil_append, List.cons_lt_cons_iff,
      if_true, lt_self_iff_false, false_or, true_and]
    rw [hsec, hsec'] at hsame
    exact .inl (by omega)

/-- Within a second the fields without the microseconds are the same; a later second has
    later ones. -/
theorem FourDigits.values_seconds_lt (h : FourDigits t) (h' : FourDigits t')
    (hlt : t.seconds < t'.seconds) : t.values false < t'.values false := by
  have hrecord := gmtime_r_strictMono hlt
  have hyear := h.year
  have hyear' := h'.year
  simp only [Tm.record, values, List.cons_append, List.nil_append, List.cons_lt_cons_iff,
    List.lt_irrefl, and_false, or_false, Bool.false_eq_true, if_false] at hrecord ⊢
  omega

end TimeStamp

open TimeStamp

/-- **Formatted times**: from 1970 to 9999 the texts with microseconds are all of one
    length and are ordered as strings exactly as the times are, those without exactly as
    the seconds are. -/
theorem toFormattedString_lt_iff (t t' : TimeStamp) (h : t.FourDigits) (h' : t'.FourDigits) :
    (t.toFormattedString true).length = 26 ∧
    (t.toFormattedString true < t'.toFormattedString true ↔
      t.microSecondsSinceEpoch_ < t'.microSecondsSinceEpoch_) ∧
    (t.toFormattedString false < t'.toFormattedString false ↔ t.seconds < t'.seconds) := by
  refine ⟨?_, ?_, ?_⟩
  · rw [h.toFormattedString, length_fields (h.fit true)]
    rfl
  · rw [h.toFormattedString, h'.toFormattedString, fields_lt_iff (h.fit true) (h'.fit true)]
    refine ⟨?_, h.values_lt h'⟩
    intro hvalues
    by_contra hle
    rcases lt_or_eq_of_le (not_lt.mp hle) with hlt | heq
    · exact lt_asymm hvalues (h'.values_lt h hlt)
    · have hsame : t = t' := by
        cases t
        cases t'
        exact congrArg _ heq.symm
      rw [hsame] at hvalues
      exact lt_irrefl _ hvalues
  · rw [h.toFormattedString, h'.toFormattedString, fields_lt_iff (h.fit false) (h'.fit false)]
    refine ⟨?_, h.values_seconds_lt h'⟩
    intro hvalues
    by_contra hle
    rcases lt_or_eq_of_le (not_lt.mp hle) with hlt | heq
    · exact lt_asymm hvalues (h'.values_seconds_lt h hlt)
    · have hsame : t.values false = t'.values false := by
        simp only [values, heq, Bool.false_eq_true, if_false]
      rw [hsame] at hvalues
      exact lt_irrefl _ hvalues

/-- The last microsecond of a leap day and the first one behind it. -/
theorem toFormattedString_lt_leap :
    (TimeStamp.mk 1709251199999999).FourDigits ∧ (TimeStamp.mk 1709251200000000).FourDigits ∧
    (TimeStamp.mk 1709251199999999).toFormattedString true =
      Strings.ascii "2024-02-29 23:59:59.999999" ∧
    (TimeStamp.mk 1709251199999999).toFormattedString true <
      (TimeStamp.mk 1709251200000000).toFormattedString true := by
  have h : (TimeStamp.mk 1709251199999999).FourDigits := ⟨by decide, by decide⟩
  have h' : (TimeStamp.mk 1709251200000000).FourDigits := ⟨by decide, by decide⟩
  refine ⟨h, h', by decide +kernel, ?_⟩
  exact (toFormattedString_lt_iff _ _ h h').2.1.mpr (by decide)

/-- **`ToString`**: only seven characters fit, so that of times with `7 + k` digits of seconds
    exactly those have one text that agree in the first seven digits. -/
theorem toString_eq_iff (k : Nat) (t t' : TimeStamp)
    (ht : 10 ^ (6 + k) ≤ t.seconds ∧ t.seconds < 10 ^ (7 + k))
    (ht' : 10 ^ (6 + k) ≤ t'.seconds ∧ t'.seconds < 10 ^ (7 + k)) :
    t.toString = t'.toString ↔ t.seconds / 10 ^ k = t'.seconds / 10 ^ k := by
  have htext : ∀ t : TimeStamp, 10 ^ (6 + k) ≤ t.seconds ∧ t.seconds < 10 ^ (7 + k) →
      t.toString = digits 7 (t.seconds.toNat / 10 ^ k) ∧ t.seconds.toNat / 10 ^ k < 10 ^ 7 ∧
        t.seconds / 10 ^ k = ((t.seconds.toNat / 10 ^ k : Nat) : Int) := by
    intro t ⟨hlow, hhigh⟩
    obtain ⟨n, hn⟩ := Int.eq_ofNat_of_zero_le
      (show 0 ≤ t.seconds from le_trans (by positivity) hlow)
    rw [hn] at hlow hhigh
    have hlow' : 10 ^ (6 + k) ≤ n := by exact_mod_cast hlow
    have hhigh' : n < 10 ^ (6 + k + 1) := by
      rw [show 6 + k + 1 = 7 + k by omega]
      exact_mod_cast hhigh
    have hsize : max 1 (size n) = 7 + k := by
      rw [size_eq hlow' hhigh']
      omega
    refine ⟨?_, ?_, ?_⟩
    · rw [TimeStamp.toString, snprintf, hn, printf_natCast, padded, hsize,
        List.take_append_of_le_length (by rw [length_digits]; omega), take_digits,
        Int.toNat_natCast]
    · rw [hn, Int.toNat_natCast]
      apply Nat.div_lt_of_lt_mul
      rw [← pow_add, show k + 7 = 6 + k + 1 by omega]
      exact hhigh'
    · rw [hn, Int.toNat_natCast]
      norm_cast
  obtain ⟨heq, hfit, hdiv⟩ := htext t ht
  obtain ⟨heq', hfit', hdiv'⟩ := htext t' ht'
  rw [heq, heq', hdiv, hdiv', Int.natCast_inj]
  constructor
  · exact digits_inj hfit hfit'
  · intro hsame
    rw [hsame]

/-- Two times a quarter of an hour apart. -/
theorem toString_eq_minutes :
    (TimeStamp.mk 1709251000000000).toString = (TimeStamp.mk 1709251900000000).toString := by
  refine (toString_eq_iff 3 _ _ ?_ ?_).mpr ?_ <;> decide

end JNet
