import Rustcast.Core.Calendar
import Rustcast.Core.Json

/-!
# Times in RFC 3339

Timestamps as `time.Parse` takes them, with any number of digits in the fraction and any zone, the
instants they denote in nanoseconds since the Unix epoch, and how their texts compare byte by byte
with that of an instant in UTC (`formatNano`).
-/

namespace Rustcast

/-! ## Numbers of a fixed width -/

/-- The last `width` decimal digits of a number. -/
def pad : (width n : Nat) → List UInt8
  | 0, _ => []
  | width + 1, n => pad width (n / 10) ++ [UInt8.ofNat (48 + n % 10)]

@[simp] theorem length_pad (width n : Nat) : (pad width n).length = width := by
  induction width generalizing n with
  | zero => rfl
  | succ width ih => rw [pad, List.length_append, ih, List.length_singleton]

variable {s t : List UInt8} {width n m : Nat}

/-- Texts are compared from the front. -/
theorem append_lt_append {a b : List UInt8} (h : a.length = b.length) :
    a ++ s < b ++ t ↔ a < b ∨ a = b ∧ s < t := by
  induction a generalizing b with
  | nil =>
    rw [List.length_eq_zero_iff.mp h.symm]
    simp
  | cons x a ih =>
    cases b with
    | nil => cases h
    | cons y b =>
      have htail := ih (Nat.succ.inj h)
      rw [List.cons_append, List.cons_append, List.cons_lt_cons_iff, List.cons_lt_cons_iff, htail,
        List.cons.injEq]
      constructor
      · rintro (hxy | ⟨rfl, hab | ⟨rfl, hst⟩⟩)
        · exact .inl (.inl hxy)
        · exact .inl (.inr ⟨rfl, hab⟩)
        · exact .inr ⟨⟨rfl, rfl⟩, hst⟩
      · rintro ((hxy | ⟨rfl, hab⟩) | ⟨⟨rfl, rfl⟩, hst⟩)
        · exact .inl hxy
        · exact .inr ⟨rfl, .inl hab⟩
        · exact .inr ⟨rfl, .inr ⟨rfl, hst⟩⟩

theorem digit_lt_iff : ∀ d < 10, ∀ e < 10, UInt8.ofNat (48 + d) < UInt8.ofNat (48 + e) ↔ d < e := by
  decide

theorem digit_inj : ∀ d < 10, ∀ e < 10, UInt8.ofNat (48 + d) = UInt8.ofNat (48 + e) ↔ d = e := by
  decide

theorem pad_inj (hn : n < 10 ^ width) (hm : m < 10 ^ width) : pad width n = pad width m ↔ n = m := by
  induction width generalizing n m with
  | zero =>
    refine ⟨fun _ => by omega, fun _ => rfl⟩
  | succ width ih =>
    have htens := ih (n := n / 10) (m := m / 10) (by omega) (by omega)
    rw [pad, pad, List.append_singleton_inj, htens,
      digit_inj _ (Nat.mod_lt n (by decide)) _ (Nat.mod_lt m (by decide))]
    omega

theorem pad_lt_iff (hn : n < 10 ^ width) (hm : m < 10 ^ width) : pad width n < pad width m ↔ n < m := by
  induction width generalizing n m with
  | zero =>
    refine ⟨fun h => absurd h (List.not_lt_nil _), fun h => by omega⟩
  | succ width ih =>
    have hn' : n / 10 < 10 ^ width := by omega
    have hm' : m / 10 < 10 ^ width := by omega
    have hlength : (pad width (n / 10)).length = (pad width (m / 10)).length := by simp
    have hone : [UInt8.ofNat (48 + n % 10)] < [UInt8.ofNat (48 + m % 10)] ↔ n % 10 < m % 10 := by
      rw [List.cons_lt_cons_iff, digit_lt_iff _ (Nat.mod_lt n (by decide)) _ (Nat.mod_lt m (by decide))]
      simp
    rw [pad, pad, append_lt_append hlength, ih hn' hm', pad_inj hn' hm', hone]
    omega

/-- A number of a fixed width and what follows it. -/
theorem pad_append_lt (hn : n < 10 ^ width) (hm : m < 10 ^ width) :
    pad width n ++ s < pad width m ++ t ↔ n < m ∨ n = m ∧ s < t := by
  have hlength : (pad width n).length = (pad width m).length := by simp
  rw [append_lt_append hlength, pad_lt_iff hn hm, pad_inj hn hm]

variable {x y : UInt8}

theorem cons_lt_cons_same : x :: s < x :: t ↔ s < t := by
  rw [List.cons_lt_cons_iff]
  constructor
  · rintro (hlt | ⟨-, h⟩)
    · exact absurd hlt (by simp)
    · exact h
  · intro h
    exact .inr ⟨rfl, h⟩

/-- The first bytes decide if they differ. -/
theorem cons_lt_of_lt (h : x < y) : x :: s < y :: t := List.cons_lt_cons_iff.mpr (.inl h)

theorem not_cons_lt_of_lt (h : y < x) : ¬ x :: s < y :: t := by
  intro hlt
  rcases List.cons_lt_cons_iff.mp hlt with hless | ⟨hequal, -⟩
  · exact UInt8.lt_asymm h hless
  · exact UInt8.ne_of_lt h hequal.symm

/-- The first four digits of a longer number. -/
def leading (n : Nat) : Nat := if n < 10000 then n else leading (n / 10)

theorem leading_lt (n : Nat) : leading n < 10 ^ 4 := by
  fun_induction leading n with
  | case1 n h => exact h
  | case2 n h ih => exact ih

/-! ## Timestamps -/

/-- The zones that `time.Parse` takes, with an offset of at most 24 hours and 60 minutes. -/
inductive Zone where
  | utc
  /-- hours and minutes, to the west if negative -/
  | offset (negative : Bool) (hours : Fin 25) (minutes : Fin 61)
  deriving DecidableEq

namespace Zone

def text : Zone → List UInt8
  | utc => [90]
  | offset negative hours minutes =>
    (if negative then 45 else 43) :: (pad 2 hours ++ 58 :: pad 2 minutes)

/-- The seconds that local time is ahead. -/
def seconds : Zone → Int
  | utc => 0
  | offset true hours minutes => -(3600 * hours + 60 * minutes)
  | offset false hours minutes => 3600 * hours + 60 * minutes

end Zone

/-- At least four digits, and a sign for the years before year 0. -/
def yearText (year : Int) : List UInt8 :=
  (if year < 0 then [45] else []) ++ if year.natAbs < 10000 then pad 4 year.natAbs else decimal year.natAbs

/-- A date and what follows it. -/
def Date.text (d : Date) (rest : List UInt8) : List UInt8 :=
  yearText d.year ++ 45 :: (pad 2 d.month ++ 45 :: (pad 2 d.day ++ 84 :: rest))

/-- The time of a day and its date, to the second. -/
structure Clock where
  date : Date
  hour : Nat
  minute : Nat
  second : Nat
  hour_lt : hour < 24
  minute_lt : minute < 60
  second_lt : second < 60

namespace Clock

/-- The seconds of the day. -/
def time (c : Clock) : Nat := 3600 * c.hour + 60 * c.minute + c.second

/-- Seconds since January 1 of year 1. -/
def seconds (c : Clock) : Int := 86400 * c.date.days + c.time

/-- Date and time, with an hour of `width` digits. -/
def textWith (width : Nat) (c : Clock) (suffix : List UInt8) : List UInt8 :=
  c.date.text (pad width c.hour ++ 58 :: (pad 2 c.minute ++ 58 :: (pad 2 c.second ++ suffix)))

abbrev text (c : Clock) (suffix : List UInt8) : List UInt8 := c.textWith 2 suffix

end Clock

/-- The year is written with four digits and no sign. -/
def Date.FourDigits (d : Date) : Prop := 0 ≤ d.year ∧ d.year < 10000

/-- A text that `time.Parse` takes with the layout `time.RFC3339Nano`. -/
structure Timestamp where
  clock : Clock
  /-- the hour is written with one digit -/
  shortHour : Bool := false
  /-- a comma stands for the point -/
  comma : Bool := false
  /-- the digits after the point, which is left out if there are none -/
  fraction : List (Fin 10)
  zone : Zone
  fourDigits : clock.date.FourDigits
  hour_lt : shortHour = true → clock.hour < 10

def digitByte (d : Fin 10) : UInt8 := UInt8.ofNat (48 + d)

def fractionText (comma : Bool) (fraction : List (Fin 10)) : List UInt8 :=
  if fraction = [] then [] else (if comma then 44 else 46) :: fraction.map digitByte

/-- The value of some digits after the point in units of ten to the minus `width`; further digits are
cut off. -/
def fractionValue : Nat → List (Fin 10) → Nat
  | 0, _ => 0
  | _ + 1, [] => 0
  | width + 1, d :: ds => d * 10 ^ width + fractionValue width ds

def unixEpochDays : Int := 719162

namespace Timestamp

/-- Fraction and zone. -/
def suffix (t : Timestamp) : List UInt8 := fractionText t.comma t.fraction ++ t.zone.text

def text (t : Timestamp) : List UInt8 := t.clock.textWith (if t.shortHour then 1 else 2) t.suffix

/-- Nanoseconds since the Unix epoch; `time.Parse` cuts the fraction off after nine digits. -/
def instant (t : Timestamp) : Int :=
  1000000000 * (t.clock.seconds - 86400 * unixEpochDays - t.zone.seconds) + fractionValue 9 t.fraction

/-- The place of date and time among those of two-digit hours, in half seconds and without the zone.
An hour of one digit comes after all that begin with this digit, since a colon is above the digits. -/
def reading (t : Timestamp) : Int :=
  if t.shortHour then
    2 * (86400 * t.clock.date.days + 3600 * (min (10 * t.clock.hour + 10) 24 : Nat)) - 1
  else 2 * t.clock.seconds

end Timestamp

/-! ## Formatting -/

/-- The first digits of a fraction of `width` digits. -/
def fractionDigits : (width n : Nat) → List (Fin 10)
  | 0, _ => []
  | width + 1, n => Fin.ofNat 10 (n / 10 ^ width) :: fractionDigits width n

def trimZeros : List (Fin 10) → List (Fin 10)
  | [] => []
  | d :: ds => if trimZeros ds = [] ∧ d = 0 then [] else d :: trimZeros ds

def clockOfSeconds (seconds : Int) : Clock where
  date := dateOfDays (seconds / 86400)
  hour := (seconds % 86400).toNat / 3600
  minute := (seconds % 86400).toNat / 60 % 60
  second := (seconds % 86400).toNat % 60
  hour_lt := by omega
  minute_lt := by omega
  second_lt := by omega

/-- Date and time of an instant in UTC. -/
def clockOfInstant (instant : Int) : Clock :=
  clockOfSeconds (instant / 1000000000 + 86400 * unixEpochDays)

/-- The fraction of a second of an instant, without zeros at its end. -/
def fractionOfInstant (instant : Int) : List (Fin 10) :=
  trimZeros (fractionDigits 9 (instant % 1000000000).toNat)

/-- An instant in UTC, in the format of `time.RFC3339Nano`. -/
def formatNano (instant : Int) : List UInt8 :=
  (clockOfInstant instant).text (fractionText false (fractionOfInstant instant) ++ Zone.utc.text)

theorem seconds_clockOfSeconds (seconds : Int) : (clockOfSeconds seconds).seconds = seconds := by
  have hday : (clockOfSeconds seconds).date.days = seconds / 86400 := days_dateOfDays _
  rw [Clock.seconds, hday]
  show 86400 * (seconds / 86400) + ((3600 * ((seconds % 86400).toNat / 3600) +
    60 * ((seconds % 86400).toNat / 60 % 60) + (seconds % 86400).toNat % 60 : Nat) : Int) = seconds
  omega

def Trimmed : List (Fin 10) → Prop
  | [] => True
  | d :: ds => (ds = [] → d ≠ 0) ∧ Trimmed ds

theorem trimmed_trimZeros (ds : List (Fin 10)) : Trimmed (trimZeros ds) := by
  induction ds with
  | nil => trivial
  | cons d ds ih =>
    rw [trimZeros]
    split
    · trivial
    next hkept =>
      exact ⟨fun hnil hzero => hkept ⟨hnil, hzero⟩, ih⟩

theorem length_trimZeros_le (ds : List (Fin 10)) : (trimZeros ds).length ≤ ds.length := by
  induction ds with
  | nil => exact Nat.le_refl 0
  | cons d ds ih =>
    rw [trimZeros]
    split
    · exact Nat.zero_le _
    · rw [List.length_cons, List.length_cons]
      omega

theorem fractionValue_nil (width : Nat) : fractionValue width [] = 0 := by
  cases width <;> rfl

theorem fractionValue_trimZeros (width : Nat) (ds : List (Fin 10)) :
    fractionValue width (trimZeros ds) = fractionValue width ds := by
  induction ds generalizing width with
  | nil => rfl
  | cons d ds ih =>
    cases width with
    | zero => rfl
    | succ width =>
      rw [trimZeros]
      split
      next hzero =>
        have htail := ih width
        rw [hzero.1, fractionValue_nil] at htail
        show fractionValue (width + 1) [] = d * 10 ^ width + fractionValue width ds
        rw [← htail, hzero.2]
        exact (Nat.zero_mul _).symm
      · rw [fractionValue, fractionValue, ih]

theorem fractionValue_fractionDigits (width n : Nat) :
    fractionValue width (fractionDigits width n) = n % 10 ^ width := by
  induction width with
  | zero =>
    rw [Nat.pow_zero, Nat.mod_one]
    rfl
  | succ width ih =>
    have hmod := Nat.mod_pow_succ (b := 10) (k := width) (x := n)
    rw [fractionDigits, fractionValue, ih, hmod]
    show n / 10 ^ width % 10 * 10 ^ width + _ = _
    rw [Nat.add_comm, Nat.mul_comm]

/-! ## The order of the texts -/

theorem yearText_fourDigits {year : Int} (h : 0 ≤ year ∧ year < 10000) :
    yearText year = pad 4 year.toNat := by
  have habs : year.natAbs = year.toNat := by omega
  rw [yearText, if_neg (by omega), if_pos (by omega), habs]
  rfl

theorem decimal_div (h : 10 ≤ n) : decimal n = decimal (n / 10) ++ pad 1 n := by
  rw [decimal, if_neg (by omega), decimal, if_neg (by omega), Nat.digits_def' (by decide) (by omega),
    List.reverse_cons, List.map_append]
  rfl

theorem decimal_digit_eq (hpos : n ≠ 0) (h : n < 10) : decimal n = pad 1 n := by
  have hmod : n % 10 = n := Nat.mod_eq_of_lt h
  rw [decimal, if_neg hpos, Nat.digits_of_lt 10 n hpos h, pad, hmod]
  rfl

theorem decimal_of_lt (hlow : 1000 ≤ n) (hhigh : n < 10000) : decimal n = pad 4 n := by
  rw [decimal_div (by omega), decimal_div (by omega), decimal_div (by omega),
    decimal_digit_eq (by omega) (by omega)]
  rfl

theorem decimal_eq (hlong : 10000 ≤ n) :
    ∃ d rest, decimal n = pad 4 (leading n) ++ digitByte d :: rest := by
  induction n using Nat.strongRecOn with
  | ind n ih =>
    rw [decimal_div (by omega), leading, if_neg (by omega)]
    by_cases hfour : n / 10 < 10000
    · rw [leading, if_pos hfour, decimal_of_lt (by omega) hfour]
      exact ⟨Fin.ofNat 10 n, [], rfl⟩
    · obtain ⟨d, rest, htens⟩ := ih (n / 10) (by omega) (by omega)
      refine ⟨d, rest ++ pad 1 n, ?_⟩
      rw [htens, List.append_assoc, List.cons_append]

theorem monthLength_le (leap : Bool) : ∀ month ≤ 12, monthLength leap month ≤ 31 := by
  cases leap <;> decide

namespace Date

variable {d d' : Date}

theorem text_lt_iff_fields (h : d.FourDigits) (h' : d'.FourDigits) (s t : List UInt8) :
    d.text s < d'.text t ↔
      d.Before d' ∨ (d.year = d'.year ∧ d.month = d'.month ∧ d.day = d'.day) ∧ s < t := by
  have hyear : d.year.toNat < 10 ^ 4 ∧ d'.year.toNat < 10 ^ 4 := by
    unfold FourDigits at h h'
    omega
  have hmonth : d.month < 10 ^ 2 ∧ d'.month < 10 ^ 2 := by
    have hm := d.month_valid
    have hm' := d'.month_valid
    omega
  have hday : d.day < 10 ^ 2 ∧ d'.day < 10 ^ 2 := by
    have hd := d.day_valid
    have hd' := d'.day_valid
    have hl := monthLength_le (isLeap d.year) _ d.month_valid.2
    have hl' := monthLength_le (isLeap d'.year) _ d'.month_valid.2
    omega
  -- years are compared as numbers with or without a sign
  have hlt : d.year.toNat < d'.year.toNat ↔ d.year < d'.year := by
    unfold FourDigits at h h'
    omega
  have heq : d.year.toNat = d'.year.toNat ↔ d.year = d'.year := by
    unfold FourDigits at h h'
    omega
  rw [text, text, yearText_fourDigits h, yearText_fourDigits h', pad_append_lt hyear.1 hyear.2,
    cons_lt_cons_same, pad_append_lt hmonth.1 hmonth.2, cons_lt_cons_same,
    pad_append_lt hday.1 hday.2, cons_lt_cons_same, hlt, heq]
  unfold Before
  simp only [and_or_left, or_assoc, and_assoc]

/-- The order of the texts is the order of the days. -/
theorem text_lt_iff (h : d.FourDigits) (h' : d'.FourDigits) (s t : List UInt8) :
    d.text s < d'.text t ↔ d.days < d'.days ∨ d.days = d'.days ∧ s < t := by
  rw [text_lt_iff_fields h h']
  rcases before_or d d' with hbefore | hafter | hsame
  · exact iff_of_true (.inl hbefore) (.inl (days_lt hbefore))
  · have hdays := days_lt hafter
    refine iff_of_false ?_ (by omega)
    rintro (hbefore | ⟨hsame, -⟩)
    · have hback := days_lt hbefore
      omega
    · have hequal := days_eq hsame
      omega
  · have hdays := days_eq hsame
    have hnot : ¬ d.Before d' := fun hbefore => by
      have hlt := days_lt hbefore
      omega
    simp only [hnot, hsame, hdays, Int.lt_irrefl, false_or, true_and, and_self]

/-- The sign of a year before year 0 is below every digit. -/
theorem not_text_lt_of_neg (h : d.FourDigits) (h' : d'.year < 0) (s t : List UInt8) :
    ¬ d.text s < d'.text t := by
  have hfirst : ∀ first : Fin 10, (45 : UInt8) < digitByte first := by decide
  have hsign := hfirst (Fin.ofNat 10 (d.year.toNat / 10 / 10 / 10))
  rw [text, text, yearText_fourDigits h, yearText, if_pos h']
  exact not_cons_lt_of_lt hsign

/-- A year of more digits is compared by its first four, and its fifth is above the hyphen. -/
theorem text_lt_of_long (h : d.FourDigits) (h' : 10000 ≤ d'.year) (s t : List UInt8) :
    d.text s < d'.text t ↔ d.year ≤ leading d'.year.toNat := by
  have hyear : d.year.toNat < 10 ^ 4 := by
    unfold FourDigits at h
    omega
  have habs : d'.year.natAbs = d'.year.toNat := by omega
  have hfifth : ∀ fifth : Fin 10, (45 : UInt8) < digitByte fifth := by decide
  obtain ⟨fifth, rest, hdecimal⟩ := decimal_eq (n := d'.year.toNat) (by omega)
  rw [text, text, yearText_fourDigits h, yearText, if_neg (by omega), if_neg (by omega), habs, hdecimal,
    List.nil_append, List.append_assoc, pad_append_lt hyear (leading_lt _), List.cons_append]
  unfold FourDigits at h
  simp only [cons_lt_of_lt (hfifth fifth), and_true]
  omega

end Date

namespace Clock

variable {c c' : Clock}

/-- The order of the texts up to the seconds is the order of the times. -/
theorem text_lt_iff (h : c.date.FourDigits) (h' : c'.date.FourDigits) (s t : List UInt8) :
    c.text s < c'.text t ↔ c.seconds < c'.seconds ∨ c.seconds = c'.seconds ∧ s < t := by
  have hh := c.hour_lt
  have hh' := c'.hour_lt
  have hm := c.minute_lt
  have hm' := c'.minute_lt
  have hs := c.second_lt
  have hs' := c'.second_lt
  rw [text, text, textWith, textWith, Date.text_lt_iff h h', pad_append_lt (by omega) (by omega),
    cons_lt_cons_same, pad_append_lt (by omega) (by omega), cons_lt_cons_same,
    pad_append_lt (by omega) (by omega)]
  unfold seconds time
  by_cases hst : s < t
  · simp only [hst, and_true]
    omega
  · simp only [hst, and_false, or_false]
    omega

theorem shortHour_lt (h : c.hour < 10) (s t : List UInt8) :
    pad 1 c.hour ++ 58 :: s < pad 2 c'.hour ++ t ↔ c.hour < c'.hour / 10 := by
  have hcolon : ∀ digit : Fin 10, digitByte digit < 58 := by decide
  have hunits := hcolon (Fin.ofNat 10 c'.hour)
  have hour_lt := c'.hour_lt
  have htwo : pad 2 c'.hour ++ t = pad 1 (c'.hour / 10) ++ digitByte (Fin.ofNat 10 c'.hour) :: t := by
    rw [pad, List.append_assoc]
    rfl
  rw [htwo, pad_append_lt (by omega) (by omega)]
  simp only [not_cons_lt_of_lt hunits, and_false, or_false]

end Clock

/-! ## Fractions -/

theorem fractionValue_lt (width : Nat) (ds : List (Fin 10)) : fractionValue width ds < 10 ^ width := by
  induction width generalizing ds with
  | zero => exact Nat.one_pos
  | succ width ih =>
    cases ds with
    | nil => exact Nat.pow_pos (by decide)
    | cons d ds =>
      have htail := ih ds
      have hd : d.val * 10 ^ width ≤ 9 * 10 ^ width := Nat.mul_le_mul_right _ (Nat.le_of_lt_succ d.isLt)
      rw [fractionValue]
      omega

theorem fractionValue_pos {ds : List (Fin 10)} (hne : ds ≠ []) (htrim : Trimmed ds)
    (hlength : ds.length ≤ width) : 0 < fractionValue width ds := by
  induction ds generalizing width with
  | nil => exact absurd rfl hne
  | cons d ds ih =>
    cases width with
    | zero => cases hlength
    | succ width =>
      rw [fractionValue]
      by_cases hnil : ds = []
      · have hd : 0 < d.val := Nat.pos_of_ne_zero fun hzero => htrim.1 hnil (Fin.ext hzero)
        have hpos := Nat.mul_pos hd (Nat.pow_pos (n := width) (show 0 < 10 by decide))
        omega
      · have htail := ih hnil htrim.2 (Nat.le_of_succ_le_succ hlength)
        omega

theorem digitByte_lt_iff (d e : Fin 10) : digitByte d < digitByte e ↔ d < e :=
  digit_lt_iff d d.isLt e e.isLt

theorem digitByte_inj (d e : Fin 10) : digitByte d = digitByte e ↔ d = e := by
  rw [Fin.ext_iff]
  exact digit_inj d d.isLt e e.isLt

theorem digitByte_lt_z (d : Fin 10) : digitByte d < 90 := by
  revert d
  decide

/-- How the digits of two fractions compare. -/
inductive DigitOrder where
  /-- at the first place where they differ -/
  | before
  | after
  | same
  /-- the first ones begin the others, which go on -/
  | begins
  | extends
  deriving DecidableEq

def digitOrder : (a b : List (Fin 10)) → DigitOrder
  | [], [] => .same
  | [], _ :: _ => .begins
  | _ :: _, [] => .extends
  | d :: a, e :: b => if d < e then .before else if e < d then .after else digitOrder a b

/-- A digit decides, or what follows it. -/
theorem digit_cons_lt_iff (d e : Fin 10) :
    digitByte d :: s < digitByte e :: t ↔ d < e ∨ ¬ e < d ∧ s < t := by
  rw [List.cons_lt_cons_iff, digitByte_lt_iff, digitByte_inj]
  have hsplit : d = e ↔ ¬ d < e ∧ ¬ e < d := by omega
  rw [hsplit]
  tauto

variable (a b : List (Fin 10))

/-- The `Z` is above the digits. -/
theorem digits_z_lt_iff : a.map digitByte ++ [90] < b.map digitByte ++ [90] ↔
    digitOrder a b = .before ∨ digitOrder a b = .extends := by
  fun_induction digitOrder a b with
  | case1 => exact iff_of_false (List.lt_irrefl _) (by decide)
  | case2 e b => exact iff_of_false (not_cons_lt_of_lt (digitByte_lt_z e)) (by decide)
  | case3 d a => exact iff_of_true (cons_lt_of_lt (digitByte_lt_z d)) (.inr rfl)
  | case4 d a e b hlt => exact iff_of_true ((digit_cons_lt_iff d e).mpr (.inl hlt)) (.inl rfl)
  | case5 d a e b hlt hgt =>
    refine iff_of_false (fun h => ?_) (by decide)
    exact ((digit_cons_lt_iff d e).mp h).elim hlt fun hrest => hrest.1 hgt
  | case6 d a e b hlt hgt ih =>
    refine (digit_cons_lt_iff d e).trans ?_
    simp only [hlt, hgt, false_or, not_false_eq_true, true_and]
    exact ih

/-- The sign of an offset is below the digits and the `Z`. -/
theorem digits_sign_lt_iff {sign : UInt8} (hsign : sign = 43 ∨ sign = 45) (zone : List UInt8) :
    a.map digitByte ++ sign :: zone < b.map digitByte ++ [90] ↔ digitOrder a b ≠ .after := by
  have hbelow : sign < 90 ∧ ∀ d : Fin 10, sign < digitByte d := by
    rcases hsign with rfl | rfl <;> decide
  fun_induction digitOrder a b with
  | case1 => exact iff_of_true (cons_lt_of_lt hbelow.1) (by decide)
  | case2 e b => exact iff_of_true (cons_lt_of_lt (hbelow.2 e)) (by decide)
  | case3 d a => exact iff_of_true (cons_lt_of_lt (digitByte_lt_z d)) (by decide)
  | case4 d a e b hlt => exact iff_of_true ((digit_cons_lt_iff d e).mpr (.inl hlt)) (by decide)
  | case5 d a e b hlt hgt =>
    refine iff_of_false (fun h => ?_) (by simp)
    exact ((digit_cons_lt_iff d e).mp h).elim hlt fun hrest => hrest.1 hgt
  | case6 d a e b hlt hgt ih =>
    refine (digit_cons_lt_iff d e).trans ?_
    simp only [hlt, hgt, false_or, not_false_eq_true, true_and]
    exact ih

/-- Without zeros at its end, the longer fraction is the greater one. -/
theorem fractionValue_lt_iff (htrim : Trimmed b) (hlength : b.length ≤ width) :
    fractionValue width a < fractionValue width b ↔
      digitOrder a b = .before ∨ digitOrder a b = .begins := by
  fun_induction digitOrder a b generalizing width with
  | case1 => exact iff_of_false (Nat.lt_irrefl _) (by decide)
  | case2 e b =>
    have hpos := fractionValue_pos (List.cons_ne_nil e b) htrim hlength
    rw [fractionValue_nil]
    exact iff_of_true hpos (.inr rfl)
  | case3 d a =>
    rw [fractionValue_nil]
    exact iff_of_false (Nat.not_lt_zero _) (by decide)
  | case4 d a e b hlt | case5 d a e b _ hlt =>
    obtain ⟨width, rfl⟩ : ∃ k, width = k + 1 := ⟨width - 1, by rw [List.length_cons] at hlength; omega⟩
    have ha := fractionValue_lt width a
    have hb := fractionValue_lt width b
    have hstep := Nat.mul_le_mul_right (10 ^ width) (Nat.succ_le_of_lt hlt)
    rw [Nat.succ_mul] at hstep
    simp only [fractionValue, reduceCtorEq, or_false, or_self, iff_true, iff_false]
    omega
  | case6 d a e b hlt hgt ih =>
    obtain ⟨width, rfl⟩ : ∃ k, width = k + 1 := ⟨width - 1, by rw [List.length_cons] at hlength; omega⟩
    have htail := ih htrim.2 (Nat.le_of_succ_le_succ hlength)
    obtain rfl : d = e := by omega
    rw [fractionValue, fractionValue, Nat.add_lt_add_iff_left, htail]

/-- With a point, fractions compare like their digits. -/
theorem fractionText_lt_iff {zone : UInt8} (rest : List UInt8)
    (hzone : (zone < 46 ∧ ∀ d : Fin 10, zone < digitByte d) ∨ 46 < zone ∧ ∀ d : Fin 10, digitByte d < zone) :
    fractionText false a ++ zone :: rest < fractionText false b ++ [90] ↔
      a.map digitByte ++ zone :: rest < b.map digitByte ++ [90] := by
  cases a with
  | nil =>
    cases b with
    | nil => exact .rfl
    | cons e b =>
      rcases hzone with ⟨hpoint, hdigit⟩ | ⟨hpoint, hdigit⟩
      · exact iff_of_true (cons_lt_of_lt hpoint) (cons_lt_of_lt (hdigit e))
      · exact iff_of_false (not_cons_lt_of_lt hpoint) (not_cons_lt_of_lt (hdigit e))
  | cons d a =>
    cases b with
    | nil => exact iff_of_true (cons_lt_of_lt (by decide)) (cons_lt_of_lt (digitByte_lt_z d))
    | cons e b => exact cons_lt_cons_same

theorem fractionText_comma_lt {a : List (Fin 10)} (ha : a ≠ []) (zone : List UInt8)
    (b : List (Fin 10)) : fractionText true a ++ zone < fractionText false b ++ [90] := by
  rw [fractionText, if_neg ha]
  cases b with
  | nil => exact cons_lt_of_lt (by decide)
  | cons e b => exact cons_lt_of_lt (by decide)

/-! ## The order of timestamps -/

namespace Timestamp

/-- Texts are compared by what date and time read, and then by fraction and zone. -/
theorem text_lt_iff_reading (t : Timestamp) {c : Clock} (hyear : c.date.FourDigits) (s : List UInt8) :
    t.text < c.text s ↔ t.reading < 2 * c.seconds ∨ t.reading = 2 * c.seconds ∧ t.suffix < s := by
  rw [text, reading]
  cases hshort : t.shortHour with
  | false =>
    rw [if_neg Bool.false_ne_true, if_neg Bool.false_ne_true, Clock.text_lt_iff t.fourDigits hyear]
    have hlt : 2 * t.clock.seconds < 2 * c.seconds ↔ t.clock.seconds < c.seconds := by omega
    have heq : 2 * t.clock.seconds = 2 * c.seconds ↔ t.clock.seconds = c.seconds := by omega
    rw [hlt, heq]
  | true =>
    rw [if_pos rfl, if_pos rfl, Clock.textWith, Clock.text, Clock.textWith, Date.text_lt_iff t.fourDigits hyear,
      Clock.shortHour_lt (t.hour_lt hshort)]
    -- the reading is an odd number of half seconds, so that it is never equal
    have hhour := c.hour_lt
    have hminute := c.minute_lt
    have hsecond := c.second_lt
    unfold Clock.seconds Clock.time
    omega

/-- The text of a timestamp and that of an instant compare like their times. If date and time read
earlier or later than the second of the instant, this says on which side the timestamp must be; in the
same second the fraction and the zone decide. The first two cases are years without a text of four
digits. -/
def InOrder (t : Timestamp) (instant : Int) : Prop :=
  if (clockOfInstant instant).date.year < 0 then instant ≤ t.instant
  else if 10000 ≤ (clockOfInstant instant).date.year then
    (t.clock.date.year ≤ leading (clockOfInstant instant).date.year.toNat ↔ t.instant < instant)
  else if t.reading < 2 * (clockOfInstant instant).seconds then t.instant < instant
  else if 2 * (clockOfInstant instant).seconds < t.reading then instant ≤ t.instant
  -- a comma is below the point and the `Z`
  else if t.comma = true ∧ t.fraction ≠ [] then t.instant < instant
  else if t.zone = .utc then
    digitOrder t.fraction (fractionOfInstant instant) ≠ .begins ∧
      digitOrder t.fraction (fractionOfInstant instant) ≠ .extends
  else (digitOrder t.fraction (fractionOfInstant instant) ≠ .after ↔ t.instant < instant)

instance (t : Timestamp) (instant : Int) : Decidable (t.InOrder instant) := by
  unfold InOrder
  infer_instance

variable (t : Timestamp) (instant : Int)

/-- In UTC and in the same second, the fractions are compared. -/
theorem instant_lt_iff_of_utc (hzone : t.zone = .utc)
    (hsame : t.clock.seconds = (clockOfInstant instant).seconds) :
    t.instant < instant ↔ fractionValue 9 t.fraction < fractionValue 9 (fractionOfInstant instant) := by
  have hseconds : (clockOfInstant instant).seconds = instant / 1000000000 + 86400 * unixEpochDays :=
    seconds_clockOfSeconds _
  have hvalue : (fractionValue 9 (fractionOfInstant instant) : Int) = instant % 1000000000 := by
    rw [fractionOfInstant, fractionValue_trimZeros, fractionValue_fractionDigits]
    omega
  have hzero : t.zone.seconds = 0 := by rw [hzone]; rfl
  rw [Timestamp.instant]
  omega

theorem fractionText_point (hpoint : ¬ (t.comma = true ∧ t.fraction ≠ [])) :
    fractionText t.comma t.fraction = fractionText false t.fraction := by
  cases hcomma : t.comma with
  | false => rfl
  | true =>
    have hnil : t.fraction = [] := by_contra fun hne => hpoint ⟨hcomma, hne⟩
    rw [hnil]
    rfl

theorem suffix_lt_iff_of_utc (hzone : t.zone = .utc) (hpoint : ¬ (t.comma = true ∧ t.fraction ≠ []))
    (b : List (Fin 10)) :
    t.suffix < fractionText false b ++ Zone.utc.text ↔
      digitOrder t.fraction b = .before ∨ digitOrder t.fraction b = .extends := by
  rw [suffix, hzone, t.fractionText_point hpoint]
  exact (fractionText_lt_iff _ b [] (.inr (by decide))).trans (digits_z_lt_iff _ b)

theorem suffix_lt_iff_of_offset (hzone : t.zone ≠ .utc) (hpoint : ¬ (t.comma = true ∧ t.fraction ≠ []))
    (b : List (Fin 10)) :
    t.suffix < fractionText false b ++ Zone.utc.text ↔ digitOrder t.fraction b ≠ .after := by
  rw [suffix, t.fractionText_point hpoint]
  cases hoffset : t.zone with
  | utc => exact absurd hoffset hzone
  | offset negative hours minutes =>
    have hsign : (if negative then (45 : UInt8) else 43) = 43 ∨
        (if negative then (45 : UInt8) else 43) = 45 := by
      cases negative <;> simp
    refine (fractionText_lt_iff _ b _ (.inl ?_)).trans (digits_sign_lt_iff _ b hsign _)
    cases negative <;> decide

/-- Exactly the timestamps in order have texts that compare with the text of an instant like their
times. -/
theorem text_lt_formatNano_iff :
    (t.text < formatNano instant ↔ t.instant < instant) ↔ t.InOrder instant := by
  unfold InOrder
  have hdate := t.fourDigits
  by_cases hneg : (clockOfInstant instant).date.year < 0
  · have hnot : ¬ t.text < formatNano instant := Date.not_text_lt_of_neg hdate hneg _ _
    rw [if_pos hneg, iff_false_left hnot, Int.not_lt]
  rw [if_neg hneg]
  by_cases hlong : 10000 ≤ (clockOfInstant instant).date.year
  · have htext : t.text < formatNano instant ↔ _ := Date.text_lt_of_long hdate hlong _ _
    rw [if_pos hlong, htext]
  rw [if_neg hlong]
  have htext : t.text < formatNano instant ↔ _ :=
    t.text_lt_iff_reading (c := clockOfInstant instant) ⟨by omega, by omega⟩ _
  rw [htext]
  by_cases hearlier : t.reading < 2 * (clockOfInstant instant).seconds
  · rw [if_pos hearlier, iff_true_left (Or.inl hearlier)]
  rw [if_neg hearlier]
  by_cases hlater : 2 * (clockOfInstant instant).seconds < t.reading
  · have hne : t.reading ≠ 2 * (clockOfInstant instant).seconds := by omega
    have hnot : ∀ rest : Prop, ¬ (t.reading < 2 * (clockOfInstant instant).seconds ∨
        t.reading = 2 * (clockOfInstant instant).seconds ∧ rest) := by
      intro rest
      simp only [hearlier, hne, false_and, or_self, not_false_eq_true]
    rw [if_pos hlater, iff_false_left (hnot _), Int.not_lt]
  rw [if_neg hlater]
  -- the same second
  have hreading : t.reading = 2 * (clockOfInstant instant).seconds := by omega
  simp only [hreading, false_or, true_and, Int.lt_irrefl]
  by_cases hcomma : t.comma = true ∧ t.fraction ≠ []
  · have hless : t.suffix < fractionText false (fractionOfInstant instant) ++ Zone.utc.text := by
      rw [suffix, hcomma.1]
      exact fractionText_comma_lt hcomma.2 _ _
    rw [if_pos hcomma, iff_true_left hless]
  rw [if_neg hcomma]
  by_cases hzone : t.zone = .utc
  · have hclock : t.clock.seconds = (clockOfInstant instant).seconds := by
      rw [reading] at hreading
      split at hreading <;> omega
    have htrim : Trimmed (fractionOfInstant instant) := trimmed_trimZeros _
    have hlength : (fractionOfInstant instant).length ≤ 9 := length_trimZeros_le _
    rw [if_pos hzone, suffix_lt_iff_of_utc t hzone hcomma, instant_lt_iff_of_utc t instant hzone hclock,
      fractionValue_lt_iff t.fraction _ htrim hlength]
    cases digitOrder t.fraction (fractionOfInstant instant) <;> simp
  · rw [if_neg hzone, suffix_lt_iff_of_offset t hzone hcomma]

end Timestamp

end Rustcast
