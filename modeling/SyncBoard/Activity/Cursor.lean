import SyncBoard.Lib.Calendar
import SyncBoard.Lib.Decimal
import SyncBoard.Pagination

/-!
# The cursor of the activity feed

`encodeActivityCursor` and `decodeActivityCursor`, with the parts of `Date` they use. A
cursor that is decoded after it was encoded gives back what it was made from; one for a
year without four digits is refused. What is accepted is the cursor of what it is decoded to.

## Implementation notes

A date is its time value. `new Date` takes the 24th hour where the rest of the time is
zero, and a day up to the 31st in every month; it then denotes a day of the next one.
-/

namespace SyncBoard.Activity

open Calendar Decimal

def msPerDay : Int := 86400000

/-- The year in an ISO string: four digits, or a sign and six digits. -/
def isoYear (year : Int) : JsString :=
  if 0 ≤ year ∧ year ≤ 9999 then padded 4 year.toNat
  else if year < 0 then '-'.toNat :: padded 6 year.natAbs
  else '+'.toNat :: padded 6 year.natAbs

/-- What follows the year in an ISO string. -/
def isoRest (month day time : Nat) : JsString :=
  '-'.toNat :: padded 2 month ++ '-'.toNat :: padded 2 day ++ 'T'.toNat ::
    padded 2 (time / 3600000) ++ ':'.toNat :: padded 2 (time / 60000 % 60) ++ ':'.toNat ::
    padded 2 (time / 1000 % 60) ++ '.'.toNat :: padded 3 (time % 1000) ++ ['Z'.toNat]

/-- `Date.prototype.toISOString`. -/
def toISOString (date : Int) : JsString :=
  let civil := civilDate (date / msPerDay)
  isoYear civil.year ++
    isoRest civil.month.toNat civil.day.toNat (date % msPerDay).toNat

/-- The number in some places of a string. -/
def field (s : JsString) (start width : Nat) : Nat :=
  value ((s.drop start).take width)

/-- The time value of `new Date` for a string that has the form of an ISO string with a
year of four digits. -/
def parseDate (s : JsString) : Option Int :=
  let year := field s 0 4
  let month := field s 5 2
  let day := field s 8 2
  let hour := field s 11 2
  let minute := field s 14 2
  let second := field s 17 2
  let ms := field s 20 3
  let isDate := 1 ≤ month ∧ month ≤ 12 ∧ 1 ≤ day ∧ day ≤ 31
  let isTime := hour ≤ 23 ∧ minute ≤ 59 ∧ second ≤ 59
  let isMidnight := hour = 24 ∧ minute = 0 ∧ second = 0 ∧ ms = 0
  if isDate ∧ (isTime ∨ isMidnight) then
    some (dayNumber ⟨year, month, day⟩ * msPerDay +
      (hour * 3600000 + minute * 60000 + second * 1000 + ms : Nat))
  else none

/-- Postgres BIGINT max. -/
def maxActivityId : Nat := 9223372036854775807

/-- The shape of the timestamp in `CURSOR_PATTERN`, where `0` stands for a digit. -/
def stampShape : JsString :=
  js "0000-00-00T00:00:00.000Z"

def hasStampShape (s : JsString) : Bool :=
  s.length == stampShape.length && (stampShape.zip s).all fun p =>
    if p.1 = '0'.toNat then decide (IsDigit p.2) else p.2 == p.1

/-- `[1-9]\d{0,18}`. -/
def hasIdShape : JsString → Bool
  | [] => false
  | c :: digits =>
      decide (IsDigit c) && c != '0'.toNat && decide (digits.length ≤ 18) &&
        digits.all fun d => decide (IsDigit d)

/-- `CURSOR_PATTERN.exec`: the timestamp and the id of a match. -/
def cursorPattern (cursor : JsString) : Option (JsString × JsString) :=
  match cursor.drop 24 with
  | [] => none
  | bar :: id =>
      if hasStampShape (cursor.take 24) && bar == '|'.toNat && hasIdShape id then
        some (cursor.take 24, id)
      else none

def encodeActivityCursor (createdAt : Int) (id : JsString) : JsString :=
  toISOString createdAt ++ '|'.toNat :: id

def decodeActivityCursor (cursor : JsString) : Except BadRequest (Int × Int) :=
  match cursorPattern cursor with
  | none => .error ⟨"Invalid activity cursor"⟩
  | some (stamp, digits) =>
      match parseDate stamp with
      | none => .error ⟨"Invalid activity cursor"⟩
      | some createdAt =>
          let id := value digits
          if toISOString createdAt ≠ stamp ∨ maxActivityId < id then
            .error ⟨"Invalid activity cursor"⟩
          else .ok (createdAt, id)

/-- `BigInt.prototype.toString`. -/
def bigintToString (n : Int) : JsString :=
  if n < 0 then '-'.toNat :: decimal n.natAbs else decimal n.natAbs

/-- The time of a day by hours, minutes, seconds and milliseconds. -/
theorem time_split (time : Nat) :
    time / 3600000 * 3600000 + time / 60000 % 60 * 60000 + time / 1000 % 60 * 1000 + time % 1000 =
      time := by
  have hsecond : time / 1000 / 60 = time / 60000 := Nat.div_div_eq_div_mul time 1000 60
  have hminute : time / 60000 / 60 = time / 3600000 := Nat.div_div_eq_div_mul time 60000 60
  omega

/-- An ISO string with a year of four digits. -/
def isoString (year month day time : Nat) : JsString :=
  padded 4 year ++ isoRest month day time

theorem toISOString_eq {date : Int}
    (h : 0 ≤ (civilDate (date / msPerDay)).year ∧ (civilDate (date / msPerDay)).year ≤ 9999) :
    toISOString date = isoString (civilDate (date / msPerDay)).year.toNat
      (civilDate (date / msPerDay)).month.toNat (civilDate (date / msPerDay)).day.toNat
      (date % msPerDay).toNat := by
  simp only [toISOString, isoYear, if_pos h, isoString]

theorem field_eq {s : JsString} {start width n : Nat}
    (hs : (s.drop start).take width = padded width n) (h : n < 10 ^ width) :
    field s start width = n := by
  rw [field, hs, value_padded h]

/-- `new Date` reads the fields of an ISO string. -/
theorem parseDate_isoString {year month day time : Nat} (hyear : year ≤ 9999) (hmonth : 1 ≤ month)
    (hmonth' : month ≤ 12) (hday : 1 ≤ day) (hday' : day ≤ 31) (htime : time < 86400000) :
    parseDate (isoString year month day time) =
      some (dayNumber ⟨year, month, day⟩ * msPerDay + time) := by
  have hhour : time / 3600000 ≤ 23 := by omega
  have hminute : time / 60000 % 60 ≤ 59 := by omega
  have hsecond : time / 1000 % 60 ≤ 59 := by omega
  have hyear : field (isoString year month day time) 0 4 = year := field_eq rfl (by omega)
  have hmonth : field (isoString year month day time) 5 2 = month := field_eq rfl (by omega)
  have hday : field (isoString year month day time) 8 2 = day := field_eq rfl (by omega)
  have hhour' : field (isoString year month day time) 11 2 = time / 3600000 :=
    field_eq rfl (by omega)
  have hminute' : field (isoString year month day time) 14 2 = time / 60000 % 60 :=
    field_eq rfl (by omega)
  have hsecond' : field (isoString year month day time) 17 2 = time / 1000 % 60 :=
    field_eq rfl (by omega)
  have hms : field (isoString year month day time) 20 3 = time % 1000 := field_eq rfl (by omega)
  simp only [parseDate, hyear, hmonth, hday, hhour', hminute', hsecond', hms]
  rw [if_pos ⟨⟨by omega, by omega, by omega, by omega⟩, .inl ⟨hhour, hminute, hsecond⟩⟩,
    time_split]

/-- `new Date` reads what `toISOString` writes. -/
theorem parseDate_toISOString {date : Int}
    (h : 0 ≤ (civilDate (date / msPerDay)).year ∧ (civilDate (date / msPerDay)).year ≤ 9999) :
    parseDate (toISOString date) = some date := by
  obtain ⟨hmonth, hmonth', hday, hday'⟩ := civilDate_bounds (date / msPerDay)
  have htime : (date % msPerDay).toNat < 86400000 := by
    simp only [msPerDay]
    omega
  have hcivil : (⟨(civilDate (date / msPerDay)).year.toNat, (civilDate (date / msPerDay)).month.toNat,
      (civilDate (date / msPerDay)).day.toNat⟩ : CivilDate) = civilDate (date / msPerDay) := by
    rw [Int.toNat_of_nonneg h.1, Int.toNat_of_nonneg (by omega), Int.toNat_of_nonneg (by omega)]
  rw [toISOString_eq h, parseDate_isoString (by omega) (by omega) (by omega) (by omega) (by omega)
    htime, hcivil, dayNumber_civilDate]
  simp only [msPerDay]
  congr 1
  omega

theorem cursorPattern_eq_some {cursor stamp id : JsString}
    (h : cursorPattern cursor = some (stamp, id)) :
    cursor = stamp ++ '|'.toNat :: id ∧ hasStampShape stamp = true ∧ hasIdShape id = true := by
  simp only [cursorPattern] at h
  split at h
  · cases h
  next bar rest hdrop =>
    split at h
    next hshape =>
      obtain ⟨rfl, rfl⟩ := Prod.mk.inj (Option.some.inj h)
      rw [Bool.and_eq_true, Bool.and_eq_true, beq_iff_eq] at hshape
      obtain ⟨⟨hstamp, rfl⟩, hid⟩ := hshape
      exact ⟨by rw [← hdrop, List.take_append_drop], hstamp, hid⟩
    · cases h

theorem length_of_hasStampShape {s : JsString} (h : hasStampShape s = true) : s.length = 24 := by
  rw [hasStampShape, Bool.and_eq_true, beq_iff_eq] at h
  exact h.1

/-- A timestamp starts with a digit. -/
theorem isDigit_of_hasStampShape {c : Nat} {s : JsString} (h : hasStampShape (c :: s) = true) :
    IsDigit c := by
  have hshape : stampShape = '0'.toNat :: stampShape.tail := by decide
  rw [hasStampShape, Bool.and_eq_true, hshape, List.zip_cons_cons, List.all_cons,
    Bool.and_eq_true] at h
  simpa using h.2.1

/-- Only a year of four digits makes a timestamp. -/
theorem year_of_hasStampShape {date : Int} {cursor : JsString} {s : JsString}
    (h : hasStampShape s = true) (hs : s <+: toISOString date ++ cursor) :
    0 ≤ (civilDate (date / msPerDay)).year ∧ (civilDate (date / msPerDay)).year ≤ 9999 := by
  by_contra hyear
  obtain ⟨c, t, rfl⟩ : ∃ c t, s = c :: t := by
    apply List.exists_cons_of_ne_nil
    rintro rfl
    exact absurd (length_of_hasStampShape h) (by decide)
  have hdigit := isDigit_of_hasStampShape h
  have hsign : c = '-'.toNat ∨ c = '+'.toNat := by
    obtain ⟨rest, hrest⟩ := hs
    simp only [toISOString, isoYear, if_neg hyear] at hrest
    split at hrest
    · exact .inl (List.cons.inj hrest).1
    · exact .inr (List.cons.inj hrest).1
  rcases hsign with rfl | rfl
  · exact absurd hdigit (by decide)
  · exact absurd hdigit (by decide)

/-- An id that makes a cursor is positive, and its digits denote it. -/
theorem value_bigintToString {id : Int} (h : hasIdShape (bigintToString id) = true) :
    (value (bigintToString id) : Int) = id := by
  by_cases hneg : id < 0
  · rw [bigintToString, if_pos hneg] at h
    simp only [hasIdShape, Bool.and_eq_true, decide_eq_true_eq] at h
    exact absurd h.1.1.1 (by decide)
  · rw [bigintToString, if_neg hneg, value_decimal]
    omega

/-- What is decoded is what was encoded. -/
theorem decode_encode {createdAt id : Int} {r : Int × Int}
    (h : decodeActivityCursor (encodeActivityCursor createdAt (bigintToString id)) = .ok r) :
    r = (createdAt, id) := by
  simp only [decodeActivityCursor] at h
  split at h
  · cases h
  next stamp digits hpattern =>
    obtain ⟨hcursor, hstamp, hid⟩ := cursorPattern_eq_some hpattern
    rw [encodeActivityCursor] at hcursor
    have hyear := year_of_hasStampShape hstamp ⟨_, hcursor.symm⟩
    have hlength : (toISOString createdAt).length = stamp.length := by
      rw [length_of_hasStampShape hstamp, toISOString_eq hyear]
      rfl
    obtain ⟨rfl, htail⟩ := List.append_inj hcursor hlength
    obtain rfl := (List.cons.inj htail).2
    rw [parseDate_toISOString hyear] at h
    dsimp only at h
    split at h
    · cases h
    · rw [value_bigintToString hid] at h
      exact (Except.ok.inj h).symm

/-- The year of a date is one of those that an ISO string writes with four digits. -/
def FourDigitYear (date : Int) : Prop :=
  0 ≤ (civilDate (date / msPerDay)).year ∧ (civilDate (date / msPerDay)).year ≤ 9999

theorem hasStampShape_isoString (year month day time : Nat) :
    hasStampShape (isoString year month day time) = true := by
  have hshape : stampShape = [48, 48, 48, 48, 45, 48, 48, 45, 48, 48, 84, 48, 48, 58, 48, 48, 58,
      48, 48, 46, 48, 48, 48, 90] := by decide
  have hdigit (n : Nat) : IsDigit (48 + n % 10) := ⟨by omega, by omega⟩
  simp [hasStampShape, hshape, isoString, isoRest, padded, hdigit]

theorem hasIdShape_decimal {n : Nat} (h : 1 ≤ n) (h' : n ≤ maxActivityId) :
    hasIdShape (decimal n) = true := by
  obtain ⟨c, digits, hdigits, hc⟩ := exists_decimal_eq_cons h
  have hlength : (c :: digits).length ≤ 18 + 1 := by
    rw [← hdigits]
    refine length_decimal_le (lt_of_le_of_lt h' ?_)
    decide
  have hall : ∀ d ∈ c :: digits, IsDigit d := by
    rw [← hdigits]
    exact isDigit_of_mem_decimal n
  rw [List.length_cons] at hlength
  simp only [hdigits, hasIdShape, Bool.and_eq_true, decide_eq_true_eq, bne_iff_ne, List.all_eq_true]
  exact ⟨⟨⟨hall c List.mem_cons_self, hc⟩, by omega⟩, fun d hd => hall d (List.mem_cons_of_mem c hd)⟩

/-- An id in the pattern is a positive number as it is written. -/
theorem bigintToString_value {digits : JsString} (h : hasIdShape digits = true) :
    1 ≤ value digits ∧ bigintToString (value digits : Int) = digits := by
  cases digits with
  | nil => cases h
  | cons c digits =>
      simp only [hasIdShape, Bool.and_eq_true, decide_eq_true_eq, bne_iff_ne,
        List.all_eq_true] at h
      obtain ⟨⟨⟨hc, hzero⟩, -⟩, hdigits⟩ := h
      obtain ⟨hpos, hdecimal⟩ := decimal_value hc hzero hdigits
      exact ⟨hpos, by rw [bigintToString, if_neg (by omega), Int.natAbs_natCast, hdecimal]⟩

theorem cursorPattern_append {stamp id : JsString} (hstamp : hasStampShape stamp = true)
    (hid : hasIdShape id = true) : cursorPattern (stamp ++ '|'.toNat :: id) = some (stamp, id) := by
  have hlength := length_of_hasStampShape hstamp
  have hdrop : (stamp ++ '|'.toNat :: id).drop 24 = '|'.toNat :: id := by
    rw [← hlength, List.drop_left]
  have htake : (stamp ++ '|'.toNat :: id).take 24 = stamp := by
    rw [← hlength, List.take_left]
  simp only [cursorPattern, hdrop, htake, hstamp, hid, beq_self_eq_true, Bool.and_self, if_true]

/-- Every date with a year of four digits makes a cursor with every id of the column. -/
theorem decode_of_encode {createdAt id : Int} (hyear : FourDigitYear createdAt) (hid : 1 ≤ id)
    (hmax : id ≤ maxActivityId) :
    decodeActivityCursor (encodeActivityCursor createdAt (bigintToString id)) =
      .ok (createdAt, id) := by
  obtain ⟨n, rfl⟩ := Int.eq_ofNat_of_zero_le (by omega : 0 ≤ id)
  have hdecimal : bigintToString (n : Int) = decimal n := by
    rw [bigintToString, if_neg (by omega), Int.natAbs_natCast]
  have hstamp : hasStampShape (toISOString createdAt) = true := by
    rw [toISOString_eq hyear]
    exact hasStampShape_isoString _ _ _ _
  have hshape := @hasIdShape_decimal n (by omega) (by omega)
  have hpattern := cursorPattern_append hstamp hshape
  have hvalid : ¬(toISOString createdAt ≠ toISOString createdAt ∨ maxActivityId < n) := by
    rintro (h | h)
    · exact h rfl
    · omega
  simp only [decodeActivityCursor, encodeActivityCursor, hdecimal, hpattern,
    parseDate_toISOString hyear, value_decimal, if_neg hvalid]

/-- What is accepted is the cursor of a date with a year of four digits and of an id. -/
theorem encode_of_decode {cursor : JsString} {createdAt id : Int}
    (h : decodeActivityCursor cursor = .ok (createdAt, id)) :
    FourDigitYear createdAt ∧ 1 ≤ id ∧ id ≤ maxActivityId ∧
      cursor = encodeActivityCursor createdAt (bigintToString id) := by
  simp only [decodeActivityCursor] at h
  split at h
  · cases h
  next stamp digits hpattern =>
    obtain ⟨rfl, hstamp, hid⟩ := cursorPattern_eq_some hpattern
    split at h
    · cases h
    next date hdate =>
      split at h
      · cases h
      next hvalid =>
        -- an impossible date is read as another one, which is written differently
        obtain ⟨hiso, hmax⟩ : toISOString date = stamp ∧ value digits ≤ maxActivityId := by
          simpa using hvalid
        obtain ⟨rfl, rfl⟩ := Prod.mk.inj (Except.ok.inj h)
        obtain ⟨hpos, hdigits⟩ := bigintToString_value hid
        subst hiso
        have hyear := @year_of_hasStampShape date [] _ hstamp ⟨[], rfl⟩
        exact ⟨hyear, by omega, by omega, by rw [encodeActivityCursor, hdigits]⟩

/-- The accepted cursors are those of a date with a year of four digits and an id that the
column holds, each decoded to these; every other string is refused. -/
theorem decodeActivityCursor_canonical (cursor : JsString) :
    (∀ createdAt id, decodeActivityCursor cursor = .ok (createdAt, id) ↔
      FourDigitYear createdAt ∧ 1 ≤ id ∧ id ≤ maxActivityId ∧
        cursor = encodeActivityCursor createdAt (bigintToString id)) ∧
    ((∃ r, decodeActivityCursor cursor = .ok r) ∨
      decodeActivityCursor cursor = .error ⟨"Invalid activity cursor"⟩) := by
  refine ⟨fun createdAt id => ⟨encode_of_decode, ?_⟩, ?_⟩
  · rintro ⟨hyear, hid, hmax, rfl⟩
    exact decode_of_encode hyear hid hmax
  · rw [decodeActivityCursor]
    split
    · exact .inr rfl
    · split
      · exact .inr rfl
      · dsimp only
        split
        · exact .inr rfl
        · exact .inl ⟨_, rfl⟩

end SyncBoard.Activity
