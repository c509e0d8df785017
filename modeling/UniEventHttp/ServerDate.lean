import Mathlib.Data.List.FinRange
import Mathlib.Tactic.IntervalCases
import Mathlib.Tactic.Ring

namespace UniEventHttp.ServerDate

/-!
# The date header of the server

`rfc822_date` writes a broken-down time into a string of 29 characters, and
`date_header_now` keeps that string for a second of loop time.  The broken-down
time comes from `time::gmtime`, which is code of another library.
-/

/-- `time::datetime`, as far as it is written. -/
structure DateTime where
  year : Nat
  mon : Fin 12
  mday : Nat
  wday : Fin 7
  hour : Nat
  min : Nat
  sec : Nat
  deriving Repr, DecidableEq

/-! ## Writing -/

/-- `month_snames` -/
def monthSnames : List (List Char) :=
  ["Jan", "Feb", "Mar", "Apr", "May", "Jun", "Jul", "Aug", "Sep", "Oct", "Nov",
    "Dec"].map String.toList

/-- `day_snames` -/
def daySnames : List (List Char) :=
  ["Sun", "Mon", "Tue", "Wed", "Thu", "Fri", "Sat"].map String.toList

/-- `n + '0'`, as a `char` -/
def digit (n : Nat) : Char :=
  Char.ofNat ((n + 48) % 256)

/-- `n / 10 + '0'` and `n % 10 + '0'` -/
def twoDigits (n : Nat) : List Char :=
  [digit (n / 10), digit (n % 10)]

/-- The four digits of a year. -/
def fourDigits (n : Nat) : List Char :=
  [digit (n / 1000), digit (n % 1000 / 100), digit (n % 100 / 10),
    digit (n % 10)]

/-- `rfc822_date`, of the time that `gmtime` returns -/
def rfc822Date (dt : DateTime) : List Char :=
  daySnames.getD dt.wday [] ++ [',', ' '] ++
    twoDigits dt.mday ++ [' '] ++
    monthSnames.getD dt.mon [] ++ [' '] ++
    fourDigits dt.year ++ [' '] ++
    twoDigits dt.hour ++ [':'] ++
    twoDigits dt.min ++ [':'] ++
    twoDigits dt.sec ++ [' ', 'G', 'M', 'T']

/-- The numbers have no more digits than they are given. -/
structure Fits (dt : DateTime) : Prop where
  year : dt.year < 10000
  mday : dt.mday < 100
  hour : dt.hour < 100
  min : dt.min < 100
  sec : dt.sec < 100

/-! ## Reading -/

/-- The value of a decimal digit. -/
def digitValue? (c : Char) : Option Nat :=
  if 48 ≤ c.toNat ∧ c.toNat ≤ 57 then some (c.toNat - 48) else none

/-- A number of a fixed width, after the digits that are read already. -/
def readNumber : (width read : Nat) → List Char → Option (Nat × List Char)
  | 0, read, text => some (read, text)
  | _ + 1, _, [] => none
  | width + 1, read, c :: rest =>
      (digitValue? c).bind fun value =>
        readNumber width (10 * read + value) rest

/-- One of the names, each of which has three characters. -/
def readName
    {count : Nat}
    (names : Fin count → List Char)
    (text : List Char) :
    Option (Fin count × List Char) :=
  ((List.finRange count).find? fun index => names index == text.take 3).map
    fun index => (index, text.drop 3)

/-- These characters, and nothing else. -/
def readMark (mark text : List Char) : Option (List Char) :=
  if text.take mark.length = mark then some (text.drop mark.length) else none

/-- A date in the format of `rfc822_date`. -/
def readDate (text : List Char) : Option DateTime := do
  let (wday, text) ← readName (fun index : Fin 7 => daySnames.getD index []) text
  let text ← readMark [',', ' '] text
  let (mday, text) ← readNumber 2 0 text
  let text ← readMark [' '] text
  let (mon, text) ← readName (fun index : Fin 12 => monthSnames.getD index []) text
  let text ← readMark [' '] text
  let (year, text) ← readNumber 4 0 text
  let text ← readMark [' '] text
  let (hour, text) ← readNumber 2 0 text
  let text ← readMark [':'] text
  let (min, text) ← readNumber 2 0 text
  let text ← readMark [':'] text
  let (sec, text) ← readNumber 2 0 text
  if text = [' ', 'G', 'M', 'T'] then
    some
      { year := year, mon := mon, mday := mday, wday := wday, hour := hour,
        min := min, sec := sec }
  else
    none

/-- The digits of a number in a fixed width. -/
def padded : (width n : Nat) → List Char
  | 0, _ => []
  | width + 1, n => digit (n / 10 ^ width) :: padded width (n % 10 ^ width)

theorem toNat_digit {n : Nat} (small : n < 10) : (digit n).toNat = n + 48 := by
  unfold digit
  interval_cases n <;> rfl

theorem digitValue?_eq_some_iff {c : Char} {n : Nat} :
    digitValue? c = some n ↔ n < 10 ∧ c = digit n := by
  unfold digitValue?
  constructor
  · intro reads
    split at reads
    · rename_i bounds
      cases reads
      have small : c.toNat - 48 < 10 := by omega
      refine ⟨small, ?_⟩
      apply Char.ext
      apply UInt32.toNat.inj
      have value := toNat_digit small
      change c.toNat = (digit (c.toNat - 48)).toNat
      omega
    · cases reads
  · rintro ⟨small, rfl⟩
    have value := toNat_digit small
    rw [if_pos (by omega), value]
    simp

/-- A number is read exactly from its digits. -/
theorem readNumber_eq_some_iff
    {width read n : Nat}
    {text rest : List Char} :
    readNumber width read text = some (n, rest) ↔
      ∃ value < 10 ^ width,
        n = read * 10 ^ width + value ∧ text = padded width value ++ rest := by
  induction width generalizing read text with
  | zero =>
      simp [readNumber, padded, eq_comm]
  | succ width inductionHypothesis =>
      cases text with
      | nil =>
          simp [readNumber, padded]
      | cons c text =>
          simp only [readNumber, Option.bind_eq_some_iff,
            digitValue?_eq_some_iff, inductionHypothesis, padded,
            List.cons_append, List.cons.injEq]
          have positive : 0 < 10 ^ width := by positivity
          constructor
          · rintro ⟨first, ⟨small, rfl⟩, value, bound, rfl, rfl⟩
            have quotient : (first * 10 ^ width + value) / 10 ^ width = first := by
              rw [Nat.mul_comm, Nat.mul_add_div positive,
                Nat.div_eq_of_lt bound, Nat.add_zero]
            have remainder : (first * 10 ^ width + value) % 10 ^ width = value := by
              rw [Nat.mul_comm, Nat.mul_add_mod, Nat.mod_eq_of_lt bound]
            refine ⟨first * 10 ^ width + value, ?_, by ring, by rw [quotient],
              by rw [remainder]⟩
            calc first * 10 ^ width + value
                < first * 10 ^ width + 10 ^ width := by omega
              _ = (first + 1) * 10 ^ width := by ring
              _ ≤ 10 * 10 ^ width := Nat.mul_le_mul_right _ small
              _ = 10 ^ (width + 1) := by ring
          · rintro ⟨value, bound, rfl, rfl, rfl⟩
            have small : value / 10 ^ width < 10 :=
              Nat.div_lt_of_lt_mul (by rw [← pow_succ]; exact bound)
            refine ⟨value / 10 ^ width, ⟨small, rfl⟩, value % 10 ^ width,
              Nat.mod_lt _ positive, ?_, rfl⟩
            have division := Nat.div_add_mod value (10 ^ width)
            calc read * 10 ^ (width + 1) + value
                = read * 10 ^ (width + 1) +
                    (10 ^ width * (value / 10 ^ width) + value % 10 ^ width) := by
                  rw [division]
              _ = (10 * read + value / 10 ^ width) * 10 ^ width +
                    value % 10 ^ width := by
                  ring

/-- A name is read exactly where it stands. -/
theorem readName_eq_some_iff
    {count : Nat}
    {names : Fin count → List Char}
    {text rest : List Char}
    {index : Fin count}
    (wide : ∀ index, (names index).length = 3)
    (apart : ∀ one two, names one = names two → one = two) :
    readName names text = some (index, rest) ↔ text = names index ++ rest := by
  simp only [readName, Option.map_eq_some_iff, Prod.mk.injEq]
  constructor
  · rintro ⟨found, finds, rfl, rfl⟩
    have same := List.find?_some finds
    rw [beq_iff_eq] at same
    rw [same, List.take_append_drop]
  · rintro rfl
    have front : (names index ++ rest).take 3 = names index := by
      rw [← wide index, List.take_left]
    have back : (names index ++ rest).drop 3 = rest := by
      rw [← wide index, List.drop_left]
    rw [front, back]
    cases finds :
        (List.finRange count).find? fun other => names other == names index with
    | none =>
        have never := List.find?_eq_none.mp finds index (List.mem_finRange index)
        simp at never
    | some found =>
        have same := List.find?_some finds
        rw [beq_iff_eq] at same
        exact ⟨found, rfl, apart found index same, rfl⟩

theorem readMark_eq_some_iff {mark text rest : List Char} :
    readMark mark text = some rest ↔ text = mark ++ rest := by
  unfold readMark
  constructor
  · intro reads
    split at reads
    · rename_i marked
      cases reads
      calc text
          = text.take mark.length ++ text.drop mark.length :=
            (List.take_append_drop _ _).symm
        _ = mark ++ text.drop mark.length := by rw [marked]
    · cases reads
  · rintro rfl
    simp

/-! ## The format -/

theorem padded_two (n : Nat) : padded 2 n = twoDigits n := by
  simp [padded, twoDigits]

theorem padded_four (n : Nat) : padded 4 n = fourDigits n := by
  have hundreds : n % 1000 % 100 = n % 100 := by omega
  have tens : n % 100 % 10 = n % 10 := by omega
  simp [padded, fourDigits, hundreds, tens]

/-- The names of the days are read where they stand. -/
theorem readDay_eq_some_iff
    {text rest : List Char}
    {wday : Fin 7} :
    readName (fun index : Fin 7 => daySnames.getD index []) text =
        some (wday, rest) ↔
      text = daySnames.getD wday [] ++ rest :=
  readName_eq_some_iff (by decide) (by decide)

/-- The names of the months are read where they stand. -/
theorem readMonth_eq_some_iff
    {text rest : List Char}
    {mon : Fin 12} :
    readName (fun index : Fin 12 => monthSnames.getD index []) text =
        some (mon, rest) ↔
      text = monthSnames.getD mon [] ++ rest :=
  readName_eq_some_iff (by decide) (by decide)

theorem readTwoDigits_eq_some_iff
    {text rest : List Char}
    {n : Nat} :
    readNumber 2 0 text = some (n, rest) ↔
      n < 100 ∧ text = twoDigits n ++ rest := by
  simp [readNumber_eq_some_iff, padded_two]

theorem readFourDigits_eq_some_iff
    {text rest : List Char}
    {n : Nat} :
    readNumber 4 0 text = some (n, rest) ↔
      n < 10000 ∧ text = fourDigits n ++ rest := by
  simp [readNumber_eq_some_iff, padded_four]

/-- The texts that are read as a date are exactly those that are written for it. -/
theorem readDate_eq_some_iff
    (text : List Char)
    (dt : DateTime) :
    readDate text = some dt ↔ Fits dt ∧ text = rfc822Date dt := by
  simp only [readDate, bind, Option.bind_eq_some_iff, Prod.exists,
    readDay_eq_some_iff, readMonth_eq_some_iff, readTwoDigits_eq_some_iff,
    readFourDigits_eq_some_iff, readMark_eq_some_iff]
  constructor
  · rintro ⟨wday, _, rfl, _, rfl, mday, _, ⟨mdayFits, rfl⟩, _, rfl, mon, _, rfl,
      _, rfl, year, _, ⟨yearFits, rfl⟩, _, rfl, hour, _, ⟨hourFits, rfl⟩, _, rfl,
      min, _, ⟨minFits, rfl⟩, _, rfl, sec, _, ⟨secFits, rfl⟩, ends⟩
    split at ends
    · rename_i zone
      cases ends
      subst zone
      exact ⟨⟨yearFits, mdayFits, hourFits, minFits, secFits⟩, by
        simp [rfc822Date]⟩
    · cases ends
  · rintro ⟨fits, rfl⟩
    refine ⟨dt.wday, _, by simp only [rfc822Date, List.append_assoc]; rfl, _, rfl,
      dt.mday, _, ⟨fits.mday, rfl⟩, _, rfl, dt.mon, _, rfl, _, rfl,
      dt.year, _, ⟨fits.year, rfl⟩, _, rfl, dt.hour, _, ⟨fits.hour, rfl⟩, _, rfl,
      dt.min, _, ⟨fits.min, rfl⟩, _, rfl, dt.sec, _, ⟨fits.sec, rfl⟩, ?_⟩
    simp

/-! ## Keeping -/

/-- A call of `date_header_now`: what `_loop->now()` and `std::time(0)` are at it. -/
structure Call where
  now : Nat
  time : Int
  deriving Repr, DecidableEq

/-- `_hdate_time` and `_hdate_str` -/
structure Kept where
  hdateTime : Nat := 0
  hdateStr : List Char := []
  deriving Repr, DecidableEq

/-- The condition of `date_header_now`; the subtraction is of `uint64_t`. -/
def renews (kept : Kept) (call : Call) : Bool :=
  kept.hdateTime == 0 ||
    decide (kept.hdateTime ≤ (call.now + 2 ^ 64 - 1000) % 2 ^ 64)

/-- `Server::date_header_now`: what is kept then is also what is returned. -/
def dateHeaderNow (gmtime : Int → DateTime) (kept : Kept) (call : Call) : Kept :=
  if renews kept call then
    { hdateTime := call.now, hdateStr := rfc822Date (gmtime call.time) }
  else
    kept

/-- A call with the string that it returns, and whether it has written the string. -/
structure Header where
  call : Call
  text : List Char
  renewed : Bool
  deriving Repr, DecidableEq

/-- The calls one after another. -/
def headers (gmtime : Int → DateTime) (kept : Kept) : List Call → List Header
  | [] => []
  | call :: rest =>
      { call := call
        text := (dateHeaderNow gmtime kept call).hdateStr
        renewed := renews kept call } ::
        headers gmtime (dateHeaderNow gmtime kept call) rest

/-- The loop's clock does not go back, and it is a `uint64_t`. -/
structure Timely (calls : List Call) : Prop where
  ordered : calls.Pairwise fun earlier later => earlier.now ≤ later.now
  bounded : ∀ call ∈ calls, call.now < 2 ^ 64

/-- The string that is kept was written at one of these calls. -/
def Written (gmtime : Int → DateTime) (calls : List Call) (kept : Kept) : Prop :=
  kept.hdateTime ≠ 0 →
    ∃ source ∈ calls,
      kept = { hdateTime := source.now, hdateStr := rfc822Date (gmtime source.time) }

section Keeping

variable {gmtime : Int → DateTime} {kept : Kept} {call : Call} {calls rest : List Call}

/-- A string that is kept is less than a second old. -/
theorem lt_of_not_renews
    (keeps : renews kept call = false)
    (bounded : call.now < 2 ^ 64) :
    kept.hdateTime ≠ 0 ∧ call.now < kept.hdateTime + 1000 := by
  simp only [renews, Bool.or_eq_false_iff, beq_eq_false_iff_ne,
    decide_eq_false_iff_not] at keeps
  omega

/-- A string is replaced once it is a second old, not before. -/
theorem le_of_renews
    (renewed : renews kept call = true)
    (late : 1000 ≤ call.now)
    (bounded : call.now < 2 ^ 64) :
    kept.hdateTime + 1000 ≤ call.now := by
  simp only [renews, Bool.or_eq_true, beq_iff_eq, decide_eq_true_eq] at renewed
  omega

/-- Keeping: what is kept after a call was written at it or before it. -/
theorem Written.after
    (written : Written gmtime calls kept)
    (call : Call) :
    Written gmtime (calls ++ [call]) (dateHeaderNow gmtime kept call) := by
  intro keeps
  unfold dateHeaderNow at keeps ⊢
  split
  · exact ⟨call, by simp, rfl⟩
  · rename_i keptOn
    rw [if_neg keptOn] at keeps
    obtain ⟨source, member, same⟩ := written keeps
    exact ⟨source, by simp [member], same⟩

theorem Timely.tail (timely : Timely (call :: rest)) : Timely rest where
  ordered := (List.pairwise_cons.mp timely.ordered).2
  bounded := fun later member => timely.bounded later (List.mem_cons_of_mem _ member)

theorem map_call_headers : (headers gmtime kept rest).map Header.call = rest := by
  induction rest generalizing kept with
  | nil => rfl
  | cons call rest inductionHypothesis =>
      simp [headers, inductionHypothesis]

theorem hdateTime_dateHeaderNow_le
    (notAhead : kept.hdateTime ≤ call.now) :
    (dateHeaderNow gmtime kept call).hdateTime ≤ call.now := by
  unfold dateHeaderNow
  split
  · exact le_rfl
  · exact notAhead

theorem le_hdateTime_dateHeaderNow
    (notAhead : kept.hdateTime ≤ call.now) :
    kept.hdateTime ≤ (dateHeaderNow gmtime kept call).hdateTime := by
  unfold dateHeaderNow
  split
  · exact notAhead
  · exact le_rfl

/-- What a call returns was written less than a second ago. -/
theorem Written.fresh
    (written : Written gmtime calls kept)
    (bounded : call.now < 2 ^ 64) :
    ∃ source ∈ calls ++ [call],
      (dateHeaderNow gmtime kept call).hdateStr = rfc822Date (gmtime source.time) ∧
        call.now < source.now + 1000 := by
  unfold dateHeaderNow
  split
  · exact ⟨call, by simp, rfl, by omega⟩
  · rename_i keptOn
    obtain ⟨keeps, near⟩ := lt_of_not_renews (by simpa using keptOn) bounded
    obtain ⟨source, member, rfl⟩ := written keeps
    exact ⟨source, by simp [member], rfl, near⟩

/-- A run: every string that is returned was written less than a second ago. -/
theorem Written.run
    (written : Written gmtime calls kept)
    (timely : Timely rest)
    {front back : List Header}
    {header : Header}
    (returned : headers gmtime kept rest = front ++ header :: back) :
    ∃ source ∈ calls ++ front.map Header.call ++ [header.call],
      header.text = rfc822Date (gmtime source.time) ∧
        header.call.now < source.now + 1000 := by
  induction rest generalizing calls kept front with
  | nil => simp [headers] at returned
  | cons call rest inductionHypothesis =>
      cases front with
      | nil =>
          obtain ⟨rfl, -⟩ := List.cons.inj returned
          simpa using written.fresh (timely.bounded call List.mem_cons_self)
      | cons first front =>
          obtain ⟨rfl, returnedLater⟩ := List.cons.inj returned
          simpa using
            inductionHypothesis (written.after call) timely.tail returnedLater

/-- A string is written no sooner than a second after the one that is kept. -/
theorem renewed_late
    (timely : Timely rest)
    (notAhead : ∀ call ∈ rest, kept.hdateTime ≤ call.now)
    {header : Header}
    (returned : header ∈ headers gmtime kept rest)
    (renewed : header.renewed = true)
    (late : 1000 ≤ header.call.now) :
    kept.hdateTime + 1000 ≤ header.call.now := by
  induction rest generalizing kept with
  | nil => simp [headers] at returned
  | cons call rest inductionHypothesis =>
      have here := notAhead call List.mem_cons_self
      have after := (List.pairwise_cons.mp timely.ordered).1
      rcases List.mem_cons.mp returned with rfl | returnedLater
      · exact le_of_renews renewed late (timely.bounded call List.mem_cons_self)
      · have grows : kept.hdateTime ≤ (dateHeaderNow gmtime kept call).hdateTime :=
          le_hdateTime_dateHeaderNow here
        have bound :=
          inductionHypothesis timely.tail
            (fun later member =>
              (hdateTime_dateHeaderNow_le here).trans (after later member))
            returnedLater
        omega

/-- A run: two strings are written a second apart. -/
theorem renewals_apart
    (timely : Timely rest)
    (notAhead : ∀ call ∈ rest, kept.hdateTime ≤ call.now) :
    (headers gmtime kept rest).Pairwise fun earlier later =>
      earlier.renewed = true → later.renewed = true → 1000 ≤ later.call.now →
        earlier.call.now + 1000 ≤ later.call.now := by
  induction rest generalizing kept with
  | nil => exact List.Pairwise.nil
  | cons call rest inductionHypothesis =>
      have here := notAhead call List.mem_cons_self
      have after := (List.pairwise_cons.mp timely.ordered).1
      have onward :
          ∀ later ∈ rest, (dateHeaderNow gmtime kept call).hdateTime ≤ later.now :=
        fun later member =>
          (hdateTime_dateHeaderNow_le here).trans (after later member)
      refine List.Pairwise.cons ?_ (inductionHypothesis timely.tail onward)
      intro later returned renewed renewedLater late
      have bound := renewed_late timely.tail onward returned renewedLater late
      have written : (dateHeaderNow gmtime kept call).hdateTime = call.now := by
        unfold dateHeaderNow
        rw [if_pos renewed]
      change call.now + 1000 ≤ later.call.now
      omega

end Keeping

/--
Whatever calls are made, every date header reads back as the broken-down time
of a call less than a second of loop time before, and no header is written
twice in a second of loop time.
-/
theorem fresh_of_headers
    (gmtime : Int → DateTime)
    (calls : List Call)
    (timely : Timely calls)
    (fits : ∀ call ∈ calls, Fits (gmtime call.time)) :
    (∀ front header back,
      headers gmtime {} calls = front ++ header :: back →
        ∃ source ∈ front.map Header.call ++ [header.call],
          readDate header.text = some (gmtime source.time) ∧
            header.call.now < source.now + 1000) ∧
      (headers gmtime {} calls).Pairwise fun earlier later =>
        earlier.renewed = true → later.renewed = true → 1000 ≤ later.call.now →
          earlier.call.now + 1000 ≤ later.call.now := by
  have written : Written gmtime [] {} := by
    intro keeps
    exact absurd rfl keeps
  constructor
  · intro front header back returned
    obtain ⟨source, member, text, near⟩ := written.run timely returned
    rw [List.nil_append] at member
    have among : source ∈ calls := by
      have all : (headers gmtime {} calls).map Header.call = calls :=
        map_call_headers
      rw [returned, List.map_append, List.map_cons] at all
      rw [← all]
      rcases List.mem_append.mp member with earlier | here
      · exact List.mem_append_left _ earlier
      · rw [List.mem_singleton.mp here]
        exact List.mem_append_right _ List.mem_cons_self
    refine ⟨source, member, ?_, near⟩
    exact (readDate_eq_some_iff _ _).mpr ⟨fits source among, text⟩
  · exact renewals_apart timely fun call _ => Nat.zero_le _

/-- The first minute of 1970. -/
def firstMinute (time : Int) : DateTime :=
  { year := 1970, mon := 0, mday := 1, wday := 4, hour := 0, min := 0,
    sec := time.toNat }

/-- Three calls in two seconds: the second one returns the string of the first one. -/
theorem fresh_of_headers_threeCalls :
    let calls : List Call := [⟨5000, 20⟩, ⟨5999, 21⟩, ⟨6000, 21⟩]
    (∀ front header back,
      headers firstMinute {} calls = front ++ header :: back →
        ∃ source ∈ front.map Header.call ++ [header.call],
          readDate header.text = some (firstMinute source.time) ∧
            header.call.now < source.now + 1000) ∧
      (headers firstMinute {} calls).Pairwise fun earlier later =>
        earlier.renewed = true → later.renewed = true → 1000 ≤ later.call.now →
          earlier.call.now + 1000 ≤ later.call.now :=
  fresh_of_headers firstMinute [⟨5000, 20⟩, ⟨5999, 21⟩, ⟨6000, 21⟩]
    ⟨by simp, by simp⟩
    (by
      intro call member
      simp only [List.mem_cons, List.not_mem_nil, or_false] at member
      rcases member with rfl | rfl | rfl <;>
        exact ⟨by decide, by decide, by decide, by decide, by decide⟩)

end UniEventHttp.ServerDate
