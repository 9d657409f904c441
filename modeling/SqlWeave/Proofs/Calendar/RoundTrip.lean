import Mathlib.Data.Nat.Digits.Defs
import SqlWeave.Config
import SqlWeave.Proofs.Clauses.Window
import SqlWeave.Proofs.Template.Word
import SqlWeave.Value.Decode

/-!
# Dates and times are read back as they were written

The usual forms of dates and times are fields of digits with a character between them. A year has
four digits, or a sign and as many as it needs, and a fraction has three, six, nine or none; the
readers accept more than that, but of what is written they find each field where it ends. A leap
second on second 59 is written as second sixty and read so; one that stands before it is written as
the second after, and read as that.

Results:
* `takeNumber_append`: a number ends where its digits end.
* `takeDate_text`, `takeTime_text`: a date and a time are read from the front of a text.
* `date?_text`, `time?_text`, `dateTime?_text_blank`, `dateTime?_text_letter`: the usual forms are read
  back.
* **`temporal_literals_decode`**: what stands in a literal is read as the value written.
-/

namespace SqlWeave

open Text Number

/-! ## Digits -/

namespace Number

variable {width n : Nat}

theorem isDigit_of_mem_padded {c : Char} (h : c ∈ padded width n) : c.isDigit = true := by
  rcases List.mem_append.mp h with h | h
  · obtain rfl := List.eq_of_mem_replicate h
    rfl
  · exact Nat.isDigit_of_mem_toDigits (by omega) (by omega) h

/-- **A number is read back from its digits**, whatever zeros are in front. -/
theorem readDigits_padded (width n : Nat) : readDigits 0 (padded width n) = some n := by
  have hzeros (k : Nat) : readDigits 0 (List.replicate k '0') = some 0 := by
    induction k with
    | zero => rfl
    | succ k ih => exact ih
  rw [padded, filled, readDigits_append, hzeros]
  have hn := readDigits_natText n
  rwa [natText, String.toList_ofList] at hn

theorem padded_ne_nil : padded width n ≠ [] :=
  List.append_ne_nil_of_right_ne_nil _ Nat.toDigits_ne_nil

/-- A number that fits has the width asked for. -/
theorem length_padded_of_lt (hw : 0 < width) (h : n < 10 ^ width) :
    (padded width n).length = width := by
  have hds := Nat.toDigits_length 10 n width hw h
  rw [padded, filled, List.length_append, List.length_replicate]
  omega

end Number

namespace Calendar

variable {width n : Nat} {rest : List Char}

/-- No digit stands at the front of a text. -/
def Undigited (cs : List Char) : Prop := ∀ c ∈ cs.head?, c.isDigit = false

theorem takeWhile_digits {ds : List Char} (hds : ∀ c ∈ ds, c.isDigit = true) (h : Undigited rest) :
    (ds ++ rest).takeWhile Char.isDigit = ds ∧ (ds ++ rest).dropWhile Char.isDigit = rest := by
  rw [List.takeWhile_append_of_pos hds, List.dropWhile_append_of_pos hds]
  cases rest with
  | nil => simp
  | cons c rest => simp [h c rfl]

theorem Undigited.take (h : Undigited rest) (k : Nat) : Undigited (rest.take k) := by
  cases rest with
  | nil => simpa using h
  | cons c rest =>
    cases k with
    | zero => exact fun _ hc => nomatch hc
    | succ k => exact h

/-- **A number ends where its digits end**, or at its width. -/
theorem takeNumber_append {least : Nat} {ds : List Char} (hds : ∀ c ∈ ds, c.isDigit = true)
    (hn : readDigits 0 ds = some n) (hleast : least ≤ ds.length) (hwidth : ds.length ≤ width)
    (hrest : width = ds.length ∨ Undigited rest) :
    takeNumber least width (ds ++ rest) = some (n, rest) := by
  have hend : Undigited (rest.take (width - ds.length)) := by
    rcases hrest with rfl | h
    · rw [Nat.sub_self]
      exact fun _ hc => nomatch hc
    · exact h.take _
  have htake : ((ds ++ rest).take width).takeWhile Char.isDigit = ds := by
    rw [List.take_append, List.take_of_length_le hwidth]
    exact (takeWhile_digits hds hend).1
  simp only [takeNumber, htake]
  rw [if_neg (Nat.not_lt.mpr hleast), hn, List.drop_left]
  rfl

/-- Digits at the front of a text have no blanks before them. -/
theorem trimStart_digits {ds : List Char} (hds : ∀ c ∈ ds, c.isDigit = true) (hne : ds ≠ [])
    (rest : List Char) : trimStart (ds ++ rest) = ds ++ rest := by
  cases ds with
  | nil => exact absurd rfl hne
  | cons d ds =>
    exact List.dropWhile_cons_of_neg (by simp [isBlank_of_isDigit (hds d List.mem_cons_self)])

/-- A number of two digits is read from the front of a text. -/
theorem looseNumber_padded (h : n < 100) (rest : List Char) :
    looseNumber 2 (padded 2 n ++ rest) = some (n, rest) := by
  have hds : ∀ c ∈ padded 2 n, c.isDigit = true := fun c => isDigit_of_mem_padded
  have hlength : (padded 2 n).length = 2 := length_padded_of_lt (by decide) h
  rw [looseNumber, trimStart_digits hds padded_ne_nil]
  exact takeNumber_append hds (readDigits_padded 2 n) (by omega) (by omega) (.inl hlength.symm)

theorem two_eq_padded (h : n < 100) : Item.two n .zero = padded 2 n :=
  (by decide : ∀ n : Fin 100, Item.two n.val .zero = padded 2 n.val) ⟨n, h⟩

/-! ## Years and fractions -/

theorem looseYear_of_digits {ds : List Char} (hds : ∀ c ∈ ds, c.isDigit = true) (hne : ds ≠ [])
    (rest : List Char) : looseYear (ds ++ rest) =
      (takeNumber 1 4 (ds ++ rest)).map fun (n, rest) => ((n : Int), rest) := by
  unfold looseYear
  rw [trimStart_digits hds hne]
  cases ds with
  | nil => exact absurd rfl hne
  | cons d ds =>
    have hd := hds d List.mem_cons_self
    rw [List.cons_append]
    split
    · rename_i h
      cases h
      cases hd
    · rename_i h
      cases h
      cases hd
    · rfl

/-- **A year is read from the front of a text** that goes on with no digit. -/
theorem looseYear_year (y : Int) (h : Undigited rest) :
    looseYear (Item.year y .zero ++ rest) = some (y, rest) := by
  have hds (n : Nat) : ∀ c ∈ padded 4 n, c.isDigit = true := fun c => isDigit_of_mem_padded
  have hsigned (n : Nat) : takeNumber 1 (padded 4 n ++ rest).length (padded 4 n ++ rest) =
      some (n, rest) :=
    takeNumber_append (hds n) (readDigits_padded 4 n) (List.length_pos_iff.mpr padded_ne_nil)
      (by simp) (.inr h)
  unfold Item.year
  split
  · have hlength : (padded 4 y.toNat).length = 4 := length_padded_of_lt (by decide) (by omega)
    have hunsigned : takeNumber 1 4 (padded 4 y.toNat ++ rest) = some (y.toNat, rest) :=
      takeNumber_append (hds _) (readDigits_padded 4 _) (by omega) (by omega) (.inr h)
    have hy : (y.toNat : Int) = y := by omega
    rw [show Item.wide 4 y.toNat .zero = padded 4 y.toNat from rfl,
      looseYear_of_digits (hds _) padded_ne_nil, hunsigned]
    exact congrArg (fun k : Int => some (k, rest)) hy
  · by_cases hneg : y < 0
    · have hy : -(y.natAbs : Int) = y := by omega
      have hread : looseYear ('-' :: padded 4 y.natAbs ++ rest) = some (-(y.natAbs : Int), rest) :=
        congrArg (Option.map _) (hsigned y.natAbs)
      rw [if_pos hneg]
      exact hread.trans (by rw [hy])
    · have hy : (y.natAbs : Int) = y := by omega
      have hread : looseYear ('+' :: padded 4 y.natAbs ++ rest) = some ((y.natAbs : Int), rest) :=
        congrArg (Option.map _) (hsigned y.natAbs)
      rw [if_neg hneg]
      exact hread.trans (by rw [hy])

/-- Digits behind a point are read as a fraction of so many places. -/
theorem takeFraction_padded (width n : Nat) (h : n < 10 ^ width) (hw : 0 < width)
    (hw9 : width ≤ 9) (hrest : Undigited rest) : takeFraction ('.' :: (padded width n ++ rest)) =
      some (n * 10 ^ (9 - width), rest) := by
  have hds : ∀ c ∈ padded width n, c.isDigit = true := fun c => isDigit_of_mem_padded
  have hlength := length_padded_of_lt hw h
  have htake : ((padded width n ++ rest).take 9).takeWhile Char.isDigit = padded width n := by
    rw [List.take_append, List.take_of_length_le (by omega)]
    exact (takeWhile_digits hds (hrest.take _)).1
  simp only [takeFraction, htake, (takeWhile_digits hds hrest).2, readDigits_padded, hlength]
  rw [if_neg (by simpa using padded_ne_nil)]
  rfl

/-- **The fraction of a second is read** from a text that goes on with no digit and no point. -/
theorem takeFraction_fractionText (h : n < nanosPerSecond) (hrest : Undigited rest)
    (hpoint : rest.head? ≠ some '.') :
    takeFraction (Item.fractionText n ++ rest) = some (n, rest) := by
  have hn : n < 1000000000 := h
  unfold Item.fractionText
  split
  · rename_i hzero
    subst hzero
    cases rest with
    | nil => rfl
    | cons c rest =>
      have hc : c ≠ '.' := fun hc => hpoint (congrArg some hc)
      unfold takeFraction
      split
      · rename_i heq
        cases heq
        exact absurd rfl hc
      · rfl
  · split
    · have hthree := takeFraction_padded 3 (n / 1000000) (by omega) (by decide) (by decide) hrest
      exact hthree.trans (by congr 2; omega)
    · split
      · have hsix := takeFraction_padded 6 (n / 1000) (by omega) (by decide) (by decide) hrest
        exact hsix.trans (by congr 2; omega)
      · have hnine := takeFraction_padded 9 n hn (by decide) (by decide) hrest
        exact hnine.trans (by congr 2; omega)

/-! ## The usual forms -/

theorem Date.toList_text (d : Date) : d.text.toList = Item.year d.year .zero ++
    '-' :: (padded 2 d.month ++ '-' :: padded 2 d.day) := by
  have hmonth := d.valid.2.2.2.1
  have hday := d.valid.2.2.2.2.2.trans (daysInMonth_le _ _)
  rw [← two_eq_padded (by omega : d.month < 100), ← two_eq_padded (by omega : d.day < 100),
    Date.text, String.toList_ofList]
  simp [Pattern.write, Pattern.day, Pattern.num, Item.text, Item.numberText]

theorem Time.shownSecond_le (t : Time) : t.shownSecond ≤ 60 := by
  obtain ⟨-, -, hs, hn⟩ := t.valid
  simp only [nanosPerSecond] at hn
  simp only [shownSecond, nanosPerSecond]
  omega

theorem Time.isSettled_settled (t : Time) : t.settled.IsSettled := by
  obtain ⟨-, -, -, hn⟩ := t.valid
  unfold settled
  split
  · assumption
  · exact .inl (by dsimp only; omega)

theorem Time.shownSecond_settled (t : Time) : t.settled.shownSecond = t.shownSecond := by
  obtain ⟨-, -, -, hn⟩ := t.valid
  unfold settled
  split
  · rfl
  · rename_i h
    obtain ⟨hn', -⟩ := not_or.mp h
    simp only [nanosPerSecond] at hn hn'
    simp only [shownSecond, nanosPerSecond]
    omega

theorem Time.subsecond_settled (t : Time) : t.settled.subsecond = t.subsecond := by
  unfold settled
  split
  · rfl
  · rename_i h
    obtain ⟨hn, -⟩ := not_or.mp h
    simp only [nanosPerSecond] at hn
    simp only [subsecond, nanosPerSecond]
    omega

theorem Time.hour_settled (t : Time) : t.settled.hour = t.hour := by
  unfold settled
  split <;> rfl

theorem Time.minute_settled (t : Time) : t.settled.minute = t.minute := by
  unfold settled
  split <;> rfl

theorem Time.toList_clock (t : Time) : Pattern.write Pattern.clock ⟨default, t⟩ =
    padded 2 t.hour ++ ':' :: (padded 2 t.minute ++ ':' :: padded 2 t.shownSecond) := by
  obtain ⟨hh, hm, -⟩ := t.valid
  have hs := t.shownSecond_le
  rw [← two_eq_padded (by omega : t.hour < 100), ← two_eq_padded (by omega : t.minute < 100),
    ← two_eq_padded (by omega : t.shownSecond < 100)]
  simp [Pattern.write, Pattern.clock, Pattern.num, Item.text, Item.numberText]

theorem Time.toList_text (t : Time) : t.text.toList =
    Pattern.write Pattern.clock ⟨default, t⟩ ++ Item.fractionText t.subsecond := by
  rw [Time.text, String.toList_ofList, Pattern.write, List.flatMap_append]
  simp [Pattern.write, Item.text]

theorem expect_cons (c : Char) (rest : List Char) : expect c (c :: rest) = some rest := if_pos rfl

/-- **A date is read from the front of a text.** -/
theorem takeDate_text (d : Date) (rest : List Char) :
    takeDate (d.text.toList ++ rest) = some (d, rest) := by
  have hmonth := d.valid.2.2.2.1
  have hday := d.valid.2.2.2.2.2.trans (daysInMonth_le _ _)
  have hhyphen (cs : List Char) : Undigited ('-' :: cs) := by
    rintro c ⟨⟩
    rfl
  have hparts : Date.ofParts? d.year d.month d.day = some d :=
    Date.ofParts?_eq_some.mpr ⟨rfl, rfl, rfl⟩
  rw [Date.toList_text]
  simp only [takeDate, List.append_assoc, List.cons_append, looseYear_year _ (hhyphen _),
    expect_cons, looseNumber_padded (by omega : d.month < 100),
    looseNumber_padded (by omega : d.day < 100), hparts, Option.bind_eq_bind, Option.bind_some,
    Option.pure_def]

theorem Time.ofParts?_of_isSettled {t : Time} (h : t.IsSettled) :
    Time.ofParts? t.hour t.minute t.second t.nano = some t := by
  unfold ofParts?
  rw [dif_pos t.valid]
  exact if_pos h

/-- A time that is settled is the one of its fields as they are written, a leap second as second
sixty. -/
theorem Time.ofClock?_of_isSettled {t : Time} (h : t.IsSettled) :
    Time.ofClock? t.hour t.minute t.shownSecond t.subsecond = some t := by
  obtain ⟨-, -, hs, hn⟩ := t.valid
  have hsecond : t.shownSecond = t.second + t.nano / 1000000000 := rfl
  have hsub : t.subsecond = t.nano % 1000000000 := rfl
  have hsettled : t.nano < 1000000000 ∨ t.second = 59 := h
  simp only [nanosPerSecond] at hn
  rw [← ofParts?_of_isSettled h]
  unfold Time.ofClock?
  split
  · rw [show nanosPerSecond + t.subsecond = t.nano by simp only [nanosPerSecond]; omega,
      show t.second = 59 by omega]
  · rw [show t.shownSecond = t.second by omega, show t.subsecond = t.nano by omega]

/-- What is written of a time is its settled form. -/
theorem Time.ofClock?_self (t : Time) :
    Time.ofClock? t.hour t.minute t.shownSecond t.subsecond = some t.settled := by
  rw [← ofClock?_of_isSettled t.isSettled_settled, t.hour_settled, t.minute_settled,
    t.shownSecond_settled, t.subsecond_settled]

/-- **A time of day is read from the front of a text** that goes on with no digit and no point. -/
theorem takeTime_text (t : Time) (hrest : Undigited rest) (hpoint : rest.head? ≠ some '.') :
    takeTime (t.text.toList ++ rest) = some (t.settled, rest) := by
  obtain ⟨hh, hm, -⟩ := t.valid
  have hs := t.shownSecond_le
  have hn : t.subsecond < nanosPerSecond := Nat.mod_lt _ (by decide)
  rw [Time.toList_text, Time.toList_clock]
  simp only [takeTime, List.append_assoc, List.cons_append,
    looseNumber_padded (by omega : t.hour < 100), looseNumber_padded (by omega : t.minute < 100),
    looseNumber_padded (by omega : t.shownSecond < 100), expect_cons,
    takeFraction_fractionText hn hrest hpoint, t.ofClock?_self, Option.bind_eq_bind,
    Option.bind_some, Option.pure_def]

theorem takeTime_text_end (t : Time) : takeTime t.text.toList = some (t.settled, []) := by
  have h : takeTime (t.text.toList ++ []) = some (t.settled, []) :=
    takeTime_text t (fun _ hc => nomatch hc) (fun hc => nomatch hc)
  rwa [List.append_nil] at h

/-- **A date is read back.** -/
theorem date?_text (d : Date) : date? d.text = some d := by
  have h := takeDate_text d []
  rw [List.append_nil] at h
  rw [date?, h]
  rfl

/-- **A time of day is read back.** -/
theorem time?_text (t : Time) : time? t.text = some t.settled := by
  rw [time?, takeTime_text_end]
  rfl

theorem DateTime.toList_text (x : DateTime) (separator : Char) :
    (x.text separator).toList = x.date.text.toList ++ separator :: x.time.text.toList := by
  simp [DateTime.text]

/-- A date and a time are read back where their separator is found. -/
theorem dateTimeWith?_text (separate : List Char → Option (List Char)) {separator : Char}
    (x : DateTime) (h : separate (separator :: x.time.text.toList) = some x.time.text.toList) :
    dateTimeWith? separate (x.text separator) = some x.settled := by
  simp only [dateTimeWith?, DateTime.toList_text, takeDate_text, h, takeTime_text_end,
    Option.bind_eq_bind, Option.bind_some, Option.pure_def]
  rfl

/-- **A date and a time are read back**, with a blank between them. -/
theorem dateTime?_text_blank (x : DateTime) : dateTime? (x.text ' ') = some x.settled := by
  have hblank : trimStart (' ' :: x.time.text.toList) = x.time.text.toList := by
    rw [Time.toList_text, Time.toList_clock, List.append_assoc]
    exact trimStart_digits (fun c => isDigit_of_mem_padded) padded_ne_nil _
  have hread := dateTimeWith?_text (fun cs => some (trimStart cs)) x (congrArg some hblank)
  rw [dateTime?, hread]
  rfl

/-- **A date and a time are read back**, with the letter `T` between them. -/
theorem dateTime?_text_letter (x : DateTime) : dateTime? (x.text 'T') = some x.settled := by
  have hletter : dateTimeWith? (fun cs => some (trimStart cs)) (x.text 'T') = none := by
    simp only [dateTimeWith?, DateTime.toList_text, takeDate_text, Option.bind_eq_bind,
      Option.bind_some]
    rfl
  rw [dateTime?, hletter, dateTimeWith?_text (expect 'T') x (expect_cons 'T' _)]
  rfl

/-- A date and a time are no date. -/
theorem date?_text_dateTime (x : DateTime) (separator : Char) :
    date? (x.text separator) = none := by
  rw [date?, DateTime.toList_text, takeDate_text]
  rfl

/-! ## Characters of the usual forms -/

/-- A digit, or a character that stands between the fields of a date or a time. -/
def isClockwork (c : Char) : Bool := c.isDigit || c ∈ ['-', '+', ':', '.']

theorem isClockwork_of_mem_padded {width n : Nat} {c : Char} (h : c ∈ padded width n) :
    isClockwork c = true := by
  simp [isClockwork, isDigit_of_mem_padded h]

theorem isClockwork_of_mem_year {y : Int} {c : Char} (h : c ∈ Item.year y .zero) :
    isClockwork c = true := by
  have hdigits (n : Nat) (hn : c ∈ padded 4 n) : isClockwork c = true :=
    isClockwork_of_mem_padded hn
  unfold Item.year at h
  split at h
  · exact hdigits _ h
  · rcases List.mem_cons.mp h with rfl | h
    · split <;> rfl
    · exact hdigits _ h

theorem isClockwork_of_mem_date {x : Date} {c : Char} (h : c ∈ x.text.toList) :
    isClockwork c = true := by
  rw [Date.toList_text] at h
  simp only [List.mem_append, List.mem_cons] at h
  rcases h with h | rfl | h | rfl | h
  · exact isClockwork_of_mem_year h
  · rfl
  · exact isClockwork_of_mem_padded h
  · rfl
  · exact isClockwork_of_mem_padded h

theorem isClockwork_of_mem_fraction {c : Char} (h : c ∈ Item.fractionText n) :
    isClockwork c = true := by
  have hdigits : ∀ width k, c ∈ '.' :: padded width k → isClockwork c = true := by
    intro width k hc
    rcases List.mem_cons.mp hc with rfl | hc
    · rfl
    · exact isClockwork_of_mem_padded hc
  unfold Item.fractionText at h
  split at h
  · cases h
  split at h
  · exact hdigits _ _ h
  split at h <;> exact hdigits _ _ h

theorem isClockwork_of_mem_time {x : Time} {c : Char} (h : c ∈ x.text.toList) :
    isClockwork c = true := by
  rw [Time.toList_text, Time.toList_clock] at h
  simp only [List.mem_append, List.mem_cons] at h
  rcases h with (h | rfl | h | rfl | h) | h
  · exact isClockwork_of_mem_padded h
  · rfl
  · exact isClockwork_of_mem_padded h
  · rfl
  · exact isClockwork_of_mem_padded h
  · exact isClockwork_of_mem_fraction h

theorem isClockwork_of_mem_dateTime {x : DateTime} {c : Char} (h : c ∈ (x.text ' ').toList) :
    isClockwork c = true ∨ c = ' ' := by
  rw [DateTime.toList_text] at h
  rcases List.mem_append.mp h with h | h
  · exact .inl (isClockwork_of_mem_date h)
  · rcases List.mem_cons.mp h with rfl | h
    · exact .inr rfl
    · exact .inl (isClockwork_of_mem_time h)

/-- A text with the letter `T` for each of its blanks. -/
def lettered (s : String) : String :=
  String.ofList (s.toList.map fun c => if c = ' ' then 'T' else c)

/-- The two forms of a date with a time differ in their one blank. -/
theorem DateTime.lettered_text (x : DateTime) : lettered (x.text ' ') = x.text 'T' := by
  have hstays : ∀ cs : List Char, (∀ c ∈ cs, isClockwork c = true) →
      cs.map (fun c => if c = ' ' then 'T' else c) = cs := by
    intro cs hcs
    refine (List.map_congr_left fun c hc => if_neg ?_).trans (List.map_id cs)
    rintro rfl
    cases hcs _ hc
  apply String.toList_injective
  rw [lettered, String.toList_ofList, DateTime.toList_text, DateTime.toList_text, List.map_append,
    List.map_cons, hstays _ fun _ => isClockwork_of_mem_date,
    hstays _ fun _ => isClockwork_of_mem_time]
  rfl

/-! ## Texts without a fraction -/

/-- A full second has no fraction. -/
theorem Time.clock_of_whole {x : Time} (h : x.subsecond = 0) :
    String.ofList (Pattern.write Pattern.clock ⟨default, x⟩) = x.text := by
  apply String.toList_injective
  rw [String.toList_ofList, Time.toList_text, h]
  simp [Item.fractionText]

/-- The pattern for engines without a type for dates writes the usual form of full seconds. -/
theorem DateTime.format_of_whole {x : DateTime} (h : x.time.subsecond = 0) :
    Pattern.format Config.textDateFormat x = x.text ' ' := by
  have hitems : Pattern.items Config.textDateFormat.toList =
      Pattern.day ++ .literal ' ' :: Pattern.clock := rfl
  apply String.toList_injective
  rw [DateTime.toList_text, ← Time.clock_of_whole h, Pattern.format, hitems, String.toList_ofList,
    String.toList_ofList, Date.text, String.toList_ofList, Pattern.write, List.flatMap_append]
  rfl

end Calendar

open Calendar

/-! ## Texts as data -/

theorem fromValue_date {s : String} {x : Date} (h : date? s = some x) :
    fromValue (.text s) = Except.ok x := by
  change Value.orMismatch "date" (.text s) (date? s <|> (dateTime? s).map (·.date)) = .ok x
  rw [h]
  rfl

theorem fromValue_time {s : String} {x : Time} (h : time? s = some x) :
    fromValue (.text s) = Except.ok x := by
  change Value.orMismatch "time" (.text s) (time? s) = .ok x
  rw [h]
  rfl

theorem fromValue_dateTime {s : String} {x : DateTime} (h : dateTime? s = some x) :
    fromValue (.text s) = Except.ok x := by
  change Value.orMismatch "datetime" (.text s) (dateTime? s) = .ok x
  rw [h]
  rfl

/-- A text that is no date but a date with a time is read as its date. -/
theorem fromValue_date_of_dateTime {s : String} {x : DateTime} (hd : date? s = none)
    (h : dateTime? s = some x) : fromValue (.text s) = Except.ok x.date := by
  change Value.orMismatch "date" (.text s) (date? s <|> (dateTime? s).map (·.date)) = .ok x.date
  rw [hd, h]
  rfl

namespace Dialect

variable {d : Dialect}

/-- A text without apostrophes and backslashes is its own literal between apostrophes. -/
theorem stringLiteral_of_forall {s : String} (h : ∀ c ∈ s.toList, c ≠ '\'' ∧ c ≠ '\\') :
    d.stringLiteral s = "'" ++ s ++ "'" := by
  have hdoubled : doubled d.literalDoubles s.toList = s.toList := doubled_of_forall fun c hc => by
    simp [literalDoubles, h c hc]
  apply String.toList_injective
  rw [stringLiteral, delimited, hdoubled]
  simp

theorem stringLiteral_clockwork {s : String}
    (h : ∀ c ∈ s.toList, isClockwork c = true ∨ c = ' ') :
    d.stringLiteral s = "'" ++ s ++ "'" := by
  refine stringLiteral_of_forall fun c hc => ⟨?_, ?_⟩
  all_goals
    rintro rfl
    rcases h _ hc with h | h <;> cases h

/-! ## Literals -/

/-- **What stands in the literal of a date or a time is read as the value written**, for each engine,
every year and every fraction of a second, and for leap seconds on second 59 too; a leap second
before that is read as the second after. A date with a time is read with the letter `T` for its
blank as well, and as its date. Where dates are bound as text, the text of full seconds is read as
the value. -/
theorem temporal_literals_decode (d : Dialect) :
    (∀ x : Time, x.nano < nanosPerSecond ∨ x.second = 59 → x.settled = x) ∧
    (∀ x : Date, ∃ s, d.literal (toValue x) = some ("'" ++ s ++ "'") ∧
      fromValue (.text s) = .ok x ∧
      ∃ bound, (Config.new .sqlite).intercept (toValue x) = .text bound ∧
        fromValue (.text bound) = .ok x) ∧
    (∀ x : Time, ∃ s, d.literal (toValue x) = some ("'" ++ s ++ "'") ∧
      fromValue (.text s) = .ok x.settled ∧
      (x.subsecond = 0 → ∃ bound, (Config.new .sqlite).intercept (toValue x) = .text bound ∧
        fromValue (.text bound) = .ok x.settled)) ∧
    ∀ x : DateTime, ∃ s, d.literal (toValue x) = some ("'" ++ s ++ "'") ∧
      fromValue (.text s) = .ok x.settled ∧ fromValue (.text (lettered s)) = .ok x.settled ∧
      fromValue (.text s) = .ok x.date ∧
      (x.time.subsecond = 0 →
        ∃ bound, (Config.new .sqlite).intercept (toValue x) = .text bound ∧
          fromValue (.text bound) = .ok x.settled) := by
  have hdate (x : Date) := fromValue_date (date?_text x)
  have htime (x : Time) := fromValue_time (time?_text x)
  have hblank (x : DateTime) := fromValue_dateTime (dateTime?_text_blank x)
  refine ⟨fun _ => Time.settled_of_isSettled,
    fun x => ⟨x.text, ?_, hdate x, x.text, rfl, hdate x⟩,
    fun x => ⟨x.text, ?_, htime x, fun hwhole => ⟨x.text, ?_, htime x⟩⟩,
    fun x => ⟨x.text ' ', ?_, hblank x, ?_, ?_, fun hwhole => ⟨x.text ' ', ?_, hblank x⟩⟩⟩
  · exact congrArg some (stringLiteral_clockwork fun c hc => .inl (isClockwork_of_mem_date hc))
  · exact congrArg some (stringLiteral_clockwork fun c hc => .inl (isClockwork_of_mem_time hc))
  · exact congrArg Value.text (Time.clock_of_whole hwhole)
  · exact congrArg some (stringLiteral_clockwork fun c => isClockwork_of_mem_dateTime)
  · rw [DateTime.lettered_text]
    exact fromValue_dateTime (dateTime?_text_letter x)
  · exact fromValue_date_of_dateTime (x := x.settled) (date?_text_dateTime x ' ')
      (dateTime?_text_blank x)
  · exact congrArg Value.text (DateTime.format_of_whole hwhole)

/-- The leap second at the end of a year far ahead. -/
def lastSecond : DateTime :=
  ⟨⟨12016, 12, 31, by decide⟩, ⟨23, 59, 59, nanosPerSecond, by decide⟩⟩

/-- A leap second of a year with a sign is read from its literal, with and without the letter. -/
theorem lastSecond_decodes :
    mysql.literal (toValue lastSecond) = some "'+12016-12-31 23:59:60'" ∧
      lastSecond.time.subsecond = 0 ∧
      ∃ s, mysql.literal (toValue lastSecond) = some ("'" ++ s ++ "'") ∧
        fromValue (.text s) = .ok lastSecond ∧ fromValue (.text (lettered s)) = .ok lastSecond ∧
        ∃ bound, (Config.new .sqlite).intercept (toValue lastSecond) = .text bound ∧
          fromValue (.text bound) = .ok lastSecond := by
  obtain ⟨hsettled, -, -, hdateTime⟩ := temporal_literals_decode mysql
  obtain ⟨s, hliteral, hread, hlettered, -, hbound⟩ := hdateTime lastSecond
  have hself : lastSecond.settled = lastSecond :=
    congrArg (DateTime.mk lastSecond.date) (hsettled lastSecond.time (.inr rfl))
  rw [hself] at hread hlettered hbound
  exact ⟨by decide, by decide, s, hliteral, hread, hlettered, hbound (by decide)⟩

end Dialect
end SqlWeave
