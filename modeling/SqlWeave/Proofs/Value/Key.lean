import SqlWeave.Proofs.Calendar.RoundTrip
import SqlWeave.Session.Foreign

/-!
# Which keys have the same text

Rows that were loaded for a foreign member are kept under the text of its key. The text begins with
the kind, and from what stands behind it the value can be read back: a shown text character by
character up to the quote that closes it, bytes as numbers with commas between them, an identifier
by its digits, and dates and times by their own readers. So two keys whose texts are the same are
the same, whatever quotes, backslashes and control characters a text among them holds, but for one
case: a leap second that stands before second 59 has the text of the second after.

Floats, decimals and documents are left out: a float that is no number equals nothing, and decimals
that are equal may be written in two ways.

Results:
* `Uuid.text_injective`: an identifier is read from its digits.
* `Text.readShownChar_append`, `Text.shown_injective`: a shown text is read back.
* `Value.settled_eq_of_keyText`: values with the same key are equal when settled.
* **`ForeignRequest.cacheKey_eq_iff`**: requests share rows only for keys that are equal when
  settled.
* `Value.keyText_leapSecond`: two times that have one key.
-/

namespace SqlWeave

open Number

/-! ## Hexadecimal digits -/

namespace Number

theorem readHex_append (n : Nat) (cs ds : List Char) :
    readHex n (cs ++ ds) = (readHex n cs).bind fun m => readHex m ds := by
  induction cs generalizing n with
  | nil => rfl
  | cons c cs ih =>
    rw [List.cons_append, readHex, readHex]
    cases hexDigit? c with
    | none => rfl
    | some d => exact ih _

theorem hexDigit?_digitChar {k : Nat} (h : k < 16) : hexDigit? (Nat.digitChar k) = some k :=
  (by decide : ∀ k : Fin 16, hexDigit? (Nat.digitChar k.val) = some k.val) ⟨k, h⟩

theorem readHex_digitChar {k : Nat} (h : k < 16) (n : Nat) (rest : List Char) :
    readHex n (Nat.digitChar k :: rest) = readHex (16 * n + k) rest := by
  rw [readHex, hexDigit?_digitChar h]
  rfl

/-- A number is read back from its hexadecimal digits. -/
theorem readHex_toDigits (n : Nat) : readHex 0 (Nat.toDigits 16 n) = some n := by
  induction n using Nat.strong_induction_on with
  | _ n ih =>
    by_cases h : n < 16
    · rw [Nat.toDigits_of_lt_base h, readHex_digitChar h, Nat.mul_zero, Nat.zero_add]
      rfl
    · rw [Nat.toDigits_of_base_le (by decide) (by omega), readHex_append, ih _ (by omega),
        Option.bind_some, readHex_digitChar (by omega)]
      exact congrArg some (by omega)

/-- What is read as a number has hexadecimal digits only. -/
theorem isSome_hexDigit?_of_mem {n m : Nat} {cs : List Char} (h : readHex n cs = some m) {c : Char}
    (hc : c ∈ cs) : (hexDigit? c).isSome = true := by
  induction cs generalizing n with
  | nil => cases hc
  | cons d cs ih =>
    rw [readHex] at h
    obtain ⟨k, hk, hrest⟩ := Option.bind_eq_some_iff.mp h
    rcases List.mem_cons.mp hc with rfl | hc
    · rw [hk]
      rfl
    · exact ih hrest hc

end Number

namespace Uuid

theorem length_digitsOf (count n : Nat) (acc : List Char) :
    (digitsOf count n acc).length = count + acc.length := by
  induction count generalizing n acc with
  | zero => exact (Nat.zero_add _).symm
  | succ count ih =>
    rw [digitsOf, ih, List.length_cons]
    omega

/-- The digits of an identifier are read as its number. -/
theorem readHex_digitsOf (count n m : Nat) (acc : List Char) :
    readHex m (digitsOf count n acc) = readHex (m * 16 ^ count + n % 16 ^ count) acc := by
  induction count generalizing n acc with
  | zero => rw [digitsOf, Nat.pow_zero, Nat.mod_one, Nat.mul_one, Nat.add_zero]
  | succ count ih =>
    have hsplit : n % 16 ^ (count + 1) = n % 16 + 16 * (n / 16 % 16 ^ count) := by
      rw [Nat.pow_succ', Nat.mod_mul]
    have hpow : m * 16 ^ (count + 1) = 16 * (m * 16 ^ count) := by
      rw [Nat.pow_succ']
      exact Nat.mul_left_comm _ _ _
    rw [digitsOf, ih, readHex_digitChar (Nat.mod_lt _ (by decide)), hsplit, hpow]
    exact congrArg (readHex · acc) (by omega)

/-- **An identifier is read from the digits of its text.** -/
theorem text_injective {u v : Uuid} (h : u.text = v.text) : u = v := by
  have hlength (w : Uuid) : (digitsOf 32 w.bits.toNat []).length = 32 := length_digitsOf 32 _ []
  have hgroups := congrArg String.toList h
  simp only [text, String.toList_ofList] at hgroups
  generalize hu : digitsOf 32 u.bits.toNat [] = cs at hgroups
  generalize hv : digitsOf 32 v.bits.toNat [] = ds at hgroups
  have hcs : cs.length = 32 := hu ▸ hlength u
  have hds : ds.length = 32 := hv ▸ hlength v
  obtain ⟨h₁, hgroups⟩ := List.append_inj hgroups (by simp [hcs, hds])
  obtain ⟨h₂, hgroups⟩ := List.append_inj (List.tail_eq_of_cons_eq hgroups) (by simp [hcs, hds])
  obtain ⟨h₃, hgroups⟩ := List.append_inj (List.tail_eq_of_cons_eq hgroups) (by simp [hcs, hds])
  obtain ⟨h₄, hgroups⟩ := List.append_inj (List.tail_eq_of_cons_eq hgroups) (by simp [hcs, hds])
  have h₅ := List.tail_eq_of_cons_eq hgroups
  have hsame : cs = ds := by
    rw [← List.take_append_drop 8 cs, ← List.take_append_drop 8 ds, h₁,
      ← List.take_append_drop 4 (cs.drop 8), ← List.take_append_drop 4 (ds.drop 8), h₂,
      List.drop_drop, List.drop_drop, ← List.take_append_drop 4 (cs.drop 12),
      ← List.take_append_drop 4 (ds.drop 12), h₃, List.drop_drop, List.drop_drop,
      ← List.take_append_drop 4 (cs.drop 16), ← List.take_append_drop 4 (ds.drop 16), h₄,
      List.drop_drop, List.drop_drop, h₅]
  have hread (w : Uuid) : readHex 0 (digitsOf 32 w.bits.toNat []) = some w.bits.toNat := by
    rw [readHex_digitsOf, Nat.zero_mul, Nat.zero_add, Nat.mod_eq_of_lt w.bits.isLt]
    rfl
  have hbits : u.bits.toNat = v.bits.toNat := by
    rw [← Option.some_inj, ← hread u, ← hread v, hu, hv, hsame]
  cases u
  cases v
  exact congrArg Uuid.mk (BitVec.eq_of_toNat_eq hbits)

end Uuid

/-! ## Shown text -/

namespace Text

/-- The character that a letter behind a backslash stands for. -/
def unescape? : Char → Option Char
  | '"' => some '"'
  | '\\' => some '\\'
  | 'n' => some '\n'
  | 'r' => some '\r'
  | 't' => some '\t'
  | '0' => some '\x00'
  | _ => none

/-- Reads one character of a shown text; a quote ends the text. -/
def readShownChar : List Char → Option (Char × List Char)
  | [] => none
  | '\\' :: 'u' :: rest =>
    let digits := (rest.drop 1).takeWhile (· != '\x7d')
    (readHex 0 digits).map fun n => (Char.ofNat n, rest.drop (digits.length + 2))
  | '\\' :: c :: rest => (unescape? c).map fun c => (c, rest)
  | c :: rest => if c = '"' then none else some (c, rest)

theorem takeWhile_hexDigits (n : Nat) (rest : List Char) :
    (Nat.toDigits 16 n ++ '\x7d' :: rest).takeWhile (· != '\x7d') = Nat.toDigits 16 n := by
  have hdigit : ∀ c ∈ Nat.toDigits 16 n, (c != '\x7d') = true := by
    intro c hc
    rw [bne_iff_ne]
    rintro rfl
    cases isSome_hexDigit?_of_mem (readHex_toDigits n) hc
  rw [List.takeWhile_append_of_pos hdigit]
  simp

/-- **A character is read back from a shown text.** -/
theorem readShownChar_append (c : Char) (rest : List Char) :
    readShownChar (shownChar c ++ rest) = some (c, rest) := by
  unfold shownChar
  split_ifs with hquote hbackslash hline hreturn htab hzero hvisible
  · rw [hquote]
    rfl
  · rw [hbackslash]
    rfl
  · rw [hline]
    rfl
  · rw [hreturn]
    rfl
  · rw [htab]
    rfl
  · rw [hzero]
    rfl
  · -- a visible character stands for itself, and is neither quote nor backslash
    rw [List.singleton_append]
    unfold readShownChar
    split
    · contradiction
    · rename_i heq
      cases heq
      exact absurd rfl hbackslash
    · rename_i heq
      cases heq
      exact absurd rfl hbackslash
    · rename_i heq
      cases heq
      exact if_neg hquote
  · have hread : readShownChar ('\\' :: 'u' :: '\x7b' :: (Nat.toDigits 16 c.toNat ++
        '\x7d' :: rest)) = some (c, rest) := by
      simp only [readShownChar, List.drop_succ_cons, List.drop_zero, takeWhile_hexDigits,
        readHex_toDigits, Option.map_some, Char.ofNat_toNat]
      simp [List.drop_append]
    simpa using hread

/-- A shown text is read back up to the quote that closes it. -/
theorem flatMap_shownChar_inj {cs ds r s : List Char}
    (h : cs.flatMap shownChar ++ '"' :: r = ds.flatMap shownChar ++ '"' :: s) : cs = ds := by
  induction cs generalizing ds with
  | nil =>
    cases ds with
    | nil => rfl
    | cons d ds =>
      have hread := congrArg readShownChar h
      rw [List.flatMap_cons, List.append_assoc, readShownChar_append] at hread
      cases hread
  | cons c cs ih =>
    have hread := congrArg readShownChar h
    rw [List.flatMap_cons, List.append_assoc, readShownChar_append] at hread
    cases ds with
    | nil => cases hread
    | cons d ds =>
      rw [List.flatMap_cons, List.append_assoc, readShownChar_append] at hread
      injection hread with hpair
      injection hpair with hc hrest
      rw [hc, ih hrest]

/-- **Texts that are shown alike are the same.** -/
theorem shown_injective {s t : String} (h : shown s = shown t) : s = t := by
  have hchars := congrArg String.toList h
  rw [shown, shown, String.toList_ofList, String.toList_ofList] at hchars
  exact String.toList_injective (flatMap_shownChar_inj (List.tail_eq_of_cons_eq hchars))

end Text

/-! ## Numbers and bytes -/

namespace Number

theorem natText_injective {m n : Nat} (h : natText m = natText n) : m = n := by
  have hread := congrArg (fun s => readDigits 0 s.toList) h
  simpa only [readDigits_natText, Option.some.injEq] using hread

theorem intText_injective {m n : Int} (h : intText m = intText n) : m = n := by
  have hsign (k j : Nat) : natText k ≠ "-" ++ natText j := by
    intro heq
    have hmem : '-' ∈ (natText k).toList := by simp [heq]
    cases isDigit_of_mem_natText hmem
  cases m with
  | ofNat m =>
    cases n with
    | ofNat n => exact congrArg Int.ofNat (natText_injective h)
    | negSucc n => exact absurd h (hsign _ _)
  | negSucc m =>
    cases n with
    | ofNat n => exact absurd h.symm (hsign _ _)
    | negSucc n =>
      have hk := natText_injective (String.append_right_inj _ |>.mp h)
      exact congrArg Int.negSucc (Nat.succ.inj hk)

/-- Digits end where they end in both of two texts that are the same. -/
theorem natText_append_inj {m n : Nat} {r s : List Char} (hr : Calendar.Undigited r)
    (hs : Calendar.Undigited s) (h : (natText m).toList ++ r = (natText n).toList ++ s) :
    m = n ∧ r = s := by
  have hdigits (k : Nat) : ∀ c ∈ (natText k).toList, c.isDigit = true :=
    fun c => isDigit_of_mem_natText
  have hm := Calendar.takeWhile_digits (hdigits m) hr
  have hn := Calendar.takeWhile_digits (hdigits n) hs
  rw [h] at hm
  exact ⟨natText_injective (String.toList_injective (hm.1.symm.trans hn.1)), hm.2.symm.trans hn.2⟩

/-- Numbers with a comma in front of each. -/
def commaed (ns : List Nat) : List Char := ns.flatMap fun n => ',' :: ' ' :: (natText n).toList

theorem toList_intercalate_natText (n : Nat) (ns : List Nat) :
    (", ".intercalate ((n :: ns).map natText)).toList = (natText n).toList ++ commaed ns := by
  induction ns generalizing n with
  | nil => simp [commaed]
  | cons k ns ih =>
    rw [List.map_cons, List.map_cons, String.intercalate_cons_cons, ← List.map_cons,
      String.toList_append, ih k]
    simp [commaed]

theorem undigited_commaed {c : Char} (hc : c.isDigit = false) (ns : List Nat) (r : List Char) :
    Calendar.Undigited (commaed ns ++ c :: r) := by
  cases ns with
  | nil =>
    rintro _ ⟨⟩
    exact hc
  | cons n ns =>
    rintro _ ⟨⟩
    rfl

theorem commaed_inj {ms ns : List Nat} {c : Char} {r s : List Char} (hdigit : c.isDigit = false)
    (hcomma : c ≠ ',') (h : commaed ms ++ c :: r = commaed ns ++ c :: s) : ms = ns := by
  induction ms generalizing ns with
  | nil =>
    cases ns with
    | nil => rfl
    | cons n ns => exact absurd (List.head_eq_of_cons_eq h) hcomma
  | cons m ms ih =>
    cases ns with
    | nil => exact absurd (List.head_eq_of_cons_eq h).symm hcomma
    | cons n ns =>
      have hnumbers : (natText m).toList ++ (commaed ms ++ c :: r) =
          (natText n).toList ++ (commaed ns ++ c :: s) := by
        simpa [commaed] using h
      obtain ⟨rfl, hrest⟩ := natText_append_inj (undigited_commaed hdigit ms r)
        (undigited_commaed hdigit ns s) hnumbers
      rw [ih hrest]

/-- **Numbers with commas between them are read back** up to what follows them. -/
theorem intercalate_natText_inj {ms ns : List Nat} {c : Char} {r s : List Char}
    (hdigit : c.isDigit = false) (hcomma : c ≠ ',')
    (h : (", ".intercalate (ms.map natText)).toList ++ c :: r =
      (", ".intercalate (ns.map natText)).toList ++ c :: s) : ms = ns := by
  have hfirst (n : Nat) (ns : List Nat) (r s : List Char) :
      c :: r ≠ (natText n).toList ++ commaed ns ++ c :: s := by
    intro heq
    obtain ⟨d, ds, hd⟩ := List.exists_cons_of_ne_nil
      (fun hnil => natText_ne_empty n (String.toList_eq_nil_iff.mp hnil))
    have hmem : d ∈ (natText n).toList := hd ▸ List.mem_cons_self
    rw [hd] at heq
    rw [List.head_eq_of_cons_eq heq, isDigit_of_mem_natText hmem] at hdigit
    cases hdigit
  cases ms with
  | nil =>
    cases ns with
    | nil => rfl
    | cons n ns =>
      rw [toList_intercalate_natText] at h
      exact absurd h (hfirst n ns r s)
  | cons m ms =>
    rw [toList_intercalate_natText] at h
    cases ns with
    | nil => exact absurd h.symm (hfirst m ms s r)
    | cons n ns =>
      rw [toList_intercalate_natText, List.append_assoc, List.append_assoc] at h
      obtain ⟨rfl, hrest⟩ := natText_append_inj (undigited_commaed hdigit ms r)
        (undigited_commaed hdigit ns s) h
      rw [commaed_inj hdigit hcomma hrest]

end Number

open Calendar

/-! ## Dates and times -/

theorem Calendar.Date.text_injective {a b : Date} (h : a.text = b.text) : a = b := by
  have hread := congrArg date? h
  simpa only [date?_text, Option.some.injEq] using hread

theorem Calendar.Time.text_settled (t : Time) : t.settled.text = t.text := by
  apply String.toList_injective
  rw [Time.toList_text, Time.toList_text, Time.toList_clock, Time.toList_clock, t.hour_settled,
    t.minute_settled, t.shownSecond_settled, t.subsecond_settled]

/-- **Times have one text iff they are equal when settled.** -/
theorem Calendar.Time.text_eq_iff {a b : Time} : a.text = b.text ↔ a.settled = b.settled := by
  constructor
  · intro h
    have hread := congrArg time? h
    simpa only [time?_text, Option.some.injEq] using hread
  · intro h
    rw [← a.text_settled, h, b.text_settled]

theorem Calendar.DateTime.text_settled (x : DateTime) (separator : Char) :
    x.settled.text separator = x.text separator := by
  rw [DateTime.text, DateTime.text, DateTime.settled, Time.text_settled]

theorem Calendar.DateTime.text_eq_iff {a b : DateTime} :
    a.text 'T' = b.text 'T' ↔ a.settled = b.settled := by
  constructor
  · intro h
    have hread := congrArg dateTime? h
    simpa only [dateTime?_text_letter, Option.some.injEq] using hread
  · intro h
    rw [← a.text_settled, h, b.text_settled]

/-! ## Keys -/

namespace Value

variable {a b : Value}

/-- A value of a kind whose texts tell the values apart: floats, decimals and documents are left
out. -/
def isExact : Value → Bool
  | float _ | decimal _ | json _ => false
  | _ => true

/-- The value with a leap second before second 59 taken for the second after. -/
def settled : Value → Value
  | time t => time t.settled
  | dateTime x => dateTime x.settled
  | v => v

theorem kind_settled (v : Value) : v.settled.kind = v.kind := by cases v <;> rfl

theorem shown_settled (v : Value) : v.settled.shown = v.shown := by
  cases v with
  | time t => rw [settled, shown, shown, Time.text_settled]
  | dateTime x => rw [settled, shown, shown, DateTime.text_settled]
  | _ => rfl

theorem keyText_settled (v : Value) : v.settled.keyText = v.keyText := by
  rw [keyText, keyText, kind_settled, shown_settled]

theorem enclosed_inj {p q s t : String} (h : p ++ s ++ q = p ++ t ++ q) : s = t :=
  (String.append_right_inj p).mp ((String.append_left_inj q).mp h)

theorem bytes_inj {bs cs : List UInt8}
    (h : ", ".intercalate (bs.map fun b => natText b.toNat) ++ "])" =
      ", ".intercalate (cs.map fun b => natText b.toNat) ++ "])") : bs = cs := by
  have hnumbers (xs : List UInt8) :
      (xs.map fun b => natText b.toNat) = (xs.map UInt8.toNat).map natText := by
    rw [List.map_map]
    rfl
  have hchars := congrArg String.toList h
  rw [hnumbers, hnumbers, String.toList_append, String.toList_append] at hchars
  exact List.map_injective_iff.mpr (fun _ _ => UInt8.toNat_inj.mp)
    (intercalate_natText_inj (c := ']') rfl (by decide) hchars)

/-- Of one kind, values that are shown alike are equal when settled. -/
theorem settled_eq_of_shown (ha : a.isExact = true) (hk : a.kind = b.kind)
    (h : a.shown = b.shown) : a.settled = b.settled := by
  -- values of two kinds have two names
  cases a <;> cases b <;> simp only [kind, String.reduceEq] at hk
  case null.null => rfl
  case bool.bool x y => cases x <;> cases y <;> first | rfl | exact absurd h (by decide)
  case int.int m n => rw [intText_injective (enclosed_inj h)]
  case float.float => cases ha
  case decimal.decimal => cases ha
  case text.text s t => rw [Text.shown_injective (enclosed_inj h)]
  case bytes.bytes bs cs =>
    rw [shown, shown, String.append_assoc, String.append_assoc] at h
    rw [bytes_inj ((String.append_right_inj _).mp h)]
  case date.date x y => rw [Date.text_injective (enclosed_inj h)]
  case time.time x y => exact congrArg time (Time.text_eq_iff.mp (enclosed_inj h))
  case dateTime.dateTime x y => exact congrArg dateTime (DateTime.text_eq_iff.mp (enclosed_inj h))
  case uuid.uuid u v => rw [Uuid.text_injective (enclosed_inj h)]
  case json.json => cases ha

/-- Texts without a character are the same where they are followed by it in the same text. -/
theorem append_cons_inj {cs ds r s : List Char} {x : Char} (hc : x ∉ cs) (hd : x ∉ ds)
    (h : cs ++ x :: r = ds ++ x :: s) : cs = ds ∧ r = s := by
  have hwhile {ws : List Char} (hw : x ∉ ws) (t : List Char) :
      (ws ++ x :: t).takeWhile (· != x) = ws := by
    have hne : ∀ w ∈ ws, (w != x) = true := by
      intro w hmem
      rw [bne_iff_ne]
      rintro rfl
      exact hw hmem
    rw [List.takeWhile_append_of_pos hne]
    simp
  have hsame : cs = ds := by rw [← hwhile hc r, h, hwhile hd]
  subst hsame
  exact ⟨rfl, List.tail_eq_of_cons_eq (List.append_cancel_left h)⟩

theorem colon_not_mem_kind (a : Value) : ':' ∉ a.kind.toList := by
  cases a <;> simp only [kind] <;> decide

/-- **Values with the same key are equal when settled.** -/
theorem settled_eq_of_keyText (ha : a.isExact = true) (h : a.keyText = b.keyText) :
    a.settled = b.settled := by
  have hchars : a.kind.toList ++ ':' :: a.shown.toList = b.kind.toList ++ ':' :: b.shown.toList := by
    simpa [keyText] using congrArg String.toList h
  obtain ⟨hkind, hshown⟩ :=
    append_cons_inj a.colon_not_mem_kind b.colon_not_mem_kind hchars
  exact settled_eq_of_shown ha (String.toList_injective hkind) (String.toList_injective hshown)

end Value

/-! ## Rows that are kept -/

namespace ForeignRequest

/-- **Keys share the place of their rows exactly if they are equal when settled.** Let a key be no
float, no decimal and no document. Another value has the same text iff the two are equal once a leap
second before second 59 is taken for the second after, so requests for the two find the same rows
only if they are for the same column of the same table and for the same key up to that. Values in
which no such leap second stands are their own settled form: their texts are the same only if they
are. -/
theorem cacheKey_eq_iff {a b : Value} (ha : a.isExact = true) :
    (a.keyText = b.keyText ↔ a.settled = b.settled) ∧
      (a.settled = a → b.settled = b → (a.keyText = b.keyText ↔ a = b)) ∧
      ∀ r s : ForeignRequest, r.key = a → s.key = b →
        (r.cacheKey = s.cacheKey ↔ r.table = s.table ∧ r.column = s.column ∧
          a.settled = b.settled) := by
  have hkey : a.keyText = b.keyText ↔ a.settled = b.settled := by
    refine ⟨Value.settled_eq_of_keyText ha, fun h => ?_⟩
    rw [← a.keyText_settled, h, b.keyText_settled]
  refine ⟨hkey, fun hsa hsb => by rw [hkey, hsa, hsb], ?_⟩
  rintro r s rfl rfl
  rw [← hkey, cacheKey, cacheKey, Prod.mk.injEq, Prod.mk.injEq]

end ForeignRequest

namespace Value

/-- A text that looks like the key of a number, with a quote and a line break, is no number, and is
not found under the number's rows. -/
theorem text_apart_from_int :
    (text "Int(7)\"\n").isExact = true ∧
      ((text "Int(7)\"\n").keyText = (int 7).keyText ↔ text "Int(7)\"\n" = int 7) ∧
      (text "Int(7)\"\n").keyText = "text:Text(\"Int(7)\\\"\\n\")" :=
  ⟨rfl, (ForeignRequest.cacheKey_eq_iff (a := text "Int(7)\"\n") (b := int 7) rfl).2.1 rfl rfl,
    by decide⟩

/-- A third of a second into the leap second on 23:56:04, and a third of a second behind 23:56:05,
are two times and have one key. -/
theorem keyText_leapSecond :
    (time ⟨23, 56, 4, 1333333333, by decide⟩).keyText =
        (time ⟨23, 56, 5, 333333333, by decide⟩).keyText ∧
      time ⟨23, 56, 4, 1333333333, by decide⟩ ≠ time ⟨23, 56, 5, 333333333, by decide⟩ := by
  refine ⟨by decide, fun h => ?_⟩
  cases h

end Value
end SqlWeave
