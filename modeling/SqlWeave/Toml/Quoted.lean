import SqlWeave.Json.Text

/-!
# Texts and keys of TOML documents

Texts of four kinds: between double quotes with escapes or between apostrophes without, each on one
line or, between three marks, on several. A key is a path of bare or quoted parts with dots between
them.

The readers take what they read from the front of a text and return it with the rest.
-/

namespace SqlWeave.Toml

open Number

/-- The text after blanks of one line. -/
def skipBlanks (cs : List Char) : List Char := cs.dropWhile fun c => c == ' ' || c == '\t'

/-- A character that a comment or a text may hold as it is. -/
def isPlain (c : Char) : Bool := c == '\t' || (0x20 ≤ c.toNat && c.toNat != 0x7f)

/-! ## Escapes -/

/-- The character of `width` hexadecimal digits at the front of a text. -/
def coded? (width : Nat) (cs : List Char) : Option Char :=
  if cs.length < width then none
  else (readHex 0 (cs.take width)).bind fun n =>
    if n < 0xd800 ∨ (0xe000 ≤ n ∧ n < 0x110000) then some (Char.ofNat n) else none

/-- The character that `c` behind a backslash begins, and how many more characters it takes. -/
def escape? (c : Char) (rest : List Char) : Option (Char × Nat) :=
  if c = 'x' then (coded? 2 rest).map fun x => (x, 2)
  else if c = 'u' then (coded? 4 rest).map fun x => (x, 4)
  else if c = 'U' then (coded? 8 rest).map fun x => (x, 8)
  else if c = 'e' then some ('\x1b', 0)
  else if c = '/' then none
  else (Json.simpleEscape? c).map fun x => (x, 0)

/-! ## Closing marks -/

/-- The number of marks behind the first one that close a text on several lines, with the last two
before them being part of it at most. -/
def closing? (mark : Char) (rest : List Char) : Option Nat :=
  let more := (rest.takeWhile (· == mark)).length
  if more < 2 then none else some (min more 4)

/-- A text whose last characters are `read`, last first, behind which stand `more` marks of which
three close it. -/
def closed (mark : Char) (more : Nat) (read : List Char) : String :=
  String.ofList (List.replicate (more - 2) mark ++ read).reverse

/-! ## Texts -/

/-- The end of the line at the front of a text, if there is one, with what follows. -/
def lineEnd? : List Char → Option (List Char)
  | '\n' :: rest => some rest
  | '\r' :: '\n' :: rest => some rest
  | _ => none

theorem length_of_lineEnd? {cs rest : List Char} (h : lineEnd? cs = some rest) :
    rest.length < cs.length := by
  unfold lineEnd? at h
  split at h
  · cases h; simp
  · cases h; simp only [List.length_cons]; omega
  · cases h

/-- What follows a backslash at the end of a line: blanks and ends of lines are left out, and there
is at least one end. -/
def afterFold? (cs : List Char) : Option (List Char) :=
  match lineEnd? (skipBlanks cs) with
  | some rest => some (rest.dropWhile fun c => c == ' ' || c == '\t' || c == '\n' || c == '\r')
  | none => none

theorem length_skipBlanks_le (cs : List Char) : (skipBlanks cs).length ≤ cs.length :=
  (List.dropWhile_sublist _).length_le

theorem length_of_afterFold? {cs rest : List Char} (h : afterFold? cs = some rest) :
    rest.length < cs.length := by
  unfold afterFold? at h
  split at h
  · rename_i r hr
    injection h with h
    have h1 := length_of_lineEnd? hr
    have h2 := length_skipBlanks_le cs
    have h3 : rest.length ≤ r.length := h ▸ (List.dropWhile_sublist _).length_le
    omega
  · contradiction

/-- A text with escapes up to its closing quote, behind the characters `read`, last first. -/
def takeBasic (multi : Bool) (read : List Char) (cs : List Char) : Option (String × List Char) :=
  match cs with
  | [] => none
  | c :: rest =>
    if c = '"' then
      if multi then
        match closing? '"' rest with
        | some more => some (closed '"' more read, rest.drop more)
        | none => takeBasic multi ('"' :: read) rest
      else some (String.ofList read.reverse, rest)
    else if c = '\\' then
      match _h : (if multi then afterFold? rest else none) with
      | some after => takeBasic multi read after
      | none =>
        match rest with
        | [] => none
        | d :: rest =>
          match escape? d rest with
          | some (x, taken) => takeBasic multi (x :: read) (rest.drop taken)
          | none => none
    else if isPlain c then takeBasic multi (c :: read) rest
    else
      match _h : (if multi then lineEnd? (c :: rest) else none) with
      | some after => takeBasic multi ('\n' :: read) after
      | none => none
termination_by cs.length
decreasing_by
  · simp
  · have : afterFold? rest = some after := by
      revert _h; cases multi <;> simp
    have := length_of_afterFold? this
    simp; omega
  · simp; omega
  · simp
  · have : lineEnd? (c :: rest) = some after := by
      revert _h; cases multi <;> simp
    exact length_of_lineEnd? this

/-- A text without escapes up to its closing apostrophe. -/
def takeLiteral (cs : List Char) : Option (String × List Char) :=
  match cs.dropWhile fun c => c != '\'' && isPlain c with
  | '\'' :: rest => some (String.ofList (cs.takeWhile (· != '\'')), rest)
  | _ => none

/-- A text without escapes on several lines, behind the characters `read`, last first. -/
def takeLines (read : List Char) (cs : List Char) : Option (String × List Char) :=
  match cs with
  | [] => none
  | c :: rest =>
    if c = '\'' then
      match closing? '\'' rest with
      | some more => some (closed '\'' more read, rest.drop more)
      | none => takeLines ('\'' :: read) rest
    else if isPlain c then takeLines (c :: read) rest
    else
      match _h : lineEnd? (c :: rest) with
      | some after => takeLines ('\n' :: read) after
      | none => none
termination_by cs.length
decreasing_by
  · simp
  · simp
  · exact length_of_lineEnd? _h

/-- The text of several lines behind its opening marks, without an end of line right behind them. -/
def afterOpening (cs : List Char) : List Char := (lineEnd? cs).getD cs

/-- A text of any kind. -/
def takeString : List Char → Option (String × List Char)
  | '"' :: '"' :: '"' :: rest => takeBasic true [] (afterOpening rest)
  | '\'' :: '\'' :: '\'' :: rest => takeLines [] (afterOpening rest)
  | '"' :: rest => takeBasic false [] rest
  | '\'' :: rest => takeLiteral rest
  | _ => none

/-! ## Keys -/

/-- A character of a bare key. -/
def inBareKey (c : Char) : Bool := c.isAlphanum || c == '_' || c == '-'

/-- One part of a key. -/
def takeSimpleKey (cs : List Char) : Option (String × List Char) :=
  match cs with
  | '"' :: rest => takeBasic false [] rest
  | '\'' :: rest => takeLiteral rest
  | _ =>
    let (name, rest) := cs.span inBareKey
    if name.isEmpty then none else some (String.ofList name, rest)

/-- A key of at most `fuel` parts with dots between them. -/
def takeKey : Nat → List Char → Option (List String × List Char)
  | 0, _ => none
  | fuel + 1, cs => do
    let (part, rest) ← takeSimpleKey (skipBlanks cs)
    match skipBlanks rest with
    | '.' :: rest =>
      let (parts, rest) ← takeKey fuel rest
      pure (part :: parts, rest)
    | rest => pure ([part], rest)

end SqlWeave.Toml
