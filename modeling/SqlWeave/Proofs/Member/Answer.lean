import SqlWeave.Member.Registry
import SqlWeave.Proofs.Template.Flow

/-!
# What the engines write

Each engine has a function of its own for every node that one of its translators accepts. Written
out, all of them do one of few things: they read the time, they put the fragment built so far
between two texts, or they fill a template with it and with what they take of the arguments. The
texts and the templates are finitely many, and they stand in tables here, so what is true of
everything that the engines write is checked on the tables.

`Answer` lists what may be answered to a node. It is the one place where the functions of the
engines are opened; everything else about them is read off an answer. Since a name in the tables of
names need not have been thought of by every engine, it says in particular that all of them have.

Results:
* `cut_of_mem_templates`: the templates have the places they are said to have.
* `series_eq`: parameters with a separator between them, as pieces.
* **`Topic.answer`**: what a translator of an engine answers to a node.
* `Topic.taken_of_accepts`: what is taken of the arguments of a node that is accepted.
-/

namespace SqlWeave

open Template

/-! ## The texts of the engines -/

/-- The units that dates are counted in. -/
def units : List String := ["DAY", "MONTH", "YEAR", "HOUR", "MINUTE", "SECOND"]

/-- The templates of the engines, with the number of their places. -/
def templates : List (String × Nat) :=
  [("UPPER(?)", 1), ("LOWER(?)", 1),
    ("TRIM(?)", 1), ("LTRIM(?)", 1), ("RTRIM(?)", 1), ("TRIM(? FROM ?)", 2),
    ("TRIM(BOTH ? FROM ?)", 2), ("TRIM(LEADING ? FROM ?)", 2), ("TRIM(TRAILING ? FROM ?)", 2),
    ("TRIM(LEADING FROM ?)", 1), ("TRIM(TRAILING FROM ?)", 1),
    ("TRIM(?, ?)", 2), ("LTRIM(?, ?)", 2), ("RTRIM(?, ?)", 2),
    ("SUBSTRING(?,?,?)", 3), ("SUBSTRING(?,?,LEN(?))", 3), ("SUBSTRING(?,?)", 2),
    ("SUBSTR(?,?,?)", 3), ("SUBSTR(?,?)", 2),
    ("SUBSTRING(? FROM ? FOR ?)", 3), ("SUBSTRING(? FROM ?)", 2),
    ("REPLACE(?,?,?)", 3),
    ("LEN(?)", 1), ("CHAR_LENGTH(?)", 1), ("LENGTH(?)", 1),
    ("CONVERT(VARCHAR(23), ?, 121)", 1), ("FORMAT(?, ?)", 2),
    ("CAST(? AS CHAR)", 1), ("DATE_FORMAT(?, ?)", 2),
    ("STRFTIME('%Y-%m-%d %H:%M:%S', ?)", 1), ("STRFTIME(?, ?)", 2),
    ("CAST(? AS VARCHAR(24))", 1)] ++
  units.map (fun unit => ("DATEADD(" ++ unit ++ ", ?, ?)", 2)) ++
  units.map (fun unit => ("DATE_ADD(?, INTERVAL ? " ++ unit ++ ")", 2)) ++
  ["days", "months", "years", "hours", "minutes", "seconds"].map
    (fun unit => ("DATETIME(?, ? || ' " ++ unit ++ "')", 2)) ++
  units.map (fun unit => ("DATEADD(? " ++ unit ++ " TO ?)", 2))

/-- The texts between which the engines put a fragment. -/
def frames : List (String × String) :=
  [("CAST(", " AS DATE)"), ("CAST(", " AS TIME)"), ("(DATEPART(WEEKDAY, ", ") - 1)"),
    ("(DAYOFWEEK(", ") - 1)"), ("(EXTRACT(YEARDAY FROM ", ") + 1)")] ++
  ["YEAR", "MONTH", "DAY", "HOUR", "MINUTE", "SECOND", "DAYOFYEAR"].map
    (fun part => ("DATEPART(" ++ part ++ ", ", ")")) ++
  ["YEAR", "MONTH", "DAY", "HOUR", "MINUTE", "SECOND", "DAYOFYEAR", "DATE", "TIME"].map
    (fun name => (name ++ "(", ")")) ++
  ["%Y", "%m", "%d", "%H", "%M", "%S", "%j", "%w"].map
    (fun token => ("CAST(STRFTIME('" ++ token ++ "', ", ") AS INTEGER)")) ++
  ["YEAR", "MONTH", "DAY", "HOUR", "MINUTE", "SECOND", "WEEKDAY"].map
    (fun part => ("EXTRACT(" ++ part ++ " FROM ", ")"))

/-- The words of the engines for the current time. -/
def clocks : List String :=
  ["GETDATE()", "GETUTCDATE()", "CAST(GETDATE() AS DATE)", "NOW()", "UTC_TIMESTAMP()", "CURDATE()",
    "DATETIME('now', 'localtime')", "DATETIME('now')", "DATE('now', 'localtime')",
    "CURRENT_TIMESTAMP", "CURRENT_DATE"]

/-- What stands in front of parameters of any number, and what between them. -/
def openings : List (String × String) := [("CONCAT(", ","), ("(", " || ")]

/-- **The templates have as many placeholders as it says**, and the texts between them close their
quotes and may follow closed ones. -/
theorem cut_of_mem_templates {template : String} {k : Nat} (hs : (template, k) ∈ templates) :
    Piece.isSound (cut [] (symbols template)) = true ∧
      (cut [] (symbols template)).length = k + 1 := by
  have h : ∀ t ∈ templates, checks (fun cs => Piece.isSound (cut [] (scan none cs)) &&
      (cut [] (scan none cs)).length == t.2 + 1) t.1 = true := by decide +kernel
  obtain ⟨hsound, hlength⟩ := Bool.and_eq_true_iff.mp (of_checks (h _ hs))
  exact ⟨hsound, beq_iff_eq.mp hlength⟩

theorem length_placeholders_of_mem {template : String} {k : Nat}
    (hs : (template, k) ∈ templates) : (placeholders template).length = k := by
  have h := (cut_of_mem_templates hs).2
  rw [length_cut] at h
  rw [placeholders, length_holesFrom]
  exact Nat.succ.inj h

/-- A template of an engine that is filled is its texts with the parameters woven in. -/
theorem new_of_mem_templates {template : String} {params : List Param}
    (hs : (template, params.length) ∈ templates) :
    Expression.new template params =
      .ofPieces (Piece.weave (cut [] (symbols template)) params) :=
  Expression.new_eq_weave (length_placeholders_of_mem hs)

section

variable {opening separator : String} (hs : (opening, separator) ∈ openings)

include hs

theorem flow_series {W : Expression → Prop} {a : Param} {args : List Param}
    (ha : ∀ x ∈ a :: args, x.Of W) :
    Piece.Flow W Outside Settled
      (.text opening :: (((a :: args).map Param.piece).intersperse (.text separator) ++
        [.text ")"])) := by
  simp only [openings, List.mem_cons, Prod.mk.injEq, List.not_mem_nil, or_false] at hs
  have hend : Piece.Flow W Settled Settled [.text ")"] :=
    .joint (by decide) (.nil settled_of_outside)
  rcases hs with ⟨rfl, rfl⟩ | ⟨rfl, rfl⟩
  · exact .neutral (by decide) (.params (joint_of (by decide)) hend ha)
  · exact .neutral (by decide) (.params (joint_of (by decide)) hend ha)

/-- Parameters one after another, as pieces. -/
theorem series_eq (a : Param) (args : List Param) :
    series opening separator (a :: args) =
      .ofPieces (.text opening :: (((a :: args).map Param.piece).intersperse (.text separator) ++
        [.text ")"])) := by
  have hflow := flow_series (W := fun _ => True) hs
    (show ∀ x ∈ a :: args, x.Of fun _ => True from fun x _ => by cases x <;> trivial)
  have ht : (Expression.ofPieces (.text opening ::
      (((a :: args).map Param.piece).intersperse (.text separator) ++ [.text ")"]))).template =
        opening ++ holes (a :: args).length separator ++ ")" := by
    change String.join (List.map Piece.template _) = _
    rw [List.map_cons, String.join_cons, List.map_append, String.join_append,
      Piece.template_intersperse, ← String.append_assoc]
    rfl
  have hp : Piece.params (.text opening ::
      (((a :: args).map Param.piece).intersperse (.text separator) ++ [.text ")"])) =
        a :: args := by
    rw [Piece.params_cons, Piece.params_append, Piece.params_intersperse]
    exact List.append_nil _
  rw [← Expression.new_eq_of_flow hflow, ht, hp]
  rfl

end

/-- The template that is a place alone. -/
theorem new_question (a : Param) : Expression.new "?" [a] = .ofPieces [a.piece] := by
  have h : (placeholders "?").length = 1 := by decide
  rw [Expression.new_eq_weave h]
  exact Expression.ofPieces_eq_iff.mpr (by cases a <;> rfl)

/-! ## What an operation takes of its arguments -/

/-- What a function of texts takes of its arguments. A position is taken as one counted from one,
and of more arguments than a function has, those in front are taken. -/
def TextFunction.taken (name : String) (args : List Param) : List Param :=
  match name with
  | "trim" | "trim_start" | "trim_end" => args.take 1
  | "substring" =>
    (args.take 1).filterMap (fun a => (oneBased a).toOption) ++ (args.drop 1).take 1
  | "replace" => args.take 2
  | "concat" => args
  | _ => []

/-- A pattern in the words of an engine. -/
def Param.pattern (d : Dialect) : Param → Param
  | value (.text p) =>
    match d with
    | .mysql => .value (.text (DatePattern.translate p DatePattern.mysqlTokens))
    | .sqlite => .value (.text (DatePattern.translate p DatePattern.sqliteTokens))
    | _ => .value (.text p)
  | a => a

/-- What a method of dates takes of its arguments. A pattern is taken in the engine's words. -/
def DateMethod.taken (d : Dialect) (name : String) (args : List Param) : List Param :=
  if name = "to_string" ∨ name = "format" then (args.take 1).map (Param.pattern d)
  else args.take 1

/-- The names of the current time, in its forms. -/
def currentTimes : List String := ["now", "utc_now", "today"]

namespace Node

/-- What an operation takes of its arguments. Properties have none. -/
def taken (d : Dialect) (n : Node) (args : List Param) : List Param :=
  if !n.isMethod then []
  else if n.declaring = .string then TextFunction.taken n.name args
  else DateMethod.taken d n.name args

/-- A node reads the current time. -/
def tellsTime (n : Node) : Bool := n.isAmong MemberType.isDate false currentTimes

end Node

/-- What the translators of an engine are about. -/
inductive Topic where
  | texts
  | dateProperties
  | dateMethods

namespace Topic

/-- The translator of an engine. -/
def translator (d : Dialect) : Topic → Translator
  | texts => Translator.texts d
  | dateProperties => Translator.dateProperties d
  | dateMethods => Translator.dateMethods d

/-- The names that are known. -/
def names : Topic → List String
  | texts => textMethods ++ textProperties
  | dateProperties => SqlWeave.dateProperties
  | dateMethods => SqlWeave.dateMethods

/-- What is taken of the arguments under a name. -/
def taken (d : Dialect) (name : String) (args : List Param) : Topic → List Param
  | texts => TextFunction.taken name args
  | dateProperties => []
  | dateMethods => DateMethod.taken d name args

end Topic

/-! ## Answers -/

/-- What a translator may answer to a node. -/
inductive Answer (k : Topic) (d : Dialect) (current : Expression) (n : Node) (args : List Param) :
    Result Expression → Prop
  /-- The current time, whatever stood before it. -/
  | clock {s : String} (hs : s ∈ clocks) (hk : k = .dateProperties) (hn : n.name ∈ currentTimes) :
    Answer k d current n args (.ok (.raw s))
  /-- The fragment built so far between two texts. -/
  | framed {before after : String} (hs : (before, after) ∈ frames) (hk : k = .dateProperties) :
    Answer k d current n args (.ok (current.wrap before after))
  /-- A template with the fragment built so far and what is taken of the arguments. -/
  | filled {template : String} {params : List Param} (hs : (template, params.length) ∈ templates)
      (hp : ∀ p, p ∈ params ↔ p = .expression current ∨ p ∈ k.taken d n.name args) :
    Answer k d current n args (.ok (.new template params))
  /-- The fragment built so far and all arguments one after another. -/
  | series {opening separator : String} (hs : (opening, separator) ∈ openings)
      (ht : k.taken d n.name args = args) :
    Answer k d current n args (.ok (series opening separator (.expression current :: args)))
  /-- The fragment built so far. -/
  | itself (hk : k = .texts) (hn : n.name = "concat") (ht : args = []) :
    Answer k d current n args (.ok (.new "?" [.expression current]))
  /-- A failure that is not the one of a node without a translator. -/
  | refused {e : Error} (he : ∀ type name : String, e ≠ .notMapped type name) :
    Answer k d current n args (.error e)
  /-- A name that is not known. -/
  | unknown (hn : n.name ∉ k.names) : Answer k d current n args (notMapped n)

section

variable {k : Topic} {d : Dialect} {current : Expression} {n : Node} {args : List Param}

namespace Answer

theorem notAvailable : Answer k d current n args (notAvailable d n) :=
  .refused fun _ _ h => by cases h

/-- What is made of an argument. -/
theorem bind_argument {i : Nat} {f : Param → Result Expression}
    (h : ∀ a, args[i]? = some a → Answer k d current n args (f a)) :
    Answer k d current n args (argument n args i >>= f) := by
  unfold argument
  split
  · next a ha => exact h a ha
  · exact .refused fun _ _ h => by cases h

/-- What is made of a position counted from one. -/
theorem bind_oneBased {a : Param} {f : Param → Result Expression}
    (h : ∀ start, oneBased a = .ok start → Answer k d current n args (f start)) :
    Answer k d current n args (oneBased a >>= f) := by
  cases ha : oneBased a with
  | ok start => exact h start ha
  | error e =>
    unfold oneBased at ha
    split at ha
    · split at ha <;> cases ha
      exact .refused fun _ _ h => by cases h
    · cases ha

/-- What is made of a pattern. -/
theorem bind_textArgument {f : String → Result Expression}
    (h : ∀ p, args[0]? = some (.value (.text p)) → Answer k d current n args (f p)) :
    Answer k d current n args (textArgument n args 0 >>= f) := by
  unfold textArgument
  rw [bind_assoc]
  refine bind_argument fun a ha => ?_
  split
  · exact h _ ha
  · exact .refused fun _ _ h => by cases h

end Answer

/-! ### Texts -/

namespace TextFunction

theorem taken_substring {a start : Param} (ha : args[0]? = some a) (hs : oneBased a = .ok start) :
    taken "substring" args = start :: args[1]?.toList := by
  rcases args with - | ⟨b, - | ⟨c, rest⟩⟩
  · cases ha
  · cases ha
    simp [taken, hs, Except.toOption]
  · cases ha
    simp [taken, hs, Except.toOption]

theorem taken_replace {old new : Param} (ho : args[0]? = some old) (hn : args[1]? = some new) :
    taken "replace" args = [old, new] := by
  rcases args with - | ⟨a, - | ⟨b, rest⟩⟩
  · cases ho
  · cases hn
  · cases ho
    cases hn
    rfl

/-- What is made of a position counted from one, and perhaps of a length behind it. -/
theorem bind_substring {f : Param → Result Expression}
    (h : ∀ start, taken "substring" args = start :: args[1]?.toList →
      Answer k d current n args (f start)) :
    Answer k d current n args (argument n args 0 >>= fun a => oneBased a >>= f) :=
  .bind_argument fun _ ha => .bind_oneBased fun start hs => h start (taken_substring ha hs)

/-- What is made of a text to look for and one to put in its place. -/
theorem bind_replace {f : Param → Param → Result Expression}
    (h : ∀ old new, taken "replace" args = [old, new] → Answer k d current n args (f old new)) :
    Answer k d current n args
      (argument n args 0 >>= fun old => argument n args 1 >>= fun new => f old new) :=
  .bind_argument fun old ho => .bind_argument fun new hn => h old new (taken_replace ho hn)

theorem answer_sqlServer : Answer .texts .sqlServer current n args (sqlServer current n args) := by
  unfold sqlServer
  split
  case h_3 hk =>
    cases args <;>
      exact .filled (by simp [templates]) (by simp [Topic.taken, hk, taken, or_comm])
  case h_4 hk | h_5 hk =>
    cases args with
    | nil => exact .filled (by simp [templates]) (by simp [Topic.taken, hk, taken])
    | cons chars rest => exact .notAvailable
  case h_6 hk =>
    refine bind_substring fun start ht => ?_
    split <;> rename_i hl <;>
      exact .filled (by simp [templates]) (by simp [Topic.taken, hk, ht, hl, or_comm])
  case h_7 hk =>
    refine bind_replace fun old new ht => ?_
    exact .filled (by simp [templates]) (by simp [Topic.taken, hk, ht])
  case h_8 hk =>
    cases args with
    | nil => exact .itself rfl hk rfl
    | cons a rest => exact .series (by simp [openings]) (by simp [Topic.taken, hk, taken])
  case h_1 hk | h_2 hk | h_9 hk =>
    exact .filled (by simp [templates]) (by simp [Topic.taken, hk, taken])
  case h_10 => exact .unknown (by simp_all [Topic.names, textMethods, textProperties])

theorem answer_mysql : Answer .texts .mysql current n args (mysql current n args) := by
  unfold mysql
  split
  case h_3 hk | h_4 hk | h_5 hk =>
    cases args <;>
      exact .filled (by simp [templates]) (by simp [Topic.taken, hk, taken, or_comm])
  case h_6 hk =>
    refine bind_substring fun start ht => ?_
    split <;> rename_i hl <;>
      exact .filled (by simp [templates]) (by simp [Topic.taken, hk, ht, hl, or_comm])
  case h_7 hk =>
    refine bind_replace fun old new ht => ?_
    exact .filled (by simp [templates]) (by simp [Topic.taken, hk, ht])
  case h_8 hk => exact .series (by simp [openings]) (by simp [Topic.taken, hk, taken])
  case h_1 hk | h_2 hk | h_9 hk =>
    exact .filled (by simp [templates]) (by simp [Topic.taken, hk, taken])
  case h_10 => exact .unknown (by simp_all [Topic.names, textMethods, textProperties])

theorem answer_sqlite : Answer .texts .sqlite current n args (sqlite current n args) := by
  unfold sqlite
  split
  case h_3 hk | h_4 hk | h_5 hk =>
    cases args <;>
      exact .filled (by simp [templates]) (by simp [Topic.taken, hk, taken, or_comm])
  case h_6 hk =>
    refine bind_substring fun start ht => ?_
    split <;> rename_i hl <;>
      exact .filled (by simp [templates]) (by simp [Topic.taken, hk, ht, hl, or_comm])
  case h_7 hk =>
    refine bind_replace fun old new ht => ?_
    exact .filled (by simp [templates]) (by simp [Topic.taken, hk, ht])
  case h_8 hk => exact .series (by simp [openings]) (by simp [Topic.taken, hk, taken])
  case h_1 hk | h_2 hk | h_9 hk =>
    exact .filled (by simp [templates]) (by simp [Topic.taken, hk, taken])
  case h_10 => exact .unknown (by simp_all [Topic.names, textMethods, textProperties])

theorem answer_firebird : Answer .texts .firebird current n args (firebird current n args) := by
  unfold firebird
  split
  case h_3 hk | h_4 hk | h_5 hk =>
    cases args <;>
      exact .filled (by simp [templates]) (by simp [Topic.taken, hk, taken, or_comm])
  case h_6 hk =>
    refine bind_substring fun start ht => ?_
    split <;> rename_i hl <;>
      exact .filled (by simp [templates]) (by simp [Topic.taken, hk, ht, hl, or_comm])
  case h_7 hk =>
    refine bind_replace fun old new ht => ?_
    exact .filled (by simp [templates]) (by simp [Topic.taken, hk, ht])
  case h_8 hk => exact .series (by simp [openings]) (by simp [Topic.taken, hk, taken])
  case h_1 hk | h_2 hk | h_9 hk =>
    exact .filled (by simp [templates]) (by simp [Topic.taken, hk, taken])
  case h_10 => exact .unknown (by simp_all [Topic.names, textMethods, textProperties])

end TextFunction

/-! ### Parts of dates -/

namespace DateProperty

theorem answer_sqlServer :
    Answer .dateProperties .sqlServer current n args (sqlServer current n) := by
  unfold sqlServer
  split
  case h_1 hk | h_2 hk | h_3 hk => exact .clock (by simp [clocks]) rfl (by simp [currentTimes, hk])
  case h_14 => exact .unknown (by simp_all [Topic.names, dateProperties])
  all_goals exact .framed (by simp [frames]) rfl

theorem answer_mysql :
    Answer .dateProperties .mysql current n args (mysql current n) := by
  unfold mysql
  split
  case h_1 hk | h_2 hk | h_3 hk => exact .clock (by simp [clocks]) rfl (by simp [currentTimes, hk])
  case h_14 => exact .unknown (by simp_all [Topic.names, dateProperties])
  all_goals exact .framed (by simp [frames]) rfl

theorem answer_sqlite :
    Answer .dateProperties .sqlite current n args (sqlite current n) := by
  unfold sqlite
  split
  case h_1 hk | h_2 hk | h_3 hk => exact .clock (by simp [clocks]) rfl (by simp [currentTimes, hk])
  case h_14 => exact .unknown (by simp_all [Topic.names, dateProperties])
  all_goals exact .framed (by simp [frames]) rfl

theorem answer_firebird :
    Answer .dateProperties .firebird current n args (firebird current n) := by
  unfold firebird
  split
  case h_2 => exact .notAvailable
  case h_1 hk | h_3 hk => exact .clock (by simp [clocks]) rfl (by simp [currentTimes, hk])
  case h_14 => exact .unknown (by simp_all [Topic.names, dateProperties])
  all_goals exact .framed (by simp [frames]) rfl

end DateProperty

/-! ### Methods of dates -/

namespace DateMethod

theorem pattern_sqlServer (a : Param) : a.pattern .sqlServer = a := by
  rcases a with v | e
  · cases v <;> rfl
  · rfl

theorem take_one {a : Param} (h : args[0]? = some a) : args.take 1 = [a] := by
  cases args with
  | nil => cases h
  | cons b rest =>
    cases h
    rfl

theorem answer_sqlServer :
    Answer .dateMethods .sqlServer current n args (sqlServer current n args) := by
  unfold sqlServer
  split
  case h_1 hk | h_2 hk =>
    cases args with
    | nil => exact .filled (by simp [templates]) (by simp [Topic.taken, hk, taken])
    | cons pattern rest =>
      exact .filled (by simp [templates]) (by simp [Topic.taken, hk, taken, pattern_sqlServer])
  case h_9 => exact .unknown (by simp_all [Topic.names, dateMethods])
  all_goals
    rename_i hk
    refine .bind_argument fun count hc => ?_
    exact .filled (by simp [templates, units])
      (by simp [Topic.taken, hk, taken, take_one hc, or_comm])

theorem answer_mysql :
    Answer .dateMethods .mysql current n args (mysql current n args) := by
  unfold mysql
  split
  case h_1 hk | h_2 hk =>
    cases args with
    | nil => exact .filled (by simp [templates]) (by simp [Topic.taken, hk, taken])
    | cons pattern rest =>
      refine .bind_textArgument fun p hp => ?_
      cases hp
      exact .filled (by simp [templates]) (by simp [Topic.taken, hk, taken, Param.pattern])
  case h_9 => exact .unknown (by simp_all [Topic.names, dateMethods])
  all_goals
    rename_i hk
    refine .bind_argument fun count hc => ?_
    exact .filled (by simp [templates, units])
      (by simp [Topic.taken, hk, taken, take_one hc, or_comm])

theorem answer_sqlite :
    Answer .dateMethods .sqlite current n args (sqlite current n args) := by
  unfold sqlite
  split
  case h_1 hk | h_2 hk =>
    cases args with
    | nil => exact .filled (by simp [templates]) (by simp [Topic.taken, hk, taken])
    | cons pattern rest =>
      refine .bind_textArgument fun p hp => ?_
      cases hp
      exact .filled (by simp [templates])
        (by simp [Topic.taken, hk, taken, Param.pattern, or_comm])
  case h_9 => exact .unknown (by simp_all [Topic.names, dateMethods])
  all_goals
    rename_i hk
    refine .bind_argument fun count hc => ?_
    exact .filled (by simp [templates, units])
      (by simp [Topic.taken, hk, taken, take_one hc, or_comm])

theorem answer_firebird :
    Answer .dateMethods .firebird current n args (firebird current n args) := by
  unfold firebird
  split
  case h_1 hk | h_2 hk =>
    cases args with
    | nil => exact .filled (by simp [templates]) (by simp [Topic.taken, hk, taken])
    | cons pattern rest =>
      exact .notAvailable
  case h_9 => exact .unknown (by simp_all [Topic.names, dateMethods])
  all_goals
    rename_i hk
    refine .bind_argument fun count hc => ?_
    exact .filled (by simp [templates, units])
      (by simp [Topic.taken, hk, taken, take_one hc, or_comm])

end DateMethod

/-! ### All translators -/

namespace Topic

/-- **What a translator of an engine answers to a node**, whatever the fragment and the arguments
are. -/
theorem answer (k : Topic) (d : Dialect) (s : Scope) (current : Expression) (n : Node)
    (args : List Param) :
    Answer k d current n args ((k.translator d).translate s current n args) := by
  cases k with
  | texts =>
    cases d with
    | sqlServer => exact TextFunction.answer_sqlServer
    | mysql => exact TextFunction.answer_mysql
    | sqlite => exact TextFunction.answer_sqlite
    | firebird => exact TextFunction.answer_firebird
  | dateProperties =>
    cases d with
    | sqlServer => exact DateProperty.answer_sqlServer
    | mysql => exact DateProperty.answer_mysql
    | sqlite => exact DateProperty.answer_sqlite
    | firebird => exact DateProperty.answer_firebird
  | dateMethods =>
    cases d with
    | sqlServer => exact DateMethod.answer_sqlServer
    | mysql => exact DateMethod.answer_mysql
    | sqlite => exact DateMethod.answer_sqlite
    | firebird => exact DateMethod.answer_firebird

/-- What holds of the arguments, and of what is made of positions and patterns, holds of what is
taken. -/
theorem forall_mem_taken {P : Param → Prop} (ha : ∀ a ∈ args, P a)
    (hone : ∀ a start, P a → oneBased a = .ok start → P start)
    (hpattern : ∀ a, P a → P (a.pattern d)) (k : Topic) (name : String) :
    ∀ p ∈ k.taken d name args, P p := by
  have htake : ∀ (i : Nat), ∀ p ∈ args.take i, P p := fun i p hp => ha p (List.mem_of_mem_take hp)
  cases k with
  | dateProperties => exact fun p hp => by cases hp
  | texts =>
    simp only [taken]
    unfold TextFunction.taken
    split
    case h_4 =>
      refine List.forall_mem_append.mpr ⟨fun p hp => ?_, fun p hp =>
        ha p (List.mem_of_mem_drop (List.mem_of_mem_take hp))⟩
      obtain ⟨a, hm, hs⟩ := List.mem_filterMap.mp hp
      cases hone' : oneBased a with
      | error e => rw [hone'] at hs; cases hs
      | ok start =>
        rw [hone'] at hs
        cases hs
        exact hone a p (htake 1 a hm) hone'
    case h_6 => exact ha
    case h_7 => exact fun p hp => by cases hp
    all_goals exact htake _
  | dateMethods =>
    simp only [taken]
    unfold DateMethod.taken
    split
    · exact List.forall_mem_map.mpr fun a hm => hpattern a (htake 1 a hm)
    · exact htake 1

theorem exists_of_mem {t : Translator} (ht : t ∈ Registry.ofDialect d) :
    ∃ k : Topic, t = k.translator d := by
  simp only [Registry.ofDialect, List.mem_cons, List.not_mem_nil, or_false] at ht
  rcases ht with rfl | rfl | rfl
  · exact ⟨texts, rfl⟩
  · exact ⟨dateProperties, rfl⟩
  · exact ⟨dateMethods, rfl⟩

/-- What is accepted: a method or a property, by the type it is declared at and by its name. -/
theorem accepts_iff {k : Topic} : (k.translator d).accepts n = true ↔
    match k with
    | texts => n.declaring = .string ∧
        (n.isMethod = true ∧ n.name ∈ textMethods ∨ n.isMethod = false ∧ n.name ∈ textProperties)
    | dateProperties => n.declaring.isDate = true ∧ n.isMethod = false ∧
        n.name ∈ SqlWeave.dateProperties
    | dateMethods => n.declaring.isDate = true ∧ n.isMethod = true ∧
        n.name ∈ SqlWeave.dateMethods := by
  cases k <;>
    simp [translator, Translator.texts, Translator.dateProperties, Translator.dateMethods,
      Node.isAmong, List.contains_eq_mem] <;> grind

/-- **A node that is accepted has a known name.** -/
theorem mem_names_of_accepts {k : Topic} (hn : (k.translator d).accepts n = true) :
    n.name ∈ k.names := by
  rw [accepts_iff] at hn
  cases k with
  | texts => exact List.mem_append.mpr (hn.2.imp And.right And.right)
  | dateProperties => exact hn.2.2
  | dateMethods => exact hn.2.2

/-- What an accepted node takes of its arguments depends on its name. -/
theorem taken_of_accepts {k : Topic} (hn : (k.translator d).accepts n = true)
    (args : List Param) : n.taken d args = k.taken d n.name args := by
  rw [accepts_iff] at hn
  cases k with
  | texts =>
    obtain ⟨hs, ⟨hm, -⟩ | ⟨hm, hl⟩⟩ := hn
    · simp [Node.taken, hs, hm, taken]
    · simp [Node.taken, hm, taken, List.mem_singleton.mp hl, TextFunction.taken]
  | dateProperties => simp [Node.taken, hn.2.1, taken]
  | dateMethods =>
    have hs : n.declaring ≠ .string := fun hs => by simp [hs, MemberType.isDate] at hn
    simp [Node.taken, hn.2.1, hs, taken]

end Topic

end

end SqlWeave
