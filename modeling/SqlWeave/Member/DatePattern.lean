/-!
# Date patterns of engines

Patterns such as `yyyy-MM-dd` in the tokens of an engine. Each token of a table takes its first
occurrence in the pattern unless a token before it in the table took some of it; then the places
taken are replaced, all at once. A token that occurs again stays as it is.
-/

namespace SqlWeave.DatePattern

/-- A token of patterns and what an engine has for it. -/
structure Token where
  token : String
  replacement : String
  deriving DecidableEq, Repr

/-- The tokens of MySQL, longer ones first. -/
def mysqlTokens : List Token :=
  [⟨"yyyy", "%Y"⟩, ⟨"MMMM", "%M"⟩, ⟨"dddd", "%W"⟩, ⟨"MMM", "%b"⟩, ⟨"ddd", "%a"⟩, ⟨"fff", "%f"⟩,
    ⟨"yy", "%y"⟩, ⟨"MM", "%m"⟩, ⟨"dd", "%d"⟩, ⟨"HH", "%H"⟩, ⟨"hh", "%h"⟩, ⟨"mm", "%i"⟩,
    ⟨"ss", "%s"⟩, ⟨"tt", "%p"⟩, ⟨"M", "%c"⟩, ⟨"d", "%e"⟩, ⟨"H", "%k"⟩, ⟨"h", "%l"⟩]

/-- The tokens of SQLite, longer ones first. -/
def sqliteTokens : List Token :=
  [⟨"yyyy", "%Y"⟩, ⟨"fff", "%f"⟩, ⟨"MM", "%m"⟩, ⟨"dd", "%d"⟩, ⟨"HH", "%H"⟩, ⟨"mm", "%M"⟩,
    ⟨"ss", "%S"⟩]

/-- The place of the first occurrence of a text. -/
def find? (token : List Char) : List Char → Option Nat
  | [] => if token.isEmpty then some 0 else none
  | c :: rest =>
    if token.isPrefixOf (c :: rest) then some 0 else (find? token rest).map (· + 1)

/-- A part of a pattern, from `start` up to `stop`, and what replaces it. -/
structure Span where
  start : Nat
  stop : Nat
  replacement : List Char
  deriving DecidableEq, Repr

/-- Two spans have a place in common. -/
def Span.overlaps (a b : Span) : Bool := a.start < b.stop && b.start < a.stop

/-- The spans with one more, in the order of their places. -/
def insertSpan (c : Span) : List Span → List Span
  | [] => [c]
  | d :: rest => if d.start ≤ c.start then d :: insertSpan c rest else c :: d :: rest

/-- The spans after a token had its turn. -/
def takeToken (pattern : List Char) (taken : List Span) (t : Token) : List Span :=
  match find? t.token.toList pattern with
  | none => taken
  | some start =>
    let c : Span := ⟨start, start + t.token.toList.length, t.replacement.toList⟩
    if taken.any c.overlaps then taken else insertSpan c taken

/-- The spans that a table of tokens takes. -/
def spans (pattern : List Char) (tokens : List Token) : List Span :=
  tokens.foldl (takeToken pattern) []

/-- The pattern from the given place on, with the spans replaced. -/
def replace (pattern : List Char) (place : Nat) : List Span → List Char
  | [] => pattern.drop place
  | c :: rest =>
    (pattern.take c.start).drop place ++ c.replacement ++ replace pattern c.stop rest

/-- The pattern in the tokens of an engine. -/
def translate (pattern : String) (tokens : List Token) : String :=
  String.ofList (replace pattern.toList 0 (spans pattern.toList tokens))

end SqlWeave.DatePattern
