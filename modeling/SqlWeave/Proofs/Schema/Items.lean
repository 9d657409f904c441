import SqlWeave.Proofs.Quoting.Name
import SqlWeave.Proofs.Schema.Declaration
import SqlWeave.Proofs.Template.Field
import SqlWeave.Text.Ascii

/-!
# Reading the primary keys of a declaration

An engine finds the primary keys of a table by reading its declaration: the items between the
parentheses, and the words of each. `declaredKeys` reads a statement so and knows nothing of the
table it was made for. The words `PRIMARY KEY` declare a key wherever they stand side by side in an
item, over the columns in the parentheses behind them or else over the column that the item begins
with.

An item is written part by part, each behind a blank, so what it declares follows from the words of
its parts (`Follows`), as long as none of them goes on with a key that another has begun.

Results:
* `keysIn_append`, `Quiet.append`: the keys that words declare, from those of their parts.
* `bind_fields_items`: the keys of a list are those of its items.
* `Dialect.listed?_names`: the names in parentheses are those that were listed.
-/

namespace SqlWeave

open Text Template

/-! ## Reading keys -/

namespace Template

/-- A comma. -/
def isComma (c : Char) : Bool := c = ','

/-- A blank or a comma. -/
def isBreak (c : Char) : Bool := isBlank c || isComma c

/-- What a word has in parentheses, if it begins and ends with them. -/
def enclosed? (word : String) : Option String :=
  match word.toList with
  | '(' :: cs => if cs.getLast? = some ')' then some (String.ofList cs.dropLast) else none
  | _ => none

/-- The names that a word lists in parentheses. -/
def listed? (word : String) : Option (List String) :=
  (enclosed? word).bind fun names => (fields isComma names).map (·.filter (· ≠ ""))

/-- The keys that the words of an item declare, each as the names of its columns. A key without a
list is over the column of the item. -/
def keysIn (column : String) : List String → List (List String)
  | [] => []
  | w :: ws =>
    if sameIgnoringCase w "PRIMARY" && ws.head?.any (sameIgnoringCase · "KEY") then
      ((ws.tail.head?.bind listed?).getD [column]) :: keysIn column ws
    else keysIn column ws

/-- The keys that an item of a declaration declares. -/
def itemKeys (item : String) : Option (List (List String)) :=
  (wordsOf item).map fun ws => keysIn (ws.headD "") ws

/-- The primary keys that a declaration of a table has, each as the names of its columns as they
are written, if the declaration can be read. -/
def declaredKeys (sql : String) : Option (List (List String)) := do
  let words ← wordsOf sql
  let body ← words.findSome? enclosed?
  let items ← fields isComma body
  let keys ← items.mapM itemKeys
  pure keys.flatten

variable {column x y : String} {xs ys : List String}

theorem enclosed?_enclosed (text : String) : enclosed? ("(" ++ text ++ ")") = some text := by
  have h : ("(" ++ text ++ ")").toList = '(' :: (text.toList ++ [')']) := by
    rw [String.toList_append, String.toList_append]
    rfl
  unfold enclosed?
  rw [h]
  simp

theorem enclosed?_eq_none {word : String} (h : word.toList.head? ≠ some '(') :
    enclosed? word = none := by
  unfold enclosed?
  split
  · rename_i hw
    rw [hw] at h
    exact absurd rfl h
  · rfl

/-! ### Keys among words -/

/-- Words before others declare nothing of their own if they declare nothing by themselves and the
others do not go on with a key. -/
theorem keysIn_append (hx : keysIn column xs = [])
    (hy : ∀ w ∈ ys.head?, sameIgnoringCase w "KEY" = false) :
    keysIn column (xs ++ ys) = keysIn column ys := by
  induction xs with
  | nil => rfl
  | cons x xs ih =>
    rw [keysIn] at hx
    split at hx
    · cases hx
    · rename_i hkey
      have hnext : (xs ++ ys).head?.any (sameIgnoringCase · "KEY") =
          xs.head?.any (sameIgnoringCase · "KEY") := by
        cases xs with
        | cons z xs => rfl
        | nil =>
          cases hys : ys.head? with
          | none => simp [hys]
          | some w => simp [hys, hy w hys]
      rw [List.cons_append, keysIn, hnext, if_neg hkey]
      exact ih hx

theorem keysIn_cons_of_ne (h : sameIgnoringCase x "PRIMARY" = false) :
    keysIn column (x :: xs) = keysIn column xs := by
  rw [keysIn, h, Bool.false_and, if_neg Bool.false_ne_true]

theorem keysIn_eq_nil (h : ∀ x ∈ xs, sameIgnoringCase x "PRIMARY" = false) :
    keysIn column xs = [] := by
  induction xs with
  | nil => rfl
  | cons x xs ih =>
    obtain ⟨hx, hxs⟩ := List.forall_mem_cons.mp h
    rw [keysIn_cons_of_ne hx, ih hxs]

/-- A text that starts with another letter is no beginning of a key. -/
theorem ne_primary_of_head {c : Char} (h : x.toList.head? = some c) (hc : c.toLower ≠ 'p') :
    sameIgnoringCase x "PRIMARY" = false := by
  rw [← Bool.not_eq_true, sameIgnoringCase_iff]
  intro hx
  have hp : "PRIMARY".toList.map Char.toLower = 'p' :: "rimary".toList := by decide
  have hhead := congrArg List.head? (hx.trans hp)
  rw [List.head?_map, h, Option.map_some, List.head?_cons] at hhead
  exact hc (Option.some.inj hhead)

theorem keysIn_singleton (x : String) : keysIn column [x] = [] := by
  rw [keysIn, List.head?_nil, Option.any_none, Bool.and_false, if_neg Bool.false_ne_true]
  rfl

/-- Whether words declare keys does not depend on the column. -/
theorem keysIn_eq_nil_of (other : String) (h : keysIn other xs = []) : keysIn column xs = [] := by
  induction xs with
  | nil => rfl
  | cons x xs ih =>
    rw [keysIn] at h ⊢
    split at h
    · cases h
    · rename_i hkey
      rw [if_neg hkey]
      exact ih h

/-- Words that say nothing of keys and do not go on with one. -/
structure Quiet (ws : List String) : Prop where
  keys : ∀ column, keysIn column ws = []
  head : ∀ w ∈ ws.head?, sameIgnoringCase w "KEY" = false

theorem quiet_nil : Quiet [] := ⟨fun _ => rfl, fun _ h => by cases h⟩

/-- Words without the first word of a key. -/
theorem quiet_of (hx : sameIgnoringCase x "KEY" = false)
    (h : (x :: xs).all (!sameIgnoringCase · "PRIMARY") = true) : Quiet (x :: xs) where
  keys _ := keysIn_eq_nil fun w hw => by simpa using List.all_eq_true.mp h w hw
  head w hw := by
    cases hw
    exact hx

theorem Quiet.append (hx : Quiet xs) (hy : Quiet ys) : Quiet (xs ++ ys) where
  keys column := (keysIn_append (hx.keys column) hy.head).trans (hy.keys column)
  head w hw := by
    cases xs with
    | nil => exact hy.head w hw
    | cons x xs => exact hx.head w hw

/-! ### Items -/

/-- The text is one item and says nothing of keys. -/
def IsKeyless (text : String) : Prop := IsField isComma text ∧ itemKeys text = some []

instance (text : String) : Decidable (IsKeyless text) := inferInstanceAs (Decidable (_ ∧ _))

theorem IsKeyless.words (h : IsKeyless x) :
    ∃ xs, wordsOf x = some xs ∧ ∀ column, keysIn column xs = [] := by
  obtain ⟨xs, hxs, hk⟩ := Option.map_eq_some_iff.mp h.2
  exact ⟨xs, hxs, fun column => keysIn_eq_nil_of _ hk⟩

/-- A text that may follow an item and gives it more words. -/
structure Follows (text : String) (ws : List String) : Prop where
  words : ∀ {x xs}, wordsOf x = some xs → wordsOf (x ++ text) = some (xs ++ ws)
  item : ∀ {x}, IsField isComma x → IsField isComma (x ++ text)

theorem follows_empty : Follows "" [] where
  words h := by rw [String.append_empty, List.append_nil, h]
  item h := by rwa [String.append_empty]

theorem follows_blank (hi : IsField isComma x) (hw : wordsOf x = some xs) :
    Follows (" " ++ x) xs where
  words h := by
    rw [← String.append_assoc]
    exact wordsOf_append h hw
  item h := by
    rw [← String.append_assoc]
    exact h.append isMark_blank rfl hi

/-- A text that has neither blanks nor commas outside of quotes and parentheses is no list. -/
theorem item_of_unbroken (h : IsField isBreak x) : IsField isComma x :=
  h.mono fun c hc => by simp [isBreak, hc]

/-- A text that has neither blanks nor commas outside of quotes and parentheses is one word. -/
theorem word_of_unbroken (h : IsField isBreak x) (hx : x ≠ "") : wordsOf x = some [x] :=
  wordsOf_isField (h.mono fun c hc => by simp [isBreak, hc]) hx

theorem follows_word (h : IsField isBreak x) (hx : x ≠ "") : Follows (" " ++ x) [x] :=
  follows_blank (item_of_unbroken h) (word_of_unbroken h hx)

theorem Follows.append (hx : Follows x xs) (hy : Follows y ys) : Follows (x ++ y) (xs ++ ys) where
  words h := by
    rw [← String.append_assoc, ← List.append_assoc]
    exact hy.words (hx.words h)
  item h := by
    rw [← String.append_assoc]
    exact hy.item (hx.item h)

/-- A keyword with what stands behind it. -/
theorem Follows.behind (h : Follows (" " ++ x) xs) (keyword : String) (ks : List String)
    (hi : IsField isComma keyword) (hk : wordsOf keyword = some ks) :
    Follows (" " ++ (keyword ++ " " ++ x)) (ks ++ xs) := by
  have h := (follows_blank hi hk).append h
  rwa [String.append_assoc, ← @String.append_assoc keyword] at h

/-- An item behind a blank declares what it declares by itself. -/
theorem itemKeys_blank (h : wordsOf x = some xs) : itemKeys (" " ++ x) = itemKeys x := by
  have hempty : wordsOf "" = some [] := by decide
  have hblank := wordsOf_append hempty h
  rw [String.empty_append] at hblank
  unfold itemKeys
  rw [hblank, h, List.nil_append]

/-- The items between commas are those that were joined; every item but the first has a blank in
front of it. -/
theorem fields_items (hx : IsField isComma x) (hxs : ∀ y ∈ xs, IsField isComma y) :
    fields isComma (", ".intercalate (x :: xs)) = some (x :: xs.map (" " ++ ·)) := by
  have hempty : IsField isComma "" := by decide
  have hblank : ∀ {y : String}, IsField isComma y → IsField isComma (" " ++ y) := by
    intro y hy
    have h := hempty.append isMark_blank rfl hy
    rwa [String.empty_append] at h
  -- what is in front of the first item is carried along
  suffices h : ∀ p : String, IsField isComma (p ++ x) →
      fields isComma (p ++ ", ".intercalate (x :: xs)) = some ((p ++ x) :: xs.map (" " ++ ·)) by
    have h := h "" (by rwa [String.empty_append])
    rwa [String.empty_append, String.empty_append] at h
  induction xs generalizing x with
  | nil =>
    intro p hp
    rw [String.intercalate_singleton]
    exact hp
  | cons y xs ih =>
    intro p hp
    obtain ⟨hy, hxs⟩ := List.forall_mem_cons.mp hxs
    have hcomma : ", " = "," ++ " " := rfl
    rw [String.intercalate_cons_cons, ← String.append_assoc, ← String.append_assoc, hcomma,
      ← String.append_assoc, String.append_assoc, ← hcomma]
    exact fields_append isMark_comma rfl hp (ih hy hxs " " (hblank hy))

/-- Going through a list of what has a result gives the results. -/
theorem mapM_eq_some {α β : Type} {f : α → Option β} {g : α → β} {as : List α}
    (h : ∀ a ∈ as, f a = some (g a)) : as.mapM f = some (as.map g) := by
  induction as with
  | nil => rfl
  | cons a as ih =>
    obtain ⟨ha, has⟩ := List.forall_mem_cons.mp h
    rw [List.mapM_cons, ha, ih has]
    rfl

theorem mapM_map_eq_some {α β γ : Type} {f : β → Option γ} {t : α → β} {g : α → γ} {as : List α}
    (h : ∀ a ∈ as, f (t a) = some (g a)) : (as.map t).mapM f = some (as.map g) := by
  rw [List.mapM_map]
  exact mapM_eq_some h

/-- **The keys of items are those of the declaration that lists them.** -/
theorem bind_fields_items {items : List String} {keys : String → List (List String)}
    (hne : items ≠ []) (h : ∀ x ∈ items, IsField isComma x ∧ itemKeys x = some (keys x)) :
    ((fields isComma (", ".intercalate items)).bind fun xs => xs.mapM itemKeys) =
      items.mapM itemKeys := by
  cases items with
  | nil => exact absurd rfl hne
  | cons x xs =>
    obtain ⟨hx, hxs⟩ := List.forall_mem_cons.mp h
    have hblank : ∀ y ∈ xs, itemKeys (" " ++ y) = some (keys y) := by
      intro y hy
      obtain ⟨ws, hws, -⟩ := Option.map_eq_some_iff.mp (hxs y hy).2
      rw [itemKeys_blank hws, (hxs y hy).2]
    rw [fields_items hx.1 fun y hy => (hxs y hy).1, Option.bind_some, List.mapM_cons,
      List.mapM_cons, mapM_map_eq_some hblank, mapM_eq_some fun y hy => (hxs y hy).2]

end Template

/-! ## Names -/

namespace Dialect

variable {d : Dialect} {name : String}

/-- The name does not claim to be quoted already, or it is quoted and complete by itself. -/
def Complete (d : Dialect) (name : String) : Prop := d.Unquoted name ∨ IsField isBreak name

theorem isField_of_complete (h : d.Complete name) : IsField isBreak (d.quote name) := by
  by_cases hu : d.Unquoted name
  · exact isField_quote hu (by decide) (by decide)
  · rw [quote, if_pos (not_not.mp hu)]
    exact h.resolve_left hu

/-- A quoted name starts with a quote or is a star. -/
theorem head?_quote (d : Dialect) (name : String) :
    (d.quote name).toList.head? = some d.quotes.1 ∨ (d.quote name).toList.head? = some '*' := by
  by_cases hu : d.Unquoted name
  · rw [quote_eq_intercalate hu]
    obtain ⟨part, rest, hp⟩ := List.exists_cons_of_ne_nil (parts_ne_nil name)
    have hhead : (".".intercalate ((parts name).map d.quotePart)).toList.head? =
        (d.quotePart part).toList.head? := by
      have hne := quotePart_ne_nil (d := d) (n := part)
      rw [hp, List.map_cons]
      cases rest with
      | nil => rw [List.map_nil, String.intercalate_singleton]
      | cons q rest =>
        rw [List.map_cons, String.intercalate_cons_cons, String.toList_append,
          String.toList_append, List.append_assoc, List.head?_append_of_ne_nil _ hne]
    rw [hhead]
    by_cases hs : part = "*"
    · rw [hs, toList_quotePart_star]
      exact .inr rfl
    · rw [toList_quotePart hs]
      exact .inl rfl
  · rw [quote, if_pos (not_not.mp hu)]
    exact .inl (not_not.mp hu)

/-- A quoted name is no keyword. -/
theorem quote_ne_primary (d : Dialect) (name : String) :
    sameIgnoringCase (d.quote name) "PRIMARY" = false := by
  rcases d.head?_quote name with hq | hq <;> refine ne_primary_of_head hq ?_
  · cases d <;> decide
  · decide

theorem quote_ne_empty (d : Dialect) (name : String) : d.quote name ≠ "" := by
  intro h
  rcases d.head?_quote name with hq | hq <;> rw [h] at hq <;> cases hq

theorem enclosed?_quote (d : Dialect) (name : String) : enclosed? (d.quote name) = none := by
  refine enclosed?_eq_none fun h => ?_
  rcases d.head?_quote name with hq | hq <;> rw [h] at hq
  · cases d <;> exact absurd hq (by decide)
  · exact absurd hq (by decide)

theorem wordsOf_quote (h : d.Complete name) : wordsOf (d.quote name) = some [d.quote name] :=
  word_of_unbroken (isField_of_complete h) (d.quote_ne_empty name)

theorem isItem_quote (h : d.Complete name) : IsField isComma (d.quote name) :=
  item_of_unbroken (isField_of_complete h)

theorem follows_quote (h : d.Complete name) : Follows (" " ++ d.quote name) [d.quote name] :=
  follows_word (isField_of_complete h) (d.quote_ne_empty name)

/-! ### Lists of names -/

variable {columns : List String}

theorem fields_names (hne : columns ≠ []) (h : ∀ column ∈ columns, d.Complete column) :
    fields isComma (",".intercalate (columns.map d.quote)) = some (columns.map d.quote) := by
  refine fields_intercalate isMark_comma rfl (by simpa using hne) ?_
  rw [List.forall_mem_map]
  exact fun name hn => isItem_quote (h name hn)

/-- **The names in parentheses are those that were listed.** -/
theorem listed?_names (h : ∀ column ∈ columns, d.Complete column) :
    listed? (ConstraintKind.names d columns) = some (columns.map d.quote) := by
  unfold listed? ConstraintKind.names
  rw [enclosed?_enclosed, Option.bind_some]
  have hfull : ∀ w ∈ columns.map d.quote, decide (w ≠ "") = true := by
    intro w hw
    obtain ⟨name, -, rfl⟩ := List.mem_map.mp hw
    exact decide_eq_true (d.quote_ne_empty name)
  by_cases hne : columns = []
  · rw [hne, List.map_nil]
    decide
  · rw [fields_names hne h, Option.map_some, List.filter_eq_self.mpr hfull]

theorem isField_names (h : ∀ column ∈ columns, d.Complete column) :
    IsField isBreak (ConstraintKind.names d columns) := by
  refine isField_enclosed (by decide) ?_
  by_cases hne : columns = []
  · rw [hne, List.map_nil]
    have hempty : IsField isComma (",".intercalate []) := by decide
    exact hempty.closed
  · exact closed_of_fields (fields_names hne h)

theorem names_ne_primary (columns : List String) :
    sameIgnoringCase (ConstraintKind.names d columns) "PRIMARY" = false := by
  refine ne_primary_of_head (c := '(') ?_ (by decide)
  unfold ConstraintKind.names
  rw [String.toList_append, String.toList_append]
  rfl

/-- A list of names may stand behind a blank in an item. -/
theorem follows_names (h : ∀ column ∈ columns, d.Complete column) :
    Follows (" " ++ ConstraintKind.names d columns) [ConstraintKind.names d columns] :=
  follows_word (isField_names h) (by simp [ConstraintKind.names])

end Dialect

end SqlWeave
