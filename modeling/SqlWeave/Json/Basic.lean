/-!
# Documents

A document is null, a truth value, a number, a text, a list or an object. An object holds its
members in the order of their names, each name once.

Values hold documents of a kind made elsewhere. Assumed of it are these six forms, the order of the
members, and the way in which documents are written and read (`Json.text`, `Json.parse?`).

Results:
* `Json.lookup_insertMember`: a member inserted last is the one found.
-/

namespace SqlWeave

/-- A document. -/
inductive Json where
  | null
  | bool (b : Bool)
  | int (n : Int)
  | float (x : Float)
  | string (s : String)
  | array (items : List Json)
  | object (members : List (String × Json))
  deriving Inhabited

namespace Json

mutual

/-- Equality of documents; floats are compared as numbers. -/
def beq : Json → Json → Bool
  | null, null => true
  | bool a, bool b => a == b
  | int a, int b => a == b
  | float a, float b => a == b
  | string a, string b => a == b
  | array a, array b => beqItems a b
  | object a, object b => beqMembers a b
  | _, _ => false

/-- Equality of the items of two lists. -/
def beqItems : List Json → List Json → Bool
  | [], [] => true
  | a :: as, b :: bs => beq a b && beqItems as bs
  | _, _ => false

/-- Equality of the members of two objects. -/
def beqMembers : List (String × Json) → List (String × Json) → Bool
  | [], [] => true
  | (k, a) :: as, (l, b) :: bs => k == l && beq a b && beqMembers as bs
  | _, _ => false

end

instance : BEq Json := ⟨beq⟩

/-- The members with one more, in the order of their names. A member of the same name is
replaced. -/
def insertMember (key : String) (value : Json) : List (String × Json) → List (String × Json)
  | [] => [(key, value)]
  | (k, v) :: rest =>
    if key = k then (key, value) :: rest
    else if key < k then (key, value) :: (k, v) :: rest
    else (k, v) :: insertMember key value rest

/-- The object with the given members; of two with one name the later counts. -/
def ofMembers (members : List (String × Json)) : Json :=
  object (members.foldl (fun acc (k, v) => insertMember k v acc) [])

/-- The member of an object. -/
def member? (key : String) : Json → Option Json
  | object members => members.lookup key
  | _ => none

theorem lookup_insertMember (key : String) (value : Json) (members : List (String × Json)) :
    (insertMember key value members).lookup key = some value := by
  induction members with
  | nil => simp [insertMember]
  | cons m rest ih =>
    obtain ⟨k, v⟩ := m
    simp only [insertMember]
    split
    · simp
    · rename_i h
      split
      · simp
      · have hb : (key == k) = false := by simpa using h
        simp [List.lookup_cons, hb, ih]

end Json
end SqlWeave
