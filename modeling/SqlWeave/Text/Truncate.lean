import SqlWeave.Number.Digits

/-!
# The longest prefix within a number of bytes

Texts are cut by their UTF-8 length without splitting a character.

Results:
* `byteSize_toList`: the bytes of a text are counted character by character.
* `takeBytes_isPrefix`, `size_takeBytes_le`: the cut text is a prefix that fits.
* `takeBytes_of_size_le`: a text that fits is not cut.
-/

namespace SqlWeave.Text

/-- The number of UTF-8 bytes of some characters. -/
def byteSize (cs : List Char) : Nat := (cs.map Char.utf8Size).sum

/-- The longest prefix of at most `limit` UTF-8 bytes. -/
def takeBytes (limit : Nat) : List Char → List Char
  | [] => []
  | c :: rest => if c.utf8Size ≤ limit then c :: takeBytes (limit - c.utf8Size) rest else []

/-- A text cut to the longest prefix of at most `limit` bytes. -/
def truncate (limit : Nat) (s : String) : String := String.ofList (takeBytes limit s.toList)

/-- A text of at most `limit` bytes as it is; of a longer one the cut text and three dots. -/
def abbreviate (limit : Nat) (s : String) : String :=
  if byteSize s.toList ≤ limit then s else truncate limit s ++ "..."

/-- The bytes of a text are counted character by character. -/
theorem byteSize_toList (s : String) : byteSize s.toList = s.utf8ByteSize := by
  rw [String.utf8ByteSize, ← String.utf8Encode_toList, List.utf8Encode, List.size_toByteArray,
    List.length_flatMap]
  unfold byteSize
  simp only [String.length_utf8EncodeChar]

theorem takeBytes_isPrefix (limit : Nat) (cs : List Char) : takeBytes limit cs <+: cs := by
  induction cs generalizing limit with
  | nil => exact List.prefix_rfl
  | cons c rest ih =>
    simp only [takeBytes]
    split
    · exact List.cons_prefix_cons.2 ⟨rfl, ih _⟩
    · exact List.nil_prefix

theorem size_takeBytes_le (limit : Nat) (cs : List Char) :
    byteSize (takeBytes limit cs) ≤ limit := by
  induction cs generalizing limit with
  | nil => simp [takeBytes, byteSize]
  | cons c rest ih =>
    simp only [takeBytes]
    split
    · have := ih (limit - c.utf8Size)
      simp only [byteSize, List.map_cons, List.sum_cons] at this ⊢
      omega
    · simp [byteSize]

theorem takeBytes_of_size_le {limit : Nat} {cs : List Char} (h : byteSize cs ≤ limit) :
    takeBytes limit cs = cs := by
  induction cs generalizing limit with
  | nil => rfl
  | cons c rest ih =>
    simp only [byteSize, List.map_cons, List.sum_cons] at h
    rw [takeBytes, if_pos (by omega), ih (by simp only [byteSize]; omega)]

end SqlWeave.Text
