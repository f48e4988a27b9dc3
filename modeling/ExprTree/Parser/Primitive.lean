import ExprTree.Parser.Basic

namespace ExprTree.Parser

universe u v w

variable {σ : Type u} {α : Type v} {β : Type w}

def satisfy (test : Char → Bool) : Parser σ Char where
  run c :=
    match c.rest with
    | [] => .nil
    | a :: _ => if test a then .single ⟨a, c.skip a.utf8Size⟩ else .nil

def anyChar : Parser σ Char :=
  satisfy fun _ => true

def character (expected : Char) : Parser σ Char :=
  satisfy (· == expected)

def text (expected : String) : Parser σ String where
  run c :=
    if expected.toList.isPrefixOf c.rest then .single ⟨expected, c.skip expected.utf8ByteSize⟩
    else .nil

-- Only ASCII letters have another case here.
def textIgnoringCase (expected : String) : Parser σ String where
  run c :=
    let same (found : List Char) := found.map Char.toLower == expected.toList.map Char.toLower
    if (takeBytes? expected.utf8ByteSize c.rest).any same then
      .single ⟨expected, c.skip expected.utf8ByteSize⟩
    else .nil

def endOfInput : Parser σ Unit where
  run c := if c.isAtEnd then .single ⟨(), c⟩ else .nil

def position : Parser σ (Cursor σ) where
  run c := .single ⟨c, c⟩

def getState : Parser σ σ where
  run c := .single ⟨c.state, c⟩

def setState (state : σ) : Parser σ Unit where
  run c := .single ⟨(), c.withState state⟩

def updateState (f : σ → Option σ) : Parser σ Unit where
  run c := .ofOption ((f c.state).map fun state => ⟨(), c.withState state⟩)

-- Runs a parser in a changed state and puts the outer state back behind every parse.
def withState (enter : σ → σ) (p : Parser σ α) : Parser σ α where
  run c := (p.run (c.withState (enter c.state))).map fun r => ⟨r.value, r.tail.withState c.state⟩

def filterMapState (f : σ → α → Option β) (p : Parser σ α) : Parser σ β where
  run c := (p.run c).filterMap fun r => (f r.tail.state r.value).map fun b => ⟨b, r.tail⟩

theorem utf8Size_toLower (a : Char) : a.toLower.utf8Size = a.utf8Size := by
  unfold Char.toLower
  split
  case isFalse => rfl
  case isTrue upper =>
    have below : a.val.toNat ≤ 'Z'.val.toNat := UInt32.le_iff_toNat_le.mp upper.2
    have ascii : a.val ≤ 127 := UInt32.le_iff_toNat_le.mpr (Nat.le_trans below (by decide))
    rw [Char.utf8Size_eq_one_iff.mpr ascii, Char.utf8Size_eq_one_iff, UInt32.le_iff_toNat_le]
    calc (a.val + ('a'.val - 'A'.val)).toNat
      _ ≤ a.val.toNat + ('a'.val - 'A'.val).toNat := Nat.mod_le _ _
      _ ≤ 'Z'.val.toNat + ('a'.val - 'A'.val).toNat := Nat.add_le_add_right below _
      _ ≤ (127 : UInt32).toNat := by decide

theorem byteSize_toLower (text : List Char) : byteSize (text.map Char.toLower) = byteSize text := by
  induction text with
  | nil => rfl
  | cons a text ih => rw [List.map_cons, byteSize_cons, byteSize_cons, ih, utf8Size_toLower]

section SameLetters

variable {expected : String} {found : List Char}
  (same : found.map Char.toLower = expected.toList.map Char.toLower)

include same

theorem length_of_sameLetters : found.length = expected.length := by
  have length := congrArg List.length same
  rwa [List.length_map, List.length_map, String.length_toList] at length

theorem byteSize_of_sameLetters : byteSize found = expected.utf8ByteSize := by
  rw [← byteSize_toLower, same, byteSize_toLower, byteSize_toList]

end SameLetters

-- The same letters take the same bytes, so it makes no difference which of the two are counted.
theorem any_takeBytes? (expected : String) (text : List Char) :
    ((takeBytes? expected.utf8ByteSize text).any fun found =>
      found.map Char.toLower == expected.toList.map Char.toLower) =
    ((text.take expected.length).map Char.toLower == expected.toList.map Char.toLower) := by
  rw [Bool.eq_iff_iff, Option.any_eq_true, beq_iff_eq]
  constructor
  case mp =>
    rintro ⟨found, taken, same⟩
    have same := eq_of_beq same
    rwa [← length_of_sameLetters same, ← List.prefix_iff_eq_take.mp (prefix_of_takeBytes? taken)]
  case mpr =>
    intro same
    have taken := takeBytes?_append (text.take expected.length) (text.drop expected.length)
    rw [byteSize_of_sameLetters same, List.take_append_drop] at taken
    exact ⟨_, taken, beq_iff_eq.mpr same⟩

section Parses

variable (c : Cursor σ)

@[simp]
theorem parses_satisfy (test : Char → Bool) :
    (satisfy test).parses c =
      match c.rest with
      | [] => []
      | a :: _ => if test a then [⟨a, c.drop 1⟩] else [] := by
  simp only [parses, satisfy]
  cases rest : c.rest with
  | nil => rfl
  | cons a text =>
    have moved : c.skip a.utf8Size = c.drop 1 :=
      c.skip_eq_drop (show c.rest = [a] ++ text from rest)
    cases h : test a <;> simp [h, moved]

@[simp]
theorem parses_text (expected : String) :
    (text expected).parses c =
      if expected.toList.isPrefixOf c.rest then [⟨expected, c.drop expected.length⟩] else [] := by
  simp only [parses, text]
  split
  case isTrue found =>
    obtain ⟨_, rest⟩ := List.isPrefixOf_iff_prefix.mp found
    rw [← byteSize_toList, Cursor.skip_eq_drop rest.symm, String.length_toList]
    rfl
  case isFalse => rfl

theorem tail_of_mem_text {c : Cursor σ} {expected : String} {r : Parsed σ String}
    (mem : r ∈ (text expected).parses c) : r.tail = c.skip expected.utf8ByteSize := by
  simp only [parses, text] at mem
  split at mem
  case isTrue => exact congrArg Parsed.tail (List.mem_singleton.mp mem)
  case isFalse => contradiction

@[simp]
theorem parses_textIgnoringCase (expected : String) :
    (textIgnoringCase expected).parses c =
      if (c.rest.take expected.length).map Char.toLower == expected.toList.map Char.toLower
      then [⟨expected, c.drop expected.length⟩] else [] := by
  simp only [parses, textIgnoringCase, any_takeBytes?]
  split
  case isTrue found =>
    have same := eq_of_beq found
    have moved := c.skip_eq_drop (List.take_append_drop expected.length c.rest).symm
    rw [byteSize_of_sameLetters same, length_of_sameLetters same] at moved
    rw [moved]
    rfl
  case isFalse => rfl

@[simp]
theorem parses_endOfInput :
    (endOfInput : Parser σ Unit).parses c = if c.isAtEnd then [⟨(), c⟩] else [] := by
  simp only [parses, endOfInput]
  split <;> rfl

@[simp]
theorem parses_position : (position : Parser σ (Cursor σ)).parses c = [⟨c, c⟩] := rfl

@[simp]
theorem parses_getState : (getState : Parser σ σ).parses c = [⟨c.state, c⟩] := rfl

@[simp]
theorem parses_setState (state : σ) : (setState state).parses c = [⟨(), c.withState state⟩] := rfl

@[simp]
theorem parses_updateState (f : σ → Option σ) :
    (updateState f).parses c = ((f c.state).map fun s => ⟨(), c.withState s⟩).toList := by
  simp [parses, updateState]

@[simp]
theorem parses_withState (enter : σ → σ) (p : Parser σ α) :
    (withState enter p).parses c =
      (p.parses (c.withState (enter c.state))).map fun r =>
        ⟨r.value, r.tail.withState c.state⟩ := by
  simp [parses, withState]

@[simp]
theorem parses_filterMapState (f : σ → α → Option β) (p : Parser σ α) :
    (p.filterMapState f).parses c =
      (p.parses c).filterMap fun r => (f r.tail.state r.value).map fun b => ⟨b, r.tail⟩ := by
  simp [parses, filterMapState]

end Parses

end ExprTree.Parser
