namespace ExprTree

universe u v

def byteSize : List Char → Nat
  | [] => 0
  | c :: text => c.utf8Size + byteSize text

@[simp]
theorem byteSize_nil : byteSize [] = 0 := rfl

@[simp]
theorem byteSize_cons (c : Char) (text : List Char) :
    byteSize (c :: text) = c.utf8Size + byteSize text := rfl

@[simp]
theorem byteSize_append (s t : List Char) : byteSize (s ++ t) = byteSize s + byteSize t := by
  induction s with
  | nil => simp
  | cons c s ih => simp [ih, Nat.add_assoc]

theorem utf8ByteSize_ofList (text : List Char) :
    (String.ofList text).utf8ByteSize = byteSize text := by
  induction text with
  | nil => rfl
  | cons c text ih =>
    rw [String.ofList_cons, String.utf8ByteSize_append, String.utf8ByteSize_singleton, ih,
      byteSize_cons]

theorem byteSize_toList (source : String) : byteSize source.toList = source.utf8ByteSize := by
  rw [← utf8ByteSize_ofList, String.ofList_toList]

def dropBytes : Nat → List Char → List Char
  | 0, text => text
  | _ + 1, [] => []
  | bytes + 1, c :: text => dropBytes (bytes + 1 - c.utf8Size) text

@[simp]
theorem dropBytes_zero (text : List Char) : dropBytes 0 text = text := by
  cases text <;> rfl

@[simp]
theorem dropBytes_cons (bytes : Nat) (c : Char) (text : List Char) :
    dropBytes (c.utf8Size + bytes) (c :: text) = dropBytes bytes text := by
  have ⟨n, size⟩ := Nat.exists_eq_add_one.mpr c.utf8Size_pos
  rw [size, Nat.add_right_comm, dropBytes, size, Nat.add_right_comm, Nat.add_sub_cancel_left]

theorem dropBytes_append (read text : List Char) : dropBytes (byteSize read) (read ++ text) = text := by
  induction read with
  | nil => simp
  | cons c read ih => simp [ih]

-- The first characters of a text that take `bytes` bytes together, if there are such.
def takeBytes? : Nat → List Char → Option (List Char)
  | 0, _ => some []
  | _ + 1, [] => none
  | bytes + 1, c :: text =>
    if c.utf8Size ≤ bytes + 1 then (takeBytes? (bytes + 1 - c.utf8Size) text).map (c :: ·) else none

@[simp]
theorem takeBytes?_zero (text : List Char) : takeBytes? 0 text = some [] := by
  cases text <;> rfl

@[simp]
theorem takeBytes?_cons (bytes : Nat) (c : Char) (text : List Char) :
    takeBytes? (c.utf8Size + bytes) (c :: text) = (takeBytes? bytes text).map (c :: ·) := by
  have ⟨n, size⟩ := Nat.exists_eq_add_one.mpr c.utf8Size_pos
  rw [size, Nat.add_right_comm, takeBytes?, size, if_pos (Nat.add_right_comm .. ▸ Nat.le_add_right ..),
    Nat.add_right_comm, Nat.add_sub_cancel_left]

theorem takeBytes?_append (read text : List Char) :
    takeBytes? (byteSize read) (read ++ text) = some read := by
  induction read with
  | nil => simp
  | cons c read ih => simp [ih]

theorem prefix_of_takeBytes? {bytes : Nat} {text read : List Char}
    (h : takeBytes? bytes text = some read) : read <+: text := by
  fun_induction takeBytes? bytes text generalizing read with
  | case1 => exact Option.some.inj h ▸ List.nil_prefix
  | case2 => contradiction
  | case3 bytes c text _ ih =>
    have ⟨read', inner, eq⟩ := Option.map_eq_some_iff.mp h
    exact eq ▸ List.cons_prefix_cons.mpr ⟨rfl, ih inner⟩
  | case4 => contradiction

inductive CursorError where
  | endOfInput
deriving DecidableEq, Repr

def CursorError.message : CursorError → String
  | endOfInput => "unexpected end of input"

@[ext]
structure Cursor (σ : Type u) where
  source : String
  offset : Nat
  rest   : List Char
  state  : σ
deriving DecidableEq

namespace Cursor

variable {σ : Type u} {τ : Type v}

def start (source : String) (state : σ) : Cursor σ where
  source := source
  offset := 0
  rest   := source.toList
  state  := state

-- The offset is the size of a part of the source that ends where the unread characters begin.
def Valid (c : Cursor σ) : Prop :=
  ∃ read : List Char, c.source.toList = read ++ c.rest ∧ c.offset = byteSize read

theorem start_valid (source : String) (state : σ) : (start source state).Valid :=
  ⟨[], rfl, rfl⟩

def remaining (c : Cursor σ) : Nat :=
  c.source.utf8ByteSize - c.offset

def isAtEnd (c : Cursor σ) : Bool :=
  c.rest.isEmpty

def current (c : Cursor σ) : Except CursorError Char :=
  match c.rest with
  | [] => .error .endOfInput
  | a :: _ => .ok a

-- Moves `bytes` forward, to where a character ends.
def skip (c : Cursor σ) (bytes : Nat) : Cursor σ :=
  { c with
    offset := c.offset + bytes
    rest   := dropBytes bytes c.rest }

def drop (c : Cursor σ) (n : Nat) : Cursor σ :=
  { c with
    offset := c.offset + byteSize (c.rest.take n)
    rest   := c.rest.drop n }

theorem Valid.drop {c : Cursor σ} (h : c.Valid) (n : Nat) : (c.drop n).Valid := by
  have ⟨read, source, offset⟩ := h
  refine ⟨read ++ c.rest.take n, ?_, ?_⟩
  · simp [Cursor.drop, source]
  · simp [Cursor.drop, offset]

theorem skip_eq_drop {c : Cursor σ} {read text : List Char} (rest : c.rest = read ++ text) :
    c.skip (byteSize read) = c.drop read.length := by
  rw [skip, drop, rest, dropBytes_append, List.take_left, List.drop_left]

def advance (c : Cursor σ) : Except CursorError (Cursor σ) :=
  c.current.map fun a => c.skip a.utf8Size

def withState (c : Cursor σ) (state : τ) : Cursor τ where
  source := c.source
  offset := c.offset
  rest   := c.rest
  state  := state

theorem Valid.withState {c : Cursor σ} (h : c.Valid) (state : τ) : (c.withState state).Valid :=
  h

@[simp]
theorem withState_remaining (c : Cursor σ) (state : τ) :
    (c.withState state).remaining = c.remaining := rfl

end Cursor

end ExprTree
