namespace ExprTree

universe u v

-- A parser may match in many ways, and most callers look at the first one or two only. So the tail is
-- computed when it is asked for.
inductive Results (α : Type u) where
  | nil
  | cons (head : α) (tail : Unit → Results α)

namespace Results

variable {α : Type u} {β : Type v}

instance : Inhabited (Results α) := ⟨nil⟩

def toList : Results α → List α
  | nil => []
  | cons a tail => a :: (tail ()).toList

@[simp]
theorem toList_nil : (nil : Results α).toList = [] := rfl

@[simp]
theorem toList_cons (a : α) (tail : Unit → Results α) :
    (cons a tail).toList = a :: (tail ()).toList := rfl

theorem toList_injective {r s : Results α} (h : r.toList = s.toList) : r = s := by
  induction r generalizing s with
  | nil =>
    cases s with
    | nil => rfl
    | cons => simp at h
  | cons a tail ih =>
    cases s with
    | nil => simp at h
    | cons b other =>
      simp only [toList_cons, List.cons.injEq] at h
      have tails : tail = other := funext fun _ => ih () h.2
      rw [h.1, tails]

def single (a : α) : Results α :=
  cons a fun _ => nil

@[simp]
theorem toList_single (a : α) : (single a).toList = [a] := rfl

def ofOption : Option α → Results α
  | none => nil
  | some a => single a

@[simp]
theorem toList_ofOption (o : Option α) : (ofOption o).toList = o.toList := by
  cases o <;> rfl

-- The elements of the second sequence after those of the first; the second is computed only once
-- the first is used up.
def append : Results α → (Unit → Results α) → Results α
  | nil, s => s ()
  | cons a tail, s => cons a fun _ => (tail ()).append s

@[simp]
theorem toList_append (r : Results α) (s : Unit → Results α) :
    (r.append s).toList = r.toList ++ (s ()).toList := by
  induction r with
  | nil => rfl
  | cons a tail ih => simp [append, ih ()]

def map (f : α → β) : Results α → Results β
  | nil => nil
  | cons a tail => cons (f a) fun _ => (tail ()).map f

@[simp]
theorem toList_map (f : α → β) (r : Results α) : (r.map f).toList = r.toList.map f := by
  induction r with
  | nil => rfl
  | cons a tail ih => simp [map, ih ()]

def filterMap (f : α → Option β) : Results α → Results β
  | nil => nil
  | cons a tail =>
    match f a with
    | none => (tail ()).filterMap f
    | some b => cons b fun _ => (tail ()).filterMap f

@[simp]
theorem toList_filterMap (f : α → Option β) (r : Results α) :
    (r.filterMap f).toList = r.toList.filterMap f := by
  induction r with
  | nil => rfl
  | cons a tail ih => cases h : f a <;> simp [filterMap, h, ih ()]

def filter (keep : α → Bool) : Results α → Results α
  | nil => nil
  | cons a tail =>
    match keep a with
    | true => cons a fun _ => (tail ()).filter keep
    | false => (tail ()).filter keep

@[simp]
theorem toList_filter (keep : α → Bool) (r : Results α) :
    (r.filter keep).toList = r.toList.filter keep := by
  induction r with
  | nil => rfl
  | cons a tail ih => cases h : keep a <;> simp [filter, h, ih ()]

def flatMap (r : Results α) (f : α → Results β) : Results β :=
  match r with
  | nil => nil
  | cons a tail => (f a).append fun _ => (tail ()).flatMap f

@[simp]
theorem toList_flatMap (r : Results α) (f : α → Results β) :
    (r.flatMap f).toList = r.toList.flatMap fun a => (f a).toList := by
  induction r with
  | nil => rfl
  | cons a tail ih => simp [flatMap, ih ()]

def first : Results α → Results α
  | nil => nil
  | cons a _ => single a

@[simp]
theorem toList_first (r : Results α) : r.first.toList = r.toList.take 1 := by
  cases r <;> simp [first]

def isEmpty : Results α → Bool
  | nil => true
  | cons _ _ => false

@[simp]
theorem isEmpty_eq (r : Results α) : r.isEmpty = r.toList.isEmpty := by
  cases r <;> rfl

def take : Nat → Results α → List α
  | 0, _ => []
  | _ + 1, nil => []
  | n + 1, cons a tail => a :: take n (tail ())

@[simp]
theorem take_eq (n : Nat) (r : Results α) : r.take n = r.toList.take n := by
  induction n generalizing r with
  | zero => cases r <;> rfl
  | succ n ih => cases r <;> simp [take, ih]

end Results

end ExprTree
