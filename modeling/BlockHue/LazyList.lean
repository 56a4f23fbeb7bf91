/-!
# Lazy lists

A list whose tail is made only when it is asked for. Each operation does on the elements what the
operation of the same name does on lists, as the lemmas on `toList` say.
-/
namespace BlockHue

inductive LazyList (α : Type) where
  | nil
  | cons (head : α) (tail : Unit → LazyList α)

namespace LazyList

variable {α β : Type}

def toList : LazyList α → List α
  | nil => []
  | cons a s => a :: (s ()).toList

def head? : LazyList α → Option α
  | nil => none
  | cons a _ => some a

def ofList : List α → LazyList α
  | [] => nil
  | a :: as => cons a fun _ => ofList as

def append : LazyList α → (Unit → LazyList α) → LazyList α
  | nil, r => r ()
  | cons a s, r => cons a fun _ => (s ()).append r

def map (f : α → β) : LazyList α → LazyList β
  | nil => nil
  | cons a s => cons (f a) fun _ => (s ()).map f

def flatMap (f : α → LazyList β) : LazyList α → LazyList β
  | nil => nil
  | cons a s => (f a).append fun _ => (s ()).flatMap f

theorem head?_eq (s : LazyList α) : s.head? = s.toList.head? := by cases s <;> rfl

@[simp] theorem toList_ofList (as : List α) : (ofList as).toList = as := by
  induction as with
  | nil => rfl
  | cons a as ih => simp [ofList, toList, ih]

@[simp] theorem toList_append (s : LazyList α) (r : Unit → LazyList α) :
    (s.append r).toList = s.toList ++ (r ()).toList := by
  induction s with
  | nil => rfl
  | cons a s ih => simp [append, toList, ih]

@[simp] theorem toList_map (f : α → β) (s : LazyList α) : (s.map f).toList = s.toList.map f := by
  induction s with
  | nil => rfl
  | cons a s ih => simp [map, toList, ih]

@[simp] theorem toList_flatMap (f : α → LazyList β) (s : LazyList α) :
    (s.flatMap f).toList = s.toList.flatMap fun a => (f a).toList := by
  induction s with
  | nil => rfl
  | cons a s ih => simp [flatMap, toList, ih]

end LazyList

end BlockHue
