import Mathlib
import BlockHue.Depth

/-! Runs of the depth machine. What a stream comes to is put together from its parts, only keywords
are coloured, and whether the machine is inside a region depends on the markers of regions alone:
the last one before decides. -/
namespace BlockHue

/-- The categories that mark the ends of a region. -/
def Category.isMarker : Category → Bool
  | openIgnore | closeIgnore => true
  | _ => false

def Category.isBracket : Category → Bool
  | openComprehension | closeComprehension => true
  | _ => false

namespace Category

variable {c : Category}

lemma not_isKeyword_of_isMarker (h : c.isMarker = true) : c.isKeyword = false := by
  cases c <;> simp [isMarker, isKeyword] at h ⊢

lemma not_isKeyword_of_isBracket (h : c.isBracket = true) : c.isKeyword = false := by
  cases c <;> simp [isBracket, isKeyword] at h ⊢

lemma not_isMarker_of_isKeyword (h : c.isKeyword = true) : c.isMarker = false := by
  cases c <;> simp [isMarker, isKeyword] at h ⊢

lemma not_isMarker_of_isBracket (h : c.isBracket = true) : c.isMarker = false := by
  cases c <;> simp [isMarker, isBracket] at h ⊢

lemma not_isBracket_of_isMarker (h : c.isMarker = true) : c.isBracket = false := by
  cases c <;> simp [isMarker, isBracket] at h ⊢

lemma not_isBracket_of_isKeyword (h : c.isKeyword = true) : c.isBracket = false := by
  cases c <;> simp [isKeyword, isBracket] at h ⊢

lemma isBracket_of_other (hk : c.isKeyword = false) (hm : c.isMarker = false) :
    c.isBracket = true := by
  cases c <;> simp [isKeyword, isMarker, isBracket] at hk hm ⊢

/-- A marker that starts with another token is in order with it on one side only. -/
lemma rank_ne_of_isMarker {d : Category} (hc : c.isMarker = true) (hd : d.isMarker = false) :
    c.rank ≠ d.rank := by
  cases c <;> cases d <;> simp [isMarker, rank] at hc hd ⊢

lemma rank_lt_of_isKeyword {d : Category} (hc : c.isMarker = true) (hd : d.isKeyword = true) :
    c.rank < d.rank := by
  cases c <;> cases d <;> simp [isMarker, isKeyword, rank] at hc hd ⊢

lemma rank_lt_of_isBracket {d : Category} (hc : c.isMarker = true) (hd : d.isBracket = true) :
    d.rank < c.rank := by
  cases c <;> cases d <;> simp [isMarker, isBracket, rank] at hc hd ⊢

end Category

namespace Depth
namespace State

/-- The state after a stream. -/
def feed (s : State) (ts : List Token) : State := ts.foldl (fun s t => (s.step t.category).2) s

@[simp] lemma feed_nil (s : State) : s.feed [] = s := rfl
@[simp] lemma feed_cons (s : State) (t : Token) (ts : List Token) :
    s.feed (t :: ts) = (s.step t.category).2.feed ts := rfl

lemma feed_append (s : State) (ts us : List Token) : s.feed (ts ++ us) = (s.feed ts).feed us :=
  List.foldl_append

def ignoring (s : State) : Bool := s.mode == .ignore

lemma ignoring_iff {s : State} : s.ignoring = true ↔ s.mode = .ignore := by simp [ignoring]

lemma step_fst_of_not_keyword (s : State) {c : Category} (h : c.isKeyword = false) :
    (s.step c).1 = none := by
  rcases s with ⟨_ | _ | n, depth⟩ <;> cases c <;> simp [step, Category.isKeyword] at h ⊢

/-- Inside a region a keyword is not coloured and changes nothing. -/
lemma step_of_ignoring {s : State} (h : s.mode = .ignore) {c : Category} (hc : c.isKeyword = true) :
    s.step c = (none, s) := by
  rcases s with ⟨mode, depth⟩
  obtain rfl : mode = .ignore := h
  cases c <;> simp [step, Category.isKeyword] at hc ⊢

/-- What a category does to the fact that the machine is inside a region. -/
def hides (hidden : Bool) : Category → Bool
  | .openIgnore => true
  | .closeIgnore => false
  | _ => hidden

lemma ignoring_step (s : State) (c : Category) : (s.step c).2.ignoring = hides s.ignoring c := by
  rcases s with ⟨_ | _ | n, depth⟩ <;> cases c <;> simp [step, ignoring, hides]
  by_cases hn : n > 1 <;> simp [hn]

lemma ignoring_feed (s : State) (ts : List Token) :
    (s.feed ts).ignoring = ts.foldl (fun hidden t => hides hidden t.category) s.ignoring := by
  induction ts generalizing s with
  | nil => rfl
  | cons t ts ih => rw [feed_cons, ih, ignoring_step]; rfl

/-- Only the markers of a stream decide whether it ends inside a region. -/
lemma ignoring_feed_filter (s : State) (ts : List Token) :
    (s.feed (ts.filter (·.category.isMarker))).ignoring = (s.feed ts).ignoring := by
  rw [ignoring_feed, ignoring_feed]
  generalize s.ignoring = hidden
  induction ts generalizing hidden with
  | nil => rfl
  | cons t ts ih =>
    rw [List.filter_cons]
    split
    · simp only [List.foldl_cons, ih]
    next hm =>
      have hkeep : hides hidden t.category = hidden := by
        cases hc : t.category <;> simp [hides, hc, Category.isMarker] at hm ⊢
      rw [List.foldl_cons, hkeep, ih]

end State

lemma run_append (s : State) (ts us : List Token) :
    run s (ts ++ us) = run s ts ++ run (s.feed ts) us := by
  induction ts generalizing s with
  | nil => rfl
  | cons t ts ih =>
    simp only [List.cons_append, run, State.feed_cons]
    rcases s.step t.category with ⟨_ | depth, s'⟩ <;> simp [ih]

/-- The coloured tokens are keywords of the stream, in its order. -/
lemma run_sublist (s : State) (ts : List Token) :
    ((run s ts).map Prod.fst).Sublist (ts.filter (·.category.isKeyword)) := by
  induction ts generalizing s with
  | nil => exact List.Sublist.refl _
  | cons t ts ih =>
    have hnone := s.step_fst_of_not_keyword (c := t.category)
    simp only [run]
    cases hk : t.category.isKeyword with
    | true =>
      simp only [List.filter_cons, hk, if_true]
      rcases s.step t.category with ⟨_ | depth, s'⟩
      · exact (ih s').cons t
      · exact (ih s').cons_cons t
    | false =>
      simp only [List.filter_cons, hk, Bool.false_eq_true, if_false]
      have hstep := hnone hk
      rcases hs : s.step t.category with ⟨_ | depth, s'⟩
      · exact ih s'
      · simp [hs] at hstep

end Depth

/-- With a slot to give, a stream has assignments: the spans of its coloured tokens and the
slots of their depths. -/
lemma classify_eq {ts : List Token} {slots : Nat} (h : 0 < slots) :
    classify ts slots =
      .ok ((Depth.run {} ts).map fun (t, depth) => ⟨t.start, t.length, depth % slots⟩) := by
  have hslots : (slots == 0) = false := by
    rw [beq_eq_false_iff_ne]
    omega
  simp [classify, hslots]

end BlockHue
