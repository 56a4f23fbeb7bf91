import Mathlib
import BlockHue.Registry

/-! Looking up languages in a registry. The latest profile of a name decides what is
found under the name. -/
namespace BlockHue
namespace Assoc

variable {α : Type}

lemma lookup_erase (key other : String) (l : List (String × α)) :
    (erase key l).lookup other = if other = key then none else l.lookup other := by
  induction l with
  | nil => simp [erase]
  | cons e l ih =>
    obtain ⟨k, v⟩ := e
    by_cases hk : k = key
    · subst hk
      have hdrop : erase k ((k, v) :: l) = erase k l := by simp [erase]
      rw [hdrop, ih]
      by_cases ho : other = k
      · simp [ho]
      · have hne : (other == k) = false := by simpa using ho
        simp only [List.lookup_cons, hne]
    · have hkeep : erase key ((k, v) :: l) = (k, v) :: erase key l := by simp [erase, hk]
      rw [hkeep, List.lookup_cons, List.lookup_cons, ih]
      by_cases ho : other = k
      · simp [ho, hk]
      · have hne : (other == k) = false := by simpa using ho
        simp only [hne]

lemma lookup_put (key other : String) (value : α) (l : List (String × α)) :
    (put key value l).lookup other = if other = key then some value else l.lookup other := by
  by_cases h : other = key
  · simp [put, h]
  · have hne : (other == key) = false := by simp [h]
    simp [put, List.lookup_cons, hne, lookup_erase, h]

lemma nodup_erase {l : List (String × α)} (h : (l.map Prod.fst).Nodup) (key : String) :
    ((erase key l).map Prod.fst).Nodup :=
  h.sublist (List.filter_sublist.map Prod.fst)

lemma nodup_put {l : List (String × α)} (h : (l.map Prod.fst).Nodup) (key : String) (value : α) :
    ((put key value l).map Prod.fst).Nodup := by
  refine List.nodup_cons.mpr ⟨?_, nodup_erase h key⟩
  intro hmem
  obtain ⟨e, he, heq⟩ := List.mem_map.mp hmem
  have hne := (List.mem_filter.mp he).2
  simp [heq] at hne

lemma mem_keys_iff {l : List (String × α)} {key : String} :
    key ∈ l.map Prod.fst ↔ (l.lookup key).isSome = true := by
  rw [← not_iff_not, Option.not_isSome_iff_eq_none, List.lookup_eq_none_iff, List.mem_map]
  constructor
  · rintro h e he
    rw [bne_iff_ne]
    rintro rfl
    exact h ⟨e, he, rfl⟩
  · rintro h ⟨e, he, rfl⟩
    simpa using h e he

end Assoc

namespace Language

lemma compile_eq [Dialect] (id : String) (p : Profile) :
    compile id p = (compile? id p).elim (.error (.invalidProfile id)) .ok := by
  cases h : compile? id p <;> simp [compile, h]

lemma compile_eq_ok_iff [Dialect] {id : String} {p : Profile} {l : Language} :
    compile id p = .ok l ↔ compile? id p = some l := by
  rw [compile_eq]
  cases compile? id p <;> simp

end Language

namespace Registry

lemma lookup_register [Dialect] (r : Registry) (id other : String) (p : Profile) :
    (r.register id p).2.entries.lookup other =
      if other = id then Language.compile? id p else r.entries.lookup other := by
  unfold register
  rw [Language.compile_eq]
  cases h : Language.compile? id p with
  | none => exact Assoc.lookup_erase id other r.entries
  | some l => exact Assoc.lookup_put id other l r.entries

lemma registerAll_cons [Dialect] (r : Registry) (id : String) (p : Profile)
    (ps : List (String × Profile)) :
    (r.registerAll ((id, p) :: ps)).2 = ((r.register id p).2.registerAll ps).2 := by
  rw [registerAll]
  rcases r.register id p with ⟨_ | _, r'⟩ <;> rfl

lemma lookup_registerAll_of_not_mem [Dialect] (r : Registry) {ps : List (String × Profile)}
    {id : String} (h : id ∉ ps.map Prod.fst) :
    (r.registerAll ps).2.entries.lookup id = r.entries.lookup id := by
  induction ps generalizing r with
  | nil => rfl
  | cons e ps ih =>
    rw [List.map_cons, List.mem_cons, not_or] at h
    rw [registerAll_cons, ih _ h.2, lookup_register, if_neg h.1]

/-- Of profiles with different names each can be looked up, unless it does not compile. -/
lemma lookup_registerAll [Dialect] (r : Registry) {ps : List (String × Profile)}
    (h : (ps.map Prod.fst).Nodup) {id : String} {p : Profile} (hp : (id, p) ∈ ps) :
    (r.registerAll ps).2.entries.lookup id = Language.compile? id p := by
  induction ps generalizing r with
  | nil => contradiction
  | cons e ps ih =>
    obtain ⟨hnot, hnodup⟩ := List.nodup_cons.mp h
    rw [registerAll_cons]
    rcases List.mem_cons.mp hp with rfl | hp
    · rw [lookup_registerAll_of_not_mem _ hnot, lookup_register, if_pos rfl]
    · exact ih _ hnodup hp

lemma get_eq_ok {r : Registry} {id : String} {l : Language} (h : r.entries.lookup id = some l) :
    r.get id = .ok l := by
  simp [get, h]

end Registry
end BlockHue
