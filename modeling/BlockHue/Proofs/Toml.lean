import BlockHue.Proofs.Bytes
import BlockHue.Proofs.Registry

/-! Keys of a document. A table changes only by `Entries.set`, which replaces the entry of a key or
adds one, so no key of the root is given twice. Main statement: the profiles of a document have
different names and come in the order of the bytes of these. -/
namespace BlockHue
namespace Toml
namespace Entries

def keys (es : Entries) : List String := es.map Prod.fst

lemma nodup_set {es : Entries} (h : (keys es).Nodup) (key : String) (n : Node) :
    (keys (set es key n)).Nodup := by
  unfold set
  split
  · have hkeys : keys (es.map fun e => if e.1 == key then (key, n) else e) = keys es := by
      rw [keys, keys, List.map_map]
      apply List.map_congr_left
      intro e _
      by_cases he : e.1 = key <;> simp [he]
    rwa [hkeys]
  next hnone =>
    have hkey : key ∉ keys es := fun hmem => hnone (Assoc.mem_keys_iff.mp hmem)
    rw [keys, List.map_append]
    exact h.append (List.nodup_singleton key) (by simpa [List.disjoint_singleton] using hkey)

end Entries

open Entries

/-- A change of a table that gives no key twice. -/
def Keeps (change : Entries → Option Entries) : Prop :=
  ∀ es es', (keys es).Nodup → change es = some es' → (keys es').Nodup

/-- A change at the end of a path replaces one entry of the root, or is a change of
the root itself. -/
lemma updateAt_keeps (origin : Origin) {change : Origin → Entries → Option Entries}
    (h : ∀ here, Keeps (change here)) (path : List String) (here : Origin) :
    Keeps (updateAt origin change path here) := by
  intro es es' hes hchange
  cases path with
  | nil => exact h here es es' hes hchange
  | cons key path =>
    unfold updateAt at hchange
    split at hchange
    case h_1 | h_5 =>
      obtain ⟨sub, -, rfl⟩ := Option.map_eq_some_iff.mp hchange
      exact nodup_set hes key _
    case h_3 =>
      split at hchange
      · contradiction
      · obtain ⟨sub, -, rfl⟩ := Option.map_eq_some_iff.mp hchange
        exact nodup_set hes key _
    case h_2 | h_4 => contradiction

lemma insertValue_keeps (path : List String) (key : String) (v : Value) :
    Keeps (insertValue path key v) := by
  apply updateAt_keeps
  intro here es es' hes hchange
  dsimp only at hchange
  split_ifs at hchange
  obtain rfl := Option.some.inj hchange
  exact nodup_set hes key _

lemma openTable_keeps (path : List String) (key : String) : Keeps (openTable path key) := by
  apply updateAt_keeps
  intro here es es' hes hchange
  dsimp only at hchange
  split at hchange
  case h_3 => contradiction
  all_goals
    obtain rfl := Option.some.inj hchange
    exact nodup_set hes key _

lemma openItem_keeps (path : List String) (key : String) : Keeps (openItem path key) := by
  apply updateAt_keeps
  intro here es es' hes hchange
  dsimp only at hchange
  split at hchange
  case h_3 => contradiction
  all_goals
    obtain rfl := Option.some.inj hchange
    exact nodup_set hes key _

lemma header?_nodup {d d' : Document} {cs rest : List Char} (hd : (keys d.root).Nodup)
    (h : header? d cs = some (d', rest)) : (keys d'.root).Nodup := by
  unfold header? at h
  split at h <;> simp only [Option.bind_eq_bind, Option.bind_eq_some_iff] at h
  · obtain ⟨⟨⟨path, key⟩, _⟩, -, _, -, root, hroot, _, -, heq⟩ := h
    obtain ⟨rfl, -⟩ := Prod.mk.inj (Option.some.inj heq)
    exact openItem_keeps path key _ _ hd hroot
  · obtain ⟨⟨⟨path, key⟩, _⟩, -, _, -, root, hroot, _, -, heq⟩ := h
    obtain ⟨rfl, -⟩ := Prod.mk.inj (Option.some.inj heq)
    exact openTable_keeps path key _ _ hd hroot

lemma statement?_nodup {d d' : Document} {cs rest : List Char} (hd : (keys d.root).Nodup)
    (h : statement? d cs = some (d', rest)) : (keys d'.root).Nodup := by
  unfold statement? at h
  split at h
  · obtain ⟨_, -, heq⟩ := Option.map_eq_some_iff.mp h
    obtain ⟨rfl, -⟩ := Prod.mk.inj heq
    exact hd
  · exact header?_nodup hd h
  · obtain ⟨rfl, -⟩ := Prod.mk.inj (Option.some.inj h)
    exact hd
  · obtain ⟨rfl, -⟩ := Prod.mk.inj (Option.some.inj h)
    exact hd
  · simp only [Option.bind_eq_bind, Option.bind_eq_some_iff] at h
    obtain ⟨⟨⟨path, key, v⟩, _⟩, -, d'', hinsert, _, -, heq⟩ := h
    obtain ⟨rfl, -⟩ := Prod.mk.inj (Option.some.inj heq)
    obtain ⟨root, hroot, rfl⟩ := Option.map_eq_some_iff.mp hinsert
    exact updateAt_keeps .passed (fun _ => insertValue_keeps path key v) _ _ _ _ hd hroot

lemma statements?_nodup {fuel : Nat} {d d' : Document} {cs : List Char} (hd : (keys d.root).Nodup)
    (h : statements? fuel d cs = some d') : (keys d'.root).Nodup := by
  induction fuel generalizing d cs with
  | zero => contradiction
  | succ fuel ih =>
    unfold statements? at h
    split at h
    · obtain rfl := Option.some.inj h
      exact hd
    · obtain ⟨⟨d'', rest⟩, hstatement, h⟩ := Option.bind_eq_some_iff.mp h
      exact ih (statement?_nodup hd hstatement) h

lemma map_fst_toEntries (es : Entries) : (Node.toEntries es).map Prod.fst = keys es := by
  induction es with
  | nil => simp [Node.toEntries, keys]
  | cons e es ih =>
    rcases e with ⟨key, n⟩
    rw [Node.toEntries, List.map_cons, ih]
    rfl

lemma read?_nodup {cs : List Char} {entries : List (String × Value)} (h : read? cs = some entries) :
    (entries.map Prod.fst).Nodup := by
  obtain ⟨d, hd, rfl⟩ := Option.map_eq_some_iff.mp h
  rw [map_fst_toEntries]
  have hstart : (keys ({} : Document).root).Nodup := List.nodup_nil
  exact statements?_nodup hstart hd

end Toml

lemma Decode.map_fst_profiles? {entries : List (String × Toml.Value)} {ps : List (String × Profile)}
    (h : profiles? entries = some ps) : ps.map Prod.fst = entries.map Prod.fst := by
  induction entries generalizing ps with
  | nil =>
    obtain rfl : [] = ps := by simpa [profiles?] using h
    rfl
  | cons e entries ih =>
    simp only [profiles?, List.mapM_cons, Option.bind_eq_bind, Option.bind_eq_some_iff] at h
    obtain ⟨x, hx, xs, hxs, heq⟩ := h
    obtain rfl := Option.some.inj heq
    obtain ⟨p, -, rfl⟩ := Option.map_eq_some_iff.mp hx
    rw [List.map_cons, List.map_cons, ih hxs]

/-- The profiles of a document have different names and come in the order of the bytes of these. -/
lemma Profile.readAll_pairwise {document : List Char} {ps : List (String × Profile)}
    (h : readAll document = .ok ps) :
    ps.Pairwise fun a b => Text.bytes a.1.toList < Text.bytes b.1.toList := by
  unfold readAll at h
  split at h
  next found hfound =>
    obtain rfl := Except.ok.inj h
    obtain ⟨entries, hread, hprofiles⟩ := Option.bind_eq_some_iff.mp hfound
    have hnodup : (found.map Prod.fst).Nodup :=
      Decode.map_fst_profiles? hprofiles ▸ Toml.read?_nodup hread
    exact Text.pairwise_bytes_mergeSort Prod.fst hnodup
  next => contradiction

end BlockHue
