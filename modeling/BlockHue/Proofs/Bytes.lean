import BlockHue.Proofs.Place

/-! The bytes of a text. Main statement: texts are in the order of their bytes, since the first byte
of a character tells how many follow it and larger characters have larger bytes. -/
namespace BlockHue.Text

/-- The bytes of a text in UTF-8. -/
def bytes (text : List Char) : List UInt8 := text.flatMap String.utf8EncodeChar

lemma bytes_append (a b : List Char) : bytes (a ++ b) = bytes a ++ bytes b := List.flatMap_append

lemma bytes_cons (c : Char) (cs : List Char) :
    bytes (c :: cs) = String.utf8EncodeChar c ++ bytes cs := rfl

lemma length_bytes (text : List Char) : (bytes text).length = width text := by
  induction text with
  | nil => rfl
  | cons c cs ih =>
    rw [← List.singleton_append, bytes_append, List.length_append, ih, width_append]
    simp [bytes]

lemma bytes_injective : Function.Injective bytes := by
  intro a b h
  have hencode : a.utf8Encode = b.utf8Encode := congrArg List.toByteArray h
  have hdecode := congrArg ByteArray.utf8Decode? hencode
  simpa using hdecode

/-- Beginnings of one width with the same bytes are the same. -/
lemma eq_of_getElem?_bytes {a b x y : List Char} (hwidth : width a = width b)
    (h : ∀ i < width a, (bytes (a ++ x))[i]? = (bytes (b ++ y))[i]?) : a = b := by
  apply bytes_injective
  apply List.ext_getElem?
  intro i
  by_cases hi : i < width a
  · have hi' := h i hi
    rwa [bytes_append, bytes_append, List.getElem?_append_left (by rwa [length_bytes]),
      List.getElem?_append_left (by rwa [length_bytes, ← hwidth])] at hi'
  · rw [List.getElem?_eq_none (by rw [length_bytes]; omega),
      List.getElem?_eq_none (by rw [length_bytes]; omega)]

/-- The bytes of a smaller character come before those of a larger one, whatever follows them. -/
lemma encode_lt_encode {c d : Char} (h : c < d) (x y : List UInt8) :
    String.utf8EncodeChar c ++ x < String.utf8EncodeChar d ++ y := by
  have hlt : c.val.toNat < d.val.toNat := h
  have hvalid : d.val.toNat < 0x110000 := by
    rcases d.valid with hd | hd <;> omega
  unfold String.utf8EncodeChar
  generalize c.val.toNat = v at *
  generalize d.val.toNat = w at *
  have hv : v / 4096 = v / 64 / 64 ∧ v / 262144 = v / 64 / 64 / 64 := by omega
  have hw : w / 4096 = w / 64 / 64 ∧ w / 262144 = w / 64 / 64 / 64 := by omega
  simp only [hv.1, hv.2, hw.1, hw.2]
  split_ifs <;>
    simp (disch := omega) only [List.cons_append, List.nil_append, List.cons_lt_cons_iff,
      UInt8.lt_iff_toNat_lt, ← UInt8.toNat_inj, UInt8.toNat_ofNat', Nat.mod_eq_of_lt] <;>
    omega

lemma bytes_lt_bytes {a b : List Char} (h : a < b) : bytes a < bytes b := by
  induction a generalizing b with
  | nil =>
    cases b with
    | nil => exact absurd h (List.not_lt_nil [])
    | cons d b =>
      obtain ⟨x, xs, hx⟩ := List.exists_cons_of_ne_nil (String.utf8EncodeChar_ne_nil (c := d))
      rw [bytes_cons, hx]
      exact List.nil_lt_cons x _
  | cons c a ih =>
    cases b with
    | nil => exact absurd h (List.not_lt_nil (c :: a))
    | cons d b =>
      rcases List.cons_lt_cons_iff.mp h with hcd | ⟨rfl, hab⟩
      · exact encode_lt_encode hcd _ _
      · exact List.append_left_lt (ih hab)

/-- Things with different names that are sorted by them come in the order of the
bytes of their names. -/
lemma pairwise_bytes_mergeSort {α : Type} (name : α → String) {l : List α}
    (h : (l.map name).Nodup) :
    (l.mergeSort fun a b => decide (name a ≤ name b)).Pairwise
      fun a b => bytes (name a).toList < bytes (name b).toList := by
  have hperm := (List.mergeSort_perm l fun a b => decide (name a ≤ name b)).map name
  have hne := List.pairwise_map.mp (hperm.nodup_iff.mpr h)
  have hle : (l.mergeSort fun a b => decide (name a ≤ name b)).Pairwise fun a b =>
      decide (name a ≤ name b) = true := by
    apply List.pairwise_mergeSort
    · intro a b c hab hbc
      rw [decide_eq_true_eq] at hab hbc ⊢
      exact le_trans hab hbc
    · intro a b
      rw [Bool.or_eq_true, decide_eq_true_eq, decide_eq_true_eq]
      exact le_total (name a) (name b)
  apply hle.imp₂ _ hne
  intro a b hab hne
  exact bytes_lt_bytes (String.lt_iff_toList_lt.mp (lt_of_le_of_ne (of_decide_eq_true hab) hne))

end BlockHue.Text
