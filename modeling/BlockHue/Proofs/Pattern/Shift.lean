import BlockHue.Proofs.Pattern.Ahead

/-! Threads from two places with the same text ahead. Whatever is done with the threads of the one
is done with those of the other, since threads are told apart by their distance from the start
alone. Main statement: a pattern has the same threads from both places if the looks that it can try
there hold alike in both. -/
namespace BlockHue
namespace Threads

variable {R : Thread → Thread → Prop} {d : Nat} {body : Thread → List Thread}

/-- The second of two related threads has the same text ahead and lies `d` bytes further on. -/
structure Shifts (R : Thread → Thread → Prop) (d : Nat) : Prop where
  rest : ∀ {t t'}, R t t' → t'.place.rest = t.place.rest
  offset : ∀ {t t'}, R t t' → t'.offset = t.offset + d

lemma Shifts.distance (hR : Shifts R d) {t t' : Thread} (h : R t t') (origin : Nat) :
    t'.offset - (origin + d) = t.offset - origin := by
  rw [hR.offset h, Nat.add_sub_add_right]

lemma forall₂_distinctFrom (hR : Shifts R d) {ts ts' : List Thread} (h : List.Forall₂ R ts ts')
    (origin seen : Nat) :
    List.Forall₂ R (distinctFrom origin seen ts) (distinctFrom (origin + d) seen ts') := by
  induction h generalizing seen with
  | nil => exact .nil
  | @cons t t' ts ts' ht _ ih =>
    simp only [distinctFrom, hR.distance ht]
    split
    · exact ih seen
    · exact .cons ht (ih _)

lemma forall₂_distinct (hR : Shifts R d) {ts ts' : List Thread} (h : List.Forall₂ R ts ts')
    (origin : Nat) :
    List.Forall₂ R (distinct origin ts) (distinct (origin + d) ts') :=
  forall₂_distinctFrom hR h origin 0

lemma forall₂_rounds (hR : Shifts R d) (hbody : ∀ t t', R t t' → List.Forall₂ R (body t) (body t'))
    (origin n : Nat) {ts ts' : List Thread} (h : List.Forall₂ R ts ts') :
    List.Forall₂ R (rounds body origin n ts) (rounds body (origin + d) n ts') := by
  induction n generalizing ts ts' with
  | zero => exact h
  | succ n ih =>
    cases h with
    | nil => exact .nil
    | cons ht hts => exact ih (forall₂_distinct hR (List.rel_flatMap (.cons ht hts) hbody) origin)

/-- Walks that have met related threads. -/
structure Together (R : Thread → Thread → Prop) (d : Nat) (a a' : Arrivals) : Prop where
  origin : a'.origin = a.origin + d
  seen : a'.seen = a.seen
  kept : List.Forall₂ R a.kept a'.kept

namespace Together

variable {a a' : Arrivals} {t t' : Thread}

lemma has (hR : Shifts R d) (h : Together R d a a') (ht : R t t') : a'.has t' = a.has t := by
  rw [Arrivals.has, h.seen, h.origin, hR.distance ht, Arrivals.has]

lemma see (hR : Shifts R d) (h : Together R d a a') (ht : R t t') :
    Together R d (a.see t) (a'.see t') where
  origin := h.origin
  seen := by simp only [Arrivals.see, h.seen, h.origin, hR.distance ht]
  kept := h.kept

lemma keep (h : Together R d a a') (ht : R t t') : Together R d (a.keep t) (a'.keep t') :=
  ⟨h.origin, h.seen, .cons ht h.kept⟩

lemma arrive (hR : Shifts R d) (h : Together R d a a') (ht : R t t') :
    Together R d (a.arrive t) (a'.arrive t') := by
  unfold Arrivals.arrive
  rw [h.has hR ht]
  split
  · exact h
  · exact (h.see hR ht).keep ht

lemma toList (h : Together R d a a') : List.Forall₂ R a.toList a'.toList := List.rel_reverse h.kept

/-- Walks that start at related threads. -/
lemma start (hR : Shifts R d) (ht : R t t') :
    Together R d { origin := t.offset } { origin := t'.offset } :=
  ⟨hR.offset ht, rfl, .nil⟩

lemma roam (hR : Shifts R d) (hbody : ∀ t t', R t t' → List.Forall₂ R (body t) (body t'))
    (greedy : Bool) (fuel : Nat) (h : Together R d a a') (ht : R t t') :
    Together R d (Threads.roam body greedy fuel t a) (Threads.roam body greedy fuel t' a') := by
  induction fuel generalizing t t' a a' with
  | zero => exact h
  | succ fuel ih =>
    have hagain (a a' : Arrivals) (h : Together R d a a') :
        Together R d (if t.offset == a.origin then a
          else (body t).foldl (fun a u => Threads.roam body greedy fuel u a) a)
          (if t'.offset == a'.origin then a' else
            (body t').foldl (fun a u => Threads.roam body greedy fuel u a) a') := by
      have hsame : (t'.offset == a'.origin) = (t.offset == a.origin) := by
        rw [hR.offset ht, h.origin, Bool.eq_iff_iff]
        simp
      rw [hsame]
      split
      · exact h
      · refine List.rel_foldl ?_ h (hbody t t' ht)
        exact fun _ _ h _ _ hu => ih h hu
    unfold Threads.roam
    rw [h.has hR ht]
    split
    · exact h
    · cases greedy with
      | true => exact (hagain _ _ (h.see hR ht)).keep ht
      | false => exact hagain _ _ ((h.see hR ht).keep ht)

lemma roamFrom (hR : Shifts R d) (hbody : ∀ t t', R t t' → List.Forall₂ R (body t) (body t'))
    (greedy : Bool) (h : Together R d a a') (ht : R t t') :
    Together R d (Threads.roamFrom body greedy t a) (Threads.roamFrom body greedy t' a') := by
  unfold Threads.roamFrom
  rw [hR.rest ht]
  refine List.rel_foldl ?_ h (hbody t t' ht)
  exact fun _ _ h _ _ hu => roam hR hbody greedy _ h hu

end Together

lemma forall₂_oneOrMore (hR : Shifts R d)
    (hbody : ∀ t t', R t t' → List.Forall₂ R (body t) (body t')) (greedy : Bool) {t t' : Thread}
    (ht : R t t') : List.Forall₂ R (oneOrMore body greedy t) (oneOrMore body greedy t') :=
  ((Together.start hR ht).roamFrom hR hbody greedy ht).toList

lemma forall₂_zeroOrMore (hR : Shifts R d)
    (hbody : ∀ t t', R t t' → List.Forall₂ R (body t) (body t')) (greedy : Bool) {t t' : Thread}
    (ht : R t t') : List.Forall₂ R (zeroOrMore body greedy t) (zeroOrMore body greedy t') := by
  have hstart := Together.start hR ht
  cases greedy with
  | true => exact ((hstart.roamFrom hR hbody true ht).arrive hR ht).toList
  | false => exact ((hstart.arrive hR ht).roamFrom hR hbody false ht).toList

/-- Walks of few rounds that have met related threads. -/
structure TogetherUpTo (R : Thread → Thread → Prop) (d : Nat) (b b' : Bounded) : Prop where
  left : b'.left = b.left
  ends : Together R d b.ends b'.ends

lemma TogetherUpTo.stop (hR : Shifts R d) {b b' : Bounded} (h : TogetherUpTo R d b b')
    {t t' : Thread} (ht : R t t') :
    TogetherUpTo R d { b with ends := b.ends.arrive t } { b' with ends := b'.ends.arrive t' } :=
  ⟨h.left, h.ends.arrive hR ht⟩

lemma TogetherUpTo.roamUpTo (hR : Shifts R d)
    (hbody : ∀ t t', R t t' → List.Forall₂ R (body t) (body t')) (greedy : Bool) (most n : Nat)
    {b b' : Bounded} (h : TogetherUpTo R d b b') {t t' : Thread} (ht : R t t') :
    TogetherUpTo R d (Threads.roamUpTo body greedy most n t b)
      (Threads.roamUpTo body greedy most n t' b') := by
  induction n generalizing t t' b b' with
  | zero => exact h.stop hR ht
  | succ n ih =>
    have hagain (b b' : Bounded) (h : TogetherUpTo R d b b') :
        TogetherUpTo R d ((body t).foldl (fun b u => Threads.roamUpTo body greedy most n u b) b)
          ((body t').foldl (fun b u => Threads.roamUpTo body greedy most n u b) b') := by
      refine List.rel_foldl ?_ h (hbody t t' ht)
      exact fun _ _ h _ _ hu => ih h hu
    unfold Threads.roamUpTo
    dsimp only
    rw [h.ends.origin, hR.distance ht, h.left]
    split
    · exact h
    · generalize b.left ||| 1 <<< ((t.offset - b.ends.origin) * (most + 1) + n) = left
      have hleft : TogetherUpTo R d ⟨left, b.ends⟩ ⟨left, b'.ends⟩ := ⟨rfl, h.ends⟩
      cases greedy with
      | true => exact (hagain _ _ hleft).stop hR ht
      | false => exact hagain _ _ (hleft.stop hR ht)

lemma forall₂_upTo (hR : Shifts R d) (hbody : ∀ t t', R t t' → List.Forall₂ R (body t) (body t'))
    (greedy : Bool) (n : Nat) {t t' : Thread} (ht : R t t') :
    List.Forall₂ R (upTo body greedy n t) (upTo body greedy n t') := by
  have hstart :
      TogetherUpTo R d { ends := { origin := t.offset } } { ends := { origin := t'.offset } } :=
    ⟨rfl, Together.start hR ht⟩
  exact (hstart.roamUpTo hR hbody greedy n n ht).ends.toList

/-- What every round of a loop does alike, the loop does alike. -/
lemma forall₂_loop (hR : Shifts R d) (hbody : ∀ t t', R t t' → List.Forall₂ R (body t) (body t'))
    (least : Nat) (most : Option Nat) (greedy : Bool) {t t' : Thread} (ht : R t t') :
    List.Forall₂ R (loop body least most greedy t) (loop body least most greedy t') := by
  have hrounds (n : Nat) :
      List.Forall₂ R (rounds body t.offset n [t]) (rounds body (t.offset + d) n [t']) :=
    forall₂_rounds hR hbody _ n (.cons ht .nil)
  unfold loop
  rw [hR.offset ht]
  split
  · exact forall₂_zeroOrMore hR hbody greedy ht
  · exact forall₂_distinct hR (List.rel_flatMap (hrounds _) fun _ _ hu =>
      forall₂_oneOrMore hR hbody greedy hu) _
  · exact forall₂_distinct hR (List.rel_flatMap (hrounds _) fun _ _ hu =>
      forall₂_upTo hR hbody greedy _ hu) _

/-- Runs of characters stop alike if threads stay related behind a character. -/
lemma forall₂_runStops (hnext : ∀ t t', R t t' → R t.next t'.next) (set : CharSet) (cs : List Char)
    (least : Nat) (most : Option Nat) {t t' : Thread} (ht : R t t') {shorter shorter' : List Thread}
    (hshorter : List.Forall₂ R shorter shorter') :
    List.Forall₂ R (runStops set cs least most t shorter)
      (runStops set cs least most t' shorter') := by
  have hstops (least : Nat) (t t' : Thread) (ht : R t t') (shorter shorter' : List Thread)
      (hshorter : List.Forall₂ R shorter shorter') :
        List.Forall₂ R (if least == 0 then t :: shorter else shorter)
        (if least == 0 then t' :: shorter' else shorter') := by
    split
    · exact .cons ht hshorter
    · exact hshorter
  induction cs generalizing t t' least most shorter shorter' with
  | nil =>
    unfold runStops
    dsimp only
    split <;> exact hstops least t t' ht shorter shorter' hshorter
  | cons c cs ih =>
    unfold runStops
    dsimp only
    split
    · exact hstops least t t' ht shorter shorter' hshorter
    · split
      · exact ih _ _ (hnext t t' ht) (hstops least t t' ht shorter shorter' hshorter)
      · exact hstops least t t' ht shorter shorter' hshorter

end Threads

namespace Pattern
open Threads

/-- Whether a match may take nothing. -/
def canBeEmpty : Pattern → Bool
  | empty | look _ => true
  | one _ => false
  | seq p q => p.canBeEmpty && q.canBeEmpty
  | alt p q => p.canBeEmpty || q.canBeEmpty
  | group _ p => p.canBeEmpty
  | run _ least _ _ => least == 0
  | loop p least _ _ => least == 0 || p.canBeEmpty

/-- The looks that may be tried before a character is taken. -/
def frontLooks : Pattern → List Look
  | empty | one _ | run _ _ _ _ => []
  | look l => [l]
  | seq p q => p.frontLooks ++ if p.canBeEmpty then q.frontLooks else []
  | alt p q => p.frontLooks ++ q.frontLooks
  | group _ p => p.frontLooks
  | loop p _ _ _ => p.frontLooks

lemma length_next_le (t : Thread) : t.next.place.rest.length ≤ t.place.rest.length := by
  rcases hrest : t.place.rest with _ | ⟨c, cs⟩ <;> simp [Thread.next, Place.next, hrest]

lemma shorter_lasting (n : Nat) : Lasting fun u => u.place.rest.length < n where
  next u hu := (length_next_le u).trans_lt hu
  passGroup _ _ _ hu := hu

lemma threads_shorter (p : Pattern) {n : Nat} {t : Thread} (h : t.place.rest.length < n) :
    All (fun u => u.place.rest.length < n) (p.threads t) :=
  threads_lasting (shorter_lasting n) p h

lemma length_threads_le (p : Pattern) (t : Thread) :
    All (fun u => u.place.rest.length ≤ t.place.rest.length) (p.threads t) :=
  threads_lasting ⟨fun u hu => (length_next_le u).trans hu, fun _ _ _ hu => hu⟩ p (Nat.le_refl _)

/-- All threads have less text ahead than the one that they come from. -/
def Consume (t : Thread) (ts : List Thread) : Prop :=
  All (fun u => u.place.rest.length < t.place.rest.length) ts

lemma length_next_lt {t : Thread} {c : Char} {cs : List Char} (h : t.place.rest = c :: cs) :
    t.next.place.rest.length < t.place.rest.length := by
  simp [Thread.next, Place.next, h]

lemma consume_one (set : CharSet) (t : Thread) : Consume t ((one set).threads t) := by
  unfold threads
  rcases hrest : t.place.rest with _ | ⟨c, cs⟩
  · simp [Consume, All]
  · dsimp only
    split
    · exact List.forall_mem_singleton.mpr (length_next_lt hrest)
    · simp [Consume, All]

/-- Of two patterns in a row it is enough that one takes something. -/
lemma consume_flatMap {p q : Pattern}
    (h : (∀ t, Consume t (p.threads t)) ∨ ∀ t, Consume t (q.threads t)) (t : Thread) :
    Consume t ((p.threads t).flatMap q.threads) := by
  intro u hu
  obtain ⟨v, hv, hu⟩ := List.mem_flatMap.mp hu
  rcases h with hp | hq
  · exact (length_threads_le q v u hu).trans_lt (hp t v hv)
  · exact (hq v u hu).trans_le (length_threads_le p t v hv)

/-- A run of one character or more takes something. -/
lemma consume_runStops (set : CharSet) {least : Nat} (hleast : least ≠ 0) (most : Option Nat)
    (t : Thread) :
    Consume t (runStops set t.place.rest least most t []) := by
  unfold runStops
  simp only [beq_iff_eq, hleast, if_false]
  split
  · simp [Consume, All]
  · rcases hrest : t.place.rest with _ | ⟨c, cs⟩
    · simp [Consume, All]
    · dsimp only
      split
      · exact all_runStops (shorter_lasting _) set cs _ _ (length_next_lt hrest) (by simp [All])
      · simp [Consume, All]

section Loop

variable {p : Pattern} (hp : ∀ t, Consume t (p.threads t)) (greedy : Bool) (t : Thread)
include hp

/-- If a round takes something, so does a loop of one round or more. -/
lemma consume_oneOrMore : Consume t (oneOrMore p.threads greedy t) := by
  have hroam (a : Arrivals) (u : Thread)
      (ha : All (fun v => v.place.rest.length < t.place.rest.length) a.kept)
      (hu : u.place.rest.length < t.place.rest.length) :=
    all_roam (fun _ hv => threads_shorter p hv) greedy (t.place.rest.length + 1) hu ha
  exact all_toList (all_foldl_kept hroam (hp t) (by simp [All]))

lemma consume_rounds (n : Nat) : Consume t (rounds p.threads t.offset (n + 1) [t]) := by
  refine all_rounds (fun _ hu => threads_shorter p hu) _ n (all_distinct ?_ _)
  simpa [Consume] using hp t

lemma consume_loop (n : Nat) (most : Option Nat) :
    Consume t (Threads.loop p.threads (n + 1) most greedy t) := by
  cases most with
  | none =>
    have hrounds :
        All (fun u => u.place.rest.length ≤ t.place.rest.length)
          (rounds p.threads t.offset n [t]) := by
      refine all_rounds (fun u hu v hv => (length_threads_le p u v hv).trans hu) _ n ?_
      simp [All]
    refine all_distinct (fun u hu => ?_) _
    obtain ⟨v, hv, hu⟩ := List.mem_flatMap.mp hu
    exact (consume_oneOrMore hp greedy v u hu).trans_le (hrounds v hv)
  | some m =>
    have hupTo (u : Thread) (hu : u.place.rest.length < t.place.rest.length) :=
      all_upTo (fun _ hv => threads_shorter p hv) greedy (m - (n + 1)) hu
    exact all_distinct (all_flatMap (consume_rounds hp t n) hupTo) _

end Loop

/-- A match that can not be empty takes something. -/
lemma consume_threads {p : Pattern} (h : p.canBeEmpty = false) (t : Thread) :
    Consume t (p.threads t) := by
  induction p generalizing t with
  | empty => contradiction
  | look l => contradiction
  | one set => exact consume_one set t
  | seq p q ihp ihq =>
    have hall := consume_flatMap ((Bool.and_eq_false_iff.mp h).imp ihp ihq) t
    simp only [threads]
    split
    · exact hall
    · exact all_distinct hall _
  | alt p q ihp ihq =>
    obtain ⟨hp, hq⟩ := Bool.or_eq_false_iff.mp h
    exact List.forall_mem_append.mpr ⟨ihp hp t, ihq hq t⟩
  | group name p ih =>
    intro u hu
    obtain ⟨v, hv, rfl⟩ := List.mem_map.mp hu
    exact ih h t v hv
  | run set least most greedy =>
    have hall := consume_runStops set (beq_eq_false_iff_ne.mp h) most t
    simp only [threads]
    split
    · exact hall
    · exact fun u hu => hall u (List.mem_reverse.mp hu)
  | loop p least most greedy ih =>
    obtain ⟨hleast, hp⟩ := Bool.or_eq_false_iff.mp h
    obtain ⟨n, rfl⟩ := Nat.exists_eq_succ_of_ne_zero (beq_eq_false_iff_ne.mp hleast)
    exact consume_loop (ih hp) greedy t n most

/-- Threads with the same text ahead, the second `d` bytes further on, no farther from the end than
`n` characters. The looks of a set hold alike, and behind the first character all do. -/
structure Alike (looks : Set Look) (n d : Nat) (t t' : Thread) : Prop where
  rest : t'.place.rest = t.place.rest
  offset : t'.offset = t.offset + d
  length_le : t.place.rest.length ≤ n
  holds : ∀ l ∈ looks, l.holds t'.place.before t.place.rest.head? =
    l.holds t.place.before t.place.rest.head?
  before : t.place.rest.length < n → t'.place.before = t.place.before

namespace Alike

variable {looks : Set Look} {n d : Nat} {t t' : Thread}

lemma shifts (looks : Set Look) (n d : Nat) : Shifts (Alike looks n d) d :=
  ⟨Alike.rest, Alike.offset⟩

lemma mono {looks' : Set Look} (hsub : looks' ⊆ looks) (h : Alike looks n d t t') :
    Alike looks' n d t t' :=
  ⟨h.rest, h.offset, h.length_le, fun l hl => h.holds l (hsub hl), h.before⟩

/-- Behind the first character all looks hold alike. -/
lemma of_lt (h : Alike looks n d t t') (hlt : t.place.rest.length < n) : Alike Set.univ n d t t' :=
  ⟨h.rest, h.offset, h.length_le, fun l _ => by rw [h.before hlt], h.before⟩

lemma next (h : Alike looks n d t t') : Alike looks n d t.next t'.next := by
  have hoffset : t'.place.offset = t.place.offset + d := h.offset
  rcases hrest : t.place.rest with _ | ⟨c, cs⟩
  · have ht : t.next = t := by simp [Thread.next, Place.next, hrest]
    have ht' : t'.next = t' := by simp [Thread.next, Place.next, h.rest, hrest]
    rwa [ht, ht']
  · have ht : t.next.place = ⟨some c, cs, t.place.offset + c.utf8Size⟩ := by
      simp [Thread.next, Place.next, hrest]
    have ht' : t'.next.place = ⟨some c, cs, t.place.offset + c.utf8Size + d⟩ := by
      simp [Thread.next, Place.next, h.rest, hrest, hoffset, Nat.add_right_comm]
    have hle := h.length_le
    rw [hrest, List.length_cons] at hle
    refine ⟨by rw [ht, ht'], by simp only [Thread.offset, ht, ht'], ?_,
      fun l _ => by rw [ht, ht'], fun _ => by rw [ht, ht']⟩
    rw [ht]
    exact Nat.le_of_succ_le hle

lemma passGroup (h : Alike looks n d t t') (name : String) (start start' : Nat) :
    Alike looks n d (t.passGroup name start) (t'.passGroup name start') :=
  ⟨h.rest, h.offset, h.length_le, h.holds, h.before⟩

end Alike

/-- A pattern has the same threads from two places with the same text ahead if the looks that it can
try there hold alike. Behind a pattern that takes something the second one of a row sees the same
characters, so all looks hold alike there. -/
lemma forall₂_threads (p : Pattern) {looks : Set Look} (hlooks : ∀ l ∈ p.frontLooks, l ∈ looks)
    {n d : Nat} {t t' : Thread} (h : Alike looks n d t t') :
    List.Forall₂ (Alike looks n d) (p.threads t) (p.threads t') := by
  induction p generalizing looks t t' with
  | empty => exact .cons h .nil
  | one set =>
    unfold threads
    rw [h.rest]
    split
    · exact .nil
    · split
      · exact .cons h.next .nil
      · exact .nil
  | look l =>
    unfold threads
    rw [h.rest, h.holds l (hlooks l List.mem_cons_self)]
    split
    · exact .cons h .nil
    · exact .nil
  | seq p q ihp ihq =>
    have hp := ihp (fun l hl => hlooks l (List.mem_append_left _ hl)) h
    have hall : List.Forall₂ (Alike looks n d) ((p.threads t).flatMap q.threads)
        ((p.threads t').flatMap q.threads) := by
      cases hempty : p.canBeEmpty with
      | true =>
        refine List.rel_flatMap hp fun u u' hu => ihq (fun l hl => hlooks l ?_) hu
        simp [frontLooks, hempty, hl]
      | false =>
        have hshorter := (List.forall₂_and_left _ _).mpr ⟨consume_threads hempty t, hp⟩
        refine List.rel_flatMap hshorter ?_
        rintro u u' ⟨hlt, hu⟩
        have hq := ihq (fun l _ => Set.mem_univ l) (hu.of_lt (hlt.trans_le h.length_le))
        exact hq.imp fun _ _ hv => hv.mono (Set.subset_univ looks)
    simp only [threads, h.offset]
    split
    · exact hall
    · exact forall₂_distinct (Alike.shifts looks n d) hall _
  | alt p q ihp ihq =>
    exact List.rel_append (ihp (fun l hl => hlooks l (List.mem_append_left _ hl)) h)
      (ihq (fun l hl => hlooks l (List.mem_append_right _ hl)) h)
  | group name p ih =>
    refine List.rel_map ?_ (ih hlooks h)
    exact fun u u' hu => hu.passGroup name _ _
  | run set least most greedy =>
    have hall := forall₂_runStops (fun _ _ hu => hu.next) set t.place.rest least most h .nil
    simp only [threads, h.rest]
    split
    · exact hall
    · exact List.rel_reverse hall
  | loop p least most greedy ih =>
    exact forall₂_loop (Alike.shifts looks n d) (fun _ _ hu => ih hlooks hu) least most greedy h

end Pattern
end BlockHue
