import BlockHue.Pattern.Search
import BlockHue.Proofs.Place

/-! Threads never go back. Whatever its pattern, a thread ends at a place at or behind the place
where it started, and a search returns a match that starts at or behind the place of the search and
stops at or behind its own start. The groups of a match end inside the text. -/
namespace BlockHue
namespace Threads

variable {P : Thread → Prop} {body : Thread → List Thread}

/-- All threads of a list satisfy `P`. -/
def All (P : Thread → Prop) (ts : List Thread) : Prop := ∀ t ∈ ts, P t

lemma all_distinctFrom {ts : List Thread} (h : All P ts) (origin seen : Nat) :
    All P (distinctFrom origin seen ts) := by
  induction ts generalizing seen with
  | nil => exact h
  | cons t ts ih =>
    have htail : All P ts := fun u hu => h u (List.mem_cons_of_mem t hu)
    simp only [distinctFrom]
    split
    · exact ih htail seen
    · intro u hu
      rcases List.mem_cons.mp hu with rfl | hu
      · exact h u List.mem_cons_self
      · exact ih htail _ u hu

lemma all_distinct {ts : List Thread} (h : All P ts) (origin : Nat) : All P (distinct origin ts) :=
  all_distinctFrom h origin 0

lemma all_flatMap {ts : List Thread} (h : All P ts) (hbody : ∀ t, P t → All P (body t)) :
    All P (ts.flatMap body) := by
  intro u hu
  obtain ⟨t, ht, hu⟩ := List.mem_flatMap.mp hu
  exact hbody t (h t ht) u hu

lemma all_rounds (hbody : ∀ t, P t → All P (body t)) (origin n : Nat) {ts : List Thread}
    (h : All P ts) :
    All P (rounds body origin n ts) := by
  induction n generalizing ts with
  | zero => exact h
  | succ n ih =>
    unfold rounds
    split
    · simp [All]
    · exact ih (all_distinct (all_flatMap h hbody) origin)

lemma all_arrive {a : Arrivals} {t : Thread} (ha : All P a.kept) (ht : P t) :
    All P (a.arrive t).kept := by
  unfold Arrivals.arrive
  split
  · exact ha
  · intro u hu
    rcases List.mem_cons.mp hu with rfl | hu
    · exact ht
    · exact ha u hu

/-- A walk keeps threads that satisfy `P` only, if each of its steps does. -/
lemma all_foldl_kept {step : Arrivals → Thread → Arrivals}
    (hstep : ∀ a t, All P a.kept → P t → All P (step a t).kept) {ts : List Thread} (hts : All P ts)
    {a : Arrivals} (ha : All P a.kept) : All P (ts.foldl step a).kept := by
  induction ts generalizing a with
  | nil => exact ha
  | cons t ts ih =>
    have ht : P t := hts t List.mem_cons_self
    exact ih (fun u hu => hts u (List.mem_cons_of_mem t hu)) (hstep a t ha ht)

lemma all_roam (hbody : ∀ t, P t → All P (body t)) (greedy : Bool) (fuel : Nat) {t : Thread}
    (ht : P t) {a : Arrivals} (ha : All P a.kept) : All P (roam body greedy fuel t a).kept := by
  induction fuel generalizing t a with
  | zero => exact ha
  | succ fuel ih =>
    have hkeep (a : Arrivals) (ha : All P a.kept) : All P (a.keep t).kept := by
      intro u hu
      rcases List.mem_cons.mp hu with rfl | hu
      · exact ht
      · exact ha u hu
    have hagain (a : Arrivals) (ha : All P a.kept) :
        All P (if t.offset == a.origin then a
          else (body t).foldl (fun a u => roam body greedy fuel u a) a).kept := by
      split
      · exact ha
      · exact all_foldl_kept (fun a u ha hu => ih hu ha) (hbody t ht) ha
    unfold roam
    split
    · exact ha
    · cases greedy with
      | true => exact hkeep _ (hagain _ ha)
      | false => exact hagain _ (hkeep _ ha)

lemma all_roamFrom (hbody : ∀ t, P t → All P (body t)) (greedy : Bool) {t : Thread} (ht : P t)
    {a : Arrivals} (ha : All P a.kept) : All P (roamFrom body greedy t a).kept :=
  all_foldl_kept (fun _ _ ha hu => all_roam hbody greedy _ hu ha) (hbody t ht) ha

lemma all_toList {a : Arrivals} (h : All P a.kept) : All P a.toList :=
  fun u hu => h u (List.mem_reverse.mp hu)

lemma all_oneOrMore (hbody : ∀ t, P t → All P (body t)) (greedy : Bool) {t : Thread} (ht : P t) :
    All P (oneOrMore body greedy t) :=
  all_toList (all_roamFrom hbody greedy ht (by simp [All]))

lemma all_zeroOrMore (hbody : ∀ t, P t → All P (body t)) (greedy : Bool) {t : Thread} (ht : P t) :
    All P (zeroOrMore body greedy t) := by
  have hnone : All P ({ origin := t.offset } : Arrivals).kept := by simp [All]
  cases greedy with
  | true => exact all_toList (all_arrive (all_roamFrom hbody true ht hnone) ht)
  | false => exact all_toList (all_roamFrom hbody false ht (all_arrive hnone ht))

lemma all_roamUpTo (hbody : ∀ t, P t → All P (body t)) (greedy : Bool) (most n : Nat)
    {t : Thread} (ht : P t) {b : Bounded} (hb : All P b.ends.kept) :
    All P (roamUpTo body greedy most n t b).ends.kept := by
  induction n generalizing t b with
  | zero => exact all_arrive hb ht
  | succ n ih =>
    have hagain (ts : List Thread) (hts : All P ts) (b : Bounded) (hb : All P b.ends.kept) :
        All P (ts.foldl (fun b u => roamUpTo body greedy most n u b) b).ends.kept := by
      induction ts generalizing b with
      | nil => exact hb
      | cons u us ihs =>
        have hu : P u := hts u List.mem_cons_self
        exact ihs (fun v hv => hts v (List.mem_cons_of_mem u hv)) _ (ih hu hb)
    unfold roamUpTo
    dsimp only
    split
    · exact hb
    · cases greedy with
      | true => exact all_arrive (hagain _ (hbody t ht) _ hb) ht
      | false => exact hagain _ (hbody t ht) _ (all_arrive hb ht)

lemma all_upTo (hbody : ∀ t, P t → All P (body t)) (greedy : Bool) (n : Nat)
    {t : Thread} (ht : P t) :
    All P (upTo body greedy n t) :=
  all_toList (all_roamUpTo hbody greedy n n ht (by simp [All]))

/-- What every round of a loop keeps, the loop keeps. -/
lemma all_loop (hbody : ∀ t, P t → All P (body t)) (least : Nat) (most : Option Nat)
    (greedy : Bool) {t : Thread} (ht : P t) : All P (loop body least most greedy t) := by
  have hrounds (n : Nat) : All P (rounds body t.offset n [t]) := by
    apply all_rounds hbody
    intro u hu
    rwa [List.mem_singleton.mp hu]
  unfold loop
  split
  · exact all_zeroOrMore hbody greedy ht
  · exact all_distinct (all_flatMap (hrounds _) fun u hu => all_oneOrMore hbody greedy hu) _
  · exact all_distinct (all_flatMap (hrounds _) fun u hu => all_upTo hbody greedy _ hu) _

/-- What a thread keeps whenever it takes a character or passes a group. -/
structure Lasting (P : Thread → Prop) : Prop where
  next : ∀ t, P t → P t.next
  passGroup : ∀ name start t, P t → P (t.passGroup name start)

lemma all_runStops (hP : Lasting P) (set : CharSet) (cs : List Char) (least : Nat)
    (most : Option Nat) {t : Thread} (ht : P t) {shorter : List Thread} (hshorter : All P shorter) :
    All P (runStops set cs least most t shorter) := by
  have hstops (t : Thread) (ht : P t) (shorter : List Thread) (hshorter : All P shorter)
      (least : Nat) :
      All P (if least == 0 then t :: shorter else shorter) := by
    split
    · intro u hu
      rcases List.mem_cons.mp hu with rfl | hu
      · exact ht
      · exact hshorter u hu
    · exact hshorter
  induction cs generalizing t least most shorter with
  | nil =>
    unfold runStops
    dsimp only
    split <;> exact hstops t ht shorter hshorter least
  | cons c cs ih =>
    unfold runStops
    dsimp only
    split
    · exact hstops t ht shorter hshorter least
    · split
      · exact ih _ _ (hP.next t ht) (hstops t ht shorter hshorter least)
      · exact hstops t ht shorter hshorter least

end Threads

namespace Pattern
open Threads

/-- What lasts on the way of a thread holds of all threads of a pattern. -/
lemma threads_lasting {P : Thread → Prop} (hP : Lasting P) (p : Pattern) {t : Thread} (ht : P t) :
    All P (p.threads t) := by
  induction p generalizing t with
  | empty => simpa [threads, All] using ht
  | one set =>
    unfold threads
    split
    · simp [All]
    · split
      · simpa [All] using hP.next t ht
      · simp [All]
  | look l =>
    unfold threads
    split
    · simpa [All] using ht
    · simp [All]
  | seq p q ihp ihq =>
    have hall := all_flatMap (ihp ht) fun u hu => ihq hu
    simp only [threads]
    split
    · exact hall
    · exact all_distinct hall _
  | alt p q ihp ihq =>
    intro u hu
    rcases List.mem_append.mp hu with hu | hu
    · exact ihp ht u hu
    · exact ihq ht u hu
  | group name p ih =>
    intro u hu
    obtain ⟨v, hv, rfl⟩ := List.mem_map.mp hu
    exact hP.passGroup name t.offset v (ih ht v hv)
  | run set least most greedy =>
    have hnone : All P [] := by simp [All]
    have hall := all_runStops hP set t.place.rest least most ht hnone
    simp only [threads]
    split
    · exact hall
    · exact fun u hu => hall u (List.mem_reverse.mp hu)
  | loop p least most greedy ih => exact all_loop (fun u hu => ih hu) least most greedy ht

/-- Every thread of a pattern lies ahead of its start. -/
lemma threads_ahead (p : Pattern) {place : Place} {t : Thread} (ht : place.Ahead t.place) :
    All (fun u => place.Ahead u.place) (p.threads t) :=
  threads_lasting ⟨fun u hu => hu.trans (Place.Ahead.next u.place), fun _ _ _ hu => hu⟩ p ht

/-- A thread inside a text of the given width, whose groups end inside the text. -/
def Within (width : Nat) (t : Thread) : Prop :=
  t.offset + Text.width t.place.rest = width ∧ ∀ g ∈ t.groups, g.2.stop ≤ width

lemma within_lasting (width : Nat) : Lasting (Within width) where
  next := by
    rintro ⟨place, groups⟩ ⟨hoffset, hgroups⟩
    refine ⟨?_, hgroups⟩
    rcases place with ⟨before, _ | ⟨c, cs⟩, offset⟩
    · exact hoffset
    · simpa [Thread.next, Thread.offset, Place.next, Nat.add_assoc] using hoffset
  passGroup := by
    rintro name start t ⟨hoffset, hgroups⟩
    refine ⟨hoffset, fun g hg => ?_⟩
    rcases List.mem_cons.mp hg with rfl | hg
    · exact hoffset ▸ Nat.le_add_right t.offset _
    · exact hgroups g hg

/-- A match at a place starts there and stops ahead. -/
lemma matchAt?_ahead {p : Pattern} {place : Place} {m : Match} (h : p.matchAt? place = some m) :
    m.start = place ∧ m.start.Ahead m.stop := by
  rw [matchAt?_eq] at h
  obtain ⟨t, ht, rfl⟩ := Option.map_eq_some_iff.mp h
  exact ⟨rfl, threads_ahead p (Place.Ahead.refl place) t (List.mem_of_mem_head? ht)⟩

/-- A search finds the match at the place where the match starts, which is not in front of the
place of the search. -/
lemma searchFrom?_spec {p : Pattern} {before : Option Char} {rest : List Char}
    {offset : Nat} {m : Match} (h : p.searchFrom? before rest offset = some m) :
    (Place.mk before rest offset).Ahead m.start ∧ p.matchAt? m.start = some m := by
  fun_induction searchFrom? p before rest offset with
  | case1 rest before offset n hn =>
    simp only [hn, Option.some.injEq] at h
    subst h
    obtain ⟨hstart, -⟩ := matchAt?_ahead hn
    rw [hstart]
    exact ⟨Place.Ahead.refl _, hn⟩
  | case2 before offset hnone => simp [hnone] at h
  | case3 before offset c cs hnone ih =>
    simp only [hnone] at h
    obtain ⟨hahead, hmatch⟩ := ih h
    exact ⟨(Place.Ahead.next ⟨before, c :: cs, offset⟩).trans hahead, hmatch⟩

lemma search?_spec {p : Pattern} {place : Place} {m : Match} (h : p.search? place = some m) :
    place.Ahead m.start ∧ p.matchAt? m.start = some m := by
  unfold search? at h
  split at h
  · obtain ⟨hstart, -⟩ := matchAt?_ahead h
    rw [hstart]
    exact ⟨Place.Ahead.refl _, h⟩
  · exact searchFrom?_spec h

lemma search?_ahead {p : Pattern} {place : Place} {m : Match} (h : p.search? place = some m) :
    place.Ahead m.start ∧ m.start.Ahead m.stop := by
  obtain ⟨hahead, hmatch⟩ := search?_spec h
  exact ⟨hahead, (matchAt?_ahead hmatch).2⟩

/-- A group of a match ends inside the text. -/
lemma group?_stop_le {p : Pattern} {place : Place} {m : Match} {name : String} {s : Span}
    (h : p.search? place = some m) (hs : m.group? name = some s) :
    s.stop ≤ place.offset + Text.width place.rest := by
  obtain ⟨hahead, hmatch⟩ := search?_spec h
  rw [matchAt?_eq] at hmatch
  obtain ⟨u, hu, hm⟩ := Option.map_eq_some_iff.mp hmatch
  have hgroups : u.groups = m.groups := by rw [← hm]
  have hstart : Within (place.offset + Text.width place.rest) { place := m.start } :=
    ⟨hahead.end_eq, by simp⟩
  have hwithin := threads_lasting (within_lasting _) p hstart u (List.mem_of_mem_head? hu)
  obtain ⟨before, after, hsplit, -⟩ := List.lookup_eq_some_iff.mp hs
  exact hwithin.2 (name, s) (by simp [hgroups, hsplit])

end Pattern
end BlockHue
