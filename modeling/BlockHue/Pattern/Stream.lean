import BlockHue.LazyList
import BlockHue.Pattern.Basic

/-!
# Threads on demand

`Pattern.stream` makes the threads of a pattern one by one, as far as they are asked for. Main
statement: it makes the threads of `Pattern.threads` in their order.
-/
namespace BlockHue

namespace Threads

def distinctStream (origin seen : Nat) : LazyList Thread → LazyList Thread
  | .nil => .nil
  | .cons t s =>
    let key := t.offset - origin
    if seen.testBit key then distinctStream origin seen (s ())
    else .cons t fun _ => distinctStream origin (seen ||| (1 <<< key)) (s ())

/-- The stops of a run, the shortest first. -/
def runStream (set : CharSet) : List Char → Nat → Option Nat → Thread → LazyList Thread
  | cs, least, most, t =>
    let longer (_ : Unit) : LazyList Thread :=
      if most == some 0 then .nil
      else match cs with
        | [] => .nil
        | c :: cs =>
          if set.contains c then runStream set cs (least - 1) (most.map (· - 1)) t.next else .nil
    if least == 0 then .cons t longer else longer ()

theorem toList_distinctStream (origin seen : Nat) (s : LazyList Thread) :
    (distinctStream origin seen s).toList = distinctFrom origin seen s.toList := by
  induction s generalizing seen with
  | nil => rfl
  | cons t s ih =>
    simp only [distinctStream, LazyList.toList, distinctFrom]
    split
    · exact ih () seen
    · simp [LazyList.toList, ih]

theorem runStops_eq (set : CharSet) (cs : List Char) (least : Nat) (most : Option Nat) (t : Thread)
    (shorter : List Thread) :
    runStops set cs least most t shorter = (runStream set cs least most t).toList.reverse ++
      shorter := by
  induction cs generalizing least most t shorter with
  | nil =>
    unfold runStops runStream
    by_cases h : least == 0 <;> by_cases hm : most == some 0 <;> simp [h, hm, LazyList.toList]
  | cons c cs ih =>
    unfold runStops runStream
    by_cases h : least == 0 <;> by_cases hm : most == some 0 <;> by_cases hc : set.contains c <;>
      simp [h, hm, hc, LazyList.toList, ih]

end Threads

namespace Pattern

/-- The threads from `t` through a pattern, the preferred first, on demand. -/
def stream : Pattern → Thread → LazyList Thread
  | empty, t => .cons t fun _ => .nil
  | one set, t =>
    match t.place.rest with
    | [] => .nil
    | c :: _ => if set.contains c then .cons t.next fun _ => .nil else .nil
  | look l, t => if l.holds t.place.before t.place.rest.head? then .cons t fun _ => .nil else .nil
  | seq p q, t =>
    let ts := (p.stream t).flatMap q.stream
    if p.single then ts else Threads.distinctStream t.offset 0 ts
  | alt p q, t => (p.stream t).append fun _ => q.stream t
  | group name p, t => (p.stream t).map (Thread.passGroup name t.offset)
  | run set least most greedy, t =>
    if greedy then .ofList (Threads.runStops set t.place.rest least most t [])
    else Threads.runStream set t.place.rest least most t
  | loop p least most greedy, t =>
    .ofList (Threads.loop (fun u => (p.stream u).toList) least most greedy t)

/-- The threads made on demand are the threads of the pattern. -/
@[simp] theorem toList_stream (p : Pattern) (t : Thread) : (p.stream t).toList = p.threads t := by
  induction p generalizing t with
  | empty => rfl
  | one set =>
    cases h : t.place.rest with
    | nil => simp [stream, threads, h, LazyList.toList]
    | cons c cs => by_cases hc : set.contains c <;> simp [stream, threads, h, hc, LazyList.toList]
  | look l =>
    by_cases h : l.holds t.place.before t.place.rest.head? <;>
      simp [stream, threads, h, LazyList.toList]
  | seq p q ihp ihq =>
    by_cases h : p.single <;>
      simp [stream, threads, h, Threads.toList_distinctStream, Threads.distinct, ihp, ihq]
  | alt p q ihp ihq => simp [stream, threads, ihp, ihq]
  | group name p ih => simp [stream, threads, ih]
  | run set least most greedy =>
    simp only [stream, threads]
    split <;> simp [Threads.runStops_eq]
  | loop p least most greedy ih => simp [stream, threads, ih]

end Pattern

end BlockHue
