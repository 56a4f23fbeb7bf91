import BlockHue.Pattern.CharSet
import BlockHue.Pattern.Look

/-!
# Patterns and their threads

A thread is one way through a pattern: the place that it has reached in the text and the named
groups that it has passed. `Pattern.threads` lists the threads from a starting one in order of
preference, so the preferred match is the head of the list. Of two threads at one place the later
one can never be preferred, whatever pattern follows, and is dropped where several threads enter the
second of two patterns; this keeps the lists no longer than the text.
-/
namespace BlockHue

/-- A stretch of a text, in bytes; `stop` is its end. -/
structure Span where
  start : Nat
  stop : Nat
  deriving DecidableEq, Repr

def Span.length (s : Span) : Nat := s.stop - s.start

/-- A place between two characters of a text: the character before it, all that follows, and
the bytes before it. -/
structure Place where
  before : Option Char
  rest : List Char
  offset : Nat
  deriving DecidableEq, Repr

namespace Place

def front (text : List Char) : Place := ⟨none, text, 0⟩

/-- One character further; the end of the text stays where it is. -/
def next (p : Place) : Place :=
  match p.rest with
  | [] => p
  | c :: cs => ⟨some c, cs, p.offset + c.utf8Size⟩

def atEnd (p : Place) : Bool := p.rest.isEmpty

end Place

structure Thread where
  place : Place
  /-- The named groups passed so far, the latest first. -/
  groups : List (String × Span) := []
  deriving DecidableEq, Repr

namespace Thread

def offset (t : Thread) : Nat := t.place.offset

def next (t : Thread) : Thread := { t with place := t.place.next }

/-- Records a named group that began at `start` and ends here. -/
def passGroup (name : String) (start : Nat) (t : Thread) : Thread :=
  { t with groups := (name, ⟨start, t.offset⟩) :: t.groups }

end Thread

inductive Pattern
  | empty
  | one (set : CharSet)
  | look (look : Look)
  | seq (first second : Pattern)
  | alt (left right : Pattern)
  | group (name : String) (body : Pattern)
  /-- `least` to `most` characters of a set, as many as possible if greedy. -/
  | run (set : CharSet) (least : Nat) (most : Option Nat) (greedy : Bool)
  /-- `least` to `most` copies of a pattern. -/
  | loop (body : Pattern) (least : Nat) (most : Option Nat) (greedy : Bool)
  deriving DecidableEq, Repr

/-- Threads met in a walk: their distances from its origin as bits of `seen`, and those that are
kept, the latest first. -/
structure Arrivals where
  origin : Nat
  seen : Nat := 0
  kept : List Thread := []

namespace Arrivals

def has (a : Arrivals) (t : Thread) : Bool := a.seen.testBit (t.offset - a.origin)

def see (a : Arrivals) (t : Thread) : Arrivals :=
  { a with seen := a.seen ||| (1 <<< (t.offset - a.origin)) }

def keep (a : Arrivals) (t : Thread) : Arrivals := { a with kept := t :: a.kept }

/-- Keeps a thread unless one arrived at its place before. -/
def arrive (a : Arrivals) (t : Thread) : Arrivals := if a.has t then a else (a.see t).keep t

def toList (a : Arrivals) : List Thread := a.kept.reverse

end Arrivals

namespace Threads

/-- The first thread to arrive at each place, places in `seen` excepted. -/
def distinctFrom (origin seen : Nat) : List Thread → List Thread
  | [] => []
  | t :: ts =>
    let key := t.offset - origin
    if seen.testBit key then distinctFrom origin seen ts
    else t :: distinctFrom origin (seen ||| (1 <<< key)) ts

/-- The first thread to arrive at each place; no place lies before `origin`. -/
def distinct (origin : Nat) (ts : List Thread) : List Thread := distinctFrom origin 0 ts

def rounds (body : Thread → List Thread) (origin : Nat) : Nat → List Thread → List Thread
  | 0, ts => ts
  | n + 1, ts => if ts.isEmpty then [] else rounds body origin n (distinct origin (ts.flatMap body))

/-- Walks on from a thread that has ended a round of an endless loop. A place is left for a further
round only once, so a round that takes nothing ends the walk there. The origin has had its round
already. `fuel` bounds the rounds.
-/
def roam (body : Thread → List Thread) (greedy : Bool) : Nat → Thread → Arrivals → Arrivals
  | 0, _, a => a
  | fuel + 1, t, a =>
    if a.has t then a
    else
      let again (a : Arrivals) : Arrivals :=
        if t.offset == a.origin then a
        else (body t).foldl (fun a u => roam body greedy fuel u a) a
      if greedy then (again (a.see t)).keep t else again ((a.see t).keep t)

/-- Rounds of `body` from `t` on, each round that starts later taking at least one character. -/
def roamFrom (body : Thread → List Thread) (greedy : Bool) (t : Thread) (a : Arrivals) : Arrivals :=
  (body t).foldl (fun a u => roam body greedy (t.place.rest.length + 1) u a) a

def oneOrMore (body : Thread → List Thread) (greedy : Bool) (t : Thread) : List Thread :=
  (roamFrom body greedy t { origin := t.offset }).toList

def zeroOrMore (body : Thread → List Thread) (greedy : Bool) (t : Thread) : List Thread :=
  let a : Arrivals := { origin := t.offset }
  if greedy then ((roamFrom body greedy t a).arrive t).toList
  else (roamFrom body greedy t (a.arrive t)).toList

/-- A walk of few rounds: which places it has left with how many rounds to go, as bits, and
where it has ended. -/
structure Bounded where
  left : Nat := 0
  ends : Arrivals

/-- Walks on with `n` rounds to go of `most`. -/
def roamUpTo (body : Thread → List Thread) (greedy : Bool) (most : Nat) :
    Nat → Thread → Bounded → Bounded
  | 0, t, b => { b with ends := b.ends.arrive t }
  | n + 1, t, b =>
    let key := (t.offset - b.ends.origin) * (most + 1) + n
    if b.left.testBit key then b
    else
      let again (b : Bounded) : Bounded :=
        (body t).foldl (fun b u => roamUpTo body greedy most n u b) b
      let stop (b : Bounded) : Bounded := { b with ends := b.ends.arrive t }
      let b := { b with left := b.left ||| (1 <<< key) }
      if greedy then stop (again b) else again (stop b)

def upTo (body : Thread → List Thread) (greedy : Bool) (n : Nat) (t : Thread) : List Thread :=
  (roamUpTo body greedy n n t { ends := { origin := t.offset } }).ends.toList

def loop (body : Thread → List Thread) (least : Nat) (most : Option Nat) (greedy : Bool)
    (t : Thread) : List Thread :=
  match most, least with
  | none, 0 => zeroOrMore body greedy t
  | none, n + 1 => distinct t.offset ((rounds body t.offset n [t]).flatMap (oneOrMore body greedy))
  | some m, n => distinct t.offset ((rounds body t.offset n [t]).flatMap (upTo body greedy (m - n)))

/-- The stops of a run of characters of `set`, the longest first, in front of `shorter`. -/
def runStops (set : CharSet) : List Char → Nat → Option Nat → Thread → List Thread → List Thread
  | cs, least, most, t, shorter =>
    let stops := if least == 0 then t :: shorter else shorter
    if most == some 0 then stops
    else match cs with
      | [] => stops
      | c :: cs =>
        if set.contains c then runStops set cs (least - 1) (most.map (· - 1)) t.next stops
        else stops

end Threads

namespace Pattern

/-- Whether a pattern, by its form, never has two threads. -/
def single : Pattern → Bool
  | empty | one _ | look _ => true
  | seq p q => p.single && q.single
  | group _ p => p.single
  | alt _ _ | run _ _ _ _ | loop _ _ _ _ => false

/-- The threads from `t` through a pattern, the preferred first. -/
def threads : Pattern → Thread → List Thread
  | empty, t => [t]
  | one set, t =>
    match t.place.rest with
    | [] => []
    | c :: _ => if set.contains c then [t.next] else []
  | look l, t => if l.holds t.place.before t.place.rest.head? then [t] else []
  | seq p q, t =>
    let ts := (p.threads t).flatMap q.threads
    if p.single then ts else Threads.distinct t.offset ts
  | alt p q, t => p.threads t ++ q.threads t
  | group name p, t => (p.threads t).map (Thread.passGroup name t.offset)
  | run set least most greedy, t =>
    let stops := Threads.runStops set t.place.rest least most t []
    if greedy then stops else stops.reverse
  | loop p least most greedy, t => Threads.loop p.threads least most greedy t

end Pattern

end BlockHue
