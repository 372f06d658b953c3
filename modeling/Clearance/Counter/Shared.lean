import Clearance.Counter.Registry

/-!
A registry that many share. Writers increment, and each of the two steps of an increment is one turn.
Readers ask for single counters, which is one turn, or for totals, which look at one counter after
another while writers add to them. No counter is made as long as a total is being read.
-/
namespace Clearance.Counter

/-- What a writer has added, the increment whose look-up has found no counter, and what is left. -/
structure Writer where
  added : List Increment := []
  missed : Option Increment := none
  left : List Increment
deriving DecidableEq, Repr

inductive Query where
  | counter (k : Key)
  | total (name : String)
deriving DecidableEq, Repr

/-- A total that is being read: the counters still to be looked at, and the sum of the others. -/
structure Scan where
  name : String
  left : List Key
  sum : Nat := 0
deriving DecidableEq, Repr

structure Reader where
  answers : List (Query × Nat) := []
  scan : Option Scan := none
deriving DecidableEq, Repr

structure Shared where
  registry : Registry := {}
  writers : List Writer
  readers : List Reader
deriving DecidableEq

/-- Whose turn it is. The counters of a total are looked at in any order. -/
inductive Turn where
  | write (writer : Nat)
  | count (reader : Nat) (i : Increment)
  | total (reader : Nat) (name : String) (order : List Key)
  | look (reader : Nat)
deriving DecidableEq, Repr

def Registry.named (r : Registry) (name : String) : List Key :=
  r.counts.keys.filter (·.name == name)

def Writer.step (w : Writer) (r : Registry) (locked : Bool) : Registry × Writer :=
  match w.missed, w.left with
  | some i, _ =>
    if locked then (r, w)
    else (r.insertBump i.key, { w with added := w.added ++ [i], missed := none })
  | none, i :: left =>
    match r.bump? i.key with
    | some r' => (r', { w with added := w.added ++ [i], left })
    | none => (r, { w with missed := some i, left })
  | none, [] => (r, w)

namespace Reader

def count (x : Reader) (r : Registry) (i : Increment) : Reader :=
  match x.scan with
  | some _ => x
  | none => { x with answers := x.answers ++ [(.counter i.key, r.count i)] }

def total (x : Reader) (r : Registry) (name : String) (order : List Key) : Reader :=
  match x.scan with
  | some _ => x
  | none => if order.isPerm (r.named name) then { x with scan := some { name, left := order } } else x

def look (x : Reader) (r : Registry) : Reader :=
  match x.scan with
  | none => x
  | some s =>
    match s.left with
    | [] => { answers := x.answers ++ [(.total s.name, s.sum)] }
    | k :: left => { x with scan := some { s with left, sum := s.sum + r.value k } }

end Reader

namespace Shared

def start (programs : List (List Increment)) (readers : Nat) : Shared where
  writers := programs.map fun left => { left }
  readers := List.replicate readers {}

def isLocked (m : Shared) : Bool := m.readers.any (·.scan.isSome)

/-- A turn of somebody who is not there, or who has to wait or has nothing to do, changes nothing. -/
def step (m : Shared) : Turn → Shared
  | .write j =>
    match m.writers[j]? with
    | none => m
    | some w =>
      let (registry, w') := w.step m.registry m.isLocked
      { m with registry, writers := m.writers.set j w' }
  | .count j i => { m with readers := m.readers.modify j (·.count m.registry i) }
  | .total j name order => { m with readers := m.readers.modify j (·.total m.registry name order) }
  | .look j => { m with readers := m.readers.modify j (·.look m.registry) }

def run (m : Shared) (turns : List Turn) : Shared := turns.foldl step m

/-- The increments that have been added, by whichever step. -/
def added (m : Shared) : List Increment := m.writers.flatMap (·.added)

def isFinished (m : Shared) : Bool := m.writers.all fun w => w.missed.isNone && w.left.isEmpty

end Shared
end Clearance.Counter
