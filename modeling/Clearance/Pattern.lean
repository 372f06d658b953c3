/-!
Patterns: the regular expressions that the value of a field can be compared with. What is kept of
one is what decides whether a matcher can be made of it. A matcher knows the letters, digits and
cases of ASCII only, so a pattern about characters must not need those of other scripts; and it
finds whole characters, so a pattern about bytes must not match a part of one.
-/
namespace Clearance

namespace Pattern

inductive Flag where
  /-- Letters match in either case. -/
  | caseless
  | multiLine
  | dotAll
  | lazy
  /-- The pattern is about characters, not bytes. -/
  | unicode
  | returns
  /-- Blanks and comments do not count. -/
  | verbose
deriving DecidableEq, Repr

def Flag.names : List (Char × Flag) := [
  ('i', caseless), ('m', multiLine), ('s', dotAll), ('U', lazy), ('u', unicode), ('R', returns),
  ('x', verbose)]

abbrev Changes := List (Flag × Bool)

/-- A character that stands for itself. Where patterns are about bytes, one that is written with two
hexadecimal digits is a byte. -/
structure Literal where
  char : Char
  isByte : Bool := false
deriving DecidableEq, Repr

def Literal.isAscii (l : Literal) : Bool := l.char.toNat < 128

inductive CharSet where
  | literal (l : Literal)
  | range (first last : Literal)
  | ascii (negated : Bool)
  /-- The digits, the spaces or the characters of words. -/
  | named (negated : Bool)
  | bracketed (negated : Bool) (s : CharSet)
  | union (items : List CharSet)
  | operation (left right : CharSet)

end Pattern

inductive Pattern where
  /-- Flags that hold from here on. -/
  | flags (changes : Pattern.Changes)
  | literal (l : Pattern.Literal)
  | dot
  | anchor
  | wordBoundary
  | oneOf (s : Pattern.CharSet)
  | repetition (p : Pattern)
  | group (changes : Pattern.Changes) (p : Pattern)
  | sequence (items : List Pattern)
  | choice (items : List Pattern)

namespace Pattern

mutual
/-- How deep a set nests. A union of one set would be that set; one of none is not counted. -/
def CharSet.depth : CharSet → Nat
  | .literal _ | .range .. | .ascii _ | .named _ => 0
  | .bracketed _ s => s.depth + 1
  | .union [] => 0
  | .union (s :: l) => max s.depth (CharSet.greatestDepth l) + 1
  | .operation left right => max left.depth right.depth + 1

def CharSet.greatestDepth : List CharSet → Nat
  | [] => 0
  | s :: l => max s.depth (CharSet.greatestDepth l)
end

mutual
def depth : Pattern → Nat
  | flags _ | literal _ | dot | anchor | wordBoundary => 0
  | oneOf s => s.depth
  | repetition p | group _ p => p.depth + 1
  | sequence [] | choice [] => 0
  | sequence (p :: l) | choice (p :: l) => max p.depth (greatestDepth l) + 1

def greatestDepth : List Pattern → Nat
  | [] => 0
  | p :: l => max p.depth (greatestDepth l)
end

def depthLimit : Nat := 250

/-- The flags that bear on whether something is supported. -/
structure Mode where
  unicode : Bool := true
  caseless : Bool := false
deriving DecidableEq, Repr

def Mode.change (m : Mode) (changes : Changes) : Mode where
  unicode := (changes.lookup .unicode).getD m.unicode
  caseless := (changes.lookup .caseless).getD m.caseless

/-- Whether a set can have this member: the other case of a character is not known, and a byte must
be one of ASCII. -/
def Mode.hasMember (m : Mode) (l : Literal) : Bool := if m.unicode then !m.caseless else l.isAscii

mutual
/-- Whether a set is supported. The complement of a set of bytes has parts of characters in it. -/
def CharSet.isSupported (m : Mode) : CharSet → Bool
  | .literal l => m.hasMember l
  | .range first last => m.hasMember first && m.hasMember last
  | .ascii negated => if m.unicode then !m.caseless else !negated
  | .named negated => !m.unicode && !negated
  | .bracketed negated s => s.isSupported m && (m.unicode || !negated)
  | .union l => CharSet.allSupported m l
  | .operation left right => left.isSupported m && right.isSupported m

def CharSet.allSupported (m : Mode) : List CharSet → Bool
  | [] => true
  | s :: l => s.isSupported m && CharSet.allSupported m l
end

mutual
/-- The mode after a pattern, or none if something in it is not supported. Flags hold up to the end
of their group, also beyond a bar. -/
def modeAfter? (m : Mode) : Pattern → Option Mode
  | flags changes => some (m.change changes)
  | literal l =>
    if m.unicode then (if m.caseless then none else some m)
    else if l.isByte && !l.isAscii then none
    else some m
  | dot => if m.unicode then some m else none
  | anchor => some m
  | wordBoundary => if m.unicode then none else some m
  | oneOf s => if s.isSupported m then some m else none
  | repetition p => modeAfter? m p
  | group changes p => (modeAfter? (m.change changes) p).map fun _ => m
  | sequence l | choice l => modeAfterAll? m l

def modeAfterAll? (m : Mode) : List Pattern → Option Mode
  | [] => some m
  | p :: l => do
    let m ← modeAfter? m p
    modeAfterAll? m l
end

def isSupported (p : Pattern) : Bool := p.depth ≤ depthLimit && (modeAfter? {} p).isSome

end Pattern
end Clearance
