import Clearance.Pattern.Class
import Clearance.Text.Alphanumeric

/-! Reading patterns. `none` is a text that is no pattern. -/
namespace Clearance.Pattern

/-- Where reading stands: the rest of the text, whether blanks do not count there, and the names that
groups have already. -/
structure Cursor where
  rest : List Char
  verbose : Bool := false
  names : List String := []

def sequenceOf : List Pattern → Pattern
  | [p] => p
  | l => .sequence l

/-- The pattern of the branches before the last bar and of the items after it. -/
def joined (branches taken : List Pattern) : Pattern :=
  let last := sequenceOf taken.reverse
  match branches with
  | [] => last
  | _ => .choice (last :: branches).reverse

def changes (negated : Bool) (taken : Changes) : List Char → Option (Changes × List Char)
  | [] => none
  | c :: s =>
    if c == ':' || c == ')' then some (taken.reverse, c :: s)
    else if c == '-' then
      match negated, s with
      | false, d :: _ => if d == ':' || d == ')' then none else changes true taken s
      | _, _ => none
    else do
      let f ← Flag.names.lookup c
      if (taken.lookup f).isSome then none else changes negated ((f, !negated) :: taken) s

def isName : List Char → Bool
  | [] => false
  | c :: cs => (c == '_' || Text.isLetter c) &&
      cs.all fun d => ['_', '.', '[', ']'].contains d || Text.isAlphanumeric d

/-- The name of a group, which no other group has, and the angle bracket after it. -/
def groupName (c : Cursor) (s : List Char) : Option Cursor :=
  match s.span (· != '>') with
  | (name, '>' :: rest) =>
    let name' := String.ofList name
    if isName name && !c.names.contains name' then some { c with rest, names := name' :: c.names }
    else none
  | _ => none

/-- What stands after an opening parenthesis: flags for what follows, or the start of a group. -/
inductive Opening where
  | flags (changes : Changes) (after : Cursor)
  | group (changes : Changes) (inner : Cursor)

def opening (c : Cursor) : Option Opening :=
  match skip c.verbose c.rest with
  | '?' :: '=' :: _ | '?' :: '!' :: _ | '?' :: '<' :: '=' :: _ | '?' :: '<' :: '!' :: _ => none
  | '?' :: 'P' :: '<' :: s | '?' :: '<' :: s => (groupName c s).map (.group [])
  | '?' :: s => do
    let (l, rest) ← changes false [] s
    let c := { c with rest := rest.tail, verbose := (l.lookup .verbose).getD c.verbose }
    if rest.head? = some ':' then some (.group l c)
    else if l.isEmpty then none
    else some (.flags l c)
  | rest => some (.group [] { c with rest })

def single (verbose : Bool) : List Char → Option (Pattern × List Char)
  | [] => none
  | '.' :: rest => some (.dot, rest)
  | '^' :: rest | '$' :: rest => some (.anchor, rest)
  | '\\' :: rest => do
    let (e, rest) ← escape verbose rest
    let p : Pattern := match e with
      | .literal l => .literal l
      | .named negated => .oneOf (.named negated)
      | .anchor => .anchor
      | .wordBoundary => .wordBoundary
    some (p, rest)
  | c :: rest => some (.literal ⟨c, false⟩, rest)

/-- The items with the last one repeated. Flags cannot be repeated, and neither can nothing. -/
def repeatLast : List Pattern → Option (List Pattern)
  | [] | .flags _ :: _ => none
  | p :: taken => some (.repetition p :: taken)

def alternatives : Nat → List Pattern → List Pattern → Cursor → Option (Pattern × Cursor)
  | 0, _, _, _ => none
  | fuel + 1, branches, taken, c =>
    match skip c.verbose c.rest with
    | [] => some (joined branches taken, { c with rest := [] })
    | ')' :: rest => some (joined branches taken, { c with rest := ')' :: rest })
    | '|' :: rest =>
      alternatives fuel (sequenceOf taken.reverse :: branches) [] { c with rest }
    | '(' :: rest => do
      match ← opening { c with rest } with
      | .flags l after => alternatives fuel branches (.flags l :: taken) after
      | .group l inner =>
        let (p, after) ← alternatives fuel [] [] inner
        match after.rest with
        | ')' :: rest =>
          alternatives fuel branches (.group l p :: taken) { after with rest, verbose := c.verbose }
        | _ => none
    | '[' :: rest => do
      let (s, rest) ← bracketed c.verbose rest
      alternatives fuel branches (.oneOf s :: taken) { c with rest }
    | '\x7b' :: _ => none
    | '?' :: rest | '*' :: rest | '+' :: rest => do
      let taken ← repeatLast taken
      let rest := match rest with
        | '?' :: rest => rest
        | rest => rest
      alternatives fuel branches taken { c with rest }
    | s => do
      let (p, rest) ← single c.verbose s
      alternatives fuel branches (p :: taken) { c with rest }

def parse? (s : List Char) : Option Pattern :=
  match alternatives (s.length + 1) [] [] { rest := s } with
  | some (p, { rest := [], .. }) => some p
  | _ => none

def isPattern (s : List Char) : Bool := (parse? s).any isSupported

end Clearance.Pattern
