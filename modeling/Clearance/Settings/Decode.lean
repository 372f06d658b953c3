import Clearance.Files
import Clearance.Settings
import Clearance.Settings.Tree
import Clearance.Text.Ascii
import Clearance.Text.Quoted

/-!
From trees to settings. The first value that does not fit, in the order of the keys, is told with its
key, which is written in the manner of its source.
-/
namespace Clearance.Settings

inductive Complaint where
  | mismatch (found : Tree) (expected : String)
  | unknownVariant (name : String) (known : List String)

structure Problem where
  complaint : Complaint
  path : List String
  source : Source

/-- Every number is written with all its places. -/
def numberLayout : Decimal.Layout := ⟨.up, fun _ => true, ""⟩

def Scalar.describe : Scalar → String
  | .text s => "string " ++ Text.quoted s
  | .character c => "string " ++ Text.quoted (String.singleton c)
  | .boolean b => s!"bool {b}"
  | .unsigned n => s!"unsigned int `{n}`"
  | .signed i => s!"signed int `{i}`"
  | .real x => s!"float `{numberLayout.number x}`"

def Tree.describe : Tree → String
  | leaf _ v => v.describe
  | list .. => "sequence"
  | table .. => "map"

def Complaint.message : Complaint → String
  | .mismatch found expected => s!"invalid type: found {found.describe}, expected {expected}"
  | .unknownVariant name known =>
    s!"unknown variant: found `{name}`, expected `{Json.oneOf known}`"

/-- A path without the steps that lead nowhere. -/
def shownPath (path : String) : String :=
  (if path.startsWith "/" then "/" else "") ++ String.intercalate "/" (Files.names path)

def Source.key (path : List String) : Source → String
  | .file _ => String.intercalate "." ("default" :: path)
  | .environment => Text.upper (String.intercalate "." path)

def Source.describe : Source → String
  | .file path => shownPath path ++ " TOML file"
  | .environment => "`" ++ "OPSGUARD_" ++ "` environment variable(s)"

def Problem.message (p : Problem) : String :=
  s!"{p.complaint.message} for key {Text.quoted (p.source.key p.path)} in {p.source.describe}"

abbrev Decoder (α : Type) := Tree → Except Problem α

namespace Decoder

def mismatch {α : Type} (expected : String) (t : Tree) : Except Problem α :=
  .error ⟨.mismatch t expected, [], t.source⟩

def within {α : Type} (key : String) (r : Except Problem α) : Except Problem α :=
  r.mapError fun p => { p with path := key :: p.path }

def text (expected : String) : Decoder String
  | .leaf _ (.text s) => .ok s
  | .leaf _ (.character c) => .ok (String.singleton c)
  | t => mismatch expected t

def boolean : Decoder Bool
  | .leaf _ (.boolean b) => .ok b
  | t => mismatch "a boolean" t

def listFrom {α : Type} (item : Decoder α) : Nat → List Tree → Except Problem (List α)
  | _, [] => .ok []
  | i, t :: l => do
    let a ← within (toString i) (item t)
    .ok (a :: (← listFrom item (i + 1) l))

def list {α : Type} (item : Decoder α) : Decoder (List α)
  | .list _ l => listFrom item 0 l
  | t => mismatch "a sequence" t

/-- A variant by its name. A table stands for its first key, but no value fits the variant; what is
wrong with the key is told with the source of its value. -/
def variant {α : Type} (title : String) (known : List (String × α)) : Decoder α
  | .leaf source (.text s) =>
    match known.lookup s with
    | some a => .ok a
    | none => .error ⟨.unknownVariant s (known.map Prod.fst), [], source⟩
  | .table _ ((k, t) :: _) =>
    match known.lookup k with
    | some _ => within k (mismatch "unit" t)
    | none => .error ⟨.unknownVariant k (known.map Prod.fst), [k], t.source⟩
  | .table source [] => mismatch "enum" (.table source [])
  | t => mismatch s!"enum {title}" t

structure Entry (σ : Type) where
  key : String
  read : Decoder (σ → σ)

def entry {σ α : Type} (key : String) (item : Decoder α) (set : α → σ → σ) : Entry σ where
  key := key
  read := fun t => (item t).map set

/-- A section has its entries by key, in the order of the keys, or as a list in their own order. -/
structure Section (σ : Type) where
  title : String
  entries : List (Entry σ)
  start : σ

namespace Section
variable {σ : Type}

def byKey (s : Section σ) : σ → List (String × Tree) → Except Problem σ
  | v, [] => .ok v
  | v, (k, t) :: l => do
    match s.entries.find? (·.key == k) with
    | none => byKey s v l
    | some e =>
      let change ← within k (e.read t)
      byKey s (change v) l

def byPlace : Nat → List (Entry σ) → σ → List Tree → Except Problem σ
  | i, e :: es, v, t :: l => do
    let change ← within (toString i) (e.read t)
    byPlace (i + 1) es (change v) l
  | _, _, v, _ => .ok v

def decode (s : Section σ) : Decoder σ
  | .table _ l => s.byKey s.start l
  | .list _ l => byPlace 0 s.entries s.start l
  | t => mismatch s!"struct {s.title}" t

end Section

def telemetry : Section Telemetry where
  title := "TelemetryConfig"
  entries := [
    entry "log_level" (text "a string") fun l t => { t with logLevel := l },
    entry "log_format" (variant "LogFormat" LogFormat.names) fun f t => { t with logFormat := f }]
  start := {}

def authorization : Section Authorization where
  title := "AuthorizationConfig"
  entries := [
    entry "enabled" boolean fun b a => { a with enabled := b },
    entry "grants_file" (text "path string") fun p a => { a with grantsFile := some p }]
  start := {}

def security : Section Policy where
  title := "OperationsSecurityPolicy"
  entries := [
    entry "allow_unauthenticated_image_tagging_in_accounts" (list (text "a string"))
      fun l p => { p with taggingAccounts := l },
    entry "skip_authorization_for" (list (text "a string"))
      fun l p => { p with skippedTypes := l }]
  start := {}

def settings : Section Settings where
  title := "AppConfig"
  entries := [
    entry "telemetry" telemetry.decode fun t s => { s with telemetry := t },
    entry "authorization" authorization.decode fun a s => { s with authorization := a },
    entry "security" security.decode fun p s => { s with security := p }]
  start := {}

end Decoder
end Clearance.Settings
