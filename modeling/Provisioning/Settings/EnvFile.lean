import Provisioning.Text.Blank

namespace Provisioning.EnvFile

open Text

def unifyNewlines : List Char → List Char
  | '\r' :: '\n' :: s => '\n' :: unifyNewlines s
  | '\r' :: s => '\n' :: unifyNewlines s
  | c :: s => c :: unifyNewlines s
  | [] => []

def isInline (c : Char) : Bool := isBlank c && c != '\n'

def skipInline (s : List Char) : List Char := s.dropWhile isInline

def dropPrefix? : List Char → List Char → Option (List Char)
  | [], s => some s
  | c :: cs, d :: s => if c = d then dropPrefix? cs s else none
  | _ :: _, [] => none

def skipExport (s : List Char) : List Char :=
  match dropPrefix? "export".toList s with
  | some (c :: t) => if isInline c then skipInline t else s
  | _ => s

abbrev Result (α : Type) := Except (List Char) (α × List Char)

/-- A name ends at a blank, an equals sign or a comment; in single quotes it may hold any of these. -/
def readName (s : List Char) : Result (Option (List Char)) :=
  match s with
  | '#' :: _ => .ok (none, s)
  | '\'' :: t =>
    match t.takeWhile (· != '\''), t.dropWhile (· != '\'') with
    | c :: cs, _ :: r => .ok (some (c :: cs), r)
    | _, _ => .error s
  | _ =>
    let inName (c : Char) := c != '=' && c != '#' && !isBlank c
    match s.takeWhile inName with
    | [] => .error s
    | cs => .ok (some cs, s.dropWhile inName)

/-- The text up to the closing quote. A quote after a backslash closes only if no later one does. -/
def readQuoted (quote : Char) : List Char → Option (List Char × List Char)
  | [] => none
  | [c] => if c = quote then some ([], []) else none
  | c :: d :: s =>
    if c = quote then some ([], d :: s)
    else if c = '\\' ∧ d = quote then
      match readQuoted quote s with
      | some (cs, r) => some (c :: d :: cs, r)
      | none => some ([c], s)
    else (readQuoted quote (d :: s)).map fun (cs, r) ↦ (c :: cs, r)

def escapes (quote : Char) : List (Char × Char) :=
  if quote = '\'' then [('\\', '\\'), ('\'', '\'')]
  else [('\\', '\\'), ('\'', '\''), ('"', '"'), ('a', '\x07'), ('b', '\x08'), ('f', '\x0c'),
    ('n', '\n'), ('r', '\r'), ('t', '\t'), ('v', '\x0b')]

def unescape (quote : Char) : List Char → List Char
  | '\\' :: c :: s =>
    match (escapes quote).lookup c with
    | some d => d :: unescape quote s
    | none => '\\' :: unescape quote (c :: s)
  | c :: s => c :: unescape quote s
  | [] => []

def cutComment : List Char → List Char
  | c :: '#' :: s => if isBlank c then [] else c :: cutComment ('#' :: s)
  | c :: s => c :: cutComment s
  | [] => []

def trimEnd (s : List Char) : List Char := (s.reverse.dropWhile isBlank).reverse

def readValue (s : List Char) : Result (List Char) :=
  match s with
  | [] => .ok ([], [])
  | c :: t =>
    if c = '\'' ∨ c = '"' then
      match readQuoted c t with
      | some (cs, r) => .ok (unescape c cs, r)
      | none => .error s
    else .ok (trimEnd (cutComment (s.takeWhile (· != '\n'))), s.dropWhile (· != '\n'))

def skipComment (s : List Char) : List Char :=
  match skipInline s with
  | '#' :: t => t.dropWhile (· != '\n')
  | _ => s

def readLineEnd (s : List Char) : Result Unit :=
  match skipInline s with
  | [] => .ok ((), [])
  | '\n' :: t => .ok ((), t)
  | _ => .error s

abbrev Binding := String × Option String

def readLine (s : List Char) : Except (List Char) (Option Binding × List Char) := do
  let (name, s) ← readName (skipExport s)
  let s := skipInline s
  let (value, s) ← match s with
    | '=' :: t => (readValue (skipInline t)).map fun (v, r) ↦ (some (String.ofList v), r)
    | _ => .ok (none, s)
  let ((), s) ← readLineEnd (skipComment s)
  return (name.map fun n ↦ (String.ofList n, value), s)

def readLines : Nat → List Char → List Binding
  | 0, _ => []
  | fuel + 1, s =>
    match s.dropWhile isBlank with
    | [] => []
    | s =>
      match readLine s with
      | .ok (some b, r) => b :: readLines fuel r
      | .ok (none, r) => readLines fuel r
      | .error r => readLines fuel ((r.dropWhile (· != '\n')).drop 1)

def insert (b : Binding) : List Binding → List Binding
  | [] => [b]
  | c :: bs => if c.1 = b.1 then b :: bs else c :: insert b bs

def readReference (s : List Char) : Option ((List Char × List Char) × List Char) :=
  let name := s.takeWhile fun c ↦ c != '\x7d' && c != ':'
  match s.dropWhile fun c ↦ c != '\x7d' && c != ':' with
  | '\x7d' :: r => some ((name, []), r)
  | ':' :: '-' :: r =>
    match r.dropWhile (· != '\x7d') with
    | _ :: t => some ((name, r.takeWhile (· != '\x7d')), t)
    | [] => none
  | _ => none

def resolve (value? : String → Option (Option String)) : Nat → List Char → List Char
  | 0, s => s
  | _ + 1, [] => []
  | fuel + 1, c :: s =>
    match c, s with
    | '$', '\x7b' :: t =>
      match readReference t with
      | some ((name, default), r) =>
        let v := match value? (String.ofList name) with
          | some v => (v.getD "").toList
          | none => default
        v ++ resolve value? fuel r
      | none => c :: resolve value? fuel s
    | _, _ => c :: resolve value? fuel s

/-- The variables of a text. A value may refer to variables above it, and to those of `env`. -/
def read (env : List (String × String)) (text : String) : List Binding :=
  let s := unifyNewlines text.toList
  (readLines (s.length + 1) s).foldl (fun bs (name, value) ↦
    let value? (n : String) : Option (Option String) :=
      (bs.lookup n).or ((env.lookup n).map some)
    insert (name, value.map fun v ↦
      String.ofList (resolve value? (v.length + 1) v.toList)) bs) []

end Provisioning.EnvFile
