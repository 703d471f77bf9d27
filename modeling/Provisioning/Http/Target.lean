import Provisioning.Json.Reader
import Provisioning.Text.Utf8

namespace Provisioning.Http

def percentDecode : List Char → List Nat
  | '%' :: a :: b :: s =>
    match Json.hexValue? a, Json.hexValue? b with
    | some m, some n => (16 * m + n) :: percentDecode s
    | _, _ => '%'.toNat :: percentDecode (a :: b :: s)
  | c :: s => Text.utf8 c ++ percentDecode s
  | [] => []

def unescape (s : List Char) : List Char := Text.ofUtf8 (percentDecode s)

def splitPath : List Char → List (List Char)
  | [] => [[]]
  | c :: s =>
    if c = '/' then [] :: splitPath s
    else match splitPath s with
      | part :: parts => (c :: part) :: parts
      | [] => [[c]]

def joinPath : List (List Char) → List Char
  | [] => []
  | [part] => part
  | part :: parts => part ++ '/' :: joinPath parts

def dropDots (done : List (List Char)) : List (List Char) → List (List Char)
  | [] => done.reverse
  | part :: parts =>
    if part = ['.'] then dropDots done parts
    else if part = ['.', '.'] then dropDots (if done = [[]] then done else done.drop 1) parts
    else dropDots (part :: done) parts

def cutQuery (s : List Char) : List Char := s.takeWhile fun c ↦ c != '?' && c != '#'

def dropHost : List Char → List Char
  | '/' :: '/' :: s => s.dropWhile (· != '/')
  | s => s

/-- The path of a target, with one slash in front. A client escapes what it sends, so that escapes in
the target are decoded twice. -/
def path (target : String) : String :=
  let s := '/' :: (dropHost (cutQuery target.toList)).dropWhile (· == '/')
  String.ofList (unescape (unescape (joinPath (dropDots [] (splitPath s)))))

/-- The name under which requests to a path without route are measured: what was escaped may look like
a query, and line breaks and tabs do not count. -/
def plainName (path : String) : String :=
  String.ofList ((cutQuery path.toList).filter fun c ↦ !(['\n', '\r', '\t'].contains c))

inductive Route where
  | health
  | metrics
  | collection
  | item (id : String)
  deriving DecidableEq, Repr

namespace Route

def itemPrefix : String := "/v1/provisioningcriteria/"

/-- Of a path without parameters a newline at the end does not count. -/
def ofPath? (path : String) : Option Route :=
  let plain (p : String) := path = p ∨ path = p ++ "\n"
  if plain "/health" then some health
  else if plain "/metrics" then some metrics
  else if plain "/v1/provisioningcriteria" then some collection
  else if path.startsWith itemPrefix then
    let id := String.ofList (path.toList.drop itemPrefix.length)
    if id.isEmpty || id.contains '/' then none else some (item id)
  else none

def isSlashed (path : String) : Bool :=
  let s := path.toList
  if path = "/" then false
  else if s.getLast? = some '/' then
    (ofPath? (String.ofList (s.reverse.dropWhile (· == '/')).reverse)).isSome
  else (ofPath? (path ++ "/")).isSome

def template : Route → String
  | health => "/health"
  | metrics => "/metrics"
  | collection => "/provisioningcriteria"
  | item _ => "/provisioningcriteria/\x7bcriteria_id\x7d"

end Route
end Provisioning.Http
