import DcInventory.Core.Text
import Mathlib.Data.List.SplitOn

/-
  This file defines how URLs are split, and how the path of a
  resource is resolved against one.

  Key definitions include:
    * `urlsplit`
    * `SplitUrl.hostname`
    * `urljoinPath`
-/

/- What stands before the first `c`, and after it. -/
def Text.cut (c : Char) (value : Text) : Text × Text :=
  (value.takeWhile (fun d => d ≠ c),
    (value.dropWhile (fun d => d ≠ c)).drop 1)

structure SplitUrl where
  scheme : Text
  netloc : Text
  path : Text
  query : Text
  fragment : Text
deriving DecidableEq, Repr

def isSchemeChar (c : Char) : Bool :=
  c.isAlphanum || c ∈ ['+', '-', '.']

/- The scheme in lower case, and what follows it. -/
def splitScheme (url : Text) : Text × Text :=
  let scheme := url.takeWhile (fun c => c ≠ ':')
  if scheme.length < url.length ∧
      scheme.head?.any Char.isAlpha ∧
        scheme.all isSchemeChar then
    (scheme.map Char.toLower, url.drop (scheme.length + 1))
  else ([], url)

/- The authority, and what follows it. -/
def splitNetloc : Text → Text × Text
| '/' :: '/' :: rest =>
    (rest.takeWhile (fun c => c ∉ ['/', '?', '#']),
      rest.dropWhile (fun c => c ∉ ['/', '?', '#']))
| rest => ([], rest)

/- Leading controls and blanks, and line breaks, are dropped. -/
def urlsplit (url : Text) : SplitUrl :=
  let url := (url.dropWhile (fun c => c.toNat ≤ 32)).filter
    (fun c => c ∉ ['\t', '\r', '\n'])
  let (scheme, rest) := splitScheme url
  let (netloc, rest) := splitNetloc rest
  let (rest, fragment) := Text.cut '#' rest
  let (path, query) := Text.cut '?' rest
  ⟨scheme, netloc, path, query, fragment⟩

/- `hostname`, which is nothing if it is empty. -/
def SplitUrl.hostname (url : SplitUrl) : Option Text :=
  let host := (url.netloc.reverse.takeWhile
    (fun c => c ≠ '@')).reverse
  let name := match host with
    | '[' :: rest => rest.takeWhile (fun c => c ≠ ']')
    | _ => host.takeWhile (fun c => c ≠ ':')
  if name = [] then none else some (name.map Char.toLower)

/- Segments of a path without the dots. -/
def resolveDots : List Text → List Text → List Text
| resolved, [] => resolved.reverse
| resolved, segment :: rest =>
    if segment = ['.', '.'] then
      resolveDots (resolved.drop 1) rest
    else if segment = ['.'] then resolveDots resolved rest
    else resolveDots (segment :: resolved) rest

/- The segments between the first and the last, if any. -/
def dropEmptySegments : List Text → List Text
| [] => []
| first :: rest =>
    first :: (rest.dropLast.filter (fun s => s ≠ []) ++
      rest.getLast?.toList)

/-
  `urljoin(base, path)` for a path that is relative and has
  neither dots nor parameters.
-/
def urljoinPath (base path : Text) : Text :=
  let url := urlsplit base
  let parts := url.path.splitOn '/'
  let directory := if parts.getLast? = some [] then parts
    else parts.dropLast
  let segments :=
    dropEmptySegments (directory ++ path.splitOn '/')
  let joined := ['/'].intercalate (resolveDots [] segments)
  let absolute := if joined.head? = some '/' then joined
    else '/' :: joined
  url.scheme ++ "://".toList ++ url.netloc ++ absolute

example :
    urljoinPath "https://app.example.com/".toList
      "procurement/1".toList =
      "https://app.example.com/procurement/1".toList := by
  decide +kernel
