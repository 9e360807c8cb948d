/-
Paths of the file system: `path.posix` of Node.

A path is normalized segment by segment: empty ones and dots go, and two
dots take the segment before them along where there is one to take.
-/
import Yunpanel.Js.Text

namespace Yunpanel.Path

/-- One segment, after those that are there already, the last one first.
Only a relative path may climb above where it starts. -/
def climb (above : Bool) (done : List (List Char)) (segment : List Char) :
    List (List Char) :=
  if segment.isEmpty ∨ segment = ['.'] then done
  else if segment = ['.', '.'] then
    match done with
    | [] => if above then [segment] else []
    | last :: rest => if last = ['.', '.'] then segment :: done else rest
  else segment :: done

/-- `normalizeString`: the segments that stay. -/
def segments (above : Bool) (cs : List Char) : List (List Char) :=
  ((cs.splitOn '/').foldl (climb above) []).reverse

def isAbsolute (cs : List Char) : Bool := cs.head? == some '/'

/-- `path.normalize` -/
def normalize (cs : List Char) : List Char :=
  if cs.isEmpty then ['.']
  else
    let absolute := isAbsolute cs
    let trailing := cs.getLast? == some '/'
    let body := ['/'].intercalate (segments (!absolute) cs)
    if body.isEmpty then
      if absolute then ['/'] else if trailing then ['.', '/'] else ['.']
    else
      (if absolute then ['/'] else []) ++ body
        ++ if trailing then ['/'] else []

/-- `path.join` -/
def join (parts : List String) : String :=
  let given := (parts.map String.toList).filter fun part => !part.isEmpty
  String.ofList <|
    if given.isEmpty then ['.'] else normalize (['/'].intercalate given)

example : join ["/etc/letsencrypt/live", "example.org", "cert.pem"]
    = "/etc/letsencrypt/live/example.org/cert.pem" := by decide +kernel

/-- `path.resolve` of an absolute path. -/
def resolve (cs : List Char) : List Char :=
  '/' :: ['/'].intercalate (segments false cs)

/-- The way from one list of segments to another: up to where they part,
and down again. -/
def wayTo : List (List Char) → List (List Char) → List (List Char)
  | a :: as, b :: bs =>
      if a = b then wayTo as bs
      else List.replicate (as.length + 1) ['.', '.'] ++ b :: bs
  | as, bs => List.replicate as.length ['.', '.'] ++ bs

/-- `path.relative` of two absolute paths. -/
def relative (source target : List Char) : List Char :=
  ['/'].intercalate (wayTo (segments false source) (segments false target))

example : String.ofList (relative "/srv/app".toList "/srv/data/x".toList)
    = "../data/x" := by decide +kernel

end Yunpanel.Path
