import CommandGrammar.Text.Split
import CommandGrammar.Url.Percent

/-!
# Paths of addresses

A path is a list of segments. A segment of one dot is dropped and one of two dots takes the segment
before it along; a percent sign with the digits of a dot counts as a dot.
-/

namespace CommandGrammar.UrlPath

/-- The segments of a text, cut at slashes and, for the well-known schemes, at backslashes. -/
def segments (special : Bool) (cs : List Char) : List (List Char) :=
  Text.pieces '/' (if special then cs.map fun c => if c = '\\' then '/' else c else cs)

def plainDots : List Char → List Char
  | '%' :: '2' :: 'e' :: rest => '.' :: plainDots rest
  | '%' :: '2' :: 'E' :: rest => '.' :: plainDots rest
  | c :: rest => c :: plainDots rest
  | [] => []

/-- The name of a drive: a letter and a colon, or a bar for the colon. -/
def isDrive : List Char → Bool
  | [a, b] => a.isAlpha && (b == ':' || b == '|')
  | _ => false

/-- The path without its last segment; the name of a drive stays. -/
def shorten (file : Bool) (path : List (List Char)) : List (List Char) :=
  match path.getLast? with
  | some l => if file && isDrive l && l.getLast? == some ':' then path else path.dropLast
  | none => path

def push (file : Bool) (path : List (List Char)) (segment : List Char) (last : Bool) :
    List (List Char) :=
  if plainDots segment = ['.', '.'] then
    let path := shorten file path
    if last then path ++ [[]] else path
  else if plainDots segment = ['.'] then if last then path ++ [[]] else path
  else if file && path.isEmpty && isDrive segment then [segment.take 1 ++ [':']]
  else path ++ [Percent.encode Percent.inPath segment]

/-- The path of the given segments, put behind those before. -/
def resolve (file : Bool) (path : List (List Char)) : List (List Char) → List (List Char)
  | [] => path
  | s :: rest => resolve file (push file path s rest.isEmpty) rest

/-- Empty segments at the start of a file's path do not count. -/
def dropEmpty (path : List (List Char)) : List (List Char) :=
  match path.dropWhile List.isEmpty with
  | [] => [[]]
  | p => p

/-- Segments, each after a slash. -/
def text (path : List (List Char)) : String :=
  String.ofList (path.flatMap ('/' :: ·))

/-- The text of a path as it is to be written. -/
def normal (special file : Bool) (cs : List Char) : String :=
  let path := resolve file [] (segments special cs)
  text (if file then dropEmpty path else path)

end CommandGrammar.UrlPath
