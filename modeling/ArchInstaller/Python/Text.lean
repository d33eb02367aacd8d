import Mathlib.Algebra.Ring.Nat
import Mathlib.Data.List.Sort

/-! # Python's text functions

The `str` methods and library functions a Python program uses on text, on `String` through its
list of characters, so that they evaluate by structural recursion. Where Python's function
depends on the Unicode tables (`isdigit`, `lower`), only ASCII is treated. -/

namespace PyText

/-- A property of every character of a text, checked one by one. -/
theorem forall_mem_of_all {α : Type} {p : α → Prop} [DecidablePred p] {items : List α}
    (h : items.all (decide <| p ·) = true) : ∀ item ∈ items, p item := fun item hitem =>
  of_decide_eq_true (List.all_eq_true.mp h item hitem)

/-- `str.isspace` of one character. -/
def isSpace (c : Char) : Bool :=
  let n := c.toNat
  (9 ≤ n && n ≤ 13) || (28 ≤ n && n ≤ 32) || n == 0x85 || n == 0xA0 || n == 0x1680 ||
    (0x2000 ≤ n && n ≤ 0x200A) || n == 0x2028 || n == 0x2029 || n == 0x202F || n == 0x205F ||
    n == 0x3000

/-- `str.rstrip()` on characters. -/
def rstripChars (cs : List Char) : List Char :=
  (cs.reverse.dropWhile isSpace).reverse

/-- `str.rstrip()`. -/
def rstrip (s : String) : String := String.ofList (rstripChars s.toList)

/-- `str.strip()`. -/
def strip (s : String) : String := String.ofList (rstripChars (s.toList.dropWhile isSpace))

/-- `str.lstrip("/")`. -/
def lstripSlash (s : String) : String := String.ofList (s.toList.dropWhile (· == '/'))

/-- The fields of `str.split()`: maximal runs of characters that are not white space. -/
def fieldsAux : List Char → List Char → List (List Char)
  | [], current => if current.isEmpty then [] else [current.reverse]
  | c :: cs, current =>
    if isSpace c then
      if current.isEmpty then fieldsAux cs [] else current.reverse :: fieldsAux cs []
    else fieldsAux cs (c :: current)

/-- `str.split()`. -/
def fields (s : String) : List String := (fieldsAux s.toList []).map String.ofList

/-- Scan for the separator; `skip` counts the characters of a separator just found. -/
def splitAux (separator : List Char) : List Char → Nat → List Char → List (List Char)
  | [], _, current => [current.reverse]
  | _ :: cs, skip + 1, current => splitAux separator cs skip current
  | c :: cs, 0, current =>
    if separator.isPrefixOf (c :: cs) then
      current.reverse :: splitAux separator cs (separator.length - 1) []
    else splitAux separator cs 0 (c :: current)

/-- `str.split(separator)` for a separator that is not empty. -/
def split (separator s : String) : List String :=
  (splitAux separator.toList s.toList 0 []).map String.ofList

/-- A line boundary of `str.splitlines`. -/
def isLineBreak (c : Char) : Bool :=
  let n := c.toNat
  (10 ≤ n && n ≤ 13) || (28 ≤ n && n ≤ 30) || n == 0x85 || n == 0x2028 || n == 0x2029

/-- Lines so far; a line feed right after a carriage return belongs to the same boundary. -/
def splitlinesAux : List Char → Bool → List Char → List (List Char)
  | [], _, current => if current.isEmpty then [] else [current.reverse]
  | c :: cs, afterReturn, current =>
    if afterReturn && c == '\n' then splitlinesAux cs false current
    else if isLineBreak c then current.reverse :: splitlinesAux cs (c == '\r') []
    else splitlinesAux cs false (c :: current)

/-- `str.splitlines()`. -/
def splitlines (s : String) : List String := (splitlinesAux s.toList false []).map String.ofList

def isInfixOf (needle : List Char) : List Char → Bool
  | [] => needle.isEmpty
  | c :: cs => needle.isPrefixOf (c :: cs) || isInfixOf needle cs

/-- `needle in s`. -/
def contains (needle s : String) : Bool := isInfixOf needle.toList s.toList

/-- `s.startswith(p)`. -/
def startsWith (p s : String) : Bool := p.toList.isPrefixOf s.toList

/-- `s.replace(c, new)` for one character. -/
def replaceChar (c : Char) (new s : String) : String :=
  String.ofList (s.toList.flatMap fun d => if d == c then new.toList else [d])

/-- `s.removeprefix(p)`. -/
def removePrefix (p s : String) : String :=
  if startsWith p s then String.ofList (s.toList.drop p.toList.length) else s

/-- `s.lower()`, for ASCII letters. -/
def lower (s : String) : String := String.ofList (s.toList.map Char.toLower)

/-- `s.rsplit("/", 1)[-1]`: what follows the last slash. -/
def afterLastSlash (s : String) : String :=
  String.ofList (s.toList.reverse.takeWhile (· != '/')).reverse

/-- `s.rsplit("/", 1)[0]`: what precedes the last slash, or all of `s` when there is none. -/
def beforeLastSlash (s : String) : String :=
  if s.toList.contains '/' then
    String.ofList ((s.toList.reverse.dropWhile (· != '/')).drop 1).reverse
  else s

/-- `separator.join(parts)`. -/
def join (separator : String) : List String → String
  | [] => ""
  | [part] => part
  | part :: parts => part ++ separator ++ join separator parts

/-- The lines of a file, each with its line feed. -/
def unlines : List String → String
  | [] => ""
  | line :: lines => line ++ "\n" ++ unlines lines

/-- `sorted(texts)`. -/
def sorted (texts : List String) : List String := texts.insertionSort (· ≤ ·)

/-- `s.isdigit()`, for ASCII digits. -/
def isDigits (s : String) : Bool := !s.toList.isEmpty && s.toList.all Char.isDigit

def digitsValue (ds : List Char) : Nat :=
  ds.foldl (fun value d => 10 * value + (d.toNat - '0'.toNat)) 0

/-- The digits of an integer literal: single underscores may stand between digits. -/
def digitsOf : List Char → Option (List Char)
  | [] => none
  | [d] => if d.isDigit then some [d] else none
  | d :: '_' :: rest => if d.isDigit then (digitsOf rest).map (d :: ·) else none
  | d :: rest => if d.isDigit then (digitsOf rest).map (d :: ·) else none

/-- `int(s)`, or `none` where it raises `ValueError`. -/
def parseInt (s : String) : Option Int :=
  match (strip s).toList with
  | '-' :: ds => (digitsOf ds).map fun ds => -(digitsValue ds : Int)
  | '+' :: ds => (digitsOf ds).map fun ds => (digitsValue ds : Int)
  | ds => (digitsOf ds).map fun ds => (digitsValue ds : Int)

/-- A character `shlex.quote` leaves alone. -/
def isShellSafe (c : Char) : Bool := c.isAlphanum || "_@%+=:,./-".toList.contains c

/-- `shlex.quote(s)`. -/
def shellQuote (s : String) : String :=
  if s.toList.isEmpty then "''"
  else if s.toList.all isShellSafe then s
  else "'" ++ replaceChar '\'' "'\"'\"'" s ++ "'"

def hexDigit (n : Nat) : Char := "0123456789abcdef".toList.getD n '0'

/-- `n` as at least `width` lower-case hexadecimal digits. -/
def hex (width n : Nat) : List Char :=
  (List.range width).reverse.map fun i => hexDigit (n / 16 ^ i % 16)

/-- The escape of one character in `repr` of a text quoted with `quote`; the characters that
Python finds unprintable beyond ASCII are kept. -/
def reprChar (quote c : Char) : List Char :=
  if c == quote || c == '\\' then ['\\', c]
  else if c == '\n' then ['\\', 'n']
  else if c == '\r' then ['\\', 'r']
  else if c == '\t' then ['\\', 't']
  else if c.toNat < 32 || c.toNat == 127 then '\\' :: 'x' :: hex 2 c.toNat
  else [c]

/-- `repr(s)`: single quotes, unless only double quotes avoid an escape. -/
def repr (s : String) : String :=
  let quote := if s.toList.contains '\'' && !s.toList.contains '"' then '"' else '\''
  String.ofList (quote :: s.toList.flatMap (reprChar quote) ++ [quote])

/-- `repr` of a tuple of texts. -/
def reprTuple : List String → String
  | [] => "()"
  | [s] => "(" ++ repr s ++ ",)"
  | texts => "(" ++ join ", " (texts.map repr) ++ ")"

/-- The escape of one character in `json.dumps`, which writes ASCII only. -/
def jsonChar (c : Char) : List Char :=
  let n := c.toNat
  if c == '"' || c == '\\' then ['\\', c]
  else if c == '\n' then ['\\', 'n']
  else if c == '\r' then ['\\', 'r']
  else if c == '\t' then ['\\', 't']
  else if n == 8 then ['\\', 'b']
  else if n == 12 then ['\\', 'f']
  else if 32 ≤ n && n ≤ 126 then [c]
  else if n < 0x10000 then '\\' :: 'u' :: hex 4 n
  else
    '\\' :: 'u' :: hex 4 (0xD800 + (n - 0x10000) / 0x400) ++
      '\\' :: 'u' :: hex 4 (0xDC00 + (n - 0x10000) % 0x400)

/-- `json.dumps(s)`. -/
def jsonString (s : String) : String :=
  String.ofList ('"' :: s.toList.flatMap jsonChar ++ ['"'])

/-! ## Paths -/

/-- The components of a path as `pathlib` keeps them: no empty ones and no dots. -/
def pathComponents (path : String) : List String :=
  (split "/" path).filter fun component => component != "" && component != "."

/-- `Path(path).name`. -/
def pathName (path : String) : String := (pathComponents path).getLastD ""

/-- `str(Path(path).parent)` of an absolute path. -/
def pathParent (path : String) : String := "/" ++ join "/" (pathComponents path).dropLast

example : split " path " "ID 256 gen 7 top level 5 path @home" =
    ["ID 256 gen 7 top level 5", "@home"] := by decide

example : parseInt "  751304\n" = some 751304 := by decide

end PyText
