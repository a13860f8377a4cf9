import DynvarSync.Lib.PyText

/-! The parameter names of a function, from its type details or from the header of
its pseudocode. -/
namespace DynvarSync.Ida
open Lib PyText

/-- What argument detection reads of a decompiled function: the indexes of `argidx`, the parameter names of its type
details (empty where a parameter has none), and its pseudocode lines. -/
structure Cfunc where
  argidx : List Int := []
  details : Option (List String) := none
  pseudocode : Option (List String) := none

def prototypeArgNamesFromTinfo (cfunc : Cfunc) : List String := (cfunc.details.getD []).filter (· ≠ "")

/-- Colour tags are control characters. -/
def stripIdaTags (text : String) : List Char := text.toList.filter fun c => 32 ≤ c.toNat ∨ c = '\t'

def strip (cs : List Char) : List Char := stripWith textSpace cs

/-- The lines up to the first with a closing parenthesis. -/
def headerParts : List String → List (List Char)
  | [] => []
  | line :: rest =>
    let text := stripIdaTags line
    if ')' ∈ text then [strip text] else strip text :: headerParts rest

def headerText (lines : List String) : List Char := [' '].intercalate (headerParts lines)

/-- The group of the expression `\((.*)\)`: from the first opening to the last closing parenthesis after it. -/
def parenthesized (header : List Char) : Option (List Char) :=
  match header.dropWhile (· ≠ '(') with
  | [] => none
  | _ :: rest =>
    match rest.reverse.dropWhile (· ≠ ')') with
    | [] => none
    | _ :: inner => some inner.reverse

def openers : List Char := ['(', '[', '\x7b', '<']

def closers : List Char := [')', ']', '\x7d', '>']

/-- The split from a depth of brackets on, with the part read so far. -/
def splitFrom : Nat → List Char → List Char → List (List Char)
  | _, part, [] => if strip part = [] then [] else [strip part]
  | depth, part, c :: rest =>
    if c ∈ openers then splitFrom (depth + 1) (part ++ [c]) rest
    else if c ∈ closers then splitFrom (depth - 1) (part ++ [c]) rest
    else if c = ',' ∧ depth = 0 then strip part :: splitFrom 0 [] rest
    else splitFrom depth (part ++ [c]) rest

def splitArgs (text : List Char) : List (List Char) := splitFrom 0 [] text

def isIdentStart (c : Char) : Bool :=
  (65 ≤ c.toNat && c.toNat ≤ 90) || (97 ≤ c.toNat && c.toNat ≤ 122) || c = '_'

def isIdentChar (c : Char) : Bool := isIdentStart c || (48 ≤ c.toNat && c.toNat ≤ 57)

/-- What may follow a declared name: blanks, and one pair of brackets. -/
def endsDecl (cs : List Char) : Bool :=
  match cs.dropWhile textSpace with
  | [] => true
  | c :: inner =>
    c = '[' && match inner.dropWhile (· ≠ ']') with
      | [] => false
      | _ :: rest => (rest.dropWhile textSpace).isEmpty

/-- The first identifier after which the declaration ends. -/
def declaredName : List Char → Option (List Char)
  | [] => none
  | c :: rest =>
    if isIdentStart c && endsDecl (rest.dropWhile isIdentChar) then some (c :: rest.takeWhile isIdentChar)
    else declaredName rest

def declKeywords : List String :=
  ["void", "char", "short", "int", "long", "float", "double", "signed", "unsigned", "const", "volatile", "struct",
    "union", "enum"]

def extractDeclName (decl : List Char) : String :=
  let decl := strip decl
  if decl = [] ∨ decl = ['.', '.', '.'] then ""
  else
    match declaredName (strip (decl.takeWhile (· ≠ '='))) with
    | none => ""
    | some name => if String.ofList name ∈ declKeywords then "" else String.ofList name

/-- The declarations the header names between its parentheses. -/
def headerDecls (lines : List String) : List (List Char) :=
  match parenthesized (headerText lines) with
  | none => []
  | some group => if strip group = [] ∨ strip group = ['v', 'o', 'i', 'd'] then [] else splitArgs (strip group)

def prototypeArgNamesFromPseudocode (cfunc : Cfunc) : List String :=
  ((headerDecls (cfunc.pseudocode.getD [])).map extractDeclName).filter (· ≠ "")

def prototypeArgNames (cfunc : Cfunc) : List String :=
  if prototypeArgNamesFromTinfo cfunc ≠ [] then prototypeArgNamesFromTinfo cfunc
  else prototypeArgNamesFromPseudocode cfunc

example : prototypeArgNames
    { pseudocode := some ["__int64 __fastcall f(int a,", "    char *b, int c[4])"] } = ["a", "b", "c"] :=
    by decide +kernel

end DynvarSync.Ida
