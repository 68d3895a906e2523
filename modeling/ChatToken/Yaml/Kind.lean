import ChatToken.Decimal.Shortest
import ChatToken.Text.Quoted
import ChatToken.Yaml.Event

/-! # Kinds of nodes

A plain scalar without a tag is nothing, a truth value, a number or text, whichever its text reads
as first. A quoted scalar is text. Where another kind of node is expected than stands in a document,
the kind that was found is named.
-/
namespace ChatToken.Yaml

inductive Real where
  | finite (negative : Bool) (b : Binary)
  | infinite (negative : Bool)
  | notANumber
  deriving DecidableEq, Repr

def Real.text : Real → List Char
  | finite negative b => (if negative then ['-'] else []) ++ b.shortest.positional
  | infinite negative => (if negative then ['-'] else []) ++ ['i', 'n', 'f']
  | notANumber => ['N', 'a', 'N']

inductive Kind where
  | nothing
  | boolean (b : Bool)
  | integer (n : Int)
  | real (r : Real)
  | string (s : List Char)
  | sequence
  | mapping
  deriving DecidableEq, Repr

/-- Whole numbers of up to 64 bits, with or without a sign, are called by their digits alone, and
larger ones also by the type that holds them. -/
def integerText (n : Int) : String :=
  let size := if n < -Nat.pow 2 63 then " as i128" else if Nat.pow 2 64 ≤ n then " as u128" else ""
  "integer `" ++ toString n ++ "`" ++ size

def Kind.text : Kind → String
  | nothing => "unit value"
  | boolean b => "boolean `" ++ (if b then "true" else "false") ++ "`"
  | integer n => integerText n
  | real r => "floating point `" ++ String.ofList r.text ++ "`"
  | string s => "string " ++ String.ofList (Text.quoteChars s)
  | sequence => "sequence"
  | mapping => "map"

/-! ## Plain scalars -/

def isNull (cs : List Char) : Bool :=
  [['~'], "null".toList, "Null".toList, "NULL".toList].contains cs

def boolean? (cs : List Char) : Option Bool :=
  if ["true".toList, "True".toList, "TRUE".toList].contains cs then some true
  else if ["false".toList, "False".toList, "FALSE".toList].contains cs then some false
  else none

def digits? (base : Nat) (cs : List Char) : Option Nat :=
  if cs.isEmpty then none
  else
    cs.foldlM (fun n c => do
      let d ← hexValue? c
      if d < base then some (n * base + d) else none) 0

def isPadded (cs : List Char) : Bool :=
  let cs := if cs.head?.any "+-".toList.contains then cs.drop 1 else cs
  1 < cs.length && cs.head? == some '0' && cs.all Char.isDigit

/-- A number without a sign: in base 16, 8 or 2 behind the letter for it, or in base 10. -/
def magnitude? (cs : List Char) : Option Nat :=
  match cs with
  | '0' :: 'x' :: rest => digits? 16 rest
  | '0' :: 'o' :: rest => digits? 8 rest
  | '0' :: 'b' :: rest => digits? 2 rest
  | _ => if isPadded cs then none else digits? 10 cs

/-- A whole number of up to 128 bits. -/
def integer? (cs : List Char) : Option Int :=
  match cs with
  | '-' :: rest =>
    match magnitude? rest with
    | some n => if n ≤ Nat.pow 2 127 then some (-n) else none
    | none => none
  | _ =>
    match magnitude? (if cs.head? = some '+' then cs.drop 1 else cs) with
    | some n => if n < Nat.pow 2 128 then some n else none
    | none => none

def digitsFirst (cs : List Char) : List Char × List Char :=
  (cs.takeWhile Char.isDigit, cs.dropWhile Char.isDigit)

def exponent? (cs : List Char) : Option Int :=
  match cs with
  | [] => some 0
  | e :: rest =>
    if e = 'e' ∨ e = 'E' then
      let digits := if rest.head?.any "+-".toList.contains then rest.drop 1 else rest
      if digits.all Char.isDigit then
        (digits? 10 digits).map fun n => if rest.head? = some '-' then -(n : Int) else n
      else none
    else none

/-- A decimal with a point or an exponent, and a digit before or behind the point. -/
def decimal? (cs : List Char) : Option Decimal := do
  let (whole, rest) := digitsFirst cs
  let (part, rest) :=
    match rest with
    | '.' :: rest => digitsFirst rest
    | _ => ([], rest)
  let significand ← digits? 10 (whole ++ part)
  let exponent ← exponent? rest
  return { significand, exponent := exponent - part.length }

def isInfinity (cs : List Char) : Bool :=
  [".inf".toList, ".Inf".toList, ".INF".toList].contains cs

def real? (cs : List Char) : Option Real :=
  let unsigned := if cs.head?.any "+-".toList.contains then cs.drop 1 else cs
  let negative := cs.head? == some '-'
  if isInfinity unsigned then some (.infinite negative)
  else if [".nan".toList, ".NaN".toList, ".NAN".toList].contains cs then some .notANumber
  else do
    let d ← decimal? unsigned
    let b ← Binary.ofDecimal? d
    return .finite negative b

def Kind.ofPlain (cs : List Char) : Kind :=
  if cs.isEmpty || isNull cs then .nothing
  else
    match boolean? cs, integer? cs, if isPadded cs then none else real? cs with
    | some b, _, _ => .boolean b
    | none, some n, _ => .integer n
    | none, none, some r => .real r
    | none, none, none => .string cs

/-! ## Scalars with a tag -/

def nullTag : List Char := "tag:yaml.org,2002:null".toList
def booleanTag : List Char := "tag:yaml.org,2002:bool".toList
def integerTag : List Char := "tag:yaml.org,2002:int".toList
def realTag : List Char := "tag:yaml.org,2002:float".toList

def Kind.ofScalar (tag : Option (List Char)) (text : List Char) (style : Style) :
    Except String Kind :=
  match tag with
  | none => .ok (if style = .plain then ofPlain text else .string text)
  | some tag =>
    let or {α : Type} (value : Option α) (kind : α → Kind) (wanted : String) :
        Except String Kind :=
      match value with
      | some v => .ok (kind v)
      | none => .error wanted
    if tag = booleanTag then or (boolean? text) .boolean "a boolean"
    else if tag = integerTag then or (integer? text) .integer "an integer"
    else if tag = realTag then or (real? text) .real "a float"
    else if tag = nullTag then if isNull text then .ok .nothing else .error "null"
    else if tag.head? = some '!' && style = .plain then .ok (ofPlain text)
    else .ok (.string text)

end ChatToken.Yaml
