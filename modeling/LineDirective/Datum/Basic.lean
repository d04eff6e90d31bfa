import LineDirective.Number.Basic

/-!
# Data

A datum is a value that the reader produces: a symbol, a string, a character, a boolean, a number,
a proper or dotted list, a vector or a bytevector.

A program that embeds the reader may also build lists by hand and put values of its own into them.
Such `foreign` values are told apart only to say that they have no written form. One of them has: a
value that is not a number, but not the one that the reader gives for its literal.

`sameValue` compares data as an embedding program does: booleans count as the numbers zero and one,
numbers are equal if their values are, and everything else is equal only to its own kind. The value
for the literal of what is not a number is equal to itself, and a foreign one is equal to nothing.
-/

namespace LineDirective

/-- The kinds of values that may stand in a list built by hand and are not data. -/
inductive Foreign where
  | nothing
  | sequence
  | directive
  | notANumber
deriving DecidableEq, Repr

def Foreign.name : Foreign → Text
  | nothing => "NoneType"
  | sequence => "list"
  | directive => "Directive"
  | notANumber => "float"

inductive Datum where
  | symbol (name : Text)
  | string (content : Text)
  | char (c : CodePoint)
  | boolean (b : Bool)
  | number (n : Number)
  | list (items : List Datum)
  /-- Items before the dot and the datum after it. -/
  | dotted (items : List Datum) (tail : Datum)
  | vector (items : List Datum)
  | bytes (elements : List UInt8)
  | foreign (kind : Foreign) (items : List Datum)
deriving Repr, Inhabited

namespace Datum

abbrev integer (n : Int) : Datum := number (.integer n)

def symbolName? : Datum → Option Text
  | symbol name => some name
  | _ => none

mutual

/-- Whether every dotted list in a datum has an item before its dot, and no foreign value occurs. -/
def wellFormed : Datum → Bool
  | list items | vector items => wellFormedItems items
  | dotted items tail => !items.isEmpty && wellFormedItems items && wellFormed tail
  | foreign _ _ => false
  | symbol _ | string _ | char _ | boolean _ | number _ | bytes _ => true

def wellFormedItems : List Datum → Bool
  | [] => true
  | d :: ds => wellFormed d && wellFormedItems ds

end

/-- The value of a number that is one: a rational number or a signed infinity. -/
inductive Quantity where
  | rational (q : Rat)
  | infinite (negative : Bool)
deriving DecidableEq, Repr

/-- The quantity of a boolean or a number; the value that is not a number has none. -/
def quantity? : Datum → Option Quantity
  | boolean b => some (.rational (if b then 1 else 0))
  | number (.integer n) => some (.rational n)
  | number (.ratio q) => some (.rational q)
  | number (.real (.infinity negative)) => some (.infinite negative)
  | number (.real x) => x.toRat?.map .rational
  | _ => none

mutual

def sameValue : Datum → Datum → Bool
  | symbol a, symbol b => a = b
  | string a, string b => a = b
  | char a, char b => a = b
  | list a, list b => sameItems a b
  | dotted a x, dotted b y => sameItems a b && sameValue x y
  | vector a, vector b => sameItems a b
  | bytes a, bytes b => a = b
  | foreign k a, foreign l b => k = l && k ≠ .notANumber && sameItems a b
  | number (.real .nan), number (.real .nan) => true
  | a, b =>
    match a.quantity?, b.quantity? with
    | some x, some y => x = y
    | _, _ => false

def sameItems : List Datum → List Datum → Bool
  | [], [] => true
  | a :: as, b :: bs => sameValue a b && sameItems as bs
  | _, _ => false

end

end Datum

end LineDirective
